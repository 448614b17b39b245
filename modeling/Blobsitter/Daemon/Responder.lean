import Blobsitter.Daemon.Ledger

/-!
# The responder

Each tick goes through the ledger and starts a job for every entry before its deadline that
has neither a recorded response nor a job.
-/

namespace Blobsitter.Daemon

/-- A response job: at work, or confirmed and not yet recorded, or at its end. -/
inductive Job where
  | answering
  | confirmed (txHash : String)
  | finished

def Job.isFinished : Job → Bool
  | .finished => true
  | _ => false

/-- The ledger, shared with the scan, and the job registry. -/
structure Responder where
  ledger : Ledger
  jobs : Nat → Option Job

namespace Responder

/-- What the loop of `drive` makes of one entry. -/
def driveEntry (chainNow : Nat) (jobs : Nat → Option Job) (entry : OpenChallenge) :
    Nat → Option Job :=
  if chainNow ≥ entry.deadline then jobs
  else if entry.respondedTx.isSome || (jobs entry.challengeId).isSome then jobs
  else Function.update jobs entry.challengeId (some .answering)

/-- `jobs.retain(|_, handle| !handle.is_finished())`. -/
def retain (jobs : Nat → Option Job) : Nat → Option Job :=
  fun id => (jobs id).filter fun job => !job.isFinished

/-- `Responder::drive`, alarms aside. -/
def drive (self : Responder) (chainNow : Nat) : Responder :=
  { self with
    jobs := (self.ledger.entries.toList.map Prod.snd).foldl (driveEntry chainNow)
      (retain self.jobs) }

end Responder

section

variable {chainNow id : Nat} {jobs : Nat → Option Job} {entry : OpenChallenge}

namespace Responder

theorem driveEntry_cases (chainNow id : Nat) (jobs : Nat → Option Job) (entry : OpenChallenge) :
    driveEntry chainNow jobs entry id = jobs id ∨
      driveEntry chainNow jobs entry id = some .answering ∧ jobs id = none ∧
        entry.challengeId = id ∧ entry.respondedTx = none := by
  unfold driveEntry
  split
  · exact Or.inl rfl
  · split
    · exact Or.inl rfl
    · rename_i hfree
      rw [Bool.or_eq_true, not_or, Option.not_isSome_iff_eq_none, Option.not_isSome_iff_eq_none]
        at hfree
      by_cases hid : entry.challengeId = id
      · subst hid
        exact Or.inr ⟨Function.update_self _ _ _, hfree.2, rfl, hfree.1⟩
      · exact Or.inl (Function.update_of_ne (fun heq => hid heq.symm) _ _)

theorem driveEntry_starts (hopen : chainNow < entry.deadline) (hunanswered : entry.respondedTx = none)
    (hfree : jobs entry.challengeId = none) :
    driveEntry chainNow jobs entry entry.challengeId = some .answering := by
  unfold driveEntry
  rw [if_neg (Nat.not_le_of_lt hopen), hunanswered, hfree]
  exact Function.update_self _ _ _

/-- The loop never touches a job that is registered. -/
theorem foldl_driveEntry_kept {entries : List OpenChallenge} {job : Job}
    (hjob : jobs id = some job) : entries.foldl (driveEntry chainNow) jobs id = some job := by
  induction entries generalizing jobs with
  | nil => exact hjob
  | cons first rest ih =>
      refine ih ?_
      rcases driveEntry_cases chainNow id jobs first with hsame | ⟨_, hnone, _⟩
      · rw [hsame, hjob]
      · rw [hnone] at hjob
        cases hjob

/-- What it registers is the job of an entry without a recorded response. -/
theorem foldl_driveEntry_cases {entries : List OpenChallenge} (hfree : jobs id = none) :
    entries.foldl (driveEntry chainNow) jobs id = none ∨
      entries.foldl (driveEntry chainNow) jobs id = some .answering ∧
        ∃ entry ∈ entries, entry.challengeId = id ∧ entry.respondedTx = none := by
  induction entries generalizing jobs with
  | nil => exact Or.inl hfree
  | cons first rest ih =>
      rcases driveEntry_cases chainNow id jobs first with hsame | ⟨hstarts, _, hid, hunanswered⟩
      · rcases ih (hsame.trans hfree) with hnone | ⟨hlater, entry, hmem, hentry⟩
        · exact Or.inl hnone
        · exact Or.inr ⟨hlater, entry, List.mem_cons_of_mem _ hmem, hentry⟩
      · rw [List.foldl_cons]
        exact Or.inr ⟨foldl_driveEntry_kept hstarts, first, List.mem_cons_self, hid, hunanswered⟩

theorem foldl_driveEntry_starts {entries : List OpenChallenge} (hmem : entry ∈ entries)
    (hopen : chainNow < entry.deadline) (hunanswered : entry.respondedTx = none)
    (hfree : jobs entry.challengeId = none) :
    entries.foldl (driveEntry chainNow) jobs entry.challengeId = some .answering := by
  induction entries generalizing jobs with
  | nil => cases hmem
  | cons first rest ih =>
      rw [List.foldl_cons]
      rcases List.mem_cons.mp hmem with rfl | hrest
      · exact foldl_driveEntry_kept (driveEntry_starts hopen hunanswered hfree)
      · rcases driveEntry_cases chainNow entry.challengeId jobs first with hsame | ⟨hstarts, _⟩
        · exact ih hrest (hsame.trans hfree)
        · exact foldl_driveEntry_kept hstarts

/-- No tick confirms a job. -/
theorem drive_confirmed {self : Responder} {txHash : String}
    (hjob : (self.drive chainNow).jobs id = some (.confirmed txHash)) :
    self.jobs id = some (.confirmed txHash) := by
  unfold drive at hjob
  simp only at hjob
  cases hretained : retain self.jobs id with
  | none =>
      rcases foldl_driveEntry_cases hretained with hnone | ⟨hstarts, _⟩
      · rw [hnone] at hjob
        cases hjob
      · rw [hstarts] at hjob
        cases hjob
  | some job =>
      rw [foldl_driveEntry_kept hretained] at hjob
      obtain rfl := Option.some.inj hjob
      exact (Option.filter_eq_some_iff.mp hretained).1

end Responder

end

end Blobsitter.Daemon
