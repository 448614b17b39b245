import Blobsitter.Library.SuppressionWindow
import Mathlib.Algebra.Group.Nat.Defs
import Mathlib.Order.Monotone.Basic

/-!
# Paging a human

Every alarm of the daemon goes through one sink, which drops what it has delivered lately.
The follower alarms when its ticks keep failing, and slows down while they do; the sink
never swallows one of these pages.
-/

namespace Blobsitter.Daemon

open Library

inductive Severity where
  | warning
  | critical
  deriving DecidableEq

/-- An alarm with the time it is raised at. -/
abbrev Raised := Nat × Severity × String

/-- `DedupAlarm`: the suppression window and the last delivery of each message. -/
structure DedupAlarm where
  window : Nat
  seen : Seen String

namespace DedupAlarm

/-- `alarm`: the sink after it, and what is delivered.  The severity is not looked at. -/
def alarm (sink : DedupAlarm) (raised : Raised) : DedupAlarm × List Raised :=
  let now := raised.1
  let message := raised.2.2
  let deliver : DedupAlarm × List Raised :=
    ({ sink with seen := fun other =>
        (Function.update sink.seen message (some now) other).filter fun last =>
          now - last < sink.window }, [raised])
  match sink.seen message with
  | some last => if now - last < sink.window then (sink, []) else deliver
  | none => deliver

def delivered (sink : DedupAlarm) : List Raised → List Raised
  | [] => []
  | raised :: rest => (sink.alarm raised).2 ++ (sink.alarm raised).1.delivered rest

/-- A sink that has delivered nothing. -/
def new (window : Nat) : DedupAlarm := ⟨window, Seen.none⟩

theorem alarm_eq (sink : DedupAlarm) (raised : Raised) :
    sink.alarm raised =
      ({ sink with seen := (sink.seen.step sink.window Prod.snd raised).1 },
        (sink.seen.step sink.window Prod.snd raised).2) := by
  unfold alarm Seen.step Seen.passes
  cases hlast : sink.seen raised.2.2 with
  | none =>
      simp only [hlast]
      rfl
  | some last =>
      simp only [hlast, decide_eq_true_eq]
      by_cases hnear : raised.1 - last < sink.window
      · rw [if_pos hnear, if_neg (Nat.not_le.mpr hnear)]
      · rw [if_neg hnear, if_pos (Nat.not_lt.mp hnear)]
        rfl

theorem delivered_eq (sink : DedupAlarm) (raises : List Raised) :
    sink.delivered raises = sink.seen.passed sink.window Prod.snd raises := by
  induction raises generalizing sink with
  | nil => rfl
  | cons raised rest ih => rw [delivered, ih, alarm_eq, Seen.passed]

end DedupAlarm

/-- Of the alarms raised over a run, in order: those delivered are among them, one message is
delivered a window apart, and an alarm that is dropped has had its message delivered less than
a window before. -/
theorem alarms_delivered {window : Nat} {raises : List Raised} (horder : InOrder raises) :
    ((DedupAlarm.new window).delivered raises).Sublist raises ∧
      ((DedupAlarm.new window).delivered raises).Pairwise
        (fun first second => first.2.2 = second.2.2 → window ≤ second.1 - first.1) ∧
      ∀ raised ∈ raises, raised ∈ (DedupAlarm.new window).delivered raises ∨
        ∃ old ∈ (DedupAlarm.new window).delivered raises, old.2.2 = raised.2.2 ∧
          old.1 ≤ raised.1 ∧ raised.1 < old.1 + window := by
  rw [DedupAlarm.delivered_eq]
  exact ⟨Seen.passed_sublist raises, Seen.passed_spaced horder,
    fun raised hmem => Seen.passed_covers horder hmem⟩

/-- An alarm raised again after one tick has been heard. -/
theorem alarms_delivered_repeated : ∃ old ∈ (DedupAlarm.new 300).delivered
    [(0, .warning, "rpc down"), (12, .critical, "rpc down")], old.1 ≤ 12 ∧ 12 < old.1 + 300 := by
  have horder : InOrder [((0, .warning, "rpc down") : Raised), (12, .critical, "rpc down")] := by
    simp [InOrder]
  obtain ⟨_, _, hheard⟩ := @alarms_delivered 300 _ horder
  rcases hheard (12, .critical, "rpc down") (by simp) with hitself | ⟨old, hold, _, hbefore, hlater⟩
  · exact ⟨_, hitself, by decide, by decide⟩
  · exact ⟨old, hold, hbefore, hlater⟩

/-- `TICK_FAILURES_BEFORE_ALARM`. -/
def tickFailuresBeforeAlarm : Nat := 10

/-- The sleep after a tick, in poll intervals. -/
def backoffMultiplier (consecutiveFailures : Nat) : Nat := 1 <<< min consecutiveFailures 5

def failureHead : String := "follower has failed "

def failureTail : String :=
  " consecutive ticks; the daemon is NOT following the chain. Last error: "

def failureMessage (consecutiveFailures : Nat) (err : String) : String :=
  failureHead ++ consecutiveFailures.repr ++ failureTail ++ err

/-- A tick with the time it ends at. -/
structure Tick where
  ended : Nat
  result : Except String Unit

/-- `poll_once`: the failure count after a tick, and what it raises. -/
def pollOnce (consecutiveFailures : Nat) (tick : Tick) : Nat × List Raised :=
  match tick.result with
  | .ok () => (0, [])
  | .error err =>
      let count := (consecutiveFailures + 1) % 2 ^ 32
      (count, if count % tickFailuresBeforeAlarm = 0 then
        [(tick.ended, .critical, failureMessage count err)] else [])

/-- The count after the ticks of a run. -/
def failuresAfter (consecutiveFailures : Nat) : List Tick → Nat
  | [] => consecutiveFailures
  | tick :: rest => failuresAfter (pollOnce consecutiveFailures tick).1 rest

/-- What the ticks of a run raise. -/
def pages (consecutiveFailures : Nat) : List Tick → List Raised
  | [] => []
  | tick :: rest => (pollOnce consecutiveFailures tick).2 ++ pages (pollOnce consecutiveFailures tick).1 rest

/-- `run`: no tick ends before the sleep after the one before it is over. -/
def Paced (interval : Nat) : Nat → Nat → List Tick → Prop
  | _, _, [] => True
  | consecutiveFailures, ready, tick :: rest =>
      let count := (pollOnce consecutiveFailures tick).1
      ready ≤ tick.ended ∧
        Paced interval count (tick.ended + interval * backoffMultiplier count) rest

/-- The sleeps after `0, …, count - 1` failures, in poll intervals. -/
def backoffSum : Nat → Nat
  | 0 => 0
  | count + 1 => backoffSum count + backoffMultiplier count

theorem backoffSum_one : backoffSum 1 = backoffMultiplier 0 := rfl

theorem backoffSum_succ (count : Nat) :
    backoffSum (count + 1) = backoffSum count + backoffMultiplier count := rfl

theorem backoffSum_mono : Monotone backoffSum :=
  monotone_nat_of_le_succ fun _ => Nat.le_add_right _ _

section

variable {interval failures ready : Nat} {ticks : List Tick} {raised : Raised}

theorem pollOnce_ok {tick : Tick} (hok : tick.result = .ok ()) :
    pollOnce failures tick = (0, []) := by
  rw [pollOnce, hok]

theorem pollOnce_error {tick : Tick} {err : String} (herror : tick.result = .error err)
    (hfits : failures + 1 < 2 ^ 32) :
    pollOnce failures tick = (failures + 1,
      if (failures + 1) % tickFailuresBeforeAlarm = 0 then
        [(tick.ended, .critical, failureMessage (failures + 1) err)] else []) := by
  rw [pollOnce, herror]
  simp only [Nat.mod_eq_of_lt hfits]

/-- A page carries the count of its streak. -/
def PageOf (count : Nat) (raised : Raised) : Prop :=
  ∃ err, raised.2 = (.critical, failureMessage count err)

/-- A page of a longer streak than the current one comes no sooner than the sleeps of that
streak allow; one of a count that is past comes after a reset and all the sleeps up to it. -/
theorem pages_late (hpaced : Paced interval failures ready ticks)
    (hfits : failures + ticks.length < 2 ^ 32) (hmem : raised ∈ pages failures ticks) :
    ∃ count, PageOf count raised ∧ count % tickFailuresBeforeAlarm = 0 ∧
      (failures < count →
        ready + interval * (backoffSum count - backoffSum (failures + 1)) ≤ raised.1) ∧
      (count ≤ failures → ready + interval * backoffSum count ≤ raised.1) := by
  induction ticks generalizing failures ready with
  | nil => cases hmem
  | cons tick rest ih =>
      obtain ⟨hready, hrest⟩ := hpaced
      rw [List.length_cons] at hfits
      rw [pages] at hmem
      cases hresult : tick.result with
      | ok =>
          rw [pollOnce_ok hresult] at hrest hmem
          simp only at hrest
          obtain ⟨count, hpage, hmultiple, hlonger, hpast⟩ := ih hrest (by omega) hmem
          have hreset : ready + interval * backoffSum count ≤ raised.1 := by
            cases count with
            | zero =>
                have hlate := hpast le_rfl
                rw [backoffSum] at hlate ⊢
                omega
            | succ count =>
                have hmono : backoffSum 1 ≤ backoffSum (count + 1) :=
                  backoffSum_mono (Nat.succ_le_succ (Nat.zero_le _))
                have hlate := hlonger (Nat.succ_pos count)
                have hsplit : backoffSum (count + 1) =
                    backoffMultiplier 0 + (backoffSum (count + 1) - backoffSum 1) := by
                  rw [backoffSum_one] at hmono ⊢
                  omega
                rw [hsplit, Nat.mul_add]
                rw [Nat.zero_add] at hlate
                omega
          refine ⟨count, hpage, hmultiple, fun _ => le_trans ?_ hreset, fun _ => hreset⟩
          exact Nat.add_le_add_left (Nat.mul_le_mul_left _ (Nat.sub_le _ _)) _
      | error err =>
          rw [pollOnce_error hresult (by omega)] at hrest hmem
          simp only at hrest
          rcases List.mem_append.mp hmem with hnow | hlater
          · split at hnow
            · rename_i hmultiple
              obtain rfl := List.mem_singleton.mp hnow
              refine ⟨failures + 1, ⟨err, rfl⟩, hmultiple, fun _ => ?_, fun hle => ?_⟩
              · rw [Nat.sub_self, Nat.mul_zero]
                exact hready
              · omega
            · cases hnow
          · obtain ⟨count, hpage, hmultiple, hlonger, hpast⟩ := ih hrest (by omega) hlater
            refine ⟨count, hpage, hmultiple, fun hlt => ?_, fun hle => ?_⟩
            · rcases Nat.eq_or_lt_of_le hlt with heq | hmore
              · have hlate := hpast (Nat.le_of_eq heq.symm)
                have hless : interval * (backoffSum count - backoffSum (failures + 1)) ≤
                    interval * backoffSum count := Nat.mul_le_mul_left _ (Nat.sub_le _ _)
                omega
              · have hlate := hlonger hmore
                have hmono : backoffSum (failures + 1 + 1) ≤ backoffSum count := backoffSum_mono hmore
                have hsplit : backoffSum count - backoffSum (failures + 1) =
                    backoffMultiplier (failures + 1) +
                      (backoffSum count - backoffSum (failures + 1 + 1)) := by
                  have hnext := backoffSum_succ (failures + 1)
                  omega
                rw [hsplit, Nat.mul_add]
                omega
            · have hlate := hpast (Nat.le_succ_of_le hle)
              omega

/-- Equal messages have equal counts: the digits end at the first character that is none. -/
theorem failureMessage_inj {first second : Nat} {err err' : String}
    (heq : failureMessage first err = failureMessage second err') : first = second := by
  have hdigits : ∀ (count : Nat) (rest : List Char),
      (Nat.toDigits 10 count ++ ' ' :: rest).takeWhile Char.isDigit = Nat.toDigits 10 count := by
    intro count rest
    rw [List.takeWhile_append_of_pos fun c hmem =>
      Nat.isDigit_of_mem_toDigits (by decide) (by decide) hmem, List.takeWhile_cons_of_neg (by decide),
      List.append_nil]
  obtain ⟨tail, htail⟩ : ∃ tail, failureTail.toList = ' ' :: tail := by simp [failureTail]
  have hchars := congrArg String.toList heq
  simp only [failureMessage, String.toList_append, Nat.toList_repr, List.append_assoc, htail,
    List.cons_append] at hchars
  have hcounts := congrArg (List.takeWhile Char.isDigit) (List.append_cancel_left hchars)
  rw [hdigits, hdigits] at hcounts
  have hvalue := congrArg (fun digits => Nat.ofDigitChars 10 digits 0) hcounts
  simpa only [Nat.ofDigitChars_toDigits (by decide : 1 < 10) (le_refl 10)] using hvalue

/-- From a page of ten failures or more to the next of the same count a streak ends and another
one grows as long. -/
theorem sleep_le {count : Nat} (hpos : 0 < count) (hmultiple : count % tickFailuresBeforeAlarm = 0) :
    223 ≤ backoffMultiplier count + backoffSum count := by
  have hten : 10 ≤ count := by
    unfold tickFailuresBeforeAlarm at hmultiple
    omega
  have hsum : backoffSum 10 ≤ backoffSum count := backoffSum_mono hten
  have hfirst : backoffSum 10 = 191 := rfl
  have hcap : backoffMultiplier count = 32 := by
    rw [backoffMultiplier, min_eq_right (by omega)]
    rfl
  omega

theorem pages_spaced (hpaced : Paced interval failures ready ticks)
    (hfits : failures + ticks.length < 2 ^ 32) :
    (pages failures ticks).Pairwise fun first second =>
      first.2.2 = second.2.2 → 223 * interval ≤ second.1 - first.1 := by
  induction ticks generalizing failures ready with
  | nil => exact List.Pairwise.nil
  | cons tick rest ih =>
      obtain ⟨hready, hrest⟩ := hpaced
      rw [List.length_cons] at hfits
      rw [pages]
      cases hresult : tick.result with
      | ok =>
          rw [pollOnce_ok hresult] at hrest ⊢
          exact ih hrest (by simp only; omega)
      | error err =>
          rw [pollOnce_error hresult (by omega)] at hrest ⊢
          simp only at hrest ⊢
          have hlater := ih hrest (by omega)
          split
          · rename_i hmultiple
            refine List.pairwise_cons.mpr ⟨fun page hmem hsame => ?_, hlater⟩
            obtain ⟨count, ⟨err', hpage⟩, _, _, hpast⟩ := pages_late hrest (by omega) hmem
            rw [hpage] at hsame
            obtain rfl := failureMessage_inj hsame
            have hlate := hpast le_rfl
            have hlong : 223 ≤ backoffMultiplier (failures + 1) + backoffSum (failures + 1) :=
              sleep_le (Nat.succ_pos failures) hmultiple
            have hsleep := Nat.mul_le_mul_left interval hlong
            rw [Nat.mul_add, Nat.mul_comm] at hsleep
            change 223 * interval ≤ page.1 - tick.ended
            omega
          · exact hlater

/-! ## Streaks -/

def Tick.failed (tick : Tick) : Bool :=
  match tick.result with
  | .ok () => false
  | .error _ => true

/-- How many ticks have failed since the last that did not. -/
def streak (ticks : List Tick) : Nat := (ticks.reverse.takeWhile Tick.failed).length

theorem streak_concat (tick : Tick) :
    streak (ticks ++ [tick]) = if tick.failed then streak ticks + 1 else 0 := by
  unfold streak
  rw [List.reverse_concat, List.takeWhile_cons]
  split
  · exact List.length_cons
  · rfl

theorem streak_le : streak ticks ≤ ticks.length := by
  unfold streak
  exact (List.takeWhile_sublist _).length_le.trans (Nat.le_of_eq List.length_reverse)

theorem failuresAfter_concat (tick : Tick) :
    failuresAfter failures (ticks ++ [tick]) = (pollOnce (failuresAfter failures ticks) tick).1 := by
  induction ticks generalizing failures with
  | nil => rfl
  | cons first rest ih => exact ih

/-- The count is the length of the streak. -/
theorem failuresAfter_eq (hfits : ticks.length < 2 ^ 32) : failuresAfter 0 ticks = streak ticks := by
  induction ticks using List.reverseRecOn with
  | nil => rfl
  | append_singleton ticks tick ih =>
      rw [List.length_append, List.length_singleton] at hfits
      have hle : streak ticks ≤ ticks.length := streak_le
      rw [failuresAfter_concat, streak_concat, ih (by omega)]
      cases hresult : tick.result with
      | ok =>
          rw [pollOnce_ok hresult, Tick.failed, hresult]
          rfl
      | error err =>
          rw [pollOnce_error hresult (by omega), Tick.failed, hresult]
          rfl

theorem pages_append (first second : List Tick) :
    pages failures (first ++ second) =
      pages failures first ++ pages (failuresAfter failures first) second := by
  induction first generalizing failures with
  | nil => rfl
  | cons tick rest ih =>
      rw [List.cons_append, pages, ih, ← List.append_assoc]
      rfl

/-- The pages of a run: one for each tick at which a streak has reached a multiple of ten. -/
theorem mem_pages (hfits : ticks.length < 2 ^ 32) :
    raised ∈ pages 0 ticks ↔ ∃ before tick after err, ticks = before ++ tick :: after ∧
      tick.result = .error err ∧ (streak before + 1) % tickFailuresBeforeAlarm = 0 ∧
      raised = (tick.ended, .critical, failureMessage (streak before + 1) err) := by
  have hpage : ∀ (before : List Tick) (tick : Tick) (err : String), before.length + 1 < 2 ^ 32 →
      tick.result = .error err → pollOnce (failuresAfter 0 before) tick = (streak before + 1,
        if (streak before + 1) % tickFailuresBeforeAlarm = 0 then
          [(tick.ended, .critical, failureMessage (streak before + 1) err)] else []) := by
    intro before tick err hshort hresult
    have hle : streak before ≤ before.length := streak_le
    rw [failuresAfter_eq (by omega), pollOnce_error hresult (by omega)]
  constructor
  · intro hmem
    induction ticks using List.reverseRecOn with
    | nil => cases hmem
    | append_singleton ticks tick ih =>
        rw [List.length_append, List.length_singleton] at hfits
        rw [pages_append, pages, pages, List.append_nil] at hmem
        rcases List.mem_append.mp hmem with hearlier | hlast
        · obtain ⟨before, found, after, err, hsplit, hrest⟩ := ih (by omega) hearlier
          refine ⟨before, found, after ++ [tick], err, ?_, hrest⟩
          rw [hsplit, List.append_assoc, List.cons_append]
        · cases hresult : tick.result with
          | ok =>
              rw [pollOnce_ok hresult] at hlast
              cases hlast
          | error err =>
              rw [hpage ticks tick err hfits hresult] at hlast
              split at hlast
              · rename_i hmultiple
                exact ⟨ticks, tick, [], err, rfl, hresult, hmultiple, List.mem_singleton.mp hlast⟩
              · cases hlast
  · rintro ⟨before, tick, after, err, rfl, hresult, hmultiple, rfl⟩
    rw [List.length_append, List.length_cons] at hfits
    rw [pages_append, pages, hpage before tick err (by omega) hresult, if_pos hmultiple]
    exact List.mem_append_right _ (List.mem_append_left _ List.mem_cons_self)

/-- The follower's own messages. -/
def fromFollower (message : String) : Bool := failureHead.toList.isPrefixOf message.toList

theorem fromFollower_message (count : Nat) (err : String) :
    fromFollower (failureMessage count err) = true := by
  rw [fromFollower, List.isPrefixOf_iff_prefix, failureMessage, String.append_assoc,
    String.append_assoc, String.toList_append]
  exact List.prefix_append _ _

/-- In every run of the follower's loop, whatever its ticks return and whatever else raises alarms
at the sink meanwhile: the failure count is the length of the streak, and what the sink delivers
of the follower are, in order, the pages of the streaks.  A page is delivered for a failed tick
exactly when the failures in a row up to it are a multiple of ten. -/
theorem persistent_failure_pages {window : Nat} {raises : List Raised}
    (hpaced : Paced interval 0 ready ticks) (hfits : ticks.length < 2 ^ 32)
    (horder : InOrder raises)
    (hraises : raises.filter (fun raised => fromFollower raised.2.2) = pages 0 ticks)
    (hwindow : window ≤ 223 * interval) :
    failuresAfter 0 ticks = streak ticks ∧
      ((DedupAlarm.new window).delivered raises).filter (fun raised => fromFollower raised.2.2) =
        pages 0 ticks ∧
      ∀ raised, raised ∈ (DedupAlarm.new window).delivered raises ∧ fromFollower raised.2.2 = true ↔
        ∃ before tick after err, ticks = before ++ tick :: after ∧ tick.result = .error err ∧
          (streak before + 1) % tickFailuresBeforeAlarm = 0 ∧
          raised = (tick.ended, .critical, failureMessage (streak before + 1) err) := by
  have hspaced := pages_spaced hpaced (by omega)
  have hclass : ((DedupAlarm.new window).delivered raises).filter
      (fun raised => fromFollower raised.2.2) = pages 0 ticks := by
    rw [DedupAlarm.delivered_eq, ← hraises]
    refine Seen.passed_filter horder fromFollower ?_
    rw [hraises]
    exact hspaced.imp fun hfar hsame => hwindow.trans (hfar hsame)
  refine ⟨failuresAfter_eq hfits, hclass, fun raised => ?_⟩
  rw [← mem_pages hfits, ← hclass, List.mem_filter]

end

/-- Ten ticks that time out, at the default interval. -/
def timedOutTicks : List Tick :=
  [0, 24, 72, 168, 360, 744, 1128, 1512, 1896, 2280].map fun ended => ⟨ended, .error "timed out"⟩

/-- The tenth pages. -/
theorem persistent_failure_pages_timed_out :
    (2280, .critical, failureMessage 10 "timed out") ∈ (DedupAlarm.new 300).delivered
      [(2280, .critical, failureMessage 10 "timed out")] := by
  have hpaced : Paced 12 0 0 timedOutTicks := by
    simp [Paced, timedOutTicks, pollOnce, backoffMultiplier]
  have hraises : [((2280, .critical, failureMessage 10 "timed out") : Raised)].filter
      (fun raised => fromFollower raised.2.2) = pages 0 timedOutTicks := by
    simp only [List.filter_cons, fromFollower_message, if_true]
    rfl
  obtain ⟨_, _, hdelivered⟩ := persistent_failure_pages hpaced (by decide)
    (List.pairwise_singleton _ _) hraises (by decide : 300 ≤ 223 * 12)
  refine ((hdelivered _).mpr ⟨timedOutTicks.take 9, ⟨2280, .error "timed out"⟩, [], "timed out", rfl,
    rfl, rfl, rfl⟩).1

end Blobsitter.Daemon
