import Blobsitter.Daemon.Config
import Blobsitter.Daemon.Cursor
import Blobsitter.Library.Fallible
import Blobsitter.Library.Spans

/-!
# Paging through the logs

Both scans of the follower ask for their logs page by page, each behind its own cursor,
and share the size of a page: it doubles when a page is answered, up to the configured
one, and is halved when a page is refused.  Block numbers and sizes are 64-bit.
-/

namespace Blobsitter.Daemon

open Library

inductive ScanKind where
  | declared
  | enforcement
  deriving DecidableEq, Repr

structure Pager where
  cursor : Nat
  enfCursor : Nat
  currentPage : Nat
  deriving DecidableEq, Repr

/-- Whether a page is answered, and its logs are consumed and the cursor written. -/
inductive PageEnd where
  | served
  | refused
  deriving DecidableEq, Repr

namespace Pager

variable (logPage : Nat) (kind : ScanKind) (finalized : Nat) (s : Pager)

def position : Nat :=
  match kind with
  | .declared => s.cursor
  | .enforcement => s.enfCursor

def moveTo (block : Nat) : Pager :=
  match kind with
  | .declared => { s with cursor := block }
  | .enforcement => { s with enfCursor := block }

/-- The blocks of the next page. -/
def asked : Span :=
  ⟨(s.position kind + 1) % 2 ^ 64, min finalized ((s.position kind + s.currentPage) % 2 ^ 64)⟩

/-- `page`, answered. -/
def grow : Pager := { s with currentPage := min (s.currentPage * 2 % 2 ^ 64) logPage }

/-- `page`, refused. -/
def shrink : Pager := { s with currentPage := shrunkPage s.currentPage }

/-- The loop of a scan, for as many pages as there are answers: where it stands, and the
pages that were served. -/
def scan : List PageEnd → Pager → Pager × List Span
  | [], s => (s, [])
  | ending :: rest, s =>
      if s.position kind < finalized then
        match ending with
        | .served =>
            let next := scan rest ((s.grow logPage).moveTo kind (s.asked kind finalized).last)
            (next.1, s.asked kind finalized :: next.2)
        | .refused => (s.shrink, [])
      else (s, [])

end Pager

/-- What moves the cursors and the page: a scan, up to some finalized block; a page that is
answered while its logs or the cursor file fail; a move of a cursor back to be redelivered; a
new process, with the cursors of its files. -/
inductive PagerStep (logPage bound : Nat) (s : Pager) : Pager → Prop where
  | scans (kind : ScanKind) {finalized : Nat} (hbound : finalized ≤ bound) (ends : List PageEnd) :
      PagerStep logPage bound s (s.scan logPage kind finalized ends).1
  | breaks : PagerStep logPage bound s (s.grow logPage)
  | rewinds (kind : ScanKind) (block : Nat) : PagerStep logPage bound s (s.moveTo kind block)
  | restarts (cursor enfCursor : Nat) : PagerStep logPage bound s ⟨cursor, enfCursor, logPage⟩

inductive PagerReachable (logPage bound : Nat) : Pager → Prop where
  | starts (cursor enfCursor : Nat) : PagerReachable logPage bound ⟨cursor, enfCursor, logPage⟩
  | step {s next : Pager} (hreach : PagerReachable logPage bound s)
      (hstep : PagerStep logPage bound s next) : PagerReachable logPage bound next

/-- Scans of both kinds in any order, and the pages served to one of them. -/
inductive ScanRun (logPage bound : Nat) (kind : ScanKind) (s : Pager) :
    List Span → Pager → Prop where
  | here : ScanRun logPage bound kind s [] s
  | own {asked : List Span} {later : Pager} (hrun : ScanRun logPage bound kind s asked later)
      {finalized : Nat} (hbound : finalized ≤ bound) (ends : List PageEnd) :
      ScanRun logPage bound kind s (asked ++ (later.scan logPage kind finalized ends).2)
        (later.scan logPage kind finalized ends).1
  | other {asked : List Span} {later : Pager} (hrun : ScanRun logPage bound kind s asked later)
      {different : ScanKind} (hother : different ≠ kind) {finalized : Nat}
      (hbound : finalized ≤ bound) (ends : List PageEnd) :
      ScanRun logPage bound kind s asked (later.scan logPage different finalized ends).1

/-- Paging covers every block once and ends, for finalized blocks up to a bound. -/
structure PagesOnce (logPage bound : Nat) : Prop where
  page : ∀ s, PagerReachable logPage bound s → 1 ≤ s.currentPage ∧ s.currentPage ≤ logPage
  leads : ∀ s, PagerReachable logPage bound s → ∀ kind asked later,
    ScanRun logPage bound kind s asked later → Leads (s.position kind) asked (later.position kind)
  once : ∀ s, PagerReachable logPage bound s → ∀ kind asked later,
    ScanRun logPage bound kind s asked later → ∀ block, s.position kind < block →
      block ≤ later.position kind → ∃! i : Nat, ∃ span, asked[i]? = some span ∧ span.Holds block
  ends : ∀ s, PagerReachable logPage bound s → ∀ kind finalized, finalized ≤ bound →
    s.position kind ≤ finalized → ∀ pages, finalized ≤ s.position kind + pages →
      (s.scan logPage kind finalized (List.replicate pages .served)).1.position kind = finalized

namespace Pager

variable {logPage finalized bound : Nat} {kind different : ScanKind} {s : Pager}

@[simp]
theorem position_grow : (s.grow logPage).position kind = s.position kind := by
  cases kind <;> rfl

@[simp]
theorem position_shrink : s.shrink.position kind = s.position kind := by
  cases kind <;> rfl

@[simp]
theorem position_moveTo (block : Nat) : (s.moveTo kind block).position kind = block := by
  cases kind <;> rfl

theorem position_moveTo_other (hother : different ≠ kind) (block : Nat) :
    (s.moveTo different block).position kind = s.position kind := by
  cases kind <;> cases different <;> first | rfl | exact absurd rfl hother

@[simp]
theorem currentPage_moveTo (block : Nat) : (s.moveTo kind block).currentPage = s.currentPage := by
  cases kind <;> rfl

/-- The page size is at least one block and at most the configured one. -/
def Fits (logPage : Nat) (s : Pager) : Prop := 1 ≤ s.currentPage ∧ s.currentPage ≤ logPage

theorem Fits.moveTo (hfits : s.Fits logPage) (block : Nat) : (s.moveTo kind block).Fits logPage := by
  unfold Fits at hfits ⊢
  rw [currentPage_moveTo]
  exact hfits

/-- Below half of the numbers doubling does not wrap. -/
theorem grow_currentPage (hhalf : s.currentPage < 2 ^ 63) :
    (s.grow logPage).currentPage = grownPage logPage s.currentPage := by
  have hdouble : s.currentPage * 2 % 2 ^ 64 = s.currentPage * 2 := Nat.mod_eq_of_lt (by omega)
  rw [grow, hdouble]
  rfl

theorem Fits.grow (hfits : s.Fits logPage) (hlogPage : logPage < 2 ^ 63) :
    (s.grow logPage).Fits logPage := by
  obtain ⟨hone, hle⟩ := hfits
  unfold Fits
  rw [grow_currentPage (hle.trans_lt hlogPage), grownPage]
  exact ⟨le_min (by omega) (hone.trans hle), min_le_right _ _⟩

theorem Fits.shrink (hfits : s.Fits logPage) : s.shrink.Fits logPage := by
  obtain ⟨hone, hle⟩ := hfits
  unfold Fits Pager.shrink shrunkPage
  exact ⟨le_max_right _ _, max_le ((Nat.div_le_self _ _).trans hle) (hone.trans hle)⟩

/-- The page that is asked for begins behind the cursor and is not empty. -/
theorem Fits.asked_eq (hfits : s.Fits logPage) (hbound : bound + logPage ≤ 2 ^ 64)
    (hfinalized : finalized ≤ bound) (hmore : s.position kind < finalized) :
    s.position kind < (s.asked kind finalized).last ∧ (s.asked kind finalized).last ≤ finalized ∧
      s.asked kind finalized = ⟨s.position kind + 1, (s.asked kind finalized).last⟩ := by
  obtain ⟨hone, hle⟩ := hfits
  have hfirst : (s.position kind + 1) % 2 ^ 64 = s.position kind + 1 := Nat.mod_eq_of_lt (by omega)
  have hlast : (s.position kind + s.currentPage) % 2 ^ 64 = s.position kind + s.currentPage :=
    Nat.mod_eq_of_lt (by omega)
  unfold asked
  rw [hfirst, hlast]
  exact ⟨lt_min hmore (Nat.lt_add_of_pos_right hone), min_le_left _ _, rfl⟩

/-! ## One scan -/

theorem scan_served (hmore : s.position kind < finalized) (rest : List PageEnd) :
    s.scan logPage kind finalized (.served :: rest) =
      ((((s.grow logPage).moveTo kind (s.asked kind finalized).last).scan logPage kind finalized
          rest).1,
        s.asked kind finalized ::
          (((s.grow logPage).moveTo kind (s.asked kind finalized).last).scan logPage kind finalized
            rest).2) :=
  if_pos hmore

theorem scan_refused (hmore : s.position kind < finalized) (rest : List PageEnd) :
    s.scan logPage kind finalized (.refused :: rest) = (s.shrink, []) :=
  if_pos hmore

theorem scan_done (hdone : ¬s.position kind < finalized) (ends : List PageEnd) :
    s.scan logPage kind finalized ends = (s, []) := by
  cases ends with
  | nil => rfl
  | cons ending rest => cases ending <;> exact if_neg hdone

/-- A scan keeps the page size within its bounds, moves its own cursor only, and the pages
that are served lead from where the cursor stood to where it stands. -/
theorem Fits.scan (hfits : s.Fits logPage) (hlogPage : logPage < 2 ^ 63)
    (hbound : bound + logPage ≤ 2 ^ 64) (hfinalized : finalized ≤ bound) (ends : List PageEnd) :
    (s.scan logPage kind finalized ends).1.Fits logPage ∧
      Leads (s.position kind) (s.scan logPage kind finalized ends).2
        ((s.scan logPage kind finalized ends).1.position kind) ∧
      ∀ different, different ≠ kind →
        (s.scan logPage kind finalized ends).1.position different = s.position different := by
  induction ends generalizing s with
  | nil => exact ⟨hfits, .here _, fun _ _ => rfl⟩
  | cons ending rest ih =>
      by_cases hmore : s.position kind < finalized
      · cases ending with
        | served =>
            rw [scan_served hmore]
            obtain ⟨hlt, _, hasked⟩ := hfits.asked_eq hbound hfinalized hmore
            have hgrown := hfits.grow hlogPage
            have hnext : ((s.grow logPage).moveTo kind (s.asked kind finalized).last).Fits logPage :=
              hgrown.moveTo _
            obtain ⟨hlater, hleads, hsame⟩ := ih hnext
            rw [position_moveTo] at hleads
            refine ⟨hlater, ?_, ?_⟩
            · rw [hasked]
              exact .past hlt hleads
            · intro different hother
              exact (hsame different hother).trans
                ((position_moveTo_other hother.symm _).trans position_grow)
        | refused =>
            rw [scan_refused hmore]
            refine ⟨hfits.shrink, ?_, fun _ _ => position_shrink⟩
            rw [position_shrink]
            exact .here _
      · rw [scan_done hmore]
        exact ⟨hfits, .here _, fun _ _ => rfl⟩

/-- When every page is served the scan ends at the finalized block. -/
theorem Fits.scan_ends (hfits : s.Fits logPage) (hlogPage : logPage < 2 ^ 63)
    (hbound : bound + logPage ≤ 2 ^ 64) (hfinalized : finalized ≤ bound)
    (hbehind : s.position kind ≤ finalized) {pages : Nat}
    (hpages : finalized ≤ s.position kind + pages) :
    (s.scan logPage kind finalized (List.replicate pages .served)).1.position kind = finalized := by
  induction pages generalizing s with
  | zero => exact le_antisymm hbehind hpages
  | succ pages ih =>
      by_cases hmore : s.position kind < finalized
      · rw [List.replicate_succ, scan_served hmore]
        obtain ⟨hlt, hle, _⟩ := hfits.asked_eq hbound hfinalized hmore
        refine ih ((hfits.grow hlogPage).moveTo _) ?_ ?_
        · rw [position_moveTo]
          exact hle
        · rw [position_moveTo]
          omega
      · rw [scan_done hmore]
        exact le_antisymm hbehind (not_lt.mp hmore)

end Pager

section

variable {logPage bound finalized : Nat} {kind : ScanKind} {s : Pager}

theorem PagerReachable.fits (hreach : PagerReachable logPage bound s) (hone : 1 ≤ logPage)
    (hlogPage : logPage < 2 ^ 63) (hbound : bound + logPage ≤ 2 ^ 64) : s.Fits logPage := by
  induction hreach with
  | starts => exact ⟨hone, le_rfl⟩
  | step _ hstep ih =>
      cases hstep with
      | scans kind hfinalized ends => exact (ih.scan hlogPage hbound hfinalized ends).1
      | breaks => exact ih.grow hlogPage
      | rewinds kind block => exact ih.moveTo block
      | restarts => exact ⟨hone, le_rfl⟩

theorem ScanRun.leads {asked : List Span} {later : Pager}
    (hrun : ScanRun logPage bound kind s asked later) (hfits : s.Fits logPage)
    (hlogPage : logPage < 2 ^ 63) (hbound : bound + logPage ≤ 2 ^ 64) :
    later.Fits logPage ∧ Leads (s.position kind) asked (later.position kind) := by
  induction hrun with
  | here => exact ⟨hfits, .here _⟩
  | own _ hfinalized ends ih =>
      obtain ⟨hnext, hleads, _⟩ := ih.1.scan hlogPage hbound hfinalized ends
      exact ⟨hnext, ih.2.append hleads⟩
  | other _ hother hfinalized ends ih =>
      obtain ⟨hnext, _, hsame⟩ := ih.1.scan hlogPage hbound hfinalized ends
      refine ⟨hnext, ?_⟩
      rw [hsame kind hother.symm]
      exact ih.2

theorem pagesOnce_of_fits (hone : 1 ≤ logPage) (hlogPage : logPage < 2 ^ 63)
    (hbound : bound + logPage ≤ 2 ^ 64) : PagesOnce logPage bound := by
  constructor
  case page =>
    intro s hreach
    exact hreach.fits hone hlogPage hbound
  case leads =>
    intro s hreach kind asked later hrun
    exact (hrun.leads (hreach.fits hone hlogPage hbound) hlogPage hbound).2
  case once =>
    intro s hreach kind asked later hrun block hlow hhigh
    exact (hrun.leads (hreach.fits hone hlogPage hbound) hlogPage hbound).2.holds_once hlow hhigh
  case ends =>
    intro s hreach kind finalized hfinalized hbehind pages hpages
    exact (hreach.fits hone hlogPage hbound).scan_ends hlogPage hbound hfinalized hbehind hpages

/-- One page from the block before the bound must not wrap. -/
theorem PagesOnce.bound_le (honce : PagesOnce logPage bound) (hpositive : 1 ≤ bound)
    (hlogPage : logPage < 2 ^ 63) : bound + logPage ≤ 2 ^ 64 := by
  have hstart : PagerReachable logPage bound ⟨bound - 1, bound - 1, logPage⟩ :=
    PagerReachable.starts _ _
  have hbefore : bound - 1 < bound := Nat.sub_lt hpositive Nat.one_pos
  have hend := honce.ends _ hstart .declared bound le_rfl hbefore.le 1
    (Nat.sub_add_cancel hpositive).ge
  rw [List.replicate_one, Pager.scan_served hbefore] at hend
  change min bound ((bound - 1 + logPage) % 2 ^ 64) = bound at hend
  by_contra hwraps
  omega

end

/-- Loading leaves the page size as the file has it. -/
theorem Config.load_logPageBlocks {fromStr : String → Except String Config}
    {env : String → Option String} {raw : Except ConfigError String} {config : Config}
    (hload : Config.load fromStr env raw = .ok config) :
    ∃ text parsed, fromStr text = .ok parsed ∧ config.logPageBlocks = parsed.logPageBlocks := by
  obtain ⟨text, _, hload⟩ := bind_eq_ok.mp hload
  obtain ⟨parsed, hparsed, hload⟩ := bind_eq_ok.mp hload
  split at hload
  · cases hload
  · split at hload
    · cases hload
    · obtain ⟨executionRpc, _, hload⟩ := bind_eq_ok.mp hload
      obtain ⟨endpoints, _, hload⟩ := bind_eq_ok.mp hload
      obtain ⟨blobscanUrl, _, hload⟩ := bind_eq_ok.mp hload
      obtain rfl := pure_eq_ok.mp hload
      exact ⟨text, parsed, mapError_eq_ok.mp hparsed, rfl⟩

/-- Under a configuration that is accepted, with integers as TOML has them, paging covers
every block once and ends exactly when a page has at least one block and the highest
finalized block leaves room for one page. -/
theorem paging_once_iff {fromStr : String → Except String Config} {env : String → Option String}
    {raw : Except ConfigError String} {config : Config} {bound : Nat}
    (hinteger : ∀ text parsed, fromStr text = .ok parsed → parsed.logPageBlocks < 2 ^ 63)
    (hload : Config.load fromStr env raw = .ok config) (hpositive : 1 ≤ bound) :
    PagesOnce config.logPageBlocks bound ↔
      1 ≤ config.logPageBlocks ∧ bound + config.logPageBlocks ≤ 2 ^ 64 := by
  obtain ⟨text, parsed, hparsed, hsame⟩ := Config.load_logPageBlocks hload
  have hlogPage : config.logPageBlocks < 2 ^ 63 := hsame ▸ hinteger text parsed hparsed
  constructor
  · intro honce
    exact ⟨(honce.page _ (.starts 0 0)).1, honce.bound_le hpositive hlogPage⟩
  · rintro ⟨hone, hbound⟩
    exact pagesOnce_of_fits hone hlogPage hbound

/-- A text without references is expanded to itself. -/
theorem expandEnv_plain (env : String → Option String) {s : String}
    (hplain : findOpening s.toList = none) : expandEnv env s = .ok s := by
  rw [expandEnv, expandLoop]
  split
  · rw [ok_bind]
    exact congrArg Except.ok String.ofList_toList
  · rename_i hsome
    rw [hplain] at hsome
    cases hsome

def localConfig (logPageBlocks : Nat) : Config where
  executionRpc := "http://localhost:8545"
  deploymentBlock := 1
  logPageBlocks := logPageBlocks
  beacon := ⟨["http://localhost:5052"], 12⟩
  blobscanUrl := none

theorem localConfig_loads (logPageBlocks : Nat) :
    Config.load (fun _ => .ok (localConfig logPageBlocks)) (fun _ => none) (.ok "") =
      .ok (localConfig logPageBlocks) := by
  have hrpc : expandEnv (fun _ => none) "http://localhost:8545" = .ok "http://localhost:8545" :=
    expandEnv_plain _ rfl
  have hendpoint : expandEnv (fun _ => none) "http://localhost:5052" =
      .ok "http://localhost:5052" := expandEnv_plain _ rfl
  have hendpoints : ["http://localhost:5052"].mapM (expandEnv fun _ => none) =
      .ok ["http://localhost:5052"] := by
    rw [List.mapM_cons, hendpoint, ok_bind]
    rfl
  refine bind_eq_ok.mpr ⟨"", rfl, bind_eq_ok.mpr ⟨localConfig logPageBlocks, rfl, ?_⟩⟩
  have hslots : ¬(localConfig logPageBlocks).beacon.secondsPerSlot = 0 := Nat.succ_ne_zero 11
  have hlisted : ¬(localConfig logPageBlocks).beacon.endpoints.isEmpty = true := Bool.false_ne_true
  rw [if_neg hslots, if_neg hlisted]
  exact bind_eq_ok.mpr ⟨_, hrpc, bind_eq_ok.mpr ⟨_, hendpoints, bind_eq_ok.mpr ⟨none, rfl, rfl⟩⟩⟩

theorem paging_once_default : PagesOnce 5000 20000000 :=
  (paging_once_iff (fun _ parsed hparsed => by
    obtain rfl := Except.ok.inj hparsed
    decide) (localConfig_loads 5000) (by decide)).mpr ⟨by decide, by decide⟩

/-- A page of no blocks is accepted, and however many pages are served, each of them is
empty and the cursor stays where it is. -/
theorem zero_page_never_ends :
    Config.load (fun _ => .ok (localConfig 0)) (fun _ => none) (.ok "") = .ok (localConfig 0) ∧
      ∀ pages, Pager.scan 0 .declared 10 (List.replicate pages .served) ⟨5, 5, 0⟩ =
        (⟨5, 5, 0⟩, List.replicate pages ⟨6, 5⟩) := by
  refine ⟨localConfig_loads 0, ?_⟩
  intro pages
  induction pages with
  | zero => rfl
  | succ pages ih =>
      have hmore : (⟨5, 5, 0⟩ : Pager).position .declared < 10 := by decide
      have hsame : ((⟨5, 5, 0⟩ : Pager).grow 0).moveTo .declared
          ((⟨5, 5, 0⟩ : Pager).asked .declared 10).last = ⟨5, 5, 0⟩ := by decide
      have hempty : (⟨5, 5, 0⟩ : Pager).asked .declared 10 = ⟨6, 5⟩ := by decide
      rw [List.replicate_succ, Pager.scan_served hmore, hsame, ih, hempty]
      rfl

end Blobsitter.Daemon
