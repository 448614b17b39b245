import Mathlib.Logic.Relation

/-!
# Systems whose calls can be interrupted and undone

A call runs atomically until it either returns or hands control away.  In the second
case a frame remembers where the state goes when the callee fails or the call is
aborted, and what is left to do when the callee succeeds; meanwhile any further calls
may run on top of it.  Failing and aborting restore a remembered state, so whatever
ran on top is undone.  The environment changes only between whole transactions.
-/

namespace Blobsitter.Library

universe u

/-- A call that waits for its callee. -/
structure Frame (State Rest : Type u) where
  onFailure : State
  onAbort : State
  onSuccess : Rest

/-- Calls, the rest of an interrupted call, and how the environment moves on. -/
structure CallSystem (Env State Action Rest : Type u) where
  call : Env → Action → State → Option (State × Option (Frame State Rest))
  resume : Env → Rest → State → Option State
  advance : Env → Env → Prop

structure Machine (Env State Rest : Type u) where
  env : Env
  state : State
  stack : List (Frame State Rest)

variable {Env State Action Rest : Type u} (sys : CallSystem Env State Action Rest)

namespace CallSystem

inductive Step : Machine Env State Rest → Machine Env State Rest → Prop where
  | returns {env : Env} {action : Action} {state next : State} {stack : List (Frame State Rest)}
      (hcall : sys.call env action state = some (next, none)) :
      Step ⟨env, state, stack⟩ ⟨env, next, stack⟩
  | opens {env : Env} {action : Action} {state next : State} {frame : Frame State Rest}
      {stack : List (Frame State Rest)}
      (hcall : sys.call env action state = some (next, some frame)) :
      Step ⟨env, state, stack⟩ ⟨env, next, frame :: stack⟩
  | succeeds {env : Env} {state next : State} {frame : Frame State Rest}
      {stack : List (Frame State Rest)}
      (hresume : sys.resume env frame.onSuccess state = some next) :
      Step ⟨env, state, frame :: stack⟩ ⟨env, next, stack⟩
  | fails {env : Env} {state : State} {frame : Frame State Rest}
      {stack : List (Frame State Rest)} :
      Step ⟨env, state, frame :: stack⟩ ⟨env, frame.onFailure, stack⟩
  | aborts {env : Env} {state : State} {frame : Frame State Rest}
      {stack : List (Frame State Rest)} :
      Step ⟨env, state, frame :: stack⟩ ⟨env, frame.onAbort, stack⟩
  | advances {env env' : Env} {state : State} (hadvance : sys.advance env env') :
      Step ⟨env, state, []⟩ ⟨env', state, []⟩

/-- Any number of steps. -/
def Steps : Machine Env State Rest → Machine Env State Rest → Prop :=
  Relation.ReflTransGen sys.Step

/-- The system without the calls that the guard refuses. -/
def restrict (guard : Env → State → Action → Bool) : CallSystem Env State Action Rest where
  call env action state := if guard env state action then sys.call env action state else none
  resume := sys.resume
  advance := sys.advance

end CallSystem

/-- A property of the state and of every state a waiting call may fall back to. -/
structure Machine.Holds (P : Env → State → Prop) (m : Machine Env State Rest) : Prop where
  state : P m.env m.state
  onFailure : ∀ frame ∈ m.stack, P m.env frame.onFailure
  onAbort : ∀ frame ∈ m.stack, P m.env frame.onAbort

/-- What a property has to satisfy to survive every step. -/
structure CallSystem.Preserves (P : Env → State → Prop) : Prop where
  returns : ∀ env action state next frame, P env state →
    sys.call env action state = some (next, frame) → P env next
  opens : ∀ env action state next frame, P env state →
    sys.call env action state = some (next, some frame) → P env frame.onFailure ∧ P env frame.onAbort
  resume : ∀ env rest state next, P env state → sys.resume env rest state = some next → P env next
  advance : ∀ env env' state, P env state → sys.advance env env' → P env' state

variable {sys}

theorem CallSystem.Step.holds {P : Env → State → Prop} (hpreserves : sys.Preserves P)
    {m m' : Machine Env State Rest} (hstep : sys.Step m m') (hholds : m.Holds P) : m'.Holds P := by
  obtain ⟨hstate, hfailure, habort⟩ := hholds
  cases hstep with
  | returns hcall => exact ⟨hpreserves.returns _ _ _ _ _ hstate hcall, hfailure, habort⟩
  | opens hcall =>
      obtain ⟨hfails, haborts⟩ := hpreserves.opens _ _ _ _ _ hstate hcall
      refine ⟨hpreserves.returns _ _ _ _ _ hstate hcall, ?_, ?_⟩
      · intro frame hmem
        rcases List.mem_cons.mp hmem with rfl | hrest
        · exact hfails
        · exact hfailure frame hrest
      · intro frame hmem
        rcases List.mem_cons.mp hmem with rfl | hrest
        · exact haborts
        · exact habort frame hrest
  | succeeds hresume =>
      exact ⟨hpreserves.resume _ _ _ _ hstate hresume,
        fun frame hmem => hfailure frame (List.mem_cons_of_mem _ hmem),
        fun frame hmem => habort frame (List.mem_cons_of_mem _ hmem)⟩
  | fails =>
      exact ⟨hfailure _ List.mem_cons_self,
        fun frame hmem => hfailure frame (List.mem_cons_of_mem _ hmem),
        fun frame hmem => habort frame (List.mem_cons_of_mem _ hmem)⟩
  | aborts =>
      exact ⟨habort _ List.mem_cons_self,
        fun frame hmem => hfailure frame (List.mem_cons_of_mem _ hmem),
        fun frame hmem => habort frame (List.mem_cons_of_mem _ hmem)⟩
  | advances hadvance =>
      refine ⟨hpreserves.advance _ _ _ hstate hadvance, ?_, ?_⟩
      · intro frame hmem
        cases hmem
      · intro frame hmem
        cases hmem

/-- The step gives up a waiting call's callee, or the whole call. -/
def Machine.Undoes (m m' : Machine Env State Rest) : Prop :=
  ∃ waiting, m.stack = waiting :: m'.stack ∧
    (m'.state = waiting.onFailure ∨ m'.state = waiting.onAbort)

/-- A property of the state alone survives every step that undoes nothing. -/
theorem CallSystem.Step.undoes_or_holds {P : Env → State → Prop} (hpreserves : sys.Preserves P)
    {m m' : Machine Env State Rest} (hstep : sys.Step m m') (hstate : P m.env m.state) :
    m.Undoes m' ∨ P m'.env m'.state := by
  cases hstep with
  | returns hcall => exact Or.inr (hpreserves.returns _ _ _ _ _ hstate hcall)
  | opens hcall => exact Or.inr (hpreserves.returns _ _ _ _ _ hstate hcall)
  | succeeds hresume => exact Or.inr (hpreserves.resume _ _ _ _ hstate hresume)
  | fails => exact Or.inl ⟨_, rfl, Or.inl rfl⟩
  | aborts => exact Or.inl ⟨_, rfl, Or.inr rfl⟩
  | advances hadvance => exact Or.inr (hpreserves.advance _ _ _ hstate hadvance)

/-- A preserved property holds along every run, whatever is undone on the way. -/
theorem CallSystem.Steps.holds {P : Env → State → Prop} (hpreserves : sys.Preserves P)
    {m m' : Machine Env State Rest} (hsteps : sys.Steps m m') (hholds : m.Holds P) :
    m'.Holds P := by
  induction hsteps with
  | refl => exact hholds
  | tail _ hstep ih => exact hstep.holds hpreserves ih

/-! ## Runs without some calls -/

theorem CallSystem.restrict_call {guard : Env → State → Action → Bool} {env : Env}
    {action : Action} {state : State} {result : State × Option (Frame State Rest)} :
    (sys.restrict guard).call env action state = some result ↔
      guard env state action = true ∧ sys.call env action state = some result := by
  change (if guard env state action then sys.call env action state else none) = some result ↔ _
  cases guard env state action with
  | false => simp
  | true => simp

theorem CallSystem.Step.of_restrict {guard : Env → State → Action → Bool}
    {m m' : Machine Env State Rest} (hstep : (sys.restrict guard).Step m m') : sys.Step m m' := by
  cases hstep with
  | returns hcall => exact .returns (CallSystem.restrict_call.mp hcall).2
  | opens hcall => exact .opens (CallSystem.restrict_call.mp hcall).2
  | succeeds hresume => exact .succeeds hresume
  | fails => exact .fails
  | aborts => exact .aborts
  | advances hadvance => exact .advances hadvance

/-- A run without the refused calls is a run. -/
theorem CallSystem.Steps.of_restrict {guard : Env → State → Action → Bool}
    {m m' : Machine Env State Rest} (hsteps : (sys.restrict guard).Steps m m') :
    sys.Steps m m' := by
  induction hsteps with
  | refl => exact .refl
  | tail _ hstep ih => exact ih.tail hstep.of_restrict

/-- A guard that refuses nothing changes nothing. -/
theorem CallSystem.Preserves.of_restrict {guard : Env → State → Action → Bool}
    {P : Env → State → Prop} (hguard : ∀ env state action, guard env state action = true)
    (hpreserves : (sys.restrict guard).Preserves P) : sys.Preserves P where
  returns _ _ _ _ _ hholds hcall :=
    hpreserves.returns _ _ _ _ _ hholds (CallSystem.restrict_call.mpr ⟨hguard _ _ _, hcall⟩)
  opens _ _ _ _ _ hholds hcall :=
    hpreserves.opens _ _ _ _ _ hholds (CallSystem.restrict_call.mpr ⟨hguard _ _ _, hcall⟩)
  resume := hpreserves.resume
  advance := hpreserves.advance

/-- Steps taken while some call above `base` still waits; the last of them may end it. -/
def CallSystem.Inside (sys : CallSystem Env State Action Rest) (base : List (Frame State Rest)) :
    Machine Env State Rest → Machine Env State Rest → Prop :=
  Relation.ReflTransGen fun m m' => sys.Step m m' ∧ ∃ above frame, m.stack = above ++ frame :: base

/-- A call that keeps a property however its callee ends. -/
structure CallSystem.Keeps (sys : CallSystem Env State Action Rest) (P : State → Prop) (env : Env)
    (frame : Frame State Rest) : Prop where
  onFailure : P frame.onFailure
  onAbort : P frame.onAbort
  onSuccess : ∀ state next, P state → sys.resume env frame.onSuccess state = some next → P next

/-- What a property has to satisfy to hold as long as a call waits: every call made in the
meantime keeps it, and so does the end of every such call. -/
structure CallSystem.KeptBy (sys : CallSystem Env State Action Rest) (P : State → Prop) (env : Env) :
    Prop where
  next : ∀ action state next frame, P state → sys.call env action state = some (next, frame) → P next
  frame : ∀ action state next frame, P state → sys.call env action state = some (next, some frame) →
    sys.Keeps P env frame

/-- How a waiting call ends: from a property of the time it waited to one of its end. -/
structure CallSystem.Ends (sys : CallSystem Env State Action Rest) (P R : State → Prop) (env : Env)
    (frame : Frame State Rest) : Prop where
  onFailure : R frame.onFailure
  onAbort : R frame.onAbort
  onSuccess : ∀ state next, P state → sys.resume env frame.onSuccess state = some next → R next

/-- A machine above `frame :: base`, or back on `base`. -/
structure Machine.Waits (sys : CallSystem Env State Action Rest) (P : State → Prop) (env : Env)
    (frame : Frame State Rest) (base : List (Frame State Rest)) (m : Machine Env State Rest) :
    Prop where
  environment : m.env = env
  state : P m.state
  stack : ∃ above, m.stack = above ++ frame :: base ∧ ∀ waiting ∈ above, sys.Keeps P env waiting

structure Machine.Ended (R : State → Prop) (env : Env) (base : List (Frame State Rest))
    (m : Machine Env State Rest) : Prop where
  environment : m.env = env
  state : R m.state
  stack : m.stack = base

/-- One step of the callee or of the calls it makes, or the end of the waiting call. -/
theorem CallSystem.Step.waits {P R : State → Prop} {env : Env} {frame : Frame State Rest}
    {base : List (Frame State Rest)} (hkept : sys.KeptBy P env) (hends : sys.Ends P R env frame)
    {m m' : Machine Env State Rest} (hstep : sys.Step m m')
    (hwaits : m.Waits sys P env frame base) : m'.Waits sys P env frame base ∨ m'.Ended R env base := by
  obtain ⟨rfl, hstate, above, hstack, habove⟩ := hwaits
  cases hstep with
  | returns hcall => exact Or.inl ⟨rfl, hkept.next _ _ _ _ hstate hcall, above, hstack, habove⟩
  | @opens _ _ _ _ opened _ hcall =>
      have hopened := hkept.frame _ _ _ _ hstate hcall
      refine Or.inl ⟨rfl, hkept.next _ _ _ _ hstate hcall, opened :: above,
        congrArg (opened :: ·) hstack, ?_⟩
      intro waiting hmem
      rcases List.mem_cons.mp hmem with rfl | hrest
      · exact hopened
      · exact habove waiting hrest
  | advances => cases above <;> cases hstack
  | succeeds hresume =>
      cases above with
      | nil =>
          cases hstack
          exact Or.inr ⟨rfl, hends.onSuccess _ _ hstate hresume, rfl⟩
      | cons top rest =>
          cases hstack
          have hnext := (habove _ List.mem_cons_self).onSuccess _ _ hstate hresume
          exact Or.inl ⟨rfl, hnext, rest, rfl,
            fun waiting hmem => habove waiting (List.mem_cons_of_mem _ hmem)⟩
  | fails =>
      cases above with
      | nil =>
          cases hstack
          exact Or.inr ⟨rfl, hends.onFailure, rfl⟩
      | cons top rest =>
          cases hstack
          exact Or.inl ⟨rfl, (habove _ List.mem_cons_self).onFailure, rest, rfl,
            fun waiting hmem => habove waiting (List.mem_cons_of_mem _ hmem)⟩
  | aborts =>
      cases above with
      | nil =>
          cases hstack
          exact Or.inr ⟨rfl, hends.onAbort, rfl⟩
      | cons top rest =>
          cases hstack
          exact Or.inl ⟨rfl, (habove _ List.mem_cons_self).onAbort, rest, rfl,
            fun waiting hmem => habove waiting (List.mem_cons_of_mem _ hmem)⟩

/-- The rule for everything that can happen while a call waits. -/
theorem CallSystem.Inside.waits {P R : State → Prop} {env : Env} {state : State}
    {frame : Frame State Rest} {base : List (Frame State Rest)} (hkept : sys.KeptBy P env)
    (hends : sys.Ends P R env frame) (hstate : P state) {m : Machine Env State Rest}
    (hinside : sys.Inside base ⟨env, state, frame :: base⟩ m) :
    m.Waits sys P env frame base ∨ m.Ended R env base := by
  induction hinside with
  | refl =>
      refine Or.inl ⟨rfl, hstate, [], rfl, ?_⟩
      intro waiting hmem
      cases hmem
  | tail _ hstep ih =>
      obtain ⟨hstep, above, top, hopen⟩ := hstep
      rcases ih with hwaits | hended
      · exact hstep.waits hkept hends hwaits
      · have hlength := congrArg List.length (hended.stack.symm.trans hopen)
        rw [List.length_append, List.length_cons] at hlength
        omega

/-- Between transactions no call waits, so the state alone has to satisfy the property. -/
theorem Machine.holds_of_idle {P : Env → State → Prop} {env : Env} {state : State}
    (hstate : P env state) : (⟨env, state, []⟩ : Machine Env State Rest).Holds P := by
  refine ⟨hstate, ?_, ?_⟩
  · intro frame hmem
    cases hmem
  · intro frame hmem
    cases hmem

end Blobsitter.Library
