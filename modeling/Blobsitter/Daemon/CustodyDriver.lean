import Blobsitter.Daemon.Custody

/-!
# The custody driver

The driver runs one background task of each kind.  A tick first reaps what has finished,
then plans, then spawns what the plan asks for.  What the tasks do on the chain is not
part of the driver; it only sees that they have ended.
-/

namespace Blobsitter.Daemon

open Library
open Reference (Fault)

/-- The tasks in flight, each with what the driver keeps of it. -/
structure CustodyDriver where
  begin : Bool
  proving : Option Nat
  submitting : Bool
  proverFailedPeriod : Option Nat
  deriving DecidableEq

def CustodyDriver.new : CustodyDriver := ⟨false, none, false, none⟩

/-- What the prover task came to: a proof, or an error of any kind. -/
inductive Proving where
  | proof
  | failed
  deriving DecidableEq

/-- The tasks that have finished by a tick. -/
structure Finished where
  begin : Bool
  submitting : Bool
  proving : Option Proving
  deriving DecidableEq

namespace CustodyDriver

/-- The part of `reap` that collects a finished prover run of a period: its proof is
handed to a submit job, or discarded when the commit is another one or a submission is
under way; a failure is remembered. -/
def reapProof (driver : CustodyDriver) (view : ProviderView) (period : Nat) :
    Proving → CustodyDriver
  | .proof =>
      if view.commit.map Commit.period = some period ∧ driver.submitting = false then
        { driver with proving := none, submitting := true }
      else { driver with proving := none }
  | .failed => { driver with proving := none, proverFailedPeriod := some period }

/-- `reap`. -/
def reap (driver : CustodyDriver) (view : ProviderView) (finished : Finished) : CustodyDriver :=
  let driver :=
    { driver with
      begin := driver.begin && !finished.begin
      submitting := driver.submitting && !finished.submitting }
  match driver.proving, finished.proving with
  | some period, some proving => driver.reapProof view period proving
  | _, _ => driver

def inFlight (driver : CustodyDriver) : InFlight :=
  ⟨driver.begin, driver.proving.isSome, driver.submitting⟩

/-- `spawn_begin`, `spawn_prove` and `spawn_escape`, by the plan. -/
def spawn (driver : CustodyDriver) : Plan → CustodyDriver
  | .idle => driver
  | .begin _ => { driver with begin := true }
  | .prove commit _ => { driver with proving := some commit.period }
  | .escape _ _ => { driver with submitting := true }

def proverFailed (driver : CustodyDriver) (view : ProviderView) : Bool :=
  match view.commit with
  | some commit => driver.proverFailedPeriod = some commit.period
  | none => false

/-- `drive`, the alarms aside: the tasks after reaping, the decision, and the tasks
after spawning. -/
def drive (driver : CustodyDriver) (params : CustodyParams) (now : Nat) (view : ProviderView)
    (available : Bool) (finished : Finished) :
    Except Fault (CustodyDriver × Plan × CustodyDriver) := do
  let reaped := driver.reap view finished
  let decided ← plan params now view reaped.inFlight available (reaped.proverFailed view)
  return (reaped, decided, reaped.spawn decided)

end CustodyDriver

end Blobsitter.Daemon
