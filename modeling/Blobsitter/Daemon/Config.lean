import Mathlib.Data.List.Basic
import Mathlib.Order.Nat

/-!
# The daemon's configuration

One file.  Endpoint addresses may refer to variables of the environment, which are expanded
when the file is loaded.
-/

namespace Blobsitter.Daemon

inductive ConfigError where
  | read (path source : String)
  | parse (detail : String)
  | missingEnv (name : String)
  | invalid (detail : String)
  deriving DecidableEq, Repr

structure BeaconConfig where
  endpoints : List String
  secondsPerSlot : Nat
  deriving DecidableEq, Repr

/-- The fields that loading looks at, and those of the follower. -/
structure Config where
  executionRpc : String
  deploymentBlock : Nat
  logPageBlocks : Nat
  beacon : BeaconConfig
  blobscanUrl : Option String
  deriving DecidableEq, Repr

/-- The text before the first reference and behind its opening. -/
def findOpening : List Char → Option (List Char × List Char)
  | [] => none
  | c :: rest =>
      if c = '$' ∧ rest.head? = some '\x7b' then some ([], rest.tail)
      else (findOpening rest).map fun found => (c :: found.1, found.2)

/-- The text before the first closing brace and behind it. -/
def findClosing : List Char → Option (List Char × List Char)
  | [] => none
  | c :: rest =>
      if c = '\x7d' then some ([], rest)
      else (findClosing rest).map fun found => (c :: found.1, found.2)

theorem findOpening_length {text before after : List Char}
    (hfound : findOpening text = some (before, after)) : after.length < text.length := by
  induction text generalizing before with
  | nil => cases hfound
  | cons c rest ih =>
      rw [findOpening] at hfound
      split at hfound
      · cases hfound
        rw [List.length_tail, List.length_cons]
        omega
      · obtain ⟨found, hrest, heq⟩ := Option.map_eq_some_iff.mp hfound
        cases heq
        exact (ih hrest).trans (Nat.lt_succ_self _)

theorem findClosing_length {text before after : List Char}
    (hfound : findClosing text = some (before, after)) : after.length < text.length := by
  induction text generalizing before with
  | nil => cases hfound
  | cons c rest ih =>
      rw [findClosing] at hfound
      split at hfound
      · cases hfound
        exact Nat.lt_succ_self _
      · obtain ⟨found, hrest, heq⟩ := Option.map_eq_some_iff.mp hfound
        cases heq
        exact (ih hrest).trans (Nat.lt_succ_self _)

/-- The loop of `expand_env`; the error names the whole text `s`. -/
def expandLoop (env : String → Option String) (s : String) (rest : List Char) :
    Except ConfigError (List Char) :=
  match _hopen : findOpening rest with
  | none => .ok rest
  | some (before, after) =>
      match _hclose : findClosing after with
      | none => .error (.missingEnv ("unclosed $\x7b in '" ++ s ++ "'"))
      | some (name, behind) =>
          match env (String.ofList name) with
          | none => .error (.missingEnv (String.ofList name))
          | some value => do
              let expanded ← expandLoop env s behind
              return before ++ value.toList ++ expanded
  termination_by rest.length
  decreasing_by exact (findClosing_length _hclose).trans (findOpening_length _hopen)

def expandEnv (env : String → Option String) (s : String) : Except ConfigError String := do
  let expanded ← expandLoop env s s.toList
  return String.ofList expanded

def expandUrl (env : String → Option String) : Option String → Except ConfigError (Option String)
  | none => .ok none
  | some url => (expandEnv env url).map some

/-- `Config::load`: the file as it was read, its deserializer, and the environment. -/
def Config.load (fromStr : String → Except String Config) (env : String → Option String)
    (raw : Except ConfigError String) : Except ConfigError Config := do
  let text ← raw
  let config ← (fromStr text).mapError .parse
  if config.beacon.secondsPerSlot = 0 then
    .error (.invalid "beacon.seconds_per_slot must be nonzero")
  else if config.beacon.endpoints.isEmpty then
    .error (.invalid "beacon.endpoints must not be empty")
  else do
    let executionRpc ← expandEnv env config.executionRpc
    let endpoints ← config.beacon.endpoints.mapM (expandEnv env)
    let blobscanUrl ← expandUrl env config.blobscanUrl
    return { config with
      executionRpc := executionRpc
      beacon := { config.beacon with endpoints := endpoints }
      blobscanUrl := blobscanUrl }

end Blobsitter.Daemon
