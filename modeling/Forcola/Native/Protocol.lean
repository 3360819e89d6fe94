import Forcola.Beam.GroupsReply
import Forcola.Native.Privdrop

/-! The payloads of HELLO and SPAWN as the shim reads them, and the features it can enable. -/

namespace Forcola.Native.Protocol

open Beam (Json decodeJson)
open Privdrop (UserSpec GroupSpec)
open RecordedGroups (asStr asU64)

inductive EnvMode
  | inherit
  | replace
deriving DecidableEq, Repr

inductive InterruptSignal
  | int
deriving DecidableEq, Repr

inductive CgroupMode
  | bestEffort (requested : Bool)
  | required
deriving DecidableEq, Repr

structure HelloRequest where
  features : List String
deriving DecidableEq, Repr

/-- The payload of SPAWN; of two `env` entries with one name the later counts. -/
structure SpawnRequest where
  argv : List String
  cd : Option String
  env : List (String × Option String)
  mergeStderr : Bool
  envMode : EnvMode
  interruptSignal : Option InterruptSignal
  interruptGraceMs : Option ℕ
  timeoutMs : Option ℕ
  killGraceMs : ℕ
  pty : Bool
  ptyRows : Option ℕ
  ptyCols : Option ℕ
  user : Option UserSpec
  group : Option GroupSpec
  cgroup : CgroupMode
  windowBytes : Option ℕ
  stderrWindowBytes : Option ℕ
  strictOutput : Bool
deriving DecidableEq, Repr

def asBool : Json → Option Bool
  | .bool value => some value
  | _ => none

def asUnsigned (bits : ℕ) : Json → Option ℕ
  | .int (.ofNat n) => if n < 2 ^ bits then some n else none
  | _ => none

def asList {α : Type} (read : Json → Option α) : Json → Option (List α)
  | .array items => items.mapM read
  | _ => none

def asMap {α : Type} (read : Json → Option α) : Json → Option (List (String × α))
  | .object fields => fields.mapM fun f => (read f.2).map (f.1, ·)
  | _ => none

def asOption {α : Type} (read : Json → Option α) : Json → Option (Option α)
  | .null => some none
  | value => (read value).map some

def variantName : Json → Option String
  | .string name => some name
  | .object [(name, .null)] => some name
  | _ => none

def asEnvMode (value : Json) : Option EnvMode :=
  match variantName value with
  | some "inherit" => some .inherit
  | some "replace" => some .replace
  | _ => none

def asInterruptSignal (value : Json) : Option InterruptSignal :=
  match variantName value with
  | some "int" => some .int
  | _ => none

/-- An untagged enum takes its first variant that fits. -/
def asCgroupMode (value : Json) : Option CgroupMode :=
  match asBool value, variantName value with
  | some requested, _ => some (.bestEffort requested)
  | none, some "required" => some .required
  | none, _ => none

def asIdOrName {α : Type} (id : ℕ → α) (name : String → α) (value : Json) : Option α :=
  match asUnsigned 32 value with
  | some n => some (id n)
  | none => (asStr value).map name

def asUserSpec : Json → Option UserSpec :=
  asIdOrName .id .name

def asGroupSpec : Json → Option GroupSpec :=
  asIdOrName .id .name

/-- A derived struct: its known fields at most once each, or its values in their order. -/
def structFields (known : List String) : Json → Option (List (String × Json))
  | .object fields =>
    if known.all fun key => (fields.map (·.1)).count key ≤ 1 then some fields else none
  | .array items => if items.length ≤ known.length then some (known.zip items) else none
  | _ => none

def orDefault {α : Type} (fields : List (String × Json)) (key : String) (default : α)
    (read : Json → Option α) : Option α :=
  match fields.lookup key with
  | none => some default
  | some value => read value

def HelloRequest.fromJson (value : Json) : Option HelloRequest := do
  let fields ← structFields ["features"] value
  let features ← orDefault fields "features" [] (asList asStr)
  some ⟨features⟩

def spawnFields : List String :=
  ["argv", "cd", "env", "merge_stderr", "env_mode", "interrupt_signal", "interrupt_grace_ms",
    "timeout_ms", "kill_grace_ms", "pty", "pty_rows", "pty_cols", "user", "group", "cgroup",
    "window_bytes", "stderr_window_bytes", "strict_output"]

def defaultKillGraceMs : ℕ := 5000

def SpawnRequest.fromFields (fields : List (String × Json)) : Option SpawnRequest := do
  let argv ← (fields.lookup "argv").bind (asList asStr)
  let cd ← orDefault fields "cd" none (asOption asStr)
  let env ← orDefault fields "env" [] (asMap (asOption asStr))
  let mergeStderr ← orDefault fields "merge_stderr" false asBool
  let envMode ← orDefault fields "env_mode" .inherit asEnvMode
  let interruptSignal ← orDefault fields "interrupt_signal" none (asOption asInterruptSignal)
  let interruptGraceMs ← orDefault fields "interrupt_grace_ms" none (asOption asU64)
  let timeoutMs ← orDefault fields "timeout_ms" none (asOption asU64)
  let killGraceMs ← orDefault fields "kill_grace_ms" defaultKillGraceMs asU64
  let pty ← orDefault fields "pty" false asBool
  let ptyRows ← orDefault fields "pty_rows" none (asOption (asUnsigned 16))
  let ptyCols ← orDefault fields "pty_cols" none (asOption (asUnsigned 16))
  let user ← orDefault fields "user" none (asOption asUserSpec)
  let group ← orDefault fields "group" none (asOption asGroupSpec)
  let cgroup ← orDefault fields "cgroup" (.bestEffort false) asCgroupMode
  let windowBytes ← orDefault fields "window_bytes" none (asOption asU64)
  let stderrWindowBytes ← orDefault fields "stderr_window_bytes" none (asOption asU64)
  let strictOutput ← orDefault fields "strict_output" false asBool
  some
    { argv, cd, env, mergeStderr, envMode, interruptSignal, interruptGraceMs, timeoutMs,
      killGraceMs, pty, ptyRows, ptyCols, user, group, cgroup, windowBytes, stderrWindowBytes,
      strictOutput }

def SpawnRequest.fromJson (value : Json) : Option SpawnRequest :=
  (structFields spawnFields value).bind SpawnRequest.fromFields

/-- `serde_json::from_slice` for the payloads the shim reads; an error is given by its text. -/
structure Serde where
  hello : Bytes → Except String HelloRequest
  spawn : Bytes → Except String SpawnRequest

def jsonSerde : Serde where
  hello payload :=
    ((decodeJson payload).bind HelloRequest.fromJson).elim (.error "invalid") .ok
  spawn payload :=
    ((decodeJson payload).bind SpawnRequest.fromJson).elim (.error "invalid") .ok

def boundedRun : String := "bounded_run_v1"

def envUnset : String := "env_unset_v1"

def structuredSpawnErrors : String := "structured_spawn_errors_v1"

def spawnIdentity : String := "spawn_identity_v1"

def trackDescendants : String := "track_descendants_v1"

/-- `supported_features`, from what the probe of the shim's own identity and
`tracking::available` said. -/
def supportedFeatures (identity tracking : Bool) : List String :=
  [boundedRun, envUnset, structuredSpawnErrors] ++
    if identity then spawnIdentity :: if tracking then [trackDescendants] else [] else []

structure SelectedFeatures where
  spawnIdentity : Bool
  structuredSpawnErrors : Bool
  trackDescendants : Bool
deriving DecidableEq, Repr

def noFeatures : SelectedFeatures := ⟨false, false, false⟩

def selectedOf (features : List String) : SelectedFeatures where
  spawnIdentity := features.contains Protocol.spawnIdentity
  structuredSpawnErrors := features.contains Protocol.structuredSpawnErrors
  trackDescendants := features.contains Protocol.trackDescendants

def selectFeatures (serde : Serde) (payload : Bytes) (supported : List String) :
    Except String SelectedFeatures :=
  match if payload = [] then .ok ⟨[]⟩ else serde.hello payload with
  | .error text => .error s!"invalid HELLO payload: {text}"
  | .ok request =>
    match request.features.find? fun feature => !supported.contains feature with
    | some feature => .error s!"unsupported feature: {feature}"
    | none => .ok (selectedOf request.features)

variable {serde : Serde} {payload : Bytes} {supported : List String}
  {selected : SelectedFeatures}

end Forcola.Native.Protocol
