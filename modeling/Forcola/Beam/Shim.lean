import Forcola.Native.Identity
import Forcola.Native.Pump
import Mathlib.Data.Int.Notation

/-! The shim protocol as the BEAM reads and writes it: frame tags, credit and decoded reports. -/

namespace Forcola.Beam

open Native (Bytes Pipe ProcessIdentity StartTime)

/-- Milliseconds of the monotonic clock, which may be negative. -/
abbrev Instant := ℤ

def longestWait : ℤ := 4294967295

def newline : UInt8 := 10

/-- What `:json.decode/1` returns; `null` is Erlang's atom, which is not Elixir's `nil`. -/
inductive Json
  | null
  | bool (value : Bool)
  | int (value : ℤ)
  | float (text : String)
  | string (value : String)
  | array (items : List Json)
  | object (fields : List (String × Json))

namespace Json

/-- `report[key]`: `none` stands for `nil`. -/
def get (report : Json) (key : String) : Option Json :=
  match report with
  | .object fields => fields.lookup key
  | _ => none

def absentOrBoolean (report : Json) (key : String) : Bool :=
  match report.get key with
  | none | some (.bool _) => true
  | _ => false

def isTrue (report : Json) (key : String) : Bool :=
  match report.get key with
  | some (.bool true) => true
  | _ => false

def integer (report : Json) (key : String) (least : ℕ) : Option ℕ :=
  match report.get key with
  | some (.int value) => if (least : ℤ) ≤ value then some value.toNat else none
  | _ => none

def text (report : Json) (key : String) : Option String :=
  match report.get key with
  | some (.string value) => some value
  | _ => none

end Json

namespace Shim

def encodeCredit (bytes : ℕ) : Bytes :=
  [56, 48, 40, 32, 24, 16, 8, 0].map fun shift => UInt8.ofNat (bytes >>> shift)

inductive Tag
  | stdout
  | stderr
  | exit
  | error
  | spawned
  | tracked
  | other
deriving DecidableEq, Repr

/-- The frames a client sends after SPAWN; the pipe picks between CREDIT and STDERR_CREDIT. -/
inductive Command
  | stdin (bytes : Bytes)
  | eof
  | kill
  | credit (pipe : Pipe) (bytes : ℕ)
deriving DecidableEq, Repr

def Command.payload : Command → Bytes
  | .stdin bytes => bytes
  | .eof | .kill => []
  | .credit _ bytes => encodeCredit bytes

inductive ChildStatus
  | code (status : ℕ)
  | signal (number : ℕ)
deriving DecidableEq, Repr

inductive Scope
  | processGroup
  | activeCgroup
  | treeContained
  | treeSampled
  | unknown
deriving DecidableEq, Repr

/-- A decoded EXIT report; `contained` is `none` for `:unknown`. -/
structure ExitReport where
  valid : Bool
  status : Option ChildStatus
  confirmed : Bool
  scope : Scope
  timedOut : Bool
  contained : Option Bool
  trackedGroupsTruncated : Bool
  outputTruncated : Bool
deriving DecidableEq, Repr

/-- The clauses `raw_exit_status` and `raw_status` share; they differ in what counts as absent. -/
def observedStatus (absent : Option Json → Bool) (report : Json) : Option ChildStatus :=
  match report.integer "status" 0, report.integer "signal" 1 with
  | some status, _ => if absent (report.get "signal") then some (.code status) else none
  | none, some signal => if absent (report.get "status") then some (.signal signal) else none
  | none, none => none

def rawExitStatus : Json → Option ChildStatus :=
  observedStatus Option.isNone

def contained : Option Json → Option Bool
  | some (.bool value) => some value
  | _ => none

def exitFlags : List String :=
  ["confirmed", "contained", "timed_out", "output_truncated"]

/-- An unreadable payload, or one that is no map, reads as the empty map. -/
def decodeMap (decoded : Option Json) : Json :=
  match decoded with
  | some (.object fields) => .object fields
  | _ => .object []

def decodeExitReport (decoded : Option Json) : ExitReport :=
  let report := decodeMap decoded
  let status := rawExitStatus report
  let valid := status.isSome && exitFlags.all report.absentOrBoolean
  let contained := contained (report.get "contained")
  { valid := valid
    status := status
    confirmed := valid && ((report.get "confirmed").isNone || report.isTrue "confirmed")
    scope := if !valid then .unknown else if contained = some true then .activeCgroup
      else .processGroup
    timedOut := report.isTrue "timed_out"
    contained := contained
    trackedGroupsTruncated := false
    outputTruncated := report.isTrue "output_truncated" }

def decodeStartTime (report : Json) : Option StartTime :=
  match report.text "kind" with
  | some "linux" =>
    match report.text "boot_id", report.integer "ticks" 0 with
    | some bootId, some ticks => if bootId = "" then none else some (.linux bootId ticks)
    | _, _ => none
  | some "macos" =>
    match report.integer "seconds" 0, report.integer "microseconds" 0 with
    | some seconds, some microseconds =>
      if microseconds < 1000000 then some (.macos seconds microseconds) else none
    | _, _ => none
  | _ => none

def decodeIdentity (decoded : Option Json) : Option ProcessIdentity :=
  match decoded with
  | some report =>
    match report.integer "pid" 1, report.integer "pgid" 1, report.get "start_time" with
    | some pid, some pgid, some startTime =>
      (decodeStartTime startTime).map fun start => ⟨pid, pgid, start⟩
    | _, _, _ => none
  | none => none

inductive Stage
  | cwd
  | exec
  | privdrop
  | cgroup
  | spawn
  | pty
deriving DecidableEq, Repr

/-- Known names become atoms, other names stay strings. -/
inductive ReasonCode
  | known (name : String)
  | text (name : String)
deriving DecidableEq, Repr

structure SpawnError where
  stage : Stage
  reason : ReasonCode
  errno : Option ℕ
  path : Option String
  message : String
deriving DecidableEq, Repr

inductive SpawnReason
  | text (reason : String)
  | structured (error : SpawnError)
  | invalidError
deriving DecidableEq, Repr

namespace SpawnError

def stages : List (String × Stage) :=
  [("cwd", .cwd), ("exec", .exec), ("privdrop", .privdrop), ("cgroup", .cgroup),
    ("spawn", .spawn), ("pty", .pty)]

def knownReasons : List String :=
  ["e2big", "eacces", "eagain", "ebadf", "ebusy", "eexist", "efault", "eintr", "einval", "eio",
    "eisdir", "eloop", "emfile", "enametoolong", "enfile", "enodev", "enoent", "enoexec", "enolck",
    "enomem", "enospc", "enosys", "enotdir", "enotsup", "eopnotsupp", "eperm", "epipe", "erofs",
    "esrch", "etxtbsy", "not_found", "permission_denied", "already_exists", "broken_pipe",
    "would_block", "invalid_input", "invalid_data", "timed_out", "write_zero", "interrupted",
    "unsupported", "unexpected_eof", "out_of_memory", "other"]

def reasonCode (name : String) : ReasonCode :=
  if name ∈ knownReasons then .known name else .text name

/-- A key that must be there, holding `null` or a value `read` accepts. -/
def nullable {α : Type} (report : Json) (key : String) (read : Option α) : Option (Option α) :=
  match report.get key with
  | some .null => some none
  | some _ => read.map some
  | none => none

def fromReport (report : Json) (message : String) : Option SpawnError :=
  match report.text "stage", report.text "reason",
      nullable report "errno" (report.integer "errno" 1),
      nullable report "path" (report.text "path") with
  | some stage, some reason, some errno, some path =>
    if reason = "" then none
    else (stages.lookup stage).map fun stage =>
      { stage := stage, reason := reasonCode reason, errno := errno, path := path,
        message := message }
  | _, _, _, _ => none

end SpawnError

def decodeError (decoded : Option Json) (structured : Bool) : SpawnReason :=
  match decoded with
  | some report =>
    match report.text "reason" with
    | some reason =>
      match structured, report.get "spawn_error" with
      | true, some detail =>
        match SpawnError.fromReport detail reason with
        | some error => .structured error
        | none => .text reason
      | _, _ => .text reason
    | none => .invalidError
  | none => .invalidError

end Shim

end Forcola.Beam
