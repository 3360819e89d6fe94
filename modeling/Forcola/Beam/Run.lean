import Forcola.Beam.Tracking

/-! The one-shot collector of `Forcola.run/2`. -/

namespace Forcola.Beam.Run

open Native (Bytes Pipe ProcessIdentity)
open Shim (ChildStatus Scope ExitReport SpawnReason Tag Command)

def window : ℕ := 8192

def observerMessages : ℕ := 1024

structure Options where
  json : Bytes → Option Json
  strict : Bool
  merge : Bool
  outputObserver : Bool
  maxOutputBytes : Option ℕ
  idleTimeout : Option ℕ
  cleanupMs : ℕ
  identityEnabled : Bool
  structuredSpawnErrors : Bool
  trackDescendants : Bool
  trackObserver : Bool

inductive Reason
  | timeout
  | idleTimeout
  | maxOutputBytes
  | observerOverflow
deriving DecidableEq, Repr

inductive Termination
  | exit
  | malformedExit
  | backstop
  | transport (status : ℕ)
  | spawn (reason : SpawnReason)
deriving DecidableEq, Repr

inductive Cleanup
  | confirmed
  | unconfirmed
  | unknown
deriving DecidableEq, Repr

/-- `none` stands for `nil`, and for `:unknown` in a field that is otherwise a boolean. -/
structure Evidence where
  childStatus : Option Json
  childSignal : Option Json
  termination : Termination
  reason : Option Reason
  outputTruncated : Option Bool
  cleanup : Cleanup
  scope : Scope
  contained : Option Bool
  trackedGroupsTruncated : Bool

structure Result where
  status : Status
  stdout : Bytes
  stderr : Bytes
  identity : Option ProcessIdentity
  evidence : Evidence
  trackedGroups : List ProcessIdentity
  trackedGroupsTruncated : Bool

/-- `{:ok, res}`, `{:error, {reason, res}}` and the `{:error, {:spawn, _}}` shapes. -/
inductive Outcome
  | ok (result : Result)
  | stopped (reason : Reason) (result : Result)
  | shimExited (result : Result)
  | invalidExit (result : Result)
  | spawnPartial (reason : SpawnReason) (result : Result)
  | spawn (reason : SpawnReason)

/-- `received` and `cancelled` are history only; `full` says that the observer's queue was found
full when the frame was handled. -/
inductive Effect
  | send (command : Command)
  | observe (pipe : Pipe) (bytes : Bytes)
  | tell (event : TrackingEvent)
  | received (pipe : Pipe) (payload : Bytes) (full : Bool)
  | cancelled (reason : Reason) (at_ : Instant)

/-- The accumulator; `reads` counts the clock readings, `log` is newest first. -/
structure Acc where
  stdout : Bytes
  stderr : Bytes
  bytes : ℕ
  idleAt : Option Instant
  timeoutAt : Instant
  backstop : Instant
  reason : Option Reason
  truncated : Bool
  identity : Option ProcessIdentity
  tracking : Tracking
  reads : ℕ
  log : List Effect

/-- `queue` is the answer of `Process.info(pid, :message_queue_len)`. -/
inductive Message
  | data (tag : Tag) (payload : Bytes) (queue : Option ℕ)
  | exitStatus (status : ℕ)

variable (cfg : Options) (clock : ℕ → Instant)

namespace Acc

def now (a : Acc) : Instant × Acc :=
  (clock a.reads, { a with reads := a.reads + 1 })

def add (a : Acc) (e : Effect) : Acc :=
  { a with log := e :: a.log }

instance : Keeper Acc where
  tracking := Acc.tracking
  setTracking a t := { a with tracking := t }
  identity := Acc.identity
  setIdentity a identity := { a with identity := some identity }
  tell a event := a.add (.tell event)
  spawned a _ := a

def tell (a : Acc) (event : Option TrackingEvent) : Acc :=
  Keeper.notify cfg.trackObserver a event

def finishTracking (a : Acc) (scope : Scope) (confirmation : Confirmation)
    (contained : Option Bool) (truncated : Bool) : Acc :=
  Keeper.finishTracking cfg.trackObserver a scope confirmation contained truncated

def append (a : Acc) (pipe : Pipe) (bytes : Bytes) : Acc :=
  match pipe with
  | .stdout => { a with stdout := a.stdout ++ bytes }
  | .stderr => { a with stderr := a.stderr ++ bytes }

end Acc

def execute (timeoutMs : ℕ) (deadline : Option Instant) (reads : ℕ) : Acc :=
  let now := clock reads
  let timeoutAt := deadline.getD (now + timeoutMs)
  { stdout := []
    stderr := []
    bytes := 0
    idleAt := cfg.idleTimeout.map fun idle => now + idle
    timeoutAt := timeoutAt
    backstop := timeoutAt + cfg.cleanupMs
    reason := none
    truncated := false
    identity := none
    tracking := Tracking.new cfg.trackDescendants
    reads := reads + 1
    log := if cfg.strict then
        [.send (.credit .stderr window), .send (.credit .stdout window), .send .eof]
      else [.send .eof] }

def cancel (a : Acc) (reason : Reason) : Acc :=
  let r := (a.add (.send .kill)).now clock
  { r.2 with reason := some reason, backstop := min r.2.backstop (r.1 + cfg.cleanupMs) }.add
    (.cancelled reason r.1)

def checkDeadlines (a : Acc) : Acc :=
  if cfg.strict && a.reason.isNone then
    let r := a.now clock
    if a.timeoutAt ≤ r.1 then cancel cfg clock r.2 .timeout
    else
      match a.idleAt with
      | some idleAt =>
        let r := r.2.now clock
        if idleAt ≤ r.1 then cancel cfg clock r.2 .idleTimeout else r.2
      | none => r.2
  else a

def nextDeadline (a : Acc) : Instant :=
  if cfg.strict && a.reason.isNone then
    match a.idleAt with
    | some idleAt => min (min a.timeoutAt idleAt) a.backstop
    | none => min a.timeoutAt a.backstop
  else a.backstop

def grant (a : Acc) (pipe : Pipe) (bytes : ℕ) : Acc :=
  a.add (.send (.credit pipe bytes))

def queueFull (queue : Option ℕ) : Bool :=
  cfg.outputObserver && cfg.strict && queue.any (observerMessages ≤ ·)

def notify (a : Acc) (pipe : Pipe) (bytes : Bytes) (queue : Option ℕ) : Bool × Acc :=
  if cfg.outputObserver && !bytes.isEmpty then
    if queueFull cfg queue then (true, a) else (false, a.add (.observe pipe bytes))
  else (false, a)

def output (a : Acc) (pipe : Pipe) (payload : Bytes) (queue : Option ℕ) : Acc :=
  let a := a.add (.received pipe payload (queueFull cfg queue))
  if a.reason.isSome then { a with truncated := true }
  else
    let size := payload.length
    let kept := match cfg.maxOutputBytes with
      | some max => min size (max - a.bytes)
      | none => size
    let bytes := payload.take kept
    let destination := if cfg.merge then Pipe.stdout else pipe
    let a := a.append destination bytes
    let a := { a with bytes := a.bytes + kept }
    let a := match cfg.idleTimeout with
      | some idle =>
        let r := a.now clock
        { r.2 with idleAt := some (r.1 + idle) }
      | none => { a with idleAt := none }
    let notified := notify cfg a destination bytes queue
    let a := notified.2
    let a :=
      if kept < size then cancel cfg clock { a with truncated := true } .maxOutputBytes
      else if notified.1 then cancel cfg clock { a with truncated := true } .observerOverflow
      else a
    if cfg.strict && a.reason.isNone then grant a pipe size else a

def spawned (a : Acc) (payload : Bytes) : Acc :=
  Keeper.recordIdentity false cfg.identityEnabled a (cfg.json payload)

def tracked (a : Acc) (payload : Bytes) : Acc :=
  Keeper.recordTracked cfg.trackObserver a (cfg.json payload)

def rawStatus : Json → Option ChildStatus :=
  Shim.observedStatus Option.isNone

def validExit (report : Json) : Bool :=
  (rawStatus report).isSome &&
    ["confirmed", "contained", "timed_out", "output_truncated"].all report.absentOrBoolean

def projectStatus (raw : Option ChildStatus) (confirmed : Option Bool) (strict : Bool) : Status :=
  match confirmed, strict, raw with
  | some true, _, some status => .child status
  | none, false, some status => .child status
  | _, _, _ => .unconfirmed

def flag (report : Json) (key : String) : Option Bool :=
  Shim.contained (report.get key)

def confirmation : Option Bool → Cleanup
  | some true => .confirmed
  | some false => .unconfirmed
  | none => .unknown

def scope : Option Bool → Scope
  | some true => .activeCgroup
  | some false => .processGroup
  | none => .unknown

def truncation (truncated : Bool) (reported : Option Bool) : Option Bool :=
  if truncated then some true else reported

def evidence (a : Acc) (termination : Termination) : Evidence where
  childStatus := none
  childSignal := none
  termination := termination
  reason := a.reason
  outputTruncated := if a.truncated then some true else none
  cleanup := .unknown
  scope := .unknown
  contained := none
  trackedGroupsTruncated := a.tracking.truncated

def result (a : Acc) (status : Status) (evidence : Evidence) : Result where
  status := status
  stdout := a.stdout
  stderr := a.stderr
  identity := a.identity
  evidence := evidence
  trackedGroups := a.tracking.observed
  trackedGroupsTruncated := evidence.trackedGroupsTruncated

def cleanupOf : Confirmation → Cleanup
  | .confirmed => .confirmed
  | _ => .unconfirmed

def reportEvidence (a : Acc) (report : Json) : Evidence :=
  let tracked := if a.tracking.enabled then some (a.tracking.reportMap report) else none
  { evidence a .exit with
    childStatus := report.get "status"
    childSignal := report.get "signal"
    cleanup := match tracked with
      | some tracked => cleanupOf (Tracking.confirmation tracked)
      | none => confirmation (flag report "confirmed")
    scope := match tracked with
      | some tracked => tracked.scope
      | none => scope (flag report "contained")
    contained := Shim.contained (report.get "contained")
    trackedGroupsTruncated := match tracked with
      | some tracked => tracked.trackedGroupsTruncated
      | none => false
    reason := a.reason <|> (if report.isTrue "timed_out" then some .timeout else none)
    outputTruncated := truncation a.truncated (flag report "output_truncated") }

def observerConfirmation : Cleanup → Confirmation
  | .confirmed => .confirmed
  | _ => .unconfirmed

def malformed (a : Acc) (report : Json) : Outcome × Acc :=
  let ev :=
    { evidence a .malformedExit with
      contained := Shim.contained (report.get "contained")
      trackedGroupsTruncated := a.tracking.enabled &&
        (a.tracking.truncated || report.isTrue "tracked_groups_truncated") }
  let a' := a.finishTracking cfg .unknown .unconfirmed ev.contained ev.trackedGroupsTruncated
  let ev := match rawStatus report with
    | some (.signal signal) => { ev with childSignal := some (.int signal) }
    | some (.code status) => { ev with childStatus := some (.int status) }
    | none => ev
  let res := result a .unconfirmed ev
  (match a.reason with
    | some reason => .stopped reason res
    | none => .invalidExit res, a')

def finishReport (a : Acc) (report : Json) : Outcome × Acc :=
  if validExit report then
    let ev := reportEvidence a report
    let raw := rawStatus report
    let status :=
      if a.tracking.enabled then projectStatus raw (some (ev.cleanup == .confirmed)) true
      else projectStatus raw (flag report "confirmed") cfg.strict
    let a' := a.finishTracking cfg ev.scope (observerConfirmation ev.cleanup) ev.contained
      ev.trackedGroupsTruncated
    let res := result a status ev
    (match ev.reason with
      | some reason => .stopped reason res
      | none => .ok res, a')
  else malformed cfg a report

def finish (a : Acc) (payload : Bytes) : Outcome × Acc :=
  match cfg.json payload with
  | some (.object fields) => finishReport cfg a (.object fields)
  | _ => malformed cfg a (.object [])

def spawnError (a : Acc) (payload : Bytes) : Outcome × Acc :=
  let a' := a.finishTracking cfg .unknown .notStarted none false
  let reason := Shim.decodeError (cfg.json payload) cfg.structuredSpawnErrors
  if cfg.strict || a.reason.isSome then
    let res := result a .unconfirmed (evidence a (.spawn reason))
    (match a.reason with
      | some cancelled => .stopped cancelled res
      | none => .spawnPartial reason res, a')
  else (.spawn reason, a')

def failure (a : Acc) (termination : Termination) (reason : Reason) : Outcome × Acc :=
  let a' := a.finishTracking cfg .unknown .timeout none false
  (.stopped reason (result a .unconfirmed { evidence a termination with reason := some reason }), a')

def shimExited (a : Acc) (status : ℕ) : Outcome × Acc :=
  let a' := a.finishTracking cfg .unknown .transportLost none false
  let res := result a .unconfirmed (evidence a (.transport status))
  (match a.reason with
    | some reason => .stopped reason res
    | none => .shimExited res, a')

inductive State
  | collecting (a : Acc)
  | returned (outcome : Outcome) (a : Acc)

def returns (r : Outcome × Acc) : State := .returned r.1 r.2

/-- What an iteration does before `receive`: it returns, or waits at most `remaining`. -/
inductive Turn
  | returns (outcome : Outcome) (a : Acc)
  | receives (a : Acc) (remaining : ℤ)

def collect (a : Acc) : Turn :=
  let a := checkDeadlines cfg clock a
  let deadline := nextDeadline cfg a
  let r := a.now clock
  let remaining := min (max (deadline - r.1) 0) longestWait
  let s := r.2.now clock
  if a.backstop ≤ s.1 then
    let f := failure cfg s.2 .backstop (s.2.reason.getD .timeout)
    .returns f.1 f.2
  else .receives s.2 remaining

def handleFrame (a : Acc) (tag : Tag) (payload : Bytes) (queue : Option ℕ) : State :=
  match tag with
  | .stdout => .collecting (output cfg clock a .stdout payload queue)
  | .stderr => .collecting (output cfg clock a .stderr payload queue)
  | .spawned => .collecting (spawned cfg a payload)
  | .tracked => .collecting (tracked cfg a payload)
  | .exit => returns (finish cfg a payload)
  | .error => returns (spawnError cfg a payload)
  | .other => .collecting a

/-- `none` is the `after` clause. -/
def receive (a : Acc) : Option Message → State
  | some (.data tag payload queue) => handleFrame cfg clock a tag payload queue
  | some (.exitStatus status) => returns (shimExited cfg a status)
  | none => .collecting a

def step : State → Option Message → State
  | .collecting a, message =>
    match collect cfg clock a with
    | .returns outcome a => .returned outcome a
    | .receives a _ => receive cfg clock a message
  | .returned outcome a, _ => .returned outcome a

end Forcola.Beam.Run
