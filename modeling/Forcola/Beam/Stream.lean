import Forcola.Beam.Tracking
import Forcola.Library.Lines

/-! The line stream of `Forcola.Stream.lines/2`: one consumer pulling lines from one port. -/

namespace Forcola.Beam.Stream

open Library
open Native (Bytes Pipe ProcessIdentity)
open Shim (ChildStatus Scope ExitReport SpawnReason Tag Command)

structure Options where
  json : Bytes → Option Json
  timeoutMs : ℕ
  cleanupTimeout : ℕ
  idleTimeout : Option ℕ
  window : Option ℕ
  maxLineBytes : Option ℕ
  maxStderrBytes : Option ℕ
  mergeStderr : Bool
  identityEnabled : Bool
  spawnObserver : Bool
  structuredSpawnErrors : Bool
  trackDescendants : Bool
  trackObserver : Bool

inductive Limit
  | line (merged : Bool) (bytes : ℕ)
  | totalStderr (bytes : ℕ)
deriving DecidableEq, Repr

/-- `Forcola.Stream.Error`; `none` stands for `nil`, and for `:unknown` in `contained` and
`confirmation`. -/
structure Error where
  status : Option Status := none
  reason : Option SpawnReason := none
  limit : Option Limit := none
  stderr : Bytes := []
  timedOut : Bool := false
  idleTimedOut : Bool := false
  outputTruncated : Bool := false
  trackedGroups : List ProcessIdentity := []
  trackedGroupsTruncated : Bool := false
  contained : Option Bool := none
  scope : Scope := .unknown
  confirmation : Option Confirmation := none
deriving DecidableEq, Repr

inductive Exit
  | ok
  | error (error : Error)
deriving DecidableEq, Repr

inductive Purpose
  | idle
  | limit (lines : List Bytes) (limit : Limit)
  | cleanup
deriving DecidableEq, Repr

/-- Between two pulls, in the receive of `receive_next/1`, in that of `do_await_exit/2`, or over. -/
inductive Phase
  | ready
  | receiving (wait : ℤ)
  | awaiting (purpose : Purpose) (deadline : Instant)
  | halted
  | raised (error : Error)
  | abandoned
deriving DecidableEq, Repr

/-- `received`, `discarded` and `timeout` are history only: the output frames handled, those a nested
wait dropped, and the end of an expired wait. -/
inductive Effect
  | emitted (lines : List Bytes)
  | send (command : Command)
  | spawned (identity : ProcessIdentity)
  | tell (event : TrackingEvent)
  | received (pipe : Pipe) (payload : Bytes)
  | discarded (pipe : Pipe) (payload : Bytes)
  | timeout

/-- `reads` counts the clock readings; the log is newest first. -/
structure State where
  identity : Option ProcessIdentity
  tracking : Tracking
  buffer : Bytes
  stderr : Bytes
  stderrBytes : ℕ
  deadline : Instant
  idleDeadline : Option Instant
  exit : Option Exit
  outstanding : ℕ
  phase : Phase
  reads : ℕ
  log : List Effect

inductive Message
  | data (tag : Tag) (payload : Bytes)
  | exitStatus
deriving DecidableEq, Repr

/-- `expire` is the `after` clause of the receive the stream is in. -/
inductive Label
  | pull
  | message (message : Message)
  | expire
  | halt
deriving DecidableEq, Repr

variable (cfg : Options) (clock : ℕ → Instant)

namespace State

def add (s : State) (e : Effect) : State :=
  { s with log := e :: s.log }

def now (s : State) : Instant × State :=
  (clock s.reads, { s with reads := s.reads + 1 })

instance : Keeper State where
  tracking := State.tracking
  setTracking s t := { s with tracking := t }
  identity := State.identity
  setIdentity s identity := { s with identity := some identity }
  tell s event := s.add (.tell event)
  spawned s identity := s.add (.spawned identity)

def tell (s : State) (event : Option TrackingEvent) : State :=
  Keeper.notify cfg.trackObserver s event

def finishTracking (s : State) (scope : Scope) (confirmation : Confirmation)
    (contained : Option Bool) (truncated : Bool) : State :=
  Keeper.finishTracking cfg.trackObserver s scope confirmation contained truncated

def recordTracked (s : State) (payload : Bytes) : State :=
  Keeper.recordTracked cfg.trackObserver s (cfg.json payload)

def recordIdentity (s : State) (payload : Bytes) : State :=
  Keeper.recordIdentity cfg.spawnObserver cfg.identityEnabled s (cfg.json payload)

def trackingError (s : State) : Error :=
  { stderr := s.stderr
    trackedGroups := s.tracking.observed
    trackedGroupsTruncated := s.tracking.truncated }

end State

def start (timeoutMs reads : ℕ) : State :=
  let now := clock reads
  { identity := none
    tracking := Tracking.new cfg.trackDescendants
    buffer := []
    stderr := []
    stderrBytes := 0
    deadline := now + timeoutMs + cfg.cleanupTimeout
    idleDeadline := cfg.idleTimeout.map fun idle => now + idle
    exit := none
    outstanding := 0
    phase := .ready
    reads := reads + 1
    log := (cfg.maxStderrBytes.toList.map fun n => .send (.credit .stderr (n + 1))) ++ [.send .eof] }

def resetIdle (s : State) : State :=
  match cfg.idleTimeout with
  | some idle =>
    let r := s.now clock
    { r.2 with idleDeadline := some (r.1 + idle) }
  | none => { s with idleDeadline := none }

def grantCredit (s : State) : State :=
  match cfg.window with
  | none => s
  | some window =>
    let s := if s.outstanding < window then
        s.add (.send (.credit .stdout (window - s.outstanding)))
      else s
    resetIdle cfg clock { s with outstanding := window }

def accountStdout (s : State) (bytes : ℕ) : State :=
  match cfg.window with
  | none => s
  | some _ => { s with outstanding := s.outstanding - bytes }

def receiveNext (s : State) : State :=
  let r := s.now clock
  let remaining := r.2.deadline - r.1
  let wait := match r.2.idleDeadline with
    | some idleDeadline => min remaining (idleDeadline - r.1)
    | none => remaining
  { r.2 with phase := .receiving wait }

inductive Confirmed
  | exit (report : ExitReport)
  | timeout
  | error
  | shimExited

def cleanupEvidence (s : State) (result : Confirmed) : Error × State :=
  match result with
  | .exit report =>
    let s := s.finishTracking cfg report.scope (Tracking.confirmation report) report.contained
      report.trackedGroupsTruncated
    ({ s.trackingError with
      status := some (Tracking.status report)
      scope := report.scope
      confirmation := some (Tracking.confirmation report)
      contained := report.contained
      trackedGroupsTruncated := report.trackedGroupsTruncated }, s)
  | .timeout => lost .timeout
  | .error => lost .notStarted
  | .shimExited => lost .transportLost
where
  lost (confirmation : Confirmation) : Error × State :=
    let s := s.finishTracking cfg .unknown confirmation none false
    ({ s.trackingError with status := some .unconfirmed, confirmation := some confirmation }, s)

def emit (s : State) (lines : List Bytes) : State :=
  { s.add (.emitted lines) with phase := .ready }

def conclude (s : State) (purpose : Purpose) (result : Confirmed) : State :=
  let r := cleanupEvidence cfg s result
  match purpose with
  | .idle => emit { r.2 with exit := some (.error { r.1 with idleTimedOut := true }) } []
  | .limit lines limit =>
    emit { r.2 with
      buffer := []
      exit := some (.error { r.1 with limit := some limit, outputTruncated := true }) } lines
  | .cleanup => { r.2 with phase := .abandoned }

def doAwaitExit (s : State) (purpose : Purpose) (deadline : Instant) : State :=
  let r := s.now clock
  if deadline - r.1 ≤ 0 then conclude cfg r.2 purpose .timeout
  else { r.2 with phase := .awaiting purpose deadline }

def killAndConfirm (s : State) (purpose : Purpose) : State :=
  let r := (s.add (.send .kill)).now clock
  doAwaitExit cfg clock r.2 purpose (r.1 + cfg.cleanupTimeout)

def awaitMessage (s : State) (purpose : Purpose) (deadline : Instant) : Message → State
  | .data .exit payload =>
    conclude cfg s purpose (.exit (s.tracking.report (cfg.json payload)))
  | .data .error _ => conclude cfg s purpose .error
  | .data .spawned payload => doAwaitExit cfg clock (s.recordIdentity cfg payload) purpose deadline
  | .data .tracked payload => doAwaitExit cfg clock (s.recordTracked cfg payload) purpose deadline
  | .data .stdout payload => doAwaitExit cfg clock (s.add (.discarded .stdout payload)) purpose deadline
  | .data .stderr payload => doAwaitExit cfg clock (s.add (.discarded .stderr payload)) purpose deadline
  | .data .other _ => doAwaitExit cfg clock s purpose deadline
  | .exitStatus => conclude cfg s purpose .shimExited

def timeoutError (s : State) : State :=
  let s := s.add .timeout
  match s.idleDeadline with
  | some idleDeadline =>
    if idleDeadline ≤ s.deadline then killAndConfirm cfg clock s .idle else backstop s
  | none => backstop s
where
  backstop (s : State) : State :=
    let s := s.finishTracking cfg .unknown .timeout none false
    emit { s with exit := some (.error { s.trackingError with
      status := some .unconfirmed
      timedOut := true
      confirmation := some .timeout }) } []

def consumeLines (s : State) (payload : Bytes) : List Bytes × Option Limit × State :=
  let data := s.buffer ++ payload
  let lines := Lines.lines newline data
  let rest := Lines.rest newline data
  match cfg.maxLineBytes with
  | none => (lines, none, { s with buffer := rest })
  | some maxLine =>
    let fitting := lines.takeWhile fun line => line.length ≤ maxLine
    if fitting.length < lines.length then (fitting, some (.line cfg.mergeStderr maxLine), s)
    else if maxLine < rest.length then (lines, some (.line cfg.mergeStderr maxLine), s)
    else (lines, none, { s with buffer := rest })

def deliver (r : List Bytes × Option Limit × State) : State :=
  match r.2.1 with
  | some limit => killAndConfirm cfg clock r.2.2 (.limit r.1 limit)
  | none => emit r.2.2 r.1

/-- A line limit found in merged stderr comes before the stderr limit. -/
def consumeStderr (s : State) (payload : Bytes) : State :=
  match cfg.maxStderrBytes with
  | none => emit { s with stderr := s.stderr ++ payload } []
  | some maxStderr =>
    let remaining := maxStderr - s.stderrBytes
    let kept := payload.take remaining
    let exceeded := remaining < payload.length
    let s := { s with stderrBytes := s.stderrBytes + kept.length }
    let r := if cfg.mergeStderr then consumeLines cfg s kept
      else ([], none, { s with stderr := s.stderr ++ kept })
    match r.2.1 with
    | some limit => killAndConfirm cfg clock r.2.2 (.limit r.1 limit)
    | none =>
      if exceeded then killAndConfirm cfg clock r.2.2 (.limit r.1 (.totalStderr maxStderr))
      else emit r.2.2 r.1

def handleExit (s : State) (payload : Bytes) : State :=
  let report := s.tracking.report (cfg.json payload)
  let s := s.finishTracking cfg report.scope (Tracking.confirmation report) report.contained
    report.trackedGroupsTruncated
  let final := if s.buffer.isEmpty then [] else [s.buffer]
  let outcome :=
    if Tracking.status report = .child (.code 0) ∧ !report.timedOut ∧ !report.outputTruncated then
      Exit.ok
    else .error { s.trackingError with
      status := some (Tracking.status report)
      timedOut := report.timedOut
      outputTruncated := report.outputTruncated
      scope := report.scope
      contained := report.contained
      trackedGroupsTruncated := report.trackedGroupsTruncated
      confirmation := some (Tracking.confirmation report) }
  emit { s with buffer := [], exit := some outcome } final

def handleError (s : State) (payload : Bytes) : State :=
  let s := s.finishTracking cfg .unknown .notStarted none false
  emit { s with exit := some (.error { s.trackingError with
    reason := some (Shim.decodeError (cfg.json payload) cfg.structuredSpawnErrors)
    confirmation := some .notStarted }) } []

def handleExitStatus (s : State) : State :=
  let s := s.finishTracking cfg .unknown .transportLost none false
  emit { s with exit := some (.error { s.trackingError with
    status := some .unconfirmed
    confirmation := some .transportLost }) } []

def handleMessage (s : State) : Message → State
  | .data .stdout payload =>
    let s := resetIdle cfg clock (s.add (.received .stdout payload))
    deliver cfg clock (consumeLines cfg (accountStdout cfg s payload.length) payload)
  | .data .stderr payload =>
    consumeStderr cfg clock (resetIdle cfg clock (s.add (.received .stderr payload))) payload
  | .data .spawned payload => emit (s.recordIdentity cfg payload) []
  | .data .tracked payload => receiveNext clock (s.recordTracked cfg payload)
  | .data .exit payload => handleExit cfg s payload
  | .data .error payload => handleError cfg s payload
  | .data .other _ => emit s []
  | .exitStatus => handleExitStatus cfg s

def next (s : State) : State :=
  match s.exit with
  | none => receiveNext clock (grantCredit cfg clock s)
  | some .ok => { s with phase := .halted }
  | some (.error error) => { s with phase := .raised error }

def cleanup (s : State) : State :=
  match s.exit with
  | none => killAndConfirm cfg clock s .cleanup
  | some _ => { s with phase := .abandoned }

def step (s : State) (l : Label) : Option State :=
  match s.phase, l with
  | .ready, .pull => some (next cfg clock s)
  | .ready, .halt => some (cleanup cfg clock s)
  | .receiving _, .message message => some (handleMessage cfg clock s message)
  | .receiving wait, .expire =>
    if longestWait < wait then some (receiveNext clock s) else some (timeoutError cfg clock s)
  | .awaiting purpose deadline, .message message =>
    some (awaitMessage cfg clock s purpose deadline message)
  | .awaiting purpose deadline, .expire => some (doAwaitExit cfg clock s purpose deadline)
  | _, _ => none

end Forcola.Beam.Stream
