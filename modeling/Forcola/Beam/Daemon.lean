import Forcola.Beam.Tracking

/-! The daemon server: readiness, frames and the kill discipline of `terminate/2`. -/

namespace Forcola.Beam.Daemon

open Native (Bytes Pipe ProcessIdentity)
open Shim (ChildStatus Scope ExitReport SpawnReason Tag Command)

structure Options where
  json : Bytes → Option Json
  cleanupTimeout : ℕ
  identityEnabled : Bool
  spawnObserver : Bool
  structuredSpawnErrors : Bool
  trackDescendants : Bool
  trackObserver : Bool

inductive Exit
  | exit (status : Status) (timedOut : Bool)
  | spawnError (reason : SpawnReason)
  | shimExited (status : ℕ)
deriving DecidableEq, Repr

/-- `exitSignal none` is `{:exit_signal, :unconfirmed}`, `shutdown` a reason from outside. -/
inductive StopReason
  | normal
  | exitStatus (status : ℕ)
  | exitSignal (signal : Option ℕ)
  | spawn (reason : SpawnReason)
  | shimExited (status : ℕ)
  | exitedBeforeReady (reason : StopReason)
  | readyTimeout
  | shutdown
deriving DecidableEq, Repr

def stopReason : Exit → StopReason
  | .exit (.child (.code 0)) _ => .normal
  | .exit (.child (.code status)) _ => .exitStatus status
  | .exit (.child (.signal signal)) _ => .exitSignal (some signal)
  | .exit .unconfirmed _ => .exitSignal none
  | .spawnError reason => .spawn reason
  | .shimExited status => .shimExited status

/-- In `await_ready/2`, in the server loop, in `do_await_exit/2` on the way out, or stopped. -/
inductive Phase
  | starting
  | running
  | awaiting (reason : StopReason) (deadline : Instant)
  | stopped (reason : StopReason)
deriving DecidableEq, Repr

inductive Effect
  | output (pipe : Pipe) (payload : Bytes)
  | send (command : Command)
  | spawned (identity : ProcessIdentity)
  | tell (event : TrackingEvent)

/-- `reads` counts the clock readings; the log is newest first. -/
structure State where
  identity : Option ProcessIdentity
  tracking : Tracking
  exit : Option Exit
  phase : Phase
  reads : ℕ
  log : List Effect

inductive Message
  | data (tag : Tag) (payload : Bytes)
  | exitStatus (status : ℕ)
deriving DecidableEq, Repr

/-- `ready` and `readyTimeout` are the answers of the ready poll, `stop` every other reason for
`terminate/2`, `expire` the `after` clause of the shutdown's receive. -/
inductive Label
  | message (message : Message)
  | ready
  | readyTimeout
  | stop
  | expire
deriving DecidableEq, Repr

variable (cfg : Options) (clock : ℕ → Instant)

namespace State

def add (s : State) (e : Effect) : State :=
  { s with log := e :: s.log }

def now (s : State) : Instant × State :=
  (clock s.reads, { s with reads := s.reads + 1 })

instance : Keeper State where
  tracking := State.tracking
  setTracking s t := { s with tracking := t }
  identity := State.identity
  setIdentity s identity := { s with identity := some identity }
  tell s event := s.add (.tell event)
  spawned s identity := s.add (.spawned identity)

def tell (s : State) (event : Option TrackingEvent) : State :=
  Keeper.notify cfg.trackObserver s event

def finishTracking (s : State) (scope : Scope) (confirmation : Confirmation)
    (contained : Option Bool) (truncated : Bool) : State :=
  Keeper.finishTracking cfg.trackObserver s scope confirmation contained truncated

def recordTracked (s : State) (payload : Bytes) : State :=
  Keeper.recordTracked cfg.trackObserver s (cfg.json payload)

def recordIdentity (s : State) (payload : Bytes) : State :=
  Keeper.recordIdentity cfg.spawnObserver cfg.identityEnabled s (cfg.json payload)

end State

def start : State where
  identity := none
  tracking := Tracking.new cfg.trackDescendants
  exit := none
  phase := .starting
  reads := 0
  log := []

def handleExit (s : State) (payload : Bytes) : State :=
  let report := s.tracking.report (cfg.json payload)
  { s.finishTracking cfg report.scope (Tracking.confirmation report) report.contained
      report.trackedGroupsTruncated with
    exit := some (.exit (Tracking.status report) report.timedOut) }

def handleFrame (s : State) (tag : Tag) (payload : Bytes) : State :=
  match tag with
  | .stdout => s.add (.output .stdout payload)
  | .stderr => s.add (.output .stderr payload)
  | .spawned => s.recordIdentity cfg payload
  | .tracked => s.recordTracked cfg payload
  | .exit => handleExit cfg s payload
  | .error =>
    { s.finishTracking cfg .unknown .notStarted none false with
      exit := some (.spawnError (Shim.decodeError (cfg.json payload) cfg.structuredSpawnErrors)) }
  | .other => s

inductive Confirmed
  | exit (report : ExitReport)
  | lost (confirmation : Confirmation)

def finishCleanup (s : State) (reason : StopReason) (result : Confirmed) : State :=
  let s := match result with
    | .exit report =>
      s.finishTracking cfg report.scope (Tracking.confirmation report) report.contained
        report.trackedGroupsTruncated
    | .lost confirmation => s.finishTracking cfg .unknown confirmation none false
  { s with phase := .stopped reason }

def doAwaitExit (s : State) (reason : StopReason) (deadline : Instant) : State :=
  let r := s.now clock
  if deadline - r.1 ≤ 0 then finishCleanup cfg r.2 reason (.lost .timeout)
  else { r.2 with phase := .awaiting reason deadline }

def shutdown (s : State) (reason : StopReason) : State :=
  match s.exit with
  | none =>
    let r := (s.add (.send .kill)).now clock
    doAwaitExit cfg clock r.2 reason (r.1 + cfg.cleanupTimeout)
  | some (.spawnError _) => finishCleanup cfg s reason (.lost .notStarted)
  | some _ => finishCleanup cfg s reason (.lost .transportLost)

/-- A message while `await_ready/2` absorbs frames; an exit ends the poll. -/
def absorb (s : State) (message : Message) : State :=
  let s := match message with
    | .data tag payload => handleFrame cfg s tag payload
    | .exitStatus status => { s with exit := some (.shimExited status) }
  match s.exit with
  | none => s
  | some exit => shutdown cfg clock s (.exitedBeforeReady (stopReason exit))

def handleInfo (s : State) : Message → State
  | .data tag payload =>
    let s := handleFrame cfg s tag payload
    match s.exit with
    | none => s
    | some exit => shutdown cfg clock s (stopReason exit)
  | .exitStatus status =>
    let s := s.finishTracking cfg .unknown .transportLost none false
    shutdown cfg clock { s with exit := some (.shimExited status) } (.shimExited status)

def awaitMessage (s : State) (reason : StopReason) (deadline : Instant) : Message → State
  | .data .exit payload => finishCleanup cfg s reason (.exit (s.tracking.report (cfg.json payload)))
  | .data .error _ => finishCleanup cfg s reason (.lost .notStarted)
  | .data .spawned payload => doAwaitExit cfg clock (s.recordIdentity cfg payload) reason deadline
  | .data .tracked payload => doAwaitExit cfg clock (s.recordTracked cfg payload) reason deadline
  | .data _ _ => doAwaitExit cfg clock s reason deadline
  | .exitStatus _ => finishCleanup cfg s reason (.lost .transportLost)

def step (s : State) (l : Label) : Option State :=
  match s.phase, l with
  | .starting, .message message => some (absorb cfg clock s message)
  | .starting, .ready => some { s with phase := .running }
  | .starting, .readyTimeout => some (shutdown cfg clock s .readyTimeout)
  | .running, .message message => some (handleInfo cfg clock s message)
  | .running, .stop => some (shutdown cfg clock s .shutdown)
  | .awaiting reason deadline, .message message =>
    some (awaitMessage cfg clock s reason deadline message)
  | .awaiting reason deadline, .expire => some (doAwaitExit cfg clock s reason deadline)
  | _, _ => none

end Forcola.Beam.Daemon
