import Forcola.Beam.Tracking
import Forcola.Library.Lines
import Mathlib.Logic.Function.Basic

/-! The duplex session server: its callbacks, its shutdown and the table it publishes in. -/

namespace Forcola.Beam.Duplex

open Library
open Native (Bytes Pipe ProcessIdentity)
open Shim (ChildStatus Scope ExitReport SpawnReason Tag Command)

inductive Delivery
  | messages
  | pull
deriving DecidableEq, Repr

structure Options where
  json : Bytes → Option Json
  delivery : Delivery
  pty : Bool
  maxLineBytes : ℕ
  maxOutputBytes : ℕ
  maxPendingBytes : ℕ
  identityEnabled : Bool
  structuredSpawnErrors : Bool
  trackDescendants : Bool
  observer : Bool
  recipient : Bool
  /-- The order in which a two-key map is traversed. -/
  stderrFirst : Bool
  validated : delivery = .pull →
    0 < maxLineBytes ∧ 0 < maxOutputBytes ∧ maxLineBytes < maxPendingBytes

inductive Cause
  | childExit
  | timeout
  | explicitClose
  | ownerDeath
  | shimLost
  | sessionLost
  | outputLimit
  | spawnError
deriving DecidableEq, Repr

inductive OutputLimit
  | line (pipe : Pipe) (bytes : ℕ)
  | total (pipe : Pipe) (bytes : ℕ)
deriving DecidableEq, Repr

inductive OutputEvidence
  | complete
  | truncated
  | unknown
  | limit (limit : OutputLimit)
deriving DecidableEq, Repr

structure Terminal where
  status : Option ChildStatus
  confirmation : Confirmation
  cause : Cause
  scope : Scope
  spawnError : Option SpawnReason := none
  output : OutputEvidence := .complete
  trackedGroups : List ProcessIdentity := []
  trackedGroupsTruncated : Bool := false
  contained : Option Bool := none
deriving DecidableEq, Repr

/-- The session's ETS table; the groups are in the order of their indices. -/
structure TerminalTable where
  spawnIdentity : Option ProcessIdentity
  trackedGroups : List ProcessIdentity
  trackedGroupsTruncated : Bool
  terminal : Option Terminal

def TerminalTable.empty : TerminalTable := ⟨none, [], false, none⟩

def TerminalTable.insertNew (table : TerminalTable) (terminal : Terminal) : TerminalTable :=
  match table.terminal with
  | none => { table with terminal := some terminal }
  | some _ => table

inductive ExitStatus
  | child (status : ChildStatus)
  | unconfirmed
  | spawnError (reason : SpawnReason)
  | shimExited
deriving DecidableEq, Repr

structure Ended where
  status : ExitStatus
  terminal : Terminal

structure Line where
  pipe : Pipe
  bytes : Bytes
deriving DecidableEq, Repr

abbrev Caller := ℕ
abbrev Ref := ℕ

structure Waiter where
  caller : Caller
  ref : Ref
deriving DecidableEq, Repr

inductive InputFrame
  | line (bytes : Bytes)
  | eof
deriving DecidableEq, Repr

structure Input where
  caller : Caller
  frame : InputFrame
  ref : Ref
deriving DecidableEq, Repr

inductive RecvReply
  | line (line : Line)
  | done (terminal : Terminal)
  | timeout
  | busy
  | notPull
deriving DecidableEq, Repr

inductive SendReply
  | ok
  | closed
  | busy
deriving DecidableEq, Repr

inductive OwnerMessage
  | spawned (identity : ProcessIdentity)
  | tracked (identity : ProcessIdentity)
  | line (line : Line)
  | exit (status : ExitStatus)

inductive Effect
  | recvReply (caller : Caller) (reply : RecvReply)
  | sendReply (caller : Caller) (reply : SendReply)
  | owner (message : OwnerMessage)
  | observer (event : TrackingEvent)
  | command (command : Command)
  | published (terminal : Terminal)
  | recipient (terminal : Terminal)

inductive PortEvent
  | data (tag : Tag) (payload : Bytes)
  | exitStatus
deriving DecidableEq, Repr

inductive Call
  | sendLine (line : Bytes)
  | sendEof
  | recv
deriving DecidableEq, Repr

inductive Message
  | call (caller : Caller) (call : Call)
  | port (event : PortEvent)
  | ownerDown
  | recvTimeout (ref : Ref)
  | flushInput
  | sendTimeout (ref : Ref)
  | stop
  | other
deriving DecidableEq, Repr

/-- Everything a session takes in and puts out: messages its callbacks handle, port events the
shutdown loop receives or `Shim.close/1` discards, and effects. -/
inductive Entry
  | handled (message : Message)
  | awaited (event : PortEvent)
  | drained (event : PortEvent)
  | did (effect : Effect)

abbrev Log := List Entry

/-- Where the server process is: in its receive loop, between a stopping callback and
`terminate/2`, in `do_await_exit`, before `publish_terminal`, before its last reply, or gone. -/
inductive Phase
  | running
  | stopping
  | awaiting
  | closing (terminal : Terminal)
  | published
  | stopped
  | killed

structure State where
  table : Option TerminalTable
  buffers : Pipe → Bytes
  stdinOpen : Bool
  exit : Option Ended
  identity : Option ProcessIdentity
  tracking : Tracking
  shutdownCause : Cause
  totalOutputBytes : ℕ
  outstanding : Pipe → ℕ
  queue : List Line
  waiter : Option Waiter
  outputLimit : Option OutputLimit
  halt : Bool
  pending : List Input
  flushTimer : Bool
  refs : ℕ
  phase : Phase
  /-- The reply of a `{:stop, :normal, reply, state}`, sent after `terminate/2`. -/
  farewell : Option (Caller × RecvReply)
  log : Log

def init (cfg : Options) : State where
  table := some .empty
  buffers := fun _ => []
  stdinOpen := true
  exit := none
  identity := none
  tracking := Tracking.new cfg.trackDescendants
  shutdownCause := .explicitClose
  totalOutputBytes := 0
  outstanding := fun _ => 0
  queue := []
  waiter := none
  outputLimit := none
  halt := false
  pending := []
  flushTimer := false
  refs := 0
  phase := .running
  farewell := none
  log := []

def InputFrame.command : InputFrame → Command
  | .line bytes => .stdin (bytes ++ [newline])
  | .eof => .eof

def splitLines (data : Bytes) : List Bytes × Bytes :=
  (Lines.lines newline data, Lines.rest newline data)

def withGroups (terminal : Terminal) (tracking : Tracking) : Terminal :=
  { terminal with
    trackedGroups := tracking.observed
    trackedGroupsTruncated := terminal.trackedGroupsTruncated || tracking.truncated }

def outputEvidence (report : ExitReport) : OutputEvidence :=
  if !report.valid then .unknown else if report.outputTruncated then .truncated else .complete

def exitTerminal (report : ExitReport) (cause : Cause) (tracking : Tracking) : Terminal where
  status := report.status
  confirmation := if report.confirmed then .confirmed else .unconfirmed
  cause := if report.timedOut then .timeout else cause
  scope := report.scope
  contained := report.contained
  output := outputEvidence report
  trackedGroups := tracking.observed
  trackedGroupsTruncated := report.trackedGroupsTruncated

def reportStatus (report : ExitReport) : ExitStatus :=
  match report.confirmed, report.status with
  | true, some status => .child status
  | _, _ => .unconfirmed

def spawnErrorTerminal (reason : SpawnReason) : Terminal where
  status := none
  confirmation := .notStarted
  cause := .spawnError
  scope := .unknown
  spawnError := some reason

def lostTerminal (confirmation : Confirmation) (cause : Cause) : Terminal where
  status := none
  confirmation := confirmation
  cause := cause
  scope := .unknown
  output := .unknown

def shimLostTerminal : Terminal :=
  lostTerminal .transportLost .shimLost

inductive Shutdown
  | exit (report : ExitReport)
  | spawnError (reason : SpawnReason)
  | timeout
  | transportLost

def shutdownTerminal (result : Shutdown) (cause : Cause) (tracking : Tracking) : Terminal :=
  match result with
  | .exit report => exitTerminal report cause tracking
  | .spawnError reason => withGroups (spawnErrorTerminal reason) tracking
  | .timeout => withGroups (lostTerminal .timeout cause) tracking
  | .transportLost => withGroups (lostTerminal .transportLost cause) tracking

namespace State

def hear (s : State) (entry : Entry) : State :=
  { s with log := s.log ++ [entry] }

def tell (s : State) (effects : List Effect) : State :=
  { s with log := s.log ++ effects.map .did }

def store (s : State) (f : TerminalTable → TerminalTable) : State :=
  { s with table := s.table.map f }

def stop (s : State) : State :=
  { s with phase := .stopping }

def stopWith (s : State) (caller : Caller) (reply : RecvReply) : State :=
  { s with phase := .stopping, farewell := some (caller, reply) }

def failPending (s : State) (reply : SendReply) : State :=
  { s.tell (s.pending.map fun entry => .sendReply entry.caller reply) with pending := [] }

end State

variable (cfg : Options)

def finishTracking (s : State) (terminal : Terminal) : State :=
  let finished := s.tracking.finish terminal.scope terminal.confirmation terminal.contained
    terminal.trackedGroupsTruncated
  let s := { s with tracking := finished.1 }
  if cfg.observer then s.tell (finished.2.toList.map .observer) else s

inductive PortAnswer
  | ok
  | busy
  | closed
deriving DecidableEq, Repr

def enqueueInput (s : State) (caller : Caller) (frame : InputFrame) : State :=
  { s with
    pending := s.pending ++ [⟨caller, frame, s.refs⟩]
    refs := s.refs + 1
    flushTimer := true }

def submitInput (s : State) (caller : Caller) (frame : InputFrame) (answer : PortAnswer) : State :=
  if s.pending.isEmpty then
    match answer with
    | .ok => s.tell [.command frame.command, .sendReply caller .ok]
    | .closed => s.tell [.sendReply caller .closed]
    | .busy => enqueueInput s caller frame
  else enqueueInput s caller frame

/-- The port's answers are taken in order; a missing one counts as busy. -/
def flushInput (s : State) : List Input → List PortAnswer → State
  | [], _ => { s with pending := [] }
  | entry :: rest, .ok :: answers =>
    flushInput (s.tell [.command entry.frame.command, .sendReply entry.caller .ok]) rest answers
  | entry :: rest, .closed :: _ => ({ s with pending := entry :: rest }).failPending .closed
  | entry :: rest, _ => { s with pending := entry :: rest, flushTimer := true }

def expireInput (s : State) (ref : Ref) : State :=
  match s.pending.filter (·.ref = ref) with
  | [] => s
  | entry :: _ =>
    let s := { s.tell [.sendReply entry.caller .busy] with
      pending := s.pending.filter (·.ref ≠ ref) }
    if entry.frame = .eof then { s with stdinOpen := true } else s

def grantStreamCredit (s : State) (stream : Pipe) : State :=
  if stream = .stderr ∧ cfg.pty = true then s
  else if s.outstanding stream < cfg.maxPendingBytes then
    { s.tell [.command (.credit stream (cfg.maxPendingBytes - s.outstanding stream))] with
      outstanding := Function.update s.outstanding stream cfg.maxPendingBytes }
  else s

def grantPullCredit (s : State) : State :=
  grantStreamCredit cfg (grantStreamCredit cfg s .stdout) .stderr

def accountPullCredit (s : State) (stream : Pipe) (bytes : ℕ) : State :=
  { s with outstanding := Function.update s.outstanding stream (s.outstanding stream - bytes) }

def replyPullWaiter (s : State) : State :=
  match cfg.delivery, s.waiter with
  | .messages, _ => s
  | .pull, none => s
  | .pull, some waiter =>
    match s.queue, s.exit with
    | line :: queue, _ =>
      { s.tell [.recvReply waiter.caller (.line line)] with queue := queue, waiter := none }
    | [], some ended =>
      { s.tell [.recvReply waiter.caller (.done ended.terminal)] with waiter := none }
    | [], none => s

def markOutputLimit (s : State) (limit : OutputLimit) : State :=
  { s with halt := true, outputLimit := some limit, shutdownCause := .outputLimit }

def emitPullWithinTotal (s : State) (stream : Pipe) (chunk : Bytes) (total : ℕ) : State :=
  let (lines, rest) := splitLines (s.buffers stream ++ chunk)
  if cfg.maxLineBytes < rest.length ∨ ∃ line ∈ lines, cfg.maxLineBytes < line.length then
    markOutputLimit s (.line stream cfg.maxLineBytes)
  else
    let s := { s with
      totalOutputBytes := total
      buffers := Function.update s.buffers stream rest
      queue := s.queue ++ lines.map (⟨stream, ·⟩) }
    replyPullWaiter cfg (accountPullCredit s stream chunk.length)

def emit (s : State) (stream : Pipe) (chunk : Bytes) : State :=
  match cfg.delivery with
  | .pull =>
    let total := s.totalOutputBytes + chunk.length
    if cfg.maxOutputBytes < total then markOutputLimit s (.total stream cfg.maxOutputBytes)
    else emitPullWithinTotal cfg s stream chunk total
  | .messages =>
    let (lines, rest) := splitLines (s.buffers stream ++ chunk)
    { s.tell (lines.map fun line => .owner (.line ⟨stream, line⟩)) with
      buffers := Function.update s.buffers stream rest }

def partials (buffers : Pipe → Bytes) (streams : List Pipe) : List Line :=
  (streams.map fun stream => ⟨stream, buffers stream⟩).filter (·.bytes ≠ [])

def flushedMessages (s : State) : List Effect :=
  (partials s.buffers (if cfg.stderrFirst then [.stderr, .stdout] else [.stdout, .stderr])).map
    fun line => .owner (.line line)

def flushBuffers (s : State) : State :=
  match cfg.delivery with
  | .pull =>
    { s with buffers := fun _ => [], queue := s.queue ++ partials s.buffers [.stdout, .stderr] }
  | .messages => { s.tell (flushedMessages cfg s) with buffers := fun _ => [] }

def notifyExit (s : State) (status : ExitStatus) : State :=
  match cfg.delivery with
  | .pull => s
  | .messages => s.tell [.owner (.exit status)]

def recordIdentity (s : State) (payload : Bytes) : State :=
  if cfg.identityEnabled ∧ s.identity = none then
    match Shim.decodeIdentity (cfg.json payload) with
    | some identity =>
      { (s.store ({ · with spawnIdentity := some identity })).tell [.owner (.spawned identity)] with
        identity := some identity }
    | none => s
  else s

def recordTracked (s : State) (payload : Bytes) : State :=
  let recorded := s.tracking.record (cfg.json payload)
  let told := match recorded.2 with
    | some identity =>
      (s.store fun table => { table with trackedGroups := table.trackedGroups ++ [identity] }).tell
        ((if cfg.observer then [Effect.observer (.tracked identity)] else []) ++
          [Effect.owner (.tracked identity)])
    | none => s
  let stored := if recorded.1.truncated && !s.tracking.truncated then
      told.store ({ · with trackedGroupsTruncated := true })
    else told
  { stored with tracking := recorded.1 }

def childExited (s : State) (payload : Bytes) : State :=
  let report := s.tracking.report (cfg.json payload)
  let status := reportStatus report
  let terminal := exitTerminal report .childExit s.tracking
  let s := notifyExit cfg (flushBuffers cfg (finishTracking cfg s terminal)) status
  replyPullWaiter cfg (({ s with exit := some ⟨status, terminal⟩ }).failPending .closed)

def spawnFailed (s : State) (payload : Bytes) : State :=
  let reason := Shim.decodeError (cfg.json payload) cfg.structuredSpawnErrors
  let terminal := spawnErrorTerminal reason
  let ended := ⟨.spawnError reason, withGroups terminal s.tracking⟩
  let s := finishTracking cfg (notifyExit cfg s (.spawnError reason)) terminal
  replyPullWaiter cfg (({ s with exit := some ended }).failPending .closed)

def handleFrame (s : State) (tag : Tag) (payload : Bytes) : State :=
  match tag with
  | .stdout => emit cfg s .stdout payload
  | .stderr => emit cfg s .stderr payload
  | .spawned => recordIdentity cfg s payload
  | .tracked => recordTracked cfg s payload
  | .exit => childExited cfg s payload
  | .error => spawnFailed cfg s payload
  | .other => s

def afterFrame (s : State) : State :=
  if s.halt then s.stop
  else if s.exit.isNone then s
  else if cfg.delivery = .pull ∧ s.queue ≠ [] then s
  else s.stop

def handleData (s : State) (tag : Tag) (payload : Bytes) : State :=
  afterFrame cfg (handleFrame cfg s tag payload)

def handleExitStatus (s : State) : State :=
  let s := notifyExit cfg (flushBuffers cfg s) .shimExited
  let ended := ⟨.shimExited, withGroups shimLostTerminal s.tracking⟩
  let s := finishTracking cfg s shimLostTerminal
  let s := replyPullWaiter cfg (({ s with exit := some ended }).failPending .closed)
  if cfg.delivery = .pull ∧ s.queue ≠ [] then s else s.stop

def handleRecv (s : State) (caller : Caller) : State :=
  match cfg.delivery, s.waiter with
  | .messages, _ => s.tell [.recvReply caller .notPull]
  | .pull, some _ => s.tell [.recvReply caller .busy]
  | .pull, none =>
    match s.queue, s.exit with
    | line :: queue, exit =>
      let s := { s with queue := queue }
      if exit.isSome ∧ queue = [] then s.stopWith caller (.line line)
      else s.tell [.recvReply caller (.line line)]
    | [], some ended => s.stopWith caller (.done ended.terminal)
    | [], none => grantPullCredit cfg { s with waiter := some ⟨caller, s.refs⟩, refs := s.refs + 1 }

def handleCall (s : State) (caller : Caller) (call : Call) (answer : PortAnswer) : State :=
  match call with
  | .sendLine line =>
    if s.exit.isSome ∨ s.stdinOpen = false then s.tell [.sendReply caller .closed]
    else submitInput s caller (.line line) answer
  | .sendEof =>
    if s.exit.isSome ∨ s.stdinOpen = false then s.tell [.sendReply caller .closed]
    else submitInput { s with stdinOpen := false } caller .eof answer
  | .recv => handleRecv cfg s caller

def handleRecvTimeout (s : State) (ref : Ref) : State :=
  match s.waiter with
  | some waiter =>
    if waiter.ref = ref then { s.tell [.recvReply waiter.caller .timeout] with waiter := none }
    else s
  | none => s

/-- `answers` are the port's, for the frames this message makes the session offer. -/
def handle (s : State) (message : Message) (answers : List PortAnswer) : State :=
  match message with
  | .call caller call => handleCall cfg s caller call (answers.headD .busy)
  | .port (.data tag payload) => handleData cfg s tag payload
  | .port .exitStatus => handleExitStatus cfg s
  | .ownerDown => ({ s with shutdownCause := .ownerDeath }).stop
  | .recvTimeout ref => handleRecvTimeout s ref
  | .flushInput => flushInput { s with flushTimer := false } s.pending answers
  | .sendTimeout ref => expireInput s ref
  | .stop => s.stop
  | .other => s

/-- `send_kill`, with `badarg` for a raise. -/
inductive KillAnswer
  | accepted
  | closed
  | busy
  | badarg
deriving DecidableEq, Repr

def finishOutputEvidence (terminal : Terminal) (s : State) : Terminal :=
  match s.outputLimit with
  | some limit => { terminal with cause := .outputLimit, output := .limit limit }
  | none =>
    match cfg.delivery with
    | .pull =>
      if s.queue ≠ [] ∨ s.buffers .stdout ≠ [] ∨ s.buffers .stderr ≠ [] then
        { terminal with output := .truncated }
      else terminal
    | .messages => terminal

def conclude (s : State) (result : Shutdown) : State :=
  let terminal := shutdownTerminal result s.shutdownCause s.tracking
  { finishTracking cfg s terminal with phase := .closing (finishOutputEvidence cfg terminal s) }

def settle (s : State) (kill : KillAnswer) : State :=
  match s.exit, kill with
  | some ended, _ =>
    { finishTracking cfg s ended.terminal with
      phase := .closing (finishOutputEvidence cfg (withGroups ended.terminal s.tracking) s) }
  | none, .accepted => { s.tell [.command .kill] with phase := .awaiting }
  | none, .closed => { s with phase := .awaiting }
  | none, .busy => conclude cfg s .timeout
  | none, .badarg => conclude cfg s .transportLost

/-- The flush of `terminate/2`, which keeps the state it was given. -/
def flushMessages (s : State) : State :=
  match cfg.delivery with
  | .messages => s.tell (flushedMessages cfg s)
  | .pull => s

/-- `terminate/2` up to its wait for the EXIT frame. -/
def terminate (s : State) (kill : KillAnswer) : State :=
  settle cfg (flushMessages cfg (s.failPending .closed)) kill

def awaitExit (s : State) (event : PortEvent) : State :=
  match event with
  | .data .exit payload => conclude cfg s (.exit (s.tracking.report (cfg.json payload)))
  | .data .error payload =>
    conclude cfg s (.spawnError (Shim.decodeError (cfg.json payload) cfg.structuredSpawnErrors))
  | .data .spawned payload => recordIdentity cfg s payload
  | .data .tracked payload => recordTracked cfg s payload
  | .data _ _ => s
  | .exitStatus => conclude cfg s .transportLost

def publish (s : State) (terminal : Terminal) : State :=
  { (s.store (·.insertNew terminal)).tell
      (.published terminal :: if cfg.recipient then [.recipient terminal] else []) with
    phase := .published }

def State.leave (s : State) : State :=
  { s.tell (s.farewell.toList.map fun reply => .recvReply reply.1 reply.2) with
    phase := .stopped, farewell := none }

/-- The server's own moves, `kill` from outside, and the loss of the owner's table. -/
inductive Label
  | message (message : Message) (answers : List PortAnswer)
  | terminate (kill : KillAnswer)
  | await (event : PortEvent)
  | deadline
  | drain (event : PortEvent)
  | publish
  | leave
  | kill
  | release
deriving DecidableEq, Repr

def step (s : State) (label : Label) : Option State :=
  match s.phase, label with
  | _, .release => some { s with table := none }
  | .running, .message message answers =>
    some (handle cfg (s.hear (.handled message)) message answers)
  | .stopping, .terminate kill => some (terminate cfg s kill)
  | .awaiting, .await event => some (awaitExit cfg (s.hear (.awaited event)) event)
  | .awaiting, .deadline => some (conclude cfg s .timeout)
  | .closing _, .drain event => some (s.hear (.drained event))
  | .closing terminal, .publish => some (publish cfg s terminal)
  | .published, .leave => some s.leave
  | .stopped, _ => none
  | .killed, _ => none
  | _, .kill => some { s with phase := .killed }
  | _, _ => none

end Forcola.Beam.Duplex
