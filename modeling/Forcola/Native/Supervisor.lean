import Forcola.Native.Pump
import Forcola.Native.Tracking

/-! The supervision loops, the output drains and the threads around them. -/

namespace Forcola.Native.Supervisor

open Forcola.Library

def outputDrainGrace : Duration := millis 1000

/-- The frames the stdin reader forwards to the loop; STDIN and EOF frames never reach it. -/
inductive InFrame
  | credit (payload : Bytes)
  | stderrCredit (payload : Bytes)
  | kill
  | other (tag : ℕ)
deriving DecidableEq, Repr

structure ChildOutcome where
  status : Option ℤ
  signal : Option ℤ
deriving DecidableEq, Repr

inductive Event
  | stdin (frame : InFrame)
  | stdinClosed
  | stdinError
  | childExited (outcome : ChildOutcome)
  | childWaitFailed
  | timedOut
  | trackingWriteFailed
deriving DecidableEq, Repr

inductive Scope
  | treeContained
  | treeSampled
deriving DecidableEq, Repr

def scope : Platform → Scope
  | .linux => .treeContained
  | .macos => .treeSampled

structure ExitReport where
  status : Option ℤ
  signal : Option ℤ
  timedOut : Bool
  confirmed : Bool
  contained : Bool
  outputTruncated : Bool
  scope : Option Scope
  trackedGroupsTruncated : Option Bool
deriving DecidableEq, Repr

inductive Frame
  | output (tag : Pipe) (bytes : Bytes)
  | tracked (id : ProcessIdentity)
  | exit (report : ExitReport)
deriving DecidableEq, Repr

structure Config where
  killGrace : Duration
  interruptGrace : Option Duration
  cgroup : Bool
  strictOutput : Bool

/-- The writer thread of a tracked run: it forwards control frames until a write fails. -/
inductive Writer
  | running
  | failed
deriving DecidableEq, Repr

inductive Reap
  | pending
  | exited (outcome : ChildOutcome)
  | failed
deriving DecidableEq, Repr

structure Untracked where
  groupConfirmed : Bool
  groupCleanupStarted : Bool
deriving DecidableEq, Repr

structure Tracked (σ : Type) where
  tracker : Tracker σ
  control : List Frame
  writer : Writer
  historyTruncated : Bool
  nextScan : Instant
  confirmed : Bool
  finalConfirmed : Bool
  reaped : Reap

inductive Mode (σ : Type)
  | untracked (loop : Untracked)
  | tracked (loop : Tracked σ)

inductive StrictPoint
  | check
  | poll
  | wait
deriving DecidableEq, Repr

/-- Where the supervising thread is. A drain knows whether output was cut already. -/
inductive Point
  | top
  | recv
  | finish
  | strict (completed : ℕ) (at_ : StrictPoint)
  | drain (remaining : ℕ) (deadline : Instant) (cut : Bool)
  | report (truncated : Bool)
  | collect
  | returned (beamGone : Bool)
deriving DecidableEq, Repr

inductive Act
  | killGroup (confirmed : Bool)
  | killRoot
  | finishCgroup (drained : Bool)
deriving DecidableEq, Repr

/-- The supervising thread with the threads and channels around it. `wire` is the protocol
output, newest first. `seen`, `drained`, `acts` and `left` record what happened: the events the
loop and the strict drain consumed, the kills, and the time of the loop's last advance. -/
structure State (σ : Type) where
  clock : Instant
  queue : List Event
  stdout : Pump
  stderr : Option Pump
  pumpDone : ℕ
  wire : List Frame
  connected : Bool
  childRunning : Bool
  inputClosed : Bool
  point : Point
  timedOut : Bool
  beamGone : Bool
  discardOutput : Bool
  outcome : Option ChildOutcome
  cgroupConfirmed : Bool
  mode : Mode σ
  seen : List Event
  drained : List Event
  acts : List Act
  left : Option Instant

def waitUntil (polls : List Bool) : Bool :=
  polls.any id

/-- Whether the group was gone at each liveness probe after INT, TERM and KILL. -/
structure KillAnswers where
  interrupt : List Bool
  term : List Bool
  kill : List Bool
deriving DecidableEq

def killGroup (cfg : Config) (answers : KillAnswers) : Bool :=
  if cfg.interruptGrace.isSome && waitUntil answers.interrupt then true
  else waitUntil answers.term || waitUntil answers.kill

def reapRoot (polls : List Reap) : Reap :=
  (polls.find? (· != .pending)).getD .pending

structure TickAnswers where
  hungUp : Bool
  scanning : Duration
  advancing : Duration
deriving DecidableEq

structure FinishAnswers where
  took : Duration
  reaps : List Reap
  cgroupDrained : List Bool
deriving DecidableEq

inductive Label
  | send (frame : InFrame)
  | hangUp
  | closed
  | readFailed
  | childExits (outcome : Option ChildOutcome)
  | timer
  | elapse (time : Duration)
  | pump (pipe : Pipe) (action : PumpAction)
  | deliver (ok : Bool)
  | tick (answers : TickAnswers)
  | receive (answers : KillAnswers)
  | timeout
  | disconnected
  | finish (answers : FinishAnswers)
  | strict (hungUp : Bool)
  | drain
  | report (ok : Bool)
  | collect
deriving DecidableEq

def Label.peer : Label → Bool
  | .send _ | .hangUp | .closed | .readFailed => true
  | _ => false

variable {σ : Type}

namespace State

def pumps (s : State σ) : ℕ :=
  1 + s.stderr.toList.length

def onCredits (f : Credit → Credit) (s : State σ) : State σ :=
  { s with stdout := s.stdout.onCredit f, stderr := s.stderr.map (Pump.onCredit f) }

def cancel (s : State σ) : State σ :=
  s.onCredits Credit.cancel

def uncork (s : State σ) : State σ :=
  s.onCredits Credit.uncork

def gates (s : State σ) : List Credit :=
  s.stdout.credit.toList ++ (s.stderr.bind (·.credit)).toList

def grantStdout (s : State σ) (payload : Bytes) : State σ :=
  match parseGrant payload with
  | some n => { s with stdout := s.stdout.onCredit (·.grant n) }
  | none => s

def grantStderr (s : State σ) (payload : Bytes) : State σ :=
  match parseGrant payload with
  | some n => { s with stderr := s.stderr.map (Pump.onCredit (·.grant n)) }
  | none => s

def setTracked (s : State σ) (t : Tracked σ) : State σ :=
  { s with mode := .tracked t }

def pumpsClosed (s : State σ) : Bool :=
  s.stdout.point == .closed && s.stderr.all (·.point == .closed)

def startDrain (s : State σ) (remaining : ℕ) (cut : Bool) : State σ :=
  { s with point := .drain remaining (s.clock + outputDrainGrace) cut }

end State

def State.selected (s : State σ) : Pipe → Option Pump
  | .stdout => some s.stdout
  | .stderr => s.stderr

def State.setPump (s : State σ) (pipe : Pipe) (p : Pump) : State σ :=
  match pipe with
  | .stdout => { s with stdout := p }
  | .stderr => { s with stderr := some p }

def pumpOut (s : State σ) (p : Pump) (action : PumpAction) : State σ :=
  match p.point, action with
  | .writing bytes, .write true => { s with wire := .output p.tag bytes :: s.wire }
  | _, .done => { s with pumpDone := s.pumpDone + 1 }
  | _, _ => s

def pumpStep (s : State σ) (pipe : Pipe) (action : PumpAction) : Option (State σ) :=
  (s.selected pipe).bind fun p =>
    if action = .write false ∧ s.connected then none
    else (p.step action).map fun p' => pumpOut (s.setPump pipe p') p action

def push (s : State σ) (e : Event) : State σ :=
  { s with queue := s.queue ++ [e] }

def childExits (s : State σ) (outcome : Option ChildOutcome) : Option (State σ) :=
  if s.childRunning then
    let s := { s with childRunning := false }
    match s.mode, outcome with
    | _, some outcome => some (push s (.childExited outcome))
    | .untracked _, none => some (push s (.childExited ⟨none, none⟩))
    | .tracked _, none => some (push s .childWaitFailed)
  else none

def deliver (s : State σ) (ok : Bool) : Option (State σ) :=
  match s.mode with
  | .untracked _ => none
  | .tracked t =>
    match t.writer, t.control with
    | .running, frame :: rest =>
      if ok then some { s with wire := frame :: s.wire, mode := .tracked { t with control := rest } }
      else if s.connected then none
      else
        some (push
          (s.setTracked { t with control := [], writer := .failed }) .trackingWriteFailed)
    | _, _ => none

def announce (s : State σ) (t : Tracked σ) : List ProcessIdentity → State σ × Tracked σ
  | [] => (s, t)
  | id :: rest =>
    if s.beamGone then announce s t rest
    else
      match t.writer with
      | .failed =>
        announce { s with beamGone := true } { t with tracker := t.tracker.fail .supervisor } rest
      | .running =>
        if t.control.length < maxGroups then
          announce s { t with control := t.control ++ [.tracked id] } rest
        else announce s { t with historyTruncated := true } rest

def announceFinal (t : Tracked σ) : List ProcessIdentity → Tracked σ
  | [] => t
  | id :: rest =>
    if t.writer = .running ∧ t.control.length < maxGroups then
      announceFinal { t with control := t.control ++ [.tracked id] } rest
    else announceFinal { t with historyTruncated := true } rest

def beginCleanup (cfg : Config) (t : Tracked σ) (now : Instant) : Tracked σ :=
  { t with tracker := t.tracker.beginCleanup now cfg.interruptGrace cfg.killGrace }

/-- The peer check and the scan of a due iteration, up to `tracker.uncertain()`. -/
def sampled (cfg : Config) (H : Host σ) (s : State σ) (t : Tracked σ) (hungUp : Bool) :
    State σ × Tracked σ :=
  let (s, t) :=
    if !s.beamGone && hungUp then
      ({ s with beamGone := true, discardOutput := true }, beginCleanup cfg t s.clock)
    else (s, t)
  let (groups, tracker) := (t.tracker.scan H).takeNewGroups
  announce s { t with tracker := tracker } groups

/-- Grace periods begin after the scan; a tracker that lost track starts cleanup. -/
def giveUp (cfg : Config) (s : State σ) (t : Tracked σ) : State σ × Tracked σ :=
  if t.tracker.uncertain && !t.tracker.cleaning then
    ({ s with discardOutput := true }, beginCleanup cfg t s.clock)
  else (s, t)

def cleanupTick (H : Host σ) (s : State σ) (t : Tracked σ) (advancing : Duration) : State σ :=
  let s := { s with inputClosed := true }
  let s := if s.discardOutput then s.cancel else s
  let now := s.clock
  let (progress, tracker) := t.tracker.advance H now
  let t := { t with tracker := tracker }
  if progress.done && (s.outcome.isSome || tracker.expired now) then
    { s with
      point := .finish
      left := some now
      mode := .tracked { t with confirmed := progress.confirmed && s.outcome.isSome } }
  else
    let s := { s with clock := s.clock + advancing, point := .recv }
    s.setTracked { t with nextScan := s.clock + sampleInterval }

def tick (cfg : Config) (H : Host σ) (s : State σ) (t : Tracked σ) (answers : TickAnswers) :
    Option (State σ) :=
  if s.clock < t.nextScan then some { s with point := .recv }
  else if answers.hungUp && s.connected then none
  else
    let (s, t) := sampled cfg H s t answers.hungUp
    let (s, t) := giveUp cfg { s with clock := s.clock + answers.scanning } t
    if t.tracker.cleaning then some (cleanupTick H s t answers.advancing)
    else
      let s := { s with clock := s.clock + answers.advancing, point := .recv }
      some (s.setTracked { t with nextScan := s.clock + sampleInterval })

def cleanNow (cfg : Config) (s : State σ) (t : Tracked σ) : State σ :=
  s.setTracked { beginCleanup cfg t s.clock with nextScan := s.clock }

def beamLost (cfg : Config) (s : State σ) (t : Tracked σ) : State σ :=
  cleanNow cfg { s with beamGone := true, discardOutput := true } t

def handleTracked (cfg : Config) (s : State σ) (t : Tracked σ) : Event → State σ
  | .stdin (.credit payload) => s.grantStdout payload
  | .stdin (.stderrCredit payload) => s.grantStderr payload
  | .stdin .kill =>
    cleanNow cfg { s with discardOutput := s.discardOutput || s.outcome.isNone } t
  | .stdin (.other _) => s
  | .stdinClosed | .stdinError | .trackingWriteFailed => beamLost cfg s t
  | .timedOut =>
    if s.outcome.isNone then
      cleanNow cfg { s with timedOut := true, discardOutput := true } t
    else s
  | .childWaitFailed =>
    s.setTracked { t with tracker := t.tracker.fail .supervisor, nextScan := s.clock }
  | .childExited outcome => cleanNow cfg { s with outcome := some outcome } t

def finishCgroup (cfg : Config) (s : State σ) (polls : List Bool) : State σ :=
  if cfg.cgroup then
    { s with
      cgroupConfirmed := waitUntil polls
      acts := .finishCgroup (waitUntil polls) :: s.acts }
  else { s with cgroupConfirmed := true }

def reapTracked (s : State σ) (reaped : Reap) : State σ :=
  { s with
    acts := if s.outcome.isNone then .killRoot :: s.acts else s.acts
    outcome := match reaped with
      | .exited outcome => some outcome
      | _ => s.outcome }

/-- Which drain a tracked run ends with. -/
def chooseDrain (cfg : Config) (s : State σ) : State σ :=
  if cfg.strictOutput && !s.discardOutput then { s with point := .strict 0 .check }
  else (if s.discardOutput then s.cancel else s.uncork).startDrain s.pumps s.discardOutput

def finishTracked (cfg : Config) (H : Host σ) (s : State σ) (t : Tracked σ)
    (answers : FinishAnswers) : State σ :=
  let (finalConfirmed, tracker) := t.tracker.finishScan H
  let reaped := reapRoot answers.reaps
  let s := { s with inputClosed := true, clock := s.clock + answers.took }
  let s := finishCgroup cfg (reapTracked s reaped) answers.cgroupDrained
  let t := { t with tracker := tracker, finalConfirmed := finalConfirmed, reaped := reaped }
  if s.beamGone then { s.cancel.setTracked t with point := .returned true }
  else
    let (groups, tracker) := t.tracker.takeNewGroups
    chooseDrain cfg (s.setTracked (announceFinal { t with tracker := tracker } groups))

def stopGroup (cfg : Config) (s : State σ) (u : Untracked) (answers : KillAnswers) : State σ :=
  let s := { s with inputClosed := true }
  if u.groupCleanupStarted then s
  else
    let confirmed := killGroup cfg answers
    { s with
      acts := .killGroup confirmed :: s.acts
      mode := .untracked ⟨confirmed, true⟩ }

def handleUntracked (cfg : Config) (s : State σ) (u : Untracked) (answers : KillAnswers) :
    Event → State σ
  | .stdin .kill => stopGroup cfg { s with discardOutput := true } u answers
  | .stdin (.credit payload) => s.grantStdout payload
  | .stdin (.stderrCredit payload) => s.grantStderr payload
  | .stdin (.other _) | .trackingWriteFailed | .childWaitFailed => s
  | .stdinClosed | .stdinError =>
    stopGroup cfg { s with discardOutput := true, beamGone := true } u answers
  | .timedOut => stopGroup cfg { s with discardOutput := true, timedOut := true } u answers
  | .childExited outcome =>
    { stopGroup cfg s u answers with outcome := some outcome, point := .finish }

def finishUntracked (cfg : Config) (s : State σ) (answers : FinishAnswers) : State σ :=
  let s := if cfg.strictOutput then s else s.uncork
  let s := finishCgroup cfg { s with clock := s.clock + answers.took } answers.cgroupDrained
  if s.beamGone then { s.cancel with point := .returned true }
  else if cfg.strictOutput then
    if s.discardOutput then s.cancel.startDrain s.pumps true
    else { s with point := .strict 0 .check }
  else s.startDrain s.pumps false

/-- One step of `drain_pumps`; `none` while it waits for a pump and for its deadline. -/
def drainStep (s : State σ) (remaining : ℕ) (deadline : Instant) (cut : Bool) :
    Option (State σ) :=
  match remaining with
  | 0 => some { s with point := .report cut }
  | remaining + 1 =>
    if deadline ≤ s.clock then some { s with point := .report true }
    else if 0 < s.pumpDone then
      some { s with pumpDone := s.pumpDone - 1, point := .drain remaining deadline cut }
    else if s.pumpsClosed then some { s with point := .report true }
    else none

def strictEvent (s : State σ) (completed : ℕ) : Event → State σ
  | .stdin (.credit payload) => s.grantStdout payload
  | .stdin (.stderrCredit payload) => s.grantStderr payload
  | .stdin .kill => s.cancel.startDrain (s.pumps - completed) true
  | .stdinClosed | .stdinError | .trackingWriteFailed =>
    { s.cancel with point := .returned true }
  | .stdin (.other _) | .childExited _ | .childWaitFailed | .timedOut => s

def strictStep (s : State σ) (completed : ℕ) (point : StrictPoint) (hungUp : Bool) :
    Option (State σ) :=
  match point with
  | .check =>
    if completed < s.pumps then
      if hungUp then
        if s.connected then none else some { s.cancel with point := .returned true }
      else some { s with point := .strict completed .poll }
    else some { s with point := .report false }
  | .poll =>
    match s.queue with
    | [] => some { s with point := .strict completed .wait }
    | e :: rest => some (strictEvent { s with queue := rest, drained := e :: s.drained } completed e)
  | .wait =>
    if 0 < s.pumpDone then
      some { s with pumpDone := s.pumpDone - 1, point := .strict (completed + 1) .check }
    else if s.pumpsClosed then some { s with point := .report true }
    else some { s with point := .strict completed .check }

def State.exitReport (cfg : Config) (H : Host σ) (s : State σ) (truncated : Bool) : ExitReport :=
  let outcome := s.outcome.getD ⟨none, none⟩
  { status := outcome.status
    signal := outcome.signal
    timedOut := s.timedOut
    confirmed := match s.mode with
      | .untracked u => u.groupConfirmed && s.cgroupConfirmed
      | .tracked t => t.confirmed && s.cgroupConfirmed && t.finalConfirmed &&
          (match t.reaped with | .exited _ => true | _ => false)
    contained := cfg.cgroup
    outputTruncated := truncated
    scope := match s.mode with
      | .untracked _ => none
      | .tracked _ => some (scope H.platform)
    trackedGroupsTruncated := match s.mode with
      | .untracked _ => none
      | .tracked t => some t.historyTruncated }

def reportStep (cfg : Config) (H : Host σ) (s : State σ) (truncated ok : Bool) :
    Option (State σ) :=
  let frame := Frame.exit (s.exitReport cfg H truncated)
  match s.mode with
  | .untracked _ =>
    if ok then some { s with wire := frame :: s.wire, point := .returned false }
    else if s.connected then none
    else some { s with point := .returned false }
  | .tracked t =>
    match t.writer with
    | .failed => some { s with point := .collect }
    | .running =>
      if t.control.length < maxGroups then
        some { s.setTracked { t with control := t.control ++ [frame] } with point := .collect }
      else none

/-- `delivery.recv`: the writer is done once the dropped channel is empty, or failed. -/
def collectStep (s : State σ) : Option (State σ) :=
  match s.mode with
  | .untracked _ => none
  | .tracked t =>
    match t.writer with
    | .failed => some { s with point := .returned true }
    | .running => if t.control = [] then some { s with point := .returned false } else none

def receive (cfg : Config) (s : State σ) (answers : KillAnswers) : Option (State σ) :=
  match s.queue with
  | [] => none
  | e :: rest =>
    let s := { s with queue := rest, seen := e :: s.seen }
    match s.mode with
    | .untracked u => some (handleUntracked cfg s u answers e)
    | .tracked t => some { handleTracked cfg s t e with point := .top }

def timeout (s : State σ) : Option (State σ) :=
  match s.mode with
  | .untracked _ => none
  | .tracked t =>
    if s.queue = [] ∧ t.nextScan ≤ s.clock then some { s with point := .top } else none

def disconnected (cfg : Config) (s : State σ) : Option (State σ) :=
  match s.mode with
  | .untracked _ => none
  | .tracked t =>
    if s.queue = [] ∧ !s.connected ∧ !s.childRunning ∧ t.writer = .failed then
      some { beamLost cfg s t with point := .top }
    else none

def step (cfg : Config) (H : Host σ) (s : State σ) (l : Label) : Option (State σ) :=
  match l, s.point with
  | .send frame, _ => some (push s (.stdin frame))
  | .hangUp, _ => some { s with connected := false }
  | .closed, _ => if s.connected then none else some (push s .stdinClosed)
  | .readFailed, _ => if s.connected then none else some (push s .stdinError)
  | .childExits outcome, _ => childExits s outcome
  | .timer, _ => some (push s .timedOut)
  | .elapse time, _ => some { s with clock := s.clock + time }
  | .pump pipe action, _ => pumpStep s pipe action
  | .deliver ok, _ => deliver s ok
  | .tick answers, .top =>
    match s.mode with
    | .untracked _ => none
    | .tracked t => tick cfg H s t answers
  | .receive answers, .recv => receive cfg s answers
  | .timeout, .recv => timeout s
  | .disconnected, .recv => disconnected cfg s
  | .finish answers, .finish =>
    match s.mode with
    | .untracked _ => some (finishUntracked cfg s answers)
    | .tracked t => some (finishTracked cfg H s t answers)
  | .strict hungUp, .strict completed point => strictStep s completed point hungUp
  | .drain, .drain remaining deadline cut => drainStep s remaining deadline cut
  | .report ok, .report truncated => reportStep cfg H s truncated ok
  | .collect, .collect => collectStep s
  | _, _ => none

/-- A run starts with its child running, its pumps before their first permit and, in a tracked
run, a tracker that has announced nothing yet. -/
def start (clock : Instant) (stdout : Pump) (stderr : Option Pump) (tracker : Option (Tracker σ)) :
    State σ where
  clock := clock
  queue := []
  stdout := stdout
  stderr := stderr
  pumpDone := 0
  wire := []
  connected := true
  childRunning := true
  inputClosed := false
  point := if tracker.isSome then .top else .recv
  timedOut := false
  beamGone := false
  discardOutput := false
  outcome := none
  cgroupConfirmed := true
  mode := match tracker with
    | none => .untracked ⟨true, false⟩
    | some tracker => .tracked ⟨tracker, [], .running, false, clock, false, false, .pending⟩
  seen := []
  drained := []
  acts := []
  left := none

end Forcola.Native.Supervisor
