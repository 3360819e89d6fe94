import Forcola.Native.Source

/-! Opt-in descendant discovery, checked signalling and bounded escalation. -/

namespace Forcola.Native

open Forcola.Library

def sampleInterval : Duration := millis 50
def maxGroups : ℕ := 4096
def maxProcesses : ℕ := 65536
def confirmGrace : Duration := millis 500
def maxIncompleteScans : ℕ := 3
def i32Max : ℕ := 2147483647

def SIGINT : ℕ := 2
def SIGKILL : ℕ := 9
def SIGTERM : ℕ := 15

inductive Phase
  | interrupt
  | terminate
  | kill
deriving DecidableEq, Repr

structure Sequence where
  phase : Phase
  next : Instant
deriving DecidableEq, Repr

structure Cleanup where
  interrupt : Option Duration
  term : Duration
  deadline : Instant
  emptyScans : ℕ
deriving DecidableEq, Repr

structure Progress where
  done : Bool
  confirmed : Bool
deriving DecidableEq, Repr

/-- `Tracker`, with the log of the calls it made and the failures it met. -/
structure Tracker (σ : Type) where
  source : σ
  shim : ProcessIdentity
  rootPid : ℕ
  processes : Table ℕ ProcessRecord
  groups : Table ProcessIdentity (Option Sequence)
  members : Table ProcessIdentity Sequence
  pending : List ProcessIdentity
  cleanup : Option Cleanup
  uncertain : Bool
  incompleteScans : ℕ
  rootGroupUnresolved : Bool
  groupLimit : ℕ
  processLimit : ℕ
  adoptOrphans : Bool
  log : List Event

namespace Tracker

variable {σ : Type} (H : Host σ)

def empty (source : σ) (shim : ProcessIdentity) (rootPid : ℕ) : Tracker σ where
  source := source
  shim := shim
  rootPid := rootPid
  processes := ∅
  groups := ∅
  members := ∅
  pending := []
  cleanup := none
  uncertain := false
  incompleteScans := 0
  rootGroupUnresolved := false
  groupLimit := maxGroups
  processLimit := maxProcesses
  adoptOrphans := H.platform == .linux
  log := []

def withSource (source : σ) (shim root : ProcessIdentity) : Tracker σ :=
  let t := empty H source shim root.pid
  { t with
    processes := t.processes.insert root.pid ⟨root, shim.pid, false⟩
    groups := t.groups.insert root none
    pending := [root] }

def held (t : Tracker σ) : Held :=
  ⟨t.processes.values, t.groups.keys⟩

def called (t : Tracker σ) (call : Call) (held : Held) (source : σ) : Tracker σ :=
  { t with source := source, log := .call call held :: t.log }

def read (t : Tracker σ) (pid : ℕ) : Io (Option ProcessRecord) × Tracker σ :=
  let answer := H.read pid t.source
  (answer.1, t.called (.read pid answer.1) t.held answer.2)

def children (t : Tracker σ) (pid : ℕ) : Io (List ℕ) × Tracker σ :=
  let answer := H.children pid t.source
  (answer.1, t.called (.children pid answer.1) t.held answer.2)

def groupMembers (t : Tracker σ) (pgid : ℕ) : Io (List ℕ) × Tracker σ :=
  let answer := H.groupMembers pgid t.source
  (answer.1, t.called (.groupMembers pgid answer.1) t.held answer.2)

def signal (t : Tracker σ) (target : ℤ) (signal : ℕ) : Io Unit × Tracker σ :=
  let answer := H.signal target signal t.source
  (answer.1, t.called (.signal target signal answer.1) t.held answer.2)

/-- `held` is what the tracker retained when the reaping pass copied its records. -/
def reap (t : Tracker σ) (held : Held) (pid : ℕ) : Io Unit × Tracker σ :=
  let answer := H.reap pid t.source
  (answer.1, t.called (.reap pid answer.1) held answer.2)

def now (t : Tracker σ) (reference : Instant) : Instant × Tracker σ :=
  let answer := H.now reference t.source
  (answer.1, t.called (.now reference answer.1) t.held answer.2)

/-- Iterate a hash map: the entries come in the host's order. -/
def order (t : Tracker σ) {α : Type} (l : List α) : List α × Tracker σ :=
  let answer := H.order l t.source
  (answer.1, { t with source := answer.2 })

def fail (t : Tracker σ) (why : Failure) : Tracker σ :=
  { t with uncertain := true, log := .failed why :: t.log }

def rootKnown (t : Tracker σ) : Bool :=
  (t.processes.lookup t.rootPid).isSome

def takeNewGroups (t : Tracker σ) : List ProcessIdentity × Tracker σ :=
  (t.pending, { t with pending := [] })

def cleaning (t : Tracker σ) : Bool :=
  t.cleanup.isSome

def expired (t : Tracker σ) (now : Instant) : Bool :=
  t.cleanup.any fun cleanup => cleanup.deadline ≤ now

def live (t : Tracker σ) : List ProcessIdentity :=
  (t.processes.values.filter fun p => !p.exited).map (·.identity)

def beginCleanup (t : Tracker σ) (now : Instant) (interrupt : Option Duration) (term : Duration) :
    Tracker σ :=
  match t.cleanup with
  | some _ => t
  | none =>
    { t with
      cleanup := some
        { interrupt := interrupt
          term := term
          deadline := now + interrupt.getD 0 + term + confirmGrace
          emptyScans := 0 } }

def keepProcess (t : Tracker σ) (pid : ℕ) (record : ProcessRecord) : Tracker σ :=
  { t with processes := t.processes.insert pid record }

def removeProcess (t : Tracker σ) (pid : ℕ) : Tracker σ :=
  { t with processes := t.processes.erase pid }

def setUnresolved (t : Tracker σ) (unresolved : Bool) : Tracker σ :=
  { t with rootGroupUnresolved := unresolved }

def recordGroup (t : Tracker σ) (id : ProcessIdentity) : Tracker σ :=
  { t with groups := t.groups.insert id none, pending := t.pending ++ [id] }

def setGroup (t : Tracker σ) (id : ProcessIdentity) (sequence : Sequence) : Tracker σ :=
  { t with groups := t.groups.insert id (some sequence) }

def setMembers (t : Tracker σ) (ids : List ProcessIdentity) (sequence : Sequence) : Tracker σ :=
  { t with members := ids.foldl (fun members id => members.insert id sequence) t.members }

def scanError (t : Tracker σ) (error : IoError) : Tracker σ :=
  if error.unsafeInventory then t.fail (.inventory error) else t

def scanMembers (expected : ProcessIdentity) :
    List ℕ → Bool → Tracker σ × Bool → Bool × (Tracker σ × Bool)
  | [], unresolved, s => (unresolved, s)
  | pid :: rest, unresolved, (t, incomplete) =>
    match t.read H pid with
    | (.error error, t) => scanMembers expected rest true (t.scanError error, true)
    | (.ok none, t) => scanMembers expected rest unresolved (t, incomplete)
    | (.ok (some member), t) =>
      if member.identity.pgid ≠ expected.pgid then
        scanMembers expected rest unresolved (t, incomplete)
      else if (t.processes.lookup pid).isNone ∧ t.processLimit ≤ t.processes.size then
        (true, (t.fail .processLimit, incomplete))
      else
        scanMembers expected rest unresolved (t.keepProcess pid member, incomplete)

def scanRootGroup (t : Tracker σ) (incomplete : Bool) : Tracker σ × Bool :=
  let t := t.setUnresolved false
  if t.adoptOrphans then (t, incomplete)
  else
    match t.processes.lookup t.rootPid with
    | none => (t, incomplete)
    | some root =>
      if !root.exited || root.identity.pid != root.identity.pgid then (t, incomplete)
      else
        let expected := root.identity
        let t := t.setUnresolved true
        match t.groupMembers H expected.pgid with
        | (.error error, t) => (t.scanError error, true)
        | (.ok members, t) =>
          match t.read H expected.pid with
          | (.error error, t) => (t.scanError error, true)
          | (.ok none, t) => (t.fail .rootLost, incomplete)
          | (.ok (some root), t) =>
            if root.identity = expected then
              let (unresolved, (t, incomplete)) :=
                scanMembers H expected members false (t, incomplete)
              (t.setUnresolved unresolved, incomplete)
            else (t.fail .rootLost, incomplete)

structure Scan (σ : Type) where
  tracker : Tracker σ
  incomplete : Bool
  queue : List ProcessIdentity
  visited : Table ℕ StartTime

def Scan.visitedAt (s : Scan σ) (pid : ℕ) (startTime : StartTime) : Bool :=
  s.visited.lookup pid == some startTime

def scanChildren (expected : ProcessIdentity) : List ℕ → Scan σ → Scan σ
  | [], s => s
  | pid :: rest, s =>
    if pid = s.tracker.shim.pid then scanChildren expected rest s
    else
      match s.tracker.read H pid with
      | (.error error, t) =>
        scanChildren expected rest { s with tracker := t.scanError error, incomplete := true }
      | (.ok none, t) => scanChildren expected rest { s with tracker := t }
      | (.ok (some child), t) =>
        if child.ppid ≠ expected.pid then scanChildren expected rest { s with tracker := t }
        else if s.visitedAt pid child.identity.startTime then
          scanChildren expected rest { s with tracker := t }
        else if (t.processes.lookup pid).isNone ∧ t.processLimit ≤ t.processes.size then
          { s with tracker := t.fail .processLimit }
        else
          scanChildren expected rest
            { s with tracker := t.keepProcess pid child, queue := s.queue ++ [child.identity] }

/-- A stale anchor must not erase a newer observation of its pid. -/
def dropStale (t : Tracker σ) (expected : ProcessIdentity) : Tracker σ :=
  if (t.processes.lookup expected.pid).any (·.identity.sameProcess expected) then
    t.removeProcess expected.pid
  else t

def scanEntry (expected : ProcessIdentity) (s : Scan σ) : Scan σ :=
  match s.tracker.read H expected.pid with
  | (.error error, t) => { s with tracker := t.scanError error, incomplete := true }
  | (.ok none, t) => { s with tracker := t.dropStale expected }
  | (.ok (some current), t) =>
    if !current.identity.sameProcess expected then { s with tracker := t.dropStale expected }
    else
      let s := { s with visited := s.visited.insert expected.pid current.identity.startTime }
      let t := if expected.pid ≠ t.shim.pid then t.keepProcess expected.pid current else t
      match t.children H expected.pid with
      | (.error error, t) =>
        if error.disappeared then { s with tracker := t }
        else { s with tracker := t.scanError error, incomplete := true }
      | (.ok children, t) =>
        match t.read H expected.pid with
        | (.error error, t) => { s with tracker := t.scanError error, incomplete := true }
        | (.ok none, t) => { s with tracker := t }
        | (.ok (some parent), t) =>
          if parent.identity.sameProcess expected then
            scanChildren H expected children { s with tracker := t }
          else { s with tracker := t }

/-- The work queue. `budget` counts down the `attempts` the source counts up; entries
already visited are skipped without an attempt. -/
def scanQueue : ℕ → Scan σ → Scan σ
  | budget, s =>
    match s.queue.dropWhile fun e => s.visitedAt e.pid e.startTime with
    | [] => { s with queue := [] }
    | expected :: rest =>
      match budget with
      | 0 => { s with queue := rest, tracker := s.tracker.fail .processLimit }
      | budget + 1 => scanQueue budget (scanEntry H expected { s with queue := rest })

/-- Adopted zombies are reaped promptly; the root waiter keeps its own. -/
def reapAdopted (held : Held) : List ProcessRecord → Tracker σ → Tracker σ
  | [], t => t
  | record :: rest, t =>
    if t.adoptOrphans && record.identity.pid != t.rootPid && record.ppid == t.shim.pid &&
        record.exited then
      match t.reap H held record.identity.pid with
      | (.error _, t) => reapAdopted held rest (t.fail .reap)
      | (.ok _, t) =>
        reapAdopted held rest (t.removeProcess record.identity.pid)
    else reapAdopted held rest t

/-- Whether a group entry survives: its leader is still this identity, or the leader was
not replaced and some retained process has the group id. -/
def retainsGroup (processes : Table ℕ ProcessRecord) (id : ProcessIdentity) : Bool :=
  let retained := processes.values.any (·.identity.pgid == id.pgid)
  match processes.lookup id.pid with
  | some leader =>
    leader.identity.sameProcess id && (leader.identity == id || retained)
  | none => retained

def recordGroups : List ProcessRecord → Tracker σ → Tracker σ
  | [], t => t
  | record :: rest, t =>
    let id := record.identity
    if id.pid = id.pgid ∧ (t.groups.lookup id).isNone then
      if t.groupLimit ≤ t.groups.size then recordGroups rest (t.fail .groupLimit)
      else recordGroups rest (t.recordGroup id)
    else recordGroups rest t

def retainsMember (processes : Table ℕ ProcessRecord) (id : ProcessIdentity) : Bool :=
  (processes.lookup id.pid).any fun p => !p.exited && p.identity == id

def pruneGroups (t : Tracker σ) : Tracker σ :=
  { t with groups := t.groups.retain fun id _ => retainsGroup t.processes id }

def pruneMembers (t : Tracker σ) : Tracker σ :=
  { t with members := t.members.retain fun id _ => retainsMember t.processes id }

def countScan (t : Tracker σ) (incomplete : Bool) : Tracker σ :=
  { t with
    incompleteScans := if incomplete then min (t.incompleteScans + 1) 255 else 0
    log := .scanned incomplete (!t.live.isEmpty) :: t.log }

def prune (t : Tracker σ) : Tracker σ :=
  let (records, t) := t.order H t.processes.values
  let t := pruneGroups (reapAdopted H t.held records t)
  let (records, t) := t.order H t.processes.values
  pruneMembers (recordGroups records t)

def concludeScan (t : Tracker σ) (incomplete : Bool) : Tracker σ :=
  let t := t.countScan incomplete
  if maxIncompleteScans ≤ t.incompleteScans then t.fail .incompleteScans else t

/-- Discover from the retained anchors, and from the shim when orphans are adopted. -/
def discover (t : Tracker σ) : Tracker σ × Bool :=
  let (records, t) := t.order H t.processes.values
  let anchors := records.map (·.identity)
  let queue := if t.adoptOrphans then t.shim :: anchors else anchors
  let s := scanQueue H (t.processLimit * 2 + 1) ⟨t, false, queue, ∅⟩
  scanRootGroup H s.tracker s.incomplete

def scan (t : Tracker σ) : Tracker σ :=
  let (t, incomplete) := discover H t
  (t.prune H).concludeScan incomplete

/-- Check identity immediately before signalling; a zero signal requests only the check. -/
def sendChecked (t : Tracker σ) (expected : ProcessIdentity) (group : Bool) (signal : ℕ) :
    Bool × Tracker σ :=
  match t.read H expected.pid with
  | (.error _, t) => (false, t.fail .identityRead)
  | (.ok none, t) => (false, t)
  | (.ok (some current), t) =>
    if !current.identity.sameProcess expected ||
        (group && (current.identity != expected || expected.pid != expected.pgid)) then
      (false, t)
    else if !group && current.exited then (false, t)
    else if signal = 0 then (true, t)
    else if expected.pid = 0 ∨ i32Max < expected.pid then (false, t.fail .invalidPid)
    else
      let target : ℤ := if group then -(expected.pid : ℤ) else expected.pid
      match t.signal H target signal with
      | (.ok _, t) => (true, t)
      | (.error error, t) =>
        -- XNU answers EPERM for a group that holds only zombies
        if H.platform == .macos && group && error.rawOsError == some .eperm then (false, t)
        else (true, t.fail .signal)

def sendKills : List ProcessIdentity → Tracker σ → Tracker σ
  | [], t => t
  | member :: rest, t => sendKills rest (t.sendChecked H member false SIGKILL).2

def finishScan (t : Tracker σ) : Bool × Tracker σ :=
  let t := t.scan H
  let (processes, t) := t.order H t.processes.values
  let live := (processes.filter fun p => !p.exited).map (·.identity)
  let t := if live.isEmpty then t else sendKills H live (t.fail .lateAdoption)
  (!t.uncertain && t.incompleteScans == 0, t)

end Tracker

namespace Cleanup

def grace (c : Cleanup) : Phase → Duration
  | .interrupt => c.interrupt.getD 0
  | .terminate => c.term
  | .kill => sampleInterval

def firstPhase (c : Cleanup) : Phase :=
  if c.interrupt.isSome then .interrupt else .terminate

end Cleanup

namespace Phase

def signal : Phase → ℕ
  | .interrupt => SIGINT
  | .terminate => SIGTERM
  | .kill => SIGKILL

def advance : Phase → Phase
  | .interrupt => .terminate
  | .terminate => .kill
  | .kill => .kill

end Phase

/-- The sequence to record, the signal to send, and whether a grace was shortened. -/
def nextSignal (c : Cleanup) (original : Option Sequence) (now : Instant) (force : Bool) :
    Sequence × Option ℕ × Bool :=
  if force then
    (⟨.kill, now⟩, some SIGKILL, original.all fun s => s.phase != .kill)
  else
    match original with
    | none => (⟨c.firstPhase, now + c.grace c.firstPhase⟩, some c.firstPhase.signal, false)
    | some s =>
      if now < s.next then (s, none, false)
      else
        let phase := s.phase.advance
        (⟨phase, now + c.grace phase⟩, some phase.signal, false)

namespace Tracker

variable {σ : Type} (H : Host σ)

/-- Each target receives its entire grace after its own signal call. -/
def afterSignal (c : Cleanup) (t : Tracker σ) (sequence : Sequence) (now : Instant) :
    Sequence × Tracker σ :=
  let (later, t) := t.now H now
  ({ sequence with next := later + c.grace sequence.phase }, t)

def advanceGroup (c : Cleanup) (now : Instant) (live : List ProcessIdentity)
    (group : ProcessIdentity) (previous : Option Sequence) (covered : List ℕ) (t : Tracker σ) :
    List ℕ × Tracker σ :=
  let unresolvedRoot := t.rootGroupUnresolved && group.pid == t.rootPid
  if !unresolvedRoot && !live.any (·.pgid == group.pgid) then (covered, t)
  else
    let (targetNow, t) := t.now H now
    let (sequence, signal, shortened) := nextSignal c previous targetNow (c.deadline ≤ targetNow)
    match t.sendChecked H group true (signal.getD 0) with
    | (false, t) => (covered, t)
    | (true, t) =>
      let (sequence, t) :=
        if signal.isSome then t.afterSignal H c sequence targetNow else (sequence, t)
      let t := t.setGroup group sequence
      let t := if shortened then t.fail .shortened else t
      let inGroup := live.filter (·.pgid == group.pgid)
      (covered ++ inGroup.map (·.pid), t.setMembers inGroup sequence)

def advanceGroups (c : Cleanup) (now : Instant) (live : List ProcessIdentity) :
    List (ProcessIdentity × Option Sequence) → List ℕ → Tracker σ → List ℕ × Tracker σ
  | [], covered, t => (covered, t)
  | (group, previous) :: rest, covered, t =>
    let (covered, t) := advanceGroup H c now live group previous covered t
    advanceGroups c now live rest covered t

def advanceMember (c : Cleanup) (now : Instant) (member : ProcessIdentity) (t : Tracker σ) :
    Tracker σ :=
  let previous := t.members.lookup member
  let (targetNow, t) := t.now H now
  let (sequence, signal, shortened) := nextSignal c previous targetNow (c.deadline ≤ targetNow)
  match signal with
  | none => t
  | some signal =>
    match t.sendChecked H member false signal with
    | (false, t) => t
    | (true, t) =>
      let (sequence, t) := t.afterSignal H c sequence targetNow
      let t := t.setMembers [member] sequence
      if shortened then t.fail .shortened else t

def advanceMembers (c : Cleanup) (now : Instant) : List ProcessIdentity → Tracker σ → Tracker σ
  | [], t => t
  | member :: rest, t => advanceMembers c now rest (advanceMember H c now member t)

def escalate (c : Cleanup) (now : Instant) (live : List ProcessIdentity) (t : Tracker σ) :
    Tracker σ :=
  let (groups, t) := t.order H t.groups.pairs
  let (covered, t) := advanceGroups H c now live groups [] t
  advanceMembers H c now (live.filter fun id => !covered.contains id.pid) t

def countEmpty (t : Tracker σ) (c : Cleanup) : Tracker σ :=
  { t with cleanup := some c, log := .advanced :: t.log }

/-- Called after each scan. Every due target advances in this pass; the deadline forces
KILL with negative evidence. -/
def advance (t : Tracker σ) (now : Instant) : Progress × Tracker σ :=
  match t.cleanup with
  | none => (⟨false, false⟩, t)
  | some c =>
    let force := decide (c.deadline ≤ now)
    let (processes, t) := t.order H t.processes.values
    let live := (processes.filter fun p => !p.exited).map (·.identity)
    let t := escalate H c now live t
    let emptyScans :=
      if live.isEmpty && t.incompleteScans == 0 then min (c.emptyScans + 1) 255 else 0
    let t := t.countEmpty { c with emptyScans := emptyScans }
    let t :=
      if force && (!live.isEmpty || decide (0 < t.incompleteScans)) then t.fail .deadline else t
    let done := decide (2 ≤ emptyScans) || force
    (⟨done, done && live.isEmpty && !t.uncertain⟩, t)

end Tracker

end Forcola.Native
