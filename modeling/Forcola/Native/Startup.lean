import Forcola.Library.Lines
import Forcola.Native.GroupKill
import Forcola.Native.Protocol
import Forcola.Native.SpawnError

/-! From the first frame to the supervised child, and how a startup that fails is undone. -/

namespace Forcola.Native.Startup

open Library Library.Transition
open Privdrop (DropPlan ResolveError)
open Protocol
open SpawnError (Attempt ChildSetup Stage Winsize)
open Supervisor (GroupCall finishCgroupCalls waitUntil)

def tagSpawn : UInt8 := 0x01
def tagHello : UInt8 := 0x07

/-- `io::ErrorKind`, as far as an error report names it. -/
inductive Kind
  | notFound
  | permissionDenied
  | invalidInput
  | invalidData
  | unsupported
  | alreadyExists
  | wouldBlock
  | interrupted
  | timedOut
  | brokenPipe
  | writeZero
  | unexpectedEof
  | outOfMemory
  | other
deriving DecidableEq, Repr

structure Cause extends SpawnError.RawError where
  kind : Kind
  text : String
deriving DecidableEq, Repr

structure Failure where
  stage : Stage
  cause : Cause
  path : Option String
  message : String
deriving DecidableEq, Repr

def Failure.new (stage : Stage) (cause : Cause) (path : Option String) : Failure :=
  ⟨stage, cause, path, cause.text⟩

structure SpawnErrorReport where
  stage : Stage
  reason : String
  errno : Option ℤ
  path : Option String
deriving DecidableEq, Repr

/-- What the startup writes to the BEAM; ERROR carries a typed report where one was selected. -/
inductive Frame
  | capabilities (features : List String)
  | error (reason : String) (spawnError : Option SpawnErrorReport)
  | spawned (id : ProcessIdentity)
  | tracked (id : ProcessIdentity)
deriving DecidableEq, Repr

/-- What the startup does to the system. `fork` is a child that has reached its command,
`exited` a look at the child that found it gone, and `reap` the wait for it. -/
inductive Effect
  | sent (frame : Frame)
  | makeDir (dir : String)
  | removeDir
  | fork (pid : ℕ)
  | call (call : GroupCall)
  | cleanup
  | exited
  | killRoot
  | finalScan
  | reap
  | supervise
deriving DecidableEq, Repr

inductive Arrival
  | frame (tag : UInt8) (payload : Bytes)
  | eof
  | failed
deriving DecidableEq, Repr

structure Cgroups where
  unified : Bool
  own : Except Cause String
  createDir : String → Except Cause Unit
  openProcs : Except Cause Unit
  openKill : Except Cause Unit

/-- How `Command::spawn` goes before and after the child's hook; `exec` is the error of exec. -/
inductive Spawning
  | unforked (cause : Cause)
  | forked (pid : ℕ) (exec : Option ℤ)

/-- The system around one startup: std's texts and numbers of errors, the privileges and
accounts, and how every call goes. -/
structure Os (σ : Type) where
  host : Host σ
  source : σ
  pid : ℕ
  serde : Serde
  number : String → ℤ
  kindOf : ℤ → Kind
  strerror : ℤ → String
  identityReadable : Bool
  trackingAvailable : Bool
  prepareTracking : Except Cause ProcessIdentity
  accounts : Privdrop.Accounts
  process : Posix.Process
  kernel : Posix.Kernel Errno
  cgroups : Cgroups
  openPty : Except Cause Unit
  channel : Except Cause Unit
  child : SpawnError.Os
  spawning : Spawning
  identity : Except Cause ProcessIdentity
  write : Frame → Bool
  cloneMaster : Bool
  begun : Instant
  now : ℕ → Instant
  exited : ℕ → Bool
  drained : List Bool
  clock : Instant

variable {σ : Type}

def errnoNames : List String :=
  ["enoent", "enotdir", "eacces", "eperm", "einval", "enoexec", "e2big", "eloop", "enametoolong",
    "enomem", "emfile", "enfile", "eio", "ebadf", "erofs", "enospc", "ebusy", "etxtbsy", "eagain",
    "eintr", "epipe", "esrch", "eexist", "enosys", "enotsup", "enolck"]

def Kind.name : Kind → String
  | .notFound => "not_found"
  | .permissionDenied => "permission_denied"
  | .invalidInput => "invalid_input"
  | .invalidData => "invalid_data"
  | .unsupported => "unsupported"
  | .alreadyExists => "already_exists"
  | .wouldBlock => "would_block"
  | .interrupted => "interrupted"
  | .timedOut => "timed_out"
  | .brokenPipe => "broken_pipe"
  | .writeZero => "write_zero"
  | .unexpectedEof => "unexpected_eof"
  | .outOfMemory => "out_of_memory"
  | .other => "other"

/-- `error_reason`: the first name with the error's number, else the name of its kind. -/
def errorReason (number : String → ℤ) (cause : Cause) : String :=
  match cause.rawOsError.bind fun n => errnoNames.find? fun name => number name == n with
  | some name => name
  | none => cause.kind.name

def Failure.report (number : String → ℤ) (failure : Failure) : SpawnErrorReport where
  stage := failure.stage
  reason := errorReason number failure.cause
  errno := failure.cause.rawOsError
  path := failure.path

def errnoNumber : Errno → ℤ
  | .eperm => 1
  | .enoent => 2
  | .esrch => 3
  | .other code _ => code

namespace Os

variable (os : Os σ)

def osCause (n : ℤ) : Cause :=
  ⟨⟨some n⟩, os.kindOf n, os.strerror n⟩

def resolveCause : ResolveError → Cause
  | .lookup errno => os.osCause (errnoNumber errno)
  | .notFound message => ⟨⟨none⟩, .notFound, message⟩
  | .invalidInput message => ⟨⟨none⟩, .invalidInput, message⟩

def childOs (plan : Option DropPlan) : SpawnError.Os :=
  { os.child with
    applyPlan := match plan with
      | none => .ok ()
      | some plan =>
        match (plan.apply os.kernel os.process).2 with
        | .ok _ => .ok ()
        | .error errno => .error ⟨some (errnoNumber errno)⟩ }

end Os

def cgroupRoot : String := "/sys/fs/cgroup"

def joinPath (parent child : String) : String :=
  if parent.toList.getLast? = some '/' then parent ++ child else parent ++ "/" ++ child

def preparationError (cause : Cause) (path context : String) : Failure :=
  ⟨.cgroup, cause, some path, s!"{context}: {cause.text}"⟩

/-- A line with fewer than three fields ends the search. -/
def findUnified : List (List Char) → Option (List Char)
  | [] => none
  | line :: rest =>
    match line.splitOn ':' with
    | hid :: controllers :: path =>
      if path = [] then none
      else if hid = ['0'] ∧ controllers = [] then some ([':'].intercalate path)
      else findUnified rest
    | _ => none

def textLines (contents : String) : List (List Char) :=
  (Lines.closed '\n' contents.toList).map fun line =>
    if line.getLast? = some '\r' then line.dropLast else line

def parseOwnCgroup (contents : String) : Option String :=
  (findUnified (textLines contents)).map String.ofList

def ownCgroupDir (cgroups : Cgroups) : Except Cause String :=
  match cgroups.own with
  | .error cause => .error cause
  | .ok contents =>
    match parseOwnCgroup contents with
    | none => .error ⟨⟨none⟩, .notFound, "no cgroup v2 line"⟩
    | some rel =>
      .ok (joinPath cgroupRoot (String.ofList (rel.toList.dropWhile (· == '/'))))

/-- The shim prepares one cgroup, so its sequence number is 0. -/
def childDir (own : String) (pid : ℕ) : String :=
  joinPath own s!"forcola-{pid}-0"

def tryPrepare (cgroups : Cgroups) (pid : ℕ) (required : Bool) :
    List Effect × Except Failure String :=
  if !cgroups.unified then
    ([], .error (.new .cgroup ⟨⟨none⟩, .unsupported, "no cgroup v2 unified hierarchy"⟩
      (some (joinPath cgroupRoot "cgroup.controllers"))))
  else
    match ownCgroupDir cgroups with
    | .error cause => ([], .error (preparationError cause "/proc/self/cgroup" "cannot read own cgroup"))
    | .ok own =>
      let dir := childDir own pid
      match cgroups.createDir dir with
      | .error cause => ([], .error (preparationError cause dir "subtree not delegated"))
      | .ok () =>
        match cgroups.openProcs with
        | .error cause =>
          ([.makeDir dir, .removeDir], .error (preparationError cause
            (joinPath dir "cgroup.procs") "cannot open cgroup.procs"))
        | .ok () =>
          match required, cgroups.openKill with
          | true, .error cause =>
            ([.makeDir dir, .removeDir], .error (preparationError cause
              (joinPath dir "cgroup.kill") "cannot open cgroup.kill"))
          | _, _ => ([.makeDir dir], .ok dir)

def prepareCgroup (os : Os σ) : CgroupMode → List Effect × Except Failure (Option String)
  | .bestEffort false => ([], .ok none)
  | .bestEffort true =>
    match tryPrepare os.cgroups os.pid false with
    | (effects, .ok dir) => (effects, .ok (some dir))
    | (effects, .error _) => (effects, .ok none)
  | .required =>
    match tryPrepare os.cgroups os.pid true with
    | (effects, .ok dir) => (effects, .ok (some dir))
    | (effects, .error failure) =>
      (effects, .error { failure with
        message := s!"cgroup containment unavailable: {failure.message}" })

def windowSize (request : SpawnRequest) : Option Winsize :=
  match request.ptyRows, request.ptyCols with
  | none, none => none
  | rows, cols => some ⟨rows.getD 0, cols.getD 0⟩

/-- `finish_spawn`; without a reporter std changes to the directory itself, before the hook. -/
def finishSpawn (os : Os σ) (request : SpawnRequest) (setup : ChildSetup)
    (plan : Option DropPlan) (argv0 : String) (cgroupPath : Option String) : Except Failure ℕ :=
  let child := os.childOs plan
  let failed (attempt : Attempt) (cause : SpawnError.RawError → Cause) : Failure :=
    let failure := SpawnError.finishSpawn setup child attempt argv0 request.cd cgroupPath
    .new failure.stage (cause failure.error) failure.path
  match os.spawning with
  | .unforked cause => .error (failed (.unforked cause.toRawError) fun _ => cause)
  | .forked pid exec =>
    match if setup.reporter then .ok () else (request.cd.map child.chdir).getD (.ok ()) with
    | .error error => .error (.new .spawn (os.osCause error.errno) none)
    | .ok () =>
      match (setup.apply child).2, exec with
      | .ok (), none => .ok pid
      | _, exec =>
        .error (failed (.forked ⟨some (exec.getD 0)⟩) fun error => os.osCause error.errno)

def childCwd (request : SpawnRequest) (structured : Bool) : Except Failure (Option String) :=
  if structured then
    match request.cd with
    | none => .ok none
    | some cd =>
      if cd.contains '\x00' then
        .error (.new .cwd ⟨⟨none⟩, .invalidInput, "nul byte found in provided data"⟩ (some cd))
      else .ok (some cd)
  else .ok none

def spawnPrepared (os : Os σ) (request : SpawnRequest) (structured : Bool)
    (plan : Option DropPlan) (cgroup : Option String) (argv0 : String) : Except Failure ℕ :=
  match if request.pty then os.openPty else .ok () with
  | .error cause => .error (.new .pty cause none)
  | .ok () =>
    match if structured then os.channel else .ok () with
    | .error cause => .error (.new .spawn cause none)
    | .ok () =>
      match childCwd request structured with
      | .error failure => .error failure
      | .ok cwd =>
        let setup : ChildSetup :=
          { cwd := cwd, reporter := structured, plan := plan.isSome, placement := cgroup.isSome,
            pty := request.pty, winsize := windowSize request }
        finishSpawn os request setup plan argv0 (cgroup.map (joinPath · "cgroup.procs"))

def dropCgroup (cgroup : Option String) : List Effect :=
  if cgroup.isSome then [.removeDir] else []

def spawnChild (os : Os σ) (request : SpawnRequest) (structured : Bool) :
    List Effect × Except Failure (ℕ × Option String) :=
  match request.argv with
  | [] => ([], .error (.new .spawn ⟨⟨none⟩, .invalidInput, "argv must not be empty"⟩ none))
  | argv0 :: _ =>
    match Privdrop.resolve os.accounts os.process request.user request.group with
    | .error error => ([], .error (.new .privdrop (os.resolveCause error) none))
    | .ok plan =>
      match prepareCgroup os request.cgroup with
      | (effects, .error failure) => (effects, .error failure)
      | (effects, .ok cgroup) =>
        match spawnPrepared os request structured plan cgroup argv0 with
        | .error failure => (effects ++ dropCgroup cgroup, .error failure)
        | .ok pid => (effects ++ [.fork pid], .ok (pid, cgroup))

def config (request : SpawnRequest) (cgroup : Option String) : Supervisor.Config where
  killGrace := millis request.killGraceMs
  interruptGrace := request.interruptGraceMs.map millis
  cgroup := cgroup.isSome
  strictOutput := request.strictOutput

def finishCgroup (os : Os σ) (cfg : Supervisor.Config) : List Effect :=
  (finishCgroupCalls cfg os.drained).map .call

def abortSpawn (os : Os σ) (cfg : Supervisor.Config) : List Effect :=
  [.call (.signal SIGKILL)] ++ (Supervisor.killCgroup cfg).map .call ++ [.reap] ++
    finishCgroup os cfg

/-- The loop of `abort_startup`; `fuel` bounds its rounds, and the value says whether the child
was gone at the last look. -/
def abortLoop (os : Os σ) : ℕ → ℕ → Tracker σ → Option (Bool × Tracker σ)
  | 0, _, _ => none
  | fuel + 1, round, tracker =>
    let exited := os.exited round
    let (progress, tracker) := (tracker.scan os.host).advance os.host (os.now round)
    if progress.done then some (exited, tracker) else abortLoop os fuel (round + 1) tracker

def abortRounds (cfg : Supervisor.Config) : ℕ :=
  (cfg.interruptGrace.getD 0 + cfg.killGrace + confirmGrace) / sampleInterval + 2

@[irreducible] def abortTracked (os : Os σ) (cfg : Supervisor.Config) (tracker : Tracker σ) :
    Option (Bool × Tracker σ) :=
  abortLoop os (abortRounds cfg) 0
    ((tracker.scan os.host).beginCleanup os.begun cfg.interruptGrace cfg.killGrace)

inductive Outcome (σ : Type)
  | waiting
  | ended (ok : Bool) (tracker : Option (Tracker σ))
  | aborting
  | supervising (selected : SelectedFeatures) (request : SpawnRequest) (cfg : Supervisor.Config)
      (start : Supervisor.State σ)

abbrev Result (σ : Type) := List Effect × Outcome σ

def prepend (effects : List Effect) (r : Result σ) : Result σ :=
  (effects ++ r.1, r.2)

def abortCleaned (os : Os σ) (cfg : Supervisor.Config) (ending : List Effect) (ok : Bool) :
    Option (Bool × Tracker σ) → Result σ
  | none => ([], .aborting)
  | some (exited, tracker) =>
    ([.cleanup, if exited then .exited else .killRoot, .finalScan, .reap] ++
      finishCgroup os cfg ++ ending, .ended ok (some (tracker.finishScan os.host).2))

def killUnknown (tracker : Tracker σ) : List Effect :=
  if tracker.rootKnown then [] else [.call (.signal SIGKILL)]

def endingOf (cfg : Supervisor.Config) (ending : List Effect) : List Effect :=
  ending ++ if cfg.cgroup then [.removeDir] else []

def abortStartup (os : Os σ) (cfg : Supervisor.Config) (tracker : Option (Tracker σ))
    (ending : List Effect) (ok : Bool) : Result σ :=
  match tracker with
  | none => (abortSpawn os cfg ++ endingOf cfg ending, .ended ok none)
  | some tracker =>
    prepend (killUnknown tracker)
      (abortCleaned os cfg (endingOf cfg ending) ok (abortTracked os cfg tracker))

def ignored (os : Os σ) (frame : Frame) : List Effect :=
  if os.write frame then [.sent frame] else []

def writeError (os : Os σ) (reason : String) : List Effect :=
  ignored os (.error reason none)

def writeSpawnError (os : Os σ) (failure : Failure) (structured : Bool) : List Effect :=
  ignored os (.error s!"spawn failed: {failure.message}"
    (if structured then some (failure.report os.number) else none))

def reports (os : Os σ) (selected : SelectedFeatures) (id : ProcessIdentity) : List Effect × Bool :=
  let spawned := if selected.spawnIdentity then [Frame.spawned id] else []
  let tracked := if selected.trackDescendants then [Frame.tracked id] else []
  let written := (spawned ++ tracked).takeWhile os.write
  (written.map .sent, (spawned ++ tracked).all os.write)

/-- The pumps: a pty has one, and merged stderr rides the stdout tag. -/
def pumps (request : SpawnRequest) : Pump × Option Pump :=
  (.new .stdout request.windowBytes.isSome,
    if request.pty then none
    else some (.new (if request.mergeStderr then .stdout else .stderr)
      request.stderrWindowBytes.isSome))

/-- Without a second handle on its master a pty is of no use; an untracked child is left as it
is, and dropping its cgroup does not touch it. -/
def masterLost (os : Os σ) (cfg : Supervisor.Config) : Option (Tracker σ) → Result σ
  | none => (endingOf cfg [], .ended false none)
  | some tracker => abortStartup os cfg (some tracker) [] false

def superviseChild (os : Os σ) (selected : SelectedFeatures) (request : SpawnRequest)
    (cfg : Supervisor.Config) (tracker : Option (Tracker σ)) : Result σ :=
  if request.pty && !os.cloneMaster then masterLost os cfg tracker
  else
    ([.supervise], .supervising selected request cfg
      (Supervisor.start os.clock (pumps request).1 (pumps request).2 tracker))

/-- From the identity of the child on; tracking starts before the first report. -/
def reportChild (os : Os σ) (selected : SelectedFeatures) (request : SpawnRequest)
    (cfg : Supervisor.Config) (shim : Option ProcessIdentity) (id : ProcessIdentity) : Result σ :=
  let tracker := shim.map fun shim => Tracker.withSource os.host os.source shim id
  prepend (reports os selected id).1 <|
    if (reports os selected id).2 then
      superviseChild os selected request cfg (tracker.map fun tracker => tracker.takeNewGroups.2)
    else abortStartup os cfg tracker [] false

def afterSpawn (os : Os σ) (selected : SelectedFeatures) (request : SpawnRequest)
    (shim : Option ProcessIdentity) (pid : ℕ) (cfg : Supervisor.Config) : Result σ :=
  if selected.spawnIdentity || selected.trackDescendants then
    match os.identity with
    | .error cause =>
      abortStartup os cfg (shim.map fun shim => .empty os.host os.source shim pid)
        (writeError os s!"spawn identity failed: {cause.text}") true
    | .ok id => reportChild os selected request cfg shim id
  else superviseChild os selected request cfg none

def interruptValid (request : SpawnRequest) : Bool :=
  match request.interruptSignal, request.interruptGraceMs with
  | none, none => true
  | some _, some grace => 1 ≤ grace && grace ≤ 4294967295
  | _, _ => false

def prepareTracking (os : Os σ) (selected : SelectedFeatures) :
    Except Cause (Option ProcessIdentity) :=
  if selected.trackDescendants then os.prepareTracking.map some else .ok none

def spawnRequested (os : Os σ) (selected : SelectedFeatures) (payload : Bytes) : Result σ :=
  match os.serde.spawn payload with
  | .error text => (writeError os s!"invalid SPAWN payload: {text}", .ended true none)
  | .ok request =>
    if !interruptValid request then
      (writeError os "interrupt_signal requires a positive interrupt_grace_ms (u32)",
        .ended true none)
    else
      match prepareTracking os selected with
      | .error cause =>
        (writeError os s!"descendant tracking unavailable: {cause.text}", .ended true none)
      | .ok shim =>
        match spawnChild os request selected.structuredSpawnErrors with
        | (effects, .error failure) =>
          (effects ++ writeSpawnError os failure selected.structuredSpawnErrors, .ended true none)
        | (effects, .ok (pid, cgroup)) =>
          prepend effects (afterSpawn os selected request shim pid (config request cgroup))

def awaitSpawn (os : Os σ) (selected : SelectedFeatures) : List Arrival → Result σ
  | [] => ([], .waiting)
  | .eof :: _ => ([], .ended true none)
  | .failed :: _ => ([], .ended false none)
  | .frame tag payload :: _ =>
    if tag = tagSpawn then spawnRequested os selected payload
    else (writeError os "expected SPAWN as the first frame", .ended true none)

def runWithCapabilities (os : Os σ) : List Arrival → Result σ
  | .frame tag payload :: rest =>
    if tag = tagHello then
      let features := supportedFeatures os.identityReadable os.trackingAvailable
      match selectFeatures os.serde payload features with
      | .error reason => (writeError os reason, .ended true none)
      | .ok selected =>
        if os.write (.capabilities features) then
          prepend [.sent (.capabilities features)] (awaitSpawn os selected rest)
        else ([], .ended false none)
    else awaitSpawn os noFeatures (.frame tag payload :: rest)
  | arrivals => awaitSpawn os noFeatures arrivals

/-- Who has the child: nobody yet, the startup, or nobody any more. A `doomed` child was killed
or seen gone, so that a wait for it returns. -/
inductive Custody
  | absent
  | running
  | doomed
  | reaped
deriving DecidableEq, Repr

inductive Said
  | nothing
  | capabilities
  | spawned
  | tracked
  | error
deriving DecidableEq, Repr

/-- `empty` says that the cgroup was seen without a process and is still there. -/
structure Ledger where
  custody : Custody
  said : Said
  dir : Bool
  empty : Bool
deriving DecidableEq, Repr

namespace Ledger

def start : Ledger := ⟨.absent, .nothing, false, false⟩

def held (l : Ledger) : Bool :=
  l.custody == .running || l.custody == .doomed

def free (l : Ledger) : Bool :=
  l.custody == .absent || l.custody == .reaped

def fallen (l : Ledger) : Bool :=
  l.custody == .doomed || l.custody == .reaped

/-- ERROR needs a child that is not there, a wait and the kill of a cgroup one that is gone, and a
directory goes once it holds no process: before there was a child, or after it was seen empty. -/
def step (l : Ledger) : Effect → Option Ledger
  | .sent (.capabilities _) =>
    if l = start then some { l with said := .capabilities } else none
  | .sent (.error _ _) =>
    if l.free && l.said != .error then some { l with said := .error } else none
  | .sent (.spawned _) =>
    if l.custody = .running ∧ l.said = .capabilities then some { l with said := .spawned } else none
  | .sent (.tracked _) =>
    if l.custody = .running ∧ (l.said = .capabilities ∨ l.said = .spawned) then
      some { l with said := .tracked }
    else none
  | .makeDir _ => if l.custody = .absent ∧ !l.dir then some { l with dir := true } else none
  | .removeDir => some { l with dir := l.dir && l.custody != .absent }
  | .fork _ =>
    if l.custody = .absent ∧ l.said != .error then some { l with custody := .running } else none
  | .call (.signal n) =>
    if l.held then some { l with custody := if n = SIGKILL then .doomed else l.custody } else none
  | .call (.probe _) => none
  | .call .killCgroup => if l.dir && l.fallen then some l else none
  | .call (.drained empty) =>
    if l.dir && l.custody == .reaped then some { l with empty := empty } else none
  | .call .removeCgroup =>
    if l.dir && l.empty then some { l with dir := false, empty := false } else none
  | .cleanup | .finalScan => if l.held then some l else none
  | .exited | .killRoot => if l.held then some { l with custody := .doomed } else none
  | .reap => if l.custody = .doomed then some { l with custody := .reaped } else none
  | .supervise => if l.custody = .running then some l else none

end Ledger

/-- The end of a tracked cleanup: every advance had its scan, and the last one came at the
deadline or, like the one before, after a complete scan without a live process. -/
structure Cleaned (os : Os σ) (start : Tracker.Start) (shim : ProcessIdentity) (t : Tracker σ) :
    Prop where
  ops : ∃ ops now c, t = Tracker.run os.host (start.tracker os.host os.source shim)
      (ops ++ [.scan, .advance now, .finishScan]) ∧
    Tracker.Paced os.host (start.tracker os.host os.source shim) true
      (ops ++ [.scan, .advance now]) false ∧
    (Tracker.run os.host (start.tracker os.host os.source shim) (ops ++ [.scan])).cleanup = some c ∧
    (c.deadline ≤ now ∨ 1 ≤ c.emptyScans ∧
      (Tracker.run os.host (start.tracker os.host os.source shim) (ops ++ [.scan])).live = [] ∧
      (Tracker.run os.host (start.tracker os.host os.source shim)
        (ops ++ [.scan])).incompleteScans = 0)

variable {os : Os σ} {l l' : Ledger} {r r' : Result σ}

open Tracker in
lemma abortLoop_cleaned {t₀ t t' : Tracker σ} {ops : List Op} {fuel round : ℕ} {c : Cleanup}
    {gone fresh : Bool} (ht : t = run os.host t₀ ops) (hp : Paced os.host t₀ true ops fresh)
    (hc : t.cleanup = some c) (hfresh : fresh = true → c.emptyScans = 0)
    (h : abortLoop os fuel round t = some (gone, t')) :
    ∃ ops now c, t' = run os.host t₀ (ops ++ [.scan, .advance now]) ∧
      Paced os.host t₀ true (ops ++ [.scan, .advance now]) false ∧
      (run os.host t₀ (ops ++ [.scan])).cleanup = some c ∧
      (c.deadline ≤ now ∨ 1 ≤ c.emptyScans ∧ (run os.host t₀ (ops ++ [.scan])).live = [] ∧
        (run os.host t₀ (ops ++ [.scan])).incompleteScans = 0) := by
  induction fuel generalizing round t ops c fresh with
  | zero => cases h
  | succ fuel ih =>
    obtain ⟨i, hs⟩ := scan_scanned (H := os.host) t
    have hc' : (t.scan os.host).cleanup = some c := hs.cleanup.trans hc
    obtain ⟨n, ha⟩ := advance_advanced (H := os.host) hc' (os.now round)
    have hscan : run os.host t₀ (ops ++ [.scan]) = t.scan os.host := by
      rw [run_append, ← ht]
      rfl
    have hround : run os.host t₀ (ops ++ [.scan, .advance (os.now round)]) =
        ((t.scan os.host).advance os.host (os.now round)).2 := by
      rw [run_append, ← ht]
      rfl
    have hpaced : Paced os.host t₀ true (ops ++ [.scan, .advance (os.now round)]) false := by
      have hscanned := hp.scan fun _ hf c' hin => by
        rw [← ht, hc] at hin
        cases hin
        exact hfresh hf
      simpa using hscanned.advance (os.now round)
    rw [abortLoop] at h
    dsimp only at h
    split at h
    · next hdone =>
      obtain ⟨-, rfl⟩ := Prod.mk.inj (Option.some.inj h)
      refine ⟨ops, os.now round, c, hround.symm, hpaced, hscan ▸ hc', ?_⟩
      rw [hscan]
      rcases ha.done.mp hdone with htwo | hdeadline
      · have hcount := ha.count
        split at hcount
        · next hidle =>
          simp only [Bool.and_eq_true, beq_iff_eq, List.isEmpty_iff] at hidle
          exact .inr ⟨by omega, hidle⟩
        · omega
      · exact .inl hdeadline
    · exact ih hround.symm hpaced ha.cleanup Bool.noConfusion h

structure Os.Sleeps (os : Os σ) : Prop where
  begun : os.begun ≤ os.now 0
  step : ∀ round, os.now round + sampleInterval ≤ os.now (round + 1)

open Tracker in
lemma abortLoop_ends (hclock : os.Sleeps) {t : Tracker σ} {c : Cleanup} (fuel round : ℕ)
    (hc : t.cleanup = some c) (hd : c.deadline ≤ os.now round + fuel * sampleInterval) :
    ∃ gone t', abortLoop os (fuel + 1) round t = some (gone, t') := by
  induction fuel generalizing round t c with
  | zero =>
    obtain ⟨i, hs⟩ := scan_scanned (H := os.host) t
    obtain ⟨n, ha⟩ := advance_advanced (H := os.host) (hs.cleanup.trans hc) (os.now round)
    have hdone := ha.done.mpr (.inr (by simpa using hd))
    rw [abortLoop]
    dsimp only
    rw [if_pos hdone]
    exact ⟨_, _, rfl⟩
  | succ fuel ih =>
    obtain ⟨i, hs⟩ := scan_scanned (H := os.host) t
    obtain ⟨n, ha⟩ := advance_advanced (H := os.host) (hs.cleanup.trans hc) (os.now round)
    rw [abortLoop]
    dsimp only
    split
    · exact ⟨_, _, rfl⟩
    · refine ih (round + 1) ha.cleanup (hd.trans ?_)
      calc os.now round + (fuel + 1) * sampleInterval
          = os.now round + sampleInterval + fuel * sampleInterval := by ring
        _ ≤ os.now (round + 1) + fuel * sampleInterval :=
          Nat.add_le_add_right (hclock.step round) _

open Tracker in
lemma abortTracked_spec (hclock : os.Sleeps) (cfg : Supervisor.Config) (start : Start)
    (shim : ProcessIdentity) {ops : List Op} (hops : ops = [] ∨ ops = [.takeNewGroups]) :
    ∃ gone t', abortTracked os cfg (run os.host (start.tracker os.host os.source shim) ops) =
        some (gone, t') ∧ Cleaned os start shim (t'.finishScan os.host).2 := by
  set t₀ := start.tracker os.host os.source shim with ht₀
  have hnew : (run os.host t₀ ops).cleanup = none := by
    rcases hops with rfl | rfl <;> cases start <;> rfl
  have hpaced : Paced os.host t₀ true ops false := by
    rcases hops with rfl | rfl
    · exact .nil
    · exact Paced.nil.takeNewGroups
  obtain ⟨i, hs⟩ := scan_scanned (H := os.host) (run os.host t₀ ops)
  set X := cfg.interruptGrace.getD 0 + cfg.killGrace + confirmGrace with hX
  set t := ((run os.host t₀ ops).scan os.host).beginCleanup os.begun cfg.interruptGrace cfg.killGrace
    with ht
  have hc : t.cleanup = some ⟨cfg.interruptGrace, cfg.killGrace, os.begun + X, 0⟩ := by
    rw [ht, Tracker.beginCleanup, hs.cleanup, hnew, hX]
    simp only [Option.some.injEq, Cleanup.mk.injEq, true_and, and_true]
    ring
  have hrun : t = run os.host t₀
      (ops ++ [.scan, .beginCleanup os.begun cfg.interruptGrace cfg.killGrace]) := by
    rw [run_append]
    rfl
  have hbegun : Paced os.host t₀ true
      (ops ++ [.scan, .beginCleanup os.begun cfg.interruptGrace cfg.killGrace]) true := by
    have hscanned := hpaced.scan fun _ hf => Bool.noConfusion hf
    simpa using hscanned.beginCleanup os.begun cfg.interruptGrace cfg.killGrace
  have hfuel : os.begun + X ≤ os.now 0 + (X / sampleInterval + 1) * sampleInterval := by
    have hlt : X < (X / sampleInterval + 1) * sampleInterval :=
      Nat.lt_mul_of_div_lt (Nat.lt_succ_self _) (by decide)
    exact Nat.add_le_add hclock.begun hlt.le
  obtain ⟨gone, t', hloop⟩ := abortLoop_ends hclock (X / sampleInterval + 1) 0 hc hfuel
  refine ⟨gone, t', ?_, ⟨?_⟩⟩
  · unfold abortTracked abortRounds
    exact hloop
  obtain ⟨before, now, c, hlast, hp, hcl, hwhy⟩ :=
    abortLoop_cleaned hrun hbegun hc (fun _ => rfl) hloop
  refine ⟨before, now, c, ?_, hp, hcl, hwhy⟩
  have happend : before ++ [Op.scan, .advance now, .finishScan] =
      before ++ [.scan, .advance now] ++ [.finishScan] := by simp
  rw [happend, run_append, ← hlast]
  rfl

variable {said : Said} {dir : Bool}

lemma tryPrepare_cases (cgroups : Cgroups) (pid : ℕ) (required : Bool) :
    (∃ failure, tryPrepare cgroups pid required = ([], .error failure)) ∨
      (∃ dir failure, tryPrepare cgroups pid required =
        ([.makeDir dir, .removeDir], .error failure)) ∨
      ∃ dir, tryPrepare cgroups pid required = ([.makeDir dir], .ok dir) := by
  rw [tryPrepare]
  split
  · exact .inl ⟨_, rfl⟩
  · split
    · exact .inl ⟨_, rfl⟩
    · dsimp only
      split
      · exact .inl ⟨_, rfl⟩
      · split
        · exact .inr (.inl ⟨_, _, rfl⟩)
        · split
          · exact .inr (.inl ⟨_, _, rfl⟩)
          · exact .inr (.inr ⟨_, rfl⟩)

lemma prepareCgroup_cases (os : Os σ) (mode : CgroupMode) :
    (∃ effects result, prepareCgroup os mode = (effects, result) ∧
      (effects = [] ∨ ∃ dir, effects = [.makeDir dir, .removeDir]) ∧
      ∀ cgroup, result = .ok cgroup → cgroup = none ∧ mode ≠ .required) ∨
      ∃ dir, prepareCgroup os mode = ([.makeDir dir], .ok (some dir)) := by
  cases mode with
  | bestEffort requested =>
    have hnone : ∀ cgroup : Option String, (.ok none : Except Failure _) = .ok cgroup →
        cgroup = none ∧ CgroupMode.bestEffort requested ≠ .required := by
      rintro cgroup ⟨rfl⟩
      exact ⟨rfl, CgroupMode.noConfusion⟩
    cases requested with
    | false => exact .inl ⟨_, _, rfl, .inl rfl, hnone⟩
    | true =>
      rw [prepareCgroup]
      obtain ⟨failure, heq⟩ | ⟨dir, failure, heq⟩ | ⟨dir, heq⟩ :=
        tryPrepare_cases os.cgroups os.pid false
      · rw [heq]
        exact .inl ⟨_, _, rfl, .inl rfl, hnone⟩
      · rw [heq]
        exact .inl ⟨_, _, rfl, .inr ⟨dir, rfl⟩, hnone⟩
      · rw [heq]
        exact .inr ⟨dir, rfl⟩
  | required =>
    rw [prepareCgroup]
    obtain ⟨failure, heq⟩ | ⟨dir, failure, heq⟩ | ⟨dir, heq⟩ :=
      tryPrepare_cases os.cgroups os.pid true
    · rw [heq]
      exact .inl ⟨_, _, rfl, .inl rfl, fun cgroup h => by cases h⟩
    · rw [heq]
      exact .inl ⟨_, _, rfl, .inr ⟨dir, rfl⟩, fun cgroup h => by cases h⟩
    · rw [heq]
      exact .inr ⟨dir, rfl⟩

lemma prepareCgroup_exec (os : Os σ) (mode : CgroupMode) (said : Said) :
    exec Ledger.step ⟨.absent, said, false, false⟩ (prepareCgroup os mode).1 =
      some ⟨.absent, said, (match (prepareCgroup os mode).2 with
        | .ok cgroup => cgroup.isSome
        | .error _ => false), false⟩ := by
  obtain ⟨effects, result, heq, heffects, hnone⟩ | ⟨dir, heq⟩ := prepareCgroup_cases os mode
  · rw [heq]
    have hexec : exec Ledger.step ⟨.absent, said, false, false⟩ effects =
        some ⟨.absent, said, false, false⟩ := by
      obtain rfl | ⟨dir, rfl⟩ := heffects <;> rfl
    cases result with
    | error failure => exact hexec
    | ok cgroup =>
      obtain rfl := (hnone cgroup rfl).1
      exact hexec
  · rw [heq]
    rfl

lemma dropCgroup_exec (cgroup : Option String) (said : Said) :
    exec Ledger.step ⟨.absent, said, cgroup.isSome, false⟩ (dropCgroup cgroup) =
      some ⟨.absent, said, false, false⟩ := by
  cases cgroup <;> rfl

lemma fork_exec (pid : ℕ) (hs : said ≠ .error) :
    exec Ledger.step ⟨.absent, said, dir, false⟩ [.fork pid] = some ⟨.running, said, dir, false⟩ := by
  simp [exec, Ledger.step, hs]

lemma spawnChild_exec (request : SpawnRequest) (structured : Bool) (hs : said ≠ .error) :
    exec Ledger.step ⟨.absent, said, false, false⟩ (spawnChild os request structured).1 =
      some (match (spawnChild os request structured).2 with
        | .ok child => ⟨.running, said, child.2.isSome, false⟩
        | .error _ => ⟨.absent, said, false, false⟩) := by
  rw [spawnChild]
  split
  · rfl
  · split
    · rfl
    · have hprepare := prepareCgroup_exec os request.cgroup said
      split
      · next heq => simpa only [heq] using hprepare
      · next heq =>
        simp only [heq] at hprepare
        split
        · exact exec_trans hprepare (dropCgroup_exec _ said)
        · exact exec_trans hprepare (fork_exec _ hs)

lemma ignored_exec (reason : String) (detail : Option SpawnErrorReport) (hl : l.free = true)
    (hs : l.said ≠ .error) : ∃ said,
    exec Ledger.step l (ignored os (.error reason detail)) = some { l with said := said } := by
  rw [ignored]
  split
  · exact ⟨.error, by simp [exec, Ledger.step, hl, hs]⟩
  · exact ⟨l.said, rfl⟩

lemma drained_exec (polls : List Bool) (said : Said) :
    exec Ledger.step ⟨.reaped, said, true, false⟩
      ((Supervisor.polled polls).map fun empty => Effect.call (.drained empty)) =
        some ⟨.reaped, said, true, waitUntil polls⟩ := by
  induction polls with
  | nil => rfl
  | cons empty polls ih =>
    cases empty with
    | true => rfl
    | false => exact (exec_cons rfl).trans ih

lemma finishCgroup_exec (cfg : Supervisor.Config) (said : Said) :
    exec Ledger.step ⟨.reaped, said, cfg.cgroup, false⟩ (finishCgroup os cfg) =
      some ⟨.reaped, said, cfg.cgroup && !waitUntil os.drained, false⟩ := by
  rw [finishCgroup, finishCgroupCalls]
  split
  · next hc =>
    rw [hc, List.map_append, List.map_cons, List.map_map]
    have hkill : exec Ledger.step ⟨.reaped, said, true, false⟩ (.call .killCgroup ::
        (Supervisor.polled os.drained).map (Effect.call ∘ GroupCall.drained)) =
        some ⟨.reaped, said, true, waitUntil os.drained⟩ :=
      (exec_cons rfl).trans (drained_exec os.drained said)
    refine exec_trans hkill ?_
    cases waitUntil os.drained <;> rfl
  · next hc =>
    rw [Bool.not_eq_true] at hc
    rw [hc]
    rfl

def Os.cloning (os : Os σ) : Os σ :=
  { os with cloneMaster := true }

def Outcome.untrackedPty : Outcome σ → Bool
  | .supervising selected request _ _ => request.pty && !selected.trackDescendants
  | _ => false

/-- The child is lost where only the duplicate of its pty's master is missing, given what comes
of the same startup with that duplicate. -/
def Lost (os : Os σ) (cloned : Outcome σ) : Prop :=
  os.cloneMaster = false ∧ cloned.untrackedPty = true

structure Handed (os : Os σ) (selected : SelectedFeatures) (request : SpawnRequest)
    (cfg : Supervisor.Config) (start : Supervisor.State σ) : Prop where
  config : ∃ cgroup, cfg = config request cgroup
  start : ∃ tracker : Option (Tracker σ),
    start = Supervisor.start os.clock (pumps request).1 (pumps request).2 tracker ∧
    tracker.isSome = selected.trackDescendants ∧ ∀ t ∈ tracker, ∃ shim id,
      os.identity = .ok id ∧ t = (Tracker.withSource os.host os.source shim id).takeNewGroups.2

/-- How a startup ends, and what the ledger says then. -/
inductive Settled (os : Os σ) (lost : Prop) : Outcome σ → Ledger → Prop
  | waiting {m} : ¬lost → m.custody = .absent → m.dir = false → Settled os lost .waiting m
  | refused {m ok} : ¬lost → m.custody = .absent → m.dir = false →
      Settled os lost (.ended ok none) m
  | undone {m ok tracker} : ¬lost → m.custody = .reaped →
      (m.dir = true → waitUntil os.drained = false) →
      (∀ t ∈ tracker, ∃ start shim, Cleaned os start shim t) → Settled os lost (.ended ok tracker) m
  | lost {m} : lost → m.custody = .running → Settled os lost (.ended false none) m
  | supervising {m selected request cfg start} : ¬lost → m.custody = .running →
      m.dir = cfg.cgroup → Handed os selected request cfg start →
      Settled os lost (.supervising selected request cfg start) m

def Sound (os : Os σ) (l : Ledger) (r r' : Result σ) : Prop :=
  ∃ l', exec Ledger.step l r.1 = some l' ∧ Settled os (Lost os r'.2) r.2 l'

@[simp] lemma prepend_outcome (effects : List Effect) (r : Result σ) :
    (prepend effects r).2 = r.2 := rfl

lemma prepend_exec {effects : List Effect} {m : Ledger} (he : exec Ledger.step l effects = some l')
    (hr : exec Ledger.step l' r.1 = some m) : exec Ledger.step l (prepend effects r).1 = some m :=
  exec_trans he hr

lemma Sound.after {effects effects' : List Effect} (h : Sound os l' r r')
    (he : exec Ledger.step l effects = some l') :
    Sound os l (prepend effects r) (prepend effects' r') := by
  obtain ⟨m, hl, hs⟩ := h
  refine ⟨m, prepend_exec he hl, ?_⟩
  rw [prepend_outcome, prepend_outcome]
  exact hs

lemma not_lost {cloned : Outcome σ} (h : cloned.untrackedPty = false) : ¬Lost os cloned :=
  fun hlost => Bool.noConfusion (hlost.2.symm.trans h)

lemma dropped_exec {ending : List Effect} {said said' : Said} {dir : Bool} (cfg : Supervisor.Config)
    (he : exec Ledger.step ⟨.reaped, said, dir, false⟩ ending = some ⟨.reaped, said', dir, false⟩) :
    exec Ledger.step ⟨.reaped, said, dir, false⟩ (endingOf cfg ending) =
      some ⟨.reaped, said', dir, false⟩ := by
  rw [endingOf]
  refine exec_trans he ?_
  split <;> cases dir <;> rfl

def Ends (ending : List Effect) : Prop :=
  ∀ l : Ledger, l.free = true → l.said ≠ .error →
    ∃ said, exec Ledger.step l ending = some { l with said := said }

lemma ends_nil : Ends [] :=
  fun l _ _ => ⟨l.said, rfl⟩

lemma ends_error (reason : String) : Ends (writeError os reason) :=
  fun _ hl hs => ignored_exec reason none hl hs

lemma reaped_exec {ending : List Effect} (cfg : Supervisor.Config) (hs : said ≠ .error)
    (he : Ends ending) : ∃ said', exec Ledger.step ⟨.doomed, said, cfg.cgroup, false⟩
      ([.reap] ++ finishCgroup os cfg ++ endingOf cfg ending) =
        some ⟨.reaped, said', cfg.cgroup && !waitUntil os.drained, false⟩ := by
  obtain ⟨said', hending⟩ := he ⟨.reaped, said, cfg.cgroup && !waitUntil os.drained, false⟩ rfl hs
  have hfinish : exec Ledger.step ⟨.doomed, said, cfg.cgroup, false⟩ ([.reap] ++ finishCgroup os cfg) =
      some ⟨.reaped, said, cfg.cgroup && !waitUntil os.drained, false⟩ :=
    exec_trans (t := ⟨.reaped, said, cfg.cgroup, false⟩) rfl (finishCgroup_exec cfg said)
  exact ⟨said', exec_trans hfinish (dropped_exec cfg hending)⟩

lemma abortStartup_tracked (os : Os σ) (cfg : Supervisor.Config) (t : Tracker σ)
    (ending : List Effect) (ok : Bool) : abortStartup os cfg (some t) ending ok =
      prepend (killUnknown t)
        (abortCleaned os cfg (endingOf cfg ending) ok (abortTracked os cfg t)) := rfl

lemma abortCleaned_some (os : Os σ) (cfg : Supervisor.Config) (ending : List Effect)
    (ok gone : Bool) (t : Tracker σ) : abortCleaned os cfg ending ok (some (gone, t)) =
      ([.cleanup, if gone then .exited else .killRoot, .finalScan, .reap] ++
        finishCgroup os cfg ++ ending, .ended ok (some (t.finishScan os.host).2)) := rfl

lemma abortStartup_sound (hclock : os.Sleeps) (start : Tracker.Start) (shim : ProcessIdentity)
    (ops : List Tracker.Op) (cfg : Supervisor.Config) {tracker : Option (Tracker σ)}
    {ending : List Effect} {lost : Prop} (ok : Bool) (hlost : ¬lost)
    (hops : ops = [] ∨ ops = [.takeNewGroups])
    (ht : ∀ t ∈ tracker, t = Tracker.run os.host (start.tracker os.host os.source shim) ops)
    (hs : said ≠ .error) (he : Ends ending) :
    ∃ m, exec Ledger.step ⟨.running, said, cfg.cgroup, false⟩
        (abortStartup os cfg tracker ending ok).1 = some m ∧
      Settled os lost (abortStartup os cfg tracker ending ok).2 m := by
  obtain ⟨said', hreaped⟩ := reaped_exec cfg hs he
  have hdir : (cfg.cgroup && !waitUntil os.drained) = true → waitUntil os.drained = false := by
    simp
  cases tracker with
  | none =>
    have hkill : exec Ledger.step ⟨.running, said, cfg.cgroup, false⟩
        ([.call (.signal SIGKILL)] ++ (Supervisor.killCgroup cfg).map .call) =
          some ⟨.doomed, said, cfg.cgroup, false⟩ := by
      rw [Supervisor.killCgroup]
      cases cfg.cgroup <;> rfl
    refine ⟨⟨.reaped, said', cfg.cgroup && !waitUntil os.drained, false⟩, ?_,
      .undone hlost rfl hdir fun t hin => absurd hin (by simp)⟩
    have hall := exec_trans hkill hreaped
    simpa only [abortStartup, abortSpawn, List.append_assoc] using hall
  | some t =>
    obtain ⟨gone, t', hloop, hclean⟩ := abortTracked_spec hclock cfg start shim hops
    rw [← ht t (Option.mem_some_self t)] at hloop
    rw [abortStartup_tracked, hloop, abortCleaned_some, prepend_outcome]
    have hkill : ∃ custody, (custody = .running ∨ custody = .doomed) ∧
        exec Ledger.step ⟨.running, said, cfg.cgroup, false⟩ (killUnknown t) =
          some ⟨custody, said, cfg.cgroup, false⟩ := by
      rw [killUnknown]
      split
      · exact ⟨.running, .inl rfl, rfl⟩
      · exact ⟨.doomed, .inr rfl, rfl⟩
    obtain ⟨custody, hcustody, hkill⟩ := hkill
    have hdoom : exec Ledger.step ⟨custody, said, cfg.cgroup, false⟩
        [.cleanup, if gone then .exited else .killRoot, .finalScan] =
          some ⟨.doomed, said, cfg.cgroup, false⟩ := by
      rcases hcustody with rfl | rfl <;> cases gone <;> rfl
    refine ⟨⟨.reaped, said', cfg.cgroup && !waitUntil os.drained, false⟩, ?_,
      .undone hlost rfl hdir ?_⟩
    · refine prepend_exec hkill ?_
      have hall := exec_trans hdoom hreaped
      simpa only [List.append_assoc, List.cons_append, List.nil_append] using hall
    · intro t₁ hin
      obtain rfl := Option.some.inj hin
      exact ⟨start, shim, hclean⟩

lemma reports_exec (os : Os σ) (selected : SelectedFeatures) (id : ProcessIdentity) (dir : Bool) :
    ∃ said, said ≠ .error ∧ exec Ledger.step ⟨.running, .capabilities, dir, false⟩
      (reports os selected id).1 = some ⟨.running, said, dir, false⟩ := by
  obtain ⟨identity, structured, tracking⟩ := selected
  cases hspawned : os.write (.spawned id) <;> cases htracked : os.write (.tracked id) <;>
    cases identity <;> cases tracking <;>
      simp [reports, hspawned, htracked, exec, Ledger.step]

lemma superviseChild_sound (hclock : os.Sleeps) (shim id : ProcessIdentity)
    {selected : SelectedFeatures} {request : SpawnRequest} {cgroup : Option String}
    {tracker : Option (Tracker σ)} (hid : tracker.isSome = true → os.identity = .ok id)
    (htracked : tracker.isSome = selected.trackDescendants)
    (ht : ∀ t ∈ tracker, t = (Tracker.withSource os.host os.source shim id).takeNewGroups.2)
    (hs : said ≠ .error) :
    Sound os ⟨.running, said, (config request cgroup).cgroup, false⟩
      (superviseChild os selected request (config request cgroup) tracker)
      (superviseChild os.cloning selected request (config request cgroup) tracker) := by
  have hcloned : (superviseChild os.cloning selected request (config request cgroup) tracker).2 =
      .supervising selected request (config request cgroup)
        (Supervisor.start os.clock (pumps request).1 (pumps request).2 tracker) := by
    rw [superviseChild, if_neg (by simp [Os.cloning])]
    rfl
  rw [Sound, hcloned]
  set cfg := config request cgroup with hcfg
  by_cases hpty : request.pty = true ∧ os.cloneMaster = false
  · have hif : (request.pty && !os.cloneMaster) = true := by simp [hpty]
    rw [superviseChild, if_pos hif]
    cases tracker with
    | none =>
      have hlost : Lost os (.supervising selected request cfg
          (Supervisor.start os.clock (pumps request).1 (pumps request).2 none)) := by
        refine ⟨hpty.2, ?_⟩
        simp only [Outcome.untrackedPty, hpty.1, ← htracked]
        rfl
      refine ⟨⟨.running, said, cfg.cgroup, false⟩, ?_, .lost hlost rfl⟩
      rw [masterLost, endingOf]
      cases cfg.cgroup <;> rfl
    | some t =>
      have hlost : ¬Lost os (.supervising selected request cfg
          (Supervisor.start os.clock (pumps request).1 (pumps request).2 (some t))) := by
        apply not_lost
        simp only [Outcome.untrackedPty, ← htracked]
        simp
      refine abortStartup_sound hclock (.withSource id) shim [.takeNewGroups] cfg false hlost
        (.inr rfl) ?_ hs ends_nil
      intro t' hin
      rw [Tracker.run_cons, Tracker.run_nil]
      exact ht t' hin
  · have hif : ¬(request.pty && !os.cloneMaster) = true := by simpa using hpty
    have hlost : ¬Lost os (.supervising selected request cfg
        (Supervisor.start os.clock (pumps request).1 (pumps request).2 tracker)) := by
      rintro ⟨hclone, huntracked⟩
      simp only [Outcome.untrackedPty, Bool.and_eq_true] at huntracked
      exact hpty ⟨huntracked.1, hclone⟩
    rw [superviseChild, if_neg hif]
    refine ⟨⟨.running, said, cfg.cgroup, false⟩, rfl, ?_⟩
    refine .supervising hlost rfl rfl ⟨⟨cgroup, rfl⟩, tracker, rfl, htracked, ?_⟩
    intro t hin
    have hsome : tracker.isSome = true := by
      rw [Option.mem_def.mp hin, Option.isSome_some]
    exact ⟨shim, id, hid hsome, ht t hin⟩

lemma abortCleaned_untrackedPty (os : Os σ) (cfg : Supervisor.Config) (ending : List Effect)
    (ok : Bool) (looped : Option (Bool × Tracker σ)) :
    (abortCleaned os cfg ending ok looped).2.untrackedPty = false := by
  cases looped <;> rfl

lemma abortStartup_untrackedPty (os : Os σ) (cfg : Supervisor.Config)
    (tracker : Option (Tracker σ)) (ending : List Effect) (ok : Bool) :
    (abortStartup os cfg tracker ending ok).2.untrackedPty = false := by
  cases tracker with
  | none => rfl
  | some t =>
    rw [abortStartup_tracked, prepend_outcome]
    exact abortCleaned_untrackedPty os cfg (endingOf cfg ending) ok _

lemma reportChild_sound (hclock : os.Sleeps) {selected : SelectedFeatures}
    (request : SpawnRequest) (cgroup : Option String) {shim : Option ProcessIdentity}
    {id : ProcessIdentity} (hshim : shim.isSome = selected.trackDescendants)
    (hid : os.identity = .ok id) :
    Sound os ⟨.running, .capabilities, (config request cgroup).cgroup, false⟩
      (reportChild os selected request (config request cgroup) shim id)
      (reportChild os.cloning selected request (config request cgroup) shim id) := by
  obtain ⟨said, hs, hreports⟩ := reports_exec os selected id (config request cgroup).cgroup
  rw [reportChild, reportChild]
  refine Sound.after ?_ hreports
  change Sound os _ (if (reports os selected id).2 then _ else _)
    (if (reports os selected id).2 then _ else _)
  split
  · refine superviseChild_sound hclock (shim.getD ⟨0, 0, .macos 0 0⟩) id (fun _ => hid) ?_ ?_ hs
    · rw [← hshim]
      cases shim <;> rfl
    · intro t hin
      cases shim with
      | none => cases hin
      | some shim => exact (Option.some.inj hin).symm
  · refine abortStartup_sound hclock (.withSource id) (shim.getD ⟨0, 0, .macos 0 0⟩) [] _ false
      (not_lost (abortStartup_untrackedPty ..)) (.inl rfl) ?_ hs ends_nil
    intro t hin
    cases shim with
    | none => cases hin
    | some shim => exact (Option.some.inj hin).symm

lemma not_error {selected : SelectedFeatures}
    (hs : said = .capabilities ∨ selected = noFeatures ∧ said ≠ .error) : said ≠ .error := by
  rcases hs with rfl | hs
  · decide
  · exact hs.2

lemma afterSpawn_sound (hclock : os.Sleeps) {selected : SelectedFeatures}
    (request : SpawnRequest) (cgroup : Option String) {shim : Option ProcessIdentity} (pid : ℕ)
    (hshim : shim.isSome = selected.trackDescendants)
    (hs : said = .capabilities ∨ selected = noFeatures ∧ said ≠ .error) :
    Sound os ⟨.running, said, (config request cgroup).cgroup, false⟩
      (afterSpawn os selected request shim pid (config request cgroup))
      (afterSpawn os.cloning selected request shim pid (config request cgroup)) := by
  have herror := not_error hs
  rw [afterSpawn, afterSpawn]
  by_cases hfeature : (selected.spawnIdentity || selected.trackDescendants) = true
  · have hsaid : said = .capabilities := by
      rcases hs with hs | ⟨rfl, -⟩
      · exact hs
      · cases hfeature
    subst hsaid
    rw [if_pos hfeature, if_pos hfeature]
    change Sound os _ _ (match os.identity with | .error cause => _ | .ok id => _)
    cases hid : os.identity with
    | error cause =>
      dsimp only
      rw [Sound]
      refine abortStartup_sound hclock (.empty pid) (shim.getD ⟨0, 0, .macos 0 0⟩) [] _ true
        (not_lost (abortStartup_untrackedPty ..)) (.inl rfl) ?_ herror
        (ends_error _)
      intro t hin
      cases shim with
      | none => cases hin
      | some shim => exact (Option.some.inj hin).symm
    | ok id => exact reportChild_sound hclock request cgroup hshim hid
  · have hnone : (none : Option (Tracker σ)).isSome = selected.trackDescendants := by
      simp only [Bool.or_eq_true, not_or, Bool.not_eq_true] at hfeature
      exact hfeature.2.symm
    rw [if_neg hfeature, if_neg hfeature]
    exact superviseChild_sound hclock ⟨0, 0, .macos 0 0⟩ ⟨0, 0, .macos 0 0⟩
      Bool.noConfusion hnone (fun t hin => absurd hin (by simp)) herror

lemma prepareTracking_isSome {selected : SelectedFeatures} {shim : Option ProcessIdentity}
    (h : prepareTracking os selected = .ok shim) : shim.isSome = selected.trackDescendants := by
  rw [prepareTracking] at h
  split at h
  · next htrack =>
    rw [htrack]
    cases hprepared : os.prepareTracking with
    | error cause =>
      rw [hprepared] at h
      cases h
    | ok id =>
      rw [hprepared] at h
      cases h
      rfl
  · next htrack =>
    rw [Bool.not_eq_true] at htrack
    cases h
    exact htrack.symm

lemma refused_sound {ending : List Effect} (ok : Bool) (he : Ends ending) (hs : said ≠ .error)
    (hr : r'.2.untrackedPty = false) :
    Sound os ⟨.absent, said, false, false⟩ (ending, .ended ok none) r' := by
  obtain ⟨said', hending⟩ := he ⟨.absent, said, false, false⟩ rfl hs
  exact ⟨⟨.absent, said', false, false⟩, hending, .refused (not_lost hr) rfl rfl⟩

lemma ends_spawnError (failure : Failure) (structured : Bool) :
    Ends (writeSpawnError os failure structured) :=
  fun _ hl hs => ignored_exec _ _ hl hs

lemma spawnRequested_sound (hclock : os.Sleeps) {selected : SelectedFeatures} (payload : Bytes)
    (hs : said = .capabilities ∨ selected = noFeatures ∧ said ≠ .error) :
    Sound os ⟨.absent, said, false, false⟩ (spawnRequested os selected payload)
      (spawnRequested os.cloning selected payload) := by
  have herror := not_error hs
  rw [spawnRequested, spawnRequested]
  change Sound os _ (match os.serde.spawn payload with | .error text => _ | .ok request => _)
    (match os.serde.spawn payload with | .error text => _ | .ok request => _)
  cases os.serde.spawn payload with
  | error text => exact refused_sound true (ends_error _) herror rfl
  | ok request =>
    dsimp only
    by_cases hvalid : interruptValid request = true
    · have hif : ¬(!interruptValid request) = true := by simp [hvalid]
      have hprepare : prepareTracking os.cloning selected = prepareTracking os selected := rfl
      have hspawn : spawnChild os.cloning request selected.structuredSpawnErrors =
          spawnChild os request selected.structuredSpawnErrors := rfl
      rw [if_neg hif, if_neg hif, hprepare, hspawn]
      cases hshim : prepareTracking os selected with
      | error cause => exact refused_sound true (ends_error _) herror rfl
      | ok shim =>
        have hchild := @spawnChild_exec σ os said request selected.structuredSpawnErrors herror
        dsimp only
        cases hspawned : spawnChild os request selected.structuredSpawnErrors with
        | mk effects child =>
          rw [hspawned] at hchild
          cases child with
          | error failure =>
            have hrefused : Sound os ⟨.absent, said, false, false⟩
                (writeSpawnError os failure selected.structuredSpawnErrors, .ended true none)
                (writeSpawnError os failure selected.structuredSpawnErrors, .ended true none) :=
              refused_sound true (ends_spawnError failure _) herror rfl
            exact hrefused.after hchild
          | ok child =>
            obtain ⟨pid, cgroup⟩ := child
            have hafter := afterSpawn_sound hclock request cgroup pid
              (prepareTracking_isSome hshim) hs
            exact hafter.after hchild
    · have hif : (!interruptValid request) = true := by simpa using hvalid
      rw [if_pos hif, if_pos hif]
      exact refused_sound true (ends_error _) herror rfl

lemma awaitSpawn_sound (hclock : os.Sleeps) {selected : SelectedFeatures}
    (arrivals : List Arrival) (hs : said = .capabilities ∨ selected = noFeatures ∧ said ≠ .error) :
    Sound os ⟨.absent, said, false, false⟩ (awaitSpawn os selected arrivals)
      (awaitSpawn os.cloning selected arrivals) := by
  have herror := not_error hs
  cases arrivals with
  | nil => exact ⟨_, rfl, .waiting (not_lost rfl) rfl rfl⟩
  | cons arrival arrivals =>
    cases arrival with
    | eof => exact refused_sound true ends_nil herror rfl
    | failed => exact refused_sound false ends_nil herror rfl
    | frame tag payload =>
      rw [awaitSpawn, awaitSpawn]
      split
      · exact spawnRequested_sound hclock payload hs
      · exact refused_sound true (ends_error _) herror rfl

lemma capabilities_sound (hclock : os.Sleeps) (selected : SelectedFeatures)
    (features : List String) (arrivals : List Arrival) :
    Sound os ⟨.absent, .nothing, false, false⟩
      (if os.write (.capabilities features) then
        prepend [.sent (.capabilities features)] (awaitSpawn os selected arrivals)
      else ([], .ended false none))
      (if os.cloning.write (.capabilities features) then
        prepend [.sent (.capabilities features)] (awaitSpawn os.cloning selected arrivals)
      else ([], .ended false none)) := by
  by_cases hwrite : os.write (.capabilities features) = true
  · have hcloned : os.cloning.write (.capabilities features) = true := hwrite
    have hsaid : exec Ledger.step ⟨.absent, .nothing, false, false⟩ [.sent (.capabilities features)] =
        some ⟨.absent, .capabilities, false, false⟩ := rfl
    rw [if_pos hwrite, if_pos hcloned]
    exact (awaitSpawn_sound hclock arrivals (.inl rfl)).after hsaid
  · have hcloned : ¬os.cloning.write (.capabilities features) = true := hwrite
    rw [if_neg hwrite, if_neg hcloned]
    exact refused_sound false ends_nil (by decide) rfl

/-- A startup keeps its ledger whatever frames come in and however the system answers, and it ends
with a child that is supervised, with none, or with the one that a missing duplicate of an
untracked pty's master loses. -/
theorem startup_settled (os : Os σ) (hclock : os.Sleeps) (arrivals : List Arrival) :
    ∃ m, exec Ledger.step .start (runWithCapabilities os arrivals).1 = some m ∧
      Settled os (Lost os (runWithCapabilities os.cloning arrivals).2)
        (runWithCapabilities os arrivals).2 m := by
  change Sound os ⟨.absent, .nothing, false, false⟩ (runWithCapabilities os arrivals)
    (runWithCapabilities os.cloning arrivals)
  have hplain (arrivals : List Arrival) : Sound os ⟨.absent, .nothing, false, false⟩
      (awaitSpawn os noFeatures arrivals) (awaitSpawn os.cloning noFeatures arrivals) :=
    awaitSpawn_sound hclock arrivals (.inr ⟨rfl, by decide⟩)
  cases arrivals with
  | nil => exact hplain []
  | cons arrival rest =>
    cases arrival with
    | eof => exact hplain (.eof :: rest)
    | failed => exact hplain (.failed :: rest)
    | frame tag payload =>
      rw [runWithCapabilities, runWithCapabilities]
      split
      · change Sound os _
          (match selectFeatures os.serde payload (supportedFeatures os.identityReadable
            os.trackingAvailable) with | .error reason => _ | .ok selected => _)
          (match selectFeatures os.serde payload (supportedFeatures os.identityReadable
            os.trackingAvailable) with | .error reason => _ | .ok selected => _)
        cases selectFeatures os.serde payload (supportedFeatures os.identityReadable
            os.trackingAvailable) with
        | error reason => exact refused_sound true (ends_error _) (by decide) rfl
        | ok selected => exact capabilities_sound hclock selected _ rest
      · exact hplain (.frame tag payload :: rest)

def mutedId (pid : ℕ) : ProcessIdentity :=
  ⟨pid, pid, .linux "boot" 1⟩

def mutedOs : Os Unit where
  host := .empty
  source := ()
  pid := 7
  serde := jsonSerde
  number _ := 0
  kindOf _ := .other
  strerror _ := "error"
  identityReadable := true
  trackingAvailable := true
  prepareTracking := .ok (mutedId 7)
  accounts := Privdrop.soleAccount
  process := ⟨⟨0, 0, 0⟩, ⟨0, 0, 0⟩, [0]⟩
  kernel := .root .eperm
  cgroups :=
    { unified := true, own := .ok "0::/app\n", createDir := fun _ => .ok (), openProcs := .ok (),
      openKill := .ok () }
  openPty := .ok ()
  channel := .ok ()
  child :=
    { chdir := fun _ => .ok (), setsid := .ok (), tiocsctty := .ok (),
      tcsetwinsize := fun _ => .ok (), joinInChild := .ok (), applyPlan := .ok (),
      write := fun _ _ => .wrote (Fin.last 8) }
  spawning := .forked 9 none
  identity := .ok (mutedId 9)
  write
    | .tracked _ => false
    | _ => true
  cloneMaster := true
  begun := 0
  now round := round * sampleInterval
  exited _ := false
  drained := [true]
  clock := 0

def mutedArrivals : List Arrival :=
  [.frame tagHello
      "\x7b\"features\":[\"spawn_identity_v1\",\"track_descendants_v1\"]\x7d".toUTF8.toList,
    .frame tagSpawn ("\x7b\"argv\":[\"a\"],\"user\":1000,\"cgroup\":\"required\"," ++
      "\"kill_grace_ms\":0\x7d").toUTF8.toList]

/-- The child is killed, reaped and its cgroup removed. -/
theorem startup_settled_muted :
    (runWithCapabilities mutedOs mutedArrivals).1 =
        [.sent (.capabilities (supportedFeatures true true)),
          .makeDir "/sys/fs/cgroup/app/forcola-7-0", .fork 9, .sent (.spawned (mutedId 9)),
          .cleanup, .killRoot, .finalScan, .reap, .call .killCgroup, .call (.drained true),
          .call .removeCgroup, .removeDir] ∧
      ∃ m, exec Ledger.step .start (runWithCapabilities mutedOs mutedArrivals).1 = some m ∧
        Settled mutedOs (Lost mutedOs (runWithCapabilities mutedOs.cloning mutedArrivals).2)
          (runWithCapabilities mutedOs mutedArrivals).2 m := by
  have hclock : mutedOs.Sleeps :=
    ⟨Nat.zero_le _, fun round => (Nat.succ_mul round sampleInterval).ge⟩
  exact ⟨by decide +kernel, startup_settled mutedOs hclock mutedArrivals⟩

end Forcola.Native.Startup
