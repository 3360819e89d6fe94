import Forcola.Beam.Shim
import Forcola.Native.ProcStat
import Forcola.Native.Tracking
import Mathlib.Data.Prod.Lex

/-! `forcola_shim groups`: checking or stopping process groups recorded earlier. -/

namespace Forcola.Native.RecordedGroups

open Beam (Json)

def i32Max : ℕ := 2147483647

def pollInterval : Duration := millis 20

def confirmWindow : Duration := millis 500

def maxProcesses : ℕ := 65536

inductive Recorded
  | group (expected : ProcessIdentity)
  | invalid (reason : String)
deriving DecidableEq, Repr

def asU64 : Json → Option ℕ
  | .int (.ofNat n) => if n < 2 ^ 64 then some n else none
  | _ => none

def asStr : Json → Option String
  | .string value => some value
  | _ => none

def positive (value : Json) (key : String) : Option ℕ :=
  ((value.get key).bind asU64).filter fun n => 0 < n ∧ n ≤ i32Max

def parseStartTime (platform : Platform) (value : Json) : Except String StartTime :=
  match platform, (value.get "kind").bind asStr with
  | .linux, some "linux" =>
    match (value.get "boot_id").bind asStr, (value.get "ticks").bind asU64 with
    | some bootId, some ticks =>
      if bootId = "" then .error "invalid_identity" else .ok (.linux bootId ticks)
    | _, _ => .error "invalid_identity"
  | .macos, some "macos" =>
    match (value.get "seconds").bind asU64,
        ((value.get "microseconds").bind asU64).filter (· < 1000000) with
    | some seconds, some microseconds => .ok (.macos seconds microseconds)
    | _, _ => .error "invalid_identity"
  | .linux, some "macos" => .error "foreign_identity"
  | .macos, some "linux" => .error "foreign_identity"
  | _, _ => .error "invalid_identity"

def parseIdentity (platform : Platform) (value : Json) : Recorded :=
  match positive value "pid", positive value "pgid" with
  | some pid, some pgid =>
    match value.get "start_time" with
    | some start =>
      match parseStartTime platform start with
      | .ok startTime =>
        if pid = pgid then .group ⟨pid, pgid, startTime⟩ else .invalid "not_a_group_leader"
      | .error reason => .invalid reason
    | none => .invalid "invalid_identity"
  | _, _ => .invalid "invalid_identity"

/-- The operating system in groups mode; the state `σ` may change between any two answers. -/
structure Os (σ : Type) where
  platform : Platform
  read : ℕ → σ → Io (Option ProcessRecord) × σ
  /-- The next entry of `/proc`, where only some names are pids; `none` at the end. -/
  nextEntry : σ → Option (Io (Option ℕ)) × σ
  openProc : σ → Io Unit × σ
  groupMembers : ℕ → σ → Io (List ℕ) × σ
  /-- The text of `/proc/sys/kernel/random/boot_id`. -/
  bootId : σ → Io String × σ
  /-- Seconds and microseconds of `kern.boottime`. -/
  bootTime : σ → Io (ℕ × ℕ) × σ
  kill : ℤ → ℕ → σ → Io Unit × σ
  now : σ → Instant × σ
  sleep : Duration → σ → σ

inductive State
  | gone
  | led
  | leaderless (live : List ProcessIdentity)
  | unknown (why : String ⊕ IoError)

def State.present : State → Bool
  | .led | .leaderless _ => true
  | .gone | .unknown _ => false

/-- `entry` is the position in the request of the group worked on; a read is `own` when it is
the leader read of that group's observation. -/
inductive Event
  | gone (entry : ℕ)
  | read (own : Option ℕ) (pid : ℕ) (answer : Io (Option ProcessRecord))
  | kill (entry : ℕ) (target : ℤ) (signal : ℕ) (answer : Io Unit)

/-- The log is newest first; no branch reads it. -/
structure Request (σ : Type) where
  world : σ
  log : List Event

variable {σ : Type}

def fromEarlierBoot (os : Os σ) : StartTime → σ → Io Bool × σ
  | .linux bootId _, w =>
    let r := os.bootId w
    (r.1.map fun current => decide (ProcStat.trim current ≠ bootId), r.2)
  | .macos seconds microseconds, w =>
    let r := os.bootTime w
    (r.1.map fun boot => decide (toLex (seconds, microseconds) < toLex boot), r.2)

def read (os : Os σ) (m : Request σ) (own : Option ℕ) (pid : ℕ) :
    Io (Option ProcessRecord) × Request σ :=
  let r := os.read pid m.world
  (r.1, ⟨r.2, .read own pid r.1 :: m.log⟩)

def kill (os : Os σ) (m : Request σ) (entry : ℕ) (target : ℤ) (signal : ℕ) :
    Io Unit × Request σ :=
  let r := os.kill target signal m.world
  (r.1, ⟨r.2, .kill entry target signal r.1 :: m.log⟩)

def procMembers (os : Os σ) (pgid : ℕ) : ℕ → List ℕ → Request σ → Io (List ℕ) × Request σ
  | left, members, m =>
    match os.nextEntry m.world with
    | (none, w) => (.ok members, { m with world := w })
    | (some entry, w) =>
      match left with
      | 0 => (.error (.custom .invalidData), { m with world := w })
      | left + 1 =>
        match entry with
        | .error error => (.error error, { m with world := w })
        | .ok none => procMembers os pgid left members { m with world := w }
        | .ok (some pid) =>
          match read os { m with world := w } none pid with
          | (.ok (some record), m) =>
            procMembers os pgid left
              (if record.identity.pgid = pgid then members ++ [pid] else members) m
          | (.ok none, m) => procMembers os pgid left members m
          | (.error error, m) =>
            if error.kind = .invalidData then procMembers os pgid left members m
            else (.error error, m)

def groupMembers (os : Os σ) (m : Request σ) (pgid : ℕ) : Io (List ℕ) × Request σ :=
  match os.platform with
  | .linux =>
    match os.openProc m.world with
    | (.error error, w) => (.error error, { m with world := w })
    | (.ok (), w) => procMembers os pgid (maxProcesses * 2 + 1) [] { m with world := w }
  | .macos =>
    let r := os.groupMembers pgid m.world
    (r.1, { m with world := r.2 })

def liveMembers (os : Os σ) (pgid : ℕ) :
    List ℕ → List ProcessIdentity → Request σ → Except IoError (List ProcessIdentity) × Request σ
  | [], live, m => (.ok live, m)
  | pid :: rest, live, m =>
    match read os m none pid with
    | (.ok (some record), m) =>
      liveMembers os pgid rest
        (if record.identity.pgid = pgid ∧ !record.exited then live ++ [record.identity] else live) m
    | (.ok none, m) => liveMembers os pgid rest live m
    | (.error error, m) => (.error error, m)

def members (os : Os σ) (m : Request σ) (pgid : ℕ) : State × Request σ :=
  match groupMembers os m pgid with
  | (.error error, m) => (.unknown (.inr error), m)
  | (.ok pids, m) =>
    match liveMembers os pgid pids [] m with
    | (.error error, m) => (.unknown (.inr error), m)
    | (.ok live, m) => (if live.isEmpty then .gone else .leaderless live, m)

def observe (os : Os σ) (m : Request σ) (entry : ℕ) : Recorded → State × Request σ
  | .invalid reason => (.unknown (.inl reason), m)
  | .group expected =>
    match fromEarlierBoot os expected.startTime m.world with
    | (.ok true, w) => (.gone, { m with world := w })
    | (.error error, w) => (.unknown (.inr error), { m with world := w })
    | (.ok false, w) =>
      match read os { m with world := w } (some entry) expected.pid with
      | (.ok (some leader), m) =>
        if !leader.identity.sameProcess expected then (.gone, m)
        else if leader.identity.pgid = expected.pgid ∧ !leader.exited then (.led, m)
        else members os m expected.pgid
      | (.ok none, m) => members os m expected.pgid
      | (.error error, m) => (.unknown (.inr error), m)

def signalMembers (os : Os σ) (entry pgid number : ℕ) :
    List ProcessIdentity → Request σ → Request σ
  | [], m => m
  | member :: rest, m =>
    match read os m none member.pid with
    | (.ok (some current), m) =>
      if current.identity.sameProcess member ∧ current.identity.pgid = pgid ∧ !current.exited ∧
          member.pid ≤ i32Max then
        signalMembers os entry pgid number rest (kill os m entry member.pid number).2
      else signalMembers os entry pgid number rest m
    | (_, m) => signalMembers os entry pgid number rest m

/-- The fallback of a group whose leader is not verified, or refuses the signal. -/
def signalLeft (os : Os σ) (m : Request σ) (entry : ℕ) (expected : ProcessIdentity)
    (number : ℕ) : Request σ :=
  match members os m expected.pgid with
  | (.leaderless live, m) => signalMembers os entry expected.pgid number live m
  | (_, m) => m

def signal (os : Os σ) (m : Request σ) (entry : ℕ) (expected : ProcessIdentity) (state : State)
    (number : ℕ) : Request σ :=
  match state with
  | .led =>
    match read os m none expected.pid with
    | (.ok (some leader), m) =>
      if leader.identity = expected ∧ !leader.exited then
        match kill os m entry (-(expected.pgid : ℤ)) number with
        | (.ok (), m) => m
        | (.error _, m) => signalLeft os m entry expected number
      else signalLeft os m entry expected number
    | (_, m) => signalLeft os m entry expected number
  | .leaderless live => signalMembers os entry expected.pgid number live m
  | .gone | .unknown _ => m

def observeEntry (os : Os σ) (m : Request σ) (entry : ℕ) (recorded : Recorded) :
    State × Request σ :=
  match observe os m entry recorded with
  | (.gone, m) => (.gone, { m with log := .gone entry :: m.log })
  | r => r

def observeAll (os : Os σ) : ℕ → List Recorded → Request σ → List State × Request σ
  | _, [], m => ([], m)
  | entry, recorded :: rest, m =>
    let r := observeEntry os m entry recorded
    let rs := observeAll os (entry + 1) rest r.2
    (r.1 :: rs.1, rs.2)

def signalAll (os : Os σ) (number : ℕ) :
    ℕ → List (Recorded × State) → Request σ → Request σ
  | _, [], m => m
  | entry, (recorded, state) :: rest, m =>
    match recorded with
    | .group expected =>
      if state.present then
        signalAll os number (entry + 1) rest (signal os m entry expected state number)
      else signalAll os number (entry + 1) rest m
    | .invalid _ => signalAll os number (entry + 1) rest m

/-- Groups seen gone stay gone. -/
def refreshEntry (os : Os σ) (m : Request σ) (entry : ℕ) (recorded : Recorded) :
    State → State × Request σ
  | .gone => (.gone, m)
  | _ => observeEntry os m entry recorded

def refresh (os : Os σ) : ℕ → List (Recorded × State) → Request σ → List State × Request σ
  | _, [], m => ([], m)
  | entry, (recorded, state) :: rest, m =>
    let r := refreshEntry os m entry recorded state
    let rs := refresh os (entry + 1) rest r.2
    (r.1 :: rs.1, rs.2)

/-- The wait of a stage; without fuel the wait is still going on. -/
def wait (os : Os σ) (recorded : List Recorded) (deadline : Instant) :
    ℕ → List State → Request σ → Option (List State) × Request σ
  | 0, _, m => (none, m)
  | fuel + 1, states, m =>
    let r := refresh os 0 (recorded.zip states) m
    if !r.1.any State.present then (some r.1, r.2)
    else
      let checked := os.now r.2.world
      if deadline ≤ checked.1 then (some r.1, { r.2 with world := checked.2 })
      else
        let now := os.now checked.2
        wait os recorded deadline fuel r.1
          { r.2 with world := os.sleep (min pollInterval (deadline - now.1)) now.2 }

def stages (interrupt : Option Duration) (term : Duration) : List (ℕ × Duration) :=
  (interrupt.toList.map fun grace => (SIGINT, grace)) ++
    [(SIGTERM, term), (SIGKILL, confirmWindow)]

def stopStages (os : Os σ) (recorded : List Recorded) (fuel : ℕ) :
    List (ℕ × Duration) → List State → Request σ → Option (List State) × Request σ
  | [], states, m => (some states, m)
  | (number, grace) :: rest, states, m =>
    if !states.any State.present then (some states, m)
    else
      let m := signalAll os number 0 (recorded.zip states) m
      let now := os.now m.world
      match wait os recorded (now.1 + grace) fuel states { m with world := now.2 } with
      | (some states, m) => stopStages os recorded fuel rest states m
      | (none, m) => (none, m)

/-- `none` when `fuel` refreshes did not end some wait. -/
def stop (os : Os σ) (fuel : ℕ) (recorded : List Recorded) (interrupt : Option Duration)
    (term : Duration) (m : Request σ) : Option (List State) × Request σ :=
  let r := observeAll os 0 recorded m
  stopStages os recorded fuel (stages interrupt term) r.1 r.2

end Forcola.Native.RecordedGroups
