import Forcola.Beam.IdentityCodec
import Forcola.Native.StopStages

/-! What the answer to a groups request says, and what it rests on. -/

namespace Forcola.Native.RecordedGroups

open Beam (Json Shape)

inductive Op
  | check
  | stop
deriving DecidableEq, Repr

def maxGroups : ℕ := 4096

def maxGraceMs : ℕ := 4294967295

/-- A request line once decoded; the only interrupt signal is `int`, and an absent kill grace
is 5000. -/
structure GroupsRequest where
  op : Op
  groups : List Json
  interruptSignal : Bool
  interruptGraceMs : Option ℕ
  killGraceMs : ℕ

def GroupsRequest.interrupt (request : GroupsRequest) : Except String (Option Duration) :=
  match request.interruptSignal, request.interruptGraceMs with
  | false, none => .ok none
  | true, some ms =>
    if 0 < ms ∧ ms ≤ maxGraceMs then .ok (some (millis ms)) else .error "invalid_interrupt"
  | _, _ => .error "invalid_interrupt"

structure StateReport where
  state : String
  reason : Option String
deriving DecidableEq, Repr

structure Report where
  groups : List StateReport
  confirmed : Bool
deriving DecidableEq, Repr

def State.report (errorReason : IoError → String) : State → StateReport
  | .gone => ⟨"gone", none⟩
  | .led | .leaderless _ => ⟨"present", none⟩
  | .unknown (.inl reason) => ⟨"unknown", some reason⟩
  | .unknown (.inr error) => ⟨"unknown", some (errorReason error)⟩

def State.isGone : State → Bool
  | .gone => true
  | _ => false

variable {σ : Type}

def check (os : Os σ) (recorded : List Recorded) (m : Request σ) : List State × Request σ :=
  observeAll os 0 recorded m

def answer (os : Os σ) (fuel : ℕ) (op : Op) (recorded : List Recorded)
    (interrupt : Option Duration) (term : Duration) (m : Request σ) :
    Option (List State) × Request σ :=
  match op with
  | .check => let r := check os recorded m; (some r.1, r.2)
  | .stop => stop os fuel recorded interrupt term m

def run (os : Os σ) (errorReason : IoError → String) (fuel : ℕ) (request : GroupsRequest)
    (m : Request σ) : Option (Except String Report) × Request σ :=
  if maxGroups < request.groups.length then (some (.error "too_many_groups"), m)
  else
    match request.interrupt with
    | .error reason => (some (.error reason), m)
    | .ok interrupt =>
      if maxGraceMs < request.killGraceMs then (some (.error "invalid_kill_grace"), m)
      else
        let r := answer os fuel request.op (request.groups.map (parseIdentity os.platform))
          interrupt (millis request.killGraceMs) m
        (r.1.map fun states =>
          .ok ⟨states.map (State.report errorReason), states.all State.isGone⟩, r.2)

structure Observation (σ : Type) where
  entry : ℕ
  begun : Request σ
  state : State

def refreshSeen (os : Os σ) : ℕ → List (Recorded × State) → Request σ → List (Observation σ)
  | _, [], _ => []
  | entry, (recorded, state) :: rest, m =>
    let r := refreshEntry os m entry recorded state
    match state with
    | .gone => refreshSeen os (entry + 1) rest r.2
    | _ => ⟨entry, m, r.1⟩ :: refreshSeen os (entry + 1) rest r.2

def waitSeen (os : Os σ) (recorded : List Recorded) (deadline : Instant) :
    ℕ → List State → Request σ → List (Observation σ)
  | 0, _, _ => []
  | fuel + 1, states, m =>
    let seen := refreshSeen os 0 (recorded.zip states) m
    let r := refresh os 0 (recorded.zip states) m
    if !r.1.any State.present then seen
    else
      let checked := os.now r.2.world
      if deadline ≤ checked.1 then seen
      else
        let now := os.now checked.2
        seen ++ waitSeen os recorded deadline fuel r.1
          { r.2 with world := os.sleep (min pollInterval (deadline - now.1)) now.2 }

def stagesSeen (os : Os σ) (recorded : List Recorded) (fuel : ℕ) :
    List (ℕ × Duration) → List State → Request σ → List (Observation σ)
  | [], _, _ => []
  | (number, grace) :: rest, states, m =>
    if !states.any State.present then []
    else
      let m := signalAll os number 0 (recorded.zip states) m
      let now := os.now m.world
      waitSeen os recorded (now.1 + grace) fuel states { m with world := now.2 } ++
        match wait os recorded (now.1 + grace) fuel states { m with world := now.2 } with
        | (some states, m) => stagesSeen os recorded fuel rest states m
        | (none, _) => []

def answerSeen (os : Os σ) (fuel : ℕ) (op : Op) (recorded : List Recorded)
    (interrupt : Option Duration) (term : Duration) (m : Request σ) : List (Observation σ) :=
  let first := refreshSeen os 0 (recorded.map fun r => (r, .led)) m
  match op with
  | .check => first
  | .stop =>
    let r := observeAll os 0 recorded m
    first ++ stagesSeen os recorded fuel (stages interrupt term) r.1 r.2

/-- The process directory read to its end, passing over some read errors: the pids found in the
group. -/
inductive Listing (passed : IoError → Prop) (os : Os σ) (pgid : ℕ) :
    Request σ → List ℕ → Request σ → Prop
  | done {m : Request σ} {w : σ} (next : os.nextEntry m.world = (none, w)) :
      Listing passed os pgid m [] { m with world := w }
  | other {m m' : Request σ} {w : σ} {pids : List ℕ}
      (next : os.nextEntry m.world = (some (.ok none), w))
      (rest : Listing passed os pgid { m with world := w } pids m') :
      Listing passed os pgid m pids m'
  | member {m m1 m' : Request σ} {w : σ} {pid : ℕ} {r : ProcessRecord} {pids : List ℕ}
      (next : os.nextEntry m.world = (some (.ok (some pid)), w))
      (found : read os { m with world := w } none pid = (.ok (some r), m1))
      (inside : r.identity.pgid = pgid) (rest : Listing passed os pgid m1 pids m') :
      Listing passed os pgid m (pid :: pids) m'
  | stranger {m m1 m' : Request σ} {w : σ} {pid : ℕ} {r : ProcessRecord} {pids : List ℕ}
      (next : os.nextEntry m.world = (some (.ok (some pid)), w))
      (found : read os { m with world := w } none pid = (.ok (some r), m1))
      (outside : r.identity.pgid ≠ pgid) (rest : Listing passed os pgid m1 pids m') :
      Listing passed os pgid m pids m'
  | ended {m m1 m' : Request σ} {w : σ} {pid : ℕ} {pids : List ℕ}
      (next : os.nextEntry m.world = (some (.ok (some pid)), w))
      (found : read os { m with world := w } none pid = (.ok none, m1))
      (rest : Listing passed os pgid m1 pids m') : Listing passed os pgid m pids m'
  | unreadable {m m1 m' : Request σ} {w : σ} {pid : ℕ} {error : IoError} {pids : List ℕ}
      (next : os.nextEntry m.world = (some (.ok (some pid)), w))
      (found : read os { m with world := w } none pid = (.error error, m1))
      (pass : passed error) (rest : Listing passed os pgid m1 pids m') :
      Listing passed os pgid m pids m'

inductive Inventory (passed : IoError → Prop) (os : Os σ) (pgid : ℕ) :
    Request σ → List ℕ → Request σ → Prop
  | linux {m m' : Request σ} {w : σ} {pids : List ℕ} (platform : os.platform = .linux)
      (opened : os.openProc m.world = (.ok (), w))
      (listing : Listing passed os pgid { m with world := w } pids m') :
      Inventory passed os pgid m pids m'
  | macos {m : Request σ} {w : σ} {pids : List ℕ} (platform : os.platform = .macos)
      (listed : os.groupMembers pgid m.world = (.ok pids, w)) :
      Inventory passed os pgid m pids { m with world := w }

/-- Each of the pids, read again, is free, in another group or a zombie. -/
def NoneLive (os : Os σ) (pgid : ℕ) : List ℕ → Request σ → Prop
  | [], _ => True
  | pid :: rest, m =>
    match read os m none pid with
    | (.ok (some r), m) => (r.identity.pgid = pgid → r.exited = true) ∧ NoneLive os pgid rest m
    | (.ok none, m) => NoneLive os pgid rest m
    | (.error _, _) => False

inductive Evidence (passed : IoError → Prop) (os : Os σ) (m : Request σ) (entry : ℕ)
    (expected : ProcessIdentity) : Prop
  | earlierBoot {w : σ} (boot : fromEarlierBoot os expected.startTime m.world = (.ok true, w)) :
      Evidence passed os m entry expected
  | replaced {w : σ} {leader : ProcessRecord} {m1 : Request σ}
      (boot : fromEarlierBoot os expected.startTime m.world = (.ok false, w))
      (found : read os { m with world := w } (some entry) expected.pid = (.ok (some leader), m1))
      (pid : leader.identity.pid = expected.pid)
      (start : leader.identity.startTime ≠ expected.startTime) :
      Evidence passed os m entry expected
  | emptied {w : σ} {leader : Option ProcessRecord} {m1 m2 : Request σ} {pids : List ℕ}
      (boot : fromEarlierBoot os expected.startTime m.world = (.ok false, w))
      (found : read os { m with world := w } (some entry) expected.pid = (.ok leader, m1))
      (inventory : Inventory passed os expected.pgid m1 pids m2)
      (none : NoneLive os expected.pgid pids m2) : Evidence passed os m entry expected

structure Verdict (passed : IoError → Prop) (os : Os σ) (groups : List Json)
    (seen : List (Observation σ)) (states : List State) : Prop where
  one : states.length = groups.length
  /-- An entry ends in the state its last observation found. -/
  last : ∀ entry, entry < groups.length →
    (seen.filter (·.entry = entry)).getLast?.map (·.state) = states[entry]?
  observed : ∀ o ∈ seen, ∃ value, groups[o.entry]? = some value ∧
    o.state = (observe os o.begun o.entry (parseIdentity os.platform value)).1
  /-- A group seen gone is not observed again. -/
  absorbing : seen.Pairwise fun o o' => o.state = .gone → o'.entry ≠ o.entry
  unknown : ∀ o ∈ seen, ∀ value, groups[o.entry]? = some value →
    (¬∃ id, Shape os.platform value id) → ∃ why, o.state = .unknown why
  evidence : ∀ o ∈ seen, o.state = .gone → ∃ value expected, groups[o.entry]? = some value ∧
    Shape os.platform value expected ∧ Evidence passed os o.begun o.entry expected

def Ended (os : Os σ) (recorded : List Recorded) (fuel : ℕ) (s : Stage σ) : Prop :=
  ∀ states m, s.waited os recorded fuel = (some states, m) → states.any State.present = true →
    ∃ w, s.started os recorded + s.grace ≤ (os.now w).1 ∧ m.world = (os.now w).2

/-- A read answers for the pid it was asked about, the clock never goes back, and a sleep lasts
at least as long as asked. -/
structure Sound (os : Os σ) (clock : σ → Instant) : Prop where
  read_pid : ∀ pid w r, (os.read pid w).1 = .ok (some r) → r.identity.pid = pid
  now : ∀ w, clock w ≤ (os.now w).1 ∧ (os.now w).1 ≤ clock (os.now w).2
  sleep : ∀ duration w, clock w + duration ≤ clock (os.sleep duration w)
  read : ∀ pid w, clock w ≤ clock (os.read pid w).2
  nextEntry : ∀ w, clock w ≤ clock (os.nextEntry w).2
  openProc : ∀ w, clock w ≤ clock (os.openProc w).2
  groupMembers : ∀ pgid w, clock w ≤ clock (os.groupMembers pgid w).2
  bootId : ∀ w, clock w ≤ clock (os.bootId w).2
  bootTime : ∀ w, clock w ≤ clock (os.bootTime w).2

def turns (grace : Duration) : ℕ := grace / pollInterval + 2

variable {os : Os σ} {recorded : List Recorded} {m m' : Request σ} {entry : ℕ}
variable {expected : ProcessIdentity} {clock : σ → Instant}

lemma Sound.of_read (h : Sound os clock) {own : Option ℕ} {pid : ℕ}
    {answer : Io (Option ProcessRecord)} (hread : RecordedGroups.read os m own pid = (answer, m')) :
    clock m.world ≤ clock m'.world := by
  have hworld : (RecordedGroups.read os m own pid).2.world = m'.world := congrArg (·.2.world) hread
  rw [← hworld]
  exact h.read pid m.world

lemma clock_procMembers (h : Sound os clock) (pgid left : ℕ) (found : List ℕ) (m : Request σ) :
    clock m.world ≤ clock (procMembers os pgid left found m).2.world := by
  induction left generalizing found m with
  | zero =>
    have hnext := h.nextEntry m.world
    rw [procMembers.eq_def]
    dsimp only
    split
    all_goals next heq =>
      rw [heq] at hnext
      exact hnext
  | succ left ih =>
    have hnext := h.nextEntry m.world
    rw [procMembers.eq_def]
    dsimp only
    split
    · next heq =>
      rw [heq] at hnext
      exact hnext
    · next heq =>
      rw [heq] at hnext
      split
      · exact hnext
      · refine le_trans ?_ (ih _ _)
        exact hnext
      · split
        all_goals next hread =>
          have hlater := hnext.trans (h.of_read hread :)
          first
          | exact hlater.trans (ih _ _)
          | split
            · exact hlater.trans (ih _ _)
            · exact hlater

lemma clock_groupMembers (h : Sound os clock) (m : Request σ) (pgid : ℕ) :
    clock m.world ≤ clock (groupMembers os m pgid).2.world := by
  rw [groupMembers]
  split
  · have hopen := h.openProc m.world
    split
    · next heq =>
      rw [heq] at hopen
      exact hopen
    · next heq =>
      rw [heq] at hopen
      refine le_trans ?_ (clock_procMembers h pgid _ [] _)
      exact hopen
  · exact h.groupMembers pgid m.world

lemma clock_liveMembers (h : Sound os clock) (pgid : ℕ) (pids : List ℕ)
    (live : List ProcessIdentity) (m : Request σ) :
    clock m.world ≤ clock (liveMembers os pgid pids live m).2.world := by
  induction pids generalizing live m with
  | nil => exact le_rfl
  | cons pid rest ih =>
    rw [liveMembers]
    split
    · next hread => exact (h.of_read hread).trans (ih _ _)
    · next hread => exact (h.of_read hread).trans (ih _ _)
    · next hread => exact h.of_read hread

lemma clock_members (h : Sound os clock) (m : Request σ) (pgid : ℕ) :
    clock m.world ≤ clock (members os m pgid).2.world := by
  have hgroup := clock_groupMembers h m pgid
  rw [members]
  split
  · next heq =>
    rw [heq] at hgroup
    exact hgroup
  · next pids m1 heq =>
    rw [heq] at hgroup
    have hlive := clock_liveMembers h pgid pids [] m1
    split
    all_goals next hl =>
      rw [hl] at hlive
      exact hgroup.trans hlive

lemma clock_boot (h : Sound os clock) (startTime : StartTime) (w : σ) :
    clock w ≤ clock (fromEarlierBoot os startTime w).2 := by
  cases startTime with
  | linux bootId ticks => exact h.bootId w
  | macos seconds microseconds => exact h.bootTime w

lemma clock_observe (h : Sound os clock) (m : Request σ) (entry : ℕ) (rec : Recorded) :
    clock m.world ≤ clock (observe os m entry rec).2.world := by
  cases rec with
  | invalid reason => exact le_rfl
  | group expected =>
    have hboot := clock_boot h expected.startTime m.world
    rw [observe]
    split
    · next heq =>
      rw [heq] at hboot
      exact hboot
    · next heq =>
      rw [heq] at hboot
      exact hboot
    · next heq =>
      rw [heq] at hboot
      split
      all_goals next hread =>
        have hlater := hboot.trans (h.of_read hread :)
        first
        | exact hlater
        | exact hlater.trans (clock_members h _ _)
        | split
          · exact hlater
          · split
            · exact hlater
            · exact hlater.trans (clock_members h _ _)

lemma clock_refresh (h : Sound os clock) (pairs : List (Recorded × State)) (base : ℕ)
    (m : Request σ) : clock m.world ≤ clock (refresh os base pairs m).2.world := by
  induction pairs generalizing base m with
  | nil => exact le_rfl
  | cons pair rest ih =>
    obtain ⟨rec, state⟩ := pair
    rw [refresh]
    refine le_trans ?_ (ih _ _)
    rw [refreshEntry.eq_def]
    split
    · exact le_rfl
    · have hobserve := clock_observe h m base rec
      rw [observeEntry]
      split
      · next heq =>
        rw [heq] at hobserve
        exact hobserve
      · exact hobserve

lemma wait_ends (h : Sound os clock) (deadline : Instant) (fuel : ℕ) (states : List State)
    (m : Request σ) (hfuel : deadline ≤ clock m.world + fuel * pollInterval) :
    ((wait os recorded deadline (fuel + 1) states m).1).isSome = true := by
  induction fuel generalizing states m with
  | zero =>
    rw [wait]
    dsimp only
    split
    · rfl
    · have hrefresh := clock_refresh h (recorded.zip states) 0 m
      have hchecked := (h.now (refresh os 0 (recorded.zip states) m).2.world).1
      rw [Nat.zero_mul, Nat.add_zero] at hfuel
      rw [if_pos (hfuel.trans (hrefresh.trans hchecked))]
      rfl
  | succ fuel ih =>
    rw [wait]
    dsimp only
    split
    · rfl
    · split
      · rfl
      · next hearly =>
        apply ih
        have hrefresh := clock_refresh h (recorded.zip states) 0 m
        obtain ⟨hchecked, hafter⟩ := h.now (refresh os 0 (recorded.zip states) m).2.world
        generalize os.now (refresh os 0 (recorded.zip states) m).2.world = checked
          at hearly hchecked hafter ⊢
        obtain ⟨hnow, hlater⟩ := h.now checked.2
        generalize os.now checked.2 = now at hnow hlater ⊢
        have hsleep := h.sleep (min pollInterval (deadline - now.1)) now.2
        change deadline ≤ clock (os.sleep (min pollInterval (deadline - now.1)) now.2) +
          fuel * pollInterval
        rw [Nat.succ_mul] at hfuel
        have hreach : min (clock m.world + pollInterval) deadline ≤
            clock (os.sleep (min pollInterval (deadline - now.1)) now.2) := by
          refine le_trans ?_ hsleep
          rcases Nat.le_total pollInterval (deadline - now.1) with hp | hp
          · rw [min_eq_left hp]
            exact (min_le_left _ _).trans (Nat.add_le_add_right
              (hrefresh.trans (hchecked.trans (hafter.trans (hnow.trans hlater)))) _)
          · rw [min_eq_right hp]
            refine (min_le_right _ _).trans (le_trans ?_ (Nat.add_le_add_right hlater _))
            exact Nat.sub_le_iff_le_add'.mp le_rfl
        rcases min_le_iff.mp hreach with hr | hr
        · refine hfuel.trans (le_trans (le_of_eq ?_) (Nat.add_le_add_right hr _))
          rw [Nat.add_assoc, Nat.add_comm (fuel * pollInterval)]
        · exact hr.trans (Nat.le_add_right _ _)

variable {seen : List (Observation σ)} {states states' : List State}

lemma observeEntry_state (m : Request σ) (entry : ℕ) (rec : Recorded) :
    (observeEntry os m entry rec).1 = (observe os m entry rec).1 := by
  rw [observeEntry]
  split
  · next heq => rw [heq]
  · rfl

def seenEntry (os : Os σ) (entry : ℕ) (m : Request σ) (rec : Recorded) :
    State → List (Observation σ)
  | .gone => []
  | _ => [⟨entry, m, (observeEntry os m entry rec).1⟩]

lemma refreshSeen_cons (base : ℕ) (rec : Recorded) (state : State)
    (rest : List (Recorded × State)) (m : Request σ) :
    refreshSeen os base ((rec, state) :: rest) m = seenEntry os base m rec state ++
      refreshSeen os (base + 1) rest (refreshEntry os m base rec state).2 := by
  cases state <;> rfl

lemma seenEntry_cases (os : Os σ) (entry : ℕ) (m : Request σ) (rec : Recorded) (state : State) :
    (state = .gone ∧ seenEntry os entry m rec state = [] ∧
      (refreshEntry os m entry rec state).1 = .gone) ∨
    (state ≠ .gone ∧ seenEntry os entry m rec state =
        [⟨entry, m, (observe os m entry rec).1⟩] ∧
      (refreshEntry os m entry rec state).1 = (observe os m entry rec).1) := by
  rw [← observeEntry_state]
  cases state with
  | gone => exact .inl ⟨rfl, rfl, rfl⟩
  | led => exact .inr ⟨nofun, rfl, rfl⟩
  | leaderless live => exact .inr ⟨nofun, rfl, rfl⟩
  | unknown why => exact .inr ⟨nofun, rfl, rfl⟩

lemma refreshSeen_mem (pairs : List (Recorded × State)) (base : ℕ) (m : Request σ) :
    ∀ o ∈ refreshSeen os base pairs m, ∃ (i : ℕ) (pair : Recorded × State),
      o.entry = base + i ∧ pairs[i]? = some pair ∧
        o.state = (observe os o.begun o.entry pair.1).1 := by
  induction pairs generalizing base m with
  | nil => rintro o ⟨⟩
  | cons pair rest ih =>
    obtain ⟨rec, state⟩ := pair
    rw [refreshSeen_cons]
    intro o ho
    rcases List.mem_append.mp ho with ho | ho
    · rcases seenEntry_cases os base m rec state with ⟨-, hs, -⟩ | ⟨-, hs, -⟩
      · rw [hs] at ho
        cases ho
      · rw [hs] at ho
        obtain rfl := List.mem_singleton.mp ho
        exact ⟨0, _, rfl, rfl, rfl⟩
    · obtain ⟨i, pair, hentry, hpair, hstate⟩ := ih _ _ o ho
      exact ⟨i + 1, pair, by omega, hpair, hstate⟩

lemma refreshSeen_distinct (pairs : List (Recorded × State)) (base : ℕ) (m : Request σ) :
    (refreshSeen os base pairs m).Pairwise fun o o' => o'.entry ≠ o.entry := by
  induction pairs generalizing base m with
  | nil => exact .nil
  | cons pair rest ih =>
    obtain ⟨rec, state⟩ := pair
    rw [refreshSeen_cons]
    rcases seenEntry_cases os base m rec state with ⟨-, hs, -⟩ | ⟨-, hs, -⟩
    · rw [hs]
      exact ih _ _
    · rw [hs]
      refine List.pairwise_cons.mpr ⟨?_, ih _ _⟩
      intro o ho
      obtain ⟨i, -, hentry, -⟩ := refreshSeen_mem rest (base + 1) _ o ho
      dsimp only
      omega

lemma refreshSeen_filter (pairs : List (Recorded × State)) (base : ℕ) (m : Request σ) (i : ℕ)
    (rec : Recorded) (state : State) (hpair : pairs[i]? = some (rec, state)) :
    (state = .gone ∧ (refreshSeen os base pairs m).filter (·.entry = base + i) = [] ∧
      (refresh os base pairs m).1[i]? = some .gone) ∨
    (state ≠ .gone ∧ ∃ o, (refreshSeen os base pairs m).filter (·.entry = base + i) = [o] ∧
      (refresh os base pairs m).1[i]? = some o.state) := by
  induction pairs generalizing base m i with
  | nil => cases hpair
  | cons pair rest ih =>
    obtain ⟨rec', state'⟩ := pair
    rw [refreshSeen_cons, List.filter_append, refresh]
    cases i with
    | zero =>
      obtain ⟨rfl, rfl⟩ := Prod.mk.inj (Option.some.inj hpair)
      have hrest : (refreshSeen os (base + 1) rest (refreshEntry os m base rec' state').2).filter
          (·.entry = base + 0) = [] := by
        apply List.filter_eq_nil_iff.mpr
        intro o ho
        obtain ⟨i, -, hentry, -⟩ := refreshSeen_mem rest (base + 1) _ o ho
        simp only [decide_eq_true_eq]
        omega
      rw [hrest, List.append_nil]
      rcases seenEntry_cases os base m rec' state' with ⟨hgone, hs, hr⟩ | ⟨hne, hs, hr⟩
      · left
        refine ⟨hgone, by rw [hs]; rfl, ?_⟩
        rw [List.getElem?_cons_zero, hr]
      · right
        refine ⟨hne, ⟨base, m, (observe os m base rec').1⟩, by rw [hs]; simp, ?_⟩
        rw [List.getElem?_cons_zero, hr]
    | succ i =>
      have hhead : (seenEntry os base m rec' state').filter (·.entry = base + (i + 1)) = [] := by
        apply List.filter_eq_nil_iff.mpr
        intro o ho
        rcases seenEntry_cases os base m rec' state' with ⟨-, hs, -⟩ | ⟨-, hs, -⟩
        · rw [hs] at ho
          cases ho
        · rw [hs] at ho
          obtain rfl := List.mem_singleton.mp ho
          simp
      rw [hhead, List.nil_append, List.getElem?_cons_succ, show base + (i + 1) = base + 1 + i by omega]
      exact ih (base + 1) _ i hpair

structure Watching (os : Os σ) (recorded : List Recorded) (seen : List (Observation σ))
    (states : List State) : Prop where
  one : states.length = recorded.length
  observed : ∀ o ∈ seen, ∃ rec, recorded[o.entry]? = some rec ∧
    o.state = (observe os o.begun o.entry rec).1
  absorbing : seen.Pairwise fun o o' => o.state = .gone → o'.entry ≠ o.entry
  gone : ∀ o ∈ seen, o.state = .gone → states[o.entry]? = some .gone
  held : ∀ entry, states[entry]? = some .gone →
    (seen.filter (·.entry = entry)).getLast?.map (·.state) = some .gone

def Lasting (recorded : List Recorded) (seen : List (Observation σ)) (states : List State) :
    Prop :=
  ∀ entry, entry < recorded.length →
    (seen.filter (·.entry = entry)).getLast?.map (·.state) = states[entry]?

lemma Watching.refresh (h : Watching os recorded seen states) (m : Request σ) :
    Watching os recorded (seen ++ refreshSeen os 0 (recorded.zip states) m)
        (refresh os 0 (recorded.zip states) m).1 ∧
      Lasting recorded (seen ++ refreshSeen os 0 (recorded.zip states) m)
        (RecordedGroups.refresh os 0 (recorded.zip states) m).1 := by
  have hlength : (recorded.zip states).length = recorded.length := by
    rw [List.length_zip, h.one, Nat.min_self]
  have hpair : ∀ entry, entry < recorded.length → ∃ rec state,
      recorded[entry]? = some rec ∧ states[entry]? = some state ∧
        (recorded.zip states)[entry]? = some (rec, state) := by
    intro entry hentry
    have hstate : entry < states.length := h.one ▸ hentry
    refine ⟨recorded[entry], states[entry], ?_, ?_, ?_⟩
    · exact List.getElem?_eq_getElem hentry
    · exact List.getElem?_eq_getElem _
    · exact List.getElem?_zip_eq_some.mpr
        ⟨List.getElem?_eq_getElem hentry, List.getElem?_eq_getElem _⟩
  have hfilter := @refreshSeen_filter σ os (recorded.zip states) 0 m
  have hnew : ∀ o ∈ refreshSeen os 0 (recorded.zip states) m, ∃ rec,
      recorded[o.entry]? = some rec ∧ o.state = (observe os o.begun o.entry rec).1 ∧
        states[o.entry]? ≠ some .gone ∧
          (RecordedGroups.refresh os 0 (recorded.zip states) m).1[o.entry]? = some o.state := by
    intro o ho
    obtain ⟨i, ⟨rec, state⟩, hentry, hp, hstate⟩ := refreshSeen_mem _ 0 m o ho
    obtain rfl : o.entry = i := by omega
    obtain ⟨hrec, hs⟩ := List.getElem?_zip_eq_some.mp hp
    have hmem : o ∈ (refreshSeen os 0 (recorded.zip states) m).filter (·.entry = 0 + o.entry) :=
      List.mem_filter.mpr ⟨ho, by simp⟩
    rcases hfilter o.entry rec state hp with ⟨-, hnone, -⟩ | ⟨hne, o', hone, hresult⟩
    · rw [hnone] at hmem
      cases hmem
    · rw [hone] at hmem
      obtain rfl := List.mem_singleton.mp hmem
      refine ⟨rec, hrec, hstate, ?_, hresult⟩
      rw [hs]
      exact fun heq => hne (Option.some.inj heq)
  have hlast : Lasting recorded (seen ++ refreshSeen os 0 (recorded.zip states) m)
      (RecordedGroups.refresh os 0 (recorded.zip states) m).1 := by
    intro entry hentry
    obtain ⟨rec, state, -, hs, hp⟩ := hpair entry hentry
    rw [List.filter_append, List.getLast?_append]
    have hcase := hfilter entry rec state hp
    rw [Nat.zero_add] at hcase
    rcases hcase with ⟨rfl, hnone, hresult⟩ | ⟨-, o, hone, hresult⟩
    · rw [hnone, hresult]
      exact h.held entry hs
    · rw [hone, hresult]
      rfl
  refine ⟨⟨?_, ?_, ?_, ?_, ?_⟩, hlast⟩
  · rw [refresh_length, hlength]
  · intro o ho
    rcases List.mem_append.mp ho with ho | ho
    · exact h.observed o ho
    · obtain ⟨rec, hrec, hstate, -⟩ := hnew o ho
      exact ⟨rec, hrec, hstate⟩
  · refine List.pairwise_append.mpr ⟨h.absorbing, ?_, ?_⟩
    · apply (refreshSeen_distinct _ 0 m).imp
      intro o o' hne _
      exact hne
    · intro o ho o' ho' hgone heq
      obtain ⟨-, -, -, hne, -⟩ := hnew o' ho'
      rw [heq] at hne
      exact hne (h.gone o ho hgone)
  · intro o ho hgone
    rcases List.mem_append.mp ho with ho | ho
    · obtain ⟨rec, hrec, -⟩ := h.observed o ho
      obtain ⟨rec', state, -, hs, hp⟩ := hpair o.entry (List.getElem?_eq_some_iff.mp hrec).1
      rcases hfilter o.entry rec' state hp with ⟨-, -, hresult⟩ | ⟨hne, -⟩
      · exact hresult
      · exact absurd (Option.some.inj (hs.symm.trans (h.gone o ho hgone))) hne
    · obtain ⟨-, -, -, -, hresult⟩ := hnew o ho
      rw [hresult, hgone]
  · intro entry hgone
    have hentry : entry < recorded.length := by
      rw [← hlength, ← refresh_length (recorded.zip states) 0 m]
      exact (List.getElem?_eq_some_iff.mp hgone).1
    rw [hlast entry hentry, hgone]

lemma Watching.wait (deadline : Instant) (fuel : ℕ) (seen : List (Observation σ))
    (states : List State) (m : Request σ) (h : Watching os recorded seen states)
    (hw : wait os recorded deadline fuel states m = (some states', m')) :
    Watching os recorded (seen ++ waitSeen os recorded deadline fuel states m) states' ∧
      Lasting recorded (seen ++ waitSeen os recorded deadline fuel states m) states' := by
  induction fuel generalizing seen states m with
  | zero => cases hw
  | succ fuel ih =>
    have hrefresh := h.refresh m
    rw [RecordedGroups.wait] at hw
    rw [waitSeen]
    dsimp only at hw ⊢
    split at hw
    · next hnone =>
      rw [if_pos hnone]
      obtain rfl := Option.some.inj (Prod.mk.inj hw).1
      exact hrefresh
    · next hsome =>
      rw [if_neg hsome]
      split at hw
      · next hlate =>
        rw [if_pos hlate]
        obtain rfl := Option.some.inj (Prod.mk.inj hw).1
        exact hrefresh
      · next hearly =>
        rw [if_neg hearly, ← List.append_assoc]
        exact ih _ _ _ hrefresh.1 hw

lemma Watching.stages (fuel : ℕ) (l : List (ℕ × Duration)) (seen : List (Observation σ))
    (states : List State) (m : Request σ) (h : Watching os recorded seen states)
    (hlast : Lasting recorded seen states)
    (hs : stopStages os recorded fuel l states m = (some states', m')) :
    Watching os recorded (seen ++ stagesSeen os recorded fuel l states m) states' ∧
      Lasting recorded (seen ++ stagesSeen os recorded fuel l states m) states' := by
  induction l generalizing seen states m with
  | nil =>
    obtain rfl := Option.some.inj (Prod.mk.inj hs).1
    rw [stagesSeen, List.append_nil]
    exact ⟨h, hlast⟩
  | cons stage rest ih =>
    obtain ⟨number, grace⟩ := stage
    rw [stopStages] at hs
    rw [stagesSeen]
    split at hs
    · next hnone =>
      obtain rfl := Option.some.inj (Prod.mk.inj hs).1
      rw [if_pos hnone, List.append_nil]
      exact ⟨h, hlast⟩
    · next hsome =>
      rw [if_neg hsome]
      dsimp only at hs ⊢
      split at hs
      · next states2 m2 hw =>
        obtain ⟨hwatch, hlast2⟩ := h.wait _ _ _ _ _ hw
        try rw [hw]
        rw [← List.append_assoc]
        exact ih _ _ _ hwatch hlast2 hs
      · cases hs

def Malformed (error : IoError) : Prop := error.kind = .invalidData

lemma listing_of_procMembers (pgid left : ℕ) (found pids : List ℕ) (m : Request σ)
    (h : procMembers os pgid left found m = (.ok pids, m')) :
    ∃ new, pids = found ++ new ∧ Listing Malformed os pgid m new m' := by
  induction left generalizing found m with
  | zero =>
    rw [procMembers.eq_def] at h
    dsimp only at h
    split at h
    · next w hnext =>
      obtain ⟨hpids, rfl⟩ := Prod.mk.inj h
      obtain rfl := Except.ok.inj hpids
      exact ⟨[], (List.append_nil _).symm, .done hnext⟩
    · cases h
  | succ left ih =>
    rw [procMembers.eq_def] at h
    dsimp only at h
    split at h
    · next w hnext =>
      obtain ⟨hpids, rfl⟩ := Prod.mk.inj h
      obtain rfl := Except.ok.inj hpids
      exact ⟨[], (List.append_nil _).symm, .done hnext⟩
    · next w hnext =>
      split at h
      · cases h
      · obtain ⟨new, hpids, hrest⟩ := ih _ _ h
        exact ⟨new, hpids, .other hnext hrest⟩
      · next pid =>
        split at h
        · next record m1 hread =>
          obtain ⟨new, hpids, hrest⟩ := ih _ _ h
          by_cases hinside : record.identity.pgid = pgid
          · rw [if_pos hinside, List.append_assoc] at hpids
            exact ⟨pid :: new, hpids, .member hnext hread hinside hrest⟩
          · rw [if_neg hinside] at hpids
            exact ⟨new, hpids, .stranger hnext hread hinside hrest⟩
        · next m1 hread =>
          obtain ⟨new, hpids, hrest⟩ := ih _ _ h
          exact ⟨new, hpids, .ended hnext hread hrest⟩
        · next error m1 hread =>
          split at h
          · next hpass =>
            obtain ⟨new, hpids, hrest⟩ := ih _ _ h
            exact ⟨new, hpids, .unreadable hnext hread hpass hrest⟩
          · cases h

lemma inventory_of_groupMembers {pgid : ℕ} {pids : List ℕ}
    (h : groupMembers os m pgid = (.ok pids, m')) : Inventory Malformed os pgid m pids m' := by
  rw [groupMembers] at h
  split at h
  · next hplatform =>
    split at h
    · cases h
    · next w hopen =>
      obtain ⟨new, rfl, hlisting⟩ := listing_of_procMembers _ _ _ _ _ h
      exact .linux hplatform hopen hlisting
  · next hplatform =>
    obtain ⟨hpids, rfl⟩ := Prod.mk.inj h
    exact .macos hplatform (Prod.ext hpids rfl)

lemma noneLive_of_liveMembers (pgid : ℕ) (pids : List ℕ) (live : List ProcessIdentity)
    (m : Request σ) (h : liveMembers os pgid pids live m = (.ok [], m')) :
    live = [] ∧ NoneLive os pgid pids m := by
  induction pids generalizing live m with
  | nil => exact ⟨Except.ok.inj (Prod.mk.inj h).1, trivial⟩
  | cons pid rest ih =>
    rcases hread : read os m none pid with ⟨error | _ | record, m1⟩
    · simp only [liveMembers, hread] at h
      cases h
    · simp only [liveMembers, NoneLive, hread] at h ⊢
      exact ih live m1 h
    · simp only [liveMembers, NoneLive, hread] at h ⊢
      obtain ⟨hlive, hrest⟩ := ih _ m1 h
      split at hlive
      · simp at hlive
      · next hout =>
        refine ⟨hlive, fun hinside => ?_, hrest⟩
        by_contra hexited
        exact hout ⟨hinside, by simpa using hexited⟩

lemma emptied_of_members {pgid : ℕ} (h : members os m pgid = (.gone, m')) :
    ∃ pids m2, Inventory Malformed os pgid m pids m2 ∧ NoneLive os pgid pids m2 := by
  rw [members] at h
  split at h
  · cases h
  · next pids m2 hgroup =>
    split at h
    · cases h
    · next live m3 hlive =>
      have hnone : live = [] := by
        by_contra hne
        rw [if_neg (by simpa using hne)] at h
        cases h
      rw [hnone] at hlive
      exact ⟨pids, m2, inventory_of_groupMembers hgroup,
        (noneLive_of_liveMembers pgid pids [] m2 hlive).2⟩

lemma observe_evidence (h : Sound os clock)
    (hgone : (observe os m entry (.group expected)).1 = .gone) :
    Evidence Malformed os m entry expected := by
  have hemptied : ∀ {m1 : Request σ}, (members os m1 expected.pgid).1 = .gone →
      ∃ pids m2, Inventory Malformed os expected.pgid m1 pids m2 ∧
        NoneLive os expected.pgid pids m2 :=
    fun hm => emptied_of_members (Prod.ext hm rfl)
  rw [observe] at hgone
  split at hgone
  · next hboot => exact .earlierBoot hboot
  · cases hgone
  · next w hboot =>
    split at hgone
    · next leader m1 hread =>
      split at hgone
      · next hother =>
        have hpid : leader.identity.pid = expected.pid :=
          h.read_pid _ _ _ (congrArg Prod.fst hread)
        refine .replaced hboot hread hpid fun hstart => ?_
        have hsame := ProcessIdentity.sameProcess_iff.mpr ⟨hpid, hstart⟩
        rw [hsame] at hother
        cases hother
      · split at hgone
        · cases hgone
        · obtain ⟨pids, m2, hinventory, hnone⟩ := hemptied hgone
          exact .emptied hboot hread hinventory hnone
    · next m1 hread =>
      obtain ⟨pids, m2, hinventory, hnone⟩ := hemptied hgone
      exact .emptied hboot hread hinventory hnone
    · cases hgone

lemma verdict_of_watching (h : Sound os clock) {groups : List Json}
    (hwatch : Watching os (groups.map (parseIdentity os.platform)) seen states)
    (hlast : Lasting (groups.map (parseIdentity os.platform)) seen states) :
    Verdict Malformed os groups seen states := by
  have hobserved : ∀ o ∈ seen, ∃ value, groups[o.entry]? = some value ∧
      o.state = (observe os o.begun o.entry (parseIdentity os.platform value)).1 := by
    intro o ho
    obtain ⟨rec, hrec, hstate⟩ := hwatch.observed o ho
    rw [List.getElem?_map, Option.map_eq_some_iff] at hrec
    obtain ⟨value, hvalue, rfl⟩ := hrec
    exact ⟨value, hvalue, hstate⟩
  refine ⟨?_, ?_, hobserved, hwatch.absorbing, ?_, ?_⟩
  · rw [hwatch.one, List.length_map]
  · intro entry hentry
    exact hlast entry (by rwa [List.length_map])
  · intro o ho value hvalue hshape
    obtain ⟨value', hvalue', hstate⟩ := hobserved o ho
    obtain rfl := Option.some.inj (hvalue.symm.trans hvalue')
    cases hparse : parseIdentity os.platform value with
    | invalid reason =>
      rw [hparse] at hstate
      exact ⟨_, hstate⟩
    | group id => exact absurd ⟨id, Beam.parseIdentity_iff.mp hparse⟩ hshape
  · intro o ho hgone
    obtain ⟨value, hvalue, hstate⟩ := hobserved o ho
    cases hparse : parseIdentity os.platform value with
    | invalid reason =>
      rw [hparse, hgone] at hstate
      cases hstate
    | group expected =>
      rw [hparse, hgone] at hstate
      exact ⟨value, expected, hvalue, Beam.parseIdentity_iff.mp hparse,
        observe_evidence h hstate.symm⟩

lemma turns_enough {fuel : ℕ} (grace : ℕ) (h : turns grace ≤ fuel + 1) :
    grace ≤ fuel * pollInterval := by
  have hpoll : pollInterval = 20000000 := rfl
  rw [turns, hpoll] at h
  rw [hpoll]
  omega

lemma stopStages_ends (h : Sound os clock) (fuel : ℕ) (l : List (ℕ × Duration))
    (hfuel : ∀ stage ∈ l, turns stage.2 ≤ fuel) (states : List State) (m : Request σ) :
    ∃ states' m', stopStages os recorded fuel l states m = (some states', m') := by
  induction l generalizing states m with
  | nil => exact ⟨states, m, rfl⟩
  | cons stage rest ih =>
    obtain ⟨number, grace⟩ := stage
    rw [stopStages]
    split
    · exact ⟨states, m, rfl⟩
    · dsimp only
      have hstage : turns grace ≤ fuel := hfuel _ List.mem_cons_self
      have hone : 1 ≤ fuel := le_trans (Nat.le_add_left 1 _) hstage
      obtain ⟨turn, rfl⟩ : ∃ turn, fuel = turn + 1 :=
        ⟨fuel - 1, (Nat.sub_add_cancel hone).symm⟩
      generalize signalAll os number 0 (recorded.zip states) m = m1
      have hstarted := (h.now m1.world).2
      have hend := @wait_ends σ os recorded clock h ((os.now m1.world).1 + grace) turn states
        { m1 with world := (os.now m1.world).2 }
        (Nat.add_le_add hstarted (turns_enough grace hstage))
      rcases hw : wait os recorded ((os.now m1.world).1 + grace) (turn + 1) states
        { m1 with world := (os.now m1.world).2 } with ⟨_ | states2, m2⟩
      · rw [hw] at hend
        cases hend
      · exact ih (fun stage hmem => hfuel stage (List.mem_cons_of_mem _ hmem)) states2 m2

def GroupsRequest.turns (request : GroupsRequest) (interrupt : Option Duration) : ℕ :=
  max (RecordedGroups.turns (interrupt.getD 0))
    (max (RecordedGroups.turns (millis request.killGraceMs)) (RecordedGroups.turns confirmWindow))

structure Answered (passed : IoError → Prop) (os : Os σ) (errorReason : IoError → String)
    (fuel : ℕ) (request : GroupsRequest) (interrupt : Option Duration) (m : Request σ)
    (states : List State) : Prop where
  reply : (run os errorReason fuel request m).1 =
    some (.ok ⟨states.map (State.report errorReason), states.all State.isGone⟩)
  verdict : Verdict passed os request.groups
    (answerSeen os fuel request.op (request.groups.map (parseIdentity os.platform)) interrupt
      (millis request.killGraceMs) m) states
  check : request.op = .check → (run os errorReason fuel request m).2.sent = m.sent
  signalled : ∀ x ∈ (run os errorReason fuel request m).2.sent, x ∈ m.sent ∨
    ∃ value id, request.groups[x.entry]? = some value ∧ Shape os.platform value id
  /-- A stop goes through at most three stages, none of them cut short while a group is present. -/
  stages : request.op = .stop →
    (stopReached os fuel (request.groups.map (parseIdentity os.platform)) interrupt
      (millis request.killGraceMs) m).length ≤ 3 ∧
    ∀ s ∈ stopReached os fuel (request.groups.map (parseIdentity os.platform)) interrupt
      (millis request.killGraceMs) m,
      Ended os (request.groups.map (parseIdentity os.platform)) fuel s

lemma watching_first (os : Os σ) (recorded : List Recorded) (m : Request σ) :
    Watching os recorded (refreshSeen os 0 (recorded.map fun r => (r, .led)) m)
        (observeAll os 0 recorded m).1 ∧
      Lasting recorded (refreshSeen os 0 (recorded.map fun r => (r, .led)) m)
        (observeAll os 0 recorded m).1 := by
  have hstart : Watching os recorded [] (recorded.map fun _ => State.led) := by
    refine ⟨List.length_map _, nofun, .nil, nofun, ?_⟩
    intro entry hgone
    rw [List.getElem?_map, Option.map_eq_some_iff] at hgone
    obtain ⟨_, -, hled⟩ := hgone
    cases hled
  have hzip : recorded.zip (recorded.map fun _ => State.led) =
      recorded.map fun r => (r, State.led) := by
    have h := @List.zip_map' _ _ _ id (fun _ : Recorded => State.led) recorded
    rwa [List.map_id] at h
  have h := hstart.refresh m
  rwa [hzip, List.nil_append, ← observeAll_eq] at h

lemma stages_length (interrupt : Option Duration) (term : Duration) :
    (stages interrupt term).length ≤ 3 := by
  cases interrupt with
  | none => exact Nat.le_succ 2
  | some grace => exact le_rfl

/-- Every accepted request is answered: one state for each entry, gone only with evidence, and a
stop that ends. -/
theorem run_answered (os : Os σ) (clock : σ → Instant) (h : Sound os clock)
    (errorReason : IoError → String) (request : GroupsRequest) (interrupt : Option Duration)
    (hsize : request.groups.length ≤ maxGroups) (hinterrupt : request.interrupt = .ok interrupt)
    (hkill : request.killGraceMs ≤ maxGraceMs) (world : σ) (fuel : ℕ)
    (hfuel : request.turns interrupt ≤ fuel) :
    ∃ states, Answered Malformed os errorReason fuel request interrupt ⟨world, []⟩ states := by
  generalize hrecorded : request.groups.map (parseIdentity os.platform) = recorded
  have hrun : run os errorReason fuel request ⟨world, []⟩ =
      ((answer os fuel request.op recorded interrupt (millis request.killGraceMs)
          ⟨world, []⟩).1.map fun states =>
        .ok ⟨states.map (State.report errorReason), states.all State.isGone⟩,
        (answer os fuel request.op recorded interrupt (millis request.killGraceMs)
          ⟨world, []⟩).2) := by
    rw [run, if_neg (Nat.not_lt.mpr hsize), hinterrupt, hrecorded]
    exact if_neg (Nat.not_lt.mpr hkill)
  have hfirst := watching_first os recorded ⟨world, []⟩
  have hquiet : (observeAll os 0 recorded ⟨world, []⟩).2.sent = [] := by
    rw [observeAll_eq, sent_refresh]
    rfl
  cases hop : request.op with
  | check =>
    rw [hop] at hrun
    have hsent : (run os errorReason fuel request ⟨world, []⟩).2.sent = [] := by
      rw [hrun]
      exact hquiet
    refine ⟨(observeAll os 0 recorded ⟨world, []⟩).1, ?_, ?_, fun _ => hsent, ?_, ?_⟩
    · rw [hrun]
      rfl
    · rw [hop, hrecorded]
      subst hrecorded
      exact verdict_of_watching h hfirst.1 hfirst.2
    · intro x hx
      rw [hsent] at hx
      cases hx
    · intro hstop
      rw [hop] at hstop
      cases hstop
  | stop =>
    rw [hop] at hrun
    have hturns : ∀ stage ∈ stages interrupt (millis request.killGraceMs),
        turns stage.2 ≤ fuel := by
      obtain ⟨hint, hrest⟩ := max_le_iff.mp hfuel
      obtain ⟨hterm, hconfirm⟩ := max_le_iff.mp hrest
      intro stage hmem
      rw [stages, List.mem_append, List.mem_map] at hmem
      rcases hmem with ⟨grace, hgrace, rfl⟩ | hmem
      · obtain rfl := Option.mem_toList.mp hgrace
        exact hint
      · rcases List.mem_pair.mp hmem with rfl | rfl
        · exact hterm
        · exact hconfirm
    obtain ⟨states, m', hstages⟩ := stopStages_ends h fuel _ hturns
      (observeAll os 0 recorded ⟨world, []⟩).1 (observeAll os 0 recorded ⟨world, []⟩).2
    have hstop : stop os fuel recorded interrupt (millis request.killGraceMs) ⟨world, []⟩ =
        (some states, m') := hstages
    have hlog : m'.sent = ((stopReached os fuel recorded interrupt (millis request.killGraceMs)
        ⟨world, []⟩).map (Stage.sent os recorded)).reverse.flatten := by
      have hsent := @sent_stopStages σ os recorded fuel
        (stages interrupt (millis request.killGraceMs))
        (observeAll os 0 recorded ⟨world, []⟩).1 (observeAll os 0 recorded ⟨world, []⟩).2
      rw [hstages, hquiet, List.append_nil] at hsent
      exact hsent
    refine ⟨states, ?_, ?_, ?_, ?_, ?_⟩
    · rw [hrun, answer, hstop]
      rfl
    · obtain ⟨hwatch, hlast⟩ := hfirst.1.stages fuel _ _ _ _ hfirst.2 hstages
      rw [hop, hrecorded]
      subst hrecorded
      exact verdict_of_watching h hwatch hlast
    · intro hcheck
      rw [hop] at hcheck
      cases hcheck
    · intro x hx
      right
      have hx' : x ∈ m'.sent := by
        rw [hrun, answer, hstop] at hx
        exact hx
      rw [hlog, List.mem_flatten] at hx'
      obtain ⟨l, hl, hxl⟩ := hx'
      rw [List.mem_reverse, List.mem_map] at hl
      obtain ⟨s, -, rfl⟩ := hl
      obtain ⟨expected, state, hrec, -⟩ := (@Stage.sent_spec σ os recorded s).1 x hxl
      rw [← hrecorded, List.getElem?_map, Option.map_eq_some_iff] at hrec
      obtain ⟨value, hvalue, hparse⟩ := hrec
      exact ⟨value, expected, hvalue, Beam.parseIdentity_iff.mp hparse⟩
    · intro _
      rw [hrecorded]
      constructor
      · have hprefix := (@reached_stages σ os recorded fuel
          (stages interrupt (millis request.killGraceMs))
          (observeAll os 0 recorded ⟨world, []⟩).1
          (observeAll os 0 recorded ⟨world, []⟩).2).length_le
        rw [List.length_map] at hprefix
        exact hprefix.trans (stages_length _ _)
      · intro s _ states' m2 hw hpresent
        exact wait_present _ fuel s.states states' _ m2 hw hpresent

def lasting : Os Instant where
  platform := .macos
  read pid w := (.ok (some ⟨⟨pid, pid, .macos 1 0⟩, 1, false⟩), w)
  nextEntry w := (none, w)
  openProc w := (.ok (), w)
  groupMembers _ w := (.ok [], w)
  bootId w := (.error (.custom .unsupported), w)
  bootTime w := (.ok (0, 0), w)
  kill _ _ w := (.ok (), w)
  now w := (w, w)
  sleep duration w := w + duration

lemma lasting_sound : Sound lasting id where
  read_pid := by
    rintro pid w r hr
    obtain rfl := Option.some.inj (Except.ok.inj hr)
    rfl
  now _ := ⟨le_rfl, le_rfl⟩
  sleep _ _ := le_rfl
  read _ _ := le_rfl
  nextEntry _ := le_rfl
  openProc _ := le_rfl
  groupMembers _ _ := le_rfl
  bootId _ := le_rfl
  bootTime _ := le_rfl

theorem run_answered_stop : ∃ states, Answered Malformed lasting (fun _ => "error") 1000
    ⟨.stop, [leaderGroup, .null, leaderGroup], true, some 100, 5000⟩ (some (millis 100)) ⟨0, []⟩
      states :=
  run_answered lasting id lasting_sound _ _ _ (by decide) rfl (by decide) 0 1000 (by decide)

def unparsed : Os ℕ where
  platform := .linux
  read pid n := (if pid = 7 then .error (.custom .invalidData) else .ok none, n)
  nextEntry n := if n = 0 then (some (.ok (some 7)), 1) else (none, n)
  openProc n := (.ok (), n)
  groupMembers _ n := (.ok [], n)
  bootId n := (.ok "b\n", n)
  bootTime n := (.error (.custom .unsupported), n)
  kill _ _ n := (.ok (), n)
  now n := (n, n)
  sleep duration n := n + duration

def linuxGroup : Json :=
  .object [("pid", .int 5), ("pgid", .int 5),
    ("start_time", .object [("kind", .string "linux"), ("boot_id", .string "b"),
      ("ticks", .int 1)])]

/-- A group is gone, and the stop of it confirmed, after an inventory that passed over a
process. -/
theorem run_gone_incomplete :
    (run unparsed (fun _ => "error") 1000 ⟨.check, [linuxGroup], false, none, 5000⟩ ⟨0, []⟩).1 =
        some (.ok ⟨[⟨"gone", none⟩], true⟩) ∧
      ∀ states, ¬Answered (fun _ => False) unparsed (fun _ => "error") 1000
        ⟨.check, [linuxGroup], false, none, 5000⟩ none ⟨0, []⟩ states := by
  refine ⟨by decide, fun states h => ?_⟩
  obtain ⟨value, expected, hvalue, hshape, hevidence⟩ :=
    h.verdict.evidence ⟨0, ⟨0, []⟩, .gone⟩ List.mem_cons_self rfl
  obtain rfl := Option.some.inj hvalue
  have hparse : parseIdentity .linux linuxGroup = .group expected :=
    Beam.parseIdentity_iff.mpr hshape
  obtain rfl : (⟨5, 5, .linux "b" 1⟩ : ProcessIdentity) = expected :=
    Recorded.group.inj hparse
  cases hevidence with
  | earlierBoot hboot => cases hboot
  | replaced hboot hfound _ _ =>
    obtain ⟨-, rfl⟩ := Prod.mk.inj hboot
    cases hfound
  | emptied hboot hfound hinventory _ =>
    obtain ⟨-, rfl⟩ := Prod.mk.inj hboot
    obtain ⟨-, rfl⟩ := Prod.mk.inj hfound
    cases hinventory with
    | macos hplatform _ => cases hplatform
    | linux _ hopen hlisting =>
      obtain ⟨-, rfl⟩ := Prod.mk.inj hopen
      cases hlisting with
      | done hnext => cases hnext
      | other hnext _ => cases hnext
      | member hnext hread _ _ =>
        cases hnext
        cases hread
      | stranger hnext hread _ _ =>
        cases hnext
        cases hread
      | ended hnext hread _ =>
        cases hnext
        cases hread
      | unreadable _ _ hpass _ => exact hpass

end Forcola.Native.RecordedGroups
