import Mathlib.Data.List.Infix
import Forcola.Native.RecordedStop

/-! The stages of a stop request, and which groups each one signals. -/

namespace Forcola.Native.RecordedGroups

structure Signal where
  entry : ℕ
  target : ℤ
  number : ℕ
  accepted : Bool
deriving DecidableEq, Repr

def accepted : Io Unit → Bool
  | .ok () => true
  | .error _ => false

def Event.signal? : Event → Option Signal
  | .kill entry target number answer => some ⟨entry, target, number, accepted answer⟩
  | _ => none

variable {σ : Type}

def Request.sent (m : Request σ) : List Signal :=
  m.log.filterMap Event.signal?

def verifiesMembers (os : Os σ) (pgid : ℕ) : List ProcessIdentity → Request σ → Bool
  | [], _ => false
  | member :: rest, m =>
    match read os m none member.pid with
    | (.ok (some current), m) =>
      if current.identity.sameProcess member ∧ current.identity.pgid = pgid ∧ !current.exited ∧
          member.pid ≤ i32Max then true
      else verifiesMembers os pgid rest m
    | (_, m) => verifiesMembers os pgid rest m

def verifiesLeft (os : Os σ) (m : Request σ) (expected : ProcessIdentity) : Bool :=
  match members os m expected.pgid with
  | (.leaderless live, m) => verifiesMembers os expected.pgid live m
  | _ => false

def verifies (os : Os σ) (m : Request σ) (expected : ProcessIdentity) : State → Bool
  | .led =>
    match read os m none expected.pid with
    | (.ok (some leader), m) =>
      if leader.identity = expected ∧ !leader.exited then true else verifiesLeft os m expected
    | (_, m) => verifiesLeft os m expected
  | .leaderless live => verifiesMembers os expected.pgid live m
  | .gone | .unknown _ => false

structure Stage (σ : Type) where
  number : ℕ
  grace : Duration
  states : List State
  begun : Request σ

namespace Stage

variable (os : Os σ) (recorded : List Recorded)

def signalled (s : Stage σ) : Request σ :=
  signalAll os s.number 0 (recorded.zip s.states) s.begun

def turn (s : Stage σ) (entry : ℕ) : Request σ :=
  signalAll os s.number 0 ((recorded.zip s.states).take entry) s.begun

def sent (s : Stage σ) : List Signal :=
  (s.signalled os recorded).sent.take
    ((s.signalled os recorded).sent.length - s.begun.sent.length)

def started (s : Stage σ) : Instant :=
  (os.now (s.signalled os recorded).world).1

def waited (fuel : ℕ) (s : Stage σ) : Option (List State) × Request σ :=
  wait os recorded (s.started os recorded + s.grace) fuel s.states
    { s.signalled os recorded with world := (os.now (s.signalled os recorded).world).2 }

def verifies (s : Stage σ) (entry : ℕ) : Bool :=
  match recorded[entry]?, s.states[entry]? with
  | some (.group expected), some state =>
    RecordedGroups.verifies os (s.turn os recorded entry) expected state
  | _, _ => false

def signals (s : Stage σ) (expected : ProcessIdentity) : Bool :=
  (s.sent os recorded).any fun x => recorded[x.entry]? = some (.group expected)

end Stage

def reached (os : Os σ) (recorded : List Recorded) (fuel : ℕ) :
    List (ℕ × Duration) → List State → Request σ → List (Stage σ)
  | [], _, _ => []
  | (number, grace) :: rest, states, m =>
    if !states.any State.present then []
    else
      let s : Stage σ := ⟨number, grace, states, m⟩
      match s.waited os recorded fuel with
      | (some states, m) => s :: reached os recorded fuel rest states m
      | (none, _) => [s]

def stopReached (os : Os σ) (fuel : ℕ) (recorded : List Recorded) (interrupt : Option Duration)
    (term : Duration) (m : Request σ) : List (Stage σ) :=
  let r := observeAll os 0 recorded m
  reached os recorded fuel (stages interrupt term) r.1 r.2

inductive Turn (expected : ProcessIdentity) (entry number : ℕ) : List Signal → Prop
  | group : Turn expected entry number [⟨entry, -(expected.pgid : ℤ), number, true⟩]
  | members (live : List ProcessIdentity) (new : List Signal)
      (own : ∀ x ∈ new, x.entry = entry ∧ x.number = number)
      (once : (new.reverse.map Signal.target).Sublist (live.map fun member => (member.pid : ℤ))) :
      Turn expected entry number new
  | refused (live : List ProcessIdentity) (new : List Signal)
      (own : ∀ x ∈ new, x.entry = entry ∧ x.number = number)
      (once : (new.reverse.map Signal.target).Sublist (live.map fun member => (member.pid : ℤ))) :
      Turn expected entry number (new ++ [⟨entry, -(expected.pgid : ℤ), number, false⟩])

variable {os : Os σ} {recorded : List Recorded} {m m' : Request σ} {entry : ℕ}
variable {expected : ProcessIdentity}

lemma sent_read {own : Option ℕ} {pid : ℕ} {answer : Io (Option ProcessRecord)}
    (h : read os m own pid = (answer, m')) : m'.sent = m.sent := by
  have hlog : (read os m own pid).2.sent = m'.sent := congrArg (·.2.sent) h
  rw [← hlog]
  rfl

lemma sent_kill (entry : ℕ) (target : ℤ) (number : ℕ) :
    (kill os m entry target number).2.sent =
      ⟨entry, target, number, accepted (kill os m entry target number).1⟩ :: m.sent :=
  rfl

lemma sent_procMembers (pgid left : ℕ) (found : List ℕ) (m : Request σ) :
    (procMembers os pgid left found m).2.sent = m.sent := by
  induction left generalizing found m with
  | zero =>
    rw [procMembers.eq_def]
    dsimp only
    split <;> rfl
  | succ left ih =>
    rw [procMembers.eq_def]
    dsimp only
    split
    · rfl
    · split
      · rfl
      · apply ih
      · split
        all_goals next hread =>
          first
          | exact (ih _ _).trans (sent_read hread :)
          | split
            · exact (ih _ _).trans (sent_read hread :)
            · exact (sent_read hread :)

lemma sent_groupMembers (m : Request σ) (pgid : ℕ) : (groupMembers os m pgid).2.sent = m.sent := by
  rw [groupMembers]
  split
  · split
    · rfl
    · exact sent_procMembers pgid _ [] _
  · rfl

lemma sent_liveMembers (pgid : ℕ) (pids : List ℕ) (live : List ProcessIdentity) (m : Request σ) :
    (liveMembers os pgid pids live m).2.sent = m.sent := by
  induction pids generalizing live m with
  | nil => rfl
  | cons pid rest ih =>
    rw [liveMembers]
    split
    · next hread => exact (ih _ _).trans (sent_read hread)
    · next hread => exact (ih _ _).trans (sent_read hread)
    · next hread => exact sent_read hread

lemma sent_members (m : Request σ) (pgid : ℕ) : (members os m pgid).2.sent = m.sent := by
  have hgroup := @sent_groupMembers σ os m pgid
  rw [members]
  split
  · next h =>
    rw [h] at hgroup
    exact hgroup
  · next pids m1 h =>
    rw [h] at hgroup
    have hlive := @sent_liveMembers σ os pgid pids [] m1
    split
    all_goals next hl =>
      rw [hl] at hlive
      exact hlive.trans hgroup

lemma sent_observe (m : Request σ) (entry : ℕ) (rec : Recorded) :
    (observe os m entry rec).2.sent = m.sent := by
  cases rec with
  | invalid reason => rfl
  | group expected =>
    rw [observe]
    split
    · rfl
    · rfl
    · split
      · next hread =>
        split
        · exact (sent_read hread :)
        · split
          · exact (sent_read hread :)
          · exact (sent_members _ _).trans (sent_read hread :)
      · next hread => exact (sent_members _ _).trans (sent_read hread :)
      · next hread => exact (sent_read hread :)

lemma sent_observeEntry (m : Request σ) (entry : ℕ) (rec : Recorded) :
    (observeEntry os m entry rec).2.sent = m.sent := by
  have h := @sent_observe σ os m entry rec
  rw [observeEntry]
  split
  · next heq =>
    rw [heq] at h
    exact h
  · exact h

lemma sent_refresh (pairs : List (Recorded × State)) (base : ℕ) (m : Request σ) :
    (refresh os base pairs m).2.sent = m.sent := by
  induction pairs generalizing base m with
  | nil => rfl
  | cons pair rest ih =>
    rw [refresh]
    refine (ih _ _).trans ?_
    rw [refreshEntry.eq_def]
    split
    · rfl
    · apply sent_observeEntry

lemma sent_wait (deadline : Instant) (fuel : ℕ) (states : List State) (m : Request σ) :
    (wait os recorded deadline fuel states m).2.sent = m.sent := by
  induction fuel generalizing states m with
  | zero => rfl
  | succ fuel ih =>
    have hr := @sent_refresh σ os (recorded.zip states) 0 m
    rw [wait]
    dsimp only
    split
    · exact hr
    · split
      · exact hr
      · exact (ih _ _).trans hr

lemma sent_signalMembers (pgid number : ℕ) (live : List ProcessIdentity) (m : Request σ) :
    ∃ new, (signalMembers os entry pgid number live m).sent = new ++ m.sent ∧
      (∀ x ∈ new, x.entry = entry ∧ x.number = number) ∧
      (new.reverse.map Signal.target).Sublist (live.map fun member => (member.pid : ℤ)) ∧
      (new ≠ [] ↔ verifiesMembers os pgid live m = true) := by
  induction live generalizing m with
  | nil => exact ⟨[], rfl, by simp, .refl _, by simp [verifiesMembers]⟩
  | cons member rest ih =>
    have hskip : ∀ m1 : Request σ, m1.sent = m.sent →
        ∃ new, (signalMembers os entry pgid number rest m1).sent = new ++ m.sent ∧
          (∀ x ∈ new, x.entry = entry ∧ x.number = number) ∧
          (new.reverse.map Signal.target).Sublist
            ((member :: rest).map fun member => (member.pid : ℤ)) ∧
          (new ≠ [] ↔ verifiesMembers os pgid rest m1 = true) := by
      intro m1 hm1
      obtain ⟨new, hsent, hown, honce, hiff⟩ := ih m1
      rw [hm1] at hsent
      exact ⟨new, hsent, hown, honce.cons _, hiff⟩
    rcases hread : read os m none member.pid with ⟨error | _ | current, m1⟩
    · simp only [signalMembers, verifiesMembers, hread]
      exact hskip m1 (sent_read hread)
    · simp only [signalMembers, verifiesMembers, hread]
      exact hskip m1 (sent_read hread)
    · simp only [signalMembers, verifiesMembers, hread]
      split
      · obtain ⟨new, hsent, hown, honce, -⟩ := ih (kill os m1 entry member.pid number).2
        rw [sent_kill, sent_read hread] at hsent
        refine ⟨new ++ [_], by rw [hsent, List.append_assoc]; rfl, ?_, ?_, by simp⟩
        · intro x hx
          rcases List.mem_append.mp hx with hx | hx
          · exact hown x hx
          · obtain rfl := List.mem_singleton.mp hx
            exact ⟨rfl, rfl⟩
        · rw [List.reverse_append, List.map_append, List.map_cons]
          exact honce.cons_cons _
      · exact hskip m1 (sent_read hread)

lemma sent_signalLeft (number : ℕ) (m : Request σ) :
    ∃ (live : List ProcessIdentity) (new : List Signal),
      (signalLeft os m entry expected number).sent = new ++ m.sent ∧
        (∀ x ∈ new, x.entry = entry ∧ x.number = number) ∧
        (new.reverse.map Signal.target).Sublist (live.map fun member => (member.pid : ℤ)) ∧
        (new ≠ [] ↔ verifiesLeft os m expected = true) := by
  have hm := @sent_members σ os m expected.pgid
  rcases h : members os m expected.pgid with ⟨state, m1⟩
  rw [h] at hm
  simp only [signalLeft, verifiesLeft, h]
  cases state with
  | leaderless live =>
    obtain ⟨new, hsent, hrest⟩ := @sent_signalMembers σ os entry expected.pgid number live m1
    exact ⟨live, new, hsent.trans (congrArg _ hm), hrest⟩
  | gone => exact ⟨[], [], hm, by simp, .refl _, by simp⟩
  | led => exact ⟨[], [], hm, by simp, .refl _, by simp⟩
  | unknown why => exact ⟨[], [], hm, by simp, .refl _, by simp⟩

lemma Turn.none (expected : ProcessIdentity) (entry number : ℕ) : Turn expected entry number [] :=
  .members [] [] (by simp) (.refl _)

lemma sent_signal (number : ℕ) (state : State) (m : Request σ) :
    ∃ new, (signal os m entry expected state number).sent = new ++ m.sent ∧
      Turn expected entry number new ∧ (new ≠ [] ↔ verifies os m expected state = true) := by
  cases state with
  | gone => exact ⟨[], rfl, .none _ _ _, by simp [verifies]⟩
  | unknown why => exact ⟨[], rfl, .none _ _ _, by simp [verifies]⟩
  | leaderless live =>
    obtain ⟨new, hsent, hown, honce, hiff⟩ :=
      @sent_signalMembers σ os entry expected.pgid number live m
    exact ⟨new, hsent, .members live new hown honce, hiff⟩
  | led =>
    have hleft : ∀ m1 : Request σ, m1.sent = m.sent →
        ∃ new, (signalLeft os m1 entry expected number).sent = new ++ m.sent ∧
          Turn expected entry number new ∧ (new ≠ [] ↔ verifiesLeft os m1 expected = true) := by
      intro m1 hm1
      obtain ⟨live, new, hsent, hown, honce, hiff⟩ :=
        @sent_signalLeft σ os entry expected number m1
      rw [hm1] at hsent
      exact ⟨new, hsent, .members live new hown honce, hiff⟩
    rcases hread : read os m none expected.pid with ⟨error | _ | leader, m1⟩
    · simp only [signal, verifies, hread]
      exact hleft m1 (sent_read hread)
    · simp only [signal, verifies, hread]
      exact hleft m1 (sent_read hread)
    · simp only [signal, verifies, hread]
      split
      · -- the leader is verified: the group is signalled, whatever the answer
        have hs := @sent_kill σ os m1 entry (-(expected.pgid : ℤ)) number
        rw [sent_read hread] at hs
        rcases hk : kill os m1 entry (-(expected.pgid : ℤ)) number with ⟨error | _, m2⟩
        · rw [hk] at hs
          obtain ⟨live, new, hsent, hown, honce, -⟩ :=
            @sent_signalLeft σ os entry expected number m2
          refine ⟨new ++ [_], ?_, .refused live new hown honce, by simp⟩
          dsimp only
          rw [hsent, hs, List.append_assoc]
          rfl
        · rw [hk] at hs
          exact ⟨[_], hs, .group, by simp⟩
      · exact hleft m1 (sent_read hread)

def signalEntry (os : Os σ) (number entry : ℕ) (m : Request σ) : Recorded × State → Request σ
  | (.group expected, state) =>
    if state.present then signal os m entry expected state number else m
  | (.invalid _, _) => m

lemma signalAll_cons (number base : ℕ) (pair : Recorded × State) (rest : List (Recorded × State))
    (m : Request σ) : signalAll os number base (pair :: rest) m =
      signalAll os number (base + 1) rest (signalEntry os number base m pair) := by
  obtain ⟨rec, state⟩ := pair
  cases rec with
  | invalid reason => rfl
  | group expected =>
    rw [signalAll, signalEntry]
    split <;> rfl

lemma Turn.entry_eq {number : ℕ} {new : List Signal} (h : Turn expected entry number new) :
    ∀ x ∈ new, x.entry = entry := by
  cases h with
  | group =>
    intro x hx
    rw [List.mem_singleton.mp hx]
  | members live new own once => exact fun x hx => (own x hx).1
  | refused live new own once =>
    intro x hx
    rcases List.mem_append.mp hx with hx | hx
    · exact (own x hx).1
    · rw [List.mem_singleton.mp hx]

lemma sent_signalEntry (number : ℕ) (pair : Recorded × State) (m : Request σ) :
    ∃ new, (signalEntry os number entry m pair).sent = new ++ m.sent ∧
      (∀ x ∈ new, x.entry = entry ∧ ∃ expected, pair.1 = .group expected ∧ pair.2.present) ∧
      ∀ expected, pair.1 = .group expected → Turn expected entry number new ∧
        (new ≠ [] ↔ verifies os m expected pair.2 = true) := by
  obtain ⟨rec, state⟩ := pair
  cases rec with
  | invalid reason => exact ⟨[], rfl, by simp, by rintro expected ⟨⟩⟩
  | group expected =>
    rw [signalEntry]
    split
    · next hpresent =>
      obtain ⟨new, hsent, hturn, hiff⟩ := @sent_signal σ os entry expected number state m
      refine ⟨new, hsent, fun x hx => ⟨hturn.entry_eq x hx, expected, rfl, hpresent⟩, ?_⟩
      rintro expected' ⟨⟩
      exact ⟨hturn, hiff⟩
    · next hpresent =>
      refine ⟨[], rfl, by simp, ?_⟩
      rintro expected' ⟨⟩
      refine ⟨.none _ _ _, ?_⟩
      cases state with
      | gone => simp [verifies]
      | unknown why => simp [verifies]
      | led => exact absurd rfl hpresent
      | leaderless live => exact absurd rfl hpresent

lemma sent_signalAll (number : ℕ) (pairs : List (Recorded × State)) (base : ℕ) (m : Request σ) :
    ∃ new, (signalAll os number base pairs m).sent = new ++ m.sent ∧
      (∀ x ∈ new, ∃ (i : ℕ) (expected : ProcessIdentity) (state : State), x.entry = base + i ∧
        pairs[i]? = some (.group expected, state) ∧ state.present) ∧
      ∀ (i : ℕ) expected state, pairs[i]? = some (.group expected, state) →
        Turn expected (base + i) number (new.filter (·.entry = base + i)) ∧
        (new.filter (·.entry = base + i) ≠ [] ↔
          verifies os (signalAll os number base (pairs.take i) m) expected state = true) := by
  induction pairs generalizing base m with
  | nil => exact ⟨[], rfl, by simp, by rintro i expected state ⟨⟩⟩
  | cons pair rest ih =>
    rw [signalAll_cons]
    obtain ⟨head, hhead, hown, hturn⟩ := @sent_signalEntry σ os base number pair m
    obtain ⟨tail, htail, hothers, hturns⟩ := ih (base + 1) (signalEntry os number base m pair)
    refine ⟨tail ++ head, by rw [htail, hhead, List.append_assoc], ?_, ?_⟩
    · intro x hx
      rcases List.mem_append.mp hx with hx | hx
      · obtain ⟨i, expected, state, hentry, hpair, hpresent⟩ := hothers x hx
        exact ⟨i + 1, expected, state, by omega, hpair, hpresent⟩
      · obtain ⟨hentry, expected, hrec, hpresent⟩ := hown x hx
        exact ⟨0, expected, pair.2, hentry, by simp [← hrec], hpresent⟩
    · intro i expected state hpair
      rw [List.filter_append]
      cases i with
      | zero =>
        obtain rfl := Option.some.inj hpair
        have hhead' : head.filter (·.entry = base + 0) = head := by
          apply List.filter_eq_self.mpr
          intro x hx
          simpa using (hown x hx).1
        have htail' : tail.filter (·.entry = base + 0) = [] := by
          apply List.filter_eq_nil_iff.mpr
          intro x hx
          obtain ⟨i, expected, state, hentry, -⟩ := hothers x hx
          simp only [decide_eq_true_eq]
          omega
        rw [hhead', htail', List.nil_append]
        exact hturn expected rfl
      | succ i =>
        have hhead' : head.filter (·.entry = base + (i + 1)) = [] := by
          apply List.filter_eq_nil_iff.mpr
          intro x hx
          have hentry := (hown x hx).1
          simp only [decide_eq_true_eq]
          omega
        rw [hhead', List.append_nil, List.take_succ_cons, signalAll_cons]
        have hnext := hturns i expected state hpair
        rwa [show base + 1 + i = base + (i + 1) by omega] at hnext

namespace Stage

lemma sent_signalled (s : Stage σ) :
    (s.signalled os recorded).sent = s.sent os recorded ++ s.begun.sent := by
  obtain ⟨new, hsent, -⟩ := @sent_signalAll σ os s.number (recorded.zip s.states) 0 s.begun
  have hall : (s.signalled os recorded).sent = new ++ s.begun.sent := hsent
  rw [sent, hall, List.length_append, Nat.add_sub_cancel, List.take_left]

lemma sent_spec (s : Stage σ) :
    (∀ x ∈ s.sent os recorded, ∃ expected state, recorded[x.entry]? = some (.group expected) ∧
      s.states[x.entry]? = some state ∧ state.present) ∧
    ∀ entry expected state, recorded[entry]? = some (.group expected) →
      s.states[entry]? = some state →
        Turn expected entry s.number ((s.sent os recorded).filter (·.entry = entry)) ∧
        ((s.sent os recorded).filter (·.entry = entry) ≠ [] ↔
          RecordedGroups.verifies os (s.turn os recorded entry) expected state = true) := by
  obtain ⟨new, hsent, hown, hturns⟩ :=
    @sent_signalAll σ os s.number (recorded.zip s.states) 0 s.begun
  have hnew : s.sent os recorded = new :=
    List.append_cancel_right ((@sent_signalled σ os recorded s).symm.trans hsent)
  rw [hnew]
  constructor
  · intro x hx
    obtain ⟨i, expected, state, hentry, hpair, hpresent⟩ := hown x hx
    rw [Nat.zero_add] at hentry
    obtain ⟨hrec, hstate⟩ := List.getElem?_zip_eq_some.mp hpair
    exact ⟨expected, state, hentry ▸ hrec, hentry ▸ hstate, hpresent⟩
  · intro entry expected state hrec hstate
    have hturn := hturns entry expected state (List.getElem?_zip_eq_some.mpr ⟨hrec, hstate⟩)
    rwa [Nat.zero_add] at hturn

end Stage

lemma reached_stages (fuel : ℕ) (l : List (ℕ × Duration)) (states : List State) (m : Request σ) :
    ((reached os recorded fuel l states m).map fun s => (s.number, s.grace)) <+: l := by
  induction l generalizing states m with
  | nil => exact List.prefix_rfl
  | cons stage rest ih =>
    obtain ⟨number, grace⟩ := stage
    rw [reached]
    split
    · exact List.nil_prefix
    · dsimp only
      split
      · exact List.prefix_cons_inj _ |>.mpr (ih _ _)
      · exact List.prefix_cons_inj _ |>.mpr List.nil_prefix

lemma sent_stopStages (fuel : ℕ) (l : List (ℕ × Duration)) (states : List State)
    (m : Request σ) : (stopStages os recorded fuel l states m).2.sent =
      ((reached os recorded fuel l states m).map (Stage.sent os recorded)).reverse.flatten ++
        m.sent := by
  induction l generalizing states m with
  | nil => rfl
  | cons stage rest ih =>
    obtain ⟨number, grace⟩ := stage
    rw [stopStages, reached]
    split
    · rfl
    · dsimp only
      generalize hs : (⟨number, grace, states, m⟩ : Stage σ) = s
      have hwait : (s.waited os recorded fuel).2.sent = s.sent os recorded ++ m.sent := by
        rw [Stage.waited, sent_wait]
        subst hs
        exact Stage.sent_signalled _
      have heq : wait os recorded ((os.now (signalAll os number 0 (recorded.zip states) m).world).1
          + grace) fuel states
            { signalAll os number 0 (recorded.zip states) m with
              world := (os.now (signalAll os number 0 (recorded.zip states) m).world).2 } =
          s.waited os recorded fuel := by
        subst hs
        rfl
      rw [heq]
      rcases hw : s.waited os recorded fuel with ⟨_ | states', m'⟩
      · rw [hw] at hwait
        simpa using hwait
      · rw [hw] at hwait
        dsimp only
        rw [ih, hwait]
        simp

lemma wait_present (deadline : Instant) (fuel : ℕ) (states states' : List State)
    (m m' : Request σ) (h : wait os recorded deadline fuel states m = (some states', m'))
    (hpresent : states'.any State.present = true) :
    ∃ w, deadline ≤ (os.now w).1 ∧ m'.world = (os.now w).2 := by
  induction fuel generalizing states m with
  | zero => cases h
  | succ fuel ih =>
    rw [wait] at h
    dsimp only at h
    split at h
    · next hnone =>
      obtain ⟨rfl, rfl⟩ := Prod.mk.inj h |>.imp Option.some.inj id
      rw [hpresent] at hnone
      cases hnone
    · split at h
      · next hdeadline =>
        obtain ⟨-, rfl⟩ := Prod.mk.inj h
        exact ⟨_, hdeadline, rfl⟩
      · exact ih _ _ h

lemma refresh_length (pairs : List (Recorded × State)) (base : ℕ) (m : Request σ) :
    (refresh os base pairs m).1.length = pairs.length := by
  induction pairs generalizing base m with
  | nil => rfl
  | cons pair rest ih =>
    rw [refresh]
    exact congrArg (· + 1) (ih _ _)

lemma refresh_gone (pairs : List (Recorded × State)) (base : ℕ) (m : Request σ) {i : ℕ}
    {rec : Recorded} (h : pairs[i]? = some (rec, .gone)) :
    (refresh os base pairs m).1[i]? = some .gone := by
  induction pairs generalizing base m i with
  | nil => cases h
  | cons pair rest ih =>
    obtain ⟨rec', state⟩ := pair
    rw [refresh]
    cases i with
    | zero =>
      cases h
      rfl
    | succ i => exact ih (base + 1) _ h

structure Follows (recorded : List Recorded) (states states' : List State) : Prop where
  length : states'.length = recorded.length
  gone : ∀ entry : ℕ, states[entry]? = some .gone → states'[entry]? = some .gone

lemma Follows.refresh {states : List State} (h : states.length = recorded.length)
    (m : Request σ) : Follows recorded states (refresh os 0 (recorded.zip states) m).1 := by
  constructor
  · rw [refresh_length, List.length_zip, h, Nat.min_self]
  · intro entry hgone
    have hentry : entry < recorded.length := h ▸ (List.getElem?_eq_some_iff.mp hgone).1
    exact refresh_gone _ 0 m (List.getElem?_zip_eq_some.mpr
      ⟨List.getElem?_eq_getElem hentry, hgone⟩)

lemma Follows.trans {states states' states'' : List State} (h : Follows recorded states states')
    (k : Follows recorded states' states'') : Follows recorded states states'' :=
  ⟨k.length, fun entry hgone => k.gone entry (h.gone entry hgone)⟩

lemma Follows.wait (deadline : Instant) (fuel : ℕ) (states states' : List State)
    (m m' : Request σ) (hlength : states.length = recorded.length)
    (h : wait os recorded deadline fuel states m = (some states', m')) :
    Follows recorded states states' := by
  induction fuel generalizing states m with
  | zero => cases h
  | succ fuel ih =>
    have hrefresh := @Follows.refresh σ os recorded states hlength m
    rw [RecordedGroups.wait] at h
    dsimp only at h
    split at h
    · obtain ⟨rfl, -⟩ := Prod.mk.inj h |>.imp Option.some.inj id
      exact hrefresh
    · split at h
      · obtain ⟨rfl, -⟩ := Prod.mk.inj h |>.imp Option.some.inj id
        exact hrefresh
      · exact hrefresh.trans (ih _ _ hrefresh.length h)

lemma Follows.head {fuel : ℕ} {l : List (ℕ × Duration)} {states : List State} {m : Request σ}
    (hlength : states.length = recorded.length) {i : ℕ} {s : Stage σ}
    (hs : (reached os recorded fuel l states m)[i]? = some s) :
    Follows recorded states s.states := by
  induction l generalizing states m i with
  | nil => cases hs
  | cons stage rest ih =>
    obtain ⟨number, grace⟩ := stage
    rw [reached] at hs
    split at hs
    · cases hs
    · dsimp only at hs
      split at hs
      · next states' m' hw =>
        cases i with
        | zero =>
          obtain rfl := Option.some.inj hs
          exact ⟨hlength, fun _ => id⟩
        | succ i =>
          have hwait := Follows.wait _ fuel states states' _ m' hlength hw
          exact hwait.trans (ih hwait.length hs)
      · next m' hw =>
        cases i with
        | zero =>
          obtain rfl := Option.some.inj hs
          exact ⟨hlength, fun _ => id⟩
        | succ i => cases hs

lemma Follows.reached {fuel : ℕ} {l : List (ℕ × Duration)} {states : List State} {m : Request σ}
    (hlength : states.length = recorded.length) {i j : ℕ} {s s' : Stage σ} (hij : i < j)
    (hs : (reached os recorded fuel l states m)[i]? = some s)
    (hs' : (reached os recorded fuel l states m)[j]? = some s') :
    Follows recorded s.states s'.states := by
  induction l generalizing states m i j with
  | nil => cases hs
  | cons stage rest ih =>
    obtain ⟨number, grace⟩ := stage
    rw [RecordedGroups.reached] at hs hs'
    split at hs
    · cases hs
    · next hpresent =>
      rw [if_neg hpresent] at hs'
      dsimp only at hs hs'
      split at hs
      · next states' m' hw =>
        rw [hw] at hs'
        have hwait := Follows.wait _ fuel states states' _ m' hlength hw
        obtain ⟨j, rfl⟩ : ∃ k, j = k + 1 := ⟨j - 1, by omega⟩
        cases i with
        | zero =>
          obtain rfl := Option.some.inj hs
          exact hwait.trans (.head hwait.length hs')
        | succ i => exact ih hwait.length (Nat.lt_of_succ_lt_succ hij) hs hs'
      · next m' hw =>
        rw [hw] at hs'
        obtain ⟨j, rfl⟩ : ∃ k, j = k + 1 := ⟨j - 1, by omega⟩
        cases hs'

def Stage.found (os : Os σ) (recorded : List Recorded) (s : Stage σ) (entry : ℕ) : Bool :=
  match s.states[entry]? with
  | some (.unknown _) => false
  | some .gone => true
  | _ => s.verifies os recorded entry

end Forcola.Native.RecordedGroups
