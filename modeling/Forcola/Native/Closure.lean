import Forcola.Native.Discovery

/-! A scan against a system that holds still finds exactly the descendants of its anchors. -/

namespace Forcola.Native

open Forcola.Library Relation

/-- The processes of a system that holds still. -/
structure World where
  record : ℕ → Option ProcessRecord
  children : ℕ → List ℕ
  members : ℕ → List ℕ
  keyed : ∀ pid r, record pid = some r → r.identity.pid = pid

namespace World

def Current (W : World) (id : ProcessIdentity) : Prop :=
  ∃ r, W.record id.pid = some r ∧ r.identity.sameProcess id = true

def Edge (W : World) (parent child : ℕ) : Prop :=
  child ∈ W.children parent ∧ ∃ r, W.record child = some r ∧ r.ppid = parent

def InGroup (W : World) (pgid p : ℕ) : Prop :=
  ∃ r, W.record p = some r ∧ r.identity.pgid = pgid

end World

/-- The source answers as `W` does, without errors, until the scan starts to reap. -/
structure Frozen {σ : Type} (H : Host σ) (W : World) (Q : Bool → σ → Prop) : Prop where
  read : ∀ pid u, Q false u → (H.read pid u).1 = .ok (W.record pid) ∧ Q false (H.read pid u).2
  children : ∀ pid u, Q false u →
    (H.children pid u).1 = .ok (W.children pid) ∧ Q false (H.children pid u).2
  groupMembers : ∀ pgid u, Q false u →
    (H.groupMembers pgid u).1 = .ok (W.members pgid) ∧ Q false (H.groupMembers pgid u).2
  reap : ∀ pid u b, Q b u → (H.reap pid u).1 = .ok () ∧ Q true (H.reap pid u).2
  order : ∀ {α : Type} (l : List α) u b, Q b u → Q b (H.order l u).2

namespace Tracker

variable {σ : Type} {H : Host σ} {W : World} {Q : Bool → σ → Prop} {t t' : Tracker σ}

def Keyed (t : Tracker σ) : Prop :=
  ∀ pid r, t.processes.lookup pid = some r → r.identity.pid = pid

def Root (t : Tracker σ) (W : World) (pid : ℕ) : Prop :=
  (∃ r, t.processes.lookup pid = some r ∧ W.Current r.identity) ∨
    (t.adoptOrphans = true ∧ pid = t.shim.pid)

def Descends (t : Tracker σ) (W : World) (pid : ℕ) : Prop :=
  ∃ root, Root t W root ∧
    ReflTransGen (fun parent child => W.Edge parent child ∧ child ≠ t.shim.pid) root pid

/-- What discovery finds under a pid. The record of the shim itself is never refreshed. -/
inductive Discovered (t : Tracker σ) (W : World) : ℕ → ProcessRecord → Prop
  | found {p r} : p ≠ t.shim.pid → W.record p = some r → Descends t W p → Discovered t W p r
  | shim {r} : t.processes.lookup t.shim.pid = some r → W.Current r.identity →
      Discovered t W t.shim.pid r

/-- Listed in the process group of the exited, still pinned root leader. -/
def GroupMember (t : Tracker σ) (W : World) (p : ℕ) : Prop :=
  t.adoptOrphans = false ∧ ∃ root, Discovered t W t.rootPid root ∧ root.exited = true ∧
    root.identity.pid = root.identity.pgid ∧
    (W.record root.identity.pid).map (·.identity) = some root.identity ∧
    p ∈ W.members root.identity.pgid ∧ W.InGroup root.identity.pgid p

structure Roomy (t : Tracker σ) (W : World) (pids : Finset ℕ) : Prop where
  card : pids.card ≤ t.processLimit
  anchors : ∀ p, (t.processes.lookup p).isSome → p ∈ pids
  descendants : ∀ p, Descends t W p → p ≠ t.shim.pid → p ∈ pids
  members : ∀ p, GroupMember t W p → p ∈ pids

lemma Descends.child {parent child : ℕ} (h : Descends t W parent) (he : W.Edge parent child)
    (hs : child ≠ t.shim.pid) : Descends t W child := by
  obtain ⟨root, hr, hp⟩ := h
  exact ⟨root, hr, hp.tail ⟨he, hs⟩⟩

lemma read_frozen (hF : Frozen H W Q) (hq : Q false t.source) (pid : ℕ) :
    ∃ u, t.read H pid = (.ok (W.record pid), t.called (.read pid (.ok (W.record pid))) t.held u) ∧
      Q false u := by
  obtain ⟨ha, hn⟩ := hF.read pid t.source hq
  refine ⟨(H.read pid t.source).2, ?_, hn⟩
  rw [read, ha]

lemma children_frozen (hF : Frozen H W Q) (hq : Q false t.source) (pid : ℕ) :
    ∃ u, t.children H pid =
      (.ok (W.children pid), t.called (.children pid (.ok (W.children pid))) t.held u) ∧
      Q false u := by
  obtain ⟨ha, hn⟩ := hF.children pid t.source hq
  refine ⟨(H.children pid t.source).2, ?_, hn⟩
  rw [children, ha]

lemma groupMembers_frozen (hF : Frozen H W Q) (hq : Q false t.source) (pgid : ℕ) :
    ∃ u, t.groupMembers H pgid =
      (.ok (W.members pgid), t.called (.groupMembers pgid (.ok (W.members pgid))) t.held u) ∧
      Q false u := by
  obtain ⟨ha, hn⟩ := hF.groupMembers pgid t.source hq
  refine ⟨(H.groupMembers pgid t.source).2, ?_, hn⟩
  rw [groupMembers, ha]

lemma lookup_dropStale {id : ProcessIdentity} {pid : ℕ} {r : ProcessRecord} :
    (t.dropStale id).processes.lookup pid = some r ↔
      t.processes.lookup pid = some r ∧ ¬(pid = id.pid ∧ r.identity.sameProcess id = true) := by
  rw [dropStale]
  split
  · next h =>
    obtain ⟨r', hr', hs⟩ := (Option.any_eq_true ..).mp h
    by_cases hp : pid = id.pid
    · subst hp
      rw [show (t.removeProcess id.pid).processes = t.processes.erase id.pid from rfl,
        AList.lookup_erase, hr']
      constructor
      · intro h
        cases h
      · rintro ⟨h, hn⟩
        obtain rfl := Option.some.inj h
        exact absurd ⟨rfl, hs⟩ hn
    · rw [show (t.removeProcess id.pid).processes = t.processes.erase id.pid from rfl,
        AList.lookup_erase_ne hp]
      simp [hp]
  · next h =>
    constructor
    · intro hl
      refine ⟨hl, ?_⟩
      rintro ⟨rfl, hs⟩
      exact h ((Option.any_eq_true ..).mpr ⟨r, hl, hs⟩)
    · exact fun h => h.1

lemma lookup_keepProcess {pid p : ℕ} {r : ProcessRecord} :
    (t.keepProcess pid r).processes.lookup p = if p = pid then some r else t.processes.lookup p := by
  rw [keepProcess]
  split
  · next h => rw [h, AList.lookup_insert]
  · next h => rw [AList.lookup_insert_ne h]

structure Sound (W : World) (Q : Bool → σ → Prop) (t : Tracker σ) (s : Scan σ) : Prop where
  source : Q false s.tracker.source
  probed : Probed t s.tracker
  visited : ∀ p start, s.visited.lookup p = some start → Descends t W p ∧
    ∃ r, W.record p = some r ∧ r.identity.startTime = start ∧
      (p ≠ t.shim.pid → s.tracker.processes.lookup p = some r)
  table : ∀ p r, s.tracker.processes.lookup p = some r →
    (p ≠ t.shim.pid ∧ W.record p = some r ∧ Descends t W p) ∨
      (t.processes.lookup p = some r ∧
        (r.identity ∈ s.queue ∨ (p = t.shim.pid ∧ W.Current r.identity)))
  shim : ∀ r, t.processes.lookup t.shim.pid = some r → W.Current r.identity →
    s.tracker.processes.lookup t.shim.pid = some r
  queue : ∀ id ∈ s.queue, W.Current id → Descends t W id.pid

def Seen (W : World) (s : Scan σ) (p : ℕ) : Prop :=
  ∃ r, W.record p = some r ∧ (s.visited.lookup p = some r.identity.startTime ∨
    ∃ id ∈ s.queue, r.identity.sameProcess id = true)

structure Complete (W : World) (t : Tracker σ) (s : Scan σ) : Prop where
  roots : ∀ p, Root t W p → Seen W s p
  closed : ∀ p c, (s.visited.lookup p).isSome → W.Edge p c → c ≠ t.shim.pid → Seen W s c

variable {s s' : Scan σ} {expected id : ProcessIdentity} {rest front : List ProcessIdentity}

lemma World.current_of {r : ProcessRecord} (h : W.record id.pid = some r)
    (hs : r.identity.startTime = id.startTime) : W.Current id :=
  ⟨r, h, ProcessIdentity.sameProcess_iff.mpr ⟨W.keyed _ _ h, hs⟩⟩

lemma Seen.mono {p : ℕ} (h : Seen W s p)
    (hv : ∀ r, W.record p = some r → s.visited.lookup p = some r.identity.startTime →
      s'.visited.lookup p = some r.identity.startTime)
    (hq : ∀ r, ∀ id ∈ s.queue, W.record p = some r → r.identity.sameProcess id = true →
      s'.visited.lookup p = some r.identity.startTime ∨ id ∈ s'.queue) : Seen W s' p := by
  obtain ⟨r, hr, h | ⟨id, hm, hs⟩⟩ := h
  · exact ⟨r, hr, .inl (hv r hr h)⟩
  · rcases hq r id hm hr hs with h | h
    · exact ⟨r, hr, .inl h⟩
    · exact ⟨r, hr, .inr ⟨id, h, hs⟩⟩

lemma visitedAt_iff {p : ℕ} {start : StartTime} :
    s.visitedAt p start = true ↔ s.visited.lookup p = some start := by
  rw [Scan.visitedAt, beq_iff_eq]

lemma Sound.skip (h : Sound W Q t s) (hk : Keyed t) (hq : s.queue = front ++ rest)
    (hv : ∀ e ∈ front, s.visitedAt e.pid e.startTime = true) :
    Sound W Q t { s with queue := rest } where
  source := h.source
  probed := h.probed
  visited := h.visited
  table := by
    intro p r hr
    rcases h.table p r hr with hl | ⟨ht, hm | hm⟩
    · exact .inl hl
    · rw [hq, List.mem_append] at hm
      rcases hm with hm | hm
      · obtain rfl := hk p r ht
        obtain ⟨hd, cur, hc, hst, hkeep⟩ := h.visited _ _ (visitedAt_iff.mp (hv _ hm))
        by_cases hp : r.identity.pid = t.shim.pid
        · exact .inr ⟨ht, .inr ⟨hp, World.current_of hc hst⟩⟩
        · have hcr : cur = r := Option.some.inj ((hkeep hp).symm.trans hr)
          subst hcr
          exact .inl ⟨hp, hc, hd⟩
      · exact .inr ⟨ht, .inl hm⟩
    · exact .inr ⟨ht, .inr hm⟩
  shim := h.shim
  queue := by
    intro id hm hc
    apply h.queue id _ hc
    rw [hq]
    exact List.mem_append_right _ hm

lemma Complete.skip (h : Complete W t s) (hq : s.queue = front ++ rest)
    (hv : ∀ e ∈ front, s.visitedAt e.pid e.startTime = true) :
    Complete W t { s with queue := rest } := by
  have hseen : ∀ p, Seen W s p → Seen W { s with queue := rest } p := by
    intro p hp
    apply hp.mono
    · exact fun r _ hl => hl
    · intro r id hm hr hs
      obtain ⟨hpid, hst⟩ := ProcessIdentity.sameProcess_iff.mp hs
      rw [hq, List.mem_append] at hm
      rcases hm with hm | hm
      · have hl := visitedAt_iff.mp (hv id hm)
        rw [← hpid, ← hst, W.keyed _ _ hr] at hl
        exact .inl hl
      · exact .inr hm
  exact ⟨fun p hp => hseen p (h.roots p hp), fun p c hp he hc => hseen c (h.closed p c hp he hc)⟩

lemma Sound.looked (h : Sound W Q t s) (call : Call) {u : σ} (hu : Q false u)
    (hp : Probed s.tracker (s.tracker.called call s.tracker.held u)) :
    Sound W Q t { s with tracker := s.tracker.called call s.tracker.held u } :=
  ⟨hu, h.probed.trans hp, h.visited, h.table, h.shim, h.queue⟩

lemma Sound.drop (h : Sound W Q t s) (hk : Keyed t) (hq : s.queue = expected :: rest)
    (hc : ¬W.Current expected) :
    Sound W Q t { s with tracker := s.tracker.dropStale expected, queue := rest } where
  source := by
    have hs : (s.tracker.dropStale expected).source = s.tracker.source := by
      rw [dropStale]
      split <;> rfl
    exact hs ▸ h.source
  probed := h.probed.trans (.dropStale _ _)
  visited := by
    intro p start hv
    obtain ⟨hd, r, hr, hst, hkeep⟩ := h.visited p start hv
    refine ⟨hd, r, hr, hst, fun hp => lookup_dropStale.mpr ⟨hkeep hp, ?_⟩⟩
    rintro ⟨rfl, hs⟩
    exact hc ⟨r, hr, hs⟩
  table := by
    intro p r hr
    obtain ⟨hl, hn⟩ := lookup_dropStale.mp hr
    rcases h.table p r hl with hl | ⟨ht, hm | hm⟩
    · exact .inl hl
    · rw [hq, List.mem_cons] at hm
      rcases hm with rfl | hm
      · exact absurd ⟨(hk p r ht).symm, ProcessIdentity.sameProcess_self _⟩ hn
      · exact .inr ⟨ht, .inl hm⟩
    · exact .inr ⟨ht, .inr hm⟩
  shim := by
    intro r hr hcur
    refine lookup_dropStale.mpr ⟨h.shim r hr hcur, ?_⟩
    rintro ⟨hp, hs⟩
    obtain ⟨cur, hcr, hsame⟩ := hcur
    rw [hk _ _ hr, hp] at hcr
    rw [ProcessIdentity.sameProcess_iff] at hs hsame
    exact hc ⟨cur, hcr, ProcessIdentity.sameProcess_iff.mpr
      ⟨hsame.1.trans hs.1, hsame.2.trans hs.2⟩⟩
  queue := by
    intro id hm
    apply h.queue id
    rw [hq]
    exact List.mem_cons_of_mem _ hm

lemma Complete.drop (h : Complete W t s) (hq : s.queue = expected :: rest)
    (hc : ¬W.Current expected) (u : Tracker σ) :
    Complete W t { s with tracker := u, queue := rest } := by
  have hseen : ∀ p, Seen W s p → Seen W { s with tracker := u, queue := rest } p := by
    intro p hp
    apply hp.mono
    · exact fun r _ hl => hl
    · intro r id hm hr hs
      rw [hq, List.mem_cons] at hm
      rcases hm with rfl | hm
      · rw [← W.keyed _ _ hr, (ProcessIdentity.sameProcess_iff.mp hs).1] at hr
        exact absurd ⟨r, hr, hs⟩ hc
      · exact .inr hm
  exact ⟨fun p hp => hseen p (h.roots p hp), fun p c hp he hcs => hseen c (h.closed p c hp he hcs)⟩

def Scan.visit (s : Scan σ) (expected : ProcessIdentity) (rest : List ProcessIdentity)
    (current : ProcessRecord) : Scan σ :=
  { s with
    visited := s.visited.insert expected.pid current.identity.startTime
    queue := rest
    tracker := if expected.pid ≠ s.tracker.shim.pid then
      s.tracker.keepProcess expected.pid current else s.tracker }

lemma visit_visited {current : ProcessRecord} {p : ℕ} :
    (s.visit expected rest current).visited.lookup p =
      if p = expected.pid then some current.identity.startTime else s.visited.lookup p := by
  by_cases hp : p = expected.pid
  · subst hp
    simp [Scan.visit]
  · simp [Scan.visit, hp, AList.lookup_insert_ne hp]

lemma visit_lookup {current : ProcessRecord} {p : ℕ} :
    (s.visit expected rest current).tracker.processes.lookup p =
      if p = expected.pid ∧ p ≠ s.tracker.shim.pid then some current
      else s.tracker.processes.lookup p := by
  by_cases hs : expected.pid = s.tracker.shim.pid
  · simp only [Scan.visit, hs, ne_eq, not_true_eq_false, if_false]
    rw [if_neg]
    rintro ⟨h, hn⟩
    exact hn h
  · simp only [Scan.visit, ne_eq, hs, not_false_eq_true, if_true, lookup_keepProcess]
    by_cases hp : p = expected.pid
    · rw [if_pos hp, if_pos ⟨hp, hp ▸ hs⟩]
    · rw [if_neg hp, if_neg fun h => hp h.1]

lemma Sound.visit (h : Sound W Q t s) (hk : Keyed t) (hq : s.queue = expected :: rest)
    {current : ProcessRecord} (hr : W.record expected.pid = some current)
    (hs : current.identity.sameProcess expected = true) :
    Sound W Q t (s.visit expected rest current) := by
  have hshim : s.tracker.shim = t.shim := h.probed.shim
  have hd : Descends t W expected.pid :=
    h.queue expected (hq ▸ List.mem_cons_self) ⟨current, hr, hs⟩
  refine ⟨?_, ?_, ?_, ?_, ?_, ?_⟩
  · simp only [Scan.visit]
    split <;> exact h.source
  · simp only [Scan.visit]
    split
    · exact h.probed.trans (.keepProcess _ _ _)
    · exact h.probed
  · intro p start hv
    rw [visit_visited] at hv
    rw [visit_lookup, hshim]
    split at hv
    · next hp =>
      subst hp
      refine ⟨hd, current, hr, Option.some.inj hv, fun hp => ?_⟩
      rw [if_pos ⟨rfl, hp⟩]
    · next hp =>
      rw [if_neg fun h => hp h.1]
      exact h.visited p start hv
  · intro p r hl
    rw [visit_lookup, hshim] at hl
    split at hl
    · next hp =>
      obtain ⟨rfl, hp⟩ := hp
      obtain rfl := Option.some.inj hl
      exact .inl ⟨hp, hr, hd⟩
    · next hp =>
      rcases h.table p r hl with hl | ⟨ht, hm | hm⟩
      · exact .inl hl
      · rw [hq, List.mem_cons] at hm
        rcases hm with rfl | hm
        · have hpid := hk p r ht
          subst hpid
          have hshim' : r.identity.pid = t.shim.pid := by
            by_contra hne
            exact hp ⟨rfl, hne⟩
          exact .inr ⟨ht, .inr ⟨hshim', current, hr, hs⟩⟩
        · exact .inr ⟨ht, .inl hm⟩
      · exact .inr ⟨ht, .inr hm⟩
  · intro r ht hc
    rw [visit_lookup, hshim, if_neg fun h => h.2 rfl]
    exact h.shim r ht hc
  · intro id hm
    apply h.queue id
    rw [hq]
    exact List.mem_cons_of_mem _ hm

lemma Seen.visit {p : ℕ} (h : Seen W s p) (hq : s.queue = expected :: rest)
    {current : ProcessRecord} (hr : W.record expected.pid = some current) :
    Seen W (s.visit expected rest current) p := by
  have hnow : ∀ r, W.record p = some r → p = expected.pid →
      (s.visit expected rest current).visited.lookup p = some r.identity.startTime := by
    rintro r hr' rfl
    obtain rfl := Option.some.inj (hr.symm.trans hr')
    rw [visit_visited, if_pos rfl]
  apply h.mono
  · intro r hr' hl
    by_cases hp : p = expected.pid
    · exact hnow r hr' hp
    · rw [visit_visited, if_neg hp]
      exact hl
  · intro r id hm hr' hs
    rw [hq, List.mem_cons] at hm
    rcases hm with rfl | hm
    · left
      apply hnow r hr'
      rw [← W.keyed _ _ hr']
      exact (ProcessIdentity.sameProcess_iff.mp hs).1
    · exact .inr hm

structure Grown (W : World) (s s' : Scan σ) : Prop where
  visited : s'.visited = s.visited
  queue : ∃ more, s'.queue = s.queue ++ more ∧ ∀ id ∈ more, W.Current id

lemma Grown.of_eq (hv : s'.visited = s.visited) (hq : s'.queue = s.queue) : Grown W s s' :=
  ⟨hv, [], by simp [hq], by simp⟩

lemma Grown.trans {s'' : Scan σ} (h : Grown W s s') (h' : Grown W s' s'') : Grown W s s'' := by
  obtain ⟨more, hq, hm⟩ := h.queue
  obtain ⟨more', hq', hm'⟩ := h'.queue
  refine ⟨h'.visited.trans h.visited, more ++ more', by simp [hq, hq'], ?_⟩
  intro id hid
  rcases List.mem_append.mp hid with hid | hid
  · exact hm id hid
  · exact hm' id hid

lemma Seen.grown {p : ℕ} (h : Seen W s p) (hg : Grown W s s') : Seen W s' p := by
  obtain ⟨more, hq, -⟩ := hg.queue
  apply h.mono
  · intro r _ hl
    rwa [hg.visited]
  · intro r id hm _ _
    right
    rw [hq]
    exact List.mem_append_left _ hm

lemma Sound.found (h : Sound W Q t s) {c : ℕ} {child : ProcessRecord}
    (hr : W.record c = some child) (hv : s.visitedAt c child.identity.startTime = false)
    (hd : Descends t W c) (hc : c ≠ t.shim.pid) :
    Sound W Q t { s with
      tracker := s.tracker.keepProcess c child
      queue := s.queue ++ [child.identity] } where
  source := h.source
  probed := h.probed.trans (.keepProcess _ _ _)
  visited := by
    intro p start hl
    obtain ⟨hdp, r, hrp, hst, hkeep⟩ := h.visited p start hl
    refine ⟨hdp, r, hrp, hst, fun hp => ?_⟩
    rw [lookup_keepProcess, if_neg]
    · exact hkeep hp
    · rintro rfl
      obtain rfl := Option.some.inj (hr.symm.trans hrp)
      rw [← Bool.not_eq_true, visitedAt_iff, hst] at hv
      exact hv hl
  table := by
    intro p r hl
    rw [lookup_keepProcess] at hl
    split at hl
    · next hp =>
      subst hp
      obtain rfl := Option.some.inj hl
      exact .inl ⟨hc, hr, hd⟩
    · rcases h.table p r hl with hl | ⟨ht, hm | hm⟩
      · exact .inl hl
      · exact .inr ⟨ht, .inl (List.mem_append_left _ hm)⟩
      · exact .inr ⟨ht, .inr hm⟩
  shim := by
    intro r ht hcur
    rw [lookup_keepProcess, if_neg hc.symm]
    exact h.shim r ht hcur
  queue := by
    intro id hm hcur
    rcases List.mem_append.mp hm with hm | hm
    · exact h.queue id hm hcur
    · obtain rfl := List.mem_singleton.mp hm
      rw [W.keyed _ _ hr]
      exact hd

lemma Sound.room (h : Sound W Q t s) {pids : Finset ℕ} (hroom : Roomy t W pids) {c : ℕ}
    (hc : c ∈ pids) (hn : s.tracker.processes.lookup c = none) :
    s.tracker.processes.size < s.tracker.processLimit := by
  rw [h.probed.processLimit]
  refine lt_of_lt_of_le (Table.size_lt_card ?_ hc hn) hroom.card
  intro p hp
  obtain ⟨r, hr⟩ := Table.mem_keys.mp hp
  rcases h.table p r hr with ⟨hs, -, hd⟩ | ⟨ht, -⟩
  · exact hroom.descendants p hd hs
  · exact hroom.anchors p (by simp [ht])

def Unhindered (t : Tracker σ) (W : World) (s s' : Scan σ) : Prop :=
  (∃ pids, Roomy t W pids) ∨
    failures .processLimit s'.tracker.log = failures .processLimit s.tracker.log

lemma failures_called {call : Call} {held : Held} {u : σ} {why : Failure} :
    failures why (t.called call held u).log = failures why t.log := by
  simp [failures, called, Event.isFailed]

lemma failures_fail {why : Failure} :
    failures why (t.fail why).log = failures why t.log + 1 := by
  simp [failures, fail, Event.isFailed]

lemma scanChildren_closed (hF : Frozen H W Q) (hd : Descends t W expected.pid) (l : List ℕ)
    (hs : Sound W Q t s) (hl : ∀ c ∈ l, c ∈ W.children expected.pid)
    (hu : Unhindered t W s (scanChildren H expected l s)) :
    Sound W Q t (scanChildren H expected l s) ∧ Grown W s (scanChildren H expected l s) ∧
      failures .processLimit (scanChildren H expected l s).tracker.log =
        failures .processLimit s.tracker.log ∧
      ∀ c ∈ l, W.Edge expected.pid c → c ≠ t.shim.pid →
        Seen W (scanChildren H expected l s) c := by
  induction l generalizing s with
  | nil => exact ⟨hs, .of_eq rfl rfl, rfl, by simp⟩
  | cons c rest ih =>
    have hrest := fun c' h => hl c' (List.mem_cons_of_mem _ h)
    have hshim : s.tracker.shim = t.shim := hs.probed.shim
    obtain ⟨v, hread, hv⟩ := read_frozen hF hs.source c
    have hfails : failures .processLimit
        (s.tracker.called (.read c (.ok (W.record c))) s.tracker.held v).log =
        failures .processLimit s.tracker.log := failures_called
    have hlooked := hs.looked (.read c (.ok (W.record c))) hv (.of_event rfl rfl rfl)
    -- the rest of the list, from a state that grew without meeting a limit
    have onward : ∀ s1 : Scan σ, Sound W Q t s1 → Grown W s s1 →
        failures .processLimit s1.tracker.log = failures .processLimit s.tracker.log →
        scanChildren H expected (c :: rest) s = scanChildren H expected rest s1 →
        (W.Edge expected.pid c → c ≠ t.shim.pid → Seen W s1 c) →
        Sound W Q t (scanChildren H expected (c :: rest) s) ∧
          Grown W s (scanChildren H expected (c :: rest) s) ∧
          failures .processLimit (scanChildren H expected (c :: rest) s).tracker.log =
            failures .processLimit s.tracker.log ∧
          ∀ c' ∈ c :: rest, W.Edge expected.pid c' → c' ≠ t.shim.pid →
            Seen W (scanChildren H expected (c :: rest) s) c' := by
      intro s1 hs1 hg hf heq hseen
      rw [heq] at hu ⊢
      obtain ⟨hs2, hg2, hf2, hall⟩ := ih hs1 hrest (hu.imp id fun h => h.trans hf.symm)
      refine ⟨hs2, hg.trans hg2, hf2.trans hf, ?_⟩
      intro c' hm he hc
      rcases List.mem_cons.mp hm with rfl | hm
      · exact (hseen he hc).grown hg2
      · exact hall c' hm he hc
    by_cases hc : c = s.tracker.shim.pid
    · apply onward s hs (.of_eq rfl rfl) rfl
      · rw [scanChildren, if_pos hc]
      · intro _ hne
        exact absurd (hc.trans (by rw [hshim])) hne
    · have hct : c ≠ t.shim.pid := hshim ▸ hc
      cases hr : W.record c with
      | none =>
        apply onward _ hlooked (.of_eq rfl rfl) hfails
        · rw [scanChildren, if_neg hc, hread, hr]
        · rintro ⟨-, r, hr', -⟩
          cases hr.symm.trans hr'
      | some child =>
        rw [hr] at hread
        by_cases hp : child.ppid = expected.pid
        · have hedge : W.Edge expected.pid c := ⟨hl c List.mem_cons_self, child, hr, hp⟩
          have hdc : Descends t W c := hd.child hedge hct
          cases hvis : s.visitedAt c child.identity.startTime with
          | true =>
            apply onward _ hlooked (.of_eq rfl rfl) hfails
            · rw [scanChildren, if_neg hc, hread, hr]
              simp only [hp, ne_eq, not_true_eq_false, if_false]
              rw [if_pos hvis]
            · intro _ _
              exact ⟨child, hr, .inl (visitedAt_iff.mp hvis)⟩
          | false =>
            by_cases hfull : s.tracker.processes.lookup c = none ∧
                s.tracker.processLimit ≤ s.tracker.processes.size
            · exfalso
              rcases hu with ⟨pids, hroom⟩ | hu
              · have := hs.room hroom (hroom.descendants c hdc hct) hfull.1
                omega
              · rw [scanChildren, if_neg hc, hread] at hu
                simp only [hp, ne_eq, not_true_eq_false, if_false] at hu
                rw [if_neg (by simpa [Scan.visitedAt] using hvis), if_pos (by simpa [called] using hfull)]
                  at hu
                rw [failures_fail, failures_called] at hu
                omega
            · apply onward _ (hlooked.found hr hvis hdc hct) ⟨rfl, [child.identity], rfl, ?_⟩
              · exact hfails
              · rw [scanChildren, if_neg hc, hread, hr]
                simp only [hp, ne_eq, not_true_eq_false, if_false]
                rw [if_neg (by simpa [Scan.visitedAt] using hvis),
                  if_neg (by simpa [called] using hfull)]
              · intro _ _
                exact ⟨child, hr, .inr ⟨child.identity, by simp, ProcessIdentity.sameProcess_self _⟩⟩
              · intro id hm
                obtain rfl := List.mem_singleton.mp hm
                exact World.current_of (by rw [W.keyed _ _ hr]; exact hr) rfl
        · apply onward _ hlooked (.of_eq rfl rfl) hfails
          · rw [scanChildren, if_neg hc, hread, hr]
            simp only [ne_eq, hp, not_false_eq_true, if_true]
          · rintro ⟨-, r, hr', hpp⟩
            obtain rfl := Option.some.inj (hr.symm.trans hr')
            exact absurd hpp hp

open Classical in
noncomputable def stale (W : World) (queue : List ProcessIdentity) : ℕ :=
  queue.countP fun id => decide ¬W.Current id

lemma stale_append (q q' : List ProcessIdentity) : stale W (q ++ q') = stale W q + stale W q' := by
  rw [stale, List.countP_append]
  rfl

lemma stale_cons (h : ¬W.Current id) : stale W (id :: rest) = stale W rest + 1 := by
  simp [stale, h]

lemma stale_current {q : List ProcessIdentity} (h : ∀ id ∈ q, W.Current id) : stale W q = 0 := by
  rw [stale, List.countP_eq_zero]
  intro id hm
  simpa using h id hm

lemma stale_le_length (q : List ProcessIdentity) : stale W q ≤ q.length :=
  List.countP_le_length

noncomputable def backlog (W : World) (pids : Finset ℕ) (s : Scan σ) : ℕ :=
  stale W s.queue + (pids.filter fun p => (s.visited.lookup p).isNone).card

structure Worked (W : World) (Q : Bool → σ → Prop) (t : Tracker σ) (s s' : Scan σ) : Prop where
  sound : Sound W Q t s'
  complete : Complete W t s'
  failures : failures .processLimit s'.tracker.log = failures .processLimit s.tracker.log
  backlog : ∀ pids, Roomy t W pids →
    backlog W (insert t.shim.pid pids) s' < backlog W (insert t.shim.pid pids) s

lemma scanEntry_stale (hF : Frozen H W Q) (hk : Keyed t) (h : Sound W Q t s)
    (hc : Complete W t s) (hq : s.queue = expected :: rest) (hn : ¬W.Current expected) :
    Worked W Q t s (scanEntry H expected { s with queue := rest }) := by
  obtain ⟨v, hread, hv⟩ := read_frozen hF h.source expected.pid
  generalize hcall : s.tracker.called (.read expected.pid (.ok (W.record expected.pid)))
    s.tracker.held v = t1 at hread
  have hs1 : Sound W Q t { s with tracker := t1 } := hcall ▸ h.looked _ hv (.of_event rfl rfl rfl)
  have heq : scanEntry H expected { s with queue := rest } =
      { s with tracker := t1.dropStale expected, queue := rest } := by
    rw [scanEntry, hread]
    cases hr : W.record expected.pid with
    | none => rfl
    | some current =>
      have hs : current.identity.sameProcess expected = false := by
        rw [← Bool.not_eq_true]
        exact fun hs => hn ⟨current, hr, hs⟩
      simp [hs]
  rw [heq]
  refine ⟨hs1.drop hk hq hn, hc.drop hq hn _, ?_, ?_⟩
  · have hlog : (t1.dropStale expected).log = t1.log := by
      rw [dropStale]
      split <;> rfl
    rw [hlog, ← hcall, failures_called]
  · intro pids _
    rw [backlog, backlog, hq, stale_cons hn]
    apply Nat.add_lt_add_right
    exact Nat.lt_succ_self _

lemma scanEntry_current (hF : Frozen H W Q) (hk : Keyed t) (h : Sound W Q t s)
    (hq : s.queue = expected :: rest) {current : ProcessRecord}
    (hr : W.record expected.pid = some current)
    (hs : current.identity.sameProcess expected = true) :
    ∃ s1, Sound W Q t s1 ∧ Grown W (s.visit expected rest current) s1 ∧
      failures .processLimit s1.tracker.log = failures .processLimit s.tracker.log ∧
      scanEntry H expected { s with queue := rest } =
        scanChildren H expected (W.children expected.pid) s1 := by
  obtain ⟨u, hread, hu⟩ := read_frozen hF h.source expected.pid
  generalize hcall : s.tracker.called (.read expected.pid (.ok (W.record expected.pid)))
    s.tracker.held u = t1 at hread
  have h1 : Sound W Q t { s with tracker := t1 } := hcall ▸ h.looked _ hu (.of_event rfl rfl rfl)
  have hf1 : failures .processLimit t1.log = failures .processLimit s.tracker.log :=
    hcall ▸ failures_called
  have h2 := h1.visit hk hq hr hs
  generalize hv : Scan.visit { s with tracker := t1 } expected rest current = s2 at h2
  have hf2 : s2.tracker.log = t1.log := by
    rw [← hv, Scan.visit]
    dsimp only
    split <;> rfl
  obtain ⟨v, hchildren, hv'⟩ := children_frozen hF h2.source expected.pid
  have h3 := h2.looked (.children expected.pid (.ok (W.children expected.pid))) hv'
    (.of_event rfl rfl rfl)
  generalize hcall3 : s2.tracker.called (.children expected.pid (.ok (W.children expected.pid)))
    s2.tracker.held v = t3 at hchildren h3
  obtain ⟨w, hparent, hw⟩ := read_frozen hF h3.source expected.pid
  have h4 := h3.looked (.read expected.pid (.ok (W.record expected.pid))) hw (.of_event rfl rfl rfl)
  refine ⟨_, h4, .of_eq (by rw [← hv]; rfl) (by rw [← hv]; rfl), ?_, ?_⟩
  · rw [failures_called, ← hcall3, failures_called, hf2, hf1]
  · rw [scanEntry, hread, hr]
    simp only [hs, Bool.not_true, Bool.false_eq_true, if_false]
    have ht : (if expected.pid ≠ t1.shim.pid then t1.keepProcess expected.pid current else t1) =
        s2.tracker := hv ▸ rfl
    rw [ht, hchildren]
    simp only
    dsimp only at hparent
    rw [hparent, hr]
    simp only [hs, if_true]
    rw [← hv]
    rfl

lemma scanEntry_worked (hF : Frozen H W Q) (hk : Keyed t) (h : Sound W Q t s)
    (hc : Complete W t s) (hq : s.queue = expected :: rest)
    (hn : s.visitedAt expected.pid expected.startTime = false)
    (hu : Unhindered t W s (scanEntry H expected { s with queue := rest })) :
    Worked W Q t s (scanEntry H expected { s with queue := rest }) := by
  by_cases hcur : W.Current expected
  · have hd : Descends t W expected.pid := h.queue expected (hq ▸ List.mem_cons_self) hcur
    obtain ⟨current, hr, hs⟩ := id hcur
    obtain ⟨s1, h1, hg1, hf1, heq⟩ := scanEntry_current hF hk h hq hr hs
    rw [heq] at hu ⊢
    obtain ⟨h2, hg2, hf2, hall⟩ := scanChildren_closed hF hd (W.children expected.pid) h1
      (fun _ hm => hm) (hu.imp id fun hf => hf.trans hf1.symm)
    have hg := hg1.trans hg2
    have hseen : ∀ p, Seen W s p → Seen W (scanChildren H expected (W.children expected.pid) s1) p :=
      fun p hp => (hp.visit hq hr).grown hg
    refine ⟨h2, ⟨fun p hp => hseen p (hc.roots p hp), ?_⟩, hf2.trans hf1, ?_⟩
    · intro p c hp he hcs
      by_cases hpe : p = expected.pid
      · subst hpe
        exact hall c he.1 he hcs
      · apply hseen c
        apply hc.closed p c _ he hcs
        rwa [hg.visited, visit_visited, if_neg hpe] at hp
    · intro pids hroom
      obtain ⟨more, hmore, hcurrent⟩ := hg.queue
      have hmem : expected.pid ∈ insert t.shim.pid pids := by
        rw [Finset.mem_insert]
        by_cases hp : expected.pid = t.shim.pid
        · exact .inl hp
        · exact .inr (hroom.descendants _ hd hp)
      have hnew : s.visited.lookup expected.pid = none := by
        cases hv : s.visited.lookup expected.pid with
        | none => rfl
        | some start =>
          obtain ⟨-, r, hr', hst, -⟩ := h.visited _ _ hv
          obtain rfl := Option.some.inj (hr.symm.trans hr')
          rw [← Bool.not_eq_true, visitedAt_iff, hv, ← hst] at hn
          exact absurd (congrArg some (ProcessIdentity.sameProcess_iff.mp hs).2) hn
      have hless : ((insert t.shim.pid pids).filter fun p =>
          ((s.visit expected rest current).visited.lookup p).isNone).card <
          ((insert t.shim.pid pids).filter fun p => (s.visited.lookup p).isNone).card := by
        apply Finset.card_lt_card
        rw [Finset.ssubset_iff_of_subset]
        · refine ⟨expected.pid, by simp [hmem, hnew], ?_⟩
          simp [visit_visited]
        · intro p hp
          rw [Finset.mem_filter, visit_visited] at hp
          rw [Finset.mem_filter]
          refine ⟨hp.1, ?_⟩
          by_cases hpe : p = expected.pid
          · simp [hpe] at hp
          · simpa [hpe] using hp.2
      have hcons : stale W (expected :: rest) = stale W rest := by
        rw [← List.singleton_append, stale_append, stale_current (by simpa using hcur), Nat.zero_add]
      rw [backlog, backlog, hg.visited, hmore, hq, stale_append, stale_current hcurrent, hcons]
      exact Nat.add_lt_add_left hless _
  · exact scanEntry_stale hF hk h hc hq hcur

lemma backlog_skip (pids : Finset ℕ) (hq : s.queue = front ++ rest) :
    backlog W pids { s with queue := rest } ≤ backlog W pids s := by
  rw [backlog, backlog, hq, stale_append]
  apply Nat.add_le_add_right
  exact Nat.le_add_left _ _

lemma queue_split (s : Scan σ) :
    ∃ front, s.queue = front ++ s.queue.dropWhile (fun e => s.visitedAt e.pid e.startTime) ∧
      (∀ e ∈ front, s.visitedAt e.pid e.startTime = true) ∧
      ∀ e rest, s.queue.dropWhile (fun e => s.visitedAt e.pid e.startTime) = e :: rest →
        s.visitedAt e.pid e.startTime = false := by
  refine ⟨_, List.takeWhile_append_dropWhile.symm, ?_, ?_⟩
  · exact List.all_eq_true.mp List.all_takeWhile
  · intro e rest hd
    have hn := List.head_dropWhile_not (fun e : ProcessIdentity => s.visitedAt e.pid e.startTime)
      (l := s.queue) (by simp [hd])
    simpa [hd] using hn

lemma scanQueue_closed (hF : Frozen H W Q) (hk : Keyed t) (budget : ℕ) (h : Sound W Q t s)
    (hc : Complete W t s)
    (hu : (∃ pids, Roomy t W pids ∧ backlog W (insert t.shim.pid pids) s ≤ budget) ∨
      failures .processLimit (scanQueue H budget s).tracker.log =
        failures .processLimit s.tracker.log) :
    Sound W Q t (scanQueue H budget s) ∧ Complete W t (scanQueue H budget s) ∧
      (scanQueue H budget s).queue = [] ∧
      failures .processLimit (scanQueue H budget s).tracker.log =
        failures .processLimit s.tracker.log := by
  induction budget generalizing s with
  | zero =>
    obtain ⟨front, hq, hv, hn⟩ := queue_split s
    rw [scanQueue] at hu ⊢
    split
    · next hd =>
      rw [hd] at hq
      exact ⟨h.skip hk hq hv, hc.skip hq hv, rfl, rfl⟩
    · next expected rest hd =>
      exfalso
      rw [hd] at hq
      simp only [hd] at hu
      rcases hu with ⟨pids, hroom, hb⟩ | hu
      · have hw := scanEntry_worked hF hk (h.skip hk hq hv) (hc.skip hq hv) rfl (hn _ _ hd)
          (.inl ⟨pids, hroom⟩)
        have hless := hw.backlog pids hroom
        have hskip := backlog_skip (W := W) (insert t.shim.pid pids) hq
        omega
      · rw [failures_fail] at hu
        omega
  | succ budget ih =>
    obtain ⟨front, hq, hv, hn⟩ := queue_split s
    rw [scanQueue] at hu ⊢
    split
    · next hd =>
      rw [hd] at hq
      exact ⟨h.skip hk hq hv, hc.skip hq hv, rfl, rfl⟩
    · next expected rest hd =>
      rw [hd] at hq
      simp only [hd] at hu
      have hmono := (scanQueue_probed (H := H) budget
        (scanEntry H expected { s with queue := rest })).failures_le .processLimit
      have hmono' := (scanEntry_probed (H := H) expected { s with queue := rest }).failures_le
        .processLimit
      have hhead : Worked W Q t { s with queue := expected :: rest }
          (scanEntry H expected { s with queue := rest }) := by
        apply scanEntry_worked hF hk (h.skip hk hq hv) (hc.skip hq hv) rfl (hn _ _ hd)
        rcases hu with ⟨pids, hroom, -⟩ | hu
        · exact .inl ⟨pids, hroom⟩
        · right
          dsimp only at hmono' ⊢
          omega
      obtain ⟨h2, hc2, he2, hf2⟩ := ih hhead.sound hhead.complete (by
        rcases hu with ⟨pids, hroom, hb⟩ | hu
        · refine .inl ⟨pids, hroom, ?_⟩
          have hless := hhead.backlog pids hroom
          have hskip := backlog_skip (W := W) (insert t.shim.pid pids) hq
          omega
        · right
          dsimp only at hmono'
          omega)
      exact ⟨h2, hc2, he2, hf2.trans hhead.failures⟩

lemma Complete.visited_of (hc : Complete W t s) (he : s.queue = []) {p : ℕ}
    (hd : Descends t W p) : (s.visited.lookup p).isSome := by
  have hvis : ∀ p, Seen W s p → (s.visited.lookup p).isSome := by
    rintro p ⟨r, -, hl | ⟨id, hm, -⟩⟩
    · simp [hl]
    · simp [he] at hm
  obtain ⟨root, hr, hp⟩ := hd
  induction hp with
  | refl => exact hvis _ (hc.roots _ hr)
  | tail _ hedge ih => exact hvis _ (hc.closed _ _ ih hedge.1 hedge.2)

lemma Sound.discovered (h : Sound W Q t s) (hc : Complete W t s) (he : s.queue = []) (p : ℕ)
    (r : ProcessRecord) :
    s.tracker.processes.lookup p = some r ↔ Discovered t W p r := by
  constructor
  · intro hl
    rcases h.table p r hl with ⟨hp, hr, hd⟩ | ⟨ht, hm | ⟨rfl, hcur⟩⟩
    · exact .found hp hr hd
    · simp [he] at hm
    · exact .shim ht hcur
  · rintro (⟨hp, hr, hd⟩ | ⟨ht, hcur⟩)
    · obtain ⟨start, hv⟩ := Option.isSome_iff_exists.mp (hc.visited_of he hd)
      obtain ⟨-, r', hr', -, hkeep⟩ := h.visited p start hv
      obtain rfl := Option.some.inj (hr.symm.trans hr')
      exact hkeep hp
    · exact h.shim r ht hcur

def anchors (t : Tracker σ) (records : List ProcessRecord) : List ProcessIdentity :=
  if t.adoptOrphans then t.shim :: records.map (·.identity) else records.map (·.identity)

lemma mem_anchors {records : List ProcessRecord} (hr : records.Perm t.processes.values)
    {id : ProcessIdentity} : id ∈ t.anchors records ↔
      (t.adoptOrphans = true ∧ id = t.shim) ∨
        ∃ p r, t.processes.lookup p = some r ∧ r.identity = id := by
  have hmap : id ∈ records.map (·.identity) ↔
      ∃ p r, t.processes.lookup p = some r ∧ r.identity = id := by
    constructor
    · intro hm
      obtain ⟨r, hr', rfl⟩ := List.mem_map.mp hm
      obtain ⟨p, hp⟩ := Table.mem_values.mp (hr.mem_iff.mp hr')
      exact ⟨p, r, hp, rfl⟩
    · rintro ⟨p, r, hp, rfl⟩
      exact List.mem_map_of_mem (hr.mem_iff.mpr (Table.mem_values.mpr ⟨p, hp⟩))
  rw [anchors, ← hmap]
  split
  · next ha => simp [ha]
  · next ha => simp [ha]

lemma start_sound (hk : Keyed t) {u : σ} (hu : Q false u) {records : List ProcessRecord}
    (hr : records.Perm t.processes.values) :
    Sound W Q t ⟨{ t with source := u }, false, t.anchors records, ∅⟩ where
  source := hu
  probed := .of_log rfl rfl
  visited := by simp
  table := by
    intro p r hl
    exact .inr ⟨hl, .inl ((mem_anchors hr).mpr (.inr ⟨p, r, hl, rfl⟩))⟩
  shim := fun r hl _ => hl
  queue := by
    intro id hm hc
    rcases (mem_anchors hr).mp hm with ⟨ha, rfl⟩ | ⟨p, r, hl, rfl⟩
    · exact ⟨_, .inr ⟨ha, rfl⟩, .refl⟩
    · refine ⟨_, .inl ⟨r, ?_, hc⟩, .refl⟩
      rw [hk p r hl]
      exact hl

lemma start_complete (hk : Keyed t) (hs : W.Current t.shim) {u : σ}
    {records : List ProcessRecord} (hr : records.Perm t.processes.values) :
    Complete W t ⟨{ t with source := u }, false, t.anchors records, ∅⟩ where
  roots := by
    rintro p (⟨r, hl, cur, hc, hsame⟩ | ⟨ha, rfl⟩)
    · rw [hk p r hl] at hc
      exact ⟨cur, hc, .inr ⟨r.identity, (mem_anchors hr).mpr (.inr ⟨p, r, hl, rfl⟩), hsame⟩⟩
    · obtain ⟨cur, hc, hsame⟩ := hs
      exact ⟨cur, hc, .inr ⟨t.shim, (mem_anchors hr).mpr (.inl ⟨ha, rfl⟩), hsame⟩⟩
  closed := by simp

lemma start_backlog (hs : W.Current t.shim) {u : σ} {records : List ProcessRecord}
    (hr : records.Perm t.processes.values) (pids : Finset ℕ) (hroom : Roomy t W pids) :
    backlog W (insert t.shim.pid pids) ⟨{ t with source := u }, false, t.anchors records, ∅⟩ ≤
      t.processLimit * 2 + 1 := by
  have hsize : t.processes.size ≤ pids.card := by
    apply Table.size_le_card
    intro p hp
    obtain ⟨r, hl⟩ := Table.mem_keys.mp hp
    exact hroom.anchors p (by simp [hl])
  have hlen : stale W (records.map (·.identity)) ≤ t.processes.size := by
    apply (stale_le_length _).trans
    rw [List.length_map, hr.length_eq, Table.values, List.length_map, Table.size]
  have hstale : stale W (t.anchors records) ≤ t.processes.size := by
    rw [anchors]
    split
    · rw [← List.singleton_append, stale_append, stale_current (by simpa using hs), Nat.zero_add]
      exact hlen
    · exact hlen
  have hcard : ((insert t.shim.pid pids).filter fun p =>
      ((∅ : Table ℕ StartTime).lookup p).isNone).card ≤ pids.card + 1 :=
    (Finset.card_filter_le _ _).trans (Finset.card_insert_le _ _)
  have hlimit := hroom.card
  rw [backlog]
  dsimp only
  omega

lemma failures_fail_ne {why other : Failure} (h : other ≠ why) :
    failures why (t.fail other).log = failures why t.log := by
  simp [failures, fail, Event.isFailed, h]

lemma scanMembers_closed (hF : Frozen H W Q) (l : List ℕ) (b : Bool) (i : Bool)
    (hq : Q false t.source)
    (hu : (∃ pids : Finset ℕ, pids.card ≤ t.processLimit ∧ (∀ p ∈ t.processes.keys, p ∈ pids) ∧
        ∀ p ∈ l, W.InGroup expected.pgid p → p ∈ pids) ∨
      failures .processLimit (scanMembers H expected l b (t, i)).2.1.log =
        failures .processLimit t.log) :
    Q false (scanMembers H expected l b (t, i)).2.1.source ∧
      failures .processLimit (scanMembers H expected l b (t, i)).2.1.log =
        failures .processLimit t.log ∧
      ∀ p r, (scanMembers H expected l b (t, i)).2.1.processes.lookup p = some r ↔
        (p ∈ l ∧ W.InGroup expected.pgid p ∧ W.record p = some r) ∨
          (¬(p ∈ l ∧ W.InGroup expected.pgid p) ∧ t.processes.lookup p = some r) := by
  induction l generalizing b t with
  | nil => exact ⟨hq, rfl, by simp [scanMembers]⟩
  | cons c rest ih =>
    obtain ⟨v, hread, hv⟩ := read_frozen hF hq c
    generalize hcall : t.called (.read c (.ok (W.record c))) t.held v = t1 at hread
    have hq1 : Q false t1.source := hcall ▸ hv
    have hf1 : failures .processLimit t1.log = failures .processLimit t.log := hcall ▸ failures_called
    have hp1 : t1.processes = t.processes := hcall ▸ rfl
    have hl1 : t1.processLimit = t.processLimit := hcall ▸ rfl
    by_cases hin : W.InGroup expected.pgid c
    · obtain ⟨member, hr, hg⟩ := id hin
      by_cases hfull : t.processes.lookup c = none ∧ t.processLimit ≤ t.processes.size
      · exfalso
        rcases hu with ⟨pids, hcard, hkeys, hmem⟩ | hu
        · have hlt := Table.size_lt_card hkeys (hmem c List.mem_cons_self hin) hfull.1
          omega
        · rw [scanMembers, hread, hr] at hu
          simp only [hg, ne_eq, not_true_eq_false, if_false] at hu
          rw [if_pos (by simpa [hp1, hl1] using hfull), failures_fail, hf1] at hu
          omega
      · have heq : scanMembers H expected (c :: rest) b (t, i) =
            scanMembers H expected rest b (t1.keepProcess c member, i) := by
          rw [scanMembers, hread, hr]
          simp only [hg, ne_eq, not_true_eq_false, if_false]
          rw [if_neg (by simpa [hp1, hl1] using hfull)]
        rw [heq] at hu ⊢
        obtain ⟨hq2, hf2, hall⟩ := ih (t := t1.keepProcess c member) b hq1 (by
          rcases hu with ⟨pids, hcard, hkeys, hmem⟩ | hu
          · refine .inl ⟨pids, hl1 ▸ hcard, ?_, fun p hp => hmem p (List.mem_cons_of_mem _ hp)⟩
            intro p hp
            obtain ⟨r, hl⟩ := Table.mem_keys.mp hp
            rw [lookup_keepProcess, hp1] at hl
            split at hl
            · next hpc => exact hpc ▸ hmem c List.mem_cons_self hin
            · exact hkeys p (Table.mem_keys.mpr ⟨r, hl⟩)
          · exact .inr (hu.trans hf1.symm))
        refine ⟨hq2, hf2.trans hf1, fun p r => ?_⟩
        rw [hall, lookup_keepProcess, hp1]
        by_cases hpc : p = c
        · subst hpc
          by_cases hm : p ∈ rest <;> simp [hm, hin, hr]
        · simp [hpc]
    · have heq : scanMembers H expected (c :: rest) b (t, i) =
          scanMembers H expected rest b (t1, i) := by
        rw [scanMembers, hread]
        cases hr : W.record c with
        | none => rfl
        | some member =>
          have hg : member.identity.pgid ≠ expected.pgid := fun hg => hin ⟨member, hr, hg⟩
          simp [hg]
      rw [heq] at hu ⊢
      obtain ⟨hq2, hf2, hall⟩ := ih (t := t1) b hq1 (by
        rcases hu with ⟨pids, hcard, hkeys, hmem⟩ | hu
        · exact .inl ⟨pids, hl1 ▸ hcard, hp1 ▸ hkeys, fun p hp => hmem p (List.mem_cons_of_mem _ hp)⟩
        · exact .inr (hu.trans hf1.symm))
      refine ⟨hq2, hf2.trans hf1, fun p r => ?_⟩
      rw [hall, hp1]
      by_cases hpc : p = c
      · subst hpc
        simp [hin]
      · simp [hpc]

def Retained (t : Tracker σ) (W : World) (p : ℕ) (r : ProcessRecord) : Prop :=
  (GroupMember t W p ∧ W.record p = some r) ∨ (¬GroupMember t W p ∧ Discovered t W p r)

def Closed (Q : Bool → σ → Prop) (W : World) (t u u' : Tracker σ) : Prop :=
  (∃ pids, Roomy t W pids) ∨ failures .processLimit u'.log = failures .processLimit u.log →
    Q false u'.source ∧ failures .processLimit u'.log = failures .processLimit u.log ∧
      ∀ p r, u'.processes.lookup p = some r ↔ Retained t W p r

lemma scanRootGroup_closed (hF : Frozen H W Q) {u : Tracker σ} (hq : Q false u.source)
    (hp : Probed t u) (i : Bool)
    (hd : ∀ p r, u.processes.lookup p = some r ↔ Discovered t W p r) :
    Closed Q W t u (scanRootGroup H u i).1 := by
  -- nothing is added when no process is a member
  have hnone : ∀ u' : Tracker σ, Q false u'.source →
      failures .processLimit u'.log = failures .processLimit u.log → u'.processes = u.processes →
      (∀ p, ¬GroupMember t W p) → Closed Q W t u u' := by
    intro u' hs hf hpr hn _
    refine ⟨hs, hf, fun p r => ?_⟩
    rw [hpr, hd, Retained]
    simp [hn p]
  have hroot : u.rootPid = t.rootPid := hp.rootPid
  have hunique : ∀ {root root'}, u.processes.lookup u.rootPid = some root →
      Discovered t W t.rootPid root' → root' = root := by
    intro root root' h h'
    rw [← hd, ← hroot] at h'
    exact Option.some.inj (h'.symm.trans h)
  simp only [scanRootGroup]
  split
  · next ha =>
    apply hnone _ hq rfl rfl
    rintro p ⟨hn, -⟩
    have ha' : u.adoptOrphans = true := ha
    rw [hp.adoptOrphans, hn] at ha'
    cases ha'
  · next ha =>
    have hadopt : t.adoptOrphans = false := by
      rw [← hp.adoptOrphans, ← Bool.not_eq_true]
      exact ha
    split
    · next hl =>
      have hl : u.processes.lookup u.rootPid = none := hl
      apply hnone _ hq rfl rfl
      rintro p ⟨-, root, hdis, -⟩
      rw [← hd, ← hroot, hl] at hdis
      cases hdis
    · next root hl =>
      have hl : u.processes.lookup u.rootPid = some root := hl
      split
      · next hex =>
        apply hnone _ hq rfl rfl
        rintro p ⟨-, root', hdis, he, hpg, -⟩
        obtain rfl := hunique hl hdis
        simp [he, hpg] at hex
      · next hex =>
        have hex : root.exited = true ∧ root.identity.pid = root.identity.pgid := by
          simpa using hex
        have hq0 : Q false ((u.setUnresolved false).setUnresolved true).source := hq
        obtain ⟨v, hgroup, hv⟩ := groupMembers_frozen hF hq0 root.identity.pgid
        rw [hgroup]
        dsimp only
        generalize hc1 : Tracker.called ((u.setUnresolved false).setUnresolved true) _ _ v = t1
        have hq1 : Q false t1.source := hc1 ▸ hv
        have hf1 : failures .processLimit t1.log = failures .processLimit u.log :=
          hc1 ▸ failures_called
        have hp1 : t1.processes = u.processes := hc1 ▸ rfl
        have hl1 : t1.processLimit = u.processLimit := hc1 ▸ rfl
        obtain ⟨w, hread, hw⟩ := read_frozen hF hq1 root.identity.pid
        rw [hread]
        generalize hc2 : t1.called _ _ w = t2
        have hq2 : Q false t2.source := hc2 ▸ hw
        have hf2 : failures .processLimit t2.log = failures .processLimit u.log :=
          (hc2 ▸ failures_called).trans hf1
        have hp2 : t2.processes = u.processes := (hc2 ▸ rfl : t2.processes = t1.processes).trans hp1
        have hl2 : t2.processLimit = u.processLimit :=
          (hc2 ▸ rfl : t2.processLimit = t1.processLimit).trans hl1
        have hlost : (W.record root.identity.pid).map (·.identity) ≠ some root.identity →
            Closed Q W t u (t2.fail .rootLost) := by
          intro hne
          apply hnone (t2.fail .rootLost) hq2 ((failures_fail_ne (by simp)).trans hf2) hp2
          rintro p ⟨-, root', hdis, -, -, hmap, -⟩
          obtain rfl := hunique hl hdis
          exact hne hmap
        have hmember : (W.record root.identity.pid).map (·.identity) = some root.identity →
            ∀ p, GroupMember t W p ↔
              p ∈ W.members root.identity.pgid ∧ W.InGroup root.identity.pgid p := by
          intro hmap p
          constructor
          · rintro ⟨-, root', hdis, -, -, -, hm⟩
            obtain rfl := hunique hl hdis
            exact hm
          · intro hm
            exact ⟨hadopt, root, (hd _ _).mp (hroot ▸ hl), hex.1, hex.2, hmap, hm⟩
        cases hr : W.record root.identity.pid with
        | none =>
          apply hlost
          simp [hr]
        | some again =>
          dsimp only
          split
          · next heq =>
            have hmap : (W.record root.identity.pid).map (·.identity) = some root.identity := by
              simp [hr, heq]
            intro hu
            obtain ⟨hq3, hf3, hall⟩ := scanMembers_closed hF
              (W.members root.identity.pgid) false i hq2 (by
                rcases hu with ⟨pids, hroom⟩ | hu
                · refine .inl ⟨pids, ?_, ?_, fun p hm hin =>
                    hroom.members p ((hmember hmap p).mpr ⟨hm, hin⟩)⟩
                  · rw [hl2, hp.processLimit]
                    exact hroom.card
                  · intro p hm
                    obtain ⟨r, hlk⟩ := Table.mem_keys.mp hm
                    rw [hp2, hd] at hlk
                    cases hlk with
                    | found hps _ hds => exact hroom.descendants p hds hps
                    | shim ht _ => exact hroom.anchors _ (by simp [ht])
                · exact .inr (hu.trans hf2.symm))
            refine ⟨hq3, hf3.trans hf2, fun p r => ?_⟩
            refine (hall p r).trans ?_
            rw [hp2, hd, Retained, hmember hmap, and_assoc]
          · next hne =>
            apply hlost
            simpa [hr] using hne

lemma discover_closed (hF : Frozen H W Q) (hq : Q false t.source) (hk : Keyed t)
    (hs : W.Current t.shim) : Closed Q W t t (discover H t).1 := by
  have hperm : (t.order H t.processes.values).1.Perm t.processes.values := H.order_perm ..
  generalize hr : (t.order H t.processes.values).1 = records at hperm
  generalize hv : (H.order t.processes.values t.source).2 = u
  have hq1 : Q false u := hv ▸ hF.order t.processes.values t.source false hq
  have hback := start_backlog (W := W) (u := u) hs hperm
  generalize hs0 : (⟨{ t with source := u }, false, t.anchors records, ∅⟩ : Scan σ) = s0 at hback
  have h0 : Sound W Q t s0 := hs0 ▸ start_sound hk hq1 hperm
  have hc0 : Complete W t s0 := hs0 ▸ start_complete hk hs hperm
  have hf0 : s0.tracker.log = t.log := hs0 ▸ rfl
  have heq : discover H t = scanRootGroup H (scanQueue H (t.processLimit * 2 + 1) s0).tracker
      (scanQueue H (t.processLimit * 2 + 1) s0).incomplete := by
    subst hs0 hr hv
    rfl
  have hmono := (scanQueue_probed (H := H) (t.processLimit * 2 + 1) s0).failures_le .processLimit
  have hmono' := (scanRootGroup_probed (H := H) (scanQueue H (t.processLimit * 2 + 1) s0).tracker
    (scanQueue H (t.processLimit * 2 + 1) s0).incomplete).failures_le .processLimit
  rw [hf0] at hmono
  intro hu
  rw [heq] at hu ⊢
  obtain ⟨h1, hc1, he1, hf1⟩ := scanQueue_closed hF hk _ h0 hc0 (by
    rcases hu with ⟨pids, hroom⟩ | hu
    · exact .inl ⟨pids, hroom, hback pids hroom⟩
    · right
      rw [hf0]
      omega)
  rw [hf0] at hf1
  obtain ⟨h2, hf2, hall⟩ := scanRootGroup_closed hF h1.source h1.probed
    (scanQueue H (t.processLimit * 2 + 1) s0).incomplete (h1.discovered hc1 he1)
    (hu.imp id fun hf => hf.trans hf1.symm)
  exact ⟨h2, hf2.trans hf1, hall⟩

def Adopted (t : Tracker σ) (r : ProcessRecord) : Prop :=
  t.adoptOrphans = true ∧ r.identity.pid ≠ t.rootPid ∧ r.ppid = t.shim.pid ∧ r.exited = true

instance : DecidablePred t.Adopted :=
  fun _ => inferInstanceAs (Decidable (_ ∧ _ ∧ _ ∧ _))

def gone (t : Tracker σ) (records : List ProcessRecord) : List ℕ :=
  (records.filter fun r => decide (t.Adopted r)).map (·.identity.pid)

structure Reaped (t : Tracker σ) (pids : List ℕ) (t' : Tracker σ) : Prop where
  settings : t'.settings = t.settings
  lookup : ∀ p, t'.processes.lookup p = if p ∈ pids then none else t.processes.lookup p
  reaps : ∀ p, reaps p t'.log = reaps p t.log + pids.count p
  failures : ∀ why, failures why t'.log = failures why t.log

lemma reapAdopted_frozen (hF : Frozen H W Q) (held : Held) (l : List ProcessRecord) {b : Bool}
    (hq : Q b t.source) : Reaped t (t.gone l) (reapAdopted H held l t) := by
  induction l generalizing t b with
  | nil => exact ⟨rfl, by simp [gone, reapAdopted], by simp [gone, reapAdopted], fun _ => rfl⟩
  | cons r rest ih =>
    by_cases ha : t.Adopted r
    · obtain ⟨hok, hq1⟩ := hF.reap r.identity.pid t.source b hq
      generalize hv : (H.reap r.identity.pid t.source).2 = v at hq1
      generalize ht1 : (t.called (.reap r.identity.pid (.ok ())) held v).removeProcess
        r.identity.pid = t1
      have heq : reapAdopted H held (r :: rest) t = reapAdopted H held rest t1 := by
        obtain ⟨h1, h2, h3, h4⟩ := id ha
        rw [reapAdopted, reap, hok, hv, ← ht1]
        simp [h1, h2, h3, h4]
      have hq1' : Q true t1.source := ht1 ▸ hq1
      have hset : t1.settings = t.settings := ht1 ▸ rfl
      have hgone : t1.gone = t.gone := by
        subst ht1
        rfl
      have hr := ih hq1'
      rw [heq]
      have hcons : t.gone (r :: rest) = r.identity.pid :: t.gone rest := by
        simp [gone, ha]
      rw [hcons]
      refine ⟨hr.settings.trans hset, fun p => ?_, fun p => ?_, fun why => ?_⟩
      · rw [hr.lookup, hgone]
        by_cases hp : p = r.identity.pid
        · subst hp
          have herase : t1.processes.lookup r.identity.pid = none := by
            rw [← ht1]
            exact AList.lookup_erase ..
          simp [herase]
        · have hkeep : t1.processes.lookup p = t.processes.lookup p := by
            rw [← ht1]
            exact AList.lookup_erase_ne hp
          simp [hkeep, hp]
      · rw [hr.reaps, hgone, List.count_cons]
        have hlog : Native.reaps p t1.log =
            Native.reaps p t.log + if r.identity.pid == p then 1 else 0 := by
          rw [← ht1]
          exact List.countP_cons
        omega
      · rw [hr.failures, ← ht1]
        exact failures_called (u := v)
    · have heq : reapAdopted H held (r :: rest) t = reapAdopted H held rest t := by
        rw [reapAdopted, if_neg]
        intro hc
        simp only [Bool.and_eq_true, bne_iff_ne, beq_iff_eq] at hc
        exact ha ⟨hc.1.1.1, hc.1.1.2, hc.1.2, hc.2⟩
      have hcons : t.gone (r :: rest) = t.gone rest := by
        simp [gone, ha]
      rw [heq, hcons]
      exact ih hq

def leaders (records : List ProcessRecord) : List ProcessIdentity :=
  (records.map (·.identity)).filter fun id => decide (id.pid = id.pgid)

lemma recordGroups_failures (l : List ProcessRecord) (why : Failure) :
    failures why t.log ≤ failures why (recordGroups l t).log := by
  induction l generalizing t with
  | nil => exact le_rfl
  | cons r rest ih =>
    simp only [recordGroups]
    split
    · split
      · apply le_trans _ (ih (t := t.fail .groupLimit))
        rw [failures, failures, fail, List.countP_cons]
        exact Nat.le_add_right _ _
      · exact ih (t := t.recordGroup r.identity)
    · exact ih

lemma recordGroups_recorded (l : List ProcessRecord)
    (hu : (∃ ids : Finset ProcessIdentity, ids.card ≤ t.groupLimit ∧ (∀ id ∈ t.groups, id ∈ ids) ∧
        ∀ id ∈ leaders l, id ∈ ids) ∨
      failures .groupLimit (recordGroups l t).log = failures .groupLimit t.log) :
    failures .groupLimit (recordGroups l t).log = failures .groupLimit t.log ∧
      ∀ id, id ∈ (recordGroups l t).groups ↔ id ∈ t.groups ∨ id ∈ leaders l := by
  induction l generalizing t with
  | nil => exact ⟨rfl, by simp [recordGroups, leaders]⟩
  | cons r rest ih =>
    by_cases hlead : r.identity.pid = r.identity.pgid
    · have hcons : leaders (r :: rest) = r.identity :: leaders rest := by
        simp [leaders, hlead]
      rw [hcons] at hu ⊢
      by_cases hnew : t.groups.lookup r.identity = none
      · by_cases hfull : t.groupLimit ≤ t.groups.size
        · exfalso
          rcases hu with ⟨ids, hcard, hkeys, hmem⟩ | hu
          · have hlt := Table.size_lt_card (fun id hm => hkeys id (AList.mem_keys.mpr hm))
              (hmem _ List.mem_cons_self) hnew
            omega
          · have heq : recordGroups (r :: rest) t = recordGroups rest (t.fail .groupLimit) := by
              simp [recordGroups, hlead, hnew, hfull]
            have hmono := recordGroups_failures (t := t.fail .groupLimit) rest .groupLimit
            rw [heq] at hu
            rw [failures_fail] at hmono
            omega
        · have heq : recordGroups (r :: rest) t = recordGroups rest (t.recordGroup r.identity) := by
            simp [recordGroups, hlead, hnew, hfull]
          rw [heq] at hu ⊢
          obtain ⟨hf, hall⟩ := ih (t := t.recordGroup r.identity) (by
            rcases hu with ⟨ids, hcard, hkeys, hmem⟩ | hu
            · refine .inl ⟨ids, hcard, ?_, fun id hm => hmem id (List.mem_cons_of_mem _ hm)⟩
              intro id hm
              rcases (AList.mem_insert _).mp hm with rfl | hm
              · exact hmem _ List.mem_cons_self
              · exact hkeys id hm
            · exact .inr hu)
          refine ⟨hf, fun id => ?_⟩
          rw [hall, List.mem_cons]
          have hins : id ∈ (t.recordGroup r.identity).groups ↔ id = r.identity ∨ id ∈ t.groups :=
            AList.mem_insert _
          rw [hins, or_assoc, or_left_comm]
      · have heq : recordGroups (r :: rest) t = recordGroups rest t := by
          simp [recordGroups, hlead, hnew]
        have hold : r.identity ∈ t.groups := by
          rw [← AList.lookup_isSome]
          exact Option.isSome_iff_ne_none.mpr hnew
        rw [heq] at hu ⊢
        obtain ⟨hf, hall⟩ := ih (t := t) (by
          rcases hu with ⟨ids, hcard, hkeys, hmem⟩ | hu
          · exact .inl ⟨ids, hcard, hkeys, fun id hm => hmem id (List.mem_cons_of_mem _ hm)⟩
          · exact .inr hu)
        refine ⟨hf, fun id => ?_⟩
        rw [hall, List.mem_cons]
        constructor
        · exact Or.imp_right .inr
        · rintro (h | rfl | h)
          · exact .inl h
          · exact .inl hold
          · exact .inr h
    · have heq : recordGroups (r :: rest) t = recordGroups rest t := by
        simp [recordGroups, hlead]
      have hcons : leaders (r :: rest) = leaders rest := by
        simp [leaders, hlead]
      rw [heq, hcons] at hu ⊢
      exact ih hu

lemma mem_gone (hk : Keyed t) {records : List ProcessRecord}
    (hr : records.Perm t.processes.values) {p : ℕ} :
    p ∈ t.gone records ↔ ∃ r, t.processes.lookup p = some r ∧ t.Adopted r := by
  simp only [gone, List.mem_map, List.mem_filter, decide_eq_true_eq, hr.mem_iff, Table.mem_values]
  constructor
  · rintro ⟨r, ⟨⟨q, hl⟩, ha⟩, rfl⟩
    exact ⟨r, (hk q r hl).symm ▸ hl, ha⟩
  · rintro ⟨r, hl, ha⟩
    exact ⟨r, ⟨⟨p, hl⟩, ha⟩, hk p r hl⟩

lemma gone_nodup (hk : Keyed t) {records : List ProcessRecord}
    (hr : records.Perm t.processes.values) : (t.gone records).Nodup := by
  have hkeys : t.processes.values.map (·.identity.pid) = t.processes.keys := Table.map_values hk
  have hall : (records.map (·.identity.pid)).Nodup := by
    rw [(hr.map _).nodup_iff, hkeys]
    exact t.processes.keys_nodup
  exact hall.sublist (List.filter_sublist.map _)

structure Pruned (t t' : Tracker σ) : Prop where
  lookup : ∀ p r, t'.processes.lookup p = some r ↔ t.processes.lookup p = some r ∧ ¬t.Adopted r
  reaped : ∀ p r, t.processes.lookup p = some r → t.Adopted r →
    reaps p t'.log = reaps p t.log + 1
  spared : ∀ p, (∀ r, t.processes.lookup p = some r → ¬t.Adopted r) →
    reaps p t'.log = reaps p t.log
  processLimit : failures .processLimit t'.log = failures .processLimit t.log

lemma recordGroups_frame (l : List ProcessRecord) :
    (recordGroups l t).processes = t.processes ∧
      (∀ pid, reaps pid (recordGroups l t).log = reaps pid t.log) ∧
      failures .processLimit (recordGroups l t).log = failures .processLimit t.log := by
  induction l generalizing t with
  | nil => exact ⟨rfl, fun _ => rfl, rfl⟩
  | cons r rest ih =>
    simp only [recordGroups]
    split
    · split
      · obtain ⟨hp, hr, hf⟩ := ih (t := t.fail .groupLimit)
        refine ⟨hp, fun pid => (hr pid).trans ?_, hf.trans (failures_fail_ne (by simp))⟩
        simp [reaps, fail, Event.isReap]
      · exact ih (t := t.recordGroup r.identity)
    · exact ih

structure GroupRoom (t : Tracker σ) (W : World) (ids : Finset ProcessIdentity) : Prop where
  card : ids.card ≤ t.groupLimit
  groups : ∀ id ∈ t.groups, id ∈ ids
  leaders : ∀ p r, Retained t W p r → r.identity.pid = r.identity.pgid → r.identity ∈ ids

lemma prune_eq (t : Tracker σ) : ∃ records records' u u',
    records.Perm t.processes.values ∧
    u = (H.order t.processes.values t.source).2 ∧
    records'.Perm (reapAdopted H t.held records { t with source := u }).processes.values ∧
    t.prune H = pruneMembers (recordGroups records'
      { (reapAdopted H t.held records { t with source := u }).pruneGroups with source := u' }) :=
  ⟨_, _, _, _, H.order_perm .., rfl, H.order_perm .., rfl⟩

lemma prune_closed (hF : Frozen H W Q) (hq : Q false t.source) (hk : Keyed t) :
    Pruned t (t.prune H) ∧
      ((∃ ids : Finset ProcessIdentity, ids.card ≤ t.groupLimit ∧ (∀ id ∈ t.groups, id ∈ ids) ∧
          ∀ p r, t.processes.lookup p = some r → r.identity.pid = r.identity.pgid →
            r.identity ∈ ids) ∨
        failures .groupLimit (t.prune H).log = failures .groupLimit t.log →
        failures .groupLimit (t.prune H).log = failures .groupLimit t.log ∧
          ∀ p r, (t.prune H).processes.lookup p = some r → r.identity.pid = r.identity.pgid →
            r.identity ∈ (t.prune H).groups) := by
  obtain ⟨records, records', u, u', hperm, hu, hperm', heq⟩ := prune_eq (H := H) t
  have hq1 : Q false u := hu ▸ hF.order t.processes.values t.source false hq
  have hr : Reaped { t with source := u } (t.gone records)
      (reapAdopted H t.held records { t with source := u }) :=
    reapAdopted_frozen hF _ _ hq1
  generalize reapAdopted H t.held records { t with source := u } = t2 at hr hperm' heq
  rw [heq]
  have hlookup : ∀ p, t2.processes.lookup p =
      if p ∈ t.gone records then none else t.processes.lookup p := hr.lookup
  have hreaps : ∀ p, reaps p t2.log = reaps p t.log + (t.gone records).count p := hr.reaps
  have hfails : ∀ why, failures why t2.log = failures why t.log := hr.failures
  have hlimit : t2.groupLimit = t.groupLimit :=
    congrArg (fun u : Tracker Unit => u.groupLimit) hr.settings
  have hgroups : t2.groups = t.groups := congrArg (fun u : Tracker Unit => u.groups) hr.settings
  generalize ht3 : ({ t2.pruneGroups with source := u' } : Tracker σ) = t3
  obtain ⟨hp3, hr3, hf3⟩ := recordGroups_frame (t := t3) records'
  have hp32 : t3.processes = t2.processes := ht3 ▸ rfl
  have hl32 : t3.log = t2.log := ht3 ▸ rfl
  have hproc : (pruneMembers (recordGroups records' t3)).processes = t2.processes := hp3.trans hp32
  have hmem : ∀ p, p ∈ t.gone records ↔ ∃ r, t.processes.lookup p = some r ∧ t.Adopted r :=
    fun p => mem_gone hk hperm
  constructor
  · refine ⟨fun p r => ?_, fun p r hl ha => ?_, fun p hn => ?_, ?_⟩
    · rw [hproc, hlookup]
      split
      · next hg =>
        obtain ⟨r', hl, ha⟩ := (hmem p).mp hg
        constructor
        · intro h
          cases h
        · rintro ⟨hl', hn⟩
          obtain rfl := Option.some.inj (hl.symm.trans hl')
          exact absurd ha hn
      · next hg =>
        constructor
        · exact fun hl => ⟨hl, fun ha => hg ((hmem p).mpr ⟨r, hl, ha⟩)⟩
        · exact fun h => h.1
    · have hone : (t.gone records).count p = 1 :=
        List.count_eq_one_of_mem (gone_nodup hk hperm) ((hmem p).mpr ⟨r, hl, ha⟩)
      rw [← hone, ← hreaps, ← hl32]
      exact hr3 p
    · have hzero : (t.gone records).count p = 0 := by
        apply List.count_eq_zero.mpr
        intro hg
        obtain ⟨r, hl, ha⟩ := (hmem p).mp hg
        exact hn r hl ha
      refine (hr3 p).trans ?_
      rw [hl32, hreaps, hzero, Nat.add_zero]
    · refine hf3.trans ?_
      rw [hl32, hfails]
  · have hold : ∀ id ∈ t3.groups, id ∈ t.groups := by
      intro id hm
      obtain ⟨v, hv⟩ := Option.isSome_iff_exists.mp (AList.lookup_isSome.mpr hm)
      have hv2 : t2.groups.lookup id = some v := by
        subst ht3
        exact (Table.lookup_retain.mp hv).1
      rw [hgroups] at hv2
      exact AList.lookup_isSome.mp (Option.isSome_iff_exists.mpr ⟨v, hv2⟩)
    have hlead : ∀ p r, t2.processes.lookup p = some r → r.identity.pid = r.identity.pgid →
        r.identity ∈ leaders records' := by
      intro p r hl hpg
      apply List.mem_filter.mpr
      refine ⟨List.mem_map_of_mem ?_, by simpa using hpg⟩
      exact hperm'.mem_iff.mpr (Table.mem_values.mpr ⟨p, hl⟩)
    intro hroom
    have hlog : ∀ why, failures why (pruneMembers (recordGroups records' t3)).log =
        failures why (recordGroups records' t3).log := fun _ => rfl
    obtain ⟨hf, hall⟩ := recordGroups_recorded (t := t3) records' (by
      rcases hroom with ⟨ids, hcard, hkeys, hids⟩ | hu
      · refine .inl ⟨ids, ?_, fun id hm => hkeys id (hold id hm), ?_⟩
        · have hlim3 : t3.groupLimit = t.groupLimit := by
            rw [← hlimit, ← ht3]
            rfl
          rw [hlim3]
          exact hcard
        · intro id hm
          obtain ⟨hm, hpg⟩ := List.mem_filter.mp hm
          obtain ⟨r, hr', rfl⟩ := List.mem_map.mp hm
          obtain ⟨p, hl⟩ := Table.mem_values.mp (hperm'.mem_iff.mp hr')
          rw [hlookup] at hl
          split at hl
          · cases hl
          · exact hids p r hl (by simpa using hpg)
      · right
        rw [hlog] at hu
        rw [hu, hl32, hfails])
    constructor
    · rw [hlog, hf, hl32, hfails]
    · intro p r hl hpg
      rw [hproc] at hl
      exact (hall _).mpr (.inr (hlead p r hl hpg))

lemma concludeScan_frame (i : Bool) (pid : ℕ) (why : Failure) (hw : why ≠ .incompleteScans) :
    reaps pid (t.concludeScan i).log = reaps pid t.log ∧
      failures why (t.concludeScan i).log = failures why t.log ∧
      (t.concludeScan i).processes = t.processes ∧ (t.concludeScan i).groups = t.groups := by
  have hcount : reaps pid (t.countScan i).log = reaps pid t.log ∧
      failures why (t.countScan i).log = failures why t.log :=
    ⟨rfl, rfl⟩
  rw [concludeScan]
  split
  · refine ⟨hcount.1, ?_, rfl, rfl⟩
    rw [failures_fail_ne hw.symm]
    exact hcount.2
  · exact ⟨hcount.1, hcount.2, rfl, rfl⟩

def Unlimited (t t' : Tracker σ) : Prop :=
  failures .processLimit t'.log = failures .processLimit t.log ∧
    failures .groupLimit t'.log = failures .groupLimit t.log

instance (t t' : Tracker σ) : Decidable (Unlimited t t') :=
  inferInstanceAs (Decidable (_ ∧ _))

/-- A scan of `t` that ended in `t'` found the closure of the anchors, no more and no less. -/
structure Exact (t : Tracker σ) (W : World) (t' : Tracker σ) : Prop where
  processes : ∀ p ≠ t.shim.pid, ∀ r, t'.processes.lookup p = some r ↔
    W.record p = some r ∧ (Descends t W p ∨ GroupMember t W p) ∧ ¬Adopted t r
  reaped : ∀ p ≠ t.shim.pid, ∀ r, W.record p = some r → Descends t W p → Adopted t r →
    reaps p t'.log = reaps p t.log + 1
  spared : ∀ p ≠ t.shim.pid, (∀ r, W.record p = some r → Descends t W p → ¬Adopted t r) →
    reaps p t'.log = reaps p t.log
  groups : ∀ p r, t'.processes.lookup p = some r → r.identity.pid = r.identity.pgid →
    r.identity ∈ t'.groups
  shim : (t'.processes.lookup t.shim.pid).isSome →
    (t.processes.lookup t.shim.pid).isSome ∨ GroupMember t W t.shim.pid

lemma retained_iff {p : ℕ} (hp : p ≠ t.shim.pid) {r : ProcessRecord} :
    Retained t W p r ↔ W.record p = some r ∧ (Descends t W p ∨ GroupMember t W p) := by
  have hfound : Discovered t W p r ↔ W.record p = some r ∧ Descends t W p := by
    constructor
    · intro h
      cases h with
      | found _ hr hd => exact ⟨hr, hd⟩
      | shim => exact absurd rfl hp
    · exact fun h => .found hp h.1 h.2
  rw [Retained, hfound]
  tauto

lemma Retained.pid (hk : Keyed t) {p : ℕ} {r : ProcessRecord} (h : Retained t W p r) :
    r.identity.pid = p := by
  rcases h with ⟨-, hr⟩ | ⟨-, h⟩
  · exact W.keyed _ _ hr
  · cases h with
    | found _ hr _ => exact W.keyed _ _ hr
    | shim hl _ => exact hk _ _ hl

lemma reapAdopted_failures (held : Held) (l : List ProcessRecord) (why : Failure) :
    failures why t.log ≤ failures why (reapAdopted H held l t).log := by
  induction l generalizing t with
  | nil => exact le_rfl
  | cons r rest ih =>
    have hstep : ∀ call u, failures why t.log ≤ failures why (t.called call held u).log := by
      intro call u
      rw [failures_called]
    rw [reapAdopted]
    split
    · rw [reap]
      generalize (H.reap r.identity.pid t.source).2 = u
      split
      · next h =>
        obtain ⟨-, rfl⟩ := Prod.mk.inj h
        apply le_trans _ ih
        rw [failures, failures, fail, List.countP_cons]
        exact (hstep _ u).trans (Nat.le_add_right _ _)
      · next h =>
        obtain ⟨-, rfl⟩ := Prod.mk.inj h
        exact (hstep _ u).trans (ih (t := (t.called _ held u).removeProcess r.identity.pid))
    · exact ih

lemma prune_failures (t : Tracker σ) (why : Failure) :
    failures why t.log ≤ failures why (t.prune H).log := by
  obtain ⟨records, records', u, u', -, -, -, heq⟩ := prune_eq (H := H) t
  rw [heq]
  exact (reapAdopted_failures (t := { t with source := u }) t.held records why).trans
    (recordGroups_failures (t := { Tracker.pruneGroups _ with source := u' }) records' why)

/-- Every scan within the limits is exact, and one with room for everything stays within them. -/
theorem scan_closure (hF : Frozen H W Q) (hq : Q false t.source) (hk : Keyed t)
    (hs : W.Current t.shim) :
    ((∃ pids, Roomy t W pids) → (∃ ids, GroupRoom t W ids) → Unlimited t (t.scan H)) ∧
      (Unlimited t (t.scan H) → Exact t W (t.scan H)) := by
  have hd := discover_closed hF hq hk hs
  have hp := discover_probed (H := H) t
  have hscan : t.scan H = ((discover H t).1.prune H).concludeScan (discover H t).2 := rfl
  rw [hscan]
  generalize discover H t = d at hd hp
  obtain ⟨d, i⟩ := d
  dsimp only at hd hp ⊢
  have hmono := prune_failures (H := H) d .processLimit
  have hmono' := hp.failures_le .processLimit
  have hlimit := (concludeScan_frame (t := d.prune H) i 0 .processLimit (by simp)).2.1
  have hglimit := (concludeScan_frame (t := d.prune H) i 0 .groupLimit (by simp)).2.1
  have hkeyed : (∀ p r, d.processes.lookup p = some r ↔ Retained t W p r) → Keyed d :=
    fun hall p r hl => ((hall p r).mp hl).pid hk
  constructor
  · rintro ⟨pids, hroom⟩ ⟨ids, hgroups⟩
    obtain ⟨hqd, hfd, hall⟩ := hd (.inl ⟨pids, hroom⟩)
    obtain ⟨hpruned, hgroup⟩ := prune_closed hF hqd (hkeyed hall)
    obtain ⟨hg, -⟩ := hgroup (.inl ⟨ids, hp.groupLimit ▸ hgroups.card, hp.groups ▸ hgroups.groups,
      fun p r hl => hgroups.leaders p r ((hall p r).mp hl)⟩)
    exact ⟨(hlimit.trans hpruned.processLimit).trans hfd,
      (hglimit.trans hg).trans hp.failures_groupLimit⟩
  · rintro ⟨hu, hgu⟩
    obtain ⟨hqd, hfd, hall⟩ := hd (.inr (by omega))
    obtain ⟨hpruned, hgroup⟩ := prune_closed hF hqd (hkeyed hall)
    obtain ⟨-, hlead⟩ := hgroup (.inr ((hglimit.symm.trans hgu).trans hp.failures_groupLimit.symm))
    have hadopt : ∀ r, d.Adopted r ↔ t.Adopted r := by
      intro r
      rw [Adopted, Adopted, hp.adoptOrphans, hp.rootPid, hp.shim]
    -- adopted processes are found as descendants: a system that adopts lists no root group
    have hdesc : ∀ p ≠ t.shim.pid, ∀ r, t.Adopted r → (d.processes.lookup p = some r ↔
        W.record p = some r ∧ Descends t W p) := by
      intro p hps r ha
      rw [hall, retained_iff hps]
      constructor
      · rintro ⟨hr, h | ⟨hn, -⟩⟩
        · exact ⟨hr, h⟩
        · cases ha.1.symm.trans hn
      · exact fun h => ⟨h.1, .inl h.2⟩
    have hreaps : ∀ p, reaps p ((d.prune H).concludeScan i).log = reaps p (d.prune H).log := fun p =>
      (concludeScan_frame (t := d.prune H) i p .processLimit (by simp)).1
    have hframe := concludeScan_frame (t := d.prune H) i 0 .processLimit (by simp)
    refine ⟨fun p hps r => ?_, fun p hps r hr hdsc ha => ?_, fun p hps hn => ?_, ?_, ?_⟩
    · rw [hframe.2.2.1, hpruned.lookup, hall, retained_iff hps, hadopt, and_assoc]
    · rw [hreaps, hpruned.reaped p r ((hdesc p hps r ha).mpr ⟨hr, hdsc⟩) ((hadopt r).mpr ha),
        hp.reaps]
    · rw [hreaps, hpruned.spared, hp.reaps]
      intro r hl ha
      have ha := (hadopt r).mp ha
      obtain ⟨hr, hdsc⟩ := (hdesc p hps r ha).mp hl
      exact hn r hr hdsc ha
    · rw [hframe.2.2.1, hframe.2.2.2]
      exact hlead
    · intro hsome
      obtain ⟨r, hl⟩ := Option.isSome_iff_exists.mp hsome
      rw [hframe.2.2.1, hpruned.lookup, hall] at hl
      rcases hl.1 with ⟨hg, -⟩ | ⟨-, hdis⟩
      · exact .inr hg
      · generalize hpid : t.shim.pid = p at hdis
        cases hdis with
        | found hne => exact absurd hpid.symm hne
        | shim ht _ => exact .inl (by simp [ht])

def Reliable (H : Host σ) : Prop :=
  ∀ pid u r, (H.read pid u).1 = .ok (some r) → r.identity.pid = pid

def Truthful : Event → Prop
  | .call (.read pid (.ok (some r))) _ => r.identity.pid = pid
  | _ => True

structure Anchored (t : Tracker σ) : Prop where
  keyed : Keyed t
  log : ∀ e ∈ t.log, Truthful e

namespace Anchored

lemma frame (h : Anchored t) (hp : t'.processes = t.processes) (hl : t'.log = t.log) :
    Anchored t' := by
  refine ⟨fun p r hr => h.keyed p r (hp ▸ hr), fun e he => h.log e (hl ▸ he)⟩

lemma add (h : Anchored t) {e : Event} (hp : t'.processes = t.processes)
    (hl : t'.log = e :: t.log) (he : Truthful e) : Anchored t' := by
  refine ⟨fun p r hr => h.keyed p r (hp ▸ hr), ?_⟩
  rw [hl]
  exact List.forall_mem_cons.mpr ⟨he, h.log⟩

lemma fail (h : Anchored t) (why : Failure) : Anchored (t.fail why) :=
  h.add rfl rfl trivial

lemma scanError (h : Anchored t) (e : IoError) : Anchored (t.scanError e) := by
  rw [Tracker.scanError]
  split
  · exact h.fail _
  · exact h

lemma read (h : Anchored t) (hH : Reliable H) {pid : ℕ} {a : Io (Option ProcessRecord)}
    (hr : t.read H pid = (a, t')) : Anchored t' := by
  have ha : (H.read pid t.source).1 = a := congrArg Prod.fst hr
  obtain rfl := read_eq hr
  refine h.add rfl rfl ?_
  cases a with
  | error e => exact trivial
  | ok a =>
    cases a with
    | none => exact trivial
    | some r => exact hH _ _ _ ha

lemma erase (h : Anchored t) (pid : ℕ) : Anchored (t.removeProcess pid) := by
  refine ⟨fun p r hr => ?_, h.log⟩
  by_cases hp : p = pid
  · have hn : (t.processes.erase pid).lookup p = none := hp ▸ AList.lookup_erase ..
    cases hr.symm.trans hn
  · exact h.keyed p r ((AList.lookup_erase_ne hp).symm.trans hr)

lemma scanEffect (hH : Reliable H) {s s' : Tracker σ × Bool} (h : Anchored s.1)
    (he : ScanEffect H s s') : Anchored s'.1 := by
  cases he with
  | order | unresolved | pruneGroups | record | pruneMembers => exact h.frame rfl rfl
  | looked hr => exact h.read hH hr
  | lookFailed hr => exact (h.read hH hr).scanError _
  | listed hr | listGone hr | grouped hr =>
    obtain ⟨-, rfl⟩ := Prod.mk.inj hr
    exact h.add rfl rfl trivial
  | listFailed hr | groupFailed hr =>
    obtain ⟨-, rfl⟩ := Prod.mk.inj hr
    apply scanError
    exact h.add rfl rfl trivial
  | keep pid r hlast =>
    obtain ⟨held, hl⟩ := hlast
    refine ⟨fun p r' hl' => ?_, h.log⟩
    rw [lookup_keepProcess] at hl'
    split at hl'
    · next hp =>
      obtain rfl := Option.some.inj hl'
      rw [hp]
      exact h.log _ (List.mem_of_head? hl)
    · exact h.keyed p r' hl'
  | drop id =>
    dsimp only [dropStale]
    split
    · exact h.erase _
    · exact h
  | failed why => exact h.fail why
  | reaped held r hr =>
    obtain rfl := reap_frame hr
    apply erase
    exact h.add rfl rfl trivial
  | reapFailed held r hr =>
    obtain rfl := reap_frame hr
    apply fail
    exact h.add rfl rfl trivial

lemma effect (hH : Reliable H) {s s' : Tracker σ × Bool} (h : Anchored s.1) (he : Effect H s s') :
    Anchored s'.1 := by
  cases he with
  | scan he => exact h.scanEffect hH he
  | asked ha =>
    obtain rfl := now_eq ha
    exact h.add rfl rfl trivial
  | @checked t i id group signal =>
    have hc := sendChecked_cases (H := H) t id group signal
    generalize t.sendChecked H id group signal = r at hc ⊢
    cases hc with
    | unreadable hr | invalid hr => exact (h.read hH hr).fail _
    | refused hr | verified hr => exact h.read hH hr
    | sent hr _ _ _ _ hs | noMembers hr _ _ _ _ hs =>
      obtain rfl := signal_eq hs
      exact (h.read hH hr).add rfl rfl trivial
    | unsent hr _ _ _ _ hs =>
      obtain rfl := signal_eq hs
      apply fail
      exact (h.read hH hr).add rfl rfl trivial
  | setGroup | setMembers | take => exact h.frame rfl rfl
  | begin now interrupt term =>
    dsimp only [beginCleanup]
    split
    · exact h
    · exact h.frame rfl rfl
  | advanced => exact h.add rfl rfl trivial

lemma concludeScan (h : Anchored t) (i : Bool) : Anchored (t.concludeScan i) := by
  have hc : Anchored (t.countScan i) := h.add rfl rfl trivial
  rw [Tracker.concludeScan]
  split
  · exact hc.fail _
  · exact hc

end Anchored

lemma withSource_anchored (source : σ) (shim root : ProcessIdentity) :
    Anchored (withSource H source shim root) := by
  refine ⟨fun p r hl => ?_, by simp [withSource, empty]⟩
  have hl : (AList.insert root.pid ⟨root, shim.pid, false⟩ (∅ : Table ℕ ProcessRecord)).lookup p =
    some r := hl
  by_cases hp : p = root.pid
  · subst hp
    rw [AList.lookup_insert] at hl
    obtain rfl := Option.some.inj hl
    rfl
  · rw [AList.lookup_insert_ne hp] at hl
    cases hl

lemma run_anchored (hH : Reliable H) (ht : Anchored t) (ops : List Op) : Anchored (run H t ops) :=
  run_invariant (I := fun s => Anchored s.1) (fun _ _ h he => h.effect hH he)
    (fun _ i h => h.concludeScan i) ops t ht

theorem run_keyed (hH : Reliable H) (source : σ) (shim root : ProcessIdentity) (ops : List Op) :
    Keyed (run H (withSource H source shim root) ops) :=
  (run_anchored hH (withSource_anchored source shim root) ops).keyed

end Tracker

namespace World

def host (W : World) (platform : Platform) : Host Unit where
  read pid u := (.ok (W.record pid), u)
  children pid u := (.ok (W.children pid), u)
  groupMembers pgid u := (.ok (W.members pgid), u)
  signal _ _ u := (.ok (), u)
  reap _ u := (.ok (), u)
  now reference u := (reference, u)
  platform := platform
  order l u := (l, u)
  order_perm l _ := .refl l

lemma frozen_host (W : World) (platform : Platform) : Frozen (W.host platform) W fun _ _ => True :=
  ⟨fun _ _ _ => ⟨rfl, trivial⟩, fun _ _ _ => ⟨rfl, trivial⟩, fun _ _ _ => ⟨rfl, trivial⟩,
    fun _ _ _ _ => ⟨rfl, trivial⟩, fun _ _ _ _ => trivial⟩

def ofRecords (records : List ProcessRecord) : World where
  record pid := records.find? fun r => r.identity.pid == pid
  children pid := (records.filter fun r => r.ppid == pid).map (·.identity.pid)
  members pgid := (records.filter fun r => r.identity.pgid == pgid).map (·.identity.pid)
  keyed := by
    intro pid r h
    simpa using List.find?_some h

lemma reliable_host (W : World) (platform : Platform) : Tracker.Reliable (W.host platform) := by
  intro pid u r h
  exact W.keyed pid r (Except.ok.inj h)

end World

namespace Tracker

def family : World :=
  .ofRecords [⟨⟨1, 1, .macos 0 0⟩, 0, false⟩, ⟨⟨2, 2, .macos 1 0⟩, 1, false⟩,
    ⟨⟨3, 2, .macos 2 0⟩, 2, false⟩, ⟨⟨4, 4, .macos 3 0⟩, 1, true⟩]

def familyTracker : Tracker Unit :=
  withSource (family.host .linux) () ⟨1, 1, .macos 0 0⟩ ⟨2, 2, .macos 1 0⟩

theorem scan_closure_family :
    Exact familyTracker family (familyTracker.scan (family.host .linux)) := by
  apply (scan_closure (family.frozen_host .linux) trivial _ _).2
  · decide +kernel
  · exact run_keyed (family.reliable_host .linux) () _ _ []
  · exact ⟨⟨⟨1, 1, .macos 0 0⟩, 0, false⟩, rfl, rfl⟩

def Linked (t : Tracker σ) (W : World) (p : ℕ) : Prop :=
  ∃ root, Root t W root ∧ ReflTransGen W.Edge root p

def nested : World :=
  .ofRecords [⟨⟨1, 1, .macos 0 0⟩, 2, false⟩, ⟨⟨2, 2, .macos 1 0⟩, 1, false⟩,
    ⟨⟨3, 3, .macos 2 0⟩, 1, false⟩]

def nestedTracker : Tracker Unit :=
  withSource (nested.host .macos) () ⟨1, 1, .macos 0 0⟩ ⟨2, 2, .macos 1 0⟩

/-- Child edges that lead to the shim are not followed. -/
theorem scan_closure_fails :
    Keyed nestedTracker ∧ nested.Current nestedTracker.shim ∧
      Unlimited nestedTracker (nestedTracker.scan (nested.host .macos)) ∧
      Linked nestedTracker nested 3 ∧ nested.record 3 = some ⟨⟨3, 3, .macos 2 0⟩, 1, false⟩ ∧
      (nestedTracker.scan (nested.host .macos)).processes.lookup 3 = none := by
  refine ⟨run_keyed (nested.reliable_host .macos) () _ _ [], ?_, by decide +kernel, ?_, rfl,
    by decide +kernel⟩
  · exact ⟨⟨⟨1, 1, .macos 0 0⟩, 2, false⟩, rfl, rfl⟩
  · have hshim : nested.Edge 2 1 := ⟨by decide, ⟨⟨1, 1, .macos 0 0⟩, 2, false⟩, rfl, rfl⟩
    have hchild : nested.Edge 1 3 := ⟨by decide, ⟨⟨3, 3, .macos 2 0⟩, 1, false⟩, rfl, rfl⟩
    refine ⟨2, .inl ⟨⟨⟨2, 2, .macos 1 0⟩, 1, false⟩, rfl, ?_⟩, .tail (.single hshim) hchild⟩
    exact ⟨⟨⟨2, 2, .macos 1 0⟩, 1, false⟩, rfl, rfl⟩

end Tracker

end Forcola.Native
