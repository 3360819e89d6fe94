import Forcola.Native.Tracking
import Mathlib.Logic.Relation

/-! Everything a tracker operation can do, as single effects between two source calls. -/

namespace Forcola.Native.Tracker

open Forcola.Library Relation

variable {σ : Type} {H : Host σ}

def Last (t : Tracker σ) (call : Call) : Prop :=
  ∃ held, t.log.head? = some (.call call held)

/-- One effect of a scan on the tracker and on its incomplete flag. The end of the scan,
which reads the flag, is not one of them. -/
inductive ScanEffect (H : Host σ) : Tracker σ × Bool → Tracker σ × Bool → Prop
  | order {t i} {α : Type} (l : List α) : ScanEffect H (t, i) ((t.order H l).2, i)
  | looked {t t' i pid a} : t.read H pid = (.ok a, t') → ScanEffect H (t, i) (t', i)
  | lookFailed {t t' i pid e} :
      t.read H pid = (.error e, t') → ScanEffect H (t, i) (t'.scanError e, true)
  | listed {t t' i pid l} : t.children H pid = (.ok l, t') → ScanEffect H (t, i) (t', i)
  | listGone {t t' i pid e} :
      t.children H pid = (.error e, t') → e.disappeared = true → ScanEffect H (t, i) (t', i)
  | listFailed {t t' i pid e} :
      t.children H pid = (.error e, t') → ScanEffect H (t, i) (t'.scanError e, true)
  | grouped {t t' i pgid l} : t.groupMembers H pgid = (.ok l, t') → ScanEffect H (t, i) (t', i)
  | groupFailed {t t' i pgid e} :
      t.groupMembers H pgid = (.error e, t') → ScanEffect H (t, i) (t'.scanError e, true)
  | keep {t i} (pid r) : t.Last (.read pid (.ok (some r))) →
      ScanEffect H (t, i) (t.keepProcess pid r, i)
  | drop {t i} (id : ProcessIdentity) {a} : t.Last (.read id.pid (.ok a)) →
      a.all (fun r => !r.identity.sameProcess id) = true →
      ScanEffect H (t, i) (t.dropStale id, i)
  | unresolved {t i} (b) : ScanEffect H (t, i) (t.setUnresolved b, i)
  | failed {t i} (why) : ScanEffect H (t, i) (t.fail why, i)
  | reaped {t t' i} (held : Held) (record) : t.reap H held record.identity.pid = (.ok (), t') →
      record ∈ held.processes → t.adoptOrphans = true → record.identity.pid ≠ t.rootPid →
      record.ppid = t.shim.pid → record.exited = true →
      ScanEffect H (t, i) (t'.removeProcess record.identity.pid, i)
  | reapFailed {t t' i e} (held : Held) (record) :
      t.reap H held record.identity.pid = (.error e, t') →
      record ∈ held.processes → t.adoptOrphans = true → record.identity.pid ≠ t.rootPid →
      record.ppid = t.shim.pid → record.exited = true → ScanEffect H (t, i) (t'.fail .reap, i)
  | pruneGroups {t i} : ScanEffect H (t, i) (t.pruneGroups, i)
  | record {t i} (r) : r ∈ t.processes.values → r.identity.pid = r.identity.pgid →
      t.groups.lookup r.identity = none → t.groups.size < t.groupLimit →
      ScanEffect H (t, i) (t.recordGroup r.identity, i)
  | pruneMembers {t i} : ScanEffect H (t, i) (t.pruneMembers, i)

abbrev ScanEffects (H : Host σ) := ReflTransGen (ScanEffect H)

inductive Effect (H : Host σ) : Tracker σ × Bool → Tracker σ × Bool → Prop
  | scan {s s'} : ScanEffect H s s' → Effect H s s'
  | asked {t t' i reference a} : t.now H reference = (a, t') → Effect H (t, i) (t', i)
  | checked {t i} (id group signal) : t.held.Records id →
      Effect H (t, i) ((t.sendChecked H id group signal).2, i)
  | setGroup {t i} (id s) : id ∈ t.groups → Effect H (t, i) (t.setGroup id s, i)
  | setMembers {t i} (ids s) : Effect H (t, i) (t.setMembers ids s, i)
  | begin {t i} (now interrupt term) : Effect H (t, i) (t.beginCleanup now interrupt term, i)
  | advanced {t i} (c c' : Cleanup) : t.cleanup = some c →
      c'.interrupt = c.interrupt → c'.term = c.term → c'.deadline = c.deadline →
      Effect H (t, i) (t.countEmpty c', i)
  | take {t i} : Effect H (t, i) (t.takeNewGroups.2, i)

abbrev Effects (H : Host σ) := ReflTransGen (Effect H)

lemma ScanEffects.single {s s' : Tracker σ × Bool} (h : ScanEffect H s s') : ScanEffects H s s' :=
  ReflTransGen.single h

lemma ScanEffects.effects {s s' : Tracker σ × Bool} (h : ScanEffects H s s') : Effects H s s' := by
  induction h with
  | refl => exact .refl
  | tail _ he ih => exact ih.tail (.scan he)

lemma Effects.single {s s' : Tracker σ × Bool} (h : Effect H s s') : Effects H s s' :=
  ReflTransGen.single h

lemma Effects.invariant {I : Tracker σ × Bool → Prop} (hI : ∀ s s', I s → Effect H s s' → I s')
    {s s' : Tracker σ × Bool} (h : Effects H s s') (hs : I s) : I s' := by
  induction h with
  | refl => exact hs
  | tail _ he ih => exact hI _ _ ih he

variable {t t' : Tracker σ} {i : Bool}

lemma read_eq {pid : ℕ} {a : Io (Option ProcessRecord)} (h : t.read H pid = (a, t')) :
    t' = t.called (.read pid a) t.held (H.read pid t.source).2 := by
  obtain ⟨rfl, rfl⟩ := Prod.mk.inj h
  rfl

lemma read_last {pid : ℕ} {a : Io (Option ProcessRecord)} (h : t.read H pid = (a, t')) :
    t'.Last (.read pid a) :=
  ⟨t.held, by rw [read_eq h]; rfl⟩

lemma scanMembers_effects (expected : ProcessIdentity) (l : List ℕ) (u : Bool)
    (s : Tracker σ × Bool) : ScanEffects H s (scanMembers H expected l u s).2 := by
  induction l generalizing u s with
  | nil => exact .refl
  | cons pid rest ih =>
    obtain ⟨t, i⟩ := s
    rw [scanMembers]
    split
    · next e t' h => exact (ScanEffects.single (.lookFailed h)).trans (ih _ _)
    · next t' h => exact (ScanEffects.single (.looked h)).trans (ih _ _)
    · next member t' h =>
      have hl := ScanEffects.single (.looked (i := i) h)
      split
      · exact hl.trans (ih _ _)
      · split
        · exact hl.tail (.failed _)
        · exact (hl.tail (.keep pid member (read_last h))).trans (ih _ _)

lemma scanRootGroup_effects (t : Tracker σ) (i : Bool) :
    ScanEffects H (t, i) (scanRootGroup H t i) := by
  have h0 : ScanEffects H (t, i) (t.setUnresolved false, i) := .single (.unresolved _)
  simp only [scanRootGroup]
  split
  · exact h0
  · split
    · exact h0
    · next root _ =>
      split
      · exact h0
      · have h1 := h0.tail (.unresolved true)
        split
        · next h => exact h1.tail (.groupFailed h)
        · next members t2 h =>
          have h2 := h1.tail (.grouped h)
          split
          · next h => exact h2.tail (.lookFailed h)
          · next h => exact (h2.tail (.looked h)).tail (.failed _)
          · next h =>
            have h3 := h2.tail (.looked h)
            split
            · exact (h3.trans (scanMembers_effects root.identity members false _)).tail
                (.unresolved _)
            · exact h3.tail (.failed _)

def Scan.state (s : Scan σ) : Tracker σ × Bool :=
  (s.tracker, s.incomplete)

lemma scanChildren_effects (expected : ProcessIdentity) (l : List ℕ) (s : Scan σ) :
    ScanEffects H s.state (scanChildren H expected l s).state := by
  induction l generalizing s with
  | nil => exact .refl
  | cons pid rest ih =>
    rw [scanChildren]
    split
    · exact ih s
    · split
      · next h => exact (ScanEffects.single (.lookFailed h)).trans (ih ⟨_, _, _, _⟩)
      · next h => exact (ScanEffects.single (.looked h)).trans (ih ⟨_, _, _, _⟩)
      · next child t h =>
        have hl : ScanEffects H s.state (t, s.incomplete) := .single (.looked h)
        split
        · exact hl.trans (ih ⟨_, _, _, _⟩)
        · split
          · exact hl.trans (ih ⟨_, _, _, _⟩)
          · split
            · exact hl.tail (.failed _)
            · exact (hl.tail (.keep pid child (read_last h))).trans (ih ⟨_, _, _, _⟩)

lemma scanEntry_effects (expected : ProcessIdentity) (s : Scan σ) :
    ScanEffects H s.state (scanEntry H expected s).state := by
  rw [scanEntry]
  split
  · next h => exact .single (.lookFailed h)
  · next h => exact (ScanEffects.single (.looked h)).tail (.drop expected (read_last h) rfl)
  · next current t h =>
    have hl : ScanEffects H s.state (t, s.incomplete) := .single (.looked h)
    split
    · next hd => exact hl.tail (.drop expected (read_last h) (by simpa using hd))
    · dsimp only
      have hk : ScanEffects H s.state
          (if expected.pid ≠ t.shim.pid then t.keepProcess expected.pid current else t,
            s.incomplete) := by
        split
        · exact hl.tail (.keep _ _ (read_last h))
        · exact hl
      generalize (if expected.pid ≠ t.shim.pid then t.keepProcess expected.pid current else t) = t1
        at hk ⊢
      split
      · next h =>
        split
        · next hg => exact hk.tail (.listGone h hg)
        · exact hk.tail (.listFailed h)
      · next children t2 h =>
        have hc := hk.tail (.listed h)
        split
        · next h => exact hc.tail (.lookFailed h)
        · next h => exact hc.tail (.looked h)
        · next parent t3 h =>
          have hp := hc.tail (.looked h)
          split
          · exact hp.trans (scanChildren_effects expected children ⟨_, _, _, _⟩)
          · exact hp

lemma scanQueue_effects (budget : ℕ) (s : Scan σ) :
    ScanEffects H s.state (scanQueue H budget s).state := by
  induction budget generalizing s with
  | zero =>
    rw [scanQueue]
    split
    · exact .refl
    · exact .single (.failed _)
  | succ budget ih =>
    rw [scanQueue]
    split
    · exact .refl
    · next expected rest _ => exact (scanEntry_effects expected { s with queue := rest }).trans (ih _)

lemma discover_effects (t : Tracker σ) : ScanEffects H (t, false) (discover H t) := by
  rw [discover]
  exact ((ScanEffects.single (.order _)).trans (scanQueue_effects _ ⟨_, false, _, ∅⟩)).trans
    (scanRootGroup_effects _ _)

lemma reap_frame {held : Held} {pid : ℕ} {a : Io Unit} (h : t.reap H held pid = (a, t')) :
    t' = t.called (.reap pid a) held (H.reap pid t.source).2 := by
  obtain ⟨rfl, rfl⟩ := Prod.mk.inj h
  rfl

lemma reapAdopted_effects (held : Held) (l : List ProcessRecord) (t : Tracker σ)
    (hl : ∀ r ∈ l, r ∈ held.processes) : ScanEffects H (t, i) (reapAdopted H held l t, i) := by
  induction l generalizing t with
  | nil => exact .refl
  | cons record rest ih =>
    have hr := hl record List.mem_cons_self
    have hrest := fun r hr => hl r (List.mem_cons_of_mem _ hr)
    rw [reapAdopted]
    split
    · next hc =>
      simp only [Bool.and_eq_true, bne_iff_ne, beq_iff_eq] at hc
      obtain ⟨⟨⟨ha, hroot⟩, hp⟩, he⟩ := hc
      split
      · next h =>
        exact (ScanEffects.single (.reapFailed held record h hr ha hroot hp he)).trans (ih _ hrest)
      · next h =>
        exact (ScanEffects.single (.reaped held record h hr ha hroot hp he)).trans (ih _ hrest)
    · exact ih t hrest

lemma recordGroups_processes (l : List ProcessRecord) (t : Tracker σ) :
    (recordGroups l t).processes = t.processes := by
  induction l generalizing t with
  | nil => rfl
  | cons record rest ih =>
    simp only [recordGroups]
    split
    · split
      · exact ih _
      · exact ih _
    · exact ih t

lemma recordGroups_effects (l : List ProcessRecord) (t : Tracker σ)
    (hl : ∀ r ∈ l, r ∈ t.processes.values) : ScanEffects H (t, i) (recordGroups l t, i) := by
  induction l generalizing t with
  | nil => exact .refl
  | cons record rest ih =>
    have hr := hl record List.mem_cons_self
    have hrest := fun r hr => hl r (List.mem_cons_of_mem _ hr)
    simp only [recordGroups]
    split
    · next hc =>
      split
      · exact (ScanEffects.single (.failed _)).trans (ih _ hrest)
      · next hs =>
        exact (ScanEffects.single (.record record hr hc.1 (by simpa using hc.2) (by omega))).trans
          (ih _ hrest)
    · exact ih t hrest

lemma scanError_frame (t : Tracker σ) (e : IoError) :
    marks (t.scanError e).log = marks t.log ∧ (t.scanError e).cleanup = t.cleanup := by
  rw [scanError]
  split <;> exact ⟨rfl, rfl⟩

lemma mem_order {α : Type} {l : List α} {x : α} : x ∈ (t.order H l).1 ↔ x ∈ l :=
  (H.order_perm l t.source).mem_iff

lemma ScanEffects.frame {s s' : Tracker σ × Bool} (h : ScanEffects H s s') :
    marks s'.1.log = marks s.1.log ∧ s'.1.cleanup = s.1.cleanup := by
  induction h with
  | refl => exact ⟨rfl, rfl⟩
  | tail _ he ih =>
    obtain ⟨hm, hc⟩ := ih
    rw [← hm, ← hc]
    cases he with
    | looked hr => exact read_eq hr ▸ ⟨rfl, rfl⟩
    | lookFailed hr => exact read_eq hr ▸ scanError_frame _ _
    | listed hr | listGone hr | grouped hr =>
      obtain ⟨-, rfl⟩ := Prod.mk.inj hr
      exact ⟨rfl, rfl⟩
    | listFailed hr | groupFailed hr =>
      obtain ⟨-, rfl⟩ := Prod.mk.inj hr
      exact scanError_frame _ _
    | drop id =>
      dsimp only [dropStale]
      split <;> exact ⟨rfl, rfl⟩
    | reaped held r hr | reapFailed held r hr => exact reap_frame hr ▸ ⟨rfl, rfl⟩
    | _ => exact ⟨rfl, rfl⟩

lemma prune_effects (t : Tracker σ) (i : Bool) : ScanEffects H (t, i) (t.prune H, i) := by
  simp only [prune]
  generalize ho : t.order H t.processes.values = o
  have h1 : ScanEffects H (t, i) (o.2, i) := ho ▸ .single (.order _)
  have h2 := h1.trans (reapAdopted_effects (i := i) o.2.held o.1 o.2 (by
    intro r hr
    rw [← ho] at hr ⊢
    exact mem_order.mp hr))
  have h3 := h2.tail .pruneGroups
  generalize pruneGroups (reapAdopted H o.2.held o.1 o.2) = t3 at h3 ⊢
  generalize ho' : t3.order H t3.processes.values = o'
  have h4 : ScanEffects H (t, i) (o'.2, i) := h3.trans (ho' ▸ .single (.order _))
  exact (h4.trans (recordGroups_effects (i := i) o'.1 o'.2 (by
    intro r hr
    rw [← ho'] at hr ⊢
    exact mem_order.mp hr))).tail .pruneMembers

lemma scan_effects (t : Tracker σ) :
    ∃ t' i, ScanEffects H (t, false) (t', i) ∧ t.scan H = t'.concludeScan i :=
  ⟨_, _, (discover_effects t).trans (prune_effects _ _), rfl⟩

structure Verified (id : ProcessIdentity) (group : Bool) (r : ProcessRecord) : Prop where
  same : r.identity.sameProcess id = true
  leader : group = true → r.identity = id ∧ id.pid = id.pgid
  alive : group = false → r.exited = false

def signalTarget (id : ProcessIdentity) (group : Bool) : ℤ :=
  if group then -(id.pid : ℤ) else id.pid

inductive Sent (H : Host σ) (t : Tracker σ) (id : ProcessIdentity) (group : Bool) (signal : ℕ) :
    Bool × Tracker σ → Prop
  | unreadable {e t1} : t.read H id.pid = (.error e, t1) →
      Sent H t id group signal (false, t1.fail .identityRead)
  | refused {a t1} : t.read H id.pid = (.ok a, t1) → Sent H t id group signal (false, t1)
  | verified {r t1} : t.read H id.pid = (.ok (some r), t1) → Verified id group r → signal = 0 →
      Sent H t id group signal (true, t1)
  | invalid {a t1} : t.read H id.pid = (.ok a, t1) → (id.pid = 0 ∨ i32Max < id.pid) →
      Sent H t id group signal (false, t1.fail .invalidPid)
  | sent {r t1 t2} : t.read H id.pid = (.ok (some r), t1) → Verified id group r → signal ≠ 0 →
      0 < id.pid → id.pid ≤ i32Max → t1.signal H (signalTarget id group) signal = (.ok (), t2) →
      Sent H t id group signal (true, t2)
  | noMembers {r t1 t2 e} : t.read H id.pid = (.ok (some r), t1) → Verified id group r →
      signal ≠ 0 → 0 < id.pid → id.pid ≤ i32Max →
      t1.signal H (signalTarget id group) signal = (.error e, t2) →
      H.platform = .macos → group = true → e.rawOsError = some .eperm →
      Sent H t id group signal (false, t2)
  | unsent {r t1 t2 e} : t.read H id.pid = (.ok (some r), t1) → Verified id group r →
      signal ≠ 0 → 0 < id.pid → id.pid ≤ i32Max →
      t1.signal H (signalTarget id group) signal = (.error e, t2) →
      Sent H t id group signal (true, t2.fail .signal)

lemma sendChecked_cases (t : Tracker σ) (id : ProcessIdentity) (group : Bool) (signal : ℕ) :
    Sent H t id group signal (t.sendChecked H id group signal) := by
  rw [sendChecked]
  split
  · next h => exact .unreadable h
  · next h => exact .refused h
  · next r t1 h =>
    split
    · exact .refused h
    · next hv =>
      split
      · exact .refused h
      · next ha =>
        have hver : Verified id group r := by
          simp only [Bool.or_eq_true, Bool.not_eq_eq_eq_not, Bool.not_true, Bool.and_eq_true,
            bne_iff_ne, not_or, not_and, Bool.not_eq_false] at hv ha
          refine ⟨hv.1, fun hg => ?_, fun hg => by simpa using ha hg⟩
          have := hv.2 hg
          tauto
        split
        · next hs => exact .verified h hver hs
        · next hs =>
          split
          · next hp => exact .invalid h hp
          · next hp =>
            rw [not_or, not_lt] at hp
            have hpos := Nat.pos_of_ne_zero hp.1
            dsimp only
            split
            · next hsig => exact .sent h hver hs hpos hp.2 hsig
            · next hsig =>
              split
              · next hm =>
                simp only [Bool.and_eq_true, beq_iff_eq] at hm
                exact .noMembers h hver hs hpos hp.2 hsig hm.1.1 hm.1.2 hm.2
              · exact .unsent h hver hs hpos hp.2 hsig

lemma signal_eq {target : ℤ} {signal : ℕ} {a : Io Unit}
    (h : t.signal H target signal = (a, t')) :
    t' = t.called (.signal target signal a) t.held (H.signal target signal t.source).2 := by
  obtain ⟨rfl, rfl⟩ := Prod.mk.inj h
  rfl

lemma now_eq {reference a : Instant} (h : t.now H reference = (a, t')) :
    t' = t.called (.now reference a) t.held (H.now reference t.source).2 := by
  obtain ⟨rfl, rfl⟩ := Prod.mk.inj h
  rfl

structure Passed (t t' : Tracker σ) : Prop where
  processes : t'.processes = t.processes
  cleanup : t'.cleanup = t.cleanup
  incompleteScans : t'.incompleteScans = t.incompleteScans
  marks : marks t'.log = marks t.log
  uncertain : t.uncertain = true → t'.uncertain = true
  groups : ∀ g ∈ t.groups, g ∈ t'.groups

namespace Passed

lemma refl (t : Tracker σ) : Passed t t := ⟨rfl, rfl, rfl, rfl, id, fun _ h => h⟩

lemma called (t : Tracker σ) (call : Call) (held : Held) (source : σ) :
    Passed t (t.called call held source) := ⟨rfl, rfl, rfl, rfl, id, fun _ h => h⟩

lemma fail (t : Tracker σ) (why : Failure) : Passed t (t.fail why) :=
  ⟨rfl, rfl, rfl, rfl, fun _ => rfl, fun _ h => h⟩

lemma ordered {α : Type} (t : Tracker σ) (l : List α) : Passed t (t.order H l).2 :=
  ⟨rfl, rfl, rfl, rfl, id, fun _ h => h⟩

lemma setMembers (t : Tracker σ) (ids : List ProcessIdentity) (s : Sequence) :
    Passed t (t.setMembers ids s) := ⟨rfl, rfl, rfl, rfl, id, fun _ h => h⟩

lemma setGroup (t : Tracker σ) (id : ProcessIdentity) (s : Sequence) :
    Passed t (t.setGroup id s) :=
  ⟨rfl, rfl, rfl, rfl, fun h => h, fun _ h => (AList.mem_insert _).mpr (.inr h)⟩

lemma trans {t'' : Tracker σ} (h : Passed t t') (k : Passed t' t'') : Passed t t'' :=
  ⟨k.processes.trans h.processes, k.cleanup.trans h.cleanup,
    k.incompleteScans.trans h.incompleteScans, k.marks.trans h.marks,
    fun hu => k.uncertain (h.uncertain hu), fun g hg => k.groups g (h.groups g hg)⟩

lemma records {id : ProcessIdentity} (h : Passed t t') (hr : t.held.Records id) :
    t'.held.Records id := by
  rcases hr with hr | ⟨r, hr, hi⟩
  · exact .inl (AList.mem_keys.mp (h.groups id (AList.mem_keys.mpr hr)))
  · exact .inr ⟨r, by rw [held, h.processes]; exact hr, hi⟩

lemma checked (t : Tracker σ) (id : ProcessIdentity) (group : Bool) (signal : ℕ) :
    Passed t (t.sendChecked H id group signal).2 := by
  have h := sendChecked_cases (H := H) t id group signal
  generalize t.sendChecked H id group signal = r at h
  cases h with
  | unreadable h | invalid h => exact (read_eq h ▸ called ..).trans (.fail _ _)
  | refused h | verified h => exact read_eq h ▸ called ..
  | sent h _ _ _ _ hs | noMembers h _ _ _ _ hs =>
    exact (read_eq h ▸ called t ..).trans (signal_eq hs ▸ called ..)
  | unsent h _ _ _ _ hs =>
    exact ((read_eq h ▸ called t ..).trans (signal_eq hs ▸ called ..)).trans (.fail _ _)

end Passed

lemma sendKills_effects (l : List ProcessIdentity) (t : Tracker σ)
    (hl : ∀ id ∈ l, t.held.Records id) : Effects H (t, i) (sendKills H l t, i) := by
  induction l generalizing t with
  | nil => exact .refl
  | cons id rest ih =>
    refine (Effects.single (.checked id false SIGKILL (hl id List.mem_cons_self))).trans (ih _ ?_)
    exact fun id' h => (Passed.checked t id false SIGKILL).records
      (hl id' (List.mem_cons_of_mem _ h))

lemma records_of_live {l : List ProcessRecord} (hl : ∀ r ∈ l, r ∈ t.processes.values)
    {id : ProcessIdentity} (h : id ∈ (l.filter fun p => !p.exited).map (·.identity)) :
    t.held.Records id := by
  obtain ⟨r, hr, rfl⟩ := List.mem_map.mp h
  exact .inr ⟨r, hl r (List.mem_of_mem_filter hr), rfl⟩

lemma sendKills_passed (l : List ProcessIdentity) (t : Tracker σ) : Passed t (sendKills H l t) := by
  induction l generalizing t with
  | nil => exact .refl t
  | cons id rest ih => exact (Passed.checked t id false SIGKILL).trans (ih _)

lemma finishScan_effects (t : Tracker σ) :
    Effects H (t.scan H, false) ((t.finishScan H).2, false) := by
  simp only [finishScan]
  generalize t.scan H = t1
  generalize ho : t1.order H t1.processes.values = o
  have h2 : Effects H (t1, false) (o.2, false) := ho ▸ .single (.scan (.order _))
  split
  · exact h2
  · refine (h2.tail (.scan (.failed _))).trans (sendKills_effects _ _ ?_)
    intro id h
    refine records_of_live (l := o.1) ?_ h
    intro r hr
    rw [← ho] at hr ⊢
    exact mem_order.mp hr

lemma advanceGroup_effects (c : Cleanup) (now : Instant) (live : List ProcessIdentity)
    (group : ProcessIdentity) (previous : Option Sequence) (covered : List ℕ) (t : Tracker σ)
    (hg : group ∈ t.groups) :
    Effects H (t, i) ((advanceGroup H c now live group previous covered t).2, i) ∧
      Passed t (advanceGroup H c now live group previous covered t).2 := by
  simp only [advanceGroup]
  split
  · exact ⟨.refl, .refl t⟩
  · generalize hn : t.now H now = n
    obtain ⟨targetNow, t1⟩ := n
    have e1 : Effects H (t, i) (t1, i) := .single (.asked hn)
    have p1 : Passed t t1 := now_eq hn ▸ .called ..
    generalize nextSignal c previous targetNow (c.deadline ≤ targetNow) = step
    obtain ⟨sequence, signal, shortened⟩ := step
    have e2 := e1.tail (.checked group true (signal.getD 0)
      (.inl (AList.mem_keys.mp (p1.groups _ hg))))
    have p2 := p1.trans (.checked (H := H) t1 group true (signal.getD 0))
    dsimp only
    generalize hsc : t1.sendChecked H group true (signal.getD 0) = r at e2 p2 ⊢
    obtain ⟨sent, t2⟩ := r
    cases sent with
    | false => exact ⟨e2, p2⟩
    | true =>
      dsimp only at e2 p2 ⊢
      generalize ha : (if signal.isSome then t2.afterSignal H c sequence targetNow
        else (sequence, t2)) = r
      obtain ⟨sequence', t3⟩ := r
      have e3 : Effects H (t, i) (t3, i) ∧ Passed t t3 := by
        split at ha
        · simp only [afterSignal] at ha
          obtain ⟨-, rfl⟩ := Prod.mk.inj ha
          exact ⟨e2.tail (.asked rfl), p2.trans (.called ..)⟩
        · obtain ⟨-, rfl⟩ := Prod.mk.inj ha
          exact ⟨e2, p2⟩
      obtain ⟨e3, p3⟩ := e3
      dsimp only
      have e4 := e3.tail (.setGroup group sequence' (p3.groups _ hg))
      have p4 := p3.trans (.setGroup t3 group sequence')
      split
      · exact ⟨(e4.tail (.scan (.failed _))).tail (.setMembers _ _),
          (p4.trans (.fail _ _)).trans (.setMembers ..)⟩
      · exact ⟨e4.tail (.setMembers _ _), p4.trans (.setMembers ..)⟩

lemma advanceGroups_effects (c : Cleanup) (now : Instant) (live : List ProcessIdentity)
    (l : List (ProcessIdentity × Option Sequence)) (covered : List ℕ) (t : Tracker σ)
    (hl : ∀ p ∈ l, p.1 ∈ t.groups) :
    Effects H (t, i) ((advanceGroups H c now live l covered t).2, i) ∧
      Passed t (advanceGroups H c now live l covered t).2 := by
  induction l generalizing covered t with
  | nil => exact ⟨.refl, .refl t⟩
  | cons p rest ih =>
    obtain ⟨group, previous⟩ := p
    simp only [advanceGroups]
    obtain ⟨e1, p1⟩ := advanceGroup_effects (H := H) (i := i) c now live group previous covered t
      (hl _ List.mem_cons_self)
    generalize advanceGroup H c now live group previous covered t = r at e1 p1 ⊢
    obtain ⟨e2, p2⟩ := ih r.1 r.2 fun p hp => p1.groups _ (hl p (List.mem_cons_of_mem _ hp))
    exact ⟨e1.trans e2, p1.trans p2⟩

lemma advanceMember_effects (c : Cleanup) (now : Instant) (member : ProcessIdentity)
    (t : Tracker σ) (hm : t.held.Records member) :
    Effects H (t, i) (advanceMember H c now member t, i) ∧
      Passed t (advanceMember H c now member t) := by
  simp only [advanceMember]
  generalize hn : t.now H now = n
  obtain ⟨targetNow, t1⟩ := n
  have e1 : Effects H (t, i) (t1, i) := .single (.asked hn)
  have p1 : Passed t t1 := now_eq hn ▸ .called ..
  generalize nextSignal c (t.members.lookup member) targetNow (c.deadline ≤ targetNow) = step
  obtain ⟨sequence, signal, shortened⟩ := step
  cases signal with
  | none => exact ⟨e1, p1⟩
  | some signal =>
    have e2 := e1.tail (.checked member false signal (p1.records hm))
    have p2 := p1.trans (.checked (H := H) t1 member false signal)
    dsimp only
    generalize hsc : t1.sendChecked H member false signal = r at e2 p2 ⊢
    obtain ⟨sent, t2⟩ := r
    cases sent with
    | false => exact ⟨e2, p2⟩
    | true =>
      simp only [afterSignal]
      generalize hn' : t2.now H targetNow = n
      obtain ⟨later, t3⟩ := n
      have e3 := (e2.tail (.asked hn')).tail (.setMembers [member]
        { sequence with next := later + c.grace sequence.phase })
      have p3 : Passed t2 t3 := now_eq hn' ▸ .called ..
      have p4 := (p2.trans p3).trans (.setMembers t3 [member]
        { sequence with next := later + c.grace sequence.phase })
      split
      · exact ⟨e3.tail (.scan (.failed _)), p4.trans (.fail _ _)⟩
      · exact ⟨e3, p4⟩

lemma advanceMembers_effects (c : Cleanup) (now : Instant) (l : List ProcessIdentity)
    (t : Tracker σ) (hl : ∀ id ∈ l, t.held.Records id) :
    Effects H (t, i) (advanceMembers H c now l t, i) ∧ Passed t (advanceMembers H c now l t) := by
  induction l generalizing t with
  | nil => exact ⟨.refl, .refl t⟩
  | cons member rest ih =>
    obtain ⟨e1, p1⟩ := advanceMember_effects (H := H) (i := i) c now member t
      (hl _ List.mem_cons_self)
    obtain ⟨e2, p2⟩ := ih _ fun id h => p1.records (hl id (List.mem_cons_of_mem _ h))
    exact ⟨e1.trans e2, p1.trans p2⟩

lemma escalate_effects (c : Cleanup) (now : Instant) (live : List ProcessIdentity)
    (t : Tracker σ) (hl : ∀ id ∈ live, t.held.Records id) :
    Effects H (t, i) (escalate H c now live t, i) ∧ Passed t (escalate H c now live t) := by
  simp only [escalate]
  generalize ho : t.order H t.groups.pairs = o
  have e0 : Effects H (t, i) (o.2, i) := ho ▸ .single (.scan (.order _))
  have p0 : Passed t o.2 := ho ▸ .ordered ..
  obtain ⟨e1, p1⟩ := advanceGroups_effects (H := H) (i := i) c now live o.1 [] o.2 (by
    intro p hp
    rw [← ho] at hp ⊢
    exact AList.lookup_isSome.mp (Option.isSome_iff_exists.mpr
      ⟨p.2, Table.mem_pairs.mp (mem_order.mp hp)⟩))
  generalize advanceGroups H c now live o.1 [] o.2 = r at e1 p1 ⊢
  obtain ⟨e2, p2⟩ := advanceMembers_effects (H := H) (i := i) c now
    (live.filter fun id => !r.1.contains id.pid) r.2
    fun id h => (p0.trans p1).records (hl id (List.mem_of_mem_filter h))
  exact ⟨(e0.trans e1).trans e2, (p0.trans p1).trans p2⟩

lemma advance_effects (t : Tracker σ) (now : Instant) :
    Effects H (t, i) ((t.advance H now).2, i) := by
  rw [advance]
  split
  · exact .refl
  · next c hc =>
    dsimp only
    generalize ho : t.order H t.processes.values = o
    have e0 : Effects H (t, i) (o.2, i) := ho ▸ .single (.scan (.order _))
    have hlive : ∀ id ∈ (o.1.filter fun p => !p.exited).map (·.identity), o.2.held.Records id := by
      intro id h
      refine records_of_live (l := o.1) ?_ h
      intro r hr
      rw [← ho] at hr ⊢
      exact mem_order.mp hr
    generalize (o.1.filter fun p => !p.exited).map (·.identity) = live at hlive ⊢
    obtain ⟨e1, p1⟩ := escalate_effects (H := H) (i := i) c now live o.2 hlive
    have hcl : (escalate H c now live o.2).cleanup = some c := by
      rw [p1.cleanup, ← ho]
      exact hc
    generalize escalate H c now live o.2 = t2 at e1 hcl ⊢
    generalize (if live.isEmpty && t2.incompleteScans == 0 then min (c.emptyScans + 1) 255 else 0)
      = n
    have e2 := (e0.trans e1).tail (.advanced c { c with emptyScans := n } hcl rfl rfl rfl)
    split
    · exact e2.tail (.scan (.failed _))
    · exact e2

inductive Op
  | scan
  | beginCleanup (now : Instant) (interrupt : Option Duration) (term : Duration)
  | advance (now : Instant)
  | finishScan
  | takeNewGroups
  | fail
deriving DecidableEq

def apply (H : Host σ) (t : Tracker σ) : Op → Tracker σ
  | .scan => t.scan H
  | .beginCleanup now interrupt term => t.beginCleanup now interrupt term
  | .advance now => (t.advance H now).2
  | .finishScan => (t.finishScan H).2
  | .takeNewGroups => t.takeNewGroups.2
  | .fail => t.fail .supervisor

def run (H : Host σ) (t : Tracker σ) (ops : List Op) : Tracker σ :=
  ops.foldl (apply H) t

@[simp] lemma run_nil (t : Tracker σ) : run H t [] = t := rfl

@[simp] lemma run_cons (t : Tracker σ) (op : Op) (ops : List Op) :
    run H t (op :: ops) = run H (t.apply H op) ops := rfl

lemma run_append (t : Tracker σ) (ops ops' : List Op) :
    run H t (ops ++ ops') = run H (run H t ops) ops' := List.foldl_append

lemma run_invariant {I : Tracker σ × Bool → Prop} (hI : ∀ s s', I s → Effect H s s' → I s')
    (hscan : ∀ t i, I (t, i) → I (t.concludeScan i, false)) (ops : List Op) (t : Tracker σ)
    (ht : I (t, false)) : I (run H t ops, false) := by
  have scanned : ∀ t : Tracker σ, I (t, false) → I (t.scan H, false) := by
    intro t ht
    obtain ⟨t', i, he, hs⟩ := scan_effects (H := H) t
    exact hs ▸ hscan t' i (he.effects.invariant hI ht)
  induction ops generalizing t with
  | nil => exact ht
  | cons op ops ih =>
    refine ih _ ?_
    cases op with
    | scan => exact scanned t ht
    | beginCleanup now interrupt term => exact hI _ _ ht (.begin now interrupt term)
    | advance now => exact (advance_effects t now).invariant hI ht
    | finishScan => exact (finishScan_effects t).invariant hI (scanned t ht)
    | takeNewGroups => exact hI _ _ ht .take
    | fail => exact hI _ _ ht (.scan (.failed _))

end Forcola.Native.Tracker
