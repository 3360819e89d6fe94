import Forcola.Native.TrackingSteps

/-! What the discovery of a scan writes to the log, and what it leaves alone. -/

namespace Forcola.Native

open Forcola.Library

namespace Event

def isReap (pid : ℕ) : Event → Bool
  | .call (.reap p _) _ => p == pid
  | _ => false

def isFailed (why : Failure) : Event → Bool
  | .failed w => w == why
  | _ => false

def probes : Event → Bool
  | .call (.read ..) _ | .call (.children ..) _ | .call (.groupMembers ..) _ => true
  | .failed .groupLimit => false
  | .failed _ => true
  | _ => false

lemma probes_reap {e : Event} (h : e.probes = true) (pid : ℕ) : e.isReap pid = false := by
  cases e with
  | call call held => cases call <;> first | rfl | exact absurd h Bool.false_ne_true
  | _ => rfl

lemma probes_groupLimit {e : Event} (h : e.probes = true) : e.isFailed .groupLimit = false := by
  cases e with
  | failed why => cases why <;> first | rfl | exact absurd h Bool.false_ne_true
  | _ => rfl

end Event

def reaps (pid : ℕ) (log : List Event) : ℕ :=
  log.countP (Event.isReap pid)

def failures (why : Failure) (log : List Event) : ℕ :=
  log.countP (Event.isFailed why)

namespace Tracker

variable {σ : Type} {H : Host σ} {t t' u : Tracker σ}

def settings (t : Tracker σ) : Tracker Unit :=
  { t with source := (), processes := ∅, uncertain := false, rootGroupUnresolved := false, log := [] }

structure Probed (t t' : Tracker σ) : Prop where
  settings : t'.settings = t.settings
  log : ∃ es, t'.log = es ++ t.log ∧ ∀ e ∈ es, e.probes = true

namespace Probed

lemma refl (t : Tracker σ) : Probed t t :=
  ⟨rfl, [], rfl, by simp⟩

lemma trans (h : Probed t t') (h' : Probed t' u) : Probed t u := by
  obtain ⟨es, hl, hp⟩ := h.log
  obtain ⟨es', hl', hp'⟩ := h'.log
  refine ⟨h'.settings.trans h.settings, es' ++ es, by simp [hl, hl'], ?_⟩
  intro e he
  rcases List.mem_append.mp he with he | he
  · exact hp' e he
  · exact hp e he

lemma of_log (hs : t'.settings = t.settings) (hl : t'.log = t.log) : Probed t t' :=
  ⟨hs, [], hl, by simp⟩

lemma of_event {e : Event} (hs : t'.settings = t.settings) (hl : t'.log = e :: t.log)
    (he : e.probes = true) : Probed t t' :=
  ⟨hs, [e], hl, by simpa using he⟩

lemma read (t : Tracker σ) (pid : ℕ) : Probed t (t.read H pid).2 :=
  of_event rfl rfl rfl

lemma children (t : Tracker σ) (pid : ℕ) : Probed t (t.children H pid).2 :=
  of_event rfl rfl rfl

lemma groupMembers (t : Tracker σ) (pgid : ℕ) : Probed t (t.groupMembers H pgid).2 :=
  of_event rfl rfl rfl

lemma fail (t : Tracker σ) {why : Failure} (h : why ≠ .groupLimit) : Probed t (t.fail why) := by
  refine of_event rfl rfl ?_
  cases why <;> first | rfl | exact absurd rfl h

lemma scanError (t : Tracker σ) (e : IoError) : Probed t (t.scanError e) := by
  rw [Tracker.scanError]
  split
  · apply fail
    simp
  · exact refl t

lemma keepProcess (t : Tracker σ) (pid : ℕ) (r : ProcessRecord) : Probed t (t.keepProcess pid r) :=
  of_log rfl rfl

lemma dropStale (t : Tracker σ) (id : ProcessIdentity) : Probed t (t.dropStale id) := by
  rw [Tracker.dropStale]
  split
  · exact of_log rfl rfl
  · exact refl t

lemma setUnresolved (t : Tracker σ) (b : Bool) : Probed t (t.setUnresolved b) :=
  of_log rfl rfl

lemma shim (h : Probed t t') : t'.shim = t.shim := congrArg (fun u : Tracker Unit => u.shim) h.settings
lemma rootPid (h : Probed t t') : t'.rootPid = t.rootPid := congrArg (fun u : Tracker Unit => u.rootPid) h.settings
lemma groups (h : Probed t t') : t'.groups = t.groups := congrArg (fun u : Tracker Unit => u.groups) h.settings
lemma pending (h : Probed t t') : t'.pending = t.pending := congrArg (fun u : Tracker Unit => u.pending) h.settings

lemma adoptOrphans (h : Probed t t') : t'.adoptOrphans = t.adoptOrphans :=
  congrArg (fun u : Tracker Unit => u.adoptOrphans) h.settings

lemma processLimit (h : Probed t t') : t'.processLimit = t.processLimit :=
  congrArg (fun u : Tracker Unit => u.processLimit) h.settings

lemma groupLimit (h : Probed t t') : t'.groupLimit = t.groupLimit :=
  congrArg (fun u : Tracker Unit => u.groupLimit) h.settings

lemma reaps (h : Probed t t') (pid : ℕ) : reaps pid t'.log = reaps pid t.log := by
  obtain ⟨es, hl, hp⟩ := h.log
  have hz : es.countP (Event.isReap pid) = 0 := by
    rw [List.countP_eq_zero]
    intro e he
    simp [Event.probes_reap (hp e he)]
  rw [Native.reaps, Native.reaps, hl, List.countP_append, hz, Nat.zero_add]

lemma failures_le (h : Probed t t') (why : Failure) : failures why t.log ≤ failures why t'.log := by
  obtain ⟨es, hl, -⟩ := h.log
  rw [failures, failures, hl, List.countP_append]
  omega

lemma failures_groupLimit (h : Probed t t') :
    failures .groupLimit t'.log = failures .groupLimit t.log := by
  obtain ⟨es, hl, hp⟩ := h.log
  have hz : es.countP (Event.isFailed .groupLimit) = 0 := by
    rw [List.countP_eq_zero]
    intro e he
    simp [Event.probes_groupLimit (hp e he)]
  rw [failures, failures, hl, List.countP_append, hz, Nat.zero_add]

end Probed

lemma scanMembers_probed (expected : ProcessIdentity) (l : List ℕ) (b : Bool)
    (s : Tracker σ × Bool) : Probed s.1 (scanMembers H expected l b s).2.1 := by
  induction l generalizing b s with
  | nil => exact .refl _
  | cons pid rest ih =>
    obtain ⟨t, i⟩ := s
    have hr := Probed.read (H := H) t pid
    rw [scanMembers]
    generalize t.read H pid = r at hr
    obtain ⟨a, t1⟩ := r
    split
    · next h =>
      obtain ⟨-, rfl⟩ := Prod.mk.inj h
      exact (hr.trans (.scanError _ _)).trans (ih _ (_, _))
    · next h =>
      obtain ⟨-, rfl⟩ := Prod.mk.inj h
      exact hr.trans (ih _ (_, _))
    · next h =>
      obtain ⟨-, rfl⟩ := Prod.mk.inj h
      split
      · exact hr.trans (ih _ (_, _))
      · split
        · exact hr.trans (.fail _ (by simp))
        · exact (hr.trans (.keepProcess _ _ _)).trans (ih _ (_, _))

lemma scanRootGroup_probed (t : Tracker σ) (i : Bool) : Probed t (scanRootGroup H t i).1 := by
  have h0 := Probed.setUnresolved t false
  simp only [scanRootGroup]
  split
  · exact h0
  · split
    · exact h0
    · next root _ =>
      split
      · exact h0
      · have h1 := h0.trans (.setUnresolved _ true)
        have hg := h1.trans (.groupMembers (H := H) _ root.identity.pgid)
        generalize ((t.setUnresolved false).setUnresolved true).groupMembers H root.identity.pgid = g
          at hg
        obtain ⟨a, t1⟩ := g
        split
        · next h =>
          obtain ⟨-, rfl⟩ := Prod.mk.inj h
          exact hg.trans (.scanError _ _)
        · next h =>
          obtain ⟨-, rfl⟩ := Prod.mk.inj h
          have hr := hg.trans (.read (H := H) _ root.identity.pid)
          generalize t1.read H root.identity.pid = r at hr
          obtain ⟨b, t2⟩ := r
          split
          · next h =>
            obtain ⟨-, rfl⟩ := Prod.mk.inj h
            exact hr.trans (.scanError _ _)
          · next h =>
            obtain ⟨-, rfl⟩ := Prod.mk.inj h
            exact hr.trans (.fail _ (by simp))
          · next h =>
            obtain ⟨-, rfl⟩ := Prod.mk.inj h
            split
            · exact (hr.trans (scanMembers_probed _ _ _ (_, _))).trans (.setUnresolved _ _)
            · exact hr.trans (.fail _ (by simp))

lemma scanChildren_probed (expected : ProcessIdentity) (l : List ℕ) (s : Scan σ) :
    Probed s.tracker (scanChildren H expected l s).tracker := by
  induction l generalizing s with
  | nil => exact .refl _
  | cons pid rest ih =>
    rw [scanChildren]
    split
    · exact ih s
    · have hr := Probed.read (H := H) s.tracker pid
      generalize s.tracker.read H pid = r at hr
      obtain ⟨a, t⟩ := r
      split
      · next h =>
        obtain ⟨-, rfl⟩ := Prod.mk.inj h
        exact (hr.trans (.scanError _ _)).trans (ih ⟨_, _, _, _⟩)
      · next h =>
        obtain ⟨-, rfl⟩ := Prod.mk.inj h
        exact hr.trans (ih ⟨t, _, _, _⟩)
      · next h =>
        obtain ⟨-, rfl⟩ := Prod.mk.inj h
        split
        · exact hr.trans (ih ⟨t, _, _, _⟩)
        · split
          · exact hr.trans (ih ⟨t, _, _, _⟩)
          · split
            · exact hr.trans (.fail _ (by simp))
            · exact (hr.trans (.keepProcess _ _ _)).trans (ih ⟨_, _, _, _⟩)

lemma scanEntry_probed (expected : ProcessIdentity) (s : Scan σ) :
    Probed s.tracker (scanEntry H expected s).tracker := by
  have hr := Probed.read (H := H) s.tracker expected.pid
  rw [scanEntry]
  generalize s.tracker.read H expected.pid = r at hr
  obtain ⟨a, t⟩ := r
  split
  · next h =>
    obtain ⟨-, rfl⟩ := Prod.mk.inj h
    exact hr.trans (.scanError _ _)
  · next h =>
    obtain ⟨-, rfl⟩ := Prod.mk.inj h
    exact hr.trans (.dropStale _ _)
  · next current _ h =>
    obtain ⟨-, rfl⟩ := Prod.mk.inj h
    split
    · exact hr.trans (.dropStale _ _)
    · dsimp only
      have hk : Probed s.tracker
          (if expected.pid ≠ t.shim.pid then t.keepProcess expected.pid current else t) := by
        split
        · exact hr.trans (.keepProcess _ _ _)
        · exact hr
      generalize (if expected.pid ≠ t.shim.pid then t.keepProcess expected.pid current else t) = t1
        at hk
      have hc := hk.trans (.children (H := H) t1 expected.pid)
      generalize t1.children H expected.pid = c at hc
      obtain ⟨b, t2⟩ := c
      split
      · next h =>
        obtain ⟨-, rfl⟩ := Prod.mk.inj h
        split
        · exact hc
        · exact hc.trans (.scanError _ _)
      · next h =>
        obtain ⟨-, rfl⟩ := Prod.mk.inj h
        have hp := hc.trans (.read (H := H) t2 expected.pid)
        generalize t2.read H expected.pid = p at hp
        obtain ⟨d, t3⟩ := p
        split
        · next h =>
          obtain ⟨-, rfl⟩ := Prod.mk.inj h
          exact hp.trans (.scanError _ _)
        · next h =>
          obtain ⟨-, rfl⟩ := Prod.mk.inj h
          exact hp
        · next h =>
          obtain ⟨-, rfl⟩ := Prod.mk.inj h
          split
          · exact hp.trans (scanChildren_probed _ _ ⟨t3, _, _, _⟩)
          · exact hp

lemma scanQueue_probed (budget : ℕ) (s : Scan σ) :
    Probed s.tracker (scanQueue H budget s).tracker := by
  induction budget generalizing s with
  | zero =>
    rw [scanQueue]
    split
    · exact .refl _
    · exact .fail _ (by simp)
  | succ budget ih =>
    rw [scanQueue]
    split
    · exact .refl _
    · next expected rest _ => exact (scanEntry_probed expected { s with queue := rest }).trans (ih _)

lemma discover_probed (t : Tracker σ) : Probed t (discover H t).1 := by
  rw [discover]
  have h : Probed t (t.order H t.processes.values).2 := .of_log rfl rfl
  exact (h.trans (scanQueue_probed _ ⟨_, false, _, ∅⟩)).trans (scanRootGroup_probed _ _)

end Tracker

end Forcola.Native
