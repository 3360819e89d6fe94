import Forcola.Library.Transition
import Forcola.Native.SupervisorHealth
import Forcola.Native.TrackedExit

/-! A consumed KILL leaves the supervisor a path of its own steps to EXIT. -/

namespace Forcola.Native.Supervisor

open Forcola.Library.Transition

variable {σ : Type} {cfg : Config} {H : Host σ} {s s' : State σ} {u : Tracked σ}

def Own (cfg : Config) (H : Host σ) (s : State σ) (l : Label) (s' : State σ) : Prop :=
  step cfg H s l = some s' ∧ l.peer = false

def Leads (cfg : Config) (H : Host σ) (s s' : State σ) : Prop :=
  ∃ labels, Run (Own cfg H) s labels s'

lemma Leads.refl (s : State σ) : Leads cfg H s s :=
  ⟨[], .nil s⟩

lemma Leads.trans {s'' : State σ} (h : Leads cfg H s s') (k : Leads cfg H s' s'') :
    Leads cfg H s s'' := by
  obtain ⟨as, ha⟩ := h
  obtain ⟨bs, hb⟩ := k
  exact ⟨as ++ bs, ha.append hb⟩

lemma Leads.single {l : Label} (hl : l.peer = false) (h : step cfg H s l = some s') :
    Leads cfg H s s' :=
  ⟨[l], .single ⟨h, hl⟩⟩

/-- EXIT is written and no pump waits for credit. -/
def Delivered (s : State σ) : Prop :=
  (∃ r, Frame.exit r ∈ s.wire) ∧ s.released

variable (cfg) in
lemma leads_flush (hm : s.mode = .tracked u) (hw : u.writer = .running) :
    Leads cfg H s
      { s with wire := u.control.reverse ++ s.wire, mode := .tracked { u with control := [] } } := by
  generalize hc : u.control = c
  induction c generalizing s u with
  | nil =>
    have he : ({ s with wire := [].reverse ++ s.wire, mode := .tracked { u with control := [] } } :
        State σ) = s := by
      cases s
      cases u
      simp_all
    rw [he]
    exact .refl s
  | cons frame rest ih =>
    have hd : step cfg H s (.deliver true) = some
        { s with wire := frame :: s.wire, mode := .tracked { u with control := rest } } := by
      simp [step, deliver, hm, hw, hc]
    refine (Leads.single rfl hd).trans ?_
    have := ih (s := { s with wire := frame :: s.wire, mode := .tracked { u with control := rest } })
      (u := { u with control := rest }) rfl hw rfl
    simpa only [List.reverse_cons, List.append_assoc, List.singleton_append] using this

lemma leads_collect (h : Healthy cfg s) (hp : s.point = .collect) (hr : s.released) :
    ∃ s', Leads cfg H s s' ∧ Delivered s' := by
  have hready := h.ready
  cases hm : s.mode with
  | untracked w =>
    rw [hm] at hready
    exact absurd hp hready.2.2
  | tracked u =>
    rw [hm] at hready
    obtain ⟨r, hx⟩ := h.collect hp
    refine ⟨_, leads_flush _ hm hready.1, ⟨r, ?_⟩, hr⟩
    rw [State.frames, hm, Mode.control, List.mem_append] at hx
    refine List.mem_append.mpr (hx.symm.imp ?_ id)
    exact List.mem_reverse.mpr

lemma leads_report {truncated : Bool} (hp : s.point = .report truncated) (hr : s.released)
    (hm : (∃ w, s.mode = .untracked w) ∨ ∃ u, s.mode = .tracked u ∧ u.writer = .running) :
    ∃ s', Leads cfg H s s' ∧ Delivered s' := by
  rcases hm with ⟨w, hm⟩ | ⟨u, hm, hw⟩
  · have hs : step cfg H s (.report true) = some
        { s with wire := .exit (s.exitReport cfg H truncated) :: s.wire, point := .returned false } := by
      simp [step, hp, reportStep, hm]
    exact ⟨_, .single rfl hs, ⟨_, List.mem_cons_self⟩, hr⟩
  · have h1 := leads_flush cfg (H := H) hm hw
    generalize hs1 : ({ s with wire := u.control.reverse ++ s.wire,
                               mode := .tracked { u with control := [] } } : State σ) = s1 at h1
    have hp1 : s1.point = .report truncated := hs1 ▸ hp
    have hm1 : s1.mode = .tracked { u with control := [] } := hs1 ▸ rfl
    have hr1 : s1.released := hs1 ▸ hr
    have h2 : step cfg H s1 (.report true) = some
        { s1.setTracked { u with control := [.exit (s1.exitReport cfg H truncated)] } with
          point := .collect } := by
      simp [step, hp1, reportStep, hm1, hw, maxGroups]
    refine ⟨_, (h1.trans (.single rfl h2)).trans (leads_flush _ rfl hw),
      ⟨s1.exitReport cfg H truncated, ?_⟩, hr1⟩
    exact List.mem_append_left _ (List.mem_reverse.mpr (List.mem_singleton.mpr rfl))

lemma leads_drain {remaining : ℕ} {deadline : Instant} {cut : Bool}
    (hp : s.point = .drain remaining deadline cut) (hr : s.released)
    (hm : (∃ w, s.mode = .untracked w) ∨ ∃ u, s.mode = .tracked u ∧ u.writer = .running) :
    ∃ s', Leads cfg H s s' ∧ Delivered s' := by
  have h1 : Leads cfg H s { s with clock := s.clock + deadline } :=
    .single (l := .elapse deadline) rfl rfl
  obtain ⟨truncated, h2⟩ : ∃ truncated,
      step cfg H { s with clock := s.clock + deadline } .drain = some
        { s with clock := s.clock + deadline, point := .report truncated } := by
    cases remaining with
    | zero => exact ⟨cut, by simp [step, hp, drainStep]⟩
    | succ n => exact ⟨true, by simp [step, hp, drainStep]⟩
  obtain ⟨s', h3, hd⟩ := leads_report (H := H)
    (s := { s with clock := s.clock + deadline, point := .report truncated }) rfl hr hm
  exact ⟨s', (h1.trans (.single rfl h2)).trans h3, hd⟩

structure Killing (cfg : Config) (s : State σ) : Prop where
  healthy : Healthy cfg s
  killed : s.killed

lemma Killing.not_late (h : Killing cfg s) (l : Label) : late cfg s l = false := by
  cases l with
  | receive answers =>
    rw [late]
    split
    · rfl
    · by_contra hl
      simp only [Bool.not_eq_false, Bool.and_eq_true, beq_iff_eq, Bool.not_eq_true'] at hl
      obtain ⟨⟨⟨⟨hp, -⟩, hst⟩, -⟩, hd⟩ := hl
      have := h.healthy.discard h.killed (by rw [hp]; rfl) hst
      exact Bool.noConfusion (hd.symm.trans this)
  | _ => rfl

lemma Killing.finish (h : Killing cfg s) (hp : s.point = .finish) :
    ∃ s', Leads cfg H s s' ∧ Delivered s' := by
  obtain ⟨s1, hs⟩ : ∃ s1, step cfg H s (.finish ⟨0, [], []⟩) = some s1 := by
    cases hm : s.mode with
    | untracked w => exact ⟨_, by simp only [step, hp, hm]; rfl⟩
    | tracked u => exact ⟨_, by simp only [step, hp, hm]; rfl⟩
  obtain ⟨h1, hf⟩ := h.healthy.finish _ hp hs
  obtain ⟨hrel, n, d, cut, hpt⟩ := hf.released (h.healthy.discard h.killed (by rw [hp]; rfl))
  obtain ⟨s', h2, hd⟩ := leads_drain (H := H) hpt hrel h1.ready.writer
  exact ⟨s', (Leads.single rfl hs).trans h2, hd⟩

lemma step_receive (hp : s.point = .recv) (answers : KillAnswers) :
    step cfg H s (.receive answers) = receive cfg s answers := by
  simp only [step, hp]

lemma Killing.untracked {w : Untracked} (h : Killing cfg s) (hp : s.point = .recv)
    (hm : s.mode = .untracked w) (ho : ∃ o, .childExited o ∈ s.queue) :
    ∃ s', Leads cfg H s s' ∧ Killing cfg s' ∧ s'.point = .finish := by
  generalize hq : s.queue = q at ho
  induction q generalizing s w with
  | nil =>
    obtain ⟨o, ho⟩ := ho
    exact absurd ho List.not_mem_nil
  | cons e rest ih =>
    have hs : step cfg H s (.receive ⟨[], [], []⟩) = some
        (handleUntracked cfg { s with queue := rest, seen := e :: s.seen } w ⟨[], [], []⟩ e) := by
      exact (step_receive hp _).trans (receive_untracked hm hq)
    have hh := handleUntracked_spec cfg ⟨[], [], []⟩
      (s := { s with queue := rest, seen := e :: s.seen }) (v := w) hm
      (h.healthy.queue e (hq ▸ List.mem_cons_self))
    have h1 := h.healthy.step (by simp) (h.not_late _) hs
    generalize handleUntracked cfg _ w _ e = s1 at hs hh h1
    have hk : Killing cfg s1 := by
      refine ⟨h1, ?_⟩
      rw [State.killed, hh.seen, hh.drained]
      exact h.killed.imp (List.mem_cons_of_mem _) id
    obtain ⟨w', hm'⟩ := hh.mode
    rcases hh.point with ⟨hp', hne⟩ | hp'
    · obtain ⟨o, ho⟩ := ho
      have hmem := (List.mem_cons.mp ho).resolve_left fun heq => hne o heq.symm
      obtain ⟨s', h2, hd⟩ := ih hk (hp'.trans hp) hm' hh.queue ⟨o, hmem⟩
      exact ⟨s', (Leads.single rfl hs).trans h2, hd⟩
    · exact ⟨s1, .single rfl hs, hk, hp'⟩

lemma Killing.elapse (h : Killing cfg s) (time : Duration) :
    Killing cfg { s with clock := s.clock + time } :=
  ⟨h.healthy.aside ⟨rfl, rfl, rfl, rfl, rfl, rfl, rfl, rfl, rfl, id, fun _ hf => hf⟩, h.killed⟩

lemma giveUp_cleaning (h : u.tracker.cleaning = true) : giveUp cfg s u = (s, u) := by
  rw [giveUp, if_neg (by simp [h])]

lemma cleanupTick_leaves {c : Cleanup} {advancing : Duration} (hc : u.tracker.cleanup = some c)
    (hd : c.deadline ≤ s.clock) : (cleanupTick H s u advancing).point = .finish := by
  obtain ⟨n, ha⟩ := Tracker.advance_advanced (H := H) hc s.clock
  rw [cleanupTick]
  dsimp only
  generalize hs1 : (if s.discardOutput then State.cancel { s with inputClosed := true }
    else { s with inputClosed := true }) = s1
  have hclock : s1.clock = s.clock := by
    rw [← hs1]
    split <;> rfl
  have hdone : ((u.tracker.advance H s1.clock).1.done && (s1.outcome.isSome ||
      (u.tracker.advance H s1.clock).2.expired s1.clock)) = true := by
    rw [hclock, Tracker.advance_expired, Bool.and_eq_true]
    exact ⟨ha.done.mpr (.inr hd), by simp [Tracker.expired, hc, hd]⟩
  rw [if_pos hdone]

lemma tick_leaves {c : Cleanup} (hw : u.writer = .running) (hb : s.beamGone = false)
    (hc : u.tracker.cleanup = some c) (hdue : u.nextScan ≤ s.clock) (hd : c.deadline ≤ s.clock) :
    ∃ s', tick cfg H s u ⟨false, 0, 0⟩ = some s' ∧ s'.point = .finish := by
  obtain ⟨hs1, -, hc1⟩ := sampled_running (H := H) hw hb
  rw [tick, if_neg (Nat.not_lt.mpr hdue)]
  simp only [Bool.false_and, Bool.false_eq_true, if_false]
  generalize sampled cfg H s u false = r1 at hs1 hc1
  obtain ⟨s1, u1⟩ := r1
  obtain rfl : s1 = s := hs1
  dsimp only at hc1 ⊢
  rw [hc] at hc1
  have hcl : u1.tracker.cleaning = true := by simp [Tracker.cleaning, hc1]
  rw [giveUp_cleaning hcl]
  dsimp only
  rw [if_pos hcl]
  exact ⟨_, rfl, cleanupTick_leaves hc1 hd⟩

lemma Killing.top (h : Killing cfg s) (hm : s.mode = .tracked u) (hp : s.point = .top) :
    ∃ s', Leads cfg H s s' ∧ Killing cfg s' ∧ s'.point = .finish := by
  have hr := h.healthy.ready
  rw [hm] at hr
  obtain ⟨c, hc⟩ := Option.isSome_iff_exists.mp (hr.2 h.killed (.inl hp))
  have h1 := h.elapse (u.nextScan + c.deadline)
  obtain ⟨s', hs, hfin⟩ := tick_leaves (H := H)
    (s := { s with clock := s.clock + (u.nextScan + c.deadline) }) hr.1 h.healthy.beamGone hc
    (Nat.le_trans (Nat.le_add_right ..) (Nat.le_add_left ..))
    (Nat.le_trans (Nat.le_add_left ..) (Nat.le_add_left ..))
  have hstep : step cfg H { s with clock := s.clock + (u.nextScan + c.deadline) }
      (.tick ⟨false, 0, 0⟩) = some s' :=
    (step_tick (s := { s with clock := s.clock + (u.nextScan + c.deadline) }) hp hm _).trans hs
  obtain ⟨u', hi, -⟩ := tick_iterated (H := H)
    (s := { s with clock := s.clock + (u.nextScan + c.deadline) }) h1.healthy.connected
    h1.healthy.beamGone hm hr.1 hs
  refine ⟨s', (Leads.single (l := .elapse _) rfl rfl).trans (.single rfl hstep),
    ⟨h1.healthy.step (by simp) (h1.not_late _) hstep, ?_⟩, hfin⟩
  rw [State.killed, hi.seen, hi.drained]
  exact h.killed

lemma Killing.recv (h : Killing cfg s) (hm : s.mode = .tracked u) (hp : s.point = .recv) :
    ∃ s' u', Leads cfg H s s' ∧ Killing cfg s' ∧ s'.mode = .tracked u' ∧ s'.point = .top := by
  have hr := h.healthy.ready
  rw [hm] at hr
  cases hq : s.queue with
  | nil =>
    have h1 := h.elapse u.nextScan
    have hs : step cfg H { s with clock := s.clock + u.nextScan } .timeout =
        some { s with clock := s.clock + u.nextScan, point := .top } := by
      simp [step, hp, timeout, hm, hq]
    exact ⟨_, u, (Leads.single (l := .elapse _) rfl rfl).trans (.single rfl hs),
      ⟨h1.healthy.step (by simp) (h1.not_late _) hs, h.killed⟩, hm, rfl⟩
  | cons e rest =>
    have hs : step cfg H s (.receive ⟨[], [], []⟩) = some
        { handleTracked cfg { s with queue := rest, seen := e :: s.seen } u e with
          point := .top } := by
      exact (step_receive hp _).trans (receive_tracked hm hq)
    obtain ⟨u', hm', -, -, -, -, hseen, hdr, -⟩ := handleTracked_spec
      (s := { s with queue := rest, seen := e :: s.seen }) (u := u) hm hr.1
      h.healthy.beamGone (h.healthy.queue e (hq ▸ List.mem_cons_self))
    refine ⟨_, u', .single rfl hs, ⟨h.healthy.step (by simp) (h.not_late _) hs, ?_⟩, hm', rfl⟩
    rw [State.killed, hseen, hdr]
    exact h.killed.imp (List.mem_cons_of_mem _) id

lemma Killing.delivers (h : Killing cfg s) : ∃ s', Leads cfg H s s' ∧ Delivered s' := by
  have hfinish : ∀ s1, Leads cfg H s s1 → Killing cfg s1 → s1.point = .finish →
      ∃ s', Leads cfg H s s' ∧ Delivered s' := by
    intro s1 h1 hk hp
    obtain ⟨s', h2, hd⟩ := hk.finish (H := H) hp
    exact ⟨s', h1.trans h2, hd⟩
  have hend : s.point.ended = true → s.released := h.healthy.opened h.killed
  cases hp : s.point with
  | top =>
    cases hm : s.mode with
    | untracked w =>
      have hr := h.healthy.ready
      rw [hm] at hr
      exact absurd hp hr.2.1
    | tracked u =>
      obtain ⟨s1, h1, hk, hp1⟩ := h.top (H := H) hm hp
      exact hfinish s1 h1 hk hp1
  | recv =>
    cases hm : s.mode with
    | untracked w =>
      have hr := h.healthy.ready
      rw [hm] at hr
      rcases hr.1 hp with hrun | ho
      · have hs : step cfg H s (.childExits (some ⟨none, none⟩)) =
            some (push { s with childRunning := false } (.childExited ⟨none, none⟩)) := by
          simp [step, childExits, hrun]
        have hk : Killing cfg (push { s with childRunning := false } (.childExited ⟨none, none⟩)) :=
          ⟨h.healthy.step (by simp) (h.not_late _) hs, h.killed⟩
        obtain ⟨s1, h1, hk1, hp1⟩ := hk.untracked (H := H) hp hm
          ⟨_, List.mem_append_right _ (List.mem_singleton.mpr rfl)⟩
        exact hfinish s1 ((Leads.single rfl hs).trans h1) hk1 hp1
      · obtain ⟨s1, h1, hk1, hp1⟩ := h.untracked (H := H) hp hm ho
        exact hfinish s1 h1 hk1 hp1
    | tracked u =>
      obtain ⟨s1, u1, h1, hk1, hm1, hp1⟩ := h.recv (H := H) hm hp
      obtain ⟨s2, h2, hk2, hp2⟩ := hk1.top (H := H) hm1 hp1
      exact hfinish s2 (h1.trans h2) hk2 hp2
  | finish => exact hfinish s (.refl s) h hp
  | strict c p => exact absurd hp (h.healthy.strict h.killed c p)
  | drain n d cut => exact leads_drain hp (hend (by rw [hp]; rfl)) h.healthy.ready.writer
  | report truncated => exact leads_report hp (hend (by rw [hp]; rfl)) h.healthy.ready.writer
  | collect => exact leads_collect h.healthy hp (hend (by rw [hp]; rfl))
  | returned gone =>
    cases gone with
    | true => exact absurd hp h.healthy.notGone
    | false => exact ⟨s, .refl s, h.healthy.returned hp, hend (by rw [hp]; rfl)⟩

lemma start_healthy (clock : Instant) (stdout : Pump) (stderr : Option Pump)
    (tracker : Option (Tracker σ)) : Healthy cfg (start clock stdout stderr tracker) := by
  have hk : ¬ (start clock stdout stderr tracker).killed := by
    simp [State.killed, start]
  refine ⟨rfl, by simp [start], rfl, ?_, fun h => absurd h hk, fun h => absurd h hk,
    fun h => absurd h hk, ?_, ?_, ?_⟩
  · cases tracker with
    | none => exact ⟨fun _ => .inl rfl, by simp [start], by simp [start]⟩
    | some t => exact ⟨rfl, fun h => absurd h hk⟩
  all_goals
    simp only [start]
    split <;> simp

/-- While the peer stays and no KILL comes late, a consumed KILL always leaves the shim a path
of its own steps to a written EXIT with every budget released. -/
theorem kill_delivered (cfg : Config) (H : Host σ) (clock : Instant) (stdout : Pump)
    (stderr : Option Pump) (tracker : Option (Tracker σ)) (labels : List Label) (s : State σ)
    (hrun : Run (fun s l s' => step cfg H s l = some s' ∧ l ≠ .hangUp ∧ late cfg s l = false)
      (start clock stdout stderr tracker) labels s)
    (hkill : s.killed) : ∃ s', Leads cfg H s s' ∧ Delivered s' := by
  have hh : Healthy cfg s := hrun.invariant
    (fun _ _ _ hs hst => hs.step hst.2.1 hst.2.2 hst.1) (start_healthy clock stdout stderr tracker)
  exact Killing.delivers ⟨hh, hkill⟩

section LateKill

def prompt (cfg : Config) (H : Host σ) (s : State σ) (l : Label) : Option (State σ) :=
  if l = .hangUp ∨ late cfg s l then none else step cfg H s l

lemma prompt_run {labels : List Label} (h : exec (prompt cfg H) s labels = some s') :
    Run (fun s l s' => step cfg H s l = some s' ∧ l ≠ .hangUp ∧ late cfg s l = false) s labels s' := by
  refine (exec_run h).mono fun s l t hst => ?_
  rw [prompt] at hst
  split at hst
  · cases hst
  · next hn =>
    rw [not_or, Bool.not_eq_true] at hn
    exact ⟨hst, hn.1, hn.2⟩

def strictConfig : Config where
  killGrace := 0
  interruptGrace := none
  cgroup := false
  strictOutput := true

def strictStart : State ℕ :=
  start 0 (.new .stdout true) none
    (some (tracked (quietMachine 1000) 0 (leader 1) (.withSource (leader 2))))

def earlyKill : List Label :=
  [.tick ⟨false, 0, 0⟩, .send .kill, .receive ⟨[], [], []⟩]

theorem kill_delivered_early :
    ∃ s, exec (prompt strictConfig (quietMachine 1000)) strictStart earlyKill = some s ∧
      ∃ s', Leads strictConfig (quietMachine 1000) s s' ∧ Delivered s' := by
  have hk : (exec (prompt strictConfig (quietMachine 1000)) strictStart earlyKill).any
      (fun s => decide (Event.stdin .kill ∈ s.seen)) = true := by
    decide +kernel
  obtain ⟨s, hs, hseen⟩ := Option.any_eq_true .. |>.mp hk
  exact ⟨s, hs, kill_delivered _ _ _ _ _ _ earlyKill s (prompt_run hs)
    (.inl (of_decide_eq_true hseen))⟩

def lateKill : List Label :=
  [.tick ⟨false, 0, 0⟩, .childExits (some ⟨some 0, none⟩), .send .kill, .receive ⟨[], [], []⟩,
    .tick ⟨false, 0, 0⟩, .receive ⟨[], [], []⟩, .tick ⟨false, 0, 0⟩,
    .finish ⟨0, [.exited ⟨some 0, none⟩], []⟩]

structure Stuck (s : State σ) : Prop where
  point : ∃ p, s.point = .strict 0 p
  queue : ∀ e ∈ s.queue, e.lost = false ∧ ∀ f, e ≠ .stdin f
  connected : s.connected = true
  stdout : s.stdout = .new .stdout true
  stderr : s.stderr = none
  pumpDone : s.pumpDone = 0
  mode : ∃ u, s.mode = .tracked u
  silent : ∀ r, Frame.exit r ∉ s.frames

lemma Stuck.frame (h : Stuck s) {p : StrictPoint} (hk : Kept s s') (hp : s'.point = .strict 0 p)
    (hq : ∀ e ∈ s'.queue, e.lost = false ∧ ∀ f, e ≠ .stdin f) (hc : s'.connected = s.connected)
    (ho : s'.stdout = s.stdout) (he : s'.stderr = s.stderr) (hd : s'.pumpDone = s.pumpDone) :
    Stuck s' := by
  obtain ⟨u, hm⟩ := h.mode
  have hcore := hk.mode
  rw [hm] at hcore
  obtain ⟨u', hm', -⟩ := Mode.core_tracked hcore.symm
  exact ⟨⟨p, hp⟩, hq, hc.trans h.connected, ho.trans h.stdout, he.trans h.stderr,
    hd.trans h.pumpDone, ⟨u', hm'⟩, fun r hr => h.silent r (hk.exits r hr)⟩

lemma Stuck.push {e : Event} (h : Stuck s) (he : e.lost = false ∧ ∀ f, e ≠ .stdin f) :
    ∀ e' ∈ s.queue ++ [e], e'.lost = false ∧ ∀ f, e' ≠ .stdin f := by
  intro e' he'
  rcases List.mem_append.mp he' with he' | he'
  · exact h.queue e' he'
  · obtain rfl := List.mem_singleton.mp he'
    exact he

lemma Stuck.own {l : Label} (h : Stuck s) (hs : Own cfg H s l s') : Stuck s' := by
  obtain ⟨hs, hl⟩ := hs
  obtain ⟨p, hp⟩ := h.point
  cases l with
  | send | hangUp | closed | readFailed => cases hl
  | childExits outcome =>
    obtain ⟨u, hm⟩ := h.mode
    simp only [step, childExits, hm] at hs
    obtain ⟨hk, hpt⟩ := childExits_kept (s := s)
      (by simpa only [childExits, hm] using hs)
    split at hs
    · cases outcome <;> obtain rfl := Option.some.inj hs
      · exact h.frame hk hp (h.push ⟨rfl, by simp⟩) rfl rfl rfl rfl
      · exact h.frame hk hp (h.push ⟨rfl, by simp⟩) rfl rfl rfl rfl
    · cases hs
  | timer =>
    obtain rfl := Option.some.inj hs
    exact h.frame (.pushed s _) hp (h.push ⟨rfl, by simp⟩) rfl rfl rfl rfl
  | elapse time =>
    obtain rfl := Option.some.inj hs
    exact h.frame ⟨rfl, rfl, rfl, rfl, rfl, rfl, rfl, rfl, fun _ h => h⟩ hp h.queue rfl rfl rfl rfl
  | pump pipe action =>
    simp only [step, pumpStep, Option.bind_eq_some_iff] at hs
    obtain ⟨q, hq, hs⟩ := hs
    cases pipe with
    | stdout =>
      obtain rfl := Option.some.inj hq
      rw [h.stdout] at hs
      split at hs
      · cases hs
      · cases action <;> cases hs
    | stderr => rw [State.selected, h.stderr] at hq; cases hq
  | deliver ok =>
    have hk := (deliver_kept hs).1
    obtain ⟨u, hm⟩ := h.mode
    simp only [step, deliver, hm] at hs
    split at hs
    · split at hs
      · obtain rfl := Option.some.inj hs
        exact h.frame hk hp h.queue rfl rfl rfl rfl
      · rw [if_pos h.connected] at hs
        cases hs
    · cases hs
  | strict hungUp =>
    simp only [step, hp] at hs
    have hk := (strictStep_kept hp hs).1
    have hpumps : s.pumps = 1 := by simp [State.pumps, h.stderr]
    cases p with
    | check =>
      simp only [strictStep, hpumps, Nat.zero_lt_one, if_true, h.connected] at hs
      split at hs
      · cases hs
      · obtain rfl := Option.some.inj hs
        exact h.frame hk rfl h.queue h.connected.symm rfl rfl rfl
    | poll =>
      simp only [strictStep] at hs
      split at hs
      · obtain rfl := Option.some.inj hs
        exact h.frame hk rfl h.queue rfl rfl rfl rfl
      · next e rest hq =>
        obtain rfl := Option.some.inj hs
        obtain ⟨hlost, hframe⟩ := h.queue e (hq ▸ List.mem_cons_self)
        have hrest : ∀ e' ∈ rest, e'.lost = false ∧ ∀ f, e' ≠ .stdin f :=
          fun e' he' => h.queue e' (hq ▸ List.mem_cons_of_mem _ he')
        cases e with
        | stdin f => exact absurd rfl (hframe f)
        | stdinClosed | stdinError | trackingWriteFailed => cases hlost
        | childExited | childWaitFailed | timedOut => exact h.frame hk hp hrest rfl rfl rfl rfl
    | wait =>
      have hopen : s.pumpsClosed = false := by simp [State.pumpsClosed, h.stdout, Pump.new]
      simp only [strictStep, h.pumpDone, Nat.lt_irrefl, if_false, hopen, Bool.false_eq_true] at hs
      obtain rfl := Option.some.inj hs
      exact h.frame hk rfl h.queue rfl rfl rfl h.pumpDone.symm
  | _ => simp [step, hp] at hs

lemma Stuck.forever (h : Stuck s) (hl : Leads cfg H s s') : ∀ r, Frame.exit r ∉ s'.wire := by
  obtain ⟨labels, hr⟩ := hl
  exact fun r hx => (hr.invariant (fun _ _ _ h hs => h.own hs) h).silent r
    (List.mem_append_left _ hx)

/-- The pump waits for credit, the drain for the pump, and no KILL is left to end it. -/
theorem late_kill_undelivered :
    ¬ ∀ (labels : List Label) (s : State ℕ),
      Run (fun s l s' => step strictConfig (quietMachine 1000) s l = some s' ∧ l ≠ .hangUp)
        strictStart labels s →
      s.killed → ∃ s', Leads strictConfig (quietMachine 1000) s s' ∧ Delivered s' := by
  intro hall
  have hrun : (exec (step strictConfig (quietMachine 1000)) strictStart lateKill).any
      (fun s => decide (Event.stdin .kill ∈ s.seen) && s.point == .strict 0 .check &&
        s.queue == [] && s.connected && s.stdout == .new .stdout true && s.stderr == none &&
        s.pumpDone == 0 && s.frames == [] && s.mode.isTracked) = true := by
    decide +kernel
  obtain ⟨s, hs, hfacts⟩ := Option.any_eq_true .. |>.mp hrun
  simp only [Bool.and_eq_true, beq_iff_eq, decide_eq_true_eq] at hfacts
  obtain ⟨⟨⟨⟨⟨⟨⟨⟨hseen, hpoint⟩, hqueue⟩, hcon⟩, hout⟩, herr⟩, hdone⟩, hframes⟩, hmode⟩ := hfacts
  have hstuck : Stuck s := by
    refine ⟨⟨_, hpoint⟩, by simp [hqueue], hcon, hout, herr, hdone, ?_, by simp [hframes]⟩
    cases hm : s.mode with
    | untracked w => simp [hm, Mode.isTracked] at hmode
    | tracked u => exact ⟨u, rfl⟩
  have hrun := (exec_run hs).restrict (p := (· ≠ .hangUp)) (by decide)
  obtain ⟨s', hl, ⟨r, hr⟩, -⟩ := hall lateKill s hrun (.inl hseen)
  exact hstuck.forever hl r hr

end LateKill

end Forcola.Native.Supervisor
