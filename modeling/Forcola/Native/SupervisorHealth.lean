import Forcola.Native.CleanupPace
import Forcola.Native.SupervisorSteps

/-! What holds along a run whose peer stays and that meets no late KILL. -/

namespace Forcola.Native.Supervisor

variable {σ : Type} {cfg : Config} {H : Host σ} {s s' : State σ} {u : Tracked σ}

def State.killed (s : State σ) : Prop :=
  Event.stdin .kill ∈ s.seen ∨ Event.stdin .kill ∈ s.drained

def State.released (s : State σ) : Prop :=
  ∀ g ∈ s.gates, g.opened = true

/-- A tracked strict loop is about to consume a KILL that it will not act on: the child's exit
was observed and nothing asked to discard its output. -/
def late (cfg : Config) (s : State σ) : Label → Bool
  | .receive _ =>
    match s.mode with
    | .untracked _ => false
    | .tracked _ => s.point == .recv && s.queue.head? == some (.stdin .kill) &&
        cfg.strictOutput && s.outcome.isSome && !s.discardOutput
  | _ => false

def Event.lost : Event → Bool
  | .stdinClosed | .stdinError | .trackingWriteFailed => true
  | _ => false

def Ready (s : State σ) : Mode σ → Prop
  | .untracked _ => (s.point = .recv → s.childRunning = true ∨ ∃ o, .childExited o ∈ s.queue) ∧
      s.point ≠ .top ∧ s.point ≠ .collect
  | .tracked t => t.writer = .running ∧
      (s.killed → s.point = .top ∨ s.point = .recv → t.tracker.cleaning = true)

structure Healthy (cfg : Config) (s : State σ) : Prop where
  connected : s.connected = true
  queue : ∀ e ∈ s.queue, e.lost = false
  beamGone : s.beamGone = false
  ready : Ready s s.mode
  discard : s.killed → s.point.ended = false → cfg.strictOutput = true → s.discardOutput = true
  strict : s.killed → ∀ c p, s.point ≠ .strict c p
  opened : s.killed → s.point.ended = true → s.released
  notGone : s.point ≠ .returned true
  collect : s.point = .collect → ∃ r, Frame.exit r ∈ s.frames
  returned : s.point = .returned false → ∃ r, Frame.exit r ∈ s.wire

lemma Credit.opened_cancel (c : Credit) : c.cancel.opened = true := rfl

lemma Credit.opened_uncork (c : Credit) : c.uncork.opened = true := by
  simp [Credit.uncork, Credit.opened]

def Released (p : Pump) : Prop :=
  ∀ g ∈ p.credit, g.opened = true

lemma released_iff : s.released ↔ Released s.stdout ∧ ∀ p ∈ s.stderr, Released p := by
  simp only [State.released, State.gates, Released, List.mem_append, Option.mem_toList,
    Option.bind_eq_some_iff, Option.mem_def]
  constructor
  · exact fun h => ⟨fun g hg => h g (.inl hg), fun p hp g hg => h g (.inr ⟨p, hp, hg⟩)⟩
  · rintro ⟨h1, h2⟩ g (hg | ⟨p, hp, hg⟩)
    · exact h1 g hg
    · exact h2 p hp g hg

lemma Released.onCredit {p : Pump} {f : Credit → Credit} (hf : ∀ c, c.opened = true →
    (f c).opened = true) (h : Released p) : Released (p.onCredit f) := by
  intro g hg
  obtain ⟨c, hc, rfl⟩ := Option.map_eq_some_iff.mp hg
  exact hf c (h c hc)

lemma onCredits_released {f : Credit → Credit} (hf : ∀ c, (f c).opened = true) (s : State σ) :
    (s.onCredits f).released := by
  refine released_iff.mpr ⟨fun g hg => ?_, fun p hp g hg => ?_⟩
  · obtain ⟨c, -, rfl⟩ := Option.map_eq_some_iff.mp hg
    exact hf c
  · obtain ⟨q, -, rfl⟩ := Option.map_eq_some_iff.mp hp
    obtain ⟨c, -, rfl⟩ := Option.map_eq_some_iff.mp hg
    exact hf c

lemma Released.permit {p p' : Pump} (h : Released p) (hs : p.permit = some p') :
    Released p' := by
  rw [Pump.permit] at hs
  split at hs
  · obtain rfl := Option.some.inj hs
    exact h
  · obtain ⟨permit, -, rfl⟩ := Option.map_eq_some_iff.mp hs
    cases permit <;> exact h

lemma Released.step {p p' : Pump} {action : PumpAction} (h : Released p)
    (hs : p.step action = some p') : Released p' := by
  rw [Pump.step.eq_def] at hs
  split at hs
  · exact h.permit hs
  · next answer _ =>
    cases answer with
    | data bytes =>
      dsimp only at hs
      split at hs
      · cases hs
      · obtain rfl := Option.some.inj hs
        split
        · exact h.onCredit fun _ hc => hc
        · exact h
    | eof | interrupted | failed =>
      obtain rfl := Option.some.inj hs
      exact h
  · obtain rfl := Option.some.inj hs
    exact h
  · obtain rfl := Option.some.inj hs
    exact h
  · cases hs

structure Aside (s s' : State σ) : Prop where
  connected : s'.connected = s.connected
  queue : s'.queue = s.queue
  beamGone : s'.beamGone = s.beamGone
  mode : s'.mode = s.mode
  point : s'.point = s.point
  seen : s'.seen = s.seen
  drained : s'.drained = s.drained
  discardOutput : s'.discardOutput = s.discardOutput
  childRunning : s'.childRunning = s.childRunning
  released : s.released → s'.released
  wire : ∀ f ∈ s.wire, f ∈ s'.wire

lemma Healthy.aside (h : Healthy cfg s) (ha : Aside s s') : Healthy cfg s' := by
  have hk : s'.killed ↔ s.killed := by rw [State.killed, State.killed, ha.seen, ha.drained]
  refine ⟨ha.connected ▸ h.connected, ha.queue ▸ h.queue, ha.beamGone ▸ h.beamGone, ?_, ?_, ?_, ?_, ?_, ?_, ?_⟩
  · rw [ha.mode]
    have hr := h.ready
    cases hm : s.mode with
    | untracked u =>
      rw [hm] at hr
      simpa only [Ready, ha.point, ha.childRunning, ha.queue] using hr
    | tracked t =>
      rw [hm] at hr
      simpa only [Ready, ha.point, hk] using hr
  · rw [hk, ha.point, ha.discardOutput]
    exact h.discard
  · rw [hk, ha.point]
    exact h.strict
  · rw [hk, ha.point]
    exact fun hk hp => ha.released (h.opened hk hp)
  · rw [ha.point]
    exact h.notGone
  · rw [ha.point]
    intro hp
    obtain ⟨r, hr⟩ := h.collect hp
    refine ⟨r, ?_⟩
    rw [State.frames, ha.mode]
    rcases List.mem_append.mp hr with hr | hr
    · exact List.mem_append_left _ (ha.wire _ hr)
    · exact List.mem_append_right _ hr
  · rw [ha.point]
    intro hp
    obtain ⟨r, hr⟩ := h.returned hp
    exact ⟨r, ha.wire _ hr⟩

lemma Aside.trans {s'' : State σ} (h : Aside s s') (k : Aside s' s'') : Aside s s'' :=
  ⟨k.connected.trans h.connected, k.queue.trans h.queue, k.beamGone.trans h.beamGone, k.mode.trans h.mode, k.point.trans h.point,
    k.seen.trans h.seen, k.drained.trans h.drained, k.discardOutput.trans h.discardOutput,
    k.childRunning.trans h.childRunning, fun hr => k.released (h.released hr),
    fun f hf => k.wire f (h.wire f hf)⟩

lemma setPump_aside {pipe : Pipe} {p p' : Pump} {action : PumpAction}
    (hsel : s.selected pipe = some p) (hp : p.step action = some p') :
    Aside s (s.setPump pipe p') := by
  have hrel : s.released → (s.setPump pipe p').released := by
    intro hr
    obtain ⟨h1, h2⟩ := released_iff.mp hr
    cases pipe with
    | stdout =>
      obtain rfl := Option.some.inj hsel
      exact released_iff.mpr ⟨h1.step hp, h2⟩
    | stderr =>
      refine released_iff.mpr ⟨h1, fun q hq => ?_⟩
      obtain rfl := Option.some.inj hq
      exact (h2 p hsel).step hp
  cases pipe <;> exact ⟨rfl, rfl, rfl, rfl, rfl, rfl, rfl, rfl, rfl, hrel, fun _ h => h⟩

lemma pumpOut_aside (s : State σ) (p : Pump) (action : PumpAction) :
    Aside s (pumpOut s p action) := by
  rw [pumpOut.eq_def]
  split
  · exact ⟨rfl, rfl, rfl, rfl, rfl, rfl, rfl, rfl, rfl, id, fun _ h => List.mem_cons_of_mem _ h⟩
  · exact ⟨rfl, rfl, rfl, rfl, rfl, rfl, rfl, rfl, rfl, id, fun _ h => h⟩
  · exact ⟨rfl, rfl, rfl, rfl, rfl, rfl, rfl, rfl, rfl, id, fun _ h => h⟩

lemma pumpStep_aside {pipe : Pipe} {action : PumpAction} (h : pumpStep s pipe action = some s') :
    Aside s s' := by
  simp only [pumpStep, Option.bind_eq_some_iff] at h
  obtain ⟨p, hsel, h⟩ := h
  split at h
  · cases h
  · obtain ⟨p', hp, rfl⟩ := Option.map_eq_some_iff.mp h
    exact (setPump_aside hsel hp).trans (pumpOut_aside _ p action)

lemma Healthy.push (h : Healthy cfg s) {e : Event} (he : e.lost = false) :
    Healthy cfg (push s e) := by
  refine ⟨h.connected, fun e' he' => ?_, h.beamGone, ?_, h.discard, h.strict, h.opened, h.notGone, h.collect,
    h.returned⟩
  · rcases List.mem_append.mp he' with he' | he'
    · exact h.queue e' he'
    · obtain rfl := List.mem_singleton.mp he'
      exact he
  · have hr := h.ready
    show Ready _ s.mode
    cases hm : s.mode with
    | untracked v =>
      rw [hm] at hr
      refine ⟨fun hp => (hr.1 hp).imp id ?_, hr.2⟩
      rintro ⟨o, ho⟩
      exact ⟨o, List.mem_append_left _ ho⟩
    | tracked t =>
      rw [hm] at hr
      exact hr

lemma Healthy.childExits {outcome : Option ChildOutcome} (h : Healthy cfg s)
    (hs : childExits s outcome = some s') : Healthy cfg s' := by
  rw [Supervisor.childExits] at hs
  split at hs
  · have hbase : ∀ e : Event, e.lost = false → (∀ v, s.mode = .untracked v → ∃ o, e = .childExited o) →
        Healthy cfg (Supervisor.push { s with childRunning := false } e) := by
      intro e he hex
      refine ⟨h.connected, fun e' he' => ?_, h.beamGone, ?_, h.discard, h.strict, h.opened, h.notGone,
        h.collect, h.returned⟩
      · rcases List.mem_append.mp he' with he' | he'
        · exact h.queue e' he'
        · obtain rfl := List.mem_singleton.mp he'
          exact he
      · have hr := h.ready
        show Ready _ s.mode
        cases hm : s.mode with
        | untracked v =>
          rw [hm] at hr
          obtain ⟨o, rfl⟩ := hex v hm
          exact ⟨fun _ => .inr ⟨o, List.mem_append_right _ (List.mem_singleton.mpr rfl)⟩, hr.2⟩
        | tracked t =>
          rw [hm] at hr
          exact hr
    dsimp only at hs
    split at hs
    · obtain rfl := Option.some.inj hs
      exact hbase _ rfl fun _ _ => ⟨_, rfl⟩
    · obtain rfl := Option.some.inj hs
      exact hbase _ rfl fun _ _ => ⟨_, rfl⟩
    · next hm =>
      obtain rfl := Option.some.inj hs
      refine hbase _ rfl fun v hv => ?_
      rw [hv] at hm
      cases hm
  · cases hs

lemma Healthy.deliver {ok : Bool} (h : Healthy cfg s) (hs : deliver s ok = some s') :
    Healthy cfg s' := by
  rw [Supervisor.deliver] at hs
  split at hs
  · cases hs
  · next t hm =>
    split at hs
    · next frame rest hw hctl =>
      split at hs
      · obtain rfl := Option.some.inj hs
        have hr := h.ready
        rw [hm] at hr
        refine ⟨h.connected, h.queue, h.beamGone, hr, h.discard, h.strict, h.opened, h.notGone,
          fun hp => ?_, fun hp => ?_⟩
        · obtain ⟨r, hx⟩ := h.collect hp
          refine ⟨r, ?_⟩
          simp only [State.frames, hm, Mode.control, hctl, List.mem_append, List.mem_cons] at hx ⊢
          tauto
        · obtain ⟨r, hx⟩ := h.returned hp
          exact ⟨r, List.mem_cons_of_mem _ hx⟩
      · rw [if_pos h.connected] at hs
        cases hs
    · cases hs

lemma Healthy.looping (hcon : s.connected = true) (hq : ∀ e ∈ s.queue, e.lost = false)
    (hb : s.beamGone = false) (hm : s.mode = .tracked u) (hw : u.writer = .running)
    (hp : s.point.ended = false)
    (hk : s.killed → u.tracker.cleaning = true ∧ (cfg.strictOutput = true → s.discardOutput = true)) :
    Healthy cfg s := by
  refine ⟨hcon, hq, hb, ?_, fun h _ => (hk h).2, ?_, ?_, ?_, ?_, ?_⟩
  · rw [hm]
    exact ⟨hw, fun h _ => (hk h).1⟩
  · intro _ c p he
    simp [he, Point.ended] at hp
  · intro _ he
    exact Bool.noConfusion (hp.symm.trans he)
  all_goals
    intro he
    simp [he, Point.ended] at hp

lemma announce_running (hw : u.writer = .running) (hb : s.beamGone = false)
    (ids : List ProcessIdentity) : (announce s u ids).1 = s ∧
      (announce s u ids).2.tracker = u.tracker ∧ (announce s u ids).2.writer = .running := by
  induction ids generalizing u with
  | nil => exact ⟨rfl, rfl, hw⟩
  | cons id rest ih =>
    rw [announce, if_neg (by simp [hb])]
    simp only [hw]
    split
    · exact ih rfl
    · exact ih rfl

lemma sampled_running (hw : u.writer = .running) (hb : s.beamGone = false) :
    (sampled cfg H s u false).1 = s ∧ (sampled cfg H s u false).2.writer = .running ∧
      (sampled cfg H s u false).2.tracker.cleanup = u.tracker.cleanup := by
  obtain ⟨i, hs⟩ := Tracker.scan_scanned (H := H) u.tracker
  obtain ⟨h1, h2, h3⟩ := announce_running (s := s)
    (u := { u with tracker := (u.tracker.scan H).takeNewGroups.2 }) hw hb
    (u.tracker.scan H).takeNewGroups.1
  have he : sampled cfg H s u false = announce s
      { u with tracker := (u.tracker.scan H).takeNewGroups.2 }
      (u.tracker.scan H).takeNewGroups.1 := by
    simp [sampled]
  rw [he]
  exact ⟨h1, h3, by rw [h2]; exact hs.cleanup⟩

lemma advance_cleaning (t : Tracker σ) (now : Instant) :
    (t.advance H now).2.cleaning = t.cleaning := by
  cases hc : t.cleanup with
  | none => simp [Tracker.advance, hc]
  | some c =>
    obtain ⟨n, ha⟩ := Tracker.advance_advanced (H := H) hc now
    simp [Tracker.cleaning, ha.cleanup, hc]

structure Iterated (s s' : State σ) (u u' : Tracked σ) : Prop where
  connected : s'.connected = s.connected
  queue : s'.queue = s.queue
  beamGone : s'.beamGone = s.beamGone
  seen : s'.seen = s.seen
  drained : s'.drained = s.drained
  discardOutput : s.discardOutput = true → s'.discardOutput = true
  mode : s'.mode = .tracked u'
  writer : u'.writer = u.writer
  cleaning : u.tracker.cleaning = true → u'.tracker.cleaning = true

variable (cfg) in
lemma giveUp_spec (s : State σ) (u : Tracked σ) :
    (∃ d, (giveUp cfg s u).1 = { s with discardOutput := d } ∧
      (s.discardOutput = true → d = true)) ∧
      (giveUp cfg s u).2.writer = u.writer ∧
      (u.tracker.cleaning = true → (giveUp cfg s u).2.tracker.cleaning = true) := by
  rw [giveUp]
  split
  · exact ⟨⟨true, rfl, fun _ => rfl⟩, rfl, fun _ => beginCleanup_cleaning ..⟩
  · exact ⟨⟨_, rfl, id⟩, rfl, id⟩

lemma cleanupTick_iterated {advancing : Duration} :
    ∃ u', Iterated s (cleanupTick H s u advancing) u u' ∧
      (cleanupTick H s u advancing).point.ended = false := by
  rw [cleanupTick]
  dsimp only
  generalize hs1 : (if s.discardOutput then State.cancel { s with inputClosed := true }
    else { s with inputClosed := true }) = s1
  have h1 : s1.connected = s.connected ∧ s1.queue = s.queue ∧ s1.beamGone = s.beamGone ∧
      s1.seen = s.seen ∧ s1.drained = s.drained ∧ s1.discardOutput = s.discardOutput := by
    rw [← hs1]
    split <;> exact ⟨rfl, rfl, rfl, rfl, rfl, rfl⟩
  obtain ⟨h1, h2, h3, h4, h5, h6⟩ := h1
  have hcl : u.tracker.cleaning = true →
      (u.tracker.advance H s1.clock).2.cleaning = true := (advance_cleaning _ _).trans
  split
  · exact ⟨_, ⟨h1, h2, h3, h4, h5, h6.trans, rfl, rfl, hcl⟩, rfl⟩
  · exact ⟨_, ⟨h1, h2, h3, h4, h5, h6.trans, rfl, rfl, hcl⟩, rfl⟩

lemma tick_iterated {answers : TickAnswers} (hcon : s.connected = true)
    (hb : s.beamGone = false) (hm : s.mode = .tracked u) (hw : u.writer = .running)
    (h : tick cfg H s u answers = some s') : ∃ u', Iterated s s' u u' ∧ s'.point.ended = false := by
  rw [tick] at h
  split at h
  · obtain rfl := Option.some.inj h
    exact ⟨u, ⟨rfl, rfl, rfl, rfl, rfl, id, hm, rfl, id⟩, rfl⟩
  · split at h
    · cases h
    · next hup =>
      have hup : answers.hungUp = false := by simpa [hcon] using hup
      rw [hup] at h
      obtain ⟨hs1, hw1, hc1⟩ := sampled_running (H := H) hw hb
      generalize sampled cfg H s u false = r1 at h hs1 hw1 hc1
      obtain ⟨s1, u1⟩ := r1
      obtain rfl : s1 = s := hs1
      dsimp only at h hw1 hc1
      have h2 := giveUp_spec cfg { s1 with clock := s1.clock + answers.scanning } u1
      generalize giveUp cfg { s1 with clock := s1.clock + answers.scanning } u1 = r2 at h h2
      obtain ⟨s2, u2⟩ := r2
      dsimp only at h h2
      obtain ⟨⟨d, rfl, hd⟩, hw2, hc2⟩ := h2
      have hcl : u.tracker.cleaning = true → u2.tracker.cleaning = true := by
        intro hcl
        refine hc2 ?_
        rw [Tracker.cleaning, hc1]
        exact hcl
      split at h
      · obtain rfl := Option.some.inj h
        obtain ⟨u', hi, hp⟩ := cleanupTick_iterated (H := H) (u := u2)
          (s := { s1 with clock := s1.clock + answers.scanning, discardOutput := d })
        exact ⟨u', ⟨hi.connected, hi.queue, hi.beamGone, hi.seen, hi.drained,
          fun h => hi.discardOutput (hd h), hi.mode, hi.writer.trans (hw2.trans (hw1.trans hw.symm)),
          fun h => hi.cleaning (hcl h)⟩, hp⟩
      · obtain rfl := Option.some.inj h
        exact ⟨_, ⟨rfl, rfl, rfl, rfl, rfl, hd, rfl, hw2.trans (hw1.trans hw.symm), hcl⟩, rfl⟩

lemma Healthy.tick {answers : TickAnswers} (h : Healthy cfg s) (hm : s.mode = .tracked u)
    (hp : s.point = .top) (hs : tick cfg H s u answers = some s') : Healthy cfg s' := by
  have hr := h.ready
  rw [hm] at hr
  obtain ⟨u', hi, hend⟩ := tick_iterated h.connected h.beamGone hm hr.1 hs
  refine .looping (hi.connected.trans h.connected) (hi.queue ▸ h.queue)
    (hi.beamGone.trans h.beamGone) hi.mode (hi.writer.trans hr.1) hend fun hk => ?_
  rw [State.killed, hi.seen, hi.drained] at hk
  exact ⟨hi.cleaning (hr.2 hk (.inl hp)), fun hst => hi.discardOutput (h.discard hk (by rw [hp]; rfl)
    hst)⟩

lemma handleTracked_spec {e : Event} (hm : s.mode = .tracked u) (hw : u.writer = .running)
    (hb : s.beamGone = false) (he : e.lost = false) :
    ∃ u', (handleTracked cfg s u e).mode = .tracked u' ∧ u'.writer = .running ∧
      (handleTracked cfg s u e).beamGone = false ∧
      (handleTracked cfg s u e).connected = s.connected ∧
      (handleTracked cfg s u e).queue = s.queue ∧ (handleTracked cfg s u e).seen = s.seen ∧
      (handleTracked cfg s u e).drained = s.drained ∧
      (u.tracker.cleaning = true ∨ e = .stdin .kill → u'.tracker.cleaning = true) ∧
      (s.discardOutput = true ∨ e = .stdin .kill ∧ s.outcome.isNone = true →
        (handleTracked cfg s u e).discardOutput = true) := by
  have hbegin : ∀ now, (beginCleanup cfg u now).tracker.cleaning = true :=
    fun now => beginCleanup_cleaning ..
  cases e with
  | stdin frame =>
    cases frame with
    | credit payload =>
      rw [handleTracked, State.grantStdout]
      split <;> exact ⟨u, hm, hw, hb, rfl, rfl, rfl, rfl, by simp, by simp⟩
    | stderrCredit payload =>
      rw [handleTracked, State.grantStderr]
      split <;> exact ⟨u, hm, hw, hb, rfl, rfl, rfl, rfl, by simp, by simp⟩
    | kill =>
      refine ⟨_, rfl, hw, hb, rfl, rfl, rfl, rfl, fun _ => hbegin _, fun hd => ?_⟩
      show (s.discardOutput || s.outcome.isNone) = true
      rcases hd with hd | ⟨-, hd⟩ <;> simp [hd]
    | other tag =>
      exact ⟨u, hm, hw, hb, rfl, rfl, rfl, rfl, by simp, by simp [handleTracked]⟩
  | stdinClosed | stdinError | trackingWriteFailed => cases he
  | timedOut =>
    rw [handleTracked]
    split
    · exact ⟨_, rfl, hw, hb, rfl, rfl, rfl, rfl, fun _ => hbegin _, fun _ => rfl⟩
    · exact ⟨u, hm, hw, hb, rfl, rfl, rfl, rfl, by simp, by simp⟩
  | childWaitFailed =>
    exact ⟨_, rfl, hw, hb, rfl, rfl, rfl, rfl, fun h => h.elim id (by simp), by
      simp [handleTracked, State.setTracked]⟩
  | childExited o =>
    exact ⟨_, rfl, hw, hb, rfl, rfl, rfl, rfl, fun _ => hbegin _, by
      simp [handleTracked, cleanNow, State.setTracked]⟩

lemma receive_tracked {answers : KillAnswers} {e : Event} {rest : List Event}
    (hm : s.mode = .tracked u) (hq : s.queue = e :: rest) : receive cfg s answers =
      some { handleTracked cfg { s with queue := rest, seen := e :: s.seen } u e with
             point := .top } := by
  simp only [receive, hq, hm]

lemma Healthy.receiveTracked {answers : KillAnswers} (h : Healthy cfg s)
    (hm : s.mode = .tracked u) (hp : s.point = .recv) (hl : late cfg s (.receive answers) = false)
    (hs : receive cfg s answers = some s') : Healthy cfg s' := by
  have hr := h.ready
  rw [hm] at hr
  cases hq : s.queue with
  | nil =>
    rw [receive, hq] at hs
    cases hs
  | cons e rest =>
    rw [receive_tracked hm hq] at hs
    obtain rfl := Option.some.inj hs
    have he : ∀ e' ∈ e :: rest, e'.lost = false := hq ▸ h.queue
    obtain ⟨u', hm', hw', hb', hcon', hq', hseen', hdr', hcl', hdis'⟩ := handleTracked_spec
      (s := { s with queue := rest, seen := e :: s.seen }) (u := u) hm hr.1 h.beamGone
      (he e List.mem_cons_self)
    simp only [hm] at hm' hb' hcon' hq' hseen' hdr' hdis' ⊢
    refine .looping (hcon'.trans h.connected) ?_ hb' hm' hw' rfl fun hk => ?_
    · dsimp only
      rw [hq']
      exact fun e' he' => he e' (List.mem_cons_of_mem _ he')
    · have hk : s.killed ∨ e = .stdin .kill := by
        rw [State.killed, hseen', hdr', List.mem_cons] at hk
        rcases hk with (hk | hk) | hk
        · exact .inr hk.symm
        · exact .inl (.inl hk)
        · exact .inl (.inr hk)
      refine ⟨hcl' (hk.imp (fun hk => hr.2 hk (.inr hp)) id), fun hst => hdis' ?_⟩
      rcases hk with hk | rfl
      · exact .inl (h.discard hk (by rw [hp]; rfl) hst)
      · by_contra hne
        simp only [not_or, true_and, Bool.not_eq_true] at hne
        have hout : s.outcome.isSome = true := by
          cases ho : s.outcome with
          | none => simp [ho] at hne
          | some o => rfl
        simp [late, hm, hp, hq, hst, hout, hne.1] at hl

structure HandledUntracked (s s' : State σ) (e : Event) : Prop where
  connected : s'.connected = s.connected
  beamGone : s'.beamGone = s.beamGone
  queue : s'.queue = s.queue
  seen : s'.seen = s.seen
  drained : s'.drained = s.drained
  childRunning : s'.childRunning = s.childRunning
  mode : ∃ v, s'.mode = .untracked v
  point : s'.point = s.point ∧ (∀ o, e ≠ .childExited o) ∨ s'.point = .finish
  discardOutput : s.discardOutput = true ∨ e = .stdin .kill → s'.discardOutput = true

lemma stopGroup_spec (s : State σ) (v : Untracked) (answers : KillAnswers)
    (hm : s.mode = .untracked v) : (stopGroup cfg s v answers).connected = s.connected ∧
      (stopGroup cfg s v answers).beamGone = s.beamGone ∧
      (stopGroup cfg s v answers).queue = s.queue ∧ (stopGroup cfg s v answers).seen = s.seen ∧
      (stopGroup cfg s v answers).drained = s.drained ∧
      (stopGroup cfg s v answers).childRunning = s.childRunning ∧
      (∃ w, (stopGroup cfg s v answers).mode = .untracked w) ∧
      (stopGroup cfg s v answers).point = s.point ∧
      (stopGroup cfg s v answers).discardOutput = s.discardOutput := by
  rw [stopGroup]
  split
  · exact ⟨rfl, rfl, rfl, rfl, rfl, rfl, ⟨v, hm⟩, rfl, rfl⟩
  · exact ⟨rfl, rfl, rfl, rfl, rfl, rfl, ⟨_, rfl⟩, rfl, rfl⟩

variable (cfg) in
lemma handleUntracked_spec (answers : KillAnswers) {v : Untracked} {e : Event}
    (hm : s.mode = .untracked v) (he : e.lost = false) :
    HandledUntracked s (handleUntracked cfg s v answers e) e := by
  cases e with
  | stdin frame =>
    cases frame with
    | credit payload =>
      rw [handleUntracked, State.grantStdout]
      split <;> exact ⟨rfl, rfl, rfl, rfl, rfl, rfl, ⟨v, hm⟩, .inl ⟨rfl, by simp⟩, by simp⟩
    | stderrCredit payload =>
      rw [handleUntracked, State.grantStderr]
      split <;> exact ⟨rfl, rfl, rfl, rfl, rfl, rfl, ⟨v, hm⟩, .inl ⟨rfl, by simp⟩, by simp⟩
    | kill =>
      obtain ⟨h1, h2, h3, h4, h5, h6, h7, h8, h9⟩ :=
        stopGroup_spec { s with discardOutput := true } v answers hm
      exact ⟨h1, h2, h3, h4, h5, h6, h7, .inl ⟨h8, by simp⟩, fun _ => h9⟩
    | other tag =>
      exact ⟨rfl, rfl, rfl, rfl, rfl, rfl, ⟨v, hm⟩, .inl ⟨rfl, by simp⟩, by simp [handleUntracked]⟩
  | stdinClosed | stdinError | trackingWriteFailed => cases he
  | timedOut =>
    obtain ⟨h1, h2, h3, h4, h5, h6, h7, h8, h9⟩ :=
      stopGroup_spec { s with discardOutput := true, timedOut := true } v answers hm
    exact ⟨h1, h2, h3, h4, h5, h6, h7, .inl ⟨h8, by simp⟩, fun _ => h9⟩
  | childWaitFailed =>
    exact ⟨rfl, rfl, rfl, rfl, rfl, rfl, ⟨v, hm⟩, .inl ⟨rfl, by simp⟩, by simp [handleUntracked]⟩
  | childExited o =>
    obtain ⟨h1, h2, h3, h4, h5, h6, h7, h8, h9⟩ := stopGroup_spec s v answers hm
    exact ⟨h1, h2, h3, h4, h5, h6, h7, .inr rfl, fun hd => h9.trans (hd.elim id (by simp))⟩

lemma receive_untracked {v : Untracked} {answers : KillAnswers} {e : Event} {rest : List Event}
    (hm : s.mode = .untracked v) (hq : s.queue = e :: rest) : receive cfg s answers =
      some (handleUntracked cfg { s with queue := rest, seen := e :: s.seen } v answers e) := by
  simp only [receive, hq, hm]

lemma Healthy.receiveUntracked {v : Untracked} {answers : KillAnswers} (h : Healthy cfg s)
    (hm : s.mode = .untracked v) (hp : s.point = .recv) (hs : receive cfg s answers = some s') :
    Healthy cfg s' := by
  have hr := h.ready
  rw [hm] at hr
  cases hq : s.queue with
  | nil =>
    rw [receive, hq] at hs
    cases hs
  | cons e rest =>
    rw [receive_untracked hm hq] at hs
    obtain rfl := Option.some.inj hs
    have he : ∀ e' ∈ e :: rest, e'.lost = false := hq ▸ h.queue
    have hh := handleUntracked_spec cfg answers
      (s := { s with queue := rest, seen := e :: s.seen }) (v := v) hm (he e List.mem_cons_self)
    simp only [hm] at hh ⊢
    generalize handleUntracked cfg _ v answers e = s1 at hh ⊢
    have hend : s1.point.ended = false := by
      rcases hh.point with ⟨hp', -⟩ | hp'
      · rw [hp', hp]
        rfl
      · rw [hp']
        rfl
    obtain ⟨v', hm'⟩ := hh.mode
    refine ⟨hh.connected.trans h.connected, ?_, hh.beamGone.trans h.beamGone, ?_, ?_, ?_, ?_, ?_,
      ?_, ?_⟩
    · rw [hh.queue]
      exact fun e' he' => he e' (List.mem_cons_of_mem _ he')
    · rw [hm']
      refine ⟨fun hp' => ?_, ?_, ?_⟩
      · rw [hh.childRunning, hh.queue]
        refine (hr.1 hp).imp id ?_
        rintro ⟨o, ho⟩
        rw [hq] at ho
        refine ⟨o, (List.mem_cons.mp ho).resolve_left fun heq => ?_⟩
        rcases hh.point with ⟨-, hne⟩ | hf
        · exact hne o heq.symm
        · simp [hf] at hp'
      all_goals
        rcases hh.point with ⟨hp', -⟩ | hp' <;> simp [hp', hp]
    · intro hk _ hst
      rw [State.killed, hh.seen, hh.drained, List.mem_cons] at hk
      refine hh.discardOutput ?_
      rcases hk with (hk | hk) | hk
      · exact .inr hk.symm
      · exact .inl (h.discard (.inl hk) (by rw [hp]; rfl) hst)
      · exact .inl (h.discard (.inr hk) (by rw [hp]; rfl) hst)
    · intro _ c p he
      simp [he, Point.ended] at hend
    · exact fun _ he => Bool.noConfusion (hend.symm.trans he)
    all_goals
      intro he
      simp [he, Point.ended] at hend

lemma Healthy.after (hcon : s.connected = true) (hq : ∀ e ∈ s.queue, e.lost = false)
    (hb : s.beamGone = false) (hr : Ready s s.mode) (hend : s.point.ended = true)
    (hk : s.killed → s.released ∧ ∀ c p, s.point ≠ .strict c p) (hg : s.point ≠ .returned true)
    (hc : s.point = .collect → ∃ r, Frame.exit r ∈ s.frames)
    (hret : s.point = .returned false → ∃ r, Frame.exit r ∈ s.wire) : Healthy cfg s :=
  ⟨hcon, hq, hb, hr, fun _ he => Bool.noConfusion (he.symm.trans hend), fun h => (hk h).2,
    fun h _ => (hk h).1, hg, hc, hret⟩

lemma finishCgroup_spec (s : State σ) (polls : List Bool) :
    ∃ c a, finishCgroup cfg s polls = { s with cgroupConfirmed := c, acts := a } := by
  rw [finishCgroup]
  split
  · exact ⟨_, _, rfl⟩
  · exact ⟨true, s.acts, rfl⟩

structure Finished (cfg : Config) (s s' : State σ) : Prop where
  connected : s'.connected = s.connected
  queue : s'.queue = s.queue
  beamGone : s'.beamGone = s.beamGone
  seen : s'.seen = s.seen
  drained : s'.drained = s.drained
  ended : s'.point.ended = true
  running : s'.point ≠ .collect ∧ ∀ b, s'.point ≠ .returned b
  released : (cfg.strictOutput = true → s.discardOutput = true) →
    s'.released ∧ ∃ n d cut, s'.point = .drain n d cut

variable (cfg) in
lemma chooseDrain_finished (s : State σ) : Finished cfg s (chooseDrain cfg s) := by
  rw [chooseDrain]
  split
  · next hst =>
    refine ⟨rfl, rfl, rfl, rfl, rfl, rfl, by simp, fun hd => ?_⟩
    simp only [Bool.and_eq_true, Bool.not_eq_true'] at hst
    exact Bool.noConfusion (hst.2.symm.trans (hd hst.1))
  · split
    · exact ⟨rfl, rfl, rfl, rfl, rfl, rfl, by simp [State.startDrain], fun _ =>
        ⟨onCredits_released Credit.opened_cancel s, _, _, _, rfl⟩⟩
    · exact ⟨rfl, rfl, rfl, rfl, rfl, rfl, by simp [State.startDrain], fun _ =>
        ⟨onCredits_released Credit.opened_uncork s, _, _, _, rfl⟩⟩

lemma chooseDrain_mode (s : State σ) : (chooseDrain cfg s).mode = s.mode := by
  rw [chooseDrain]
  split
  · rfl
  · split <;> rfl

lemma finishTracked_finished {answers : FinishAnswers} (hw : u.writer = .running)
    (hb : s.beamGone = false) : Finished cfg s (finishTracked cfg H s u answers) ∧
      ∃ u', (finishTracked cfg H s u answers).mode = .tracked u' ∧ u'.writer = .running := by
  rw [finishTracked]
  generalize u.tracker.finishScan H = r
  obtain ⟨final, tracker⟩ := r
  dsimp only
  obtain ⟨c, a, hs⟩ := finishCgroup_spec
    (reapTracked { s with inputClosed := true, clock := s.clock + answers.took }
      (reapRoot answers.reaps)) answers.cgroupDrained
  rw [hs]
  rw [if_neg (by simp [reapTracked, hb])]
  generalize hu1 : announceFinal
    { u with tracker := tracker.takeNewGroups.2, finalConfirmed := final,
             reaped := reapRoot answers.reaps } tracker.takeNewGroups.1 = u1
  have ha := announceFinal_announced
    { u with tracker := tracker.takeNewGroups.2, finalConfirmed := final,
             reaped := reapRoot answers.reaps } tracker.takeNewGroups.1
  rw [hu1] at ha
  refine ⟨?_, u1, chooseDrain_mode _, ha.writer.trans hw⟩
  generalize hs1 : State.setTracked _ u1 = s1
  have h1 : s1.connected = s.connected ∧ s1.queue = s.queue ∧ s1.beamGone = s.beamGone ∧
      s1.seen = s.seen ∧ s1.drained = s.drained ∧ s1.discardOutput = s.discardOutput := by
    rw [← hs1]
    exact ⟨rfl, rfl, rfl, rfl, rfl, rfl⟩
  obtain ⟨h1, h2, h3, h4, h5, h6⟩ := h1
  have hf := chooseDrain_finished cfg s1
  exact ⟨hf.connected.trans h1, hf.queue.trans h2, hf.beamGone.trans h3, hf.seen.trans h4,
    hf.drained.trans h5, hf.ended, hf.running, h6 ▸ hf.released⟩

lemma finishUntracked_finished {answers : FinishAnswers} (hb : s.beamGone = false) :
    Finished cfg s (finishUntracked cfg s answers) ∧
      (finishUntracked cfg s answers).mode = s.mode := by
  rw [finishUntracked]
  dsimp only
  generalize hs0 : (if cfg.strictOutput then s else s.uncork) = s0
  have h0 : s0.connected = s.connected ∧ s0.queue = s.queue ∧ s0.beamGone = s.beamGone ∧
      s0.seen = s.seen ∧ s0.drained = s.drained ∧ s0.discardOutput = s.discardOutput ∧
      s0.mode = s.mode ∧ (cfg.strictOutput = false → s0.released) := by
    rw [← hs0]
    split
    · next h => exact ⟨rfl, rfl, rfl, rfl, rfl, rfl, rfl, fun hn => by simp [hn] at h⟩
    · exact ⟨rfl, rfl, rfl, rfl, rfl, rfl, rfl, fun _ => onCredits_released Credit.opened_uncork s⟩
  obtain ⟨h1, h2, h3, h4, h5, h6, h7, h8⟩ := h0
  obtain ⟨c, a, hs⟩ := finishCgroup_spec { s0 with clock := s0.clock + answers.took }
    answers.cgroupDrained
  rw [hs, if_neg (by simp [h3, hb])]
  split
  · next hst =>
    split
    · exact ⟨⟨h1, h2, h3, h4, h5, rfl, by simp [State.startDrain], fun _ =>
        ⟨onCredits_released Credit.opened_cancel _, _, _, _, rfl⟩⟩, h7⟩
    · next hd =>
      refine ⟨⟨h1, h2, h3, h4, h5, rfl, by simp, fun hdis => ?_⟩, h7⟩
      exact absurd (h6.trans (hdis hst)) hd
  · next hst =>
    exact ⟨⟨h1, h2, h3, h4, h5, rfl, by simp [State.startDrain], fun _ =>
      ⟨h8 (by simpa using hst), _, _, _, rfl⟩⟩, h7⟩

lemma Healthy.finished (h : Healthy cfg s) (hp : s.point = .finish) (hf : Finished cfg s s')
    (hr : Ready s' s'.mode) : Healthy cfg s' := by
  refine .after (hf.connected.trans h.connected) (hf.queue ▸ h.queue)
    (hf.beamGone.trans h.beamGone) hr hf.ended (fun hk => ?_) (hf.running.2 true)
    (fun he => absurd he hf.running.1) (fun he => absurd he (hf.running.2 false))
  rw [State.killed, hf.seen, hf.drained] at hk
  obtain ⟨hrel, n, d, cut, hpt⟩ := hf.released (h.discard hk (by rw [hp]; rfl))
  exact ⟨hrel, fun c p he => by simp [hpt] at he⟩

lemma Ready.ended (hend : s.point.ended = true) (hp : s.point ≠ .collect)
    (hm : (∃ w, s.mode = .untracked w) ∨ ∃ u, s.mode = .tracked u ∧ u.writer = .running) :
    Ready s s.mode := by
  rcases hm with ⟨w, hm⟩ | ⟨u, hm, hw⟩
  · rw [hm]
    refine ⟨fun he => ?_, fun he => ?_, hp⟩ <;> simp [he, Point.ended] at hend
  · rw [hm]
    refine ⟨hw, fun _ he => ?_⟩
    rcases he with he | he <;> simp [he, Point.ended] at hend

lemma Ready.writer (h : Ready s s.mode) :
    (∃ w, s.mode = .untracked w) ∨ ∃ u, s.mode = .tracked u ∧ u.writer = .running := by
  cases hm : s.mode with
  | untracked w => exact .inl ⟨w, rfl⟩
  | tracked u =>
    rw [hm] at h
    exact .inr ⟨u, rfl, h.1⟩

lemma Healthy.finish (answers : FinishAnswers) (h : Healthy cfg s) (hp : s.point = .finish)
    (hs : step cfg H s (.finish answers) = some s') : Healthy cfg s' ∧ Finished cfg s s' := by
  simp only [step, hp] at hs
  have hr := h.ready
  cases hm : s.mode with
  | untracked w =>
    simp only [hm] at hs
    obtain rfl := Option.some.inj hs
    obtain ⟨hf, hmode⟩ := finishUntracked_finished h.beamGone
    exact ⟨h.finished hp hf (.ended hf.ended hf.running.1 (.inl ⟨w, hmode.trans hm⟩)), hf⟩
  | tracked t =>
    rw [hm] at hr
    simp only [hm] at hs
    obtain rfl := Option.some.inj hs
    obtain ⟨hf, u', hmode, hw⟩ := finishTracked_finished (H := H)
      hr.1 h.beamGone
    exact ⟨h.finished hp hf (.ended hf.ended hf.running.1 (.inr ⟨u', hmode, hw⟩)), hf⟩

lemma Healthy.strictEvent {completed : ℕ} {e : Event} {rest : List Event} {c : ℕ}
    {p : StrictPoint} (h : Healthy cfg s) (hp : s.point = .strict c p) (hq : s.queue = e :: rest) :
    Healthy cfg (strictEvent { s with queue := rest, drained := e :: s.drained } completed e) := by
  have hnk : ¬ s.killed := fun hk => h.strict hk c p hp
  have he : ∀ e' ∈ e :: rest, e'.lost = false := hq ▸ h.queue
  have hrest : ∀ e' ∈ rest, e'.lost = false := fun e' he' => he e' (List.mem_cons_of_mem _ he')
  have hmode := h.ready.writer
  have stay : ∀ s' : State σ, s'.connected = s.connected → s'.queue = rest →
      s'.beamGone = s.beamGone → s'.mode = s.mode → s'.point = s.point → s'.seen = s.seen →
      s'.drained = e :: s.drained → e ≠ .stdin .kill → Healthy cfg s' := by
    intro s' h1 h2 h3 h4 h5 h6 h7 hne
    have hp' : s'.point = .strict c p := h5.trans hp
    refine .after (h1.trans h.connected) (h2 ▸ hrest) (h3.trans h.beamGone)
      (.ended (by rw [hp']; rfl) (by simp [hp']) (h4 ▸ hmode)) (by rw [hp']; rfl) (fun hk => ?_)
      (by simp [hp']) (by simp [hp']) (by simp [hp'])
    rw [State.killed, h6, h7, List.mem_cons] at hk
    rcases hk with hk | hk | hk
    · exact absurd (.inl hk) hnk
    · exact absurd hk.symm hne
    · exact absurd (.inr hk) hnk
  cases e with
  | stdin frame =>
    cases frame with
    | credit payload =>
      rw [Supervisor.strictEvent, State.grantStdout]
      split <;> exact stay _ rfl rfl rfl rfl rfl rfl rfl (by simp)
    | stderrCredit payload =>
      rw [Supervisor.strictEvent, State.grantStderr]
      split <;> exact stay _ rfl rfl rfl rfl rfl rfl rfl (by simp)
    | kill =>
      exact .after h.connected hrest h.beamGone
        (.ended rfl (by simp [State.startDrain, Supervisor.strictEvent]) hmode) rfl
        (fun _ => ⟨onCredits_released Credit.opened_cancel _, by
          simp [State.startDrain, Supervisor.strictEvent]⟩)
        (by simp [State.startDrain, Supervisor.strictEvent])
        (by simp [State.startDrain, Supervisor.strictEvent])
        (by simp [State.startDrain, Supervisor.strictEvent])
    | other tag => exact stay _ rfl rfl rfl rfl rfl rfl rfl (by simp)
  | stdinClosed | stdinError | trackingWriteFailed => exact Bool.noConfusion (he _ List.mem_cons_self)
  | childExited | childWaitFailed | timedOut => exact stay _ rfl rfl rfl rfl rfl rfl rfl (by simp)

lemma Healthy.moved (h : Healthy cfg s) {point : Point} {n : ℕ} (hend : s.point.ended = true)
    (hend' : point.ended = true)
    (hstrict : (∀ c p, s.point ≠ .strict c p) → ∀ c p, point ≠ .strict c p)
    (hp : point ≠ .collect ∧ ∀ b, point ≠ .returned b) :
    Healthy cfg { s with point := point, pumpDone := n } :=
  .after h.connected h.queue h.beamGone (.ended hend' hp.1 h.ready.writer) hend'
    (fun hk => ⟨h.opened hk hend, hstrict (h.strict hk)⟩) (hp.2 true) (fun he => absurd he hp.1)
    (fun he => absurd he (hp.2 false))

lemma Healthy.strictStep {completed : ℕ} {point : StrictPoint} {hungUp : Bool}
    (h : Healthy cfg s) (hp : s.point = .strict completed point)
    (hs : strictStep s completed point hungUp = some s') : Healthy cfg s' := by
  have hend : s.point.ended = true := by rw [hp]; rfl
  have hany : ∀ {q : Point}, (∀ c p, s.point ≠ .strict c p) → ∀ c p, q ≠ .strict c p :=
    fun hn => absurd hp (hn _ _)
  rw [strictStep.eq_def] at hs
  cases point with
  | check =>
    dsimp only at hs
    split at hs
    · split at hs
      · rw [if_pos h.connected] at hs
        cases hs
      · obtain rfl := Option.some.inj hs
        exact h.moved hend rfl hany (by simp)
    · obtain rfl := Option.some.inj hs
      exact h.moved hend rfl hany (by simp)
  | poll =>
    dsimp only at hs
    split at hs
    · obtain rfl := Option.some.inj hs
      exact h.moved hend rfl hany (by simp)
    · next e rest hq =>
      obtain rfl := Option.some.inj hs
      exact h.strictEvent hp hq
  | wait =>
    dsimp only at hs
    split at hs
    · obtain rfl := Option.some.inj hs
      exact h.moved hend rfl hany (by simp)
    · split at hs
      all_goals
        obtain rfl := Option.some.inj hs
        exact h.moved hend rfl hany (by simp)

lemma Healthy.drainStep {remaining : ℕ} {deadline : Instant} {cut : Bool} (h : Healthy cfg s)
    (hp : s.point = .drain remaining deadline cut)
    (hs : drainStep s remaining deadline cut = some s') : Healthy cfg s' := by
  have hend : s.point.ended = true := by rw [hp]; rfl
  cases remaining with
  | zero =>
    obtain rfl := Option.some.inj hs
    exact h.moved hend rfl (by simp) (by simp)
  | succ remaining =>
    simp only [Supervisor.drainStep] at hs
    split at hs
    · obtain rfl := Option.some.inj hs
      exact h.moved hend rfl (by simp) (by simp)
    · split at hs
      · obtain rfl := Option.some.inj hs
        exact h.moved hend rfl (by simp) (by simp)
      · split at hs
        · obtain rfl := Option.some.inj hs
          exact h.moved hend rfl (by simp) (by simp)
        · cases hs

lemma Healthy.reportStep {truncated ok : Bool} (h : Healthy cfg s)
    (hp : s.point = .report truncated) (hs : reportStep cfg H s truncated ok = some s') :
    Healthy cfg s' := by
  have hend : s.point.ended = true := by rw [hp]; rfl
  have hr := h.ready
  rw [Supervisor.reportStep] at hs
  cases hm : s.mode with
  | untracked w =>
    simp only [hm] at hs
    split at hs
    · obtain rfl := Option.some.inj hs
      exact .after h.connected h.queue h.beamGone (.ended rfl (by simp) (.inl ⟨w, rfl⟩)) rfl
        (fun hk => ⟨h.opened hk hend, by simp⟩) (by simp) (by simp)
        (fun _ => ⟨_, List.mem_cons_self⟩)
    · simp [h.connected] at hs
  | tracked t =>
    rw [hm] at hr
    simp only [hm, hr.1] at hs
    split at hs
    · obtain rfl := Option.some.inj hs
      refine ⟨h.connected, h.queue, h.beamGone, ⟨rfl, by simp⟩, by simp [Point.ended],
        fun _ => by simp, fun hk _ => h.opened hk hend, by simp,
        fun _ => ⟨s.exitReport cfg H truncated, ?_⟩, by simp⟩
      exact List.mem_append_right _ (List.mem_append_right _ (List.mem_singleton.mpr rfl))
    · cases hs

lemma Healthy.collectStep (h : Healthy cfg s) (hp : s.point = .collect)
    (hs : collectStep s = some s') : Healthy cfg s' := by
  have hend : s.point.ended = true := by rw [hp]; rfl
  have hr := h.ready
  rw [Supervisor.collectStep] at hs
  cases hm : s.mode with
  | untracked w => simp [hm] at hs
  | tracked t =>
    rw [hm] at hr
    simp only [hm, hr.1] at hs
    split at hs
    · next hc =>
      obtain rfl := Option.some.inj hs
      obtain ⟨r, hx⟩ := h.collect hp
      rw [State.frames, hm, Mode.control, hc, List.append_nil] at hx
      exact .after h.connected h.queue h.beamGone (.ended rfl (by simp) (.inr ⟨t, rfl, hr.1⟩)) rfl
        (fun hk => ⟨h.opened hk hend, by simp⟩) (by simp) (by simp) (fun _ => ⟨r, hx⟩)
    · cases hs

lemma Healthy.step {l : Label} (h : Healthy cfg s) (hl : l ≠ .hangUp) (hlate : late cfg s l = false)
    (hs : step cfg H s l = some s') : Healthy cfg s' := by
  rw [Supervisor.step.eq_def] at hs
  split at hs
  · obtain rfl := Option.some.inj hs
    exact h.push rfl
  · exact absurd rfl hl
  · simp [h.connected] at hs
  · simp [h.connected] at hs
  · exact h.childExits hs
  · obtain rfl := Option.some.inj hs
    exact h.push rfl
  · obtain rfl := Option.some.inj hs
    exact h.aside ⟨rfl, rfl, rfl, rfl, rfl, rfl, rfl, rfl, rfl, id, fun _ h => h⟩
  · exact h.aside (pumpStep_aside hs)
  · exact h.deliver hs
  · next hp =>
    split at hs
    · cases hs
    · next t hm => exact h.tick hm hp hs
  · next answers hp =>
    cases hm : s.mode with
    | untracked w => exact h.receiveUntracked hm hp hs
    | tracked t => exact h.receiveTracked hm hp hlate hs
  · next hp =>
    cases hm : s.mode with
    | untracked w => simp [timeout, hm] at hs
    | tracked t =>
      have hr := h.ready
      rw [hm] at hr
      simp only [timeout, hm] at hs
      split at hs
      · obtain rfl := Option.some.inj hs
        exact .looping h.connected h.queue h.beamGone rfl hr.1 rfl fun hk =>
          ⟨hr.2 hk (.inr hp), h.discard hk (by rw [hp]; rfl)⟩
      · cases hs
  · next hp =>
    cases hm : s.mode with
    | untracked w => simp [disconnected, hm] at hs
    | tracked t => simp [disconnected, hm, h.connected] at hs
  · next answers hp =>
    refine (h.finish answers (H := H) hp ?_).1
    simp only [Supervisor.step, hp]
    exact hs
  · next hp => exact h.strictStep hp hs
  · next hp => exact h.drainStep hp hs
  · next hp => exact h.reportStep hp hs
  · next hp => exact h.collectStep hp hs
  · cases hs

end Forcola.Native.Supervisor
