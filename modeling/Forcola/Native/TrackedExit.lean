import Forcola.Library.Transition
import Forcola.Native.CleanupPace
import Forcola.Native.SupervisorSteps

/-! A confirmed EXIT of a tracked run has the tracker's confirmation behind it. -/

namespace Forcola.Native.Supervisor

open Forcola.Library.Transition

variable {σ : Type} {cfg : Config} {H : Host σ} {t₀ t : Tracker σ} {fresh : Bool}

def Grown (H : Host σ) (t₀ : Tracker σ) (fresh : Bool) (t : Tracker σ) : Prop :=
  ∃ ops, Tracker.Paced H t₀ true ops fresh ∧ t = Tracker.run H t₀ ops

namespace Grown

lemma snoc {ops : List Tracker.Op} {op : Tracker.Op} (h : t = Tracker.run H t₀ ops)
    (hp : Tracker.Paced H t₀ true (ops ++ [op]) fresh) : Grown H t₀ fresh (t.apply H op) :=
  ⟨_, hp, by rw [Tracker.run_append, ← h]; rfl⟩

lemma scan (h : Grown H t₀ fresh t)
    (hc : fresh = true → ∀ c ∈ t.cleanup, c.emptyScans = 0) : Grown H t₀ true (t.scan H) := by
  obtain ⟨ops, hp, rfl⟩ := h
  exact snoc rfl (hp.scan fun _ => hc)

lemma beginCleanup (h : Grown H t₀ fresh t) (now : Instant) (interrupt : Option Duration)
    (term : Duration) : Grown H t₀ fresh (t.beginCleanup now interrupt term) := by
  obtain ⟨ops, hp, rfl⟩ := h
  exact snoc rfl (hp.beginCleanup now interrupt term)

lemma takeNewGroups (h : Grown H t₀ fresh t) : Grown H t₀ fresh t.takeNewGroups.2 := by
  obtain ⟨ops, hp, rfl⟩ := h
  exact snoc rfl hp.takeNewGroups

lemma fail (h : Grown H t₀ fresh t) : Grown H t₀ fresh (t.fail .supervisor) := by
  obtain ⟨ops, hp, rfl⟩ := h
  exact snoc rfl hp.fail

lemma advance (h : Grown H t₀ true t) (now : Instant) : Grown H t₀ false (t.advance H now).2 := by
  obtain ⟨ops, hp, rfl⟩ := h
  exact snoc rfl (hp.advance now)

end Grown

def Rested (H : Host σ) (t₀ t : Tracker σ) : Prop :=
  ∃ fresh, Grown H t₀ fresh t ∧ (fresh = true → ∀ c ∈ t.cleanup, c.emptyScans = 0)

namespace Rested

lemma beginCleanup (h : Rested H t₀ t) (now : Instant) (interrupt : Option Duration)
    (term : Duration) : Rested H t₀ (t.beginCleanup now interrupt term) := by
  obtain ⟨fresh, hg, hc⟩ := h
  refine ⟨fresh, hg.beginCleanup .., fun hf c hm => ?_⟩
  rw [Tracker.beginCleanup] at hm
  split at hm
  · exact hc hf c hm
  · obtain rfl := Option.some.inj hm
    rfl

lemma fail (h : Rested H t₀ t) : Rested H t₀ (t.fail .supervisor) := by
  obtain ⟨fresh, hg, hc⟩ := h
  exact ⟨fresh, hg.fail, hc⟩

lemma scan (h : Rested H t₀ t) : Grown H t₀ true (t.scan H) := by
  obtain ⟨fresh, hg, hc⟩ := h
  exact hg.scan hc

end Rested

structure Evidence (cfg : Config) (H : Host σ) (s : State σ) (t : Tracked σ) : Prop where
  settled : t.confirmed = true → t.finalConfirmed = true →
    Tracker.Settled H.platform [.scanned false false, .advanced, .scanned false false] t.tracker
  unforced : t.confirmed = true → t.finalConfirmed = true → ∀ now ∈ s.left,
    t.tracker.expired now = false →
    [.scanned false false, .advanced, .scanned false false, .advanced, .scanned false false] <+:
      marks t.tracker.log
  exited : t.confirmed = true → ∃ o, Event.childExited o ∈ s.seen
  cgroup : s.cgroupConfirmed = true → cfg.cgroup = true → Act.finishCgroup true ∈ s.acts
  reported : ∀ r, Frame.exit r ∈ s.frames → r.confirmed = true →
    t.confirmed = true ∧ t.finalConfirmed = true ∧ s.cgroupConfirmed = true ∧
      ∃ o, t.reaped = .exited o

structure Departed (H : Host σ) (t₀ : Tracker σ) (s : State σ) (t : Tracked σ) : Prop where
  advanced : ∃ now ops, s.left = some now ∧ Tracker.Paced H t₀ true ops true ∧
    t.tracker = ((Tracker.run H t₀ ops).advance H now).2 ∧
    ((Tracker.run H t₀ ops).advance H now).1.done = true ∧
    (t.confirmed = true → ((Tracker.run H t₀ ops).advance H now).1.confirmed = true)
  exited : t.confirmed = true → ∃ o, Event.childExited o ∈ s.seen

inductive Stage (cfg : Config) (H : Host σ) (t₀ : Tracker σ) (s : State σ) (t : Tracked σ) : Prop
  | looping : s.point = .top ∨ s.point = .recv → Rested H t₀ t.tracker →
      (s.outcome.isSome = true → ∃ o, Event.childExited o ∈ s.seen) →
      (∀ r, Frame.exit r ∉ s.frames) → Stage cfg H t₀ s t
  | departed : s.point = .finish → Departed H t₀ s t → (∀ r, Frame.exit r ∉ s.frames) →
      Stage cfg H t₀ s t
  | ended : s.point.ended = true → Evidence cfg H s t → Stage cfg H t₀ s t

variable {s s' : State σ} {u u' : Tracked σ}

lemma core_fields (h : u'.core = u.core) :
    u'.tracker = u.tracker ∧ u'.confirmed = u.confirmed ∧ u'.finalConfirmed = u.finalConfirmed ∧
      u'.reaped = u.reaped := by
  simp only [Tracked.core, Tracked.mk.injEq] at h
  exact ⟨h.1, h.2.2.2.2.2.1, h.2.2.2.2.2.2.1, h.2.2.2.2.2.2.2⟩

lemma Evidence.kept (h : Evidence cfg H s u) (hk : Kept s s') (hc : u'.core = u.core) :
    Evidence cfg H s' u' := by
  obtain ⟨ht, hconf, hfinal, hreap⟩ := core_fields hc
  refine ⟨?_, ?_, ?_, ?_, fun r hr => ?_⟩
  · rw [ht, hconf, hfinal]
    exact h.settled
  · rw [ht, hconf, hfinal, hk.left]
    exact h.unforced
  · rw [hconf, hk.seen]
    exact h.exited
  · rw [hk.cgroupConfirmed, hk.acts]
    exact h.cgroup
  · rw [hconf, hfinal, hk.cgroupConfirmed, hreap]
    exact h.reported r (hk.exits r hr)

lemma Stage.kept (h : Stage cfg H t₀ s u) (hk : Kept s s') (hp : s'.point = s.point)
    (hc : u'.core = u.core) : Stage cfg H t₀ s' u' := by
  obtain ⟨ht, hconf, -, -⟩ := core_fields hc
  have hx : (∀ r, Frame.exit r ∉ s.frames) → ∀ r, Frame.exit r ∉ s'.frames :=
    fun hx r hr => hx r (hk.exits r hr)
  cases h with
  | looping hpt hr ho hn =>
    refine .looping (by rwa [hp]) (by rwa [ht]) ?_ (hx hn)
    rwa [hk.outcome, hk.seen]
  | departed hpt hd hn =>
    refine .departed (by rwa [hp]) ⟨?_, ?_⟩ (hx hn)
    · rw [ht, hconf, hk.left]
      exact hd.advanced
    · rw [hconf, hk.seen]
      exact hd.exited
  | ended hpt he => exact .ended (by rwa [hp]) (he.kept hk hc)

lemma no_exit_queued {l : List Frame} {c c' : List Frame} (hn : ∀ r, Frame.exit r ∉ l ++ c)
    (hc : ∀ f ∈ c', f ∈ c ∨ ∃ id, f = .tracked id) (r : ExitReport) : Frame.exit r ∉ l ++ c' := by
  intro hr
  rcases List.mem_append.mp hr with hr | hr
  · exact hn r (List.mem_append_left _ hr)
  · rcases hc _ hr with hr | ⟨id, hr⟩
    · exact hn r (List.mem_append_right _ hr)
    · cases hr

structure Scanned (H : Host σ) (t₀ : Tracker σ) (s s' : State σ) (u u' : Tracked σ) : Prop where
  grown : Grown H t₀ true u'.tracker
  state : ∃ clock beamGone discardOutput,
    s' = { s with clock := clock, beamGone := beamGone, discardOutput := discardOutput }
  control : ∀ f ∈ u'.control, f ∈ u.control ∨ ∃ id, f = .tracked id

variable (cfg) in
lemma sampled_scanned (h : Rested H t₀ u.tracker) (hungUp : Bool) :
    Scanned H t₀ s (sampled cfg H s u hungUp).1 u (sampled cfg H s u hungUp).2 := by
  rw [sampled]
  generalize hb : (if !s.beamGone && hungUp then
    ({ s with beamGone := true, discardOutput := true }, beginCleanup cfg u s.clock)
    else (s, u)) = b
  obtain ⟨s1, u1⟩ := b
  have h1 : Rested H t₀ u1.tracker ∧ u1.control = u.control ∧
      ∃ b d, s1 = { s with beamGone := b, discardOutput := d } := by
    split at hb
    · obtain ⟨rfl, rfl⟩ := Prod.mk.inj hb
      exact ⟨h.beginCleanup .., rfl, true, true, rfl⟩
    · obtain ⟨rfl, rfl⟩ := Prod.mk.inj hb
      exact ⟨h, rfl, _, _, rfl⟩
  obtain ⟨hr, hctl, b, d, rfl⟩ := h1
  have hg := hr.scan.takeNewGroups
  dsimp only
  obtain ⟨⟨b', hs⟩, ht, hc⟩ := announce_announced { s with beamGone := b, discardOutput := d }
    { u1 with tracker := (u1.tracker.scan H).takeNewGroups.2 } (u1.tracker.scan H).takeNewGroups.1
  refine ⟨?_, ⟨s.clock, b', d, hs⟩, fun f hf => hctl ▸ hc f hf⟩
  rcases ht with ht | ht
  · rw [ht]
    exact hg
  · rw [ht]
    exact hg.fail

variable (cfg) in
lemma giveUp_scanned (clock : Instant) (h : Scanned H t₀ s s' u u') :
    Scanned H t₀ s (giveUp cfg { s' with clock := clock } u').1 u
      (giveUp cfg { s' with clock := clock } u').2 := by
  obtain ⟨hg, ⟨c, b, d, rfl⟩, hc⟩ := h
  rw [giveUp]
  split
  · exact ⟨hg.beginCleanup .., ⟨clock, b, true, rfl⟩, hc⟩
  · exact ⟨hg, ⟨clock, b, d, rfl⟩, hc⟩

lemma cleanupTick_stage {advancing : Duration} (hg : Grown H t₀ true u.tracker)
    (ho : s.outcome.isSome = true → ∃ o, Event.childExited o ∈ s.seen)
    (hn : ∀ r, Frame.exit r ∉ s.wire ++ u.control) :
    ∃ u', (cleanupTick H s u advancing).mode = .tracked u' ∧
      Stage cfg H t₀ (cleanupTick H s u advancing) u' := by
  obtain ⟨ops, hp, ht⟩ := hg
  rw [cleanupTick]
  dsimp only
  generalize hs1 : (if s.discardOutput then State.cancel { s with inputClosed := true }
    else { s with inputClosed := true }) = s1
  have h1 : s1.outcome = s.outcome ∧ s1.seen = s.seen ∧ s1.wire = s.wire := by
    rw [← hs1]
    split <;> exact ⟨rfl, rfl, rfl⟩
  obtain ⟨hout, hseen, hwire⟩ := h1
  split
  · next hdone =>
    rw [Bool.and_eq_true] at hdone
    refine ⟨_, rfl, .departed rfl ⟨⟨s1.clock, ops, rfl, hp, ?_, ?_, ?_⟩, ?_⟩ ?_⟩
    · rw [← ht]
    · rw [← ht]
      exact hdone.1
    · intro hc
      rw [← ht]
      exact (Bool.and_eq_true _ _ ▸ hc : _ ∧ _).1
    · intro hc
      rw [hseen]
      rw [hout] at hc
      exact ho (Bool.and_eq_true _ _ ▸ hc : _ ∧ _).2
    · intro r
      simp only [State.frames, Mode.control, hwire]
      exact hn r
  · refine ⟨_, rfl, .looping (.inr rfl) ⟨false, ?_, fun h => Bool.noConfusion h⟩ ?_ ?_⟩
    · exact Grown.advance ⟨ops, hp, ht⟩ s1.clock
    · show s1.outcome.isSome = true → ∃ o, Event.childExited o ∈ s1.seen
      rw [hout, hseen]
      exact ho
    · intro r
      simp only [State.frames, State.setTracked, Mode.control, hwire]
      exact hn r

lemma tick_stage {answers : TickAnswers} (hm : s.mode = .tracked u)
    (ht : Rested H t₀ u.tracker)
    (ho : s.outcome.isSome = true → ∃ o, Event.childExited o ∈ s.seen)
    (hn : ∀ r, Frame.exit r ∉ s.frames) (h : tick cfg H s u answers = some s') :
    ∃ u', s'.mode = .tracked u' ∧ Stage cfg H t₀ s' u' := by
  have hwire : ∀ r, Frame.exit r ∉ s.wire ++ u.control := by
    intro r
    have := hn r
    rwa [State.frames, hm] at this
  rw [tick] at h
  split at h
  · obtain rfl := Option.some.inj h
    exact ⟨u, hm, .looping (.inr rfl) ht ho hn⟩
  · split at h
    · cases h
    · have h1 := sampled_scanned cfg (s := s) ht answers.hungUp
      generalize sampled cfg H s u answers.hungUp = r1 at h h1
      obtain ⟨s1, u1⟩ := r1
      dsimp only at h h1
      have h2 := giveUp_scanned cfg (s1.clock + answers.scanning) h1
      generalize giveUp cfg { s1 with clock := s1.clock + answers.scanning } u1 = r2 at h h2
      obtain ⟨s2, u2⟩ := r2
      dsimp only at h h2
      obtain ⟨hg, ⟨c, b, d, rfl⟩, hc⟩ := h2
      split at h
      · obtain rfl := Option.some.inj h
        exact cleanupTick_stage hg ho (no_exit_queued hwire hc)
      · next hcl =>
        obtain rfl := Option.some.inj h
        have hnone : u2.tracker.cleanup = none := by
          simpa [Tracker.cleaning] using hcl
        refine ⟨_, rfl, .looping (.inr rfl) ⟨true, hg, fun _ c hm => ?_⟩ ho ?_⟩
        · rw [hnone] at hm
          cases hm
        · exact no_exit_queued hwire hc

lemma handleTracked_rested (hm : s.mode = .tracked u) (ht : Rested H t₀ u.tracker) (e : Event) :
    ∃ u', (handleTracked cfg s u e).mode = .tracked u' ∧ Rested H t₀ u'.tracker ∧
      u'.control = u.control ∧ (handleTracked cfg s u e).wire = s.wire ∧
      (handleTracked cfg s u e).seen = s.seen ∧
      ((handleTracked cfg s u e).outcome = s.outcome ∨ ∃ o, e = .childExited o) := by
  have hcl := ht.beginCleanup s.clock cfg.interruptGrace cfg.killGrace
  cases e with
  | stdin frame =>
    cases frame with
    | credit payload =>
      refine ⟨u, ?_, ht, rfl, ?_, ?_, .inl ?_⟩
      all_goals
        rw [handleTracked, State.grantStdout]
        split <;> first | exact hm | rfl
    | stderrCredit payload =>
      refine ⟨u, ?_, ht, rfl, ?_, ?_, .inl ?_⟩
      all_goals
        rw [handleTracked, State.grantStderr]
        split <;> first | exact hm | rfl
    | kill => exact ⟨_, rfl, hcl, rfl, rfl, rfl, .inl rfl⟩
    | other tag => exact ⟨u, hm, ht, rfl, rfl, rfl, .inl rfl⟩
  | stdinClosed | stdinError | trackingWriteFailed =>
    exact ⟨_, rfl, hcl, rfl, rfl, rfl, .inl rfl⟩
  | timedOut =>
    rw [handleTracked]
    split
    · exact ⟨_, rfl, hcl, rfl, rfl, rfl, .inl rfl⟩
    · exact ⟨u, hm, ht, rfl, rfl, rfl, .inl rfl⟩
  | childWaitFailed => exact ⟨_, rfl, ht.fail, rfl, rfl, rfl, .inl rfl⟩
  | childExited o => exact ⟨_, rfl, hcl, rfl, rfl, rfl, .inr ⟨o, rfl⟩⟩

lemma receive_stage {answers : KillAnswers} (hm : s.mode = .tracked u)
    (ht : Rested H t₀ u.tracker)
    (ho : s.outcome.isSome = true → ∃ o, Event.childExited o ∈ s.seen)
    (hn : ∀ r, Frame.exit r ∉ s.frames) (h : receive cfg s answers = some s') :
    ∃ u', s'.mode = .tracked u' ∧ Stage cfg H t₀ s' u' := by
  rw [receive] at h
  split at h
  · cases h
  · next e rest _ =>
    simp only [hm] at h
    obtain rfl := Option.some.inj h
    obtain ⟨u', hm', ht', hc, hw, hs, hout⟩ := handleTracked_rested
      (s := { s with queue := rest, seen := e :: s.seen }) hm ht e
    simp only [hm] at hm' hw hs hout
    refine ⟨u', hm', .looping (.inl rfl) ht' ?_ ?_⟩
    · dsimp only
      rw [hs]
      intro hsome
      rcases hout with hout | ⟨o, rfl⟩
      · rw [hout] at hsome
        obtain ⟨o, hmem⟩ := ho hsome
        exact ⟨o, List.mem_cons_of_mem _ hmem⟩
      · exact ⟨o, List.mem_cons_self⟩
    · intro r
      have := hn r
      simp only [State.frames, Mode.control, hm, hm', hw, hc] at this ⊢
      exact this

section Finish

variable {start : Tracker.Start} {source : σ} {shim : ProcessIdentity}

lemma Departed.run (hd : Departed H (start.tracker H source shim) s u) :
    ∃ ops, u.tracker = Tracker.run H (start.tracker H source shim) ops := by
  obtain ⟨now, ops, -, -, ht, -⟩ := hd.advanced
  exact ⟨ops ++ [.advance now], by rw [Tracker.run_append, ht]; rfl⟩

lemma Departed.finished (hd : Departed H (start.tracker H source shim) s u)
    (hf : (u.tracker.finishScan H).1 = true) :
    Tracker.Settled H.platform (.scanned false false :: marks u.tracker.log)
      (u.tracker.finishScan H).2 := by
  obtain ⟨ops, ht⟩ := hd.run
  rw [ht] at hf ⊢
  exact Tracker.finishScan_settled hf

lemma Departed.settled (hd : Departed H (start.tracker H source shim) s u)
    (hc : u.confirmed = true) (hf : (u.tracker.finishScan H).1 = true) :
    Tracker.Settled H.platform [.scanned false false, .advanced, .scanned false false]
      (u.tracker.finishScan H).2 := by
  obtain ⟨hund, hlive, hmarks⟩ := hd.finished hf
  obtain ⟨now, ops, -, hp, ht, -, hconf⟩ := hd.advanced
  have hadv := (Tracker.advance_settled hp (hconf hc)).marks
  rw [← ht] at hadv
  exact ⟨hund, hlive, ((List.prefix_cons_inj _).mpr hadv).trans hmarks⟩

lemma Departed.unforced (hd : Departed H (start.tracker H source shim) s u)
    (hf : (u.tracker.finishScan H).1 = true) (now : Instant) (hl : now ∈ s.left)
    (he : (u.tracker.finishScan H).2.expired now = false) :
    [.scanned false false, .advanced, .scanned false false, .advanced, .scanned false false] <+:
      marks (u.tracker.finishScan H).2.log := by
  obtain ⟨now', ops, hl', hp, ht, hdone, -⟩ := hd.advanced
  obtain rfl : now' = now := Option.some.inj (hl'.symm.trans hl)
  rw [Tracker.finishScan_expired, ht, Tracker.advance_expired] at he
  obtain ⟨bare, ⟨-, hq⟩, hb⟩ := Tracker.advance_twiceQuiet hp hdone he
  obtain rfl := hb rfl
  rw [← ht] at hq
  exact ((List.prefix_cons_inj _).mpr hq).trans (hd.finished hf).marks

variable (cfg) in
lemma finishCgroup_cgroup (s : State σ) (polls : List Bool)
    (hd : (finishCgroup cfg s polls).cgroupConfirmed = true) (hc : cfg.cgroup = true) :
    Act.finishCgroup true ∈ (finishCgroup cfg s polls).acts := by
  rw [finishCgroup, if_pos hc] at hd ⊢
  dsimp only at hd ⊢
  rw [hd]
  exact List.mem_cons_self

lemma finishCgroup_frame (s : State σ) (polls : List Bool) :
    (finishCgroup cfg s polls).seen = s.seen ∧ (finishCgroup cfg s polls).left = s.left ∧
      (finishCgroup cfg s polls).wire = s.wire := by
  rw [finishCgroup]
  split <;> exact ⟨rfl, rfl, rfl⟩

lemma chooseDrain_kept (s : State σ) :
    Kept s (chooseDrain cfg s) ∧ (chooseDrain cfg s).point.ended = true := by
  rw [chooseDrain]
  split
  · exact ⟨.moved s _, rfl⟩
  · split <;> exact ⟨⟨rfl, rfl, rfl, rfl, rfl, rfl, rfl, rfl, fun _ h => h⟩, rfl⟩

lemma finishTracked_evidence {answers : FinishAnswers} (hm : s.mode = .tracked u)
    (hd : Departed H (start.tracker H source shim) s u) (hn : ∀ r, Frame.exit r ∉ s.frames) :
    ∃ u', (finishTracked cfg H s u answers).mode = .tracked u' ∧
      (finishTracked cfg H s u answers).point.ended = true ∧
      Evidence cfg H (finishTracked cfg H s u answers) u' := by
  have hwire : ∀ r, Frame.exit r ∉ s.wire ++ u.control := by
    intro r
    have := hn r
    rwa [State.frames, hm] at this
  have hset := hd.settled
  have hunf := hd.unforced
  rw [finishTracked]
  generalize u.tracker.finishScan H = r at hset hunf
  obtain ⟨final, tracker⟩ := r
  dsimp only at hset hunf ⊢
  generalize hs0 : reapTracked { s with inputClosed := true, clock := s.clock + answers.took }
    (reapRoot answers.reaps) = s0
  obtain ⟨hseen, hleft, hw⟩ := finishCgroup_frame s0 answers.cgroupDrained
  have hcg := finishCgroup_cgroup cfg s0 answers.cgroupDrained
  generalize finishCgroup cfg s0 answers.cgroupDrained = s1 at hseen hleft hw hcg ⊢
  have hseen' : s1.seen = s.seen := hseen.trans (hs0 ▸ rfl)
  have hleft' : s1.left = s.left := hleft.trans (hs0 ▸ rfl)
  have hw' : s1.wire = s.wire := hw.trans (hs0 ▸ rfl)
  split
  · refine ⟨_, rfl, rfl, hset, fun hc hf => ?_, fun hc => ?_, hcg, fun r hr => ?_⟩
    · exact hleft' ▸ hunf hf
    · exact hseen' ▸ hd.exited hc
    · exact absurd (hw' ▸ hr) (hwire r)
  · generalize hu1 : announceFinal
      { u with tracker := tracker.takeNewGroups.2, finalConfirmed := final,
               reaped := reapRoot answers.reaps } tracker.takeNewGroups.1 = u1
    have ha := announceFinal_announced
      { u with tracker := tracker.takeNewGroups.2, finalConfirmed := final,
               reaped := reapRoot answers.reaps } tracker.takeNewGroups.1
    rw [hu1] at ha
    have hev : Evidence cfg H (s1.setTracked u1) u1 := by
      refine ⟨?_, ?_, ?_, hcg, fun r hr => ?_⟩
      · rw [ha.confirmed, ha.finalConfirmed, ha.tracker]
        exact fun hc hf => ⟨(hset hc hf).undisturbed, (hset hc hf).live, (hset hc hf).marks⟩
      · rw [ha.finalConfirmed, ha.tracker]
        exact fun _ hf => hleft' ▸ hunf hf
      · rw [ha.confirmed]
        exact fun hc => hseen' ▸ hd.exited hc
      · simp only [State.frames, State.setTracked, Mode.control, hw'] at hr
        exact absurd hr (no_exit_queued hwire ha.control r)
    obtain ⟨hk, hend⟩ := chooseDrain_kept (s1.setTracked u1)
    obtain ⟨u2, hm2, hc2⟩ := Mode.core_tracked hk.mode.symm
    exact ⟨u2, hm2, hend, hev.kept hk hc2.symm⟩

lemma reportStep_evidence {truncated ok : Bool} (hm : s.mode = .tracked u)
    (he : Evidence cfg H s u) (h : reportStep cfg H s truncated ok = some s') :
    ∃ u', s'.mode = .tracked u' ∧ s'.point.ended = true ∧ Evidence cfg H s' u' := by
  obtain ⟨hend, hcore, hseen, hleft, hacts, hcg, hx⟩ := reportStep_exits h
  obtain ⟨u', hm', hc⟩ : ∃ u', s'.mode = .tracked u' ∧ u'.core = u.core := by
    rw [hm] at hcore
    obtain ⟨u', hm', hc⟩ := Mode.core_tracked hcore.symm
    exact ⟨u', hm', hc.symm⟩
  obtain ⟨ht, hconf, hfinal, hreap⟩ := core_fields hc
  refine ⟨u', hm', hend, ?_, ?_, ?_, ?_, fun r hr hrc => ?_⟩
  · rw [ht, hconf, hfinal]
    exact he.settled
  · rw [ht, hconf, hfinal, hleft]
    exact he.unforced
  · rw [hconf, hseen]
    exact he.exited
  · rw [hcg, hacts]
    exact he.cgroup
  · rw [hconf, hfinal, hcg, hreap]
    rcases hx r hr with hr | rfl
    · exact he.reported r hr hrc
    · simp only [State.exitReport, hm, Bool.and_eq_true] at hrc
      obtain ⟨⟨⟨h1, h2⟩, h3⟩, h4⟩ := hrc
      refine ⟨h1, h3, h2, ?_⟩
      cases hr : u.reaped with
      | exited o => exact ⟨o, rfl⟩
      | pending | failed => simp [hr] at h4

def Tracking (cfg : Config) (H : Host σ) (t₀ : Tracker σ) (s : State σ) : Prop :=
  ∃ u, s.mode = .tracked u ∧ Stage cfg H t₀ s u

lemma Tracking.kept {t₀ : Tracker σ} (hm : s.mode = .tracked u) (h : Stage cfg H t₀ s u)
    (hk : Kept s s') (hp : s'.point = s.point) : Tracking cfg H t₀ s' := by
  have hcore := hk.mode
  rw [hm] at hcore
  obtain ⟨u', hm', hc⟩ := Mode.core_tracked hcore.symm
  exact ⟨u', hm', h.kept hk hp hc.symm⟩

lemma Tracking.keptEnded {t₀ : Tracker σ} (hm : s.mode = .tracked u) (h : Evidence cfg H s u)
    (hk : Kept s s' ∧ s'.point.ended = true) : Tracking cfg H t₀ s' := by
  obtain ⟨hk, hend⟩ := hk
  have hcore := hk.mode
  rw [hm] at hcore
  obtain ⟨u', hm', hc⟩ := Mode.core_tracked hcore.symm
  exact ⟨u', hm', .ended hend (h.kept hk hc.symm)⟩

lemma Stage.evidence {t₀ : Tracker σ} (h : Stage cfg H t₀ s u) (hp : s.point.ended = true) :
    Evidence cfg H s u := by
  cases h with
  | looping hpt => rcases hpt with hpt | hpt <;> rw [hpt] at hp <;> cases hp
  | departed hpt =>
    rw [hpt] at hp
    cases hp
  | ended _ he => exact he

lemma Tracking.step {l : Label} (h : Tracking cfg H (start.tracker H source shim) s)
    (hs : Supervisor.step cfg H s l = some s') :
    Tracking cfg H (start.tracker H source shim) s' := by
  obtain ⟨u, hm, hst⟩ := h
  by_cases hl : l.thread = true
  · obtain ⟨hk, hp⟩ := thread_kept hl hs
    exact .kept hm hst hk hp
  rw [Supervisor.step.eq_def] at hs
  split at hs
  iterate 9 exact absurd rfl hl
  · next answers hp =>
    simp only [hm] at hs
    cases hst with
    | looping _ ht ho hn => exact tick_stage hm ht ho hn hs
    | departed hpt => simp [hp] at hpt
    | ended hpt => simp [hp, Point.ended] at hpt
  · next answers hp =>
    cases hst with
    | looping _ ht ho hn => exact receive_stage hm ht ho hn hs
    | departed hpt => simp [hp] at hpt
    | ended hpt => simp [hp, Point.ended] at hpt
  · next hp =>
    simp only [timeout, hm] at hs
    split at hs
    · obtain rfl := Option.some.inj hs
      cases hst with
      | looping _ ht ho hn =>
        exact ⟨u, rfl, .looping (.inl rfl) ht ho (by simpa [State.frames, hm] using hn)⟩
      | departed hpt => simp [hp] at hpt
      | ended hpt => simp [hp, Point.ended] at hpt
    · cases hs
  · next hp =>
    simp only [disconnected, hm] at hs
    split at hs
    · obtain rfl := Option.some.inj hs
      cases hst with
      | looping _ ht ho hn =>
        refine ⟨_, rfl, .looping (.inl rfl) (ht.beginCleanup ..) ho fun r hr => ?_⟩
        have := hn r
        rw [State.frames, hm] at this
        exact this hr
      | departed hpt => simp [hp] at hpt
      | ended hpt => simp [hp, Point.ended] at hpt
    · cases hs
  · next answers hp =>
    simp only [hm] at hs
    obtain rfl := Option.some.inj hs
    cases hst with
    | looping hpt => simp [hp] at hpt
    | departed _ hd hn =>
      obtain ⟨u', hm', hend, he⟩ := finishTracked_evidence hm hd hn
      exact ⟨u', hm', .ended hend he⟩
    | ended hpt => simp [hp, Point.ended] at hpt
  · next hp => exact .keptEnded hm (hst.evidence (by rw [hp]; rfl)) (strictStep_kept hp hs)
  · next hp => exact .keptEnded hm (hst.evidence (by rw [hp]; rfl)) (drainStep_kept hs)
  · next hp =>
    obtain ⟨u', hm', hend, he⟩ := reportStep_evidence hm (hst.evidence (by rw [hp]; rfl)) hs
    exact ⟨u', hm', .ended hend he⟩
  · next hp => exact .keptEnded hm (hst.evidence (by rw [hp]; rfl)) (collectStep_kept hs)
  · cases hs

end Finish

def tracked (H : Host σ) (source : σ) (shim : ProcessIdentity) (begin : Tracker.Start) :
    Tracker σ :=
  (begin.tracker H source shim).takeNewGroups.2

lemma start_tracking {source : σ} {shim : ProcessIdentity} {begin : Tracker.Start}
    (clock : Instant) (stdout : Pump) (stderr : Option Pump) :
    Tracking cfg H (begin.tracker H source shim)
      (start clock stdout stderr (some (tracked H source shim begin))) := by
  refine ⟨_, rfl, .looping (.inl rfl) ⟨false, ?_, fun h => Bool.noConfusion h⟩
    (fun h => Bool.noConfusion h) ?_⟩
  · exact Grown.takeNewGroups ⟨[], .nil, rfl⟩
  · simp [State.frames, start, Mode.control]

lemma run_tracking {source : σ} {shim : ProcessIdentity} {begin : Tracker.Start} {clock : Instant}
    {stdout : Pump} {stderr : Option Pump} {labels : List Label} {s : State σ}
    (h : Run (fun s l s' => step cfg H s l = some s')
      (start clock stdout stderr (some (tracked H source shim begin))) labels s) :
    Tracking cfg H (begin.tracker H source shim) s :=
  h.invariant (fun _ _ _ hs hst => hs.step hst) (start_tracking clock stdout stderr)

/-- What an EXIT with `confirmed` implies about the run that wrote it. -/
structure ConfirmedRun (cfg : Config) (H : Host σ) (s : State σ) (t : Tracked σ) : Prop where
  settled : Tracker.Settled H.platform [.scanned false false, .advanced, .scanned false false]
    t.tracker
  unforced : ∀ now ∈ s.left, t.tracker.expired now = false →
    [.scanned false false, .advanced, .scanned false false, .advanced, .scanned false false] <+:
      marks t.tracker.log
  exited : ∃ o, Event.childExited o ∈ s.seen
  reaped : ∃ o, t.reaped = .exited o
  cgroup : cfg.cgroup = true → Act.finishCgroup true ∈ s.acts

lemma Tracking.confirmed {t₀ : Tracker σ} {s : State σ} {r : ExitReport}
    (h : Tracking cfg H t₀ s) (hr : Frame.exit r ∈ s.wire) (hc : r.confirmed = true) :
    ∃ t, s.mode = .tracked t ∧ ConfirmedRun cfg H s t := by
  obtain ⟨u, hm, hst⟩ := h
  have hx : Frame.exit r ∈ s.frames := List.mem_append_left _ hr
  cases hst with
  | looping _ _ _ hn | departed _ _ hn => exact absurd hx (hn r)
  | ended _ he =>
    obtain ⟨hconf, hfinal, hcg, hreap⟩ := he.reported r hx hc
    exact ⟨u, hm, he.settled hconf hfinal, he.unforced hconf hfinal, he.exited hconf, hreap,
      he.cgroup hcg⟩

/-- Confirmation is sound: of an advance, of the final scan, and of an EXIT. -/
theorem confirmation_sound (H : Host σ) (source : σ) (shim : ProcessIdentity)
    (begin : Tracker.Start) :
    (∀ ops now, Tracker.Paced H (begin.tracker H source shim) false ops true →
      ∀ r, r = (Tracker.run H (begin.tracker H source shim) ops).advance H now →
        (r.1.confirmed = true →
          Tracker.Settled H.platform [.advanced, .scanned false false] r.2) ∧
        (r.1.done = true → r.2.expired now = false →
          ∃ bare, Tracker.TwiceQuiet bare r.2.log)) ∧
    (∀ ops r, r = (Tracker.run H (begin.tracker H source shim) ops).finishScan H →
      r.1 = true → Tracker.Settled H.platform [.scanned false false] r.2) ∧
    ∀ cfg clock stdout stderr labels s,
      Run (fun s l s' => step cfg H s l = some s')
        (start clock stdout stderr (some (tracked H source shim begin))) labels s →
      ∀ r, Frame.exit r ∈ s.wire → r.confirmed = true →
        ∃ t, s.mode = .tracked t ∧ ConfirmedRun cfg H s t := by
  refine ⟨fun ops now hp r hr => ⟨fun hc => ?_, fun hd he => ?_⟩, fun ops r hr hc => ?_,
    fun cfg clock stdout stderr labels s h r hr hc => (run_tracking h).confirmed hr hc⟩
  · subst hr
    exact Tracker.advance_settled hp hc
  · subst hr
    rw [Tracker.advance_expired] at he
    obtain ⟨bare, hq, -⟩ := Tracker.advance_twiceQuiet hp hd he
    exact ⟨bare, hq⟩
  · subst hr
    have h := Tracker.finishScan_settled hc
    exact ⟨h.undisturbed, h.live, List.IsPrefix.trans ⟨_, rfl⟩ h.marks⟩

section QuietMachine

def leader (pid : ℕ) : ProcessIdentity :=
  ⟨pid, pid, .linux "boot" 1⟩

def quietMachine (fault : ℕ) : Host ℕ where
  platform := .linux
  read pid n :=
    (if n = fault then .error (.os (.other 5 .other))
      else .ok
        (if pid = 1 then some ⟨leader 1, 0, false⟩
          else if pid = 2 then some ⟨leader 2, 1, true⟩ else none), n + 1)
  children pid n := (.ok (if pid = 1 then [2] else []), n)
  groupMembers _ n := (.ok [], n)
  signal _ _ n := (.ok (), n)
  reap _ n := (.ok (), n)
  now reference n := (reference, n)
  order l n := (l, n)
  order_perm l _ := .refl l

/-- An incomplete scan without an advance leaves the count of empty scans alone. -/
theorem done_without_consecutive_scans :
    ¬ ∀ (H : Host ℕ) (source : ℕ) (shim : ProcessIdentity) (begin : Tracker.Start)
      (ops : List Tracker.Op) (now : Instant),
      Tracker.Paced H (begin.tracker H source shim) false ops true →
      ∀ r, r = (Tracker.run H (begin.tracker H source shim) ops).advance H now →
        r.1.done = true → r.2.expired now = false →
        [(false, false), (false, false)] <:+: scans r.2.log := by
  intro h
  have hpaced : Tracker.Paced (quietMachine 5)
      ((Tracker.Start.withSource (leader 2)).tracker (quietMachine 5) 0 (leader 1)) false
      ([] ++ [.beginCleanup 0 none 0] ++ [.scan] ++ [.advance 0] ++ [.scan] ++ [.scan]) true :=
    ((((Tracker.Paced.nil.beginCleanup 0 none 0).scan Bool.noConfusion).advance 0).scan
      Bool.noConfusion).scan Bool.noConfusion
  have := h _ _ _ _ _ 0 hpaced _ rfl (by decide +kernel) (by decide +kernel)
  exact absurd this (by decide +kernel)

def quietConfig : Config where
  killGrace := 0
  interruptGrace := none
  cgroup := true
  strictOutput := false

def quietLabels : List Label :=
  [.tick ⟨false, 0, 0⟩, .childExits (some ⟨some 0, none⟩), .receive ⟨[], [], []⟩,
    .tick ⟨false, 0, 0⟩, .elapse sampleInterval, .timeout, .tick ⟨false, 0, 0⟩,
    .finish ⟨0, [.exited ⟨some 0, none⟩], [true]⟩, .pump .stdout .permit,
    .pump .stdout (.read .eof), .pump .stdout .done, .drain, .drain, .report true, .deliver true,
    .collect]

def quietRun : Option (State ℕ) :=
  exec (step quietConfig (quietMachine 1000))
    (start 0 (.new .stdout false) none
      (some (tracked (quietMachine 1000) 0 (leader 1) (.withSource (leader 2))))) quietLabels

def quietReport : ExitReport where
  status := some 0
  signal := none
  timedOut := false
  confirmed := true
  contained := true
  outputTruncated := false
  scope := some .treeContained
  trackedGroupsTruncated := some false

theorem confirmation_sound_quiet :
    ∃ s, quietRun = some s ∧ Frame.exit quietReport ∈ s.wire ∧
      ∃ t, s.mode = .tracked t ∧ ConfirmedRun quietConfig (quietMachine 1000) s t := by
  have hexit : quietRun.any (fun s => decide (Frame.exit quietReport ∈ s.wire)) = true := by
    decide +kernel
  obtain ⟨s, hs, hr⟩ := Option.any_eq_true .. |>.mp hexit
  have hr := of_decide_eq_true hr
  exact ⟨s, hs, hr, (confirmation_sound (quietMachine 1000) 0 (leader 1)
    (.withSource (leader 2))).2.2 quietConfig 0 (.new .stdout false) none quietLabels s
    (exec_run hs) _ hr rfl⟩

end QuietMachine

end Forcola.Native.Supervisor
