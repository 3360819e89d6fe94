import Forcola.Native.OutputOrder

/-! What `timed_out` in an EXIT report says about the events a supervision loop consumed. -/

namespace Forcola.Native.Supervisor

open Library Transition

def timeoutFirst : List Event → Bool
  | [] => false
  | .timedOut :: _ => true
  | .childExited _ :: _ => false
  | _ :: rest => timeoutFirst rest

/-- The events up to the child's exit, which the untracked loop stops at. -/
def upToExit : List Event → List Event
  | [] => []
  | .childExited outcome :: _ => [.childExited outcome]
  | e :: rest => e :: upToExit rest

def Event.isExit : Event → Bool
  | .childExited _ => true
  | _ => false

lemma timeoutFirst_iff {events : List Event} : timeoutFirst events = true ↔
    ∃ before after, events = before ++ .timedOut :: after ∧ ∀ e ∈ before, e.isExit = false := by
  induction events with
  | nil =>
    refine iff_of_false (by simp [timeoutFirst]) ?_
    rintro ⟨before, after, h, -⟩
    cases before <;> cases h
  | cons e rest ih =>
    have skip : e ≠ .timedOut → e.isExit = false → (timeoutFirst rest = true ↔
        ∃ before after, e :: rest = before ++ .timedOut :: after ∧
          ∀ e ∈ before, e.isExit = false) := by
      intro hne hexit
      rw [ih]
      constructor
      · rintro ⟨before, after, rfl, hall⟩
        refine ⟨e :: before, after, rfl, fun x hx => ?_⟩
        rcases List.mem_cons.mp hx with rfl | hx
        · exact hexit
        · exact hall x hx
      · rintro ⟨before, after, h, hall⟩
        cases before with
        | nil => exact absurd (List.cons.inj h).1 hne
        | cons x before =>
          obtain ⟨-, h⟩ := List.cons.inj h
          exact ⟨before, after, h, fun y hy => hall y (List.mem_cons_of_mem _ hy)⟩
    cases e with
    | timedOut => exact iff_of_true rfl ⟨[], rest, rfl, by simp⟩
    | childExited outcome =>
      refine iff_of_false (by simp [timeoutFirst]) ?_
      rintro ⟨before, after, h, hall⟩
      cases before with
      | nil => cases (List.cons.inj h).1
      | cons x before =>
        have hx := hall x List.mem_cons_self
        rw [← (List.cons.inj h).1] at hx
        cases hx
    | stdin frame => exact skip (by simp) rfl
    | stdinClosed => exact skip (by simp) rfl
    | stdinError => exact skip (by simp) rfl
    | childWaitFailed => exact skip (by simp) rfl
    | trackingWriteFailed => exact skip (by simp) rfl

lemma timeoutFirst_upToExit (events : List Event) :
    timeoutFirst (upToExit events) = timeoutFirst events := by
  induction events with
  | nil => rfl
  | cons e rest ih =>
    cases e with
    | timedOut => rfl
    | childExited outcome => rfl
    | stdin frame => exact ih
    | stdinClosed => exact ih
    | stdinError => exact ih
    | childWaitFailed => exact ih
    | trackingWriteFailed => exact ih

lemma timeoutFirst_snoc (events : List Event) (e : Event) :
    timeoutFirst (events ++ [e]) =
      (timeoutFirst events || (!events.any Event.isExit && e == .timedOut)) := by
  induction events with
  | nil => cases e <;> rfl
  | cons x rest ih =>
    cases x with
    | timedOut => rfl
    | childExited outcome => rfl
    | stdin frame => exact ih
    | stdinClosed => exact ih
    | stdinError => exact ih
    | childWaitFailed => exact ih
    | trackingWriteFailed => exact ih

variable {σ : Type} {cfg : Config} {H : Host σ} {s s' : State σ} {u : Tracked σ}

structure Unflagged (s s' : State σ) : Prop where
  timedOut : s'.timedOut = s.timedOut
  seen : s'.seen = s.seen

namespace Unflagged

lemma refl (s : State σ) : Unflagged s s := ⟨rfl, rfl⟩

lemma trans {s'' : State σ} (h : Unflagged s s') (k : Unflagged s' s'') : Unflagged s s'' :=
  ⟨k.timedOut.trans h.timedOut, k.seen.trans h.seen⟩

end Unflagged

lemma grantStdout_unflagged (s : State σ) (payload : Bytes) :
    Unflagged s (s.grantStdout payload) := by
  rw [State.grantStdout]
  split <;> exact ⟨rfl, rfl⟩

lemma grantStderr_unflagged (s : State σ) (payload : Bytes) :
    Unflagged s (s.grantStderr payload) := by
  rw [State.grantStderr]
  split <;> exact ⟨rfl, rfl⟩

lemma thread_unflagged {l : Label} (hl : l.thread = true) (h : step cfg H s l = some s') :
    Unflagged s s' := by
  refine ⟨?_, (thread_kept hl h).1.seen⟩
  cases l with
  | send | timer | hangUp | elapse =>
    obtain rfl := Option.some.inj h
    rfl
  | closed | readFailed =>
    simp only [step] at h
    split at h
    · cases h
    · obtain rfl := Option.some.inj h
      rfl
  | childExits outcome =>
    simp only [step, childExits] at h
    split at h
    · split at h
      all_goals
        obtain rfl := Option.some.inj h
        rfl
    · cases h
  | pump pipe action =>
    obtain ⟨p, p', -, -, -, -, s₁, rfl, rfl⟩ := pumpStep_pumped h
    rw [pumpOut.eq_def]
    cases pipe <;> split <;> rfl
  | deliver ok =>
    simp only [step, deliver] at h
    split at h
    · cases h
    · split at h
      · split at h
        · obtain rfl := Option.some.inj h
          rfl
        · split at h
          · cases h
          · obtain rfl := Option.some.inj h
            rfl
      · cases h
  | _ => cases hl

lemma cleanupTick_unflagged (advancing : Duration) : Unflagged s (cleanupTick H s u advancing) ∧
    (cleanupTick H s u advancing).outcome = s.outcome := by
  rw [cleanupTick]
  dsimp only
  generalize hs : (if s.discardOutput then State.cancel { s with inputClosed := true }
    else { s with inputClosed := true }) = r
  have hr : Unflagged s r ∧ r.outcome = s.outcome := by
    rw [← hs]
    split <;> exact ⟨⟨rfl, rfl⟩, rfl⟩
  split
  · exact ⟨⟨hr.1.timedOut, hr.1.seen⟩, hr.2⟩
  · exact ⟨⟨hr.1.timedOut, hr.1.seen⟩, hr.2⟩

lemma tick_unflagged {answers : TickAnswers} (h : tick cfg H s u answers = some s') :
    Unflagged s s' ∧ s'.outcome = s.outcome := by
  have hsampled : ∃ c b d, (sampled cfg H s u answers.hungUp).1 =
      { s with clock := c, beamGone := b, discardOutput := d } := by
    rw [sampled]
    generalize hb : (if !s.beamGone && answers.hungUp then
      ({ s with beamGone := true, discardOutput := true }, beginCleanup cfg u s.clock)
      else (s, u)) = b
    obtain ⟨s1, u1⟩ := b
    obtain ⟨⟨b', hs⟩, -, -⟩ := announce_announced s1
      { u1 with tracker := (u1.tracker.scan H).takeNewGroups.2 } (u1.tracker.scan H).takeNewGroups.1
    dsimp only
    rw [hs]
    split at hb
    · obtain ⟨rfl, rfl⟩ := Prod.mk.inj hb
      exact ⟨s.clock, b', true, rfl⟩
    · obtain ⟨rfl, rfl⟩ := Prod.mk.inj hb
      exact ⟨s.clock, b', s.discardOutput, rfl⟩
  rw [tick] at h
  split at h
  · obtain rfl := Option.some.inj h
    exact ⟨⟨rfl, rfl⟩, rfl⟩
  · split at h
    · cases h
    · obtain ⟨c, b, d, hs⟩ := hsampled
      generalize sampled cfg H s u answers.hungUp = r1 at h hs
      obtain ⟨s1, u1⟩ := r1
      obtain rfl : s1 = _ := hs
      dsimp only at h
      generalize hg : giveUp cfg _ u1 = r2 at h
      obtain ⟨s2, u2⟩ := r2
      have hs2 : Unflagged s s2 ∧ s2.outcome = s.outcome := by
        rw [giveUp] at hg
        split at hg
        · obtain ⟨rfl, rfl⟩ := Prod.mk.inj hg
          exact ⟨⟨rfl, rfl⟩, rfl⟩
        · obtain ⟨rfl, rfl⟩ := Prod.mk.inj hg
          exact ⟨⟨rfl, rfl⟩, rfl⟩
      dsimp only at h
      split at h
      · obtain rfl := Option.some.inj h
        have hc := @cleanupTick_unflagged _ H s2 u2 answers.advancing
        exact ⟨hs2.1.trans hc.1, hc.2.trans hs2.2⟩
      · obtain rfl := Option.some.inj h
        exact ⟨⟨hs2.1.timedOut, hs2.1.seen⟩, hs2.2⟩

lemma finishCgroup_unflagged (s : State σ) (polls : List Bool) :
    Unflagged s (finishCgroup cfg s polls) := by
  rw [finishCgroup]
  split <;> exact ⟨rfl, rfl⟩

lemma finishTracked_unflagged (s : State σ) (u : Tracked σ) (answers : FinishAnswers) :
    Unflagged s (finishTracked cfg H s u answers) ∧
      (finishTracked cfg H s u answers).point.ended = true := by
  rw [finishTracked]
  dsimp only
  generalize hf : finishCgroup cfg _ answers.cgroupDrained = r
  have hr : Unflagged s r := by
    rw [← hf]
    refine Unflagged.trans ?_ (finishCgroup_unflagged _ _)
    exact ⟨rfl, rfl⟩
  split
  · exact ⟨⟨hr.timedOut, hr.seen⟩, rfl⟩
  · rw [chooseDrain]
    split
    · exact ⟨⟨hr.timedOut, hr.seen⟩, rfl⟩
    · split <;> exact ⟨⟨hr.timedOut, hr.seen⟩, rfl⟩

lemma finishUntracked_unflagged (s : State σ) (answers : FinishAnswers) :
    Unflagged s (finishUntracked cfg s answers) ∧
      (finishUntracked cfg s answers).point.ended = true := by
  rw [finishUntracked]
  dsimp only
  generalize hf : finishCgroup cfg _ answers.cgroupDrained = r
  have hr : Unflagged s r := by
    rw [← hf]
    refine Unflagged.trans ?_ (finishCgroup_unflagged _ _)
    cases cfg.strictOutput <;> exact ⟨rfl, rfl⟩
  split
  · exact ⟨⟨hr.timedOut, hr.seen⟩, rfl⟩
  · split
    · split <;> exact ⟨⟨hr.timedOut, hr.seen⟩, rfl⟩
    · exact ⟨⟨hr.timedOut, hr.seen⟩, rfl⟩

lemma strictStep_unflagged {completed : ℕ} {point : StrictPoint} {hungUp : Bool}
    (h : strictStep s completed point hungUp = some s') : s'.timedOut = s.timedOut := by
  rw [strictStep.eq_def] at h
  split at h
  · split at h
    · split at h
      · split at h
        · cases h
        · obtain rfl := Option.some.inj h
          rfl
      · obtain rfl := Option.some.inj h
        rfl
    · obtain rfl := Option.some.inj h
      rfl
  · split at h
    · obtain rfl := Option.some.inj h
      rfl
    · next e rest _ =>
      obtain rfl := Option.some.inj h
      rw [strictEvent.eq_def]
      split
      · exact (grantStdout_unflagged _ _).timedOut
      · exact (grantStderr_unflagged _ _).timedOut
      all_goals rfl
  · split at h
    · obtain rfl := Option.some.inj h
      rfl
    · split at h
      all_goals
        obtain rfl := Option.some.inj h
        rfl

lemma drainStep_unflagged {remaining : ℕ} {deadline : ℕ} {cut : Bool}
    (h : drainStep s remaining deadline cut = some s') : s'.timedOut = s.timedOut := by
  rw [drainStep.eq_def] at h
  split at h
  · obtain rfl := Option.some.inj h
    rfl
  · split at h
    · obtain rfl := Option.some.inj h
      rfl
    · split at h
      · obtain rfl := Option.some.inj h
        rfl
      · split at h
        · obtain rfl := Option.some.inj h
          rfl
        · cases h

lemma reportStep_unflagged {truncated ok : Bool} (h : reportStep cfg H s truncated ok = some s') :
    s'.timedOut = s.timedOut := by
  rw [reportStep] at h
  dsimp only at h
  split at h
  · split at h
    · obtain rfl := Option.some.inj h
      rfl
    · split at h
      · cases h
      · obtain rfl := Option.some.inj h
        rfl
  · split at h
    · obtain rfl := Option.some.inj h
      rfl
    · split at h
      · obtain rfl := Option.some.inj h
        rfl
      · cases h

lemma collectStep_unflagged (h : collectStep s = some s') : s'.timedOut = s.timedOut := by
  rw [collectStep] at h
  split at h
  · cases h
  · split at h
    · obtain rfl := Option.some.inj h
      rfl
    · split at h
      · obtain rfl := Option.some.inj h
        rfl
      · cases h

structure Flagged (s : State σ) : Prop where
  flag : s.timedOut = timeoutFirst s.seen.reverse
  outcome : s.point = .top ∨ s.point = .recv → s.outcome.isSome = s.seen.any Event.isExit
  untracked : s.point = .top ∨ s.point = .recv → s.mode.isTracked = false → s.outcome = none
  silent : s.point.ended = false → ∀ r, Frame.exit r ∉ s.frames
  reports : ∀ r, Frame.exit r ∈ s.frames → r.timedOut = s.timedOut

namespace Flagged

lemma start (clock : Instant) (stdout : Pump) (stderr : Option Pump)
    (tracker : Option (Tracker σ)) : Flagged (start clock stdout stderr tracker) := by
  have hn : ∀ r, Frame.exit r ∉ (Supervisor.start clock stdout stderr tracker).frames := by
    intro r
    cases tracker <;> simp [Supervisor.start, State.frames, Mode.control]
  exact ⟨rfl, fun _ => rfl, fun _ _ => rfl, fun _ => hn, fun r hr => absurd hr (hn r)⟩

lemma quiet (h : Flagged s) (hu : Unflagged s s')
    (ho : s'.point = .top ∨ s'.point = .recv → (s.point = .top ∨ s.point = .recv) ∧
      s'.outcome = s.outcome ∧ s'.mode.isTracked = s.mode.isTracked)
    (hend : s'.point.ended = false → s.point.ended = false)
    (hx : ∀ r, Frame.exit r ∈ s'.frames → Frame.exit r ∈ s.frames) : Flagged s' where
  flag := by rw [hu.timedOut, hu.seen, h.flag]
  outcome hp := by
    obtain ⟨hp, ho, -⟩ := ho hp
    rw [ho, hu.seen, h.outcome hp]
  untracked hp hmode := by
    obtain ⟨hp, ho, hm⟩ := ho hp
    rw [ho]
    exact h.untracked hp (hm ▸ hmode)
  silent hp r hr := h.silent (hend hp) r (hx r hr)
  reports r hr := (h.reports r (hx r hr)).trans hu.timedOut.symm

lemma ended (h : Flagged s) (hu : Unflagged s s') (hend : s'.point.ended = true)
    (hx : ∀ r, Frame.exit r ∈ s'.frames → Frame.exit r ∈ s.frames ∨ r.timedOut = s'.timedOut) :
    Flagged s' where
  flag := by rw [hu.timedOut, hu.seen, h.flag]
  outcome hp := by rcases hp with hp | hp <;> rw [hp] at hend <;> cases hend
  untracked hp := by rcases hp with hp | hp <;> rw [hp] at hend <;> cases hend
  silent hp := by
    rw [hend] at hp
    cases hp
  reports r hr := by
    rcases hx r hr with hr | hr
    · exact (h.reports r hr).trans hu.timedOut.symm
    · exact hr

lemma handleTracked_flag (s : State σ) (u : Tracked σ) (e : Event) :
    (handleTracked cfg s u e).timedOut = (s.timedOut || (s.outcome.isNone && e == .timedOut)) ∧
      (handleTracked cfg s u e).outcome.isSome = (s.outcome.isSome || e.isExit) ∧
      (handleTracked cfg s u e).seen = s.seen := by
  have same : ∀ {t : State σ}, e.isExit = false → e ≠ .timedOut → Unflagged s t →
      t.outcome = s.outcome → t.timedOut = (s.timedOut || (s.outcome.isNone && e == .timedOut)) ∧
        t.outcome.isSome = (s.outcome.isSome || e.isExit) ∧ t.seen = s.seen := by
    intro t hexit hne hu ho
    rw [hu.timedOut, hu.seen, ho, hexit, beq_false_of_ne hne]
    simp
  cases e with
  | stdin frame =>
    cases frame with
    | credit payload =>
      exact same rfl (by simp) (grantStdout_unflagged s payload) (grantStdout_kept s payload).outcome
    | stderrCredit payload =>
      exact same rfl (by simp) (grantStderr_unflagged s payload) (grantStderr_kept s payload).outcome
    | kill => exact same rfl (by simp) ⟨rfl, rfl⟩ rfl
    | other tag => exact same rfl (by simp) (.refl s) rfl
  | stdinClosed => exact same rfl (by simp) ⟨rfl, rfl⟩ rfl
  | stdinError => exact same rfl (by simp) ⟨rfl, rfl⟩ rfl
  | trackingWriteFailed => exact same rfl (by simp) ⟨rfl, rfl⟩ rfl
  | childWaitFailed => exact same rfl (by simp) ⟨rfl, rfl⟩ rfl
  | timedOut =>
    rw [handleTracked]
    cases ho : s.outcome with
    | none => simp [cleanNow, State.setTracked, Event.isExit]
    | some outcome => simp [ho, Event.isExit]
  | childExited outcome => simp [handleTracked, cleanNow, State.setTracked, Event.isExit]

lemma stopGroup_unflagged (s : State σ) (v : Untracked) (answers : KillAnswers) :
    Unflagged s (stopGroup cfg s v answers) ∧ (stopGroup cfg s v answers).outcome = s.outcome := by
  rw [stopGroup]
  split <;> exact ⟨⟨rfl, rfl⟩, rfl⟩

lemma handleUntracked_flag (s : State σ) (v : Untracked) (answers : KillAnswers) (e : Event) :
    (handleUntracked cfg s v answers e).timedOut = (s.timedOut || e == .timedOut) ∧
      (handleUntracked cfg s v answers e).seen = s.seen ∧
      (e.isExit = false → (handleUntracked cfg s v answers e).outcome = s.outcome) ∧
      (e.isExit = true → (handleUntracked cfg s v answers e).point = .finish) := by
  have stops : ∀ d b, ∀ t : State σ, t = stopGroup cfg { s with discardOutput := d, beamGone := b }
      v answers → t.timedOut = s.timedOut ∧ t.seen = s.seen ∧ t.outcome = s.outcome := by
    rintro d b t rfl
    obtain ⟨hu, ho⟩ := @stopGroup_unflagged σ cfg { s with discardOutput := d, beamGone := b } v answers
    exact ⟨hu.timedOut, hu.seen, ho⟩
  have same : ∀ {t : State σ}, e.isExit = false → e ≠ .timedOut →
      t.timedOut = s.timedOut ∧ t.seen = s.seen ∧ t.outcome = s.outcome →
      t.timedOut = (s.timedOut || e == .timedOut) ∧ t.seen = s.seen ∧
        (e.isExit = false → t.outcome = s.outcome) ∧ (e.isExit = true → t.point = .finish) := by
    rintro t hexit hne ⟨ht, hs, ho⟩
    refine ⟨by rw [ht, beq_false_of_ne hne, Bool.or_false], hs, fun _ => ho, fun h => ?_⟩
    rw [hexit] at h
    cases h
  cases e with
  | stdin frame =>
    cases frame with
    | credit payload =>
      have hu := grantStdout_unflagged s payload
      exact same rfl (by simp) ⟨hu.timedOut, hu.seen, (grantStdout_kept s payload).outcome⟩
    | stderrCredit payload =>
      have hu := grantStderr_unflagged s payload
      exact same rfl (by simp) ⟨hu.timedOut, hu.seen, (grantStderr_kept s payload).outcome⟩
    | kill => exact same rfl (by simp) (stops true s.beamGone _ rfl)
    | other tag => exact same rfl (by simp) ⟨rfl, rfl, rfl⟩
  | stdinClosed => exact same rfl (by simp) (stops true true _ rfl)
  | stdinError => exact same rfl (by simp) (stops true true _ rfl)
  | trackingWriteFailed => exact same rfl (by simp) ⟨rfl, rfl, rfl⟩
  | childWaitFailed => exact same rfl (by simp) ⟨rfl, rfl, rfl⟩
  | timedOut =>
    obtain ⟨hu, ho⟩ :=
      @stopGroup_unflagged σ cfg { s with discardOutput := true, timedOut := true } v answers
    exact ⟨hu.timedOut.trans (by simp), hu.seen, fun _ => ho, fun h => by cases h⟩
  | childExited outcome =>
    obtain ⟨hu, -⟩ := @stopGroup_unflagged σ cfg s v answers
    refine ⟨hu.timedOut.trans (by simp), hu.seen, fun h => ?_, fun _ => rfl⟩
    cases h

lemma receive (h : Flagged s) (hp : s.point = .recv) {answers : KillAnswers}
    (hs : receive cfg s answers = some s') : Flagged s' := by
  obtain ⟨hl, hend⟩ := receive_looped hp hs
  have hn := hl.still.no_exit (h.silent (by rw [hp]; rfl))
  have hout := h.outcome (.inr hp)
  rw [Supervisor.receive] at hs
  split at hs
  · cases hs
  · next e rest _ =>
    have hflag : timeoutFirst (e :: s.seen).reverse =
        (s.timedOut || (!s.seen.any Event.isExit && e == .timedOut)) := by
      rw [List.reverse_cons, timeoutFirst_snoc, List.any_reverse, h.flag]
    have hnone : s.outcome.isNone = !s.seen.any Event.isExit := by
      rw [← hout]
      cases s.outcome <;> rfl
    dsimp only at hs
    split at hs
    · next v hm =>
      obtain rfl := Option.some.inj hs
      obtain ⟨ht, hseen, ho, hfin⟩ := @handleUntracked_flag σ cfg
        { s with queue := rest, seen := e :: s.seen } v answers e
      have hnever : s.seen.any Event.isExit = false := by
        rw [← hout, h.untracked (.inr hp) (by rw [hm]; rfl)]
        rfl
      rw [hnever, Bool.not_false, Bool.true_and] at hflag
      refine ⟨?_, fun hpt => ?_, fun hpt _ => ?_, fun _ => hn, fun r hr => absurd hr (hn r)⟩
      · dsimp only at ht hseen ⊢
        rw [ht, hseen, hflag]
      all_goals
        have hexit : e.isExit = false := by
          by_contra hexit
          have hfin := hfin (by simpa using hexit)
          rcases hpt with hpt | hpt <;> cases hpt.symm.trans hfin
        have hnone := h.untracked (.inr hp) (by rw [hm]; rfl)
        dsimp only at ho hseen ⊢
      · rw [ho hexit, hseen, hnone, List.any_cons, hexit, hnever]
        rfl
      · rw [ho hexit, hnone]
    · next t hm =>
      obtain rfl := Option.some.inj hs
      obtain ⟨ht, ho, hseen⟩ := @handleTracked_flag σ cfg
        { s with queue := rest, seen := e :: s.seen } t e
      refine ⟨?_, fun _ => ?_, fun _ hmode => ?_, fun _ => hn, fun r hr => absurd hr (hn r)⟩
      · dsimp only at ht hseen ⊢
        rw [ht, hseen, hflag, hnone]
      · dsimp only at ho hseen ⊢
        rw [ho, hseen, hout, List.any_cons, Bool.or_comm]
      · rw [hl.tracked, hm] at hmode
        cases hmode

lemma loop (h : Flagged s) {l : Label} (hl : l.looping = true) (hs : step cfg H s l = some s') :
    Flagged s' := by
  obtain ⟨hlooped, hp, hp'⟩ := loop_looped hl hs
  have hn := hlooped.still.no_exit (h.silent hp)
  have quiet : Unflagged s s' → (s.point = .top ∨ s.point = .recv) → s'.outcome = s.outcome →
      Flagged s' := fun hu hpt ho =>
    h.quiet hu (fun _ => ⟨hpt, ho, hlooped.tracked⟩) (fun _ => hp) fun r hr => absurd hr (hn r)
  rw [step.eq_def] at hs
  split at hs
  iterate 9 cases hl
  · next hpt =>
    split at hs
    · cases hs
    · obtain ⟨hu, ho⟩ := tick_unflagged hs
      exact quiet hu (.inl hpt) ho
  · next hpt => exact h.receive hpt hs
  · next hpt =>
    rw [timeout] at hs
    split at hs
    · cases hs
    · split at hs
      · obtain rfl := Option.some.inj hs
        exact quiet ⟨rfl, rfl⟩ (.inr hpt) rfl
      · cases hs
  · next hpt =>
    rw [disconnected] at hs
    split at hs
    · cases hs
    · split at hs
      · obtain rfl := Option.some.inj hs
        exact quiet ⟨rfl, rfl⟩ (.inr hpt) rfl
      · cases hs
  iterate 5 cases hl
  · cases hs

lemma step (h : Flagged s) (ho : Ordered s) {l : Label} (hs : step cfg H s l = some s') :
    Flagged s' := by
  by_cases hl : l.thread = true
  · obtain ⟨hk, hp⟩ := thread_kept hl hs
    refine h.quiet (thread_unflagged hl hs) (fun hpt => ?_) (fun hpt => ?_) hk.exits
    · exact ⟨hp ▸ hpt, hk.outcome, hk.tracked⟩
    · exact hp ▸ hpt
  by_cases hloop : l.looping = true
  · exact h.loop hloop hs
  rw [Supervisor.step.eq_def] at hs
  split at hs
  iterate 9 exact absurd rfl hl
  iterate 4 exact absurd rfl hloop
  · next answers hp =>
    have hfinish : Supervisor.step cfg H s (.finish answers) = some s' := by
      rw [Supervisor.step.eq_def, hp]
      exact hs
    have hn := (finish_due hp ho.due hfinish).1.no_exit (h.silent (by rw [hp]; rfl))
    split at hs
    · obtain rfl := Option.some.inj hs
      obtain ⟨hu, hend⟩ := @finishUntracked_unflagged σ cfg s answers
      exact h.ended hu hend fun r hr => absurd hr (hn r)
    · next u _ =>
      obtain rfl := Option.some.inj hs
      obtain ⟨hu, hend⟩ := @finishTracked_unflagged σ cfg H s u answers
      exact h.ended hu hend fun r hr => absurd hr (hn r)
  · next hp =>
    obtain ⟨hk, hend⟩ := strictStep_kept hp hs
    exact h.ended ⟨strictStep_unflagged hs, hk.seen⟩ hend fun r hr => .inl (hk.exits r hr)
  · obtain ⟨hk, hend⟩ := drainStep_kept hs
    exact h.ended ⟨drainStep_unflagged hs, hk.seen⟩ hend fun r hr => .inl (hk.exits r hr)
  · obtain ⟨hend, -, hseen, -, -, -, hx⟩ := reportStep_exits hs
    have ht := reportStep_unflagged hs
    refine h.ended ⟨ht, hseen⟩ hend fun r hr => (hx r hr).imp_right fun heq => ?_
    rw [heq, ht]
    rfl
  · obtain ⟨hk, hend⟩ := collectStep_kept hs
    exact h.ended ⟨collectStep_unflagged hs, hk.seen⟩ hend fun r hr => .inl (hk.exits r hr)
  · cases hs

end Flagged

lemma run_flagged {clock : Instant} {gated : Bool} {stderr : Option (Pipe × Bool)}
    {tracker : Option (Tracker σ)} {labels : List Label}
    (h : Run (fun s l s' => step cfg H s l = some s') (begin clock gated stderr tracker) labels s) :
    Ordered s ∧ Flagged s :=
  h.invariant (I := fun s => Ordered s ∧ Flagged s)
    (fun _ _ _ hi hs => ⟨hi.1.step hs, hi.2.step hi.1 hs⟩)
    ⟨begin_ordered .., .start ..⟩

/-- In both loops an EXIT reports a timeout exactly if the loop consumed the timer before the
child's exit, whatever cleanup was under way; so equal orders of events give equal reports. -/
theorem timeout_attributed (cfg : Config) (H : Host σ) (clock : Instant) (gated : Bool)
    (stderr : Option (Pipe × Bool)) (tracker : Option (Tracker σ)) (labels : List Label)
    (s : State σ) (r : ExitReport)
    (h : Run (fun s l s' => step cfg H s l = some s') (begin clock gated stderr tracker) labels s)
    (hr : .exit r ∈ s.frames) :
    (r.timedOut = true ↔ ∃ before after, s.seen.reverse = before ++ .timedOut :: after ∧
      ∀ e ∈ before, e.isExit = false) ∧
    ∀ (τ : Type) (cfg' : Config) (H' : Host τ) (clock' : Instant) (gated' : Bool)
      (stderr' : Option (Pipe × Bool)) (tracker' : Option (Tracker τ)) (labels' : List Label)
      (s' : State τ) (r' : ExitReport),
      Run (fun s l s' => step cfg' H' s l = some s') (begin clock' gated' stderr' tracker') labels'
        s' → .exit r' ∈ s'.frames →
      upToExit s.seen.reverse = upToExit s'.seen.reverse → r.timedOut = r'.timedOut := by
  have hflag := (run_flagged h).2
  have hreport : r.timedOut = timeoutFirst s.seen.reverse := (hflag.reports r hr).trans hflag.flag
  refine ⟨by rw [hreport, timeoutFirst_iff], ?_⟩
  intro τ cfg' H' clock' gated' stderr' tracker' labels' s' r' h' hr' heq
  have hflag' := (run_flagged h').2
  rw [hreport, hflag'.reports r' hr', hflag'.flag, ← timeoutFirst_upToExit, heq,
    timeoutFirst_upToExit]

def killedLabels : List Label :=
  [.send .kill, .receive ⟨[], [false], [true]⟩, .timer, .receive ⟨[], [], []⟩,
    .childExits (some ⟨none, some 9⟩), .receive ⟨[], [], []⟩, .finish ⟨0, [], [true]⟩,
    .pump .stdout .permit, .pump .stdout (.read .eof), .pump .stdout .done, .drain, .drain,
    .report true]

def killedTrackedLabels : List Label :=
  [.tick ⟨false, 0, 0⟩, .send .kill, .receive ⟨[], [], []⟩, .tick ⟨false, 0, 0⟩, .timer,
    .receive ⟨[], [], []⟩, .tick ⟨false, 0, 0⟩, .childExits (some ⟨none, some 9⟩),
    .receive ⟨[], [], []⟩, .tick ⟨false, 0, 0⟩,
    .finish ⟨0, [.exited ⟨none, some 9⟩], [true]⟩, .pump .stdout .permit,
    .pump .stdout (.read .eof), .pump .stdout .done, .drain, .drain, .report true]

def killedStart (tracked : Bool) : State ℕ :=
  begin 0 false none (if tracked then
    some (Supervisor.tracked (quietMachine 1000) 0 (leader 1) (.withSource (leader 2))) else none)

def State.flags (s : State ℕ) : List Bool :=
  s.frames.filterMap fun
    | .exit r => some r.timedOut
    | _ => none

lemma State.flags_report {s : State ℕ} {b : Bool} (h : s.flags = [b]) :
    ∃ r, Frame.exit r ∈ s.frames ∧ r.timedOut = b := by
  have hmem : b ∈ s.flags := by
    rw [h]
    exact List.mem_singleton_self b
  obtain ⟨f, hf, hflag⟩ := List.mem_filterMap.mp hmem
  cases f with
  | exit r => exact ⟨r, hf, Option.some.inj hflag⟩
  | output | tracked => cases hflag

/-- A KILL that came first does not keep a late timer out of the report, in either loop. -/
theorem timeout_after_kill : ∃ s t,
    exec (step quietConfig (quietMachine 1000)) (killedStart false) killedLabels = some s ∧
    exec (step quietConfig (quietMachine 1000)) (killedStart true) killedTrackedLabels = some t ∧
    s.seen.reverse = [.stdin .kill, .timedOut, .childExited ⟨none, some 9⟩] ∧ s.flags = [true] ∧
    t.seen.reverse = [.stdin .kill, .timedOut, .childExited ⟨none, some 9⟩] ∧ t.flags = [true] := by
  have hs : (exec (step quietConfig (quietMachine 1000)) (killedStart false) killedLabels).any
      (fun s => decide (s.seen.reverse = [.stdin .kill, .timedOut, .childExited ⟨none, some 9⟩] ∧
        s.flags = [true])) = true := by
    decide +kernel
  have ht : (exec (step quietConfig (quietMachine 1000)) (killedStart true) killedTrackedLabels).any
      (fun s => decide (s.seen.reverse = [.stdin .kill, .timedOut, .childExited ⟨none, some 9⟩] ∧
        s.flags = [true])) = true := by
    decide +kernel
  obtain ⟨s, hrun, hs⟩ := Option.any_eq_true .. |>.mp hs
  obtain ⟨t, hrun', ht⟩ := Option.any_eq_true .. |>.mp ht
  obtain ⟨hseen, hflags⟩ := of_decide_eq_true hs
  obtain ⟨hseen', hflags'⟩ := of_decide_eq_true ht
  exact ⟨s, t, hrun, hrun', hseen, hflags, hseen', hflags'⟩

theorem timeout_attributed_killed : ∃ s r,
    exec (step quietConfig (quietMachine 1000)) (killedStart false) killedLabels = some s ∧
    .exit r ∈ s.frames ∧ ∃ before after, s.seen.reverse = before ++ .timedOut :: after ∧
      ∀ e ∈ before, e.isExit = false := by
  have hs : (exec (step quietConfig (quietMachine 1000)) (killedStart false) killedLabels).any
      (fun s => decide (s.flags = [true])) = true := by
    decide +kernel
  obtain ⟨s, hrun, hs⟩ := Option.any_eq_true .. |>.mp hs
  obtain ⟨r, hr, hflag⟩ := State.flags_report (of_decide_eq_true hs)
  exact ⟨s, r, hrun, hr, (timeout_attributed quietConfig (quietMachine 1000) 0 false none none
    killedLabels s r (exec_run hrun) hr).1.mp hflag⟩

end Forcola.Native.Supervisor
