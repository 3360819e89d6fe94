import Forcola.Native.ReadBudget

/-! With strict output only a run that was ended from outside reports truncated output. -/

namespace Forcola.Native.Supervisor

open Forcola.Library.Transition

variable {σ : Type} {cfg : Config} {H : Host σ} {s s' : State σ} {u : Tracked σ}

/-- Output was given up: by a time limit, a lost tracker or a lost peer, or by a KILL frame. -/
def GivenUp (s : State σ) : Prop :=
  s.discardOutput = true ∨ .kill ∈ s.taken

lemma GivenUp.mono (h : GivenUp s) (hd : s.discardOutput = true → s'.discardOutput = true)
    {frames : List InFrame} (hs : Settles cfg frames s s') : GivenUp s' := by
  obtain ⟨⟨more, -, htaken⟩, -⟩ := hs
  rcases h with h | h
  · exact .inl (hd h)
  · exact .inr (htaken.mem_iff.mpr (List.mem_append_right _ h))

structure Uncut (s : State σ) : Prop where
  polling : ∀ completed at_, s.point = .strict completed at_ → at_ ≠ .check → completed < s.pumps
  draining : ∀ remaining deadline cut, s.point = .drain remaining deadline cut → GivenUp s
  reporting : s.point = .report true → GivenUp s
  reports : ∀ r, Frame.exit r ∈ s.frames → r.outputTruncated = true → GivenUp s

namespace Uncut

lemma before (hn : ∀ r, Frame.exit r ∉ s.frames)
    (h1 : ∀ completed at_, s.point = .strict completed at_ → at_ ≠ .check → completed < s.pumps)
    (h2 : ∀ remaining deadline cut, s.point = .drain remaining deadline cut → GivenUp s)
    (h3 : s.point = .report true → GivenUp s) : Uncut s :=
  ⟨h1, h2, h3, fun r hr => absurd hr (hn r)⟩

lemma begin (clock : Instant) (gated : Bool) (stderr : Option (Pipe × Bool))
    (tracker : Option (Tracker σ)) : Uncut (begin clock gated stderr tracker) := by
  refine before ((begin_ordered clock gated stderr tracker).no_exit ?_ ?_) ?_ ?_ ?_ <;>
    cases tracker <;> simp [Supervisor.begin, start]

lemma same (h : Uncut s) {frames : List InFrame} (hs : Settles cfg frames s s')
    (hp : s'.point = s.point) (hd : s'.discardOutput = s.discardOutput) (hn : s'.pumps = s.pumps)
    (hx : ∀ r, Frame.exit r ∈ s'.frames → Frame.exit r ∈ s.frames) : Uncut s' := by
  have keep : GivenUp s → GivenUp s' := fun hg => hg.mono (fun h => hd.trans h) hs
  refine ⟨?_, ?_, ?_, ?_⟩
  · intro completed at_ hpt hne
    rw [hn]
    exact h.polling completed at_ (hp.symm.trans hpt) hne
  · exact fun remaining deadline cut hpt => keep (h.draining remaining deadline cut (hp.symm.trans hpt))
  · exact fun hpt => keep (h.reporting (hp.symm.trans hpt))
  · exact fun r hr ht => keep (h.reports r (hx r hr) ht)

lemma pump (h : Uncut s) {pipe : Pipe} {action : PumpAction}
    (hs : pumpStep s pipe action = some s') : Uncut s' := by
  obtain ⟨hk, hp⟩ := pumpStep_kept hs
  obtain ⟨p, p', hpd⟩ := pumpStep_pumped hs
  have keep : GivenUp s → GivenUp s' := by
    rintro (hg | hg)
    · exact .inl (hk.discardOutput.trans hg)
    · exact .inr (hpd.boxes.1 ▸ hg)
  refine ⟨?_, ?_, ?_, ?_⟩
  · intro completed at_ hpt hne
    rw [hpd.pumps]
    exact h.polling completed at_ (hp.symm.trans hpt) hne
  · exact fun remaining deadline cut hpt => keep (h.draining remaining deadline cut (hp.symm.trans hpt))
  · exact fun hpt => keep (h.reporting (hp.symm.trans hpt))
  · exact fun r hr ht => keep (h.reports r (hk.exits r hr) ht)

lemma thread (h : Uncut s) (ho : Ordered s) {l : Label} (hl : l.thread = true)
    (hs : step cfg H s l = some s') : Uncut s' := by
  by_cases hpump : ∃ pipe action, l = .pump pipe action
  · obtain ⟨pipe, action, rfl⟩ := hpump
    exact h.pump hs
  · have hne : ∀ pipe action, l ≠ .pump pipe action := fun pipe action he => hpump ⟨pipe, action, he⟩
    obtain ⟨hk, hp⟩ := thread_kept hl hs
    exact h.same (step_settles hne hs) hp hk.discardOutput (step_quiet ho hne hs).adjusted.pumps
      hk.exits

lemma looping (h : Ordered s) {l : Label} (hl : l.looping = true)
    (hs : step cfg H s l = some s') : Uncut s' := by
  obtain ⟨hloop, hp, hp'⟩ := loop_looped hl hs
  have hn : ∀ r, Frame.exit r ∉ s'.frames := by
    apply hloop.still.no_exit (h.early ?_ ?_)
    · rintro he
      rw [he] at hp
      cases hp
    · rintro b he
      rw [he] at hp
      cases hp
  refine before hn ?_ ?_ ?_
  · intro completed at_ he
    rw [he] at hp'
    cases hp'
  · intro remaining deadline cut he
    rw [he] at hp'
    cases hp'
  · intro he
    rw [he] at hp'
    cases hp'

lemma finish_point (hst : cfg.strictOutput = true) {answers : FinishAnswers}
    (hp : s.point = .finish) (hs : step cfg H s (.finish answers) = some s') :
    s'.point = .returned true ∨ s'.point = .strict 0 .check ∨
      (∃ remaining deadline, s'.point = .drain remaining deadline true) ∧
        s'.discardOutput = true := by
  simp only [step, hp] at hs
  split at hs
  · obtain rfl := Option.some.inj hs
    rw [finishUntracked]
    simp only [hst, if_true]
    obtain ⟨c, a, hr⟩ := @finishCgroup_spec _ cfg { s with clock := s.clock + answers.took }
      answers.cgroupDrained
    rw [hr]
    cases hgone : s.beamGone with
    | true => exact .inl (by simp)
    | false =>
      cases hd : s.discardOutput with
      | true =>
        refine .inr (.inr ⟨⟨s.pumps, s.clock + answers.took + outputDrainGrace, ?_⟩, ?_⟩)
        · simp [State.startDrain, State.cancel, State.onCredits, State.pumps]
        · simp [State.startDrain, State.cancel, State.onCredits]
      | false => exact .inr (.inl (by simp))
  · next t _ =>
    obtain rfl := Option.some.inj hs
    rw [finishTracked]
    dsimp only
    obtain ⟨c, a, hr⟩ := @finishCgroup_spec _ cfg
      (reapTracked { s with inputClosed := true, clock := s.clock + answers.took }
        (reapRoot answers.reaps)) answers.cgroupDrained
    rw [hr]
    split
    · exact .inl rfl
    · rw [chooseDrain]
      cases hd : s.discardOutput with
      | true =>
        refine .inr (.inr ⟨⟨s.pumps, s.clock + answers.took + outputDrainGrace, ?_⟩, ?_⟩)
        · simp [reapTracked, State.setTracked, State.startDrain, State.cancel, State.onCredits,
            State.pumps]
        · simp [reapTracked, State.setTracked, State.startDrain, State.cancel, State.onCredits]
      | false =>
        refine .inr (.inl ?_)
        simp [reapTracked, State.setTracked, hst]

lemma finish (hst : cfg.strictOutput = true) (h : Ordered s) {answers : FinishAnswers}
    (hp : s.point = .finish) (hs : step cfg H s (.finish answers) = some s') : Uncut s' := by
  obtain ⟨hstill, -⟩ := finish_due hp h.due hs
  have hn : ∀ r, Frame.exit r ∉ s'.frames := hstill.no_exit (h.no_exit (by simp [hp]) (by simp [hp]))
  rcases finish_point hst hp hs with hpt | hpt | ⟨⟨remaining, deadline, hpt⟩, hd⟩
  · exact before hn (by simp [hpt]) (by simp [hpt]) (by simp [hpt])
  · refine before hn ?_ (by simp [hpt]) (by simp [hpt])
    intro completed at_ he hne
    rw [hpt] at he
    exact absurd (Point.strict.inj he).2.symm hne
  · exact before hn (by simp [hpt]) (fun _ _ _ _ => .inl hd) fun _ => .inl hd

lemma closed_finished (h : s.pumpsClosed = true) : s.finished = s.pumps := by
  simp only [State.pumpsClosed, Bool.and_eq_true] at h
  cases hs : s.stderr <;> simp_all [State.finished, State.pumps, State.outlets]

lemma strictEvent_cut (s : State σ) (completed : ℕ) (e : Event) :
    (strictEvent s completed e).point = s.point ∨ (strictEvent s completed e).point = .returned true ∨
      (∃ remaining deadline, (strictEvent s completed e).point = .drain remaining deadline true) ∧
        e = .stdin .kill := by
  cases e with
  | stdin frame =>
    cases frame with
    | credit payload => exact .inl (grantStdout_point s payload)
    | stderrCredit payload => exact .inl (grantStderr_point s payload)
    | kill => exact .inr (.inr ⟨⟨_, _, rfl⟩, rfl⟩)
    | other tag => exact .inl rfl
  | stdinClosed | stdinError | trackingWriteFailed => exact .inr (.inl rfl)
  | childExited | childWaitFailed | timedOut => exact .inl rfl

lemma strict (h : Uncut s) (ho : Ordered s) {completed : ℕ} {point : StrictPoint} {hungUp : Bool}
    (hp : s.point = .strict completed point) (hs : strictStep s completed point hungUp = some s') :
    Uncut s' := by
  have hno : ∀ r, Frame.exit r ∉ s.frames := ho.no_exit (by simp [hp]) (by simp [hp])
  obtain ⟨hk, -⟩ := strictStep_kept hp hs
  have hn : ∀ r, Frame.exit r ∉ s'.frames := fun r hr => hno r (hk.exits r hr)
  have hpumps : s'.pumps = s.pumps := (strictStep_due hp (hp ▸ ho.due) hs).1.adjusted.pumps
  cases point with
  | check =>
    rw [strictStep] at hs
    split at hs
    · next hlt =>
      split at hs
      · split at hs
        · cases hs
        · obtain rfl := Option.some.inj hs
          exact before hn (by simp) (by simp) (by simp)
      · obtain rfl := Option.some.inj hs
        refine before hn ?_ (by simp) (by simp)
        intro c a he _
        obtain ⟨rfl, -⟩ := Point.strict.inj he
        exact hlt
    · obtain rfl := Option.some.inj hs
      exact before hn (by simp) (by simp) (by simp)
  | poll =>
    have hlt : completed < s.pumps := h.polling completed .poll hp (by simp)
    rw [strictStep] at hs
    split at hs
    · obtain rfl := Option.some.inj hs
      refine before hn ?_ (by simp) (by simp)
      intro c a he _
      obtain ⟨rfl, -⟩ := Point.strict.inj he
      exact hlt
    · next e rest hq =>
      obtain rfl := Option.some.inj hs
      rcases strictEvent_cut { s with queue := rest, drained := e :: s.drained } completed e with
        hpt | hpt | ⟨⟨remaining, deadline, hpt⟩, rfl⟩
      · have hpt := hpt.trans hp
        refine before hn ?_ (by simp [hpt]) (by simp [hpt])
        intro c a he _
        obtain ⟨rfl, -⟩ := Point.strict.inj (hpt.symm.trans he)
        rw [hpumps]
        exact hlt
      · exact before hn (by simp [hpt]) (by simp [hpt]) (by simp [hpt])
      · have hkill : GivenUp (strictEvent
            { s with queue := rest, drained := .stdin .kill :: s.drained } completed (.stdin .kill)) := by
          refine .inr ?_
          simp [strictEvent, State.taken, State.startDrain, State.cancel, State.onCredits,
            Event.frame?]
        exact before hn (by simp [hpt]) (fun _ _ _ _ => hkill) fun _ => hkill
  | wait =>
    have hlt : completed < s.pumps := h.polling completed .wait hp (by simp)
    rw [strictStep] at hs
    split at hs
    · obtain rfl := Option.some.inj hs
      refine before hn ?_ (by simp) (by simp)
      intro c a he hne
      exact absurd (Point.strict.inj he).2.symm hne
    · next hdone =>
      split at hs
      · next hclosed =>
        -- every pump sends its `()` before it is gone
        have hdue := ho.due
        rw [hp] at hdue
        have hsum : s.pumpDone + completed = s.finished := hdue.1
        have hall := closed_finished hclosed
        omega
      · obtain rfl := Option.some.inj hs
        refine before hn ?_ (by simp) (by simp)
        intro c a he hne
        exact absurd (Point.strict.inj he).2.symm hne

lemma drain (cfg : Config) (h : Uncut s) (ho : Ordered s) {remaining : ℕ} {deadline : Instant} {cut : Bool}
    (hp : s.point = .drain remaining deadline cut)
    (hs : drainStep s remaining deadline cut = some s') : Uncut s' := by
  have hno : ∀ r, Frame.exit r ∉ s.frames := ho.no_exit (by simp [hp]) (by simp [hp])
  obtain ⟨hk, -⟩ := drainStep_kept hs
  have hunfunded : Unfunded cfg s s' := drainStep_unfunded hs
  have hg : GivenUp s' :=
    (h.draining remaining deadline cut hp).mono (fun hd => hk.discardOutput.trans hd)
      hunfunded.settles
  refine before (fun r hr => hno r (hk.exits r hr)) ?_ (fun _ _ _ _ => hg) fun _ => hg
  intro completed at_ he
  rw [drainStep.eq_def] at hs
  split at hs
  · obtain rfl := Option.some.inj hs
    cases he
  · split at hs
    · obtain rfl := Option.some.inj hs
      cases he
    · split at hs
      · obtain rfl := Option.some.inj hs
        cases he
      · split at hs
        · obtain rfl := Option.some.inj hs
          cases he
        · cases hs

lemma report (h : Uncut s) {truncated ok : Bool} (hp : s.point = .report truncated)
    (hs : reportStep cfg H s truncated ok = some s') : Uncut s' := by
  have hsettles := reportStep_settles hs
  have hd : s'.discardOutput = s.discardOutput ∧
      (s'.point = .collect ∨ ∃ gone, s'.point = .returned gone) := by
    rw [reportStep] at hs
    dsimp only at hs
    split at hs
    · split at hs
      · obtain rfl := Option.some.inj hs
        exact ⟨rfl, .inr ⟨false, rfl⟩⟩
      · split at hs
        · cases hs
        · obtain rfl := Option.some.inj hs
          exact ⟨rfl, .inr ⟨false, rfl⟩⟩
    · split at hs
      · obtain rfl := Option.some.inj hs
        exact ⟨rfl, .inl rfl⟩
      · split at hs
        · obtain rfl := Option.some.inj hs
          exact ⟨rfl, .inl rfl⟩
        · cases hs
  have keep : GivenUp s → GivenUp s' := fun hg =>
    hg.mono (fun h => hd.1.trans h) hsettles
  obtain ⟨-, -, -, -, -, -, hexits⟩ := reportStep_exits hs
  refine ⟨?_, ?_, ?_, fun r hr ht => ?_⟩
  · rcases hd.2 with hpt | ⟨gone, hpt⟩ <;> simp [hpt]
  · rcases hd.2 with hpt | ⟨gone, hpt⟩ <;> simp [hpt]
  · rcases hd.2 with hpt | ⟨gone, hpt⟩ <;> simp [hpt]
  · rcases hexits r hr with hr | rfl
    · exact keep (h.reports r hr ht)
    · have ht : truncated = true := ht
      rw [ht] at hp
      exact keep (h.reporting hp)

lemma collect (cfg : Config) (h : Uncut s) (hs : collectStep s = some s') : Uncut s' := by
  have hunfunded : Unfunded cfg s s' := collectStep_unfunded hs
  obtain ⟨hk, -⟩ := collectStep_kept hs
  have keep : GivenUp s → GivenUp s' := fun hg =>
    hg.mono (fun h => hk.discardOutput.trans h) hunfunded.settles
  have hpt : ∃ gone, s'.point = .returned gone := by
    rw [collectStep] at hs
    split at hs
    · cases hs
    · split at hs
      · obtain rfl := Option.some.inj hs
        exact ⟨true, rfl⟩
      · split at hs
        · obtain rfl := Option.some.inj hs
          exact ⟨false, rfl⟩
        · cases hs
  obtain ⟨gone, hpt⟩ := hpt
  exact ⟨by simp [hpt], by simp [hpt], by simp [hpt],
    fun r hr ht => keep (h.reports r (hk.exits r hr) ht)⟩

lemma step (hst : cfg.strictOutput = true) (h : Uncut s) (ho : Ordered s) {l : Label}
    (hs : step cfg H s l = some s') : Uncut s' := by
  by_cases hl : l.thread = true
  · exact h.thread ho hl hs
  by_cases hloop : l.looping = true
  · exact looping ho hloop hs
  have hstep := hs
  rw [Supervisor.step.eq_def] at hs
  split at hs
  iterate 9 exact absurd rfl hl
  iterate 4 exact absurd rfl hloop
  · next hp => exact finish hst ho hp hstep
  · next hp => exact h.strict ho hp hs
  · next hp => exact drain cfg h ho hp hs
  · next hp => exact h.report hp hs
  · exact collect cfg h hs
  · cases hs

end Uncut

lemma run_uncut (hst : cfg.strictOutput = true) {clock : Instant} {gated : Bool}
    {stderr : Option (Pipe × Bool)} {tracker : Option (Tracker σ)} {labels : List Label}
    (h : Run (fun s l s' => step cfg H s l = some s') (begin clock gated stderr tracker) labels s) :
    Uncut s := by
  have hinv := h.invariant (I := fun s => Ordered s ∧ Uncut s)
    (fun _ _ _ hi hs => ⟨hi.1.step hs, hi.2.step hst hi.1 hs⟩) ⟨begin_ordered .., .begin ..⟩
  exact hinv.2

end Forcola.Native.Supervisor
