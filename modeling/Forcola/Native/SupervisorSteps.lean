import Forcola.Native.Supervisor

/-! What the steps around the supervision loops leave alone. -/

namespace Forcola.Native.Supervisor

variable {σ : Type} {cfg : Config} {H : Host σ} {s s' : State σ}

def Tracked.core (t : Tracked σ) : Tracked σ :=
  { t with control := [], writer := .running }

namespace Mode

def core : Mode σ → Mode σ
  | .untracked u => .untracked u
  | .tracked t => .tracked t.core

def isTracked : Mode σ → Bool
  | .untracked _ => false
  | .tracked _ => true

def control : Mode σ → List Frame
  | .untracked _ => []
  | .tracked t => t.control

lemma core_tracked {m : Mode σ} {t' : Tracked σ} (h : Mode.core (.tracked t') = m.core) :
    ∃ t, m = .tracked t ∧ t'.core = t.core := by
  cases m with
  | untracked u => cases h
  | tracked t => exact ⟨t, rfl, Mode.tracked.inj h⟩

end Mode

def State.frames (s : State σ) : List Frame :=
  s.wire ++ s.mode.control

structure Kept (s s' : State σ) : Prop where
  outcome : s'.outcome = s.outcome
  seen : s'.seen = s.seen
  left : s'.left = s.left
  acts : s'.acts = s.acts
  cgroupConfirmed : s'.cgroupConfirmed = s.cgroupConfirmed
  beamGone : s'.beamGone = s.beamGone
  discardOutput : s'.discardOutput = s.discardOutput
  mode : s'.mode.core = s.mode.core
  exits : ∀ r, Frame.exit r ∈ s'.frames → Frame.exit r ∈ s.frames

namespace Kept

lemma refl (s : State σ) : Kept s s := ⟨rfl, rfl, rfl, rfl, rfl, rfl, rfl, rfl, fun _ h => h⟩

lemma moved (s : State σ) (point : Point) : Kept s { s with point := point } :=
  ⟨rfl, rfl, rfl, rfl, rfl, rfl, rfl, rfl, fun _ h => h⟩

lemma cancelled (s : State σ) (point : Point) : Kept s { s.cancel with point := point } :=
  ⟨rfl, rfl, rfl, rfl, rfl, rfl, rfl, rfl, fun _ h => h⟩

lemma pushed (s : State σ) (e : Event) : Kept s (push s e) :=
  ⟨rfl, rfl, rfl, rfl, rfl, rfl, rfl, rfl, fun _ h => h⟩

lemma trans {s'' : State σ} (h : Kept s s') (k : Kept s' s'') : Kept s s'' :=
  ⟨k.outcome.trans h.outcome, k.seen.trans h.seen, k.left.trans h.left, k.acts.trans h.acts,
    k.cgroupConfirmed.trans h.cgroupConfirmed, k.beamGone.trans h.beamGone,
    k.discardOutput.trans h.discardOutput, k.mode.trans h.mode, fun r hr => h.exits r (k.exits r hr)⟩

end Kept

lemma grantStdout_kept (s : State σ) (payload : Bytes) : Kept s (s.grantStdout payload) := by
  rw [State.grantStdout]
  split <;> exact ⟨rfl, rfl, rfl, rfl, rfl, rfl, rfl, rfl, fun _ h => h⟩

lemma grantStderr_kept (s : State σ) (payload : Bytes) : Kept s (s.grantStderr payload) := by
  rw [State.grantStderr]
  split <;> exact ⟨rfl, rfl, rfl, rfl, rfl, rfl, rfl, rfl, fun _ h => h⟩

@[simp] lemma grantStdout_point (s : State σ) (payload : Bytes) :
    (s.grantStdout payload).point = s.point := by
  rw [State.grantStdout]
  split <;> rfl

@[simp] lemma grantStderr_point (s : State σ) (payload : Bytes) :
    (s.grantStderr payload).point = s.point := by
  rw [State.grantStderr]
  split <;> rfl

lemma setPump_kept (s : State σ) (pipe : Pipe) (p : Pump) :
    Kept s (s.setPump pipe p) ∧ (s.setPump pipe p).point = s.point := by
  cases pipe <;> exact ⟨⟨rfl, rfl, rfl, rfl, rfl, rfl, rfl, rfl, fun _ h => h⟩, rfl⟩

lemma pumpOut_kept (s : State σ) (p : Pump) (action : PumpAction) :
    Kept s (pumpOut s p action) ∧ (pumpOut s p action).point = s.point := by
  rw [pumpOut.eq_def]
  split
  · refine ⟨⟨rfl, rfl, rfl, rfl, rfl, rfl, rfl, rfl, fun r hr => ?_⟩, rfl⟩
    simpa [State.frames] using hr
  · exact ⟨⟨rfl, rfl, rfl, rfl, rfl, rfl, rfl, rfl, fun _ h => h⟩, rfl⟩
  · exact ⟨.refl s, rfl⟩

lemma pumpStep_kept {pipe : Pipe} {action : PumpAction} (h : pumpStep s pipe action = some s') :
    Kept s s' ∧ s'.point = s.point := by
  simp only [pumpStep, Option.bind_eq_some_iff] at h
  obtain ⟨p, -, h⟩ := h
  split at h
  · cases h
  · obtain ⟨p', -, rfl⟩ := Option.map_eq_some_iff.mp h
    obtain ⟨h1, hp1⟩ := setPump_kept s pipe p'
    obtain ⟨h2, hp2⟩ := pumpOut_kept (s.setPump pipe p') p action
    exact ⟨h1.trans h2, hp2.trans hp1⟩

lemma childExits_kept {outcome : Option ChildOutcome} (h : childExits s outcome = some s') :
    Kept s s' ∧ s'.point = s.point := by
  rw [childExits] at h
  split at h
  · dsimp only at h
    split at h
    all_goals
      obtain rfl := Option.some.inj h
      exact ⟨⟨rfl, rfl, rfl, rfl, rfl, rfl, rfl, rfl, fun _ h => h⟩, rfl⟩
  · cases h

lemma deliver_kept {ok : Bool} (h : deliver s ok = some s') : Kept s s' ∧ s'.point = s.point := by
  rw [deliver] at h
  split at h
  · cases h
  · next t ht =>
    split at h
    · next frame rest hw hc =>
      split at h
      · obtain rfl := Option.some.inj h
        refine ⟨⟨rfl, rfl, rfl, rfl, rfl, rfl, rfl, ?_, fun r hr => ?_⟩, rfl⟩
        · rw [ht]
          rfl
        · simp only [State.frames, ht, Mode.control, hc, List.mem_append, List.mem_cons] at hr ⊢
          tauto
      · split at h
        · cases h
        · obtain rfl := Option.some.inj h
          refine ⟨⟨rfl, rfl, rfl, rfl, rfl, rfl, rfl, ?_, fun r hr => ?_⟩, rfl⟩
          · rw [ht]
            rfl
          · simp only [State.frames, push, State.setTracked, Mode.control, List.append_nil] at hr
            exact List.mem_append_left _ hr
    · cases h

def Label.thread : Label → Bool
  | .send _ | .hangUp | .closed | .readFailed | .childExits _ | .timer | .elapse _ | .pump _ _
  | .deliver _ => true
  | _ => false

lemma thread_kept {l : Label} (hl : l.thread = true) (h : step cfg H s l = some s') :
    Kept s s' ∧ s'.point = s.point := by
  cases l with
  | send | timer =>
    obtain rfl := Option.some.inj h
    exact ⟨.pushed s _, rfl⟩
  | hangUp | elapse =>
    obtain rfl := Option.some.inj h
    exact ⟨⟨rfl, rfl, rfl, rfl, rfl, rfl, rfl, rfl, fun _ h => h⟩, rfl⟩
  | closed | readFailed =>
    simp only [step] at h
    split at h
    · cases h
    · obtain rfl := Option.some.inj h
      exact ⟨.pushed s _, rfl⟩
  | childExits outcome => exact childExits_kept h
  | pump pipe action => exact pumpStep_kept h
  | deliver ok => exact deliver_kept h
  | _ => cases hl

def Point.ended : Point → Bool
  | .top | .recv | .finish => false
  | _ => true

lemma strictEvent_kept (s : State σ) (completed : ℕ) (e : Event)
    (hp : s.point.ended = true) : Kept s (strictEvent s completed e) ∧
      (strictEvent s completed e).point.ended = true := by
  cases e with
  | stdin frame =>
    cases frame with
    | credit payload => exact ⟨grantStdout_kept s payload, by simpa [strictEvent] using hp⟩
    | stderrCredit payload => exact ⟨grantStderr_kept s payload, by simpa [strictEvent] using hp⟩
    | kill => exact ⟨.cancelled s _, rfl⟩
    | other tag => exact ⟨.refl s, hp⟩
  | stdinClosed | stdinError | trackingWriteFailed => exact ⟨.cancelled s _, rfl⟩
  | childExited | childWaitFailed | timedOut => exact ⟨.refl s, hp⟩

lemma strictStep_kept {completed : ℕ} {point : StrictPoint} {hungUp : Bool}
    (hp : s.point = .strict completed point) (h : strictStep s completed point hungUp = some s') :
    Kept s s' ∧ s'.point.ended = true := by
  rw [strictStep.eq_def] at h
  cases point with
  | check =>
    dsimp only at h
    split at h
    · split at h
      · split at h
        · cases h
        · obtain rfl := Option.some.inj h
          exact ⟨.cancelled s _, rfl⟩
      · obtain rfl := Option.some.inj h
        exact ⟨.moved s _, rfl⟩
    · obtain rfl := Option.some.inj h
      exact ⟨.moved s _, rfl⟩
  | poll =>
    dsimp only at h
    split at h
    · obtain rfl := Option.some.inj h
      exact ⟨.moved s _, rfl⟩
    · next e rest _ =>
      obtain rfl := Option.some.inj h
      obtain ⟨hk, hend⟩ := strictEvent_kept { s with queue := rest, drained := e :: s.drained }
        completed e (by rw [hp]; rfl)
      have hpop : Kept s { s with queue := rest, drained := e :: s.drained } :=
        ⟨rfl, rfl, rfl, rfl, rfl, rfl, rfl, rfl, fun _ h => h⟩
      exact ⟨hpop.trans hk, hend⟩
  | wait =>
    dsimp only at h
    split at h
    · obtain rfl := Option.some.inj h
      exact ⟨⟨rfl, rfl, rfl, rfl, rfl, rfl, rfl, rfl, fun _ h => h⟩, rfl⟩
    · split at h
      all_goals
        obtain rfl := Option.some.inj h
        exact ⟨.moved s _, rfl⟩

lemma drainStep_kept {remaining : ℕ} {deadline : ℕ} {cut : Bool}
    (h : drainStep s remaining deadline cut = some s') : Kept s s' ∧ s'.point.ended = true := by
  cases remaining with
  | zero =>
    obtain rfl := Option.some.inj h
    exact ⟨.moved s _, rfl⟩
  | succ remaining =>
    simp only [drainStep] at h
    split at h
    · obtain rfl := Option.some.inj h
      exact ⟨.moved s _, rfl⟩
    · split at h
      · obtain rfl := Option.some.inj h
        exact ⟨⟨rfl, rfl, rfl, rfl, rfl, rfl, rfl, rfl, fun _ h => h⟩, rfl⟩
      · split at h
        · obtain rfl := Option.some.inj h
          exact ⟨.moved s _, rfl⟩
        · cases h

lemma collectStep_kept (h : collectStep s = some s') : Kept s s' ∧ s'.point.ended = true := by
  rw [collectStep] at h
  split at h
  · cases h
  · split at h
    · obtain rfl := Option.some.inj h
      exact ⟨.moved s _, rfl⟩
    · split at h
      · obtain rfl := Option.some.inj h
        exact ⟨.moved s _, rfl⟩
      · cases h

lemma reportStep_exits {truncated ok : Bool} (h : reportStep cfg H s truncated ok = some s') :
    s'.point.ended = true ∧ s'.mode.core = s.mode.core ∧ s'.seen = s.seen ∧ s'.left = s.left ∧
      s'.acts = s.acts ∧ s'.cgroupConfirmed = s.cgroupConfirmed ∧
      ∀ r, Frame.exit r ∈ s'.frames → Frame.exit r ∈ s.frames ∨ r = s.exitReport cfg H truncated := by
  rw [reportStep] at h
  dsimp only at h
  split at h
  · split at h
    · obtain rfl := Option.some.inj h
      refine ⟨rfl, rfl, rfl, rfl, rfl, rfl, fun r hr => ?_⟩
      simp only [State.frames, List.cons_append, List.mem_cons, Frame.exit.injEq] at hr ⊢
      tauto
    · split at h
      · cases h
      · obtain rfl := Option.some.inj h
        exact ⟨rfl, rfl, rfl, rfl, rfl, rfl, fun r hr => .inl hr⟩
  · next t ht =>
    split at h
    · obtain rfl := Option.some.inj h
      exact ⟨rfl, rfl, rfl, rfl, rfl, rfl, fun r hr => .inl hr⟩
    · split at h
      · obtain rfl := Option.some.inj h
        refine ⟨rfl, by rw [ht]; rfl, rfl, rfl, rfl, rfl, fun r hr => ?_⟩
        simp only [State.frames, State.setTracked, Mode.control, ht, List.mem_append,
          List.mem_singleton, Frame.exit.injEq] at hr ⊢
        tauto
      · cases h

lemma step_tick {t : Tracked σ} (hp : s.point = .top) (hm : s.mode = .tracked t)
    (answers : TickAnswers) : step cfg H s (.tick answers) = tick cfg H s t answers := by
  simp only [step, hp, hm]

lemma beginCleanup_cleaning (t : Tracker σ) (now : Instant) (interrupt : Option Duration)
    (term : Duration) : (t.beginCleanup now interrupt term).cleaning = true := by
  rw [Tracker.beginCleanup]
  split
  · next c hc => simp [Tracker.cleaning, hc]
  · rfl

structure Announced (s : State σ) (t : Tracked σ) (r : State σ × Tracked σ) : Prop where
  state : ∃ b, r.1 = { s with beamGone := b }
  tracker : r.2.tracker = t.tracker ∨ r.2.tracker = t.tracker.fail .supervisor
  control : ∀ f ∈ r.2.control, f ∈ t.control ∨ ∃ id, f = .tracked id

lemma announce_gone (s : State σ) (t : Tracked σ) (ids : List ProcessIdentity)
    (h : s.beamGone = true) : announce s t ids = (s, t) := by
  induction ids with
  | nil => rfl
  | cons id rest ih => rw [announce, if_pos h, ih]

lemma mem_queued {id : ProcessIdentity} {f : Frame} {l : List Frame}
    (h : f ∈ l ++ [.tracked id] ∨ ∃ id, f = .tracked id) : f ∈ l ∨ ∃ id, f = .tracked id := by
  rcases h with h | h
  · rcases List.mem_append.mp h with h | h
    · exact .inl h
    · exact .inr ⟨id, List.mem_singleton.mp h⟩
  · exact .inr h

lemma announce_announced (s : State σ) (t : Tracked σ) (ids : List ProcessIdentity) :
    Announced s t (announce s t ids) := by
  induction ids generalizing t with
  | nil => exact ⟨⟨s.beamGone, rfl⟩, .inl rfl, fun f hf => .inl hf⟩
  | cons id rest ih =>
    rw [announce]
    split
    · exact ih t
    · split
      · rw [announce_gone _ _ _ rfl]
        exact ⟨⟨true, rfl⟩, .inr rfl, fun f hf => .inl hf⟩
      · split
        · obtain ⟨hs, ht, hc⟩ := ih { t with control := t.control ++ [.tracked id] }
          exact ⟨hs, ht, fun f hf => mem_queued (hc f hf)⟩
        · obtain ⟨hs, ht, hc⟩ := ih { t with historyTruncated := true }
          exact ⟨hs, ht, hc⟩

structure AnnouncedFinal (t t' : Tracked σ) : Prop where
  tracker : t'.tracker = t.tracker
  confirmed : t'.confirmed = t.confirmed
  finalConfirmed : t'.finalConfirmed = t.finalConfirmed
  reaped : t'.reaped = t.reaped
  writer : t'.writer = t.writer
  control : ∀ f ∈ t'.control, f ∈ t.control ∨ ∃ id, f = .tracked id

lemma announceFinal_announced (t : Tracked σ) (ids : List ProcessIdentity) :
    AnnouncedFinal t (announceFinal t ids) := by
  induction ids generalizing t with
  | nil => exact ⟨rfl, rfl, rfl, rfl, rfl, fun f hf => .inl hf⟩
  | cons id rest ih =>
    rw [announceFinal]
    split
    · obtain ⟨ht, hc, hf, hr, hw, hq⟩ := ih { t with control := t.control ++ [.tracked id] }
      exact ⟨ht, hc, hf, hr, hw, fun f hf => mem_queued (hq f hf)⟩
    · obtain ⟨ht, hc, hf, hr, hw, hq⟩ := ih { t with historyTruncated := true }
      exact ⟨ht, hc, hf, hr, hw, hq⟩

end Forcola.Native.Supervisor
