import Forcola.Native.OutputOrder
import Mathlib.Algebra.BigOperators.Group.List.Basic

/-! Read budgets against the credit that came in and the bytes that were read. -/

namespace Forcola.Native

def PumpAction.bytes : PumpAction → Bytes
  | .read answer => answer.payload
  | .permit | .write _ | .done => []

def Covered (c : Credit) (point : PumpPoint) : Prop :=
  ∀ cap gated, point = .reading cap gated → gated = true ∧ cap ≤ c.available

lemma Pump.step_pays {p p' : Pump} {action : PumpAction} {c' : Credit}
    (h : p.step action = some p') (hc : p'.credit = some c') (hu : c'.uncorked = false) :
    ∃ c, p.credit = some c ∧ c.uncorked = false ∧
      (Covered c p.point →
        c'.available + action.bytes.length = c.available ∧ Covered c' p'.point) := by
  rw [Pump.step.eq_def] at h
  split at h
  · rw [Pump.permit] at h
    split at h
    · next hnone =>
      obtain rfl := Option.some.inj h
      cases hnone.symm.trans hc
    · next credit hcredit =>
      obtain ⟨permit, hpermit, rfl⟩ := Option.map_eq_some_iff.mp h
      cases permit with
      | cancel =>
        obtain rfl := Option.some.inj (hcredit.symm.trans hc)
        refine ⟨credit, hcredit, hu, fun _ => ⟨rfl, fun cap gated hp => ?_⟩⟩
        cases hp
      | uncork =>
        obtain rfl := Option.some.inj (hcredit.symm.trans hc)
        simp only [Credit.awaitPermit, hu] at hpermit
        split at hpermit
        · cases hpermit
        · simp only [Bool.false_eq_true, if_false] at hpermit
          split at hpermit <;> cases hpermit
      | read cap =>
        obtain rfl := Option.some.inj (hcredit.symm.trans hc)
        refine ⟨credit, hcredit, hu, fun _ => ⟨rfl, fun cap' gated hp => ?_⟩⟩
        obtain ⟨rfl, rfl⟩ := PumpPoint.reading.inj hp
        refine ⟨rfl, ?_⟩
        simp only [Credit.awaitPermit, hu] at hpermit
        split at hpermit
        · cases hpermit
        · simp only [Bool.false_eq_true, if_false] at hpermit
          split at hpermit
          · obtain rfl := Permit.read.inj (Option.some.inj hpermit)
            exact min_le_left _ _
          · cases hpermit
  · next cap gated answer hp =>
    cases answer with
    | data bytes =>
      dsimp only at h
      split at h
      · cases h
      · next hfits =>
        obtain rfl := Option.some.inj h
        cases gated with
        | false =>
          refine ⟨c', hc, hu, fun hcov => ?_⟩
          cases (hcov cap false hp).1
        | true =>
          obtain ⟨c, hcredit, rfl⟩ := Option.map_eq_some_iff.mp hc
          refine ⟨c, hcredit, hu, fun hcov => ⟨?_, fun cap gated hp => ?_⟩⟩
          · have hcap := (hcov cap true hp).2
            have hlen : bytes.length ≤ cap := not_lt.mp fun hlt => hfits (.inr hlt)
            exact Nat.sub_add_cancel (hlen.trans hcap)
          · cases hp
    | eof =>
      obtain rfl := Option.some.inj h
      exact ⟨c', hc, hu, fun _ => ⟨rfl, fun cap gated hp => by cases hp⟩⟩
    | interrupted =>
      obtain rfl := Option.some.inj h
      exact ⟨c', hc, hu, fun _ => ⟨rfl, fun cap gated hp => by cases hp⟩⟩
    | failed =>
      obtain rfl := Option.some.inj h
      exact ⟨c', hc, hu, fun _ => ⟨rfl, fun cap gated hp => by cases hp⟩⟩
  · next bytes ok _ =>
    obtain rfl := Option.some.inj h
    refine ⟨c', hc, hu, fun _ => ⟨rfl, fun cap gated hp => ?_⟩⟩
    cases ok <;> cases hp
  · obtain rfl := Option.some.inj h
    exact ⟨c', hc, hu, fun _ => ⟨rfl, fun cap gated hp => by cases hp⟩⟩
  · cases h

lemma Pump.step_uncorked {p p' : Pump} {action : PumpAction} {c' : Credit}
    (h : p.step action = some p') (hc : p'.credit = some c') :
    ∃ c, p.credit = some c ∧ c'.uncorked = c.uncorked := by
  rw [Pump.step.eq_def] at h
  split at h
  · rw [Pump.permit] at h
    split at h
    · next hnone =>
      obtain rfl := Option.some.inj h
      cases hnone.symm.trans hc
    · next credit hcredit =>
      obtain ⟨permit, -, rfl⟩ := Option.map_eq_some_iff.mp h
      refine ⟨credit, hcredit, ?_⟩
      cases permit <;> obtain rfl := Option.some.inj (hcredit.symm.trans hc) <;> rfl
  · next cap gated answer _ =>
    cases answer with
    | data bytes =>
      dsimp only at h
      split at h
      · cases h
      · obtain rfl := Option.some.inj h
        cases gated with
        | false => exact ⟨c', hc, rfl⟩
        | true =>
          obtain ⟨c, hcredit, rfl⟩ := Option.map_eq_some_iff.mp hc
          exact ⟨c, hcredit, rfl⟩
    | eof =>
      obtain rfl := Option.some.inj h
      exact ⟨c', hc, rfl⟩
    | interrupted =>
      obtain rfl := Option.some.inj h
      exact ⟨c', hc, rfl⟩
    | failed =>
      obtain rfl := Option.some.inj h
      exact ⟨c', hc, rfl⟩
  · obtain rfl := Option.some.inj h
    exact ⟨c', hc, rfl⟩
  · obtain rfl := Option.some.inj h
    exact ⟨c', hc, rfl⟩
  · cases h

namespace Supervisor

open Forcola.Library.Transition

def Event.frame? : Event → Option InFrame
  | .stdin frame => some frame
  | _ => none

def Label.frame? : Label → Option InFrame
  | .send frame => some frame
  | _ => none

def InFrame.brings : Pipe → InFrame → ℕ
  | .stdout, .credit payload => (parseGrant payload).getD 0
  | .stderr, .stderrCredit payload => (parseGrant payload).getD 0
  | _, _ => 0

def Event.brings (pipe : Pipe) (e : Event) : ℕ :=
  (e.frame?.map (InFrame.brings pipe)).getD 0

def credits (pipe : Pipe) (frames : List InFrame) : ℕ :=
  (frames.map (InFrame.brings pipe)).sum

namespace State

variable {σ : Type}

def taken (s : State σ) : List InFrame :=
  (s.seen ++ s.drained).filterMap Event.frame?

def inbox (s : State σ) : List InFrame :=
  s.queue.filterMap Event.frame? ++ s.taken

end State

variable {σ : Type} {cfg : Config} {H : Host σ} {s s' : State σ} {u : Tracked σ}

lemma credits_append (pipe : Pipe) (frames more : List InFrame) :
    credits pipe (frames ++ more) = credits pipe frames + credits pipe more := by
  rw [credits, List.map_append, List.sum_append, credits, credits]

lemma credits_perm {pipe : Pipe} {frames more : List InFrame} (h : frames.Perm more) :
    credits pipe frames = credits pipe more :=
  (h.map _).sum_eq

lemma credits_frame (pipe : Pipe) (e : Event) : credits pipe e.frame?.toList = e.brings pipe := by
  rw [Event.brings]
  cases e.frame? with
  | none => rfl
  | some frame => simp [credits]

structure Funded (cfg : Config) (n : ℕ) (c c' : Credit) : Prop where
  available : c.available + n ≤ u64Max → c'.available = c.available + n
  uncorked : c.uncorked = true → c'.uncorked = true
  corked : cfg.strictOutput = true → c'.uncorked = c.uncorked

lemma Funded.refl (cfg : Config) (c : Credit) : Funded cfg 0 c c :=
  ⟨fun _ => rfl, id, fun _ => rfl⟩

lemma Funded.trans {n m : ℕ} {c c' c'' : Credit} (h : Funded cfg n c c') (k : Funded cfg m c' c'') :
    Funded cfg (n + m) c c'' := by
  refine ⟨fun hfits => ?_, fun hu => k.uncorked (h.uncorked hu), fun hst => ?_⟩
  · have hn : c'.available = c.available + n := h.available (by omega)
    rw [k.available (by omega), hn, Nat.add_assoc]
  · rw [k.corked hst, h.corked hst]

lemma funded_grant (cfg : Config) (n : ℕ) (c : Credit) : Funded cfg n c (c.grant n) :=
  ⟨fun hfits => min_eq_left hfits, id, fun _ => rfl⟩

lemma funded_cancel (cfg : Config) (c : Credit) : Funded cfg 0 c c.cancel :=
  ⟨fun _ => rfl, id, fun _ => rfl⟩

lemma funded_uncork (hst : cfg.strictOutput = false) (c : Credit) : Funded cfg 0 c c.uncork :=
  ⟨fun _ => rfl, fun _ => rfl, fun h => Bool.noConfusion (hst.symm.trans h)⟩

def Tops (cfg : Config) (n : Pipe → ℕ) (s s' : State σ) : Prop :=
  ∀ pipe, ∃ f : Credit → Credit, (∀ c, Funded cfg (n pipe) c (f c)) ∧
    s'.selected pipe = (s.selected pipe).map (Pump.onCredit f)

lemma Tops.of_eq (h1 : s'.stdout = s.stdout) (h2 : s'.stderr = s.stderr) :
    Tops cfg 0 s s' := by
  intro pipe
  refine ⟨id, Funded.refl cfg, ?_⟩
  have hid : Pump.onCredit id = id := funext onCredit_id
  rw [hid, Option.map_id]
  cases pipe with
  | stdout => exact congrArg some h1
  | stderr => exact h2

lemma Tops.trans {s'' : State σ} {n m : Pipe → ℕ} (h : Tops cfg n s s') (k : Tops cfg m s' s'') :
    Tops cfg (n + m) s s'' := by
  intro pipe
  obtain ⟨f, hf, hs⟩ := h pipe
  obtain ⟨g, hg, hs'⟩ := k pipe
  refine ⟨g ∘ f, fun c => (hf c).trans (hg _), ?_⟩
  rw [hs', hs, Option.map_map]
  congr 1
  funext p
  simp [Pump.onCredit, Option.map_map]

structure Unfunded (cfg : Config) (s s' : State σ) : Prop where
  queue : s'.queue = s.queue
  seen : s'.seen = s.seen
  drained : s'.drained = s.drained
  wire : s'.wire = s.wire
  connected : s'.connected = s.connected
  tops : Tops cfg 0 s s'

namespace Unfunded

lemma of_eq (h1 : s'.stdout = s.stdout) (h2 : s'.stderr = s.stderr) (h3 : s'.queue = s.queue)
    (h4 : s'.seen = s.seen) (h5 : s'.drained = s.drained) (h6 : s'.wire = s.wire)
    (h7 : s'.connected = s.connected) : Unfunded cfg s s' :=
  ⟨h3, h4, h5, h6, h7, .of_eq h1 h2⟩

lemma refl (s : State σ) : Unfunded cfg s s := .of_eq rfl rfl rfl rfl rfl rfl rfl

lemma trans {s'' : State σ} (h : Unfunded cfg s s') (k : Unfunded cfg s' s'') :
    Unfunded cfg s s'' :=
  ⟨k.queue.trans h.queue, k.seen.trans h.seen, k.drained.trans h.drained, k.wire.trans h.wire,
    k.connected.trans h.connected, h.tops.trans k.tops⟩

lemma onCredits {f : Credit → Credit} (hf : ∀ c, Funded cfg 0 c (f c)) (s : State σ) :
    Unfunded cfg s (s.onCredits f) := by
  refine ⟨rfl, rfl, rfl, rfl, rfl, fun pipe => ⟨f, hf, ?_⟩⟩
  cases pipe <;> rfl

lemma cancel (s : State σ) : Unfunded cfg s s.cancel :=
  onCredits (funded_cancel cfg) s

lemma uncork (hst : cfg.strictOutput = false) (s : State σ) : Unfunded cfg s s.uncork :=
  onCredits (funded_uncork hst) s

end Unfunded

lemma grantStdout_tops (s : State σ) (payload : Bytes) :
    Tops cfg (fun pipe => Event.brings pipe (.stdin (.credit payload))) s (s.grantStdout payload) := by
  intro pipe
  rw [State.grantStdout]
  cases hg : parseGrant payload with
  | none =>
    obtain ⟨f, hf, hs⟩ := @Tops.of_eq σ cfg s s rfl rfl pipe
    refine ⟨f, fun c => ?_, hs⟩
    cases pipe <;> simpa [Event.brings, Event.frame?, InFrame.brings, hg] using hf c
  | some n =>
    cases pipe with
    | stdout =>
      refine ⟨(·.grant n), fun c => ?_, rfl⟩
      simpa [Event.brings, Event.frame?, InFrame.brings, hg] using funded_grant cfg n c
    | stderr =>
      obtain ⟨f, hf, hs⟩ := @Tops.of_eq σ cfg s s rfl rfl .stderr
      exact ⟨f, hf, hs⟩

lemma grantStderr_tops (s : State σ) (payload : Bytes) :
    Tops cfg (fun pipe => Event.brings pipe (.stdin (.stderrCredit payload))) s
      (s.grantStderr payload) := by
  intro pipe
  rw [State.grantStderr]
  cases hg : parseGrant payload with
  | none =>
    obtain ⟨f, hf, hs⟩ := @Tops.of_eq σ cfg s s rfl rfl pipe
    refine ⟨f, fun c => ?_, hs⟩
    cases pipe <;> simpa [Event.brings, Event.frame?, InFrame.brings, hg] using hf c
  | some n =>
    cases pipe with
    | stdout =>
      obtain ⟨f, hf, hs⟩ := @Tops.of_eq σ cfg s s rfl rfl .stdout
      exact ⟨f, hf, hs⟩
    | stderr =>
      refine ⟨(·.grant n), fun c => ?_, rfl⟩
      simpa [Event.brings, Event.frame?, InFrame.brings, hg] using funded_grant cfg n c

structure Handles (cfg : Config) (e : Event) (s s' : State σ) : Prop where
  queue : s'.queue = s.queue
  seen : s'.seen = s.seen
  drained : s'.drained = s.drained
  wire : s'.wire = s.wire
  connected : s'.connected = s.connected
  tops : Tops cfg (fun pipe => e.brings pipe) s s'

lemma Unfunded.handles {e : Event} (h : Unfunded cfg s s') (he : ∀ pipe, e.brings pipe = 0) :
    Handles cfg e s s' := by
  refine ⟨h.queue, h.seen, h.drained, h.wire, h.connected, ?_⟩
  rw [show (fun pipe => e.brings pipe) = 0 from funext he]
  exact h.tops

lemma Handles.trans {s'' : State σ} {e : Event} (h : Handles cfg e s s')
    (k : Unfunded cfg s' s'') : Handles cfg e s s'' :=
  ⟨k.queue.trans h.queue, k.seen.trans h.seen, k.drained.trans h.drained, k.wire.trans h.wire,
    k.connected.trans h.connected, h.tops.trans k.tops⟩

lemma grantStdout_handles (s : State σ) (payload : Bytes) :
    Handles cfg (.stdin (.credit payload)) s (s.grantStdout payload) := by
  refine ⟨?_, ?_, ?_, ?_, ?_, grantStdout_tops s payload⟩ <;>
  · rw [State.grantStdout]
    split <;> rfl

lemma grantStderr_handles (s : State σ) (payload : Bytes) :
    Handles cfg (.stdin (.stderrCredit payload)) s (s.grantStderr payload) := by
  refine ⟨?_, ?_, ?_, ?_, ?_, grantStderr_tops s payload⟩ <;>
  · rw [State.grantStderr]
    split <;> rfl

lemma stopGroup_unfunded (s : State σ) (v : Untracked) (answers : KillAnswers) :
    Unfunded cfg s (stopGroup cfg s v answers) := by
  rw [stopGroup]
  dsimp only
  split <;> exact .of_eq rfl rfl rfl rfl rfl rfl rfl

lemma handleUntracked_handles (s : State σ) (v : Untracked) (answers : KillAnswers) (e : Event) :
    Handles cfg e s (handleUntracked cfg s v answers e) := by
  have plain : ∀ {t : State σ}, (∀ pipe, e.brings pipe = 0) → Unfunded cfg s t →
      Handles cfg e s t := fun he h => h.handles he
  cases e with
  | stdin frame =>
    cases frame with
    | credit payload => exact grantStdout_handles s payload
    | stderrCredit payload => exact grantStderr_handles s payload
    | kill =>
      refine plain (fun pipe => by cases pipe <;> rfl) (Unfunded.trans ?_ (stopGroup_unfunded _ _ _))
      exact .of_eq rfl rfl rfl rfl rfl rfl rfl
    | other tag => exact plain (fun pipe => by cases pipe <;> rfl) (.refl s)
  | stdinClosed | stdinError | timedOut =>
    refine plain (fun pipe => by cases pipe <;> rfl) (Unfunded.trans ?_ (stopGroup_unfunded _ _ _))
    exact .of_eq rfl rfl rfl rfl rfl rfl rfl
  | childExited outcome =>
    refine plain (fun pipe => by cases pipe <;> rfl) ((stopGroup_unfunded s v answers).trans ?_)
    exact .of_eq rfl rfl rfl rfl rfl rfl rfl
  | childWaitFailed | trackingWriteFailed =>
    exact plain (fun pipe => by cases pipe <;> rfl) (.refl s)

lemma handleTracked_handles (s : State σ) (u : Tracked σ) (e : Event) :
    Handles cfg e s (handleTracked cfg s u e) := by
  have plain : ∀ {t : State σ}, (∀ pipe, e.brings pipe = 0) → Unfunded cfg s t →
      Handles cfg e s t := fun he h => h.handles he
  cases e with
  | stdin frame =>
    cases frame with
    | credit payload => exact grantStdout_handles s payload
    | stderrCredit payload => exact grantStderr_handles s payload
    | kill => exact plain (fun pipe => by cases pipe <;> rfl) (.of_eq rfl rfl rfl rfl rfl rfl rfl)
    | other tag => exact plain (fun pipe => by cases pipe <;> rfl) (.refl s)
  | timedOut =>
    refine plain (fun pipe => by cases pipe <;> rfl) ?_
    rw [handleTracked]
    split <;> exact .of_eq rfl rfl rfl rfl rfl rfl rfl
  | stdinClosed | stdinError | trackingWriteFailed | childWaitFailed | childExited =>
    exact plain (fun pipe => by cases pipe <;> rfl) (.of_eq rfl rfl rfl rfl rfl rfl rfl)

lemma cleanupTick_unfunded (advancing : Duration) :
    Unfunded cfg s (cleanupTick H s u advancing) := by
  rw [cleanupTick]
  dsimp only
  generalize hr : (if s.discardOutput then State.cancel { s with inputClosed := true }
    else { s with inputClosed := true }) = r
  have hs : Unfunded cfg s r := by
    have hin : Unfunded cfg s { s with inputClosed := true } := .of_eq rfl rfl rfl rfl rfl rfl rfl
    rw [← hr]
    split
    · exact hin.trans (.cancel _)
    · exact hin
  split <;> exact hs.trans (.of_eq rfl rfl rfl rfl rfl rfl rfl)

lemma sampled_unfunded (cfg : Config) (s : State σ) (u : Tracked σ) (hungUp : Bool) :
    Unfunded cfg s (sampled cfg H s u hungUp).1 := by
  rw [sampled]
  generalize hb : (if !s.beamGone && hungUp then
    ({ s with beamGone := true, discardOutput := true }, beginCleanup cfg u s.clock)
    else (s, u)) = b
  obtain ⟨s1, u1⟩ := b
  have h1 : Unfunded cfg s s1 := by
    split at hb <;> obtain ⟨rfl, rfl⟩ := Prod.mk.inj hb <;> exact .of_eq rfl rfl rfl rfl rfl rfl rfl
  obtain ⟨⟨b', hs⟩, -, -⟩ := announce_announced s1
    { u1 with tracker := (u1.tracker.scan H).takeNewGroups.2 } (u1.tracker.scan H).takeNewGroups.1
  dsimp only
  rw [hs]
  exact h1.trans (.of_eq rfl rfl rfl rfl rfl rfl rfl)

lemma giveUp_unfunded (cfg : Config) (s : State σ) (u : Tracked σ) :
    Unfunded cfg s (giveUp cfg s u).1 := by
  rw [giveUp]
  split <;> exact .of_eq rfl rfl rfl rfl rfl rfl rfl

lemma tick_unfunded {answers : TickAnswers} (h : tick cfg H s u answers = some s') :
    Unfunded cfg s s' := by
  rw [tick] at h
  split at h
  · obtain rfl := Option.some.inj h
    exact .of_eq rfl rfl rfl rfl rfl rfl rfl
  · split at h
    · cases h
    · have h1 := @sampled_unfunded _ H cfg s u answers.hungUp
      generalize sampled cfg H s u answers.hungUp = r1 at h h1
      obtain ⟨s1, u1⟩ := r1
      dsimp only at h h1
      have h2 := giveUp_unfunded cfg { s1 with clock := s1.clock + answers.scanning } u1
      generalize giveUp cfg { s1 with clock := s1.clock + answers.scanning } u1 = r2 at h h2
      obtain ⟨s2, u2⟩ := r2
      dsimp only at h h2
      have hscan : Unfunded cfg s { s1 with clock := s1.clock + answers.scanning } :=
        h1.trans (.of_eq rfl rfl rfl rfl rfl rfl rfl)
      have h12 : Unfunded cfg s s2 := hscan.trans h2
      split at h
      · obtain rfl := Option.some.inj h
        exact h12.trans (cleanupTick_unfunded answers.advancing)
      · obtain rfl := Option.some.inj h
        exact h12.trans (.of_eq rfl rfl rfl rfl rfl rfl rfl)

lemma finishCgroup_unfunded (s : State σ) (polls : List Bool) :
    Unfunded cfg s (finishCgroup cfg s polls) := by
  rw [finishCgroup]
  split <;> exact .of_eq rfl rfl rfl rfl rfl rfl rfl

lemma chooseDrain_unfunded (s : State σ) : Unfunded cfg s (chooseDrain cfg s) := by
  rw [chooseDrain]
  split
  · exact .of_eq rfl rfl rfl rfl rfl rfl rfl
  · next hst =>
    split
    · exact (Unfunded.cancel s).trans (.of_eq rfl rfl rfl rfl rfl rfl rfl)
    · next hd =>
      -- output that is not discarded is drained eagerly only without strict output
      have hst : cfg.strictOutput = false := by
        simp only [Bool.and_eq_true, Bool.not_eq_true', not_and, Bool.not_eq_false] at hst
        by_contra hc
        exact hd (hst (Bool.eq_true_of_not_eq_false hc))
      exact (Unfunded.uncork hst s).trans (.of_eq rfl rfl rfl rfl rfl rfl rfl)

lemma finishTracked_unfunded (s : State σ) (u : Tracked σ) (answers : FinishAnswers) :
    Unfunded cfg s (finishTracked cfg H s u answers) := by
  rw [finishTracked]
  dsimp only
  generalize hf : finishCgroup cfg _ answers.cgroupDrained = r
  have hr : Unfunded cfg s r := by
    rw [← hf]
    refine Unfunded.trans ?_ (finishCgroup_unfunded _ _)
    exact .of_eq rfl rfl rfl rfl rfl rfl rfl
  split
  · exact hr.trans ((Unfunded.cancel r).trans (.of_eq rfl rfl rfl rfl rfl rfl rfl))
  · refine hr.trans (Unfunded.trans ?_ (chooseDrain_unfunded _))
    exact .of_eq rfl rfl rfl rfl rfl rfl rfl

lemma finishUntracked_unfunded (s : State σ) (answers : FinishAnswers) :
    Unfunded cfg s (finishUntracked cfg s answers) := by
  rw [finishUntracked]
  dsimp only
  generalize hf : finishCgroup cfg _ answers.cgroupDrained = r
  have hr : Unfunded cfg s r := by
    have hcork : Unfunded cfg s (if cfg.strictOutput then s else s.uncork) := by
      split
      · exact .refl s
      · next hst => exact .uncork (Bool.eq_false_of_not_eq_true hst) s
    rw [← hf]
    refine hcork.trans (Unfunded.trans ?_ (finishCgroup_unfunded _ _))
    exact .of_eq rfl rfl rfl rfl rfl rfl rfl
  split
  · exact hr.trans ((Unfunded.cancel r).trans (.of_eq rfl rfl rfl rfl rfl rfl rfl))
  · split
    · split
      · exact hr.trans ((Unfunded.cancel r).trans (.of_eq rfl rfl rfl rfl rfl rfl rfl))
      · exact hr.trans (.of_eq rfl rfl rfl rfl rfl rfl rfl)
    · exact hr.trans (.of_eq rfl rfl rfl rfl rfl rfl rfl)

lemma strictEvent_handles (s : State σ) (completed : ℕ) (e : Event) :
    Handles cfg e s (strictEvent s completed e) := by
  have plain : ∀ {t : State σ}, (∀ pipe, e.brings pipe = 0) → Unfunded cfg s t →
      Handles cfg e s t := fun he h => h.handles he
  cases e with
  | stdin frame =>
    cases frame with
    | credit payload => exact grantStdout_handles s payload
    | stderrCredit payload => exact grantStderr_handles s payload
    | kill =>
      refine plain (fun pipe => by cases pipe <;> rfl) ((Unfunded.cancel s).trans ?_)
      exact .of_eq rfl rfl rfl rfl rfl rfl rfl
    | other tag => exact plain (fun pipe => by cases pipe <;> rfl) (.refl s)
  | stdinClosed | stdinError | trackingWriteFailed =>
    refine plain (fun pipe => by cases pipe <;> rfl) ((Unfunded.cancel s).trans ?_)
    exact .of_eq rfl rfl rfl rfl rfl rfl rfl
  | childExited | childWaitFailed | timedOut =>
    exact plain (fun pipe => by cases pipe <;> rfl) (.refl s)

lemma drainStep_unfunded {remaining : ℕ} {deadline : Instant} {cut : Bool}
    (h : drainStep s remaining deadline cut = some s') : Unfunded cfg s s' := by
  rw [drainStep.eq_def] at h
  split at h
  · obtain rfl := Option.some.inj h
    exact .of_eq rfl rfl rfl rfl rfl rfl rfl
  · split at h
    · obtain rfl := Option.some.inj h
      exact .of_eq rfl rfl rfl rfl rfl rfl rfl
    · split at h
      · obtain rfl := Option.some.inj h
        exact .of_eq rfl rfl rfl rfl rfl rfl rfl
      · split at h
        · obtain rfl := Option.some.inj h
          exact .of_eq rfl rfl rfl rfl rfl rfl rfl
        · cases h

lemma collectStep_unfunded (h : collectStep s = some s') : Unfunded cfg s s' := by
  rw [collectStep] at h
  split at h
  · cases h
  · split at h
    · obtain rfl := Option.some.inj h
      exact .of_eq rfl rfl rfl rfl rfl rfl rfl
    · split at h
      · obtain rfl := Option.some.inj h
        exact .of_eq rfl rfl rfl rfl rfl rfl rfl
      · cases h

structure Settles (cfg : Config) (frames : List InFrame) (s s' : State σ) : Prop where
  tops : ∃ more : List InFrame, Tops cfg (fun pipe => credits pipe more) s s' ∧
    s'.taken.Perm (more ++ s.taken)
  inbox : s'.inbox.Perm (frames ++ s.inbox)
  connected : s'.connected = true → s.connected = true
  wire : s.wire <:+ s'.wire

lemma Settles.of_eq (h1 : s'.stdout = s.stdout) (h2 : s'.stderr = s.stderr)
    (h3 : s'.queue = s.queue) (h4 : s'.seen = s.seen) (h5 : s'.drained = s.drained)
    (h6 : s'.connected = true → s.connected = true) (hw : s.wire <:+ s'.wire) : Settles cfg [] s s' := by
  have htaken : s'.taken = s.taken := by rw [State.taken, h4, h5, State.taken]
  refine ⟨⟨[], .of_eq h1 h2, .of_eq htaken⟩, .of_eq ?_, h6, hw⟩
  rw [List.nil_append, State.inbox, h3, htaken, State.inbox]

lemma Unfunded.settles (h : Unfunded cfg s s') : Settles cfg [] s s' := by
  have htaken : s'.taken = s.taken := by rw [State.taken, h.seen, h.drained, State.taken]
  refine ⟨⟨[], h.tops, .of_eq htaken⟩, .of_eq ?_, (h.connected.symm.trans ·), h.wire ▸ List.suffix_refl _⟩
  rw [List.nil_append, State.inbox, h.queue, htaken, State.inbox]

lemma Handles.seen_settles {e : Event} {rest : List Event} (hq : s.queue = e :: rest)
    (h : Handles cfg e { s with queue := rest, seen := e :: s.seen } s') : Settles cfg [] s s' := by
  have htaken : s'.taken = e.frame?.toList ++ s.taken := by
    rw [State.taken, h.seen, h.drained]
    cases e <;> rfl
  refine ⟨⟨e.frame?.toList, ?_, .of_eq htaken⟩, ?_, (h.connected.symm.trans ·), h.wire ▸ List.suffix_refl _⟩
  · simp only [credits_frame]
    exact h.tops
  · rw [List.nil_append, State.inbox, h.queue, htaken, State.inbox, hq]
    cases e with
    | stdin frame => exact List.perm_middle
    | _ => exact .refl _

lemma Handles.drained_settles {e : Event} {rest : List Event} (hq : s.queue = e :: rest)
    (h : Handles cfg e { s with queue := rest, drained := e :: s.drained } s') :
    Settles cfg [] s s' := by
  have htaken : s'.taken.Perm (e.frame?.toList ++ s.taken) := by
    rw [State.taken, h.seen, h.drained, State.taken, List.filterMap_append, List.filterMap_append]
    cases e with
    | stdin frame => exact List.perm_middle
    | _ => exact .refl _
  refine ⟨⟨e.frame?.toList, ?_, htaken⟩, ?_, (h.connected.symm.trans ·), h.wire ▸ List.suffix_refl _⟩
  · simp only [credits_frame]
    exact h.tops
  · rw [List.nil_append, State.inbox, h.queue, State.inbox, hq]
    refine (htaken.append_left _).trans ?_
    cases e with
    | stdin frame => exact List.perm_middle
    | _ => exact .refl _

lemma push_settles (s : State σ) (e : Event) : Settles cfg e.frame?.toList s (push s e) := by
  refine ⟨⟨[], .of_eq rfl rfl, .refl _⟩, ?_, id, List.suffix_refl _⟩
  have hinbox : (push s e).inbox = (s.queue.filterMap Event.frame? ++ e.frame?.toList) ++ s.taken := by
    rw [State.inbox, push, List.filterMap_append]
    cases e <;> rfl
  rw [hinbox, State.inbox, ← List.append_assoc]
  exact List.perm_append_comm.append_right _

lemma thread_settles {l : Label} (hl : l.thread = true) (hp : ∀ pipe action, l ≠ .pump pipe action)
    (h : step cfg H s l = some s') : Settles cfg l.frame?.toList s s' := by
  have posts : ∀ {t : State σ} {e : Event}, Unfunded cfg s t → e.frame? = none →
      Settles cfg [] s (push t e) := by
    intro t e ht he
    have hpush := @push_settles σ cfg t e
    rw [he] at hpush
    have hsettles : Settles cfg [] s t := ht.settles
    refine ⟨⟨[], ht.tops.trans (.of_eq rfl rfl), ?_⟩, hpush.inbox.trans hsettles.inbox,
      hsettles.connected, ht.wire ▸ List.suffix_refl _⟩
    exact .of_eq (by rw [State.taken, push, ht.seen, ht.drained, State.taken, List.nil_append])
  cases l with
  | send frame =>
    obtain rfl := Option.some.inj h
    exact push_settles s (.stdin frame)
  | timer =>
    obtain rfl := Option.some.inj h
    exact posts (.refl s) rfl
  | hangUp =>
    obtain rfl := Option.some.inj h
    exact .of_eq rfl rfl rfl rfl rfl (fun h => Bool.noConfusion h) (List.suffix_refl _)
  | elapse =>
    obtain rfl := Option.some.inj h
    exact Unfunded.settles (.of_eq rfl rfl rfl rfl rfl rfl rfl)
  | closed | readFailed =>
    simp only [step] at h
    split at h
    · cases h
    · obtain rfl := Option.some.inj h
      exact posts (.refl s) rfl
  | childExits outcome =>
    simp only [step, childExits] at h
    split at h
    · split at h
      all_goals
        obtain rfl := Option.some.inj h
        exact posts (.of_eq rfl rfl rfl rfl rfl rfl rfl) rfl
    · cases h
  | pump pipe action => exact absurd rfl (hp pipe action)
  | deliver ok =>
    simp only [step, deliver] at h
    split at h
    · cases h
    · split at h
      · split at h
        · obtain rfl := Option.some.inj h
          exact .of_eq rfl rfl rfl rfl rfl id (List.suffix_cons _ _)
        · split at h
          · cases h
          · obtain rfl := Option.some.inj h
            exact posts (.of_eq rfl rfl rfl rfl rfl rfl rfl) rfl
      · cases h
  | _ => cases hl

lemma receive_settles {answers : KillAnswers} (h : receive cfg s answers = some s') :
    Settles cfg [] s s' := by
  rw [receive] at h
  split at h
  · cases h
  · next e rest hq =>
    dsimp only at h
    split at h
    · obtain rfl := Option.some.inj h
      exact (handleUntracked_handles _ _ answers e).seen_settles hq
    · next t _ =>
      obtain rfl := Option.some.inj h
      refine Handles.seen_settles hq ((handleTracked_handles _ t e).trans ?_)
      exact .of_eq rfl rfl rfl rfl rfl rfl rfl

lemma strictStep_settles {completed : ℕ} {point : StrictPoint} {hungUp : Bool}
    (h : strictStep s completed point hungUp = some s') : Settles cfg [] s s' := by
  rw [strictStep.eq_def] at h
  split at h
  · split at h
    · split at h
      · split at h
        · cases h
        · obtain rfl := Option.some.inj h
          refine Unfunded.settles ((Unfunded.cancel s).trans ?_)
          exact .of_eq rfl rfl rfl rfl rfl rfl rfl
      · obtain rfl := Option.some.inj h
        exact Unfunded.settles (.of_eq rfl rfl rfl rfl rfl rfl rfl)
    · obtain rfl := Option.some.inj h
      exact Unfunded.settles (.of_eq rfl rfl rfl rfl rfl rfl rfl)
  · split at h
    · obtain rfl := Option.some.inj h
      exact Unfunded.settles (.of_eq rfl rfl rfl rfl rfl rfl rfl)
    · next e rest hq =>
      obtain rfl := Option.some.inj h
      exact (strictEvent_handles _ completed e).drained_settles hq
  · split at h
    · obtain rfl := Option.some.inj h
      exact Unfunded.settles (.of_eq rfl rfl rfl rfl rfl rfl rfl)
    · split at h
      all_goals
        obtain rfl := Option.some.inj h
        exact Unfunded.settles (.of_eq rfl rfl rfl rfl rfl rfl rfl)

lemma reportStep_settles {truncated ok : Bool} (h : reportStep cfg H s truncated ok = some s') :
    Settles cfg [] s s' := by
  rw [reportStep] at h
  dsimp only at h
  split at h
  · split at h
    · obtain rfl := Option.some.inj h
      exact .of_eq rfl rfl rfl rfl rfl id (List.suffix_cons _ _)
    · split at h
      · cases h
      · obtain rfl := Option.some.inj h
        exact .of_eq rfl rfl rfl rfl rfl id (List.suffix_refl _)
  · split at h
    · obtain rfl := Option.some.inj h
      exact .of_eq rfl rfl rfl rfl rfl id (List.suffix_refl _)
    · split at h
      · obtain rfl := Option.some.inj h
        exact .of_eq rfl rfl rfl rfl rfl id (List.suffix_refl _)
      · cases h

lemma step_settles {l : Label} (hp : ∀ pipe action, l ≠ .pump pipe action)
    (h : step cfg H s l = some s') : Settles cfg l.frame?.toList s s' := by
  by_cases hl : l.thread = true
  · exact thread_settles hl hp h
  have hframe : l.frame? = none := by
    cases l with
    | send frame => exact absurd rfl hl
    | _ => rfl
  rw [hframe]
  rw [step.eq_def] at h
  split at h
  iterate 9 exact absurd rfl hl
  · split at h
    · cases h
    · exact (tick_unfunded h).settles
  · exact receive_settles h
  · rw [timeout] at h
    split at h
    · cases h
    · split at h
      · obtain rfl := Option.some.inj h
        exact Unfunded.settles (.of_eq rfl rfl rfl rfl rfl rfl rfl)
      · cases h
  · rw [disconnected] at h
    split at h
    · cases h
    · split at h
      · obtain rfl := Option.some.inj h
        exact Unfunded.settles (.of_eq rfl rfl rfl rfl rfl rfl rfl)
      · cases h
  · split at h
    · obtain rfl := Option.some.inj h
      exact (finishUntracked_unfunded s _).settles
    · obtain rfl := Option.some.inj h
      exact (finishTracked_unfunded s _ _).settles
  · exact strictStep_settles h
  · exact (drainStep_unfunded h).settles
  · exact reportStep_settles h
  · exact (collectStep_unfunded h).settles
  · cases h

/-- A pipe's budget holds what it was granted and its pump has not read, until it is uncorked. -/
def Metered (pipe : Pipe) (labels : List Label) (s : State σ) : Prop :=
  ∀ p c, s.selected pipe = some p → p.credit = some c → c.uncorked = false →
    c.available + (received pipe labels).length = credits pipe s.taken ∧ Covered c p.point

def Corked (cfg : Config) (s : State σ) : Prop :=
  cfg.strictOutput = true →
    ∀ pipe p c, s.selected pipe = some p → p.credit = some c → c.uncorked = false

def Within (pipe : Pipe) (labels : List Label) (s : State σ) : Prop :=
  credits pipe s.taken ≤ (received pipe labels).length + u64Max

lemma Pumped.boxes {pipe : Pipe} {action : PumpAction} {p p' : Pump}
    (h : Pumped s s' pipe action p p') :
    s'.taken = s.taken ∧ s'.inbox = s.inbox ∧ s'.connected = s.connected := by
  obtain ⟨s₁, rfl, rfl⟩ := h.pump
  rw [pumpOut.eq_def]
  cases pipe <;> split <;> exact ⟨rfl, rfl, rfl⟩

lemma pumpStep_step {pipe : Pipe} {action : PumpAction} (h : pumpStep s pipe action = some s') :
    ∃ p p', Pumped s s' pipe action p p' ∧ p.step action = some p' := by
  obtain ⟨p, p', hp⟩ := pumpStep_pumped h
  refine ⟨p, p', hp, ?_⟩
  simp only [pumpStep, Option.bind_eq_some_iff] at h
  obtain ⟨q, hsel, h⟩ := h
  obtain rfl := Option.some.inj (hp.selected.symm.trans hsel)
  split at h
  · cases h
  · obtain ⟨q', hstep, hs'⟩ := Option.map_eq_some_iff.mp h
    have hq := hp.after pipe
    rw [← hs', if_pos rfl] at hq
    have hset : (pumpOut (s.setPump pipe q') p action).selected pipe = some q' := by
      rw [pumpOut.eq_def]
      cases pipe <;> split <;> rfl
    rw [hstep, ← hq, hset]

lemma received_pump (pipe : Pipe) (labels : List Label) (action : PumpAction) :
    received pipe (labels ++ [.pump pipe action]) = received pipe labels ++ action.bytes := by
  rw [received_snoc]
  cases action <;> simp [Label.answer, PumpAction.bytes]

lemma received_pump_other {pipe q : Pipe} (h : q ≠ pipe) (labels : List Label)
    (action : PumpAction) : received q (labels ++ [.pump pipe action]) = received q labels := by
  apply received_other
  cases action <;> simp [Label.answer, h.symm]

lemma Metered.pump {q pipe : Pipe} {action : PumpAction} {labels : List Label}
    (h : Metered q labels s) (hs : pumpStep s pipe action = some s') :
    Metered q (labels ++ [.pump pipe action]) s' := by
  obtain ⟨p, p', hp, hstep⟩ := pumpStep_step hs
  intro r c hsel hc hu
  rw [hp.after] at hsel
  rw [hp.boxes.1]
  split at hsel
  · next heq =>
    subst heq
    obtain rfl := Option.some.inj hsel
    obtain ⟨b, hb, hbu, hpays⟩ := Pump.step_pays hstep hc hu
    obtain ⟨hsum, hcov⟩ := h p b hp.selected hb hbu
    obtain ⟨hpaid, hcov'⟩ := hpays hcov
    rw [received_pump, List.length_append]
    exact ⟨by omega, hcov'⟩
  · next hne =>
    rw [received_pump_other hne]
    exact h r c hsel hc hu

lemma Metered.settles {pipe : Pipe} {labels : List Label} {l : Label} {frames : List InFrame}
    (h : Metered pipe labels s) (hl : l.answer pipe = none) (hs : Settles cfg frames s s')
    (hw : Within pipe (labels ++ [l]) s') : Metered pipe (labels ++ [l]) s' := by
  obtain ⟨⟨more, htops, htaken⟩, -⟩ := hs
  obtain ⟨f, hf, hsel'⟩ := htops pipe
  have hgranted : credits pipe s'.taken = credits pipe s.taken + credits pipe more := by
    rw [credits_perm htaken, credits_append, Nat.add_comm]
  intro p c hsel hc hu
  rw [hsel'] at hsel
  obtain ⟨q, hq, rfl⟩ := Option.map_eq_some_iff.mp hsel
  obtain ⟨b, hb, rfl⟩ := Option.map_eq_some_iff.mp hc
  have hbu : b.uncorked = false := by
    by_contra hne
    exact Bool.noConfusion (hu.symm.trans ((hf b).uncorked (Bool.eq_true_of_not_eq_false hne)))
  obtain ⟨hsum, hcov⟩ := h q b hq hb hbu
  rw [Within, received_other hl, hgranted] at hw
  have hfits : b.available + credits pipe more ≤ u64Max := by omega
  have havail : (f b).available = b.available + credits pipe more := (hf b).available hfits
  rw [received_other hl, hgranted]
  refine ⟨by omega, fun cap gated hp => ?_⟩
  obtain ⟨hg, hcap⟩ := hcov cap gated hp
  exact ⟨hg, by omega⟩

lemma Metered.step {pipe : Pipe} {labels : List Label} {l : Label} (h : Metered pipe labels s)
    (hs : step cfg H s l = some s') (hw : Within pipe (labels ++ [l]) s') :
    Metered pipe (labels ++ [l]) s' := by
  by_cases hl : ∃ q action, l = .pump q action
  · obtain ⟨q, action, rfl⟩ := hl
    exact h.pump hs
  · have hne : ∀ q action, l ≠ .pump q action := fun q action he => hl ⟨q, action, he⟩
    refine h.settles ?_ (step_settles hne hs) hw
    cases l with
    | pump q action => exact absurd rfl (hne q action)
    | _ => rfl

lemma Corked.step {l : Label} (h : Corked cfg s) (hs : step cfg H s l = some s') :
    Corked cfg s' := by
  intro hst pipe p c hsel hc
  by_cases hl : ∃ q action, l = .pump q action
  · obtain ⟨q, action, rfl⟩ := hl
    obtain ⟨r, r', hp, hstep⟩ := pumpStep_step hs
    rw [hp.after] at hsel
    split at hsel
    · next heq =>
      subst heq
      obtain rfl := Option.some.inj hsel
      obtain ⟨b, hb, hbu⟩ := Pump.step_uncorked hstep hc
      rw [hbu]
      exact h hst pipe r b hp.selected hb
    · exact h hst pipe p c hsel hc
  · obtain ⟨⟨more, htops, -⟩, -⟩ := step_settles (fun q action he => hl ⟨q, action, he⟩) hs
    obtain ⟨f, hf, hsel'⟩ := htops pipe
    rw [hsel'] at hsel
    obtain ⟨q, hq, rfl⟩ := Option.map_eq_some_iff.mp hsel
    obtain ⟨b, hb, rfl⟩ := Option.map_eq_some_iff.mp hc
    rw [(hf b).corked hst]
    exact h hst pipe q b hq hb

lemma wire_step {l : Label} (hs : Supervisor.step cfg H s l = some s') : s.wire <:+ s'.wire := by
  by_cases hl : ∃ q action, l = .pump q action
  · obtain ⟨q, action, rfl⟩ := hl
    obtain ⟨r, r', hp, -⟩ := pumpStep_step hs
    obtain ⟨s₁, rfl, rfl⟩ := hp.pump
    have hset : (s.setPump q r').wire = s.wire := by cases q <;> rfl
    rw [pumpOut.eq_def, ← hset]
    split
    · exact List.suffix_cons _ _
    · exact List.suffix_refl _
    · exact List.suffix_refl _
  · exact (step_settles (fun q action he => hl ⟨q, action, he⟩) hs).wire

lemma inbox_step {l : Label} (hs : Supervisor.step cfg H s l = some s') :
    s'.inbox.Perm (l.frame?.toList ++ s.inbox) := by
  by_cases hl : ∃ q action, l = .pump q action
  · obtain ⟨q, action, rfl⟩ := hl
    obtain ⟨r, r', hp, -⟩ := pumpStep_step hs
    rw [hp.boxes.2.1]
    exact .refl _
  · exact (step_settles (fun q action he => hl ⟨q, action, he⟩) hs).inbox

lemma connected_step {l : Label} (hs : Supervisor.step cfg H s l = some s')
    (hc : s'.connected = true) : s.connected = true := by
  by_cases hl : ∃ q action, l = .pump q action
  · obtain ⟨q, action, rfl⟩ := hl
    obtain ⟨r, r', hp, -⟩ := pumpStep_step hs
    rwa [hp.boxes.2.2] at hc
  · exact (step_settles (fun q action he => hl ⟨q, action, he⟩) hs).connected hc

lemma run_inbox {labels : List Label}
    (h : Run (fun s l s' => Supervisor.step cfg H s l = some s') s labels s') :
    s'.inbox.Perm (labels.filterMap Label.frame? ++ s.inbox) := by
  refine h.history (I := fun labels t => t.inbox.Perm (labels.filterMap Label.frame? ++ s.inbox)) ?_
    (.refl _)
  intro labels t l t' hi hst
  refine (inbox_step hst).trans ((hi.append_left _).trans ?_)
  rw [List.filterMap_append, ← List.append_assoc]
  refine .append_right _ (List.perm_append_comm.trans ?_)
  cases hl : l.frame? <;> simp [hl]

lemma begin_metered (pipe : Pipe) (clock : Instant) (gated : Bool) (stderr : Option (Pipe × Bool))
    (tracker : Option (Tracker σ)) : Metered pipe [] (begin clock gated stderr tracker) := by
  intro p c hsel hc hu
  obtain ⟨g, rfl⟩ := begin_selected hsel
  cases g with
  | false => cases hc
  | true =>
    obtain rfl := Option.some.inj hc
    refine ⟨rfl, fun cap gated hp => ?_⟩
    cases hp

lemma begin_corked (clock : Instant) (gated : Bool) (stderr : Option (Pipe × Bool))
    (tracker : Option (Tracker σ)) : Corked cfg (begin clock gated stderr tracker) := by
  intro _ pipe p c hsel hc
  obtain ⟨g, rfl⟩ := begin_selected hsel
  cases g with
  | false => cases hc
  | true =>
    obtain rfl := Option.some.inj hc
    rfl

end Supervisor

end Forcola.Native
