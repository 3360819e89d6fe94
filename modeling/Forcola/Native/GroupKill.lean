import Forcola.Library.Transition
import Forcola.Native.SupervisorHealth
import Forcola.Native.TrackedExit

/-! What an untracked run does to its process group and its cgroup, and when it reports. -/

namespace Forcola.Native.Supervisor

open Forcola.Library.Transition

variable {σ : Type} {cfg : Config} {H : Host σ} {s s' : State σ} {v : Untracked}

inductive GroupCall
  | signal (signal : ℕ)
  | probe (gone : Bool)
  | killCgroup
  | drained (empty : Bool)
  | removeCgroup
deriving DecidableEq, Repr

def polled : List Bool → List Bool
  | [] => []
  | true :: _ => [true]
  | false :: rest => false :: polled rest

def killCgroup (cfg : Config) : List GroupCall :=
  if cfg.cgroup then [.killCgroup] else []

def killGroupCalls (cfg : Config) (answers : KillAnswers) : List GroupCall :=
  let interrupt :=
    if cfg.interruptGrace.isSome then
      .signal SIGINT :: (polled answers.interrupt).map .probe
    else []
  if cfg.interruptGrace.isSome && waitUntil answers.interrupt then interrupt ++ killCgroup cfg
  else
    let term := .signal SIGTERM :: (polled answers.term).map .probe
    let kill :=
      if waitUntil answers.term then [] else .signal SIGKILL :: (polled answers.kill).map .probe
    interrupt ++ term ++ kill ++ killCgroup cfg

def finishCgroupCalls (cfg : Config) (polls : List Bool) : List GroupCall :=
  if cfg.cgroup then
    .killCgroup :: (polled polls).map .drained ++ if waitUntil polls then [.removeCgroup] else []
  else []

def Event.stops : Event → Bool
  | .stdin .kill | .stdinClosed | .stdinError | .timedOut | .childExited _ => true
  | _ => false

def groupCalls (cfg : Config) (s : State σ) : Label → List GroupCall
  | .receive answers =>
    match s.mode, s.queue with
    | .untracked u, e :: _ =>
      if e.stops && !u.groupCleanupStarted then killGroupCalls cfg answers else []
    | _, _ => []
  | .finish answers => finishCgroupCalls cfg answers.cgroupDrained
  | _ => []

def Act.isKillGroup : Act → Bool
  | .killGroup _ => true
  | .killRoot | .finishCgroup _ => false

def Frame.isExit : Frame → Bool
  | .exit _ => true
  | .output _ _ | .tracked _ => false

lemma polled_last {polls : List Bool} (h : waitUntil polls = true) :
    ∃ before, polled polls = before ++ [true] := by
  induction polls with
  | nil => cases h
  | cons gone rest ih =>
    cases gone with
    | true => exact ⟨[], rfl⟩
    | false =>
      obtain ⟨before, hb⟩ := ih (by simpa [waitUntil] using h)
      exact ⟨false :: before, by rw [polled, hb, List.cons_append]⟩

/-- The group was found gone and got no signal afterwards. -/
def GoneAtLast (calls : List GroupCall) : Prop :=
  ∃ before after, calls = before ++ .probe true :: after ∧ ∀ n, .signal n ∉ after

lemma GoneAtLast.append {calls more : List GroupCall} (h : GoneAtLast calls)
    (hm : ∀ n, .signal n ∉ more) : GoneAtLast (calls ++ more) := by
  obtain ⟨before, after, rfl, ha⟩ := h
  refine ⟨before, after ++ more, by simp, fun n hn => ?_⟩
  rcases List.mem_append.mp hn with hn | hn
  · exact ha n hn
  · exact hm n hn

lemma GoneAtLast.prepend {calls : List GroupCall} (h : GoneAtLast calls) (more : List GroupCall) :
    GoneAtLast (more ++ calls) := by
  obtain ⟨before, after, rfl, ha⟩ := h
  exact ⟨more ++ before, after, by simp, ha⟩

lemma signalled_gone {polls : List Bool} (h : waitUntil polls = true) (n : ℕ) :
    GoneAtLast (.signal n :: (polled polls).map .probe) := by
  obtain ⟨before, hb⟩ := polled_last h
  refine ⟨.signal n :: before.map .probe, [], ?_, fun _ hn => absurd hn List.not_mem_nil⟩
  rw [hb]
  simp

lemma killCgroup_signal (cfg : Config) (n : ℕ) : .signal n ∉ killCgroup cfg := by
  rw [killCgroup]
  split <;> simp

lemma killGroupCalls_gone {answers : KillAnswers} (h : killGroup cfg answers = true) :
    GoneAtLast (killGroupCalls cfg answers) := by
  rw [killGroup] at h
  rw [killGroupCalls]
  dsimp only
  split at h
  · next hi =>
    rw [if_pos hi]
    simp only [Bool.and_eq_true] at hi
    rw [if_pos hi.1]
    exact (signalled_gone hi.2 SIGINT).append (killCgroup_signal cfg)
  · next hi =>
    rw [if_neg hi]
    refine .append ?_ (killCgroup_signal cfg)
    by_cases ht : waitUntil answers.term = true
    · rw [if_pos ht, List.append_nil]
      exact (signalled_gone ht SIGTERM).prepend _
    · rw [if_neg ht]
      rw [Bool.not_eq_true] at ht
      rw [ht, Bool.false_or] at h
      exact (signalled_gone h SIGKILL).prepend _

lemma finishCgroupCalls_signal (cfg : Config) (polls : List Bool) (n : ℕ) :
    .signal n ∉ finishCgroupCalls cfg polls := by
  rw [finishCgroupCalls]
  split
  · split <;> simp
  · simp

lemma finishCgroupCalls_drained {polls : List Bool} (hc : cfg.cgroup = true)
    (h : waitUntil polls = true) :
    ∃ before, finishCgroupCalls cfg polls = before ++ [.drained true, .removeCgroup] := by
  obtain ⟨before, hb⟩ := polled_last h
  refine ⟨.killCgroup :: before.map .drained, ?_⟩
  rw [finishCgroupCalls, if_pos hc, if_pos h, hb]
  simp

structure Consumed (cfg : Config) (answers : KillAnswers) (s s' : State σ) (v : Untracked)
    (e : Event) : Prop where
  wire : s'.wire = s.wire
  drained : s'.drained = s.drained
  seen : s'.seen = s.seen
  point : s'.point = s.point ∨ s'.point = .finish ∧ e.stops = true
  beamGone : s.beamGone = true ∨ e = .stdinClosed ∨ e = .stdinError → s'.beamGone = true
  calm : (e.stops && !v.groupCleanupStarted) = false → s'.mode = s.mode ∧ s'.acts = s.acts
  kills : (e.stops && !v.groupCleanupStarted) = true →
    s'.mode = .untracked ⟨killGroup cfg answers, true⟩ ∧
      s'.acts = .killGroup (killGroup cfg answers) :: s.acts

lemma stopGroup_consumed {answers : KillAnswers} {e : Event} {d b t : Bool}
    (he : e.stops = true)
    (hb : s.beamGone = true ∨ e = .stdinClosed ∨ e = .stdinError → b = true) : Consumed cfg answers s
      (stopGroup cfg { s with discardOutput := d, beamGone := b, timedOut := t } v answers) v e := by
  rw [stopGroup]
  dsimp only
  split
  · next hs =>
    exact ⟨rfl, rfl, rfl, .inl rfl, hb, fun _ => ⟨rfl, rfl⟩, fun h => by simp [hs] at h⟩
  · next hs =>
    exact ⟨rfl, rfl, rfl, .inl rfl, hb, fun h => by simp [he, hs] at h, fun _ => ⟨rfl, rfl⟩⟩

lemma handleUntracked_consumed (answers : KillAnswers) (e : Event) :
    Consumed cfg answers s (handleUntracked cfg s v answers e) v e := by
  have hgrant : ∀ {t : State σ} {e : Event}, e.stops = false → Kept s t → t.point = s.point →
      t.wire = s.wire → t.drained = s.drained → t.mode = s.mode → Consumed cfg answers s t v e := by
    intro t e he hk hp hw hd hm
    refine ⟨hw, hd, hk.seen, .inl hp, fun h => ?_, fun _ => ⟨hm, hk.acts⟩, fun h => by simp [he] at h⟩
    rcases h with h | rfl | rfl
    · exact hk.beamGone.trans h
    · cases he
    · cases he
  cases e with
  | stdin frame =>
    cases frame with
    | credit payload =>
      refine hgrant rfl (grantStdout_kept s payload) (grantStdout_point s payload) ?_ ?_ ?_
      all_goals
        rw [handleUntracked, State.grantStdout]
        split <;> rfl
    | stderrCredit payload =>
      refine hgrant rfl (grantStderr_kept s payload) (grantStderr_point s payload) ?_ ?_ ?_
      all_goals
        rw [handleUntracked, State.grantStderr]
        split <;> rfl
    | kill => exact stopGroup_consumed rfl (by simp)
    | other tag => exact hgrant rfl (.refl s) rfl rfl rfl rfl
  | stdinClosed | stdinError => exact stopGroup_consumed rfl fun _ => rfl
  | timedOut => exact stopGroup_consumed rfl (by simp)
  | childExited outcome =>
    have h : Consumed cfg answers s (stopGroup cfg s v answers) v (.childExited outcome) :=
      stopGroup_consumed (e := .childExited outcome) (d := s.discardOutput) (b := s.beamGone)
        (t := s.timedOut) rfl (by simp)
    exact ⟨h.wire, h.drained, h.seen, .inr ⟨rfl, rfl⟩, h.beamGone, h.calm, h.kills⟩
  | trackingWriteFailed | childWaitFailed => exact hgrant rfl (.refl s) rfl rfl rfl rfl

def finishActs (cfg : Config) (polls : List Bool) : List Act :=
  if cfg.cgroup then [.finishCgroup (waitUntil polls)] else []

inductive KillStage (cfg : Config) (calls : List GroupCall) (s : State σ) (v : Untracked) : Prop
  | waiting : s.point = .recv → v.groupCleanupStarted = false → s.acts = [] → calls = [] →
      KillStage cfg calls s v
  | killed {answers : KillAnswers} : s.point = .recv ∨ s.point = .finish →
      v = ⟨killGroup cfg answers, true⟩ → s.acts = [.killGroup (killGroup cfg answers)] →
      calls = killGroupCalls cfg answers → KillStage cfg calls s v
  | ended {answers : KillAnswers} {polls : List Bool} : s.point.ended = true →
      v = ⟨killGroup cfg answers, true⟩ →
      s.acts = finishActs cfg polls ++ [.killGroup (killGroup cfg answers)] →
      s.cgroupConfirmed = (!cfg.cgroup || waitUntil polls) →
      calls = killGroupCalls cfg answers ++ finishCgroupCalls cfg polls → KillStage cfg calls s v

structure Told (s : State σ) (v : Untracked) : Prop where
  gone : .stdinClosed ∈ s.seen ∨ .stdinError ∈ s.seen → s.beamGone = true
  left : s.beamGone = true → s.point.ended = true → s.point = .returned true
  lost : (∃ e ∈ s.drained, e.lost = true) → s.point = .returned true
  silent : s.point ≠ .returned false → s.wire.countP Frame.isExit = 0
  single : s.wire.countP Frame.isExit ≤ 1
  report : ∀ r, .exit r ∈ s.wire → r.confirmed = (v.groupConfirmed && s.cgroupConfirmed)

lemma no_exit_wire (h : s.wire.countP Frame.isExit = 0) (r : ExitReport) : .exit r ∉ s.wire := by
  intro hr
  exact absurd rfl (List.countP_eq_zero.mp h _ hr)

lemma Told.quiet (h : Told s v) (hw : s'.wire = s.wire) (hseen : s'.seen = s.seen)
    (hb : s'.beamGone = s.beamGone) (hp : s.point.ended = true)
    (hp' : s'.point = .returned true ∨
      (∀ b, s'.point ≠ .returned b) ∧ ∀ e ∈ s'.drained, e.lost = true → e ∈ s.drained)
    (hn : ∀ b, s.point ≠ .returned b) : Told s' v := by
  have hzero : s'.wire.countP Frame.isExit = 0 := hw ▸ h.silent (hn false)
  refine ⟨fun hs => hb.trans (h.gone (hseen ▸ hs)), fun hbg _ => ?_, ?_, fun _ => hzero,
    hzero.trans_le (Nat.zero_le 1), fun r hr => absurd hr (no_exit_wire hzero r)⟩
  · exact absurd (h.left (hb.symm.trans hbg) hp) (hn true)
  · rintro ⟨e, he, hel⟩
    rcases hp' with hp' | ⟨-, hd⟩
    · exact hp'
    · exact absurd (h.lost ⟨e, hd e he hel, hel⟩) (hn true)

lemma strictEvent_told {completed : ℕ} (hp : s.point = .strict completed .poll) (e : Event) :
    (strictEvent s completed e).wire = s.wire ∧ (strictEvent s completed e).drained = s.drained ∧
      ((strictEvent s completed e).point = .returned true ∨
        e.lost = false ∧ ∀ b, (strictEvent s completed e).point ≠ .returned b) := by
  cases e with
  | stdin frame =>
    cases frame with
    | credit payload =>
      rw [strictEvent, State.grantStdout]
      split <;> exact ⟨rfl, rfl, .inr ⟨rfl, by simp [hp]⟩⟩
    | stderrCredit payload =>
      rw [strictEvent, State.grantStderr]
      split <;> exact ⟨rfl, rfl, .inr ⟨rfl, by simp [hp]⟩⟩
    | kill => exact ⟨rfl, rfl, .inr ⟨rfl, by simp [strictEvent, State.startDrain]⟩⟩
    | other tag => exact ⟨rfl, rfl, .inr ⟨rfl, by simp [strictEvent, hp]⟩⟩
  | stdinClosed | stdinError | trackingWriteFailed => exact ⟨rfl, rfl, .inl rfl⟩
  | childExited | childWaitFailed | timedOut =>
    exact ⟨rfl, rfl, .inr ⟨rfl, by simp [strictEvent, hp]⟩⟩

lemma strictStep_told {completed : ℕ} {point : StrictPoint} {hungUp : Bool}
    (hp : s.point = .strict completed point)
    (hs : strictStep s completed point hungUp = some s') : s'.wire = s.wire ∧
      (s'.point = .returned true ∨
        (∀ b, s'.point ≠ .returned b) ∧ ∀ e ∈ s'.drained, e.lost = true → e ∈ s.drained) := by
  rw [strictStep.eq_def] at hs
  cases point with
  | check =>
    dsimp only at hs
    split at hs
    · split at hs
      · split at hs
        · cases hs
        · obtain rfl := Option.some.inj hs
          exact ⟨rfl, .inl rfl⟩
      · obtain rfl := Option.some.inj hs
        exact ⟨rfl, .inr ⟨by simp, fun _ he _ => he⟩⟩
    · obtain rfl := Option.some.inj hs
      exact ⟨rfl, .inr ⟨by simp, fun _ he _ => he⟩⟩
  | poll =>
    dsimp only at hs
    split at hs
    · obtain rfl := Option.some.inj hs
      exact ⟨rfl, .inr ⟨by simp, fun _ he _ => he⟩⟩
    · next e rest _ =>
      obtain rfl := Option.some.inj hs
      obtain ⟨hw, hd, hpt⟩ := strictEvent_told
        (s := { s with queue := rest, drained := e :: s.drained }) hp e
      refine ⟨hw, hpt.imp id fun h => ⟨h.2, fun e' he' hel => ?_⟩⟩
      rw [hd] at he'
      rcases List.mem_cons.mp he' with rfl | he'
      · exact Bool.noConfusion (h.1.symm.trans hel)
      · exact he'
  | wait =>
    dsimp only at hs
    split at hs
    · obtain rfl := Option.some.inj hs
      exact ⟨rfl, .inr ⟨by simp, fun _ he _ => he⟩⟩
    · split at hs
      all_goals
        obtain rfl := Option.some.inj hs
        exact ⟨rfl, .inr ⟨by simp, fun _ he _ => he⟩⟩

lemma drainStep_told {remaining : ℕ} {deadline : Instant} {cut : Bool}
    (hs : drainStep s remaining deadline cut = some s') : s'.wire = s.wire ∧
      s'.drained = s.drained ∧ ∀ b, s'.point ≠ .returned b := by
  cases remaining with
  | zero =>
    obtain rfl := Option.some.inj hs
    exact ⟨rfl, rfl, by simp⟩
  | succ remaining =>
    simp only [drainStep] at hs
    split at hs
    · obtain rfl := Option.some.inj hs
      exact ⟨rfl, rfl, by simp⟩
    · split at hs
      · obtain rfl := Option.some.inj hs
        exact ⟨rfl, rfl, by simp⟩
      · split at hs
        · obtain rfl := Option.some.inj hs
          exact ⟨rfl, rfl, by simp⟩
        · cases hs

lemma untracked_kept (hm : s.mode = .untracked v) (hk : Kept s s') : s'.mode = .untracked v := by
  have hc := hk.mode
  rw [hm] at hc
  cases hm' : s'.mode with
  | untracked w =>
    rw [hm'] at hc
    exact hc
  | tracked t =>
    rw [hm'] at hc
    cases hc

lemma thread_told {l : Label} (hm : s.mode = .untracked v) (hl : l.thread = true)
    (hs : step cfg H s l = some s') : s'.mode = .untracked v ∧ s'.drained = s.drained ∧
      s'.wire.countP Frame.isExit = s.wire.countP Frame.isExit := by
  refine ⟨untracked_kept hm (thread_kept hl hs).1, ?_⟩
  cases l with
  | send | timer | hangUp | elapse =>
    obtain rfl := Option.some.inj hs
    exact ⟨rfl, rfl⟩
  | closed | readFailed =>
    simp only [step] at hs
    split at hs
    · cases hs
    · obtain rfl := Option.some.inj hs
      exact ⟨rfl, rfl⟩
  | childExits outcome =>
    simp only [step, childExits] at hs
    split at hs
    · split at hs
      all_goals
        obtain rfl := Option.some.inj hs
        exact ⟨rfl, rfl⟩
    · cases hs
  | pump pipe action =>
    simp only [step, pumpStep, Option.bind_eq_some_iff] at hs
    obtain ⟨p, -, hs⟩ := hs
    split at hs
    · cases hs
    · obtain ⟨p', -, rfl⟩ := Option.map_eq_some_iff.mp hs
      rw [pumpOut.eq_def]
      cases pipe <;> split <;> exact ⟨rfl, rfl⟩
  | deliver ok => simp [step, deliver, hm] at hs
  | _ => cases hl

structure Finishing (cfg : Config) (answers : FinishAnswers) (s s' : State σ) : Prop where
  mode : s'.mode = s.mode
  acts : s'.acts = finishActs cfg answers.cgroupDrained ++ s.acts
  cgroupConfirmed : s'.cgroupConfirmed = (!cfg.cgroup || waitUntil answers.cgroupDrained)
  wire : s'.wire = s.wire
  seen : s'.seen = s.seen
  drained : s'.drained = s.drained
  beamGone : s'.beamGone = s.beamGone
  ended : s'.point.ended = true
  point : s.beamGone = true ∧ s'.point = .returned true ∨
    s.beamGone = false ∧ ∀ b, s'.point ≠ .returned b

lemma finishUntracked_finishing (answers : FinishAnswers) :
    Finishing cfg answers s (finishUntracked cfg s answers) := by
  rw [finishUntracked]
  dsimp only
  generalize hs0 : (if cfg.strictOutput then s else s.uncork) = s0
  have h0 : s0.mode = s.mode ∧ s0.acts = s.acts ∧ s0.wire = s.wire ∧ s0.seen = s.seen ∧
      s0.drained = s.drained ∧ s0.beamGone = s.beamGone := by
    rw [← hs0]
    split <;> exact ⟨rfl, rfl, rfl, rfl, rfl, rfl⟩
  obtain ⟨h1, h2, h3, h4, h5, h6⟩ := h0
  generalize hs1 : finishCgroup cfg { s0 with clock := s0.clock + answers.took }
    answers.cgroupDrained = s1
  have hc : s1.acts = finishActs cfg answers.cgroupDrained ++ s.acts ∧
      s1.cgroupConfirmed = (!cfg.cgroup || waitUntil answers.cgroupDrained) ∧
      s1.mode = s.mode ∧ s1.wire = s.wire ∧ s1.seen = s.seen ∧ s1.drained = s.drained ∧
      s1.beamGone = s.beamGone := by
    rw [← hs1, finishCgroup, finishActs]
    split
    · next hcg => exact ⟨by rw [h2]; rfl, by simp [hcg], h1, h3, h4, h5, h6⟩
    · next hcg => exact ⟨by rw [h2]; rfl, by simp [hcg], h1, h3, h4, h5, h6⟩
  obtain ⟨ha, hcc, hm, hw, hse, hd, hb⟩ := hc
  split
  · next hg => exact ⟨hm, ha, hcc, hw, hse, hd, hb, rfl, .inl ⟨hb.symm.trans hg, rfl⟩⟩
  · next hg =>
    have hg : s.beamGone = false := by
      rw [hb] at hg
      simpa using hg
    split
    · split
      · exact ⟨hm, ha, hcc, hw, hse, hd, hb, rfl, .inr ⟨hg, by simp [State.startDrain]⟩⟩
      · exact ⟨hm, ha, hcc, hw, hse, hd, hb, rfl, .inr ⟨hg, by simp⟩⟩
    · exact ⟨hm, ha, hcc, hw, hse, hd, hb, rfl, .inr ⟨hg, by simp [State.startDrain]⟩⟩

def Alone (cfg : Config) (calls : List GroupCall) (s : State σ) : Prop :=
  ∃ v, s.mode = .untracked v ∧ KillStage cfg calls s v ∧ Told s v

lemma KillStage.kept {calls : List GroupCall} (h : KillStage cfg calls s v) (hk : Kept s s')
    (hp : s'.point = s.point) : KillStage cfg calls s' v := by
  cases h with
  | waiting hpt hv ha hc => exact .waiting (hp.trans hpt) hv (hk.acts.trans ha) hc
  | killed hpt hv ha hc => exact .killed (hp ▸ hpt) hv (hk.acts.trans ha) hc
  | ended hpt hv ha hcc hc =>
    exact .ended (hp ▸ hpt) hv (hk.acts.trans ha) (hk.cgroupConfirmed.trans hcc) hc

lemma KillStage.later {calls : List GroupCall} (h : KillStage cfg calls s v)
    (hp : s.point.ended = true) (hk : s'.acts = s.acts)
    (hc : s'.cgroupConfirmed = s.cgroupConfirmed) (hp' : s'.point.ended = true) :
    KillStage cfg calls s' v := by
  cases h with
  | waiting hpt => simp [hpt, Point.ended] at hp
  | killed hpt => rcases hpt with hpt | hpt <;> simp [hpt, Point.ended] at hp
  | ended _ hv ha hcc hcl => exact .ended hp' hv (hk.trans ha) (hc.trans hcc) hcl

lemma Alone.thread {calls : List GroupCall} {l : Label} (h : Alone cfg calls s)
    (hl : l.thread = true) (hs : step cfg H s l = some s') :
    Alone cfg (calls ++ groupCalls cfg s l) s' := by
  obtain ⟨v, hm, hst, ht⟩ := h
  obtain ⟨hk, hp⟩ := thread_kept hl hs
  obtain ⟨hm', hd, hw⟩ := thread_told hm hl hs
  have hcalls : groupCalls cfg s l = [] := by
    cases l <;> first | rfl | cases hl
  rw [hcalls, List.append_nil]
  refine ⟨v, hm', hst.kept hk hp, ?_⟩
  refine ⟨fun hs => hk.beamGone.trans (ht.gone (hk.seen ▸ hs)), fun hb he => ?_, ?_, ?_, ?_, ?_⟩
  · rw [hp] at he ⊢
    exact ht.left (hk.beamGone ▸ hb) he
  · rw [hd, hp]
    exact ht.lost
  · rw [hp, hw]
    exact ht.silent
  · rw [hw]
    exact ht.single
  · intro r hr
    have hmem := hk.exits r (List.mem_append_left _ hr)
    rw [State.frames, hm, Mode.control, List.append_nil] at hmem
    rw [hk.cgroupConfirmed]
    exact ht.report r hmem

lemma Alone.receive {calls : List GroupCall} {answers : KillAnswers} (h : Alone cfg calls s)
    (hp : s.point = .recv) (hs : receive cfg s answers = some s') :
    Alone cfg (calls ++ groupCalls cfg s (.receive answers)) s' := by
  obtain ⟨v, hm, hst, ht⟩ := h
  cases hq : s.queue with
  | nil =>
    rw [Supervisor.receive, hq] at hs
    cases hs
  | cons e rest =>
    rw [receive_untracked hm hq] at hs
    obtain rfl := Option.some.inj hs
    have hc : Consumed cfg answers { s with queue := rest, seen := e :: s.seen } _ v e :=
      handleUntracked_consumed answers e
    generalize handleUntracked cfg _ v answers e = s1 at hc ⊢
    have hcalls : groupCalls cfg s (.receive answers) =
        if e.stops && !v.groupCleanupStarted then killGroupCalls cfg answers else [] := by
      simp only [groupCalls, hm, hq]
    have hpt : s1.point = .recv ∨ s1.point = .finish ∧ e.stops = true :=
      hc.point.imp (fun hpt => hpt.trans hp) id
    have hend : s1.point.ended = false := by
      rcases hpt with hpt | ⟨hpt, -⟩ <;> simp [hpt, Point.ended]
    have hzero : s1.wire.countP Frame.isExit = 0 := by
      rw [hc.wire]
      exact ht.silent (by simp [hp])
    have htold : ∀ w, Told s1 w := by
      refine fun w => ⟨fun hs => ?_, fun _ he => Bool.noConfusion (hend.symm.trans he), ?_,
        fun _ => hzero, hzero.trans_le (Nat.zero_le 1),
        fun r hr => absurd hr (no_exit_wire hzero r)⟩
      · refine hc.beamGone ?_
        rw [hc.seen, List.mem_cons, List.mem_cons] at hs
        rcases hs with (hs | hs) | (hs | hs)
        · exact .inr (.inl hs.symm)
        · exact .inl (ht.gone (.inl hs))
        · exact .inr (.inr hs.symm)
        · exact .inl (ht.gone (.inr hs))
      · intro hl
        rw [hc.drained] at hl
        have := ht.lost hl
        simp [hp] at this
    rw [hcalls]
    cases hk : e.stops && !v.groupCleanupStarted with
    | false =>
      obtain ⟨hm1, ha1⟩ := hc.calm hk
      rw [if_neg Bool.false_ne_true, List.append_nil]
      refine ⟨v, hm1.trans hm, ?_, htold v⟩
      cases hst with
      | waiting _ hv ha hcl =>
        refine .waiting (hpt.resolve_right fun hfinish => ?_) hv (ha1.trans ha) hcl
        simp [hfinish.2, hv] at hk
      | killed _ hv ha hcl => exact .killed (hpt.imp id (·.1)) hv (ha1.trans ha) hcl
      | ended he => simp [hp, Point.ended] at he
    | true =>
      obtain ⟨hm1, ha1⟩ := hc.kills hk
      rw [if_pos rfl]
      refine ⟨_, hm1, ?_, htold _⟩
      cases hst with
      | waiting _ hv ha hcl =>
        refine KillStage.killed (hpt.imp id (·.1))
          (rfl : _ = Untracked.mk (killGroup cfg answers) true) ?_ ?_
        · rw [ha1]
          exact congrArg _ ha
        · rw [hcl, List.nil_append]
      | killed _ hv => simp [hv] at hk
      | ended he => simp [hp, Point.ended] at he

lemma Alone.finish {calls : List GroupCall} {answers : FinishAnswers} (h : Alone cfg calls s)
    (hp : s.point = .finish) (hs : step cfg H s (.finish answers) = some s') :
    Alone cfg (calls ++ groupCalls cfg s (.finish answers)) s' := by
  obtain ⟨v, hm, hst, ht⟩ := h
  simp only [step, hp, hm] at hs
  obtain rfl := Option.some.inj hs
  have hf : Finishing cfg answers s _ := finishUntracked_finishing answers
  generalize finishUntracked cfg s answers = s1 at hf ⊢
  have hzero : s1.wire.countP Frame.isExit = 0 := by
    rw [hf.wire]
    exact ht.silent (by simp [hp])
  refine ⟨v, hf.mode.trans hm, ?_, ?_⟩
  · cases hst with
    | waiting hpt => simp [hp] at hpt
    | killed _ hv ha hcl =>
      refine .ended hf.ended hv (?_ : _ = finishActs cfg answers.cgroupDrained ++ _)
        hf.cgroupConfirmed ?_
      · rw [hf.acts, ha]
      · rw [hcl]
        rfl
    | ended he => simp [hp, Point.ended] at he
  · refine ⟨fun hs => hf.beamGone.trans (ht.gone (hf.seen ▸ hs)), fun hb _ => ?_, fun hl => ?_,
      fun _ => hzero, hzero.trans_le (Nat.zero_le 1), fun r hr => absurd hr (no_exit_wire hzero r)⟩
    · rcases hf.point with ⟨-, hpt⟩ | ⟨hg, -⟩
      · exact hpt
      · exact Bool.noConfusion (hg.symm.trans (hf.beamGone.symm.trans hb))
    · rw [hf.drained] at hl
      have := ht.lost hl
      simp [hp] at this

lemma Alone.later {calls : List GroupCall} (h : Alone cfg calls s) (hk : Kept s s')
    (hp : s.point.ended = true) (hp' : s'.point.ended = true) (hn : ∀ b, s.point ≠ .returned b)
    (hw : s'.wire = s.wire) (hpt : s'.point = .returned true ∨
      (∀ b, s'.point ≠ .returned b) ∧ ∀ e ∈ s'.drained, e.lost = true → e ∈ s.drained) :
    Alone cfg calls s' := by
  obtain ⟨v, hm, hst, ht⟩ := h
  exact ⟨v, untracked_kept hm hk, hst.later hp hk.acts hk.cgroupConfirmed hp',
    ht.quiet hw hk.seen hk.beamGone hp hpt hn⟩

lemma Alone.strict {calls : List GroupCall} {completed : ℕ} {point : StrictPoint} {hungUp : Bool}
    (h : Alone cfg calls s) (hp : s.point = .strict completed point)
    (hs : strictStep s completed point hungUp = some s') : Alone cfg calls s' := by
  obtain ⟨hk, hend⟩ := strictStep_kept hp hs
  obtain ⟨hw, hpt⟩ := strictStep_told hp hs
  exact h.later hk (by rw [hp]; rfl) hend (by simp [hp]) hw hpt

lemma Alone.drain {calls : List GroupCall} {remaining : ℕ} {deadline : Instant} {cut : Bool}
    (h : Alone cfg calls s) (hp : s.point = .drain remaining deadline cut)
    (hs : drainStep s remaining deadline cut = some s') : Alone cfg calls s' := by
  obtain ⟨hk, hend⟩ := drainStep_kept hs
  obtain ⟨hw, hd, hpt⟩ := drainStep_told hs
  exact h.later hk (by rw [hp]; rfl) hend (by simp [hp]) hw (.inr ⟨hpt, fun e he _ => hd ▸ he⟩)

lemma Alone.report {calls : List GroupCall} {truncated ok : Bool} (h : Alone cfg calls s)
    (hp : s.point = .report truncated) (hs : reportStep cfg H s truncated ok = some s') :
    Alone cfg calls s' := by
  obtain ⟨v, hm, hst, ht⟩ := h
  have he : s.point.ended = true := by rw [hp]; rfl
  have hzero := ht.silent (by simp [hp])
  have hb : s.beamGone = false := by
    by_contra hb
    rw [Bool.not_eq_false] at hb
    have := ht.left hb he
    simp [hp] at this
  have hlost : ¬ ∃ e ∈ s.drained, e.lost = true := by
    intro hl
    have := ht.lost hl
    simp [hp] at this
  simp only [reportStep, hm] at hs
  split at hs
  · obtain rfl := Option.some.inj hs
    refine ⟨v, rfl, hst.later he rfl rfl rfl, ht.gone, fun hb' => ?_, fun hl => absurd hl hlost,
      fun hr => absurd rfl hr, ?_, fun r hr => ?_⟩
    · exact Bool.noConfusion (hb.symm.trans hb')
    · rw [List.countP_cons, hzero]
      split <;> simp
    · rcases List.mem_cons.mp hr with hr | hr
      · obtain rfl := Frame.exit.inj hr
        simp [State.exitReport, hm]
      · exact absurd hr (no_exit_wire hzero r)
  · split at hs
    · cases hs
    · obtain rfl := Option.some.inj hs
      exact ⟨v, rfl, hst.later he rfl rfl rfl, ht.gone,
        fun hb' => Bool.noConfusion (hb.symm.trans hb'), fun hl => absurd hl hlost,
        fun _ => hzero, ht.single, ht.report⟩

lemma Alone.step {calls : List GroupCall} {l : Label} (h : Alone cfg calls s)
    (hs : step cfg H s l = some s') : Alone cfg (calls ++ groupCalls cfg s l) s' := by
  by_cases hl : l.thread = true
  · exact h.thread hl hs
  have ⟨v, hm, _⟩ := h
  rw [Supervisor.step.eq_def] at hs
  split at hs
  iterate 9 exact absurd rfl hl
  · simp [hm] at hs
  · next hp => exact h.receive hp hs
  · simp [timeout, hm] at hs
  · simp [disconnected, hm] at hs
  · next answers hp =>
    refine h.finish (H := H) hp ?_
    simp only [Supervisor.step, hp]
    exact hs
  · next hp =>
    show Alone cfg (calls ++ []) s'
    rw [List.append_nil]
    exact h.strict hp hs
  · next hp =>
    show Alone cfg (calls ++ []) s'
    rw [List.append_nil]
    exact h.drain hp hs
  · next hp =>
    show Alone cfg (calls ++ []) s'
    rw [List.append_nil]
    exact h.report hp hs
  · simp [collectStep, hm] at hs
  · cases hs

def groupTrace (cfg : Config) (H : Host σ) (s : State σ) (labels : List Label) : List GroupCall :=
  observe (step cfg H) (groupCalls cfg) s labels

lemma run_alone {clock : Instant} {stdout : Pump} {stderr : Option Pump} {labels : List Label}
    (h : Run (fun s l s' => step cfg H s l = some s') (start clock stdout stderr none) labels s) :
    Alone cfg (groupTrace cfg H (start clock stdout stderr none) labels) s := by
  have hrun := h.history (I := fun labels s =>
    Run (fun s l s' => step cfg H s l = some s') (start clock stdout stderr none) labels s ∧
      Alone cfg (groupTrace cfg H (start clock stdout stderr none) labels) s) ?_ ⟨.nil _, ?_⟩
  · exact hrun.2
  · rintro labels s l s' ⟨hr, ha⟩ hs
    refine ⟨hr.snoc hs, ?_⟩
    rw [groupTrace, observe_snoc hr]
    exact ha.step hs
  · refine ⟨⟨true, false⟩, rfl, .waiting rfl rfl rfl rfl, ?_⟩
    refine ⟨?_, ?_, ?_, fun _ => rfl, Nat.zero_le 1, ?_⟩ <;> simp [start, Point.ended]

lemma returned_final {l : Label} {b : Bool} (hp : s.point = .returned b)
    (hs : step cfg H s l = some s') : s'.point = .returned b := by
  by_cases hl : l.thread = true
  · exact (thread_kept hl hs).2.trans hp
  rw [step.eq_def] at hs
  split at hs
  iterate 9 exact absurd rfl hl
  iterate 9 next hpt => simp [hp] at hpt
  cases hs

lemma KillStage.kills {calls : List GroupCall} (h : KillStage cfg calls s v) :
    s.acts.countP Act.isKillGroup ≤ 1 ∧
      (s.point.ended = true → s.acts.countP Act.isKillGroup = 1) := by
  have hf : ∀ polls, (finishActs cfg polls).countP Act.isKillGroup = 0 := by
    intro polls
    rw [finishActs]
    split <;> rfl
  cases h with
  | waiting hp _ ha => simp [ha, hp, Point.ended]
  | killed _ _ ha => simp [ha, Act.isKillGroup]
  | ended _ _ ha => simp [ha, hf, Act.isKillGroup]

lemma Alone.silent {calls : List GroupCall} (h : Alone cfg calls s)
    (hl : .stdinClosed ∈ s.seen ∨ .stdinError ∈ s.seen ∨ (∃ e ∈ s.drained, e.lost = true) ∨
      s.point = .returned true) (r : ExitReport) : .exit r ∉ s.wire := by
  obtain ⟨v, -, -, ht⟩ := h
  have hgone : s.beamGone = true → s.point ≠ .returned false := by
    intro hb hp
    have := ht.left hb (by rw [hp]; rfl)
    simp [hp] at this
  refine no_exit_wire (ht.silent ?_) r
  rcases hl with hl | hl | hl | hl
  · exact hgone (ht.gone (.inl hl))
  · exact hgone (ht.gone (.inr hl))
  · simp [ht.lost hl]
  · simp [hl]

lemma Alone.confirmed {calls : List GroupCall} {r : ExitReport} (h : Alone cfg calls s)
    (hr : .exit r ∈ s.wire) (hc : r.confirmed = true) : GoneAtLast calls ∧
      (cfg.cgroup = true → ∃ before, calls = before ++ [.drained true, .removeCgroup]) := by
  obtain ⟨v, -, hst, ht⟩ := h
  have hp : s.point = .returned false := by
    by_contra hp
    exact no_exit_wire (ht.silent hp) r hr
  rw [ht.report r hr, Bool.and_eq_true] at hc
  cases hst with
  | waiting hpt => simp [hp] at hpt
  | killed hpt => simp [hp] at hpt
  | @ended answers polls _ hv ha hcc hcl =>
    rw [hv] at hc
    refine ⟨?_, fun hcg => ?_⟩
    · rw [hcl]
      exact (killGroupCalls_gone hc.1).append (finishCgroupCalls_signal cfg polls)
    · rw [hcc, hcg, Bool.not_true, Bool.false_or] at hc
      obtain ⟨before, hb⟩ := finishCgroupCalls_drained hcg hc.2
      exact ⟨killGroupCalls cfg answers ++ before, by rw [hcl, hb, List.append_assoc]⟩

/-- An untracked run kills its group once, finishes its cgroup before it returns, writes at most
one EXIT and none to a lost peer, and confirms only what its last probes observed. -/
theorem untracked_supervision (cfg : Config) (H : Host σ) (clock : Instant) (stdout : Pump)
    (stderr : Option Pump) (labels : List Label) (s : State σ)
    (hrun : Run (fun s l s' => step cfg H s l = some s') (start clock stdout stderr none) labels s) :
    (s.acts.countP Act.isKillGroup ≤ 1 ∧
      ∀ b, s.point = .returned b → s.acts.countP Act.isKillGroup = 1) ∧
    s.wire.countP Frame.isExit ≤ 1 ∧
    (.stdinClosed ∈ s.seen ∨ .stdinError ∈ s.seen ∨ (∃ e ∈ s.drained, e.lost = true) →
      ∀ r, .exit r ∉ s.wire) ∧
    (∀ before after t completed, labels = before ++ .strict true :: after →
      Run (fun s l s' => step cfg H s l = some s') (start clock stdout stderr none) before t →
      t.point = .strict completed .check → completed < t.pumps → ∀ r, .exit r ∉ s.wire) ∧
    (∀ b, s.point = .returned b → cfg.cgroup = true → ∃ drained, .finishCgroup drained ∈ s.acts) ∧
    ∀ r, .exit r ∈ s.wire → r.confirmed = true →
      GoneAtLast (groupTrace cfg H (start clock stdout stderr none) labels) ∧
      (cfg.cgroup = true → ∃ before, groupTrace cfg H (start clock stdout stderr none) labels =
        before ++ [.drained true, .removeCgroup]) := by
  have h := run_alone hrun
  obtain ⟨v, -, hst, ht⟩ := id h
  refine ⟨⟨hst.kills.1, fun b hp => hst.kills.2 (by rw [hp]; rfl)⟩, ht.single, fun hl => ?_, ?_,
    fun b hp hcg => ?_, fun r hr hc => h.confirmed hr hc⟩
  · exact h.silent (hl.imp id fun hl => hl.imp id .inl)
  · rintro before after t completed rfl ht hp hlt
    have hsplit := run_exec hrun
    rw [exec_append, run_exec ht, Option.bind_some, exec, Option.bind_eq_some_iff] at hsplit
    obtain ⟨u, hu, hafter⟩ := hsplit
    have hup : u.point = .returned true := by
      simp only [step, hp, strictStep, if_pos hlt, if_true] at hu
      split at hu
      · cases hu
      · obtain rfl := Option.some.inj hu
        rfl
    refine h.silent (.inr (.inr (.inr ?_)))
    exact (exec_run hafter).invariant (I := fun s => s.point = .returned true)
      (fun _ _ _ hs hst => returned_final hs hst) hup
  · cases hst with
    | waiting hpt => simp [hp] at hpt
    | killed hpt => simp [hp] at hpt
    | @ended answers polls _ _ ha =>
      refine ⟨waitUntil polls, ?_⟩
      rw [ha, finishActs, if_pos hcg]
      exact List.mem_append_left _ (List.mem_singleton.mpr rfl)

def plainLabels : List Label :=
  [.childExits (some ⟨some 0, none⟩), .receive ⟨[], [false, true], []⟩,
    .finish ⟨0, [], [false, true]⟩, .pump .stdout .permit, .pump .stdout (.read .eof),
    .pump .stdout .done, .drain, .drain, .report true]

theorem untracked_supervision_plain :
    ∃ s r, exec (step quietConfig (quietMachine 1000)) (start 0 (.new .stdout false) none none)
        plainLabels = some s ∧ .exit r ∈ s.wire ∧
      GoneAtLast (groupTrace quietConfig (quietMachine 1000)
        (start 0 (.new .stdout false) none none) plainLabels) := by
  have hk : (exec (step quietConfig (quietMachine 1000)) (start 0 (.new .stdout false) none none)
      plainLabels).any (fun s => s.wire.any fun f =>
        match f with | .exit r => r.confirmed | _ => false) = true := by
    decide +kernel
  obtain ⟨s, hs, hk⟩ := Option.any_eq_true .. |>.mp hk
  obtain ⟨f, hf, hc⟩ := List.any_eq_true.mp hk
  cases f with
  | exit r =>
    exact ⟨s, r, hs, hf, ((untracked_supervision quietConfig (quietMachine 1000) 0 _ _ plainLabels s
      (exec_run hs)).2.2.2.2.2 r hf hc).1⟩
  | output | tracked => cases hc

end Forcola.Native.Supervisor
