import Forcola.Library.Transition
import Forcola.Native.SupervisorHealth
import Forcola.Native.TrackedExit

/-! Where output stands when an EXIT is written. -/

namespace Forcola.Native

def ReadAnswer.payload : ReadAnswer → Bytes
  | .data bytes => bytes
  | .eof | .interrupted | .failed => []

def Pump.cancelled (p : Pump) : Bool :=
  p.credit.any (·.cancelled)

@[simp] lemma Pump.uncork_cancelled (p : Pump) :
    (p.onCredit Credit.uncork).cancelled = p.cancelled := by
  rw [Pump.cancelled, Pump.onCredit, Option.any_map]
  rfl

@[simp] lemma Pump.grant_cancelled (p : Pump) (n : ℕ) :
    (p.onCredit (·.grant n)).cancelled = p.cancelled := by
  rw [Pump.cancelled, Pump.onCredit, Option.any_map]
  rfl

inductive Moves (cancelled : Bool) : PumpPoint → PumpAction → PumpPoint → Prop
  | permit {cap : ℕ} {gated : Bool} : Moves cancelled .awaiting .permit (.reading cap gated)
  | cancel : cancelled = true → Moves cancelled .awaiting .permit .closing
  | data {cap : ℕ} {gated : Bool} {bytes : Bytes} :
      Moves cancelled (.reading cap gated) (.read (.data bytes)) (.writing bytes)
  | eof {cap : ℕ} {gated : Bool} : Moves cancelled (.reading cap gated) (.read .eof) .closing
  | interrupted {cap : ℕ} {gated : Bool} :
      Moves cancelled (.reading cap gated) (.read .interrupted) .awaiting
  | failed {cap : ℕ} {gated : Bool} : Moves cancelled (.reading cap gated) (.read .failed) .closing
  | written {bytes : Bytes} : Moves cancelled (.writing bytes) (.write true) .awaiting
  | unwritten {bytes : Bytes} : Moves cancelled (.writing bytes) (.write false) .closing
  | done : Moves cancelled .closing .done .closed

lemma Pump.step_moves {p p' : Pump} {action : PumpAction} (h : p.step action = some p') :
    p'.tag = p.tag ∧ p'.cancelled = p.cancelled ∧ Moves p.cancelled p.point action p'.point := by
  rw [Pump.step.eq_def] at h
  split at h
  · next hp =>
    rw [Pump.permit] at h
    split at h
    · obtain rfl := Option.some.inj h
      exact ⟨rfl, rfl, hp ▸ .permit⟩
    · next credit hc =>
      obtain ⟨permit, hpermit, rfl⟩ := Option.map_eq_some_iff.mp h
      cases permit with
      | read | uncork => exact ⟨rfl, rfl, hp ▸ .permit⟩
      | cancel =>
        refine ⟨rfl, rfl, hp ▸ .cancel ?_⟩
        simp only [Credit.awaitPermit] at hpermit
        split at hpermit
        · next hcan => simp [Pump.cancelled, hc, hcan]
        · split at hpermit
          · cases hpermit
          · split at hpermit <;> cases hpermit
  · next cap gated answer hp =>
    cases answer with
    | data bytes =>
      dsimp only at h
      split at h
      · cases h
      · obtain rfl := Option.some.inj h
        cases gated with
        | false => exact ⟨rfl, rfl, hp ▸ .data⟩
        | true =>
          refine ⟨rfl, ?_, hp ▸ .data⟩
          simp only [Pump.cancelled, Pump.onCredit, if_true, Option.any_map]
          rfl
    | eof =>
      obtain rfl := Option.some.inj h
      exact ⟨rfl, rfl, hp ▸ .eof⟩
    | interrupted =>
      obtain rfl := Option.some.inj h
      exact ⟨rfl, rfl, hp ▸ .interrupted⟩
    | failed =>
      obtain rfl := Option.some.inj h
      exact ⟨rfl, rfl, hp ▸ .failed⟩
  · next bytes ok hp =>
    obtain rfl := Option.some.inj h
    cases ok with
    | true => exact ⟨rfl, rfl, hp ▸ .written⟩
    | false => exact ⟨rfl, rfl, hp ▸ .unwritten⟩
  · next hp =>
    obtain rfl := Option.some.inj h
    exact ⟨rfl, rfl, hp ▸ .done⟩
  · cases h

namespace Supervisor

open Forcola.Library.Transition

variable {σ : Type} {cfg : Config} {H : Host σ} {s s' : State σ} {u : Tracked σ}

def Label.answer (pipe : Pipe) : Label → Option ReadAnswer
  | .pump p (.read a) => if p = pipe then some a else none
  | _ => none

def answers (pipe : Pipe) (labels : List Label) : List ReadAnswer :=
  labels.filterMap (Label.answer pipe)

def received (pipe : Pipe) (labels : List Label) : Bytes :=
  (answers pipe labels).flatMap ReadAnswer.payload

def Frame.output? : Frame → Option (Pipe × Bytes)
  | .output tag bytes => some (tag, bytes)
  | .tracked _ | .exit _ => none

def Label.wrote? : Label → Option Pipe
  | .pump pipe (.write true) => some pipe
  | _ => none

def writes (labels : List Label) : List Pipe :=
  labels.filterMap Label.wrote?

def outputs (wire : List Frame) : List (Pipe × Bytes) :=
  wire.reverse.filterMap Frame.output?

def carried (pipe : Pipe) (chunks : List (Pipe × Bytes)) : Bytes :=
  (chunks.filter (·.1 = pipe)).flatMap (·.2)

/-- The tag each pipe's bytes are sent under: stderr may ride the STDOUT tag. -/
def route (stderr : Option (Pipe × Bool)) : Pipe → Pipe
  | .stdout => .stdout
  | .stderr => (stderr.map (·.1)).getD .stderr

/-- A run as `run_with_capabilities` begins it: the stdout pump, and outside a pty the stderr
pump with its tag, each with or without a read budget. -/
def begin (clock : Instant) (gated : Bool) (stderr : Option (Pipe × Bool))
    (tracker : Option (Tracker σ)) : State σ :=
  start clock (.new .stdout gated) (stderr.map fun p => .new p.1 p.2) tracker

lemma answers_snoc (pipe : Pipe) (labels : List Label) (l : Label) :
    answers pipe (labels ++ [l]) = answers pipe labels ++ (l.answer pipe).toList := by
  rw [answers, answers, List.filterMap_append]
  cases h : l.answer pipe <;> simp [h]

lemma writes_snoc (labels : List Label) (l : Label) :
    writes (labels ++ [l]) = writes labels ++ l.wrote?.toList := by
  rw [writes, writes, List.filterMap_append]
  cases h : l.wrote? <;> simp [h]

lemma received_snoc (pipe : Pipe) (labels : List Label) (l : Label) : received pipe (labels ++ [l]) =
    received pipe labels ++ (l.answer pipe).toList.flatMap ReadAnswer.payload := by
  rw [received, received, answers_snoc, List.flatMap_append]

@[simp] lemma outputs_cons (f : Frame) (wire : List Frame) :
    outputs (f :: wire) = outputs wire ++ f.output?.toList := by
  rw [outputs, outputs, List.reverse_cons, List.filterMap_append]
  cases h : f.output? <;> simp [h]

lemma carried_snoc (pipe : Pipe) (chunks : List (Pipe × Bytes)) (c : Pipe × Bytes) :
    carried pipe (chunks ++ [c]) = carried pipe chunks ++ if c.1 = pipe then c.2 else [] := by
  rw [carried, carried, List.filter_append, List.flatMap_append]
  by_cases h : c.1 = pipe <;> simp [h]

def Adjusted (s s' : State σ) : Prop :=
  ∀ pipe, ∃ f : Credit → Credit, (∀ c, c.cancelled = true → (f c).cancelled = true) ∧
    s'.selected pipe = (s.selected pipe).map (Pump.onCredit f)

lemma onCredit_id (p : Pump) : p.onCredit id = p := by
  obtain ⟨tag, credit, point⟩ := p
  simp [Pump.onCredit]

lemma Adjusted.of_eq (h : ∀ pipe, s'.selected pipe = s.selected pipe) : Adjusted s s' := by
  intro pipe
  refine ⟨id, fun c hc => hc, ?_⟩
  rw [h pipe, funext onCredit_id, Option.map_id']

lemma Adjusted.refl (s : State σ) : Adjusted s s :=
  .of_eq fun _ => rfl

lemma Adjusted.trans {s'' : State σ} (h : Adjusted s s') (k : Adjusted s' s'') :
    Adjusted s s'' := by
  intro pipe
  obtain ⟨f, hf, hs⟩ := h pipe
  obtain ⟨g, hg, hs'⟩ := k pipe
  refine ⟨g ∘ f, fun c hc => hg _ (hf c hc), ?_⟩
  rw [hs', hs, Option.map_map]
  congr 1
  funext p
  simp [Pump.onCredit]

lemma Adjusted.of_stdout {f : Credit → Credit}
    (hf : ∀ c, c.cancelled = true → (f c).cancelled = true) (h1 : s'.stdout = s.stdout.onCredit f)
    (h2 : s'.stderr = s.stderr) : Adjusted s s' := by
  intro pipe
  cases pipe with
  | stdout => exact ⟨f, hf, congrArg some h1⟩
  | stderr =>
    refine ⟨id, fun c hc => hc, ?_⟩
    rw [funext onCredit_id, Option.map_id']
    exact h2

lemma Adjusted.of_stderr {f : Credit → Credit}
    (hf : ∀ c, c.cancelled = true → (f c).cancelled = true) (h1 : s'.stdout = s.stdout)
    (h2 : s'.stderr = s.stderr.map (Pump.onCredit f)) : Adjusted s s' := by
  intro pipe
  cases pipe with
  | stdout =>
    refine ⟨id, fun c hc => hc, ?_⟩
    rw [funext onCredit_id, Option.map_id']
    exact congrArg some h1
  | stderr => exact ⟨f, hf, h2⟩

lemma onCredits_adjusted {f : Credit → Credit}
    (hf : ∀ c, c.cancelled = true → (f c).cancelled = true) (s : State σ) :
    Adjusted s (s.onCredits f) := by
  intro pipe
  cases pipe <;> exact ⟨f, hf, rfl⟩

namespace State

def outlets (s : State σ) : List Pump :=
  s.stdout :: s.stderr.toList

def finished (s : State σ) : ℕ :=
  s.outlets.countP (·.point == .closed)

def cancelled (s : State σ) : Bool :=
  s.outlets.any Pump.cancelled

lemma outlets_length (s : State σ) : s.outlets.length = s.pumps := by
  rw [outlets, List.length_cons, pumps, Nat.add_comm]

lemma finished_le (s : State σ) : s.finished ≤ s.pumps :=
  s.outlets_length ▸ List.countP_le_length

lemma mem_outlets {p : Pump} : p ∈ s.outlets ↔ ∃ pipe, s.selected pipe = some p := by
  simp only [outlets, List.mem_cons, Option.mem_toList]
  constructor
  · rintro (rfl | h)
    · exact ⟨.stdout, rfl⟩
    · exact ⟨.stderr, h⟩
  · rintro ⟨pipe, h⟩
    cases pipe with
    | stdout => exact .inl (Option.some.inj h).symm
    | stderr => exact .inr h

lemma all_closed (h : s.finished = s.pumps) {pipe : Pipe} {p : Pump}
    (hp : s.selected pipe = some p) : p.point = .closed := by
  rw [← outlets_length] at h
  have hall := List.countP_eq_length.mp h p (mem_outlets.mpr ⟨pipe, hp⟩)
  simpa using hall

lemma not_cancelled (h : s.cancelled = false) {pipe : Pipe} {p : Pump}
    (hp : s.selected pipe = some p) : p.cancelled = false := by
  rw [cancelled, List.any_eq_false] at h
  simpa using h p (mem_outlets.mpr ⟨pipe, hp⟩)

end State

lemma Adjusted.outlets (h : Adjusted s s') : ∃ f g : Credit → Credit,
    (∀ c, c.cancelled = true → (f c).cancelled = true) ∧
    (∀ c, c.cancelled = true → (g c).cancelled = true) ∧
    s'.outlets = s.stdout.onCredit f :: (s.stderr.map (Pump.onCredit g)).toList := by
  obtain ⟨f, hf, h1⟩ := h .stdout
  obtain ⟨g, hg, h2⟩ := h .stderr
  obtain h1 : s'.stdout = s.stdout.onCredit f := Option.some.inj h1
  obtain h2 : s'.stderr = s.stderr.map (Pump.onCredit g) := h2
  exact ⟨f, g, hf, hg, by rw [State.outlets, h1, h2]⟩

lemma Adjusted.finished (h : Adjusted s s') : s'.finished = s.finished := by
  obtain ⟨f, g, -, -, he⟩ := h.outlets
  rw [State.finished, he, State.finished, State.outlets]
  cases s.stderr <;> rfl

lemma Adjusted.pumps (h : Adjusted s s') : s'.pumps = s.pumps := by
  obtain ⟨f, g, -, -, he⟩ := h.outlets
  rw [← State.outlets_length, he, ← State.outlets_length, State.outlets]
  cases s.stderr <;> rfl

structure Still (s s' : State σ) : Prop where
  adjusted : Adjusted s s'
  wire : s'.wire = s.wire
  control : ∀ f ∈ s'.mode.control, f ∈ s.mode.control ∨ ∃ id, f = .tracked id

namespace Still

lemma refl (s : State σ) : Still s s :=
  ⟨.refl s, rfl, fun _ hf => .inl hf⟩

lemma moved (s : State σ) (point : Point) : Still s { s with point := point } :=
  ⟨.of_eq fun pipe => by cases pipe <;> rfl, rfl, fun _ hf => .inl hf⟩

lemma trans {s'' : State σ} (h : Still s s') (k : Still s' s'') : Still s s'' := by
  refine ⟨h.adjusted.trans k.adjusted, k.wire.trans h.wire, ?_⟩
  intro f hf
  rcases k.control f hf with hf | hf
  · exact h.control f hf
  · exact .inr hf

lemma onCredits {f : Credit → Credit} (hf : ∀ c, c.cancelled = true → (f c).cancelled = true)
    (s : State σ) : Still s (s.onCredits f) :=
  ⟨onCredits_adjusted hf s, rfl, fun _ hf => .inl hf⟩

end Still

lemma cancel_still (s : State σ) : Still s s.cancel :=
  .onCredits (fun _ _ => rfl) s

lemma uncork_still (s : State σ) : Still s s.uncork :=
  .onCredits (f := Credit.uncork) (fun _ hc => hc) s

lemma grantStdout_still (s : State σ) (payload : Bytes) : Still s (s.grantStdout payload) := by
  rw [State.grantStdout]
  split
  · next n _ =>
    exact ⟨.of_stdout (f := (Credit.grant · n)) (fun _ hc => hc) rfl rfl, rfl, fun _ hf => .inl hf⟩
  · exact .refl s

lemma grantStderr_still (s : State σ) (payload : Bytes) : Still s (s.grantStderr payload) := by
  rw [State.grantStderr]
  split
  · next n _ =>
    exact ⟨.of_stderr (f := (Credit.grant · n)) (fun _ hc => hc) rfl rfl, rfl, fun _ hf => .inl hf⟩
  · exact .refl s

@[simp] lemma uncork_cancelled (s : State σ) : s.uncork.cancelled = s.cancelled := by
  simp only [State.cancelled, State.outlets, State.uncork, State.onCredits, List.any_cons]
  cases s.stderr <;> simp

@[simp] lemma grantStdout_cancelled (s : State σ) (payload : Bytes) :
    (s.grantStdout payload).cancelled = s.cancelled := by
  rw [State.grantStdout]
  split
  · simp [State.cancelled, State.outlets]
  · rfl

@[simp] lemma grantStderr_cancelled (s : State σ) (payload : Bytes) :
    (s.grantStderr payload).cancelled = s.cancelled := by
  rw [State.grantStderr]
  split
  · cases h : s.stderr <;> simp [State.cancelled, State.outlets, h]
  · rfl

lemma Kept.tracked (h : Kept s s') : s'.mode.isTracked = s.mode.isTracked := by
  have hm := h.mode
  cases hs : s.mode <;> cases hs' : s'.mode <;> rw [hs, hs'] at hm
  · rfl
  · cases hm
  · cases hm
  · rfl

structure Looped (s s' : State σ) : Prop where
  still : Still s s'
  pumpDone : s'.pumpDone = s.pumpDone
  tracked : s'.mode.isTracked = s.mode.isTracked
  discard : s.discardOutput = true → s'.discardOutput = true
  cancelled : s'.cancelled = true →
    s.cancelled = true ∨ s'.mode.isTracked = true ∧ s'.discardOutput = true

lemma Looped.trans {s'' : State σ} (h : Looped s s') (k : Looped s' s'') : Looped s s'' := by
  refine ⟨h.still.trans k.still, k.pumpDone.trans h.pumpDone, k.tracked.trans h.tracked,
    fun hd => k.discard (h.discard hd), ?_⟩
  intro hc
  rcases k.cancelled hc with hc | hc
  · rcases h.cancelled hc with hc | ⟨ht, hd⟩
    · exact .inl hc
    · exact .inr ⟨k.tracked.trans ht, k.discard hd⟩
  · exact .inr hc

lemma Looped.of_eq (h1 : s'.stdout = s.stdout) (h2 : s'.stderr = s.stderr)
    (h3 : s'.pumpDone = s.pumpDone) (h4 : s'.wire = s.wire)
    (h5 : s'.mode.isTracked = s.mode.isTracked)
    (h6 : s.discardOutput = true → s'.discardOutput = true)
    (h7 : ∀ f ∈ s'.mode.control, f ∈ s.mode.control ∨ ∃ id, f = .tracked id) : Looped s s' := by
  refine ⟨⟨.of_eq fun pipe => ?_, h4, h7⟩, h3, h5, h6, fun hc => .inl ?_⟩
  · cases pipe with
    | stdout => exact congrArg some h1
    | stderr => exact h2
  · rwa [State.cancelled, State.outlets, h1, h2] at hc

lemma Kept.looped (h : Kept s s') (hs : Still s s') (hd : s'.pumpDone = s.pumpDone)
    (hc : s'.cancelled = s.cancelled) : Looped s s' :=
  ⟨hs, hd, h.tracked, fun hd => h.discardOutput.trans hd, fun hc' => .inl (hc ▸ hc')⟩

@[simp] lemma grantStdout_pumpDone (s : State σ) (payload : Bytes) :
    (s.grantStdout payload).pumpDone = s.pumpDone := by
  rw [State.grantStdout]
  split <;> rfl

@[simp] lemma grantStderr_pumpDone (s : State σ) (payload : Bytes) :
    (s.grantStderr payload).pumpDone = s.pumpDone := by
  rw [State.grantStderr]
  split <;> rfl

lemma grantStdout_looped (s : State σ) (payload : Bytes) : Looped s (s.grantStdout payload) :=
  (grantStdout_kept s payload).looped (grantStdout_still s payload) (by simp) (by simp)

lemma grantStderr_looped (s : State σ) (payload : Bytes) : Looped s (s.grantStderr payload) :=
  (grantStderr_kept s payload).looped (grantStderr_still s payload) (by simp) (by simp)

variable (cfg) in
lemma sampled_looped (hm : s.mode = .tracked u) (hungUp : Bool) :
    Looped s ((sampled cfg H s u hungUp).1.setTracked (sampled cfg H s u hungUp).2) := by
  rw [sampled]
  generalize hb : (if !s.beamGone && hungUp then
    ({ s with beamGone := true, discardOutput := true }, beginCleanup cfg u s.clock)
    else (s, u)) = b
  obtain ⟨s1, u1⟩ := b
  have h1 : u1.control = u.control ∧ ∃ b d, s1 = { s with beamGone := b, discardOutput := d } ∧
      (s.discardOutput = true → d = true) := by
    split at hb
    · obtain ⟨rfl, rfl⟩ := Prod.mk.inj hb
      exact ⟨rfl, true, true, rfl, fun _ => rfl⟩
    · obtain ⟨rfl, rfl⟩ := Prod.mk.inj hb
      exact ⟨rfl, _, _, rfl, id⟩
  obtain ⟨hctl, b, d, rfl, hd⟩ := h1
  dsimp only
  obtain ⟨⟨b', hs⟩, -, hc⟩ := announce_announced { s with beamGone := b, discardOutput := d }
    { u1 with tracker := (u1.tracker.scan H).takeNewGroups.2 } (u1.tracker.scan H).takeNewGroups.1
  rw [hs]
  refine .of_eq rfl rfl rfl rfl (by rw [hm]; rfl) hd fun f hf => ?_
  rw [hm]
  rcases hc f hf with hf | hf
  · have hf : f ∈ u1.control := hf
    rw [hctl] at hf
    exact .inl hf
  · exact .inr hf

variable (cfg) in
lemma giveUp_looped (s : State σ) (u : Tracked σ) :
    Looped (s.setTracked u) ((giveUp cfg s u).1.setTracked (giveUp cfg s u).2) := by
  rw [giveUp]
  split
  · exact .of_eq rfl rfl rfl rfl rfl (fun _ => rfl) fun _ hf => .inl hf
  · exact .of_eq rfl rfl rfl rfl rfl id fun _ hf => .inl hf

lemma cleanupTick_looped (advancing : Duration) :
    Looped (s.setTracked u) (cleanupTick H s u advancing) ∧
      (cleanupTick H s u advancing).point.ended = false := by
  rw [cleanupTick]
  dsimp only
  generalize hs1 : (if s.discardOutput then State.cancel { s with inputClosed := true }
    else { s with inputClosed := true }) = s1
  have h1 : Looped (s.setTracked u) (s1.setTracked u) := by
    have hin : Looped (s.setTracked u) { s.setTracked u with inputClosed := true } :=
      .of_eq rfl rfl rfl rfl rfl id fun _ hf => .inl hf
    rw [← hs1]
    split
    · next hd => exact hin.trans ⟨cancel_still _, rfl, rfl, id, fun _ => .inr ⟨rfl, hd⟩⟩
    · exact hin
  split
  · exact ⟨h1.trans (.of_eq rfl rfl rfl rfl rfl id fun _ hf => .inl hf), rfl⟩
  · exact ⟨h1.trans (.of_eq rfl rfl rfl rfl rfl id fun _ hf => .inl hf), rfl⟩

lemma tick_looped {answers : TickAnswers} (hm : s.mode = .tracked u)
    (h : tick cfg H s u answers = some s') : Looped s s' ∧ s'.point.ended = false := by
  rw [tick] at h
  split at h
  · obtain rfl := Option.some.inj h
    exact ⟨.of_eq rfl rfl rfl rfl rfl id fun _ hf => .inl hf, rfl⟩
  · split at h
    · cases h
    · have h1 := sampled_looped (H := H) cfg hm answers.hungUp
      generalize sampled cfg H s u answers.hungUp = r1 at h h1
      obtain ⟨s1, u1⟩ := r1
      dsimp only at h h1
      have h2 := giveUp_looped cfg { s1 with clock := s1.clock + answers.scanning } u1
      generalize giveUp cfg { s1 with clock := s1.clock + answers.scanning } u1 = r2 at h h2
      obtain ⟨s2, u2⟩ := r2
      dsimp only at h h2
      have hscan : Looped s ({ s1 with clock := s1.clock + answers.scanning }.setTracked u1) :=
        h1.trans (.of_eq rfl rfl rfl rfl rfl id fun _ hf => .inl hf)
      have h12 : Looped s (s2.setTracked u2) := hscan.trans h2
      split at h
      · obtain rfl := Option.some.inj h
        obtain ⟨h3, hp⟩ := cleanupTick_looped (H := H) (s := s2) (u := u2) answers.advancing
        exact ⟨h12.trans h3, hp⟩
      · obtain rfl := Option.some.inj h
        exact ⟨h12.trans (.of_eq rfl rfl rfl rfl rfl id fun _ hf => .inl hf), rfl⟩

variable (cfg) in
lemma handleTracked_looped (hm : s.mode = .tracked u) (e : Event) :
    Looped s (handleTracked cfg s u e) := by
  have hctl : ∀ {u' : Tracked σ}, u'.control = u.control →
      ∀ f ∈ Mode.control (.tracked u'), f ∈ s.mode.control ∨ ∃ id, f = .tracked id := by
    intro u' hu f hf
    rw [Mode.control, hu] at hf
    rw [hm]
    exact .inl hf
  have htr : s.mode.isTracked = true := by rw [hm]; rfl
  cases e with
  | stdin frame =>
    cases frame with
    | credit payload => exact grantStdout_looped s payload
    | stderrCredit payload => exact grantStderr_looped s payload
    | kill =>
      refine .of_eq rfl rfl rfl rfl htr.symm (fun hd => ?_) (hctl rfl)
      simp [handleTracked, cleanNow, State.setTracked, hd]
    | other tag => exact .of_eq rfl rfl rfl rfl rfl id fun _ hf => .inl hf
  | stdinClosed | stdinError | trackingWriteFailed =>
    exact .of_eq rfl rfl rfl rfl htr.symm (fun _ => rfl) (hctl rfl)
  | timedOut =>
    rw [handleTracked]
    split
    · exact .of_eq rfl rfl rfl rfl htr.symm (fun _ => rfl) (hctl rfl)
    · exact .of_eq rfl rfl rfl rfl rfl id fun _ hf => .inl hf
  | childWaitFailed | childExited =>
    exact .of_eq rfl rfl rfl rfl htr.symm id (hctl rfl)

lemma stopGroup_looped {v : Untracked} (hm : s.mode = .untracked v) (answers : KillAnswers)
    (d b t : Bool) (hd : s.discardOutput = true → d = true) : Looped s
      (stopGroup cfg { s with discardOutput := d, beamGone := b, timedOut := t } v answers) := by
  rw [stopGroup]
  dsimp only
  split
  · exact .of_eq rfl rfl rfl rfl rfl hd fun _ hf => .inl hf
  · exact .of_eq rfl rfl rfl rfl (by rw [hm]; rfl) hd fun _ hf => by cases hf

@[simp] lemma stopGroup_point (s : State σ) (v : Untracked) (answers : KillAnswers) :
    (stopGroup cfg s v answers).point = s.point := by
  rw [stopGroup]
  split <;> rfl

variable (cfg) in
lemma handleUntracked_looped {v : Untracked} (hm : s.mode = .untracked v) (answers : KillAnswers)
    (hp : s.point = .recv) (e : Event) : Looped s (handleUntracked cfg s v answers e) ∧
      (handleUntracked cfg s v answers e).point.ended = false := by
  cases e with
  | stdin frame =>
    cases frame with
    | credit payload =>
      exact ⟨grantStdout_looped s payload, by simp [handleUntracked, hp, Point.ended]⟩
    | stderrCredit payload =>
      exact ⟨grantStderr_looped s payload, by simp [handleUntracked, hp, Point.ended]⟩
    | kill =>
      exact ⟨stopGroup_looped hm answers _ _ _ fun _ => rfl,
        by simp [handleUntracked, hp, Point.ended]⟩
    | other tag =>
      exact ⟨.of_eq rfl rfl rfl rfl rfl id fun _ hf => .inl hf,
        by simp [handleUntracked, hp, Point.ended]⟩
  | stdinClosed | stdinError | timedOut =>
    exact ⟨stopGroup_looped hm answers _ _ _ fun _ => rfl,
      by simp [handleUntracked, hp, Point.ended]⟩
  | childExited outcome =>
    exact ⟨(stopGroup_looped hm answers _ _ _ id).trans
      (.of_eq rfl rfl rfl rfl rfl id fun _ hf => .inl hf), rfl⟩
  | trackingWriteFailed | childWaitFailed =>
    exact ⟨.of_eq rfl rfl rfl rfl rfl id fun _ hf => .inl hf,
      by simp [handleUntracked, hp, Point.ended]⟩

def Label.looping : Label → Bool
  | .tick _ | .receive _ | .timeout | .disconnected => true
  | _ => false

lemma receive_looped {answers : KillAnswers} (hp : s.point = .recv)
    (h : receive cfg s answers = some s') : Looped s s' ∧ s'.point.ended = false := by
  rw [receive] at h
  split at h
  · cases h
  · next e rest _ =>
    have hpop : Looped s { s with queue := rest, seen := e :: s.seen } :=
      .of_eq rfl rfl rfl rfl rfl id fun _ hf => .inl hf
    dsimp only at h
    split at h
    · next v hm =>
      obtain rfl := Option.some.inj h
      obtain ⟨hl, hend⟩ := handleUntracked_looped cfg
        (s := { s with queue := rest, seen := e :: s.seen }) hm answers hp e
      exact ⟨hpop.trans hl, hend⟩
    · next t hm =>
      obtain rfl := Option.some.inj h
      have hl := handleTracked_looped cfg
        (s := { s with queue := rest, seen := e :: s.seen }) hm e
      exact ⟨(hpop.trans hl).trans (.of_eq rfl rfl rfl rfl rfl id fun _ hf => .inl hf), rfl⟩

lemma loop_looped {l : Label} (hl : l.looping = true) (h : step cfg H s l = some s') :
    Looped s s' ∧ s.point.ended = false ∧ s'.point.ended = false := by
  rw [step.eq_def] at h
  split at h
  iterate 9 cases hl
  · next hp =>
    split at h
    · cases h
    · next t hm =>
      obtain ⟨hl, hend⟩ := tick_looped hm h
      exact ⟨hl, by rw [hp]; rfl, hend⟩
  · next hp =>
    obtain ⟨hl, hend⟩ := receive_looped hp h
    exact ⟨hl, by rw [hp]; rfl, hend⟩
  · next hp =>
    rw [timeout] at h
    split at h
    · cases h
    · split at h
      · obtain rfl := Option.some.inj h
        exact ⟨.of_eq rfl rfl rfl rfl rfl id fun _ hf => .inl hf, by rw [hp]; rfl, rfl⟩
      · cases h
  · next hp =>
    rw [disconnected] at h
    split at h
    · cases h
    · next t hm =>
      split at h
      · obtain rfl := Option.some.inj h
        refine ⟨.of_eq rfl rfl rfl rfl ?_ (fun _ => rfl) fun _ hf => .inl ?_, by rw [hp]; rfl, rfl⟩
        · rw [hm]
          rfl
        · rw [hm]
          exact hf
      · cases h
  iterate 5 cases hl
  · cases h

def Due (s : State σ) : Point → Prop
  | .top | .recv | .finish => s.pumpDone = s.finished ∧
      (s.cancelled = true → s.mode.isTracked = true ∧ s.discardOutput = true)
  | .strict completed _ => s.pumpDone + completed = s.finished ∧ s.cancelled = false
  | .drain remaining _ false => s.pumpDone + s.pumps = s.finished + remaining ∧ s.cancelled = false
  | .report false => s.finished = s.pumps ∧ s.cancelled = false
  | .drain _ _ true | .report true | .collect | .returned _ => True

structure Ordered (s : State σ) : Prop where
  due : Due s s.point
  early : s.point ≠ .collect → (∀ b, s.point ≠ .returned b) → ∀ r, Frame.exit r ∉ s.frames
  complete : ∀ r, Frame.exit r ∈ s.frames → r.outputTruncated = false →
    s.finished = s.pumps ∧ s.cancelled = false
  control : ∀ f ∈ s.mode.control, f.output? = none

lemma Still.no_exit (h : Still s s') (hn : ∀ r, Frame.exit r ∉ s.frames) (r : ExitReport) :
    Frame.exit r ∉ s'.frames := by
  intro hr
  rcases List.mem_append.mp hr with hr | hr
  · exact hn r (List.mem_append_left _ (h.wire ▸ hr))
  · rcases h.control _ hr with hr | ⟨id, hr⟩
    · exact hn r (List.mem_append_right _ hr)
    · cases hr

lemma Still.output (h : Still s s') (hc : ∀ f ∈ s.mode.control, f.output? = none) :
    ∀ f ∈ s'.mode.control, f.output? = none := by
  intro f hf
  rcases h.control f hf with hf | ⟨id, rfl⟩
  · exact hc f hf
  · rfl

lemma Ordered.before (hs : Still s s') (hn : ∀ r, Frame.exit r ∉ s.frames)
    (hc : ∀ f ∈ s.mode.control, f.output? = none) (hd : Due s' s'.point) : Ordered s' :=
  ⟨hd, fun _ _ => hs.no_exit hn, fun r hr => absurd hr (hs.no_exit hn r), hs.output hc⟩

lemma Ordered.no_exit (h : Ordered s) (h1 : s.point ≠ .collect) (h2 : ∀ b, s.point ≠ .returned b) :
    ∀ r, Frame.exit r ∉ s.frames :=
  h.early h1 h2

lemma due_loop {p : Point} (hp : p.ended = false) : Due s p ↔ s.pumpDone = s.finished ∧
    (s.cancelled = true → s.mode.isTracked = true ∧ s.discardOutput = true) := by
  cases p with
  | top | recv | finish => exact Iff.rfl
  | _ => cases hp

lemma Ordered.looped (h : Ordered s) (hl : Looped s s') (hp : s.point.ended = false)
    (hp' : s'.point.ended = false) : Ordered s' := by
  refine .before hl.still (h.early ?_ ?_) h.control ?_
  · rintro he
    rw [he] at hp
    cases hp
  · rintro b he
    rw [he] at hp
    cases hp
  · obtain ⟨hd, hc⟩ := (due_loop hp).mp h.due
    refine (due_loop hp').mpr ⟨?_, fun hc' => ?_⟩
    · rw [hl.pumpDone, hl.still.adjusted.finished, hd]
    · rcases hl.cancelled hc' with hc' | hc'
      · obtain ⟨ht, hd⟩ := hc hc'
        exact ⟨hl.tracked.trans ht, hl.discard hd⟩
      · exact hc'

lemma Ordered.kept (h : Ordered s) (hk : Kept s s') (hp : s'.point = s.point)
    (ha : Adjusted s s') (hd : s'.pumpDone = s.pumpDone) (hc : s'.cancelled = s.cancelled)
    (hq : ∀ f ∈ s'.mode.control, f ∈ s.mode.control) : Ordered s' := by
  refine ⟨?_, ?_, ?_, fun f hf => h.control f (hq f hf)⟩
  · have hdue := h.due
    rw [hp]
    cases hpt : s.point with
    | top | recv | finish =>
      rw [hpt] at hdue
      refine ⟨by rw [hd, ha.finished, hdue.1], fun hc' => ?_⟩
      rw [hk.tracked, hk.discardOutput]
      exact hdue.2 (hc ▸ hc')
    | strict completed at_ =>
      rw [hpt] at hdue
      exact ⟨by rw [hd, ha.finished, hdue.1], hc.trans hdue.2⟩
    | drain remaining deadline cut =>
      rw [hpt] at hdue
      cases cut with
      | true => trivial
      | false => exact ⟨by rw [hd, ha.finished, ha.pumps, hdue.1], hc.trans hdue.2⟩
    | report truncated =>
      rw [hpt] at hdue
      cases truncated with
      | true => trivial
      | false => exact ⟨by rw [ha.finished, ha.pumps, hdue.1], hc.trans hdue.2⟩
    | collect | returned => trivial
  · intro h1 h2 r hr
    rw [hp] at h1 h2
    exact h.early h1 h2 r (hk.exits r hr)
  · intro r hr ht
    rw [ha.finished, ha.pumps, hc]
    exact h.complete r (hk.exits r hr) ht

structure Pumped (s s' : State σ) (pipe : Pipe) (action : PumpAction) (p p' : Pump) : Prop where
  selected : s.selected pipe = some p
  tag : p'.tag = p.tag
  cancelled : p'.cancelled = p.cancelled
  moves : Moves p.cancelled p.point action p'.point
  pump : ∃ s₁, s₁ = s.setPump pipe p' ∧ s' = pumpOut s₁ p action

lemma pumpStep_pumped {pipe : Pipe} {action : PumpAction} (h : pumpStep s pipe action = some s') :
    ∃ p p', Pumped s s' pipe action p p' := by
  simp only [pumpStep, Option.bind_eq_some_iff] at h
  obtain ⟨p, hsel, h⟩ := h
  split at h
  · cases h
  · obtain ⟨p', hp, rfl⟩ := Option.map_eq_some_iff.mp h
    obtain ⟨htag, hcan, hmv⟩ := Pump.step_moves hp
    exact ⟨p, p', hsel, htag, hcan, hmv, _, rfl, rfl⟩

lemma setPump_selected (s : State σ) (pipe : Pipe) (p : Pump) (q : Pipe) :
    (s.setPump pipe p).selected q = if q = pipe then some p else s.selected q := by
  cases pipe <;> cases q <;> rfl

lemma setPump_finished {pipe : Pipe} {p : Pump} (h : s.selected pipe = some p) (p' : Pump) :
    (s.setPump pipe p').finished + (if p.point == .closed then 1 else 0) =
      s.finished + if p'.point == .closed then 1 else 0 := by
  cases pipe with
  | stdout =>
    obtain rfl := Option.some.inj h
    simp only [State.finished, State.outlets, State.setPump, List.countP_cons]
    omega
  | stderr =>
    obtain h : s.stderr = some p := h
    simp only [State.finished, State.outlets, State.setPump, List.countP_cons, h,
      Option.toList_some, List.countP_nil]
    omega

lemma setPump_cancelled {pipe : Pipe} {p p' : Pump} (h : s.selected pipe = some p)
    (hc : p'.cancelled = p.cancelled) : (s.setPump pipe p').cancelled = s.cancelled := by
  cases pipe with
  | stdout =>
    obtain rfl := Option.some.inj h
    simp [State.cancelled, State.outlets, State.setPump, hc]
  | stderr =>
    obtain h : s.stderr = some p := h
    simp [State.cancelled, State.outlets, State.setPump, h, hc]

lemma setPump_pumps {pipe : Pipe} {p p' : Pump} (h : s.selected pipe = some p) :
    (s.setPump pipe p').pumps = s.pumps := by
  cases pipe with
  | stdout => rfl
  | stderr =>
    obtain h : s.stderr = some p := h
    simp [State.pumps, State.setPump, h]

lemma pumpOut_finished (s : State σ) (p : Pump) (action : PumpAction) :
    (pumpOut s p action).finished = s.finished := by
  rw [pumpOut.eq_def]
  split <;> rfl

namespace Pumped

variable {pipe : Pipe} {action : PumpAction} {p p' : Pump}

lemma after (h : Pumped s s' pipe action p p') (q : Pipe) :
    s'.selected q = if q = pipe then some p' else s.selected q := by
  obtain ⟨s₁, rfl, rfl⟩ := h.pump
  rw [pumpOut.eq_def, ← setPump_selected]
  split <;> rfl

lemma pumps (h : Pumped s s' pipe action p p') : s'.pumps = s.pumps := by
  obtain ⟨s₁, rfl, rfl⟩ := h.pump
  rw [← setPump_pumps h.selected, pumpOut.eq_def]
  split <;> rfl

lemma keeps (h : Pumped s s' pipe action p p') : s'.cancelled = s.cancelled := by
  obtain ⟨s₁, rfl, rfl⟩ := h.pump
  rw [← setPump_cancelled h.selected h.cancelled, pumpOut.eq_def]
  split <;> rfl

lemma mode (h : Pumped s s' pipe action p p') : s'.mode = s.mode := by
  obtain ⟨s₁, rfl, rfl⟩ := h.pump
  rw [pumpOut.eq_def]
  cases pipe <;> split <;> rfl

lemma counts (h : Pumped s s' pipe action p p') :
    ∃ n, s'.finished = s.finished + n ∧ s'.pumpDone = s.pumpDone + n := by
  obtain ⟨hsel, -, -, hmv, s₁, rfl, rfl⟩ := h
  have hf := setPump_finished hsel p'
  have hd : (s.setPump pipe p').pumpDone = s.pumpDone := by cases pipe <;> rfl
  rw [pumpOut_finished]
  generalize hpt : p.point = pt at hmv hf
  generalize hpt' : p'.point = pt' at hmv hf
  cases hmv with
  | done =>
    refine ⟨1, by simpa using hf, ?_⟩
    simp [pumpOut, hd]
  | written =>
    refine ⟨0, by simpa using hf, ?_⟩
    rw [pumpOut.eq_def]
    simpa [hpt] using hd
  | _ =>
    refine ⟨0, by simpa using hf, ?_⟩
    simpa [pumpOut, hpt] using hd

lemma no_exit (h : Pumped s s' pipe action p p') (r : ExitReport) :
    s'.wire ≠ .exit r :: s.wire := by
  obtain ⟨-, -, -, -, s₁, rfl, rfl⟩ := h
  have hw : (s.setPump pipe p').wire = s.wire := by cases pipe <;> rfl
  intro he
  rw [pumpOut.eq_def] at he
  split at he
  · cases (List.cons.inj he).1
  · exact List.cons_ne_self _ _ (he.symm.trans hw)
  · exact List.cons_ne_self _ _ (he.symm.trans hw)

lemma not_closed (h : Pumped s s' pipe action p p') : p.point ≠ .closed := by
  intro hp
  have hmv := h.moves
  rw [hp] at hmv
  cases hmv

end Pumped

lemma Ordered.pump {pipe : Pipe} {action : PumpAction} (h : Ordered s)
    (hs : pumpStep s pipe action = some s') : Ordered s' := by
  obtain ⟨hk, hp⟩ := pumpStep_kept hs
  obtain ⟨p, p', hpd⟩ := pumpStep_pumped hs
  obtain ⟨n, hf, hd⟩ := hpd.counts
  have hle := s'.finished_le
  rw [hpd.pumps] at hle
  refine ⟨?_, ?_, ?_, fun f hf => h.control f (hpd.mode ▸ hf)⟩
  · have hdue := h.due
    rw [hp]
    cases hpt : s.point with
    | top | recv | finish =>
      rw [hpt] at hdue
      refine ⟨by rw [hd, hf, hdue.1], fun hc => ?_⟩
      rw [hk.tracked, hk.discardOutput]
      exact hdue.2 (hpd.keeps ▸ hc)
    | strict completed at_ =>
      rw [hpt] at hdue
      refine ⟨?_, hpd.keeps.trans hdue.2⟩
      rw [hd, hf, ← hdue.1]
      omega
    | drain remaining deadline cut =>
      rw [hpt] at hdue
      cases cut with
      | true => trivial
      | false =>
        refine ⟨?_, hpd.keeps.trans hdue.2⟩
        have hsum : s.pumpDone + s.pumps = s.finished + remaining := hdue.1
        rw [hd, hf, hpd.pumps]
        omega
    | report truncated =>
      rw [hpt] at hdue
      cases truncated with
      | true => trivial
      | false =>
        refine ⟨?_, hpd.keeps.trans hdue.2⟩
        have hall : s.finished = s.pumps := hdue.1
        rw [hpd.pumps]
        omega
    | collect | returned => trivial
  · intro h1 h2 r hr
    rw [hp] at h1 h2
    exact h.early h1 h2 r (hk.exits r hr)
  · intro r hr ht
    obtain ⟨hall, -⟩ := h.complete r (hk.exits r hr) ht
    exact absurd (State.all_closed hall hpd.selected) hpd.not_closed

lemma Ordered.thread {l : Label} (h : Ordered s) (hl : l.thread = true)
    (hs : step cfg H s l = some s') : Ordered s' := by
  obtain ⟨hk, hp⟩ := thread_kept hl hs
  cases l with
  | send | timer | hangUp | elapse =>
    obtain rfl := Option.some.inj hs
    exact h.kept hk hp (.of_eq fun pipe => by cases pipe <;> rfl) rfl rfl fun _ hf => hf
  | closed | readFailed =>
    simp only [step] at hs
    split at hs
    · cases hs
    · obtain rfl := Option.some.inj hs
      exact h.kept hk hp (.of_eq fun pipe => by cases pipe <;> rfl) rfl rfl fun _ hf => hf
  | childExits outcome =>
    simp only [step, childExits] at hs
    split at hs
    · split at hs
      all_goals
        obtain rfl := Option.some.inj hs
        exact h.kept hk hp (.of_eq fun pipe => by cases pipe <;> rfl) rfl rfl fun _ hf => hf
    · cases hs
  | pump pipe action => exact h.pump hs
  | deliver ok =>
    simp only [step, deliver] at hs
    split at hs
    · cases hs
    · next t hm =>
      split at hs
      · next frame rest hw hc =>
        split at hs
        · obtain rfl := Option.some.inj hs
          refine h.kept hk hp (.of_eq fun pipe => by cases pipe <;> rfl) rfl rfl fun f hf => ?_
          rw [hm, Mode.control, hc]
          exact List.mem_cons_of_mem _ hf
        · split at hs
          · cases hs
          · obtain rfl := Option.some.inj hs
            exact h.kept hk hp (.of_eq fun pipe => by cases pipe <;> rfl) rfl rfl
              fun _ hf => absurd hf List.not_mem_nil
      · cases hs
  | _ => cases hl

lemma startDrain_still (s : State σ) (remaining : ℕ) (cut : Bool) :
    Still s (s.startDrain remaining cut) :=
  .moved s _

structure Leaving (s : State σ) : Prop where
  pumpDone : s.pumpDone = s.finished
  cancelled : s.cancelled = true → s.discardOutput = true

lemma Leaving.drain (h : Leaving s) {s₁ : State σ} (hs : Still s s₁)
    (hd : s₁.pumpDone = s.pumpDone) (cut : Bool) (hc : cut = false → s₁.cancelled = false) :
    Still s (s₁.startDrain s.pumps cut) ∧
      Due (s₁.startDrain s.pumps cut) (s₁.startDrain s.pumps cut).point := by
  refine ⟨hs.trans (startDrain_still ..), ?_⟩
  cases cut with
  | true => trivial
  | false =>
    refine ⟨?_, hc rfl⟩
    show s₁.pumpDone + s₁.pumps = s₁.finished + s.pumps
    rw [hd, hs.adjusted.finished, hs.adjusted.pumps, h.pumpDone]

lemma Leaving.uncancelled (h : Leaving s) (hd : s.discardOutput = false) :
    s.cancelled = false := by
  by_contra hc
  rw [Bool.not_eq_false] at hc
  rw [h.cancelled hc] at hd
  cases hd

lemma Leaving.strict (h : Leaving s) (hd : s.discardOutput = false) :
    Still s { s with point := .strict 0 .check } ∧
      Due { s with point := .strict 0 .check } (.strict 0 .check) :=
  ⟨.moved s _, h.pumpDone, h.uncancelled hd⟩

variable (cfg) in
lemma Leaving.choose (h : Leaving s) :
    Still s (chooseDrain cfg s) ∧ Due (chooseDrain cfg s) (chooseDrain cfg s).point := by
  rw [chooseDrain]
  split
  · next hst =>
    simp only [Bool.and_eq_true, Bool.not_eq_true'] at hst
    exact h.strict hst.2
  · cases hd : s.discardOutput with
    | true => exact h.drain (cancel_still s) rfl true Bool.noConfusion
    | false =>
      refine h.drain (uncork_still s) rfl false fun _ => ?_
      exact (uncork_cancelled s).trans (h.uncancelled hd)

lemma finishTracked_leaves {answers : FinishAnswers} (hm : s.mode = .tracked u) (h : Leaving s) :
    Still s (finishTracked cfg H s u answers) ∧
      Due (finishTracked cfg H s u answers) (finishTracked cfg H s u answers).point := by
  rw [finishTracked]
  generalize u.tracker.finishScan H = r
  obtain ⟨final, tracker⟩ := r
  dsimp only
  obtain ⟨c, a, hs⟩ := finishCgroup_spec
    (reapTracked { s with inputClosed := true, clock := s.clock + answers.took }
      (reapRoot answers.reaps)) answers.cgroupDrained
  rw [hs]
  split
  · refine ⟨⟨?_, rfl, fun f hf => .inl ?_⟩, trivial⟩
    · exact onCredits_adjusted (fun _ _ => rfl) s
    · rw [hm]
      exact hf
  · generalize hu1 : announceFinal
      { u with tracker := tracker.takeNewGroups.2, finalConfirmed := final,
               reaped := reapRoot answers.reaps } tracker.takeNewGroups.1 = u1
    have ha := announceFinal_announced
      { u with tracker := tracker.takeNewGroups.2, finalConfirmed := final,
               reaped := reapRoot answers.reaps } tracker.takeNewGroups.1
    rw [hu1] at ha
    generalize hs1 : State.setTracked _ u1 = s1
    have h1 : Leaving s1 ∧ Still s s1 := by
      rw [← hs1]
      refine ⟨⟨h.pumpDone, h.cancelled⟩, .of_eq fun pipe => by cases pipe <;> rfl, rfl, ?_⟩
      intro f hf
      rw [hm]
      exact ha.control f hf
    obtain ⟨hk, hd⟩ := h1.1.choose cfg
    exact ⟨h1.2.trans hk, hd⟩

lemma finishUntracked_leaves {answers : FinishAnswers} (hc : s.cancelled = false)
    (hd : s.pumpDone = s.finished) : Still s (finishUntracked cfg s answers) ∧
      Due (finishUntracked cfg s answers) (finishUntracked cfg s answers).point := by
  rw [finishUntracked]
  dsimp only
  generalize hs0 : (if cfg.strictOutput then s else s.uncork) = s0
  have h0 : Still s s0 ∧ s0.pumpDone = s.pumpDone ∧ s0.cancelled = false := by
    rw [← hs0]
    split
    · exact ⟨.refl s, rfl, hc⟩
    · exact ⟨uncork_still s, rfl, (uncork_cancelled s).trans hc⟩
  obtain ⟨hk0, hd0, hc0⟩ := h0
  obtain ⟨c, a, hs⟩ := finishCgroup_spec { s0 with clock := s0.clock + answers.took }
    answers.cgroupDrained
  rw [hs]
  generalize hs1 : ({ s0 with clock := s0.clock + answers.took, cgroupConfirmed := c, acts := a } :
    State σ) = s1
  have h1 : Still s s1 ∧ Leaving s1 ∧ s1.cancelled = false := by
    rw [← hs1]
    refine ⟨hk0.trans ⟨.of_eq fun pipe => by cases pipe <;> rfl, rfl, fun _ hf => .inl hf⟩,
      ⟨?_, fun hc1 => ?_⟩, hc0⟩
    · exact hd0.trans (hd.trans hk0.adjusted.finished.symm)
    · exact Bool.noConfusion (hc0.symm.trans hc1)
  obtain ⟨hk1, hl, hc1⟩ := h1
  split
  · exact ⟨(hk1.trans (cancel_still s1)).trans (.moved _ _), trivial⟩
  · split
    · split
      · obtain ⟨hk, hdue⟩ := hl.drain (cancel_still s1) rfl true Bool.noConfusion
        exact ⟨hk1.trans hk, hdue⟩
      · next hdis =>
        obtain ⟨hk, hdue⟩ := hl.strict (by simpa using hdis)
        exact ⟨hk1.trans hk, hdue⟩
    · obtain ⟨hk, hdue⟩ := hl.drain (.refl s1) rfl false fun _ => hc1
      exact ⟨hk1.trans hk, hdue⟩

lemma finish_due {answers : FinishAnswers} (hp : s.point = .finish) (hdue : Due s s.point)
    (hs : step cfg H s (.finish answers) = some s') : Still s s' ∧ Due s' s'.point := by
  rw [hp] at hdue
  simp only [step, hp] at hs
  split at hs
  · next v hm =>
    obtain rfl := Option.some.inj hs
    have hc : s.cancelled = false := by
      by_contra hc
      rw [Bool.not_eq_false] at hc
      obtain ⟨ht, -⟩ := hdue.2 hc
      rw [hm] at ht
      cases ht
    exact finishUntracked_leaves hc hdue.1
  · next t hm =>
    obtain rfl := Option.some.inj hs
    exact finishTracked_leaves hm ⟨hdue.1, fun hc => (hdue.2 hc).2⟩

lemma strictEvent_due {completed : ℕ} (hp : s.point = .strict completed .poll)
    (h : Due s s.point) (e : Event) : Still s (strictEvent s completed e) ∧
      Due (strictEvent s completed e) (strictEvent s completed e).point := by
  have hgrant : ∀ s' : State σ, Still s s' → s'.point = s.point → s'.pumpDone = s.pumpDone →
      s'.cancelled = s.cancelled → Due s' s'.point := by
    intro s' hk hp' hd' hc'
    rw [hp] at h
    rw [hp', hp]
    exact ⟨by rw [hd', hk.adjusted.finished, h.1], hc'.trans h.2⟩
  cases e with
  | stdin frame =>
    cases frame with
    | credit payload =>
      exact ⟨grantStdout_still s payload, hgrant _ (grantStdout_still s payload)
        (grantStdout_point s payload) (grantStdout_pumpDone s payload) (grantStdout_cancelled s payload)⟩
    | stderrCredit payload =>
      exact ⟨grantStderr_still s payload, hgrant _ (grantStderr_still s payload)
        (grantStderr_point s payload) (grantStderr_pumpDone s payload) (grantStderr_cancelled s payload)⟩
    | kill => exact ⟨(cancel_still s).trans (startDrain_still ..), trivial⟩
    | other tag => exact ⟨.refl s, h⟩
  | stdinClosed | stdinError | trackingWriteFailed =>
    exact ⟨(cancel_still s).trans (.moved _ _), trivial⟩
  | childExited | childWaitFailed | timedOut => exact ⟨.refl s, h⟩

lemma strictStep_due {completed : ℕ} {point : StrictPoint} {hungUp : Bool}
    (hp : s.point = .strict completed point) (hdue : Due s s.point)
    (hs : strictStep s completed point hungUp = some s') : Still s s' ∧ Due s' s'.point := by
  rw [hp] at hdue
  have ⟨hd, hc⟩ := hdue
  rw [strictStep.eq_def] at hs
  cases point with
  | check =>
    dsimp only at hs
    split at hs
    · split at hs
      · split at hs
        · cases hs
        · obtain rfl := Option.some.inj hs
          exact ⟨(cancel_still s).trans (.moved _ _), trivial⟩
      · obtain rfl := Option.some.inj hs
        exact ⟨.moved s _, hd, hc⟩
    · next hall =>
      obtain rfl := Option.some.inj hs
      refine ⟨.moved s _, ?_, hc⟩
      have hle := s.finished_le
      show s.finished = s.pumps
      omega
  | poll =>
    dsimp only at hs
    split at hs
    · obtain rfl := Option.some.inj hs
      exact ⟨.moved s _, hd, hc⟩
    · next e rest _ =>
      obtain rfl := Option.some.inj hs
      generalize hs1 : ({ s with queue := rest, drained := e :: s.drained } : State σ) = s1
      have h1 : Still s s1 ∧ s1.point = .strict completed .poll ∧ Due s1 s1.point := by
        rw [← hs1]
        rw [← hp] at hdue
        exact ⟨⟨.of_eq fun pipe => by cases pipe <;> rfl, rfl, fun _ hf => .inl hf⟩, hp, hdue⟩
      obtain ⟨hk1, hp1, hdue1⟩ := h1
      obtain ⟨hk, hdue'⟩ := strictEvent_due hp1 hdue1 e
      exact ⟨hk1.trans hk, hdue'⟩
  | wait =>
    dsimp only at hs
    split at hs
    · next hpos =>
      obtain rfl := Option.some.inj hs
      refine ⟨⟨.of_eq fun pipe => by cases pipe <;> rfl, rfl, fun _ hf => .inl hf⟩, ?_, hc⟩
      show s.pumpDone - 1 + (completed + 1) = s.finished
      omega
    · split at hs
      · obtain rfl := Option.some.inj hs
        exact ⟨.moved s _, trivial⟩
      · obtain rfl := Option.some.inj hs
        exact ⟨.moved s _, hd, hc⟩

lemma drainStep_due {remaining : ℕ} {deadline : Instant} {cut : Bool}
    (hp : s.point = .drain remaining deadline cut) (hdue : Due s s.point)
    (hs : drainStep s remaining deadline cut = some s') : Still s s' ∧ Due s' s'.point := by
  rw [hp] at hdue
  cases remaining with
  | zero =>
    obtain rfl := Option.some.inj hs
    refine ⟨.moved s _, ?_⟩
    cases cut with
    | true => trivial
    | false =>
      refine ⟨?_, hdue.2⟩
      have hsum : s.pumpDone + s.pumps = s.finished + 0 := hdue.1
      have hle := s.finished_le
      show s.finished = s.pumps
      omega
  | succ remaining =>
    simp only [drainStep] at hs
    split at hs
    · obtain rfl := Option.some.inj hs
      exact ⟨.moved s _, trivial⟩
    · split at hs
      · next hpos =>
        obtain rfl := Option.some.inj hs
        refine ⟨⟨.of_eq fun pipe => by cases pipe <;> rfl, rfl, fun _ hf => .inl hf⟩, ?_⟩
        cases cut with
        | true => trivial
        | false =>
          refine ⟨?_, hdue.2⟩
          have hsum : s.pumpDone + s.pumps = s.finished + (remaining + 1) := hdue.1
          show s.pumpDone - 1 + s.pumps = s.finished + remaining
          omega
      · split at hs
        · obtain rfl := Option.some.inj hs
          exact ⟨.moved s _, trivial⟩
        · cases hs

def Label.draining : Label → Bool
  | .finish _ | .strict _ | .drain => true
  | _ => false

lemma drain_due {l : Label} (hl : l.draining = true) (hdue : Due s s.point)
    (hs : step cfg H s l = some s') :
    Still s s' ∧ Due s' s'.point ∧ s.point ≠ .collect ∧ ∀ b, s.point ≠ .returned b := by
  rw [step.eq_def] at hs
  split at hs
  iterate 13 cases hl
  · next answers hp =>
    have hst : step cfg H s (.finish answers) = some s' := by
      simp only [step, hp]
      exact hs
    obtain ⟨hk, hd⟩ := finish_due hp hdue hst
    exact ⟨hk, hd, by simp [hp]⟩
  · next hp =>
    obtain ⟨hk, hd⟩ := strictStep_due hp hdue hs
    exact ⟨hk, hd, by simp [hp]⟩
  · next hp =>
    obtain ⟨hk, hd⟩ := drainStep_due hp hdue hs
    exact ⟨hk, hd, by simp [hp]⟩
  iterate 2 cases hl
  · cases hs

lemma Ordered.reportStep {truncated ok : Bool} (h : Ordered s) (hp : s.point = .report truncated)
    (hs : reportStep cfg H s truncated ok = some s') : Ordered s' := by
  have hdue := h.due
  rw [hp] at hdue
  have hn := h.early (by simp [hp]) (by simp [hp])
  have hdone : ∀ r, r = s.exitReport cfg H truncated → r.outputTruncated = false →
      s.finished = s.pumps ∧ s.cancelled = false := by
    rintro r rfl ht
    obtain rfl : truncated = false := ht
    exact hdue
  obtain ⟨-, -, -, -, -, -, hex⟩ := reportStep_exits hs
  have hex : ∀ r, Frame.exit r ∈ s'.frames → r = s.exitReport cfg H truncated :=
    fun r hr => (hex r hr).resolve_left (hn r)
  rw [Supervisor.reportStep] at hs
  dsimp only at hs
  split at hs
  · split at hs
    · obtain rfl := Option.some.inj hs
      exact ⟨trivial, fun _ hr => absurd rfl (hr false), fun r hr => hdone r (hex r hr), h.control⟩
    · split at hs
      · cases hs
      · obtain rfl := Option.some.inj hs
        exact ⟨trivial, fun _ hr => absurd rfl (hr false), fun r hr => hdone r (hex r hr), h.control⟩
  · next t hm =>
    split at hs
    · obtain rfl := Option.some.inj hs
      exact ⟨trivial, fun hc => absurd rfl hc, fun r hr => hdone r (hex r hr), h.control⟩
    · split at hs
      · obtain rfl := Option.some.inj hs
        refine ⟨trivial, fun hc => absurd rfl hc, fun r hr => hdone r (hex r hr), fun f hf => ?_⟩
        rcases List.mem_append.mp hf with hf | hf
        · refine h.control f ?_
          rw [hm]
          exact hf
        · rw [List.mem_singleton.mp hf]
          rfl
      · cases hs

lemma Ordered.collectStep (h : Ordered s) (hs : collectStep s = some s') : Ordered s' := by
  obtain ⟨hk, -⟩ := collectStep_kept hs
  rw [Supervisor.collectStep] at hs
  split at hs
  · cases hs
  · split at hs
    · obtain rfl := Option.some.inj hs
      exact ⟨trivial, fun _ hr => absurd rfl (hr true), fun r hr => h.complete r (hk.exits r hr),
        h.control⟩
    · split at hs
      · obtain rfl := Option.some.inj hs
        exact ⟨trivial, fun _ hr => absurd rfl (hr false), fun r hr => h.complete r (hk.exits r hr),
          h.control⟩
      · cases hs

lemma Ordered.step {l : Label} (h : Ordered s) (hs : step cfg H s l = some s') : Ordered s' := by
  by_cases hl : l.thread = true
  · exact h.thread hl hs
  by_cases hloop : l.looping = true
  · obtain ⟨hk, hp, hp'⟩ := loop_looped hloop hs
    exact h.looped hk hp hp'
  by_cases hdrain : l.draining = true
  · obtain ⟨hk, hd, hp, hp'⟩ := drain_due hdrain h.due hs
    exact .before hk (h.early hp hp') h.control hd
  rw [Supervisor.step.eq_def] at hs
  split at hs
  iterate 9 exact absurd rfl hl
  iterate 4 exact absurd rfl hloop
  iterate 3 exact absurd rfl hdrain
  · next hp => exact h.reportStep hp hs
  · exact h.collectStep hs
  · cases hs

def ReadAnswer.ends : ReadAnswer → Bool
  | .eof | .failed => true
  | .data _ | .interrupted => false

inductive Stopped (pipe : Pipe) (labels : List Label) (sent : Bytes) (cancelled : Bool) : Prop
  | ended {as : List ReadAnswer} {a : ReadAnswer} : answers pipe labels = as ++ [a] →
      ReadAnswer.ends a = true → (∀ b ∈ as, ReadAnswer.ends b = false) →
      received pipe labels = sent → Stopped pipe labels sent cancelled
  | unwritten : Label.pump pipe (.write false) ∈ labels → Stopped pipe labels sent cancelled
  | cancelled : cancelled = true → Stopped pipe labels sent cancelled

structure Flowing (pipe : Pipe) (labels : List Label) (sent buffered : Bytes) : Prop where
  answers : ∀ a ∈ answers pipe labels, ReadAnswer.ends a = false
  bytes : received pipe labels = sent ++ buffered

def Accounted (pipe : Pipe) (labels : List Label) (sent : Bytes) (p : Pump) : Prop :=
  match p.point with
  | .awaiting | .reading _ _ => Flowing pipe labels sent []
  | .writing bytes => Flowing pipe labels sent bytes
  | .closing | .closed => Stopped pipe labels sent p.cancelled

/-- The wire carries each pipe's chunks in order, under the pipe's tag. -/
structure Carried (stderr : Option (Pipe × Bool)) (labels : List Label) (s : State σ) : Prop where
  tag : ∀ pipe p, s.selected pipe = some p → p.tag = route stderr pipe
  chunks : ∃ chunks, outputs s.wire = chunks.map (Prod.map (route stderr) id) ∧
    (∀ c ∈ chunks, (s.selected c.1).isSome = true) ∧ chunks.map Prod.fst = writes labels ∧
    ∀ pipe p, s.selected pipe = some p → Accounted pipe labels (carried pipe chunks) p

def chunk (pipe : Pipe) : PumpPoint → PumpAction → List (Pipe × Bytes)
  | .writing bytes, .write true => [(pipe, bytes)]
  | _, _ => []

lemma carried_append (pipe : Pipe) (chunks more : List (Pipe × Bytes)) :
    carried pipe (chunks ++ more) = carried pipe chunks ++ carried pipe more := by
  rw [carried, carried, carried, List.filter_append, List.flatMap_append]

lemma chunk_route (f : Pipe → Pipe) (pipe : Pipe) (point : PumpPoint) (action : PumpAction) :
    (chunk pipe point action).map (Prod.map f id) = chunk (f pipe) point action := by
  rw [chunk.eq_def, chunk.eq_def]
  split <;> rfl

lemma carried_other {pipe q : Pipe} (h : q ≠ pipe) (point : PumpPoint) (action : PumpAction) :
    carried q (chunk pipe point action) = [] := by
  rw [chunk.eq_def]
  split
  · simp [carried, h.symm]
  · rfl

lemma answers_other {pipe : Pipe} {l : Label} (hl : l.answer pipe = none) (labels : List Label) :
    answers pipe (labels ++ [l]) = answers pipe labels := by
  rw [answers_snoc, hl, Option.toList_none, List.append_nil]

lemma received_other {pipe : Pipe} {l : Label} (hl : l.answer pipe = none) (labels : List Label) :
    received pipe (labels ++ [l]) = received pipe labels := by
  rw [received, answers_other hl, received]

lemma Flowing.other {pipe : Pipe} {labels : List Label} {sent buffered : Bytes} {l : Label}
    (h : Flowing pipe labels sent buffered) (hl : l.answer pipe = none) :
    Flowing pipe (labels ++ [l]) sent buffered :=
  ⟨answers_other hl labels ▸ h.answers, (received_other hl labels).trans h.bytes⟩

lemma Stopped.other {pipe : Pipe} {labels : List Label} {sent : Bytes} {l : Label} {c c' : Bool}
    (h : Stopped pipe labels sent c) (hl : l.answer pipe = none) (hc : c = true → c' = true) :
    Stopped pipe (labels ++ [l]) sent c' := by
  cases h with
  | ended he ha hn hb =>
    exact .ended ((answers_other hl labels).trans he) ha hn ((received_other hl labels).trans hb)
  | unwritten he => exact .unwritten (List.mem_append_left _ he)
  | cancelled he => exact .cancelled (hc he)

lemma Flowing.stop {pipe : Pipe} {labels : List Label} {sent : Bytes} {a : ReadAnswer} {c : Bool}
    (h : Flowing pipe labels sent []) (ha : ReadAnswer.ends a = true) :
    Stopped pipe (labels ++ [.pump pipe (.read a)]) sent c := by
  have hnone : a.payload = [] := by cases a <;> first | rfl | cases ha
  refine .ended (?_ : _ = Supervisor.answers pipe labels ++ [a]) ha h.answers ?_
  · simp [answers_snoc, Label.answer]
  · rw [received_snoc, h.bytes]
    simp [Label.answer, hnone]

lemma Flowing.read {pipe : Pipe} {labels : List Label} {sent : Bytes} {a : ReadAnswer}
    (h : Flowing pipe labels sent []) (ha : ReadAnswer.ends a = false) :
    Flowing pipe (labels ++ [.pump pipe (.read a)]) sent a.payload := by
  refine ⟨fun b hb => ?_, ?_⟩
  · rw [answers_snoc, List.mem_append] at hb
    rcases hb with hb | hb
    · exact h.answers b hb
    · obtain rfl : b = a := by simpa [Label.answer] using hb
      exact ha
  · rw [received_snoc, h.bytes]
    simp [Label.answer]

lemma chunk_pipe {pipe : Pipe} {point : PumpPoint} {action : PumpAction} {c : Pipe × Bytes}
    (h : c ∈ chunk pipe point action) : c.1 = pipe := by
  rw [chunk.eq_def] at h
  split at h
  · rw [List.mem_singleton.mp h]
  · cases h

lemma moves_wrote {cancelled : Bool} {pt pt' : PumpPoint} {action : PumpAction} (pipe : Pipe)
    (h : Moves cancelled pt action pt') :
    (chunk pipe pt action).map Prod.fst = (Label.wrote? (.pump pipe action)).toList := by
  cases h <;> rfl

lemma Accounted.adjusted {pipe : Pipe} {labels : List Label} {sent : Bytes} {p : Pump} {l : Label}
    (h : Accounted pipe labels sent p) (hl : l.answer pipe = none) {f : Credit → Credit}
    (hf : ∀ c, c.cancelled = true → (f c).cancelled = true) :
    Accounted pipe (labels ++ [l]) sent (p.onCredit f) := by
  have hc : p.cancelled = true → (p.onCredit f).cancelled = true := by
    intro he
    obtain ⟨c, hc, hcc⟩ := (Option.any_eq_true ..).mp he
    exact (Option.any_eq_true ..).mpr ⟨f c, by simp [Pump.onCredit, hc], hf c hcc⟩
  rw [Accounted] at h
  rw [Accounted, show (p.onCredit f).point = p.point from rfl]
  cases hp : p.point with
  | awaiting | reading | writing =>
    rw [hp] at h
    exact h.other hl
  | closing | closed =>
    rw [hp] at h
    exact h.other hl hc

lemma Accounted.pump {pipe : Pipe} {labels : List Label} {sent : Bytes} {p p' : Pump}
    {action : PumpAction} (h : Accounted pipe labels sent p) (hc : p'.cancelled = p.cancelled)
    (hm : Moves p.cancelled p.point action p'.point) :
    Accounted pipe (labels ++ [.pump pipe action])
      (sent ++ carried pipe (chunk pipe p.point action)) p' := by
  rw [Accounted] at h ⊢
  rw [hc]
  generalize p.cancelled = cancelled at h hm
  generalize p.point = pt at h hm
  generalize p'.point = pt' at hm
  cases hm with
  | permit =>
    simpa [chunk, carried] using h.other rfl
  | cancel hcan => exact .cancelled hcan
  | @data cap gated bytes =>
    simpa [chunk, carried] using! h.read (a := .data bytes) rfl
  | eof => simpa [chunk, carried] using! h.stop (a := .eof) rfl
  | interrupted => simpa [chunk, carried] using! h.read (a := .interrupted) rfl
  | failed => simpa [chunk, carried] using! h.stop (a := .failed) rfl
  | @written bytes =>
    have hw : Flowing pipe (labels ++ [.pump pipe (.write true)]) sent bytes := h.other rfl
    refine ⟨hw.answers, ?_⟩
    rw [hw.bytes]
    simp [chunk, carried]
  | unwritten => exact .unwritten (by simp)
  | done =>
    have hd : Stopped pipe (labels ++ [.pump pipe .done]) sent cancelled := h.other rfl id
    simpa [chunk, carried] using! hd

structure Quiet (s s' : State σ) : Prop where
  adjusted : Adjusted s s'
  wire : ∃ newer, s'.wire = newer ++ s.wire ∧ ∀ f ∈ newer, f.output? = none

lemma outputs_append {newer wire : List Frame} (h : ∀ f ∈ newer, f.output? = none) :
    outputs (newer ++ wire) = outputs wire := by
  have hnil : newer.reverse.filterMap Frame.output? = [] :=
    List.filterMap_eq_nil_iff.mpr fun f hf => h f (List.mem_reverse.mp hf)
  rw [outputs, List.reverse_append, List.filterMap_append, hnil, List.append_nil, outputs]

lemma Carried.quiet {stderr : Option (Pipe × Bool)} {labels : List Label} {l : Label}
    (h : Carried stderr labels s) (hq : Quiet s s') (hl : ∀ pipe, l.answer pipe = none)
    (hwrote : l.wrote? = none) : Carried stderr (labels ++ [l]) s' := by
  obtain ⟨newer, hw, hn⟩ := hq.wire
  obtain ⟨chunks, hc, hp, horder, ha⟩ := h.chunks
  have hsel : ∀ pipe p', s'.selected pipe = some p' → ∃ p f, s.selected pipe = some p ∧
      p' = p.onCredit f ∧ ∀ c, c.cancelled = true → (f c).cancelled = true := by
    intro pipe p' hp'
    obtain ⟨f, hf, hs⟩ := hq.adjusted pipe
    obtain ⟨p, hp, rfl⟩ := Option.map_eq_some_iff.mp (hs.symm.trans hp')
    exact ⟨p, f, hp, rfl, hf⟩
  refine ⟨fun pipe p' hp' => ?_, chunks, ?_, fun c hc => ?_, ?_, fun pipe p' hp' => ?_⟩
  · obtain ⟨p, f, hp, rfl, -⟩ := hsel pipe p' hp'
    exact h.tag pipe p hp
  · rw [hw, outputs_append hn, hc]
  · obtain ⟨f, -, hs⟩ := hq.adjusted c.1
    rw [hs, Option.isSome_map, hp c hc]
  · rw [writes_snoc, hwrote, Option.toList_none, List.append_nil, horder]
  · obtain ⟨p, f, hp, rfl, hf⟩ := hsel pipe p' hp'
    exact (ha pipe p hp).adjusted (hl pipe) hf

lemma Pumped.outputs {pipe : Pipe} {action : PumpAction} {p p' : Pump}
    (h : Pumped s s' pipe action p p') :
    outputs s'.wire = outputs s.wire ++ chunk p.tag p.point action := by
  obtain ⟨-, -, -, hmv, s₁, rfl, rfl⟩ := h
  have hw : (s.setPump pipe p').wire = s.wire := by cases pipe <;> rfl
  generalize hpt : p.point = pt at hmv
  generalize p'.point = pt' at hmv
  cases hmv <;> simp [pumpOut, chunk, hpt, hw, Frame.output?]

lemma Carried.pump {stderr : Option (Pipe × Bool)} {labels : List Label} {pipe : Pipe}
    {action : PumpAction} (h : Carried stderr labels s) (hs : pumpStep s pipe action = some s') :
    Carried stderr (labels ++ [.pump pipe action]) s' := by
  obtain ⟨p, p', hp⟩ := pumpStep_pumped hs
  obtain ⟨chunks, hc, hsome, horder, ha⟩ := h.chunks
  refine ⟨fun q r hr => ?_, chunks ++ chunk pipe p.point action, ?_, fun c hc => ?_, ?_,
    fun q r hr => ?_⟩
  · rw [hp.after] at hr
    split at hr
    · next hq =>
      obtain rfl := Option.some.inj hr
      rw [hp.tag, h.tag pipe p hp.selected, hq]
    · exact h.tag q r hr
  · rw [hp.outputs, hc, List.map_append, chunk_route, h.tag pipe p hp.selected]
  · rw [hp.after]
    split
    · rfl
    · next hne =>
      rcases List.mem_append.mp hc with hc | hc
      · exact hsome c hc
      · exact absurd (chunk_pipe hc) hne
  · rw [List.map_append, horder, moves_wrote pipe hp.moves, writes_snoc]
  · rw [hp.after] at hr
    rw [carried_append]
    split at hr
    · next hq =>
      obtain rfl := Option.some.inj hr
      subst hq
      exact (ha q p hp.selected).pump hp.cancelled hp.moves
    · next hq =>
      have hl : Label.answer q (.pump pipe action) = none := by
        cases action <;> simp [Label.answer, Ne.symm hq]
      have hadj := (ha q r hr).adjusted hl (f := id) fun _ hc => hc
      rw [carried_other hq, List.append_nil]
      rwa [onCredit_id] at hadj

lemma Still.quiet (h : Still s s') : Quiet s s' :=
  ⟨h.adjusted, [], h.wire, fun _ hf => absurd hf List.not_mem_nil⟩

lemma thread_quiet {l : Label} (hc : ∀ f ∈ s.mode.control, f.output? = none)
    (hl : l.thread = true) (hp : ∀ pipe action, l ≠ .pump pipe action)
    (hs : step cfg H s l = some s') : Quiet s s' := by
  have hsame : ∀ {t : State σ}, t.stdout = s.stdout → t.stderr = s.stderr → t.wire = s.wire →
      Quiet s t := by
    intro t h1 h2 h3
    refine ⟨.of_eq fun pipe => ?_, [], h3, fun _ hf => absurd hf List.not_mem_nil⟩
    cases pipe with
    | stdout => exact congrArg some h1
    | stderr => exact h2
  cases l with
  | send | timer | hangUp | elapse =>
    obtain rfl := Option.some.inj hs
    exact hsame rfl rfl rfl
  | closed | readFailed =>
    simp only [step] at hs
    split at hs
    · cases hs
    · obtain rfl := Option.some.inj hs
      exact hsame rfl rfl rfl
  | childExits outcome =>
    simp only [step, childExits] at hs
    split at hs
    · split at hs
      all_goals
        obtain rfl := Option.some.inj hs
        exact hsame rfl rfl rfl
    · cases hs
  | pump pipe action => exact absurd rfl (hp pipe action)
  | deliver ok =>
    simp only [step, deliver] at hs
    split at hs
    · cases hs
    · next t hm =>
      split at hs
      · next frame rest hw hcon =>
        split at hs
        · obtain rfl := Option.some.inj hs
          refine ⟨.of_eq fun pipe => by cases pipe <;> rfl, [frame], rfl, fun f hf => ?_⟩
          rw [List.mem_singleton.mp hf]
          refine hc frame ?_
          rw [hm, Mode.control, hcon]
          exact List.mem_cons_self
        · split at hs
          · cases hs
          · obtain rfl := Option.some.inj hs
            exact hsame rfl rfl rfl
      · cases hs
  | _ => cases hl

lemma step_quiet {l : Label} (h : Ordered s) (hp : ∀ pipe action, l ≠ .pump pipe action)
    (hs : step cfg H s l = some s') : Quiet s s' := by
  by_cases hl : l.thread = true
  · exact thread_quiet h.control hl hp hs
  by_cases hloop : l.looping = true
  · exact (loop_looped hloop hs).1.still.quiet
  by_cases hdrain : l.draining = true
  · exact (drain_due hdrain h.due hs).1.quiet
  have hsame : ∀ {t : State σ}, t.stdout = s.stdout → t.stderr = s.stderr →
      t.wire = s.wire ∨ (∃ r, t.wire = .exit r :: s.wire) → Quiet s t := by
    intro t h1 h2 h3
    refine ⟨.of_eq fun pipe => ?_, ?_⟩
    · cases pipe with
      | stdout => exact congrArg some h1
      | stderr => exact h2
    · rcases h3 with h3 | ⟨r, h3⟩
      · exact ⟨[], h3, fun _ hf => absurd hf List.not_mem_nil⟩
      · refine ⟨[.exit r], h3, fun f hf => ?_⟩
        rw [List.mem_singleton.mp hf]
        rfl
  rw [step.eq_def] at hs
  split at hs
  iterate 9 exact absurd rfl hl
  iterate 4 exact absurd rfl hloop
  iterate 3 exact absurd rfl hdrain
  · rw [reportStep] at hs
    dsimp only at hs
    split at hs
    · split at hs
      · obtain rfl := Option.some.inj hs
        exact hsame rfl rfl (.inr ⟨_, rfl⟩)
      · split at hs
        · cases hs
        · obtain rfl := Option.some.inj hs
          exact hsame rfl rfl (.inl rfl)
    · split at hs
      · obtain rfl := Option.some.inj hs
        exact hsame rfl rfl (.inl rfl)
      · split at hs
        · obtain rfl := Option.some.inj hs
          exact hsame rfl rfl (.inl rfl)
        · cases hs
  · rw [collectStep] at hs
    split at hs
    · cases hs
    · split at hs
      · obtain rfl := Option.some.inj hs
        exact hsame rfl rfl (.inl rfl)
      · split at hs
        · obtain rfl := Option.some.inj hs
          exact hsame rfl rfl (.inl rfl)
        · cases hs
  · cases hs

lemma begin_selected {clock : Instant} {gated : Bool} {stderr : Option (Pipe × Bool)}
    {tracker : Option (Tracker σ)} {pipe : Pipe} {p : Pump}
    (h : (begin clock gated stderr tracker).selected pipe = some p) :
    ∃ gated', p = .new (route stderr pipe) gated' := by
  cases pipe with
  | stdout => exact ⟨gated, (Option.some.inj h).symm⟩
  | stderr =>
    obtain ⟨⟨tag, gated'⟩, rfl, rfl⟩ := Option.map_eq_some_iff.mp h
    exact ⟨gated', rfl⟩

lemma new_cancelled (tag : Pipe) (gated : Bool) : (Pump.new tag gated).cancelled = false := by
  cases gated <;> rfl

lemma begin_ordered (clock : Instant) (gated : Bool) (stderr : Option (Pipe × Bool))
    (tracker : Option (Tracker σ)) : Ordered (begin clock gated stderr tracker) := by
  have hn : ∀ r, Frame.exit r ∉ (begin clock gated stderr tracker).frames := by
    cases tracker <;> simp [State.frames, begin, start, Mode.control]
  have hc : (begin clock gated stderr tracker).cancelled = false := by
    cases stderr <;> simp [State.cancelled, State.outlets, begin, start, new_cancelled]
  refine ⟨?_, fun _ _ => hn, fun r hr => absurd hr (hn r), ?_⟩
  · refine (due_loop ?_).mpr ⟨?_, fun h => Bool.noConfusion (hc.symm.trans h)⟩
    · cases tracker <;> rfl
    · cases stderr <;> rfl
  · cases tracker <;> simp [begin, start, Mode.control]

lemma begin_carried (clock : Instant) (gated : Bool) (stderr : Option (Pipe × Bool))
    (tracker : Option (Tracker σ)) : Carried stderr [] (begin clock gated stderr tracker) := by
  refine ⟨fun pipe p hp => ?_, [], rfl, fun c hc => absurd hc List.not_mem_nil, rfl,
    fun pipe p hp => ?_⟩
  · obtain ⟨g, rfl⟩ := begin_selected hp
    rfl
  · obtain ⟨g, rfl⟩ := begin_selected hp
    exact ⟨fun a ha => absurd ha List.not_mem_nil, rfl⟩

lemma Carried.step {stderr : Option (Pipe × Bool)} {labels : List Label} {l : Label}
    (h : Carried stderr labels s) (ho : Ordered s) (hs : step cfg H s l = some s') :
    Carried stderr (labels ++ [l]) s' := by
  by_cases hl : ∃ pipe action, l = .pump pipe action
  · obtain ⟨pipe, action, rfl⟩ := hl
    exact h.pump hs
  · have hsteps := step_quiet ho (fun pipe action he => hl ⟨pipe, action, he⟩) hs
    refine h.quiet hsteps (fun pipe => ?_) ?_
    all_goals
      cases l with
      | pump pipe action => exact absurd ⟨pipe, action, rfl⟩ hl
      | _ => rfl

lemma run_carried {clock : Instant} {gated : Bool} {stderr : Option (Pipe × Bool)}
    {tracker : Option (Tracker σ)} {labels : List Label}
    (h : Run (fun s l s' => step cfg H s l = some s') (begin clock gated stderr tracker) labels s) :
    Ordered s ∧ Carried stderr labels s := by
  exact h.history (I := fun labels s => Ordered s ∧ Carried stderr labels s)
    (fun _ _ _ _ hi hs => ⟨hi.1.step hs, hi.2.step hi.1 hs⟩)
    ⟨begin_ordered .., begin_carried ..⟩

lemma Adjusted.cancelled (h : Adjusted s s') (hc : s.cancelled = true) : s'.cancelled = true := by
  obtain ⟨p, hp, hpc⟩ := List.any_eq_true.mp hc
  obtain ⟨pipe, hsel⟩ := State.mem_outlets.mp hp
  obtain ⟨f, hf, hs⟩ := h pipe
  obtain ⟨c, hcr, hcc⟩ := (Option.any_eq_true ..).mp hpc
  refine List.any_eq_true.mpr ⟨p.onCredit f, State.mem_outlets.mpr ⟨pipe, ?_⟩, ?_⟩
  · rw [hs, hsel, Option.map_some]
  · exact (Option.any_eq_true ..).mpr ⟨f c, by simp [Pump.onCredit, hcr], hf c hcc⟩

lemma Ordered.written {l : Label} {r : ExitReport} (h : Ordered s)
    (hs : Supervisor.step cfg H s l = some s') (hw : s'.wire = .exit r :: s.wire)
    (hr : r.outputTruncated = false) :
    (s.finished = s.pumps ∧ s.cancelled = false) ∧ s'.finished = s'.pumps := by
  have hmem : Frame.exit r ∈ s'.frames := by
    rw [State.frames, hw]
    exact List.mem_append_left _ List.mem_cons_self
  obtain ⟨hall, hcan⟩ := (h.step hs).complete r hmem hr
  by_cases hl : ∃ pipe action, l = .pump pipe action
  · obtain ⟨pipe, action, rfl⟩ := hl
    obtain ⟨p, p', hp⟩ := pumpStep_pumped hs
    exact absurd hw (hp.no_exit r)
  · have hq := (step_quiet h (fun pipe action he => hl ⟨pipe, action, he⟩) hs).adjusted
    rw [hq.finished, hq.pumps] at hall
    refine ⟨⟨hall, ?_⟩, by rw [hq.finished, hq.pumps, hall]⟩
    by_contra hc
    rw [Bool.not_eq_false] at hc
    exact Bool.noConfusion (hcan.symm.trans (hq.cancelled hc))

lemma Ordered.silent (h : Ordered s) (hall : s.finished = s.pumps) {labels : List Label}
    (hrun : Run (fun s l s' => Supervisor.step cfg H s l = some s') s labels s') :
    ∃ newer, s'.wire = newer ++ s.wire ∧ ∀ f ∈ newer, f.output? = none := by
  have hinv := hrun.invariant (I := fun t => Ordered t ∧ t.finished = t.pumps ∧
    ∃ newer, t.wire = newer ++ s.wire ∧ ∀ f ∈ newer, f.output? = none) ?_ ⟨h, hall, [], rfl, ?_⟩
  · exact hinv.2.2
  · rintro t l t' ⟨ho, hall, newer, hw, hn⟩ hs
    by_cases hl : ∃ pipe action, l = .pump pipe action
    · obtain ⟨pipe, action, rfl⟩ := hl
      obtain ⟨p, p', hp⟩ := pumpStep_pumped hs
      exact absurd (State.all_closed hall hp.selected) hp.not_closed
    · obtain ⟨ha, newer', hw', hn'⟩ :=
        step_quiet ho (fun pipe action he => hl ⟨pipe, action, he⟩) hs
      refine ⟨ho.step hs, by rw [ha.finished, ha.pumps, hall], newer' ++ newer, ?_, fun f hf => ?_⟩
      · rw [hw', hw, List.append_assoc]
      · rcases List.mem_append.mp hf with hf | hf
        · exact hn' f hf
        · exact hn f hf
  · exact fun _ hf => absurd hf List.not_mem_nil

def Exhausted (pipe : Pipe) (labels : List Label) : Prop :=
  ∃ as, answers pipe labels = as ++ [.eof] ∧ ∀ a ∈ as, ReadAnswer.ends a = false

def Ended (pipe : Pipe) (labels : List Label) : Prop :=
  ∃ as a, answers pipe labels = as ++ [a] ∧ ReadAnswer.ends a = true ∧
    ∀ b ∈ as, ReadAnswer.ends b = false

lemma Ended.exhausted {pipe : Pipe} {labels : List Label} (h : Ended pipe labels)
    (hf : .failed ∉ answers pipe labels) : Exhausted pipe labels := by
  obtain ⟨as, a, he, ha, hn⟩ := h
  cases a with
  | eof => exact ⟨as, he, hn⟩
  | failed => exact absurd (he ▸ List.mem_append_right _ List.mem_cons_self) hf
  | data | interrupted => cases ha

def Unfailed (pipe : Pipe) (labels : List Label) : Prop :=
  .failed ∉ answers pipe labels ∧ Label.pump pipe (.write false) ∉ labels

lemma route_id {stderr : Option (Pipe × Bool)} (hr : route stderr .stderr = .stderr) :
    Prod.map (route stderr) (id : Bytes → Bytes) = id := by
  funext c
  obtain ⟨q, b⟩ := c
  cases q with
  | stdout => rfl
  | stderr => exact congrArg (·, b) hr

/-- When an EXIT that does not report truncated output is written, every pump has ended its pipe
and is gone; from then on only control frames are written, and the output frames of the wire are
the bytes read from the pipes up to their EOF. -/
theorem exit_after_output (cfg : Config) (H : Host σ) (clock : Instant) (gated : Bool)
    (stderr : Option (Pipe × Bool)) (tracker : Option (Tracker σ)) (before after : List Label)
    (l : Label) (s₁ s₂ s : State σ) (r : ExitReport)
    (hbefore : Run (fun s l s' => step cfg H s l = some s') (begin clock gated stderr tracker)
      before s₁)
    (hwrites : step cfg H s₁ l = some s₂) (hexit : s₂.wire = .exit r :: s₁.wire)
    (hwhole : r.outputTruncated = false)
    (hafter : Run (fun s l s' => step cfg H s l = some s') s₂ after s) :
    (∀ pipe p, s₁.selected pipe = some p → p.point = .closed ∧
      (Exhausted pipe before ∨ ¬ Unfailed pipe before)) ∧
    (∃ newer, s.wire = newer ++ s₂.wire ∧ ∀ f ∈ newer, f.output? = none) ∧
    (∃ chunks, outputs s.wire = chunks.map (Prod.map (route stderr) id) ∧
      (∀ c ∈ chunks, (s₁.selected c.1).isSome = true) ∧
      ∀ pipe p, s₁.selected pipe = some p → Unfailed pipe before →
        Exhausted pipe before ∧ carried pipe chunks = received pipe before) ∧
    (route stderr .stderr = .stderr →
      ∀ pipe p, s₁.selected pipe = some p → Unfailed pipe before →
        carried pipe (outputs s.wire) = received pipe before) := by
  obtain ⟨ho, hc⟩ := run_carried hbefore
  obtain ⟨⟨hall, hcan⟩, hall'⟩ := ho.written hwrites hexit hwhole
  obtain ⟨newer, hw, hn⟩ := (ho.step hwrites).silent hall' hafter
  obtain ⟨chunks, hout, hsome, -, hacc⟩ := hc.chunks
  have hstop : ∀ pipe p, s₁.selected pipe = some p →
      Stopped pipe before (carried pipe chunks) false := by
    intro pipe p hp
    have ha := hacc pipe p hp
    rwa [Accounted, State.all_closed hall hp, State.not_cancelled hcan hp] at ha
  have hexact : ∀ pipe p, s₁.selected pipe = some p → Unfailed pipe before →
      Exhausted pipe before ∧ carried pipe chunks = received pipe before := by
    rintro pipe p hp ⟨hf, hu⟩
    cases hstop pipe p hp with
    | ended he ha hn hb => exact ⟨Ended.exhausted ⟨_, _, he, ha, hn⟩ hf, hb.symm⟩
    | unwritten he => exact absurd he hu
    | cancelled he => cases he
  have hwire : outputs s.wire = outputs s₁.wire := by
    rw [hw, outputs_append hn, hexit, outputs_cons]
    simp [Frame.output?]
  refine ⟨fun pipe p hp => ⟨State.all_closed hall hp, ?_⟩, ⟨newer, hw, hn⟩,
    ⟨chunks, hwire.trans hout, hsome, hexact⟩, fun hr pipe p hp hu => ?_⟩
  · by_cases hu : Unfailed pipe before
    · exact .inl (hexact pipe p hp hu).1
    · exact .inr hu
  · rw [hwire, hout, route_id hr, List.map_id, (hexact pipe p hp hu).2]

def spokenLabels : List Label :=
  [.pump .stdout .permit, .pump .stdout (.read (.data [1, 2])), .tick ⟨false, 0, 0⟩,
    .childExits (some ⟨some 0, none⟩), .receive ⟨[], [], []⟩, .tick ⟨false, 0, 0⟩,
    .elapse sampleInterval, .timeout, .tick ⟨false, 0, 0⟩,
    .finish ⟨0, [.exited ⟨some 0, none⟩], [true]⟩, .pump .stdout (.write true),
    .pump .stdout .permit, .pump .stdout (.read .eof), .pump .stdout .done,
    .pump .stderr .permit, .pump .stderr (.read .eof), .pump .stderr .done,
    .drain, .drain, .drain, .report true]

def spokenStart : State ℕ :=
  begin 0 false (some (.stderr, false))
    (some (tracked (quietMachine 1000) 0 (leader 1) (.withSource (leader 2))))

theorem exit_after_output_spoken :
    ∃ s₁ s₂, exec (step quietConfig (quietMachine 1000)) spokenStart spokenLabels = some s₁ ∧
      step quietConfig (quietMachine 1000) s₁ (.deliver true) = some s₂ ∧
      carried .stdout (outputs s₂.wire) = [1, 2] := by
  have hk : (exec (step quietConfig (quietMachine 1000)) spokenStart spokenLabels).any (fun s =>
      (step quietConfig (quietMachine 1000) s (.deliver true)).any fun s' =>
        decide (s'.wire = .exit quietReport :: s.wire)) = true := by
    decide +kernel
  obtain ⟨s₁, h₁, hk⟩ := Option.any_eq_true .. |>.mp hk
  obtain ⟨s₂, h₂, hw⟩ := Option.any_eq_true .. |>.mp hk
  have hexact := (exit_after_output quietConfig (quietMachine 1000) 0 false (some (.stderr, false))
    _ spokenLabels [] (.deliver true) s₁ s₂ s₂ quietReport (exec_run h₁) h₂ (of_decide_eq_true hw)
    rfl (.nil s₂)).2.2.2 rfl .stdout s₁.stdout rfl ⟨by decide, by decide⟩
  exact ⟨s₁, s₂, h₁, h₂, hexact⟩

end Supervisor

end Forcola.Native
