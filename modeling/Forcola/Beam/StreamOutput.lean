import Forcola.Beam.StreamTimeouts

/-! The lines a stream emits, against the output frames it was sent. -/

namespace Forcola.Beam.Stream

open Library
open Native (Bytes Pipe)

def fed (cfg : Options) : List Effect → Bytes
  | [] => []
  | .received pipe payload :: older =>
    if feeds cfg pipe then fed cfg older ++ payload else fed cfg older
  | _ :: older => fed cfg older

def emittedLines : List Effect → List Bytes
  | [] => []
  | .emitted lines :: older => emittedLines older ++ lines
  | _ :: older => emittedLines older

/-- A step that ends the stream other than by an EXIT frame finds no partial line. -/
def Flushed (s : State) : Label → Prop
  | .expire => ∀ wait, s.phase = .receiving wait → wait ≤ longestWait → s.buffer = []
  | .message .exitStatus | .message (.data .error _) =>
    ∀ wait, s.phase = .receiving wait → s.buffer = []
  | _ => True

/-- A run that ends, if it ends, by an EXIT frame or between two lines. -/
def FlushedRun (cfg : Options) (clock : ℕ → Instant) : State → List Label → State → Prop :=
  Transition.Run fun s l t => step cfg clock s l = some t ∧ Flushed s l

def Emitted (cfg : Options) (s : State) : Prop :=
  emittedLines s.log = Lines.closed newline (fed cfg s.log)

def Unlimited (exit : Exit) : Prop :=
  ∀ e, exit = .error e → e.limit = none

variable {cfg : Options} {clock : ℕ → Instant} {s t u : State} {l : Label} {log : List Effect}

def Splits (cfg : Options) (s : State) : Prop :=
  s.buffer = Lines.rest newline (fed cfg s.log) ∧
    emittedLines s.log = Lines.lines newline (fed cfg s.log)

structure Flowing (cfg : Options) (s : State) : Prop where
  splits : s.exit = none → (∀ lines limit deadline, s.phase ≠ .awaiting (.limit lines limit) deadline) →
    Splits cfg s
  receiving : ∀ wait, s.phase = .receiving wait → s.exit = none
  awaiting : ∀ purpose deadline, s.phase = .awaiting purpose deadline → s.exit = none
  idle : ∀ deadline, s.phase = .awaiting .idle deadline → s.buffer = []
  emitted : ∀ exit, s.exit = some exit → Unlimited exit → Emitted cfg s

lemma aside_output {es : List Effect} (hes : ∀ e ∈ es, e.aside = true) :
    fed cfg (es ++ log) = fed cfg log ∧ emittedLines (es ++ log) = emittedLines log := by
  induction es with
  | nil => exact ⟨rfl, rfl⟩
  | cons e es ih =>
    obtain ⟨hfed, hemitted⟩ := ih fun x hx => hes x (List.mem_cons_of_mem _ hx)
    have he := hes e List.mem_cons_self
    cases e with
    | emitted lines =>
      obtain rfl : lines = [] := List.isEmpty_iff.mp he
      exact ⟨hfed, (List.append_nil _).trans hemitted⟩
    | received pipe payload => cases he
    | timeout => cases he
    | _ => exact ⟨hfed, hemitted⟩

lemma Aside.splits (h : Aside s t) (hs : Splits cfg s) : Splits cfg t := by
  obtain ⟨es, hes, hlog⟩ := h.log
  obtain ⟨hfed, hemitted⟩ := @aside_output cfg s.log _ hes
  rw [Splits, h.buffer, hlog, hfed, hemitted]
  exact hs

lemma Decides.emitted {exit : Exit} {final : List Bytes} (h : Decides s t exit final)
    (hs : Splits cfg s)
    (hfinal : final = if Lines.rest newline (fed cfg s.log) = [] then []
      else [Lines.rest newline (fed cfg s.log)]) : Emitted cfg t := by
  obtain ⟨es, hes, hlog⟩ := h.log
  obtain ⟨hfed, hemitted⟩ := @aside_output cfg s.log _ hes
  rw [Emitted, hlog]
  change emittedLines (es ++ s.log) ++ final = Lines.closed newline (fed cfg (es ++ s.log))
  rw [hfed, hemitted, hs.2, hfinal]
  rfl

lemma Decides.emitted_flushed {exit : Exit} (h : Decides s t exit []) (hs : Splits cfg s)
    (hbuffer : s.buffer = []) : Emitted cfg t :=
  h.emitted hs (if_pos (hs.1.symm.trans hbuffer)).symm

namespace Flowing

lemma undecided (he : t.exit = none) (hs : Splits cfg t)
    (hp : ∀ deadline, t.phase ≠ .awaiting .idle deadline) : Flowing cfg t where
  splits _ _ := hs
  receiving _ _ := he
  awaiting _ _ _ := he
  idle deadline h := absurd h (hp deadline)
  emitted exit h := by cases he.symm.trans h

lemma decided {exit : Exit} (he : t.exit = some exit) (hr : ∀ wait, t.phase ≠ .receiving wait)
    (ha : ∀ purpose deadline, t.phase ≠ .awaiting purpose deadline)
    (h : Unlimited exit → Emitted cfg t) : Flowing cfg t where
  splits hn _ := by cases he.symm.trans hn
  receiving wait hp := absurd hp (hr wait)
  awaiting purpose deadline hp := absurd hp (ha purpose deadline)
  idle deadline hp := absurd hp (ha .idle deadline)
  emitted exit' hx hu := by
    obtain rfl := Option.some.inj (he.symm.trans hx)
    exact h hu

lemma handed (h : Flowing cfg s) {exit : Exit} (he : s.exit = some exit) {phase : Phase}
    (hr : ∀ wait, phase ≠ .receiving wait)
    (ha : ∀ purpose deadline, phase ≠ .awaiting purpose deadline) :
    Flowing cfg { s with phase := phase } :=
  decided he hr ha (h.emitted exit he)

lemma waits {purpose : Purpose} (he : s.exit = none)
    (hs : (∀ lines limit, purpose ≠ .limit lines limit) → Splits cfg s)
    (hi : purpose = .idle → s.buffer = []) (h : Waits cfg purpose s t) : Flowing cfg t := by
  cases h with
  | waiting deadline h hidle hp =>
    have hnone := h.exit.trans he
    constructor
    · intro _ hlimit
      apply h.splits (hs _)
      rintro lines limit rfl
      exact hlimit lines limit deadline hp
    · exact fun _ _ => hnone
    · exact fun _ _ _ => hnone
    · intro d hd
      rw [h.buffer]
      exact hi (Phase.awaiting.inj (hp.symm.trans hd)).1
    · intro exit hx
      cases hnone.symm.trans hx
  | @concluded u result h hidle =>
    cases purpose with
    | idle =>
      obtain ⟨e, -, -, -, -, hd⟩ := @conclude_idle cfg u result
      refine decided hd.exit (by simp [hd.phase]) (by simp [hd.phase]) fun _ => ?_
      exact hd.emitted_flushed (h.splits (hs (by simp))) (h.buffer.trans (hi rfl))
    | limit lines limit =>
      obtain ⟨e, hl, -, -, hd⟩ := @conclude_limit cfg u lines limit result
      refine decided hd.exit (by simp [hd.phase]) (by simp [hd.phase]) fun hunlimited => ?_
      cases hl.symm.trans (hunlimited e rfl)
    | cleanup =>
      obtain ⟨haside, hphase⟩ := @conclude_cleanup cfg u result
      exact undecided (haside.exit.trans (h.exit.trans he))
        (haside.splits (h.splits (hs (by simp)))) (by simp [hphase])

lemma takes (hs : Splits cfg s) {pipe : Pipe} {payload : Bytes} (h : Takes cfg s t pipe payload) :
    Splits cfg t := by
  obtain ⟨hbuffer, hemitted⟩ := hs
  have hlog : fed cfg t.log =
      if feeds cfg pipe then fed cfg s.log ++ payload else fed cfg s.log := by
    rw [h.log]
    rfl
  have hlines : emittedLines t.log = emittedLines s.log ++
      if feeds cfg pipe then Lines.lines newline (s.buffer ++ payload) else [] := by
    rw [h.log]
    rfl
  rw [Splits, hlog, hlines, h.buffer, hemitted, hbuffer]
  split
  · exact ⟨(Lines.rest_append _ _).symm, (Lines.lines_append _ _).symm⟩
  · exact ⟨rfl, List.append_nil _⟩

lemma step (h : Flowing cfg s) (hf : Flushed s l) (hs : step cfg clock s l = some t) :
    Flowing cfg t := by
  have hready : s.phase = .ready → s.exit = none → Splits cfg s :=
    fun hp he => h.splits he (by simp [hp])
  have hreceiving : ∀ wait, s.phase = .receiving wait → s.exit = none ∧ Splits cfg s := by
    intro wait hp
    have he := h.receiving wait hp
    exact ⟨he, h.splits he (by simp [hp])⟩
  cases step_turn hs with
  | asks hp he ha wait hw =>
    exact undecided (ha.exit.trans he) (ha.splits (hready hp he)) (by simp [hw])
  | halts hp he => exact h.handed he (by simp) (by simp)
  | raises hp e he => exact h.handed he (by simp) (by simp)
  | leaves hp he hw => exact waits he (fun _ => hready hp he) (by simp) hw
  | abandons hp exit he => exact h.handed he (by simp) (by simp)
  | rewaits hp ha wait' hw =>
    obtain ⟨he, hsplits⟩ := hreceiving _ hp
    exact undecided (ha.exit.trans he) (ha.splits hsplits) (by simp [hw])
  | idles hp hlong hi hw =>
    obtain ⟨he, hsplits⟩ := hreceiving _ hp
    exact waits (s := s.add .timeout) he (fun _ => hsplits) (fun _ => hf _ hp hlong) hw
  | stops hp hlong hi e hl ht hn ho hd =>
    obtain ⟨he, hsplits⟩ := hreceiving _ hp
    refine decided hd.exit (by simp [hd.phase]) (by simp [hd.phase]) fun _ => ?_
    exact hd.emitted_flushed (s := s.add .timeout) hsplits (hf _ hp hlong)
  | notes hp hm ha hw =>
    obtain ⟨he, hsplits⟩ := hreceiving _ hp
    refine undecided (ha.exit.trans he) (ha.splits hsplits) ?_
    rcases hw with hw | ⟨wait', hw⟩ <;> simp [hw]
  | takes hp hm htakes =>
    obtain ⟨he, hsplits⟩ := hreceiving _ hp
    exact undecided (htakes.exit.trans he) (takes hsplits htakes) (by simp [htakes.phase])
  | exceeds hp hm hexceeds =>
    obtain ⟨he, -⟩ := hreceiving _ hp
    obtain ⟨u, lines, limit, -, hnone, -, hw⟩ := hexceeds
    exact waits (hnone.trans he) (fun hne => absurd rfl (hne lines limit)) (by simp) hw
  | exits hp exit hd hx =>
    obtain ⟨he, hsplits⟩ := hreceiving _ hp
    refine decided hd.exit (by simp [hd.phase]) (by simp [hd.phase]) fun _ => ?_
    apply hd.emitted hsplits
    rw [← hsplits.1]
    simp only [List.isEmpty_iff]
  | fails hp hm e he hd =>
    obtain ⟨hnone, hsplits⟩ := hreceiving _ hp
    refine decided hd.exit (by simp [hd.phase]) (by simp [hd.phase]) fun _ => ?_
    apply hd.emitted_flushed hsplits
    rcases hm with rfl | ⟨payload, rfl⟩
    · exact hf _ hp
    · exact hf _ hp
  | @awaits t purpose deadline hp _ hm hw =>
    have he := h.awaiting _ _ hp
    refine waits he (fun hne => h.splits he fun lines limit d hd => ?_) ?_ hw
    · exact hne lines limit (Phase.awaiting.inj (hp.symm.trans hd)).1
    · rintro rfl
      exact h.idle _ hp
  | @reports purpose deadline hp payload =>
    have he := h.awaiting _ _ hp
    refine waits he (fun hne => h.splits he fun lines limit d hd => ?_) ?_
      (.concluded _ (.refl s) rfl)
    · exact hne lines limit (Phase.awaiting.inj (hp.symm.trans hd)).1
    · rintro rfl
      exact h.idle _ hp

end Flowing

lemma start_flowing (timeoutMs reads : ℕ) : Flowing cfg (start cfg clock timeoutMs reads) := by
  have hlog : fed cfg (start cfg clock timeoutMs reads).log = [] ∧
      emittedLines (start cfg clock timeoutMs reads).log = [] := by
    simp only [start]
    cases cfg.maxStderrBytes <;> exact ⟨rfl, rfl⟩
  refine .undecided rfl ?_ (by simp [start])
  rw [Splits, hlog.1, hlog.2]
  exact ⟨rfl, rfl⟩

/-- A stream that ends between two lines, or by an EXIT frame, and over no limit has emitted every
line it was sent. -/
theorem flushed_emits (cfg : Options) (clock : ℕ → Instant) (timeoutMs reads : ℕ)
    (labels : List Label) (s : State) (exit : Exit)
    (h : FlushedRun cfg clock (start cfg clock timeoutMs reads) labels s)
    (he : s.exit = some exit) (hlimit : Unlimited exit) : Emitted cfg s := by
  have hflowing : Flowing cfg s :=
    Transition.Run.invariant (fun s l t hs hst => hs.step hst.2 hst.1) h (start_flowing timeoutMs reads)
  exact hflowing.emitted exit he hlimit

def partialRun (last : List Label) : List Label :=
  .pull :: .message (.data .stdout [97, newline, 98]) :: .pull :: last

/-- The EXIT frame brings out what the buffer holds. -/
theorem flushed_emits_exit : ∃ s exit,
    Transition.exec (step (idleStream 300 false) (expiresAt 300))
      (start (idleStream 300 false) (expiresAt 300) 1000 0)
      (partialRun [.message (.data .exit [])]) = some s ∧
    s.exit = some exit ∧ emittedLines s.log = [[97], [98]] ∧ Emitted (idleStream 300 false) s := by
  refine ⟨_, _, rfl, rfl, by decide, flushed_emits _ (expiresAt 300) 1000 0
    (partialRun [.message (.data .exit [])]) _ _ ?_ rfl ?_⟩
  · exact .cons ⟨rfl, trivial⟩ (.cons ⟨rfl, trivial⟩ (.cons ⟨rfl, trivial⟩
      (.cons ⟨rfl, trivial⟩ (.nil _))))
  · intro e he
    obtain rfl := Exit.error.inj he
    rfl

/-- An idle expiry leaves the second line in the buffer, and nothing says so. -/
theorem partial_dropped : ∃ s e,
    Transition.exec (step (idleStream 300 false) (expiresAt 300))
      (start (idleStream 300 false) (expiresAt 300) 1000 0)
      (partialRun [.expire, .message (.data .exit []), .pull]) = some s ∧
    s.phase = .raised e ∧ e.limit = none ∧ e.outputTruncated = false ∧
    emittedLines s.log = [[97]] ∧ ¬Emitted (idleStream 300 false) s := by
  refine ⟨_, _, rfl, rfl, rfl, rfl, by decide, ?_⟩
  rw [Emitted]
  decide

end Forcola.Beam.Stream
