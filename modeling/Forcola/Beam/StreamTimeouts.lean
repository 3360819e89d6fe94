import Forcola.Beam.StreamSteps

/-! Which bound a stream's error names. -/

namespace Forcola.Beam.Stream

open Library
open Native (Bytes Pipe)

def saysTimedOut (cfg : Options) (payload : Bytes) : Bool :=
  (Shim.decodeMap (cfg.json payload)).isTrue "timed_out"

def wholeRun (clock : ℕ → Instant) (timeoutMs reads : ℕ) : Instant :=
  clock reads + timeoutMs

/-- The run was still going when its bound elapsed. `ended` is when it was over, because the child
had exited, the shim was gone or a limit had stopped it; the stream cannot see it. -/
def Overran (ended : Option Instant) (whole : Instant) : Prop :=
  ∀ time, ended = some time → whole ≤ time

def WholeFirst (ended : Option Instant) (whole : Instant) (s : State) : Prop :=
  Overran ended whole ∧ ∀ idleDeadline, s.idleDeadline = some idleDeadline → whole ≤ idleDeadline

/-- The error of a stream that handled the given labels names the bound that came first. -/
structure Attributed (cfg : Options) (ended : Option Instant) (whole : Instant)
    (labels : List Label) (s : State) (e : Error) : Prop where
  idle : e.idleTimedOut = true →
    (∃ idleDeadline, s.idleDeadline = some idleDeadline ∧ idleDeadline < whole) ∧
      ∀ payload, .message (.data .exit payload) ∈ labels → saysTimedOut cfg payload = false
  first : WholeFirst ended whole s → e.timedOut = true ∧ e.idleTimedOut = false
  expired : .timeout ∈ s.log →
    (∀ idleDeadline, s.idleDeadline = some idleDeadline → whole ≤ idleDeadline) →
      e.timedOut = true ∧ e.idleTimedOut = false
  reported : ∀ payload, .message (.data .exit payload) ∈ labels → saysTimedOut cfg payload = true →
    e.timedOut = true ∧ e.idleTimedOut = false

/-- No wait expires with an idle deadline in the cleanup budget; no wait for EXIT after a KILL is
told of a timeout; and a run still going at its bound is ended by an EXIT that says so, not by
the loss of the shim or a limit. -/
def InOrder (cfg : Options) (ended : Option Instant) (whole : Instant) (s : State) : Label → Prop
  | .expire => ∀ wait, s.phase = .receiving wait → wait ≤ longestWait →
      ∀ idleDeadline, s.idleDeadline = some idleDeadline → whole ≤ idleDeadline →
        s.deadline < idleDeadline
  | .message (.data .exit payload) =>
      (∀ wait, s.phase = .receiving wait → WholeFirst ended whole s →
        saysTimedOut cfg payload = true) ∧
      ∀ purpose deadline, s.phase = .awaiting purpose deadline → purpose ≠ .cleanup →
        saysTimedOut cfg payload = false
  | .message .exitStatus | .message (.data .error _) =>
      ∀ wait, s.phase = .receiving wait → ¬WholeFirst ended whole s
  | .message message =>
      ∀ wait, s.phase = .receiving wait → Overran ended whole → overLimit cfg s message = none
  | _ => True

def OrderedRun (cfg : Options) (clock : ℕ → Instant) (ended : Option Instant) (whole : Instant) :
    State → List Label → State → Prop :=
  Transition.Run fun s l t => step cfg clock s l = some t ∧ InOrder cfg ended whole s l

structure Timely (cfg : Options) (ended : Option Instant) (whole : Instant) (labels : List Label)
    (s : State) : Prop where
  deadline : s.deadline = whole + cfg.cleanupTimeout
  untimed : s.exit = none → (∀ deadline, s.phase ≠ .awaiting .idle deadline) → .timeout ∉ s.log
  unreported : s.exit = none → s.phase ≠ .abandoned →
    ∀ payload, .message (.data .exit payload) ∉ labels
  receiving : ∀ wait, s.phase = .receiving wait → s.exit = none
  awaiting : ∀ purpose deadline, s.phase = .awaiting purpose deadline → s.exit = none
  idle : ∀ deadline, s.phase = .awaiting .idle deadline →
    ∃ idleDeadline, s.idleDeadline = some idleDeadline ∧ idleDeadline < whole
  limited : ∀ lines limit deadline, s.phase = .awaiting (.limit lines limit) deadline →
    ¬Overran ended whole
  attributed : ∀ e, s.exit = some (.error e) → Attributed cfg ended whole labels s e

variable {cfg : Options} {clock : ℕ → Instant} {ended : Option Instant} {whole : Instant}
  {labels : List Label} {l : Label} {s t u : State} {e : Error}

lemma report_timedOut (tracking : Tracking) (payload : Bytes) :
    (tracking.report (cfg.json payload)).timedOut = saysTimedOut cfg payload := by
  rw [Tracking.report]
  split <;> rfl

lemma Aside.untimed (h : Aside s t) (hs : .timeout ∉ s.log) : .timeout ∉ t.log := by
  obtain ⟨es, hes, hlog⟩ := h.log
  rw [hlog]
  intro hin
  rcases List.mem_append.mp hin with hin | hin
  · cases hes _ hin
  · exact hs hin

lemma Decides.untimed {exit : Exit} {final : List Bytes} (h : Decides s t exit final)
    (hs : .timeout ∉ s.log) : .timeout ∉ t.log := by
  obtain ⟨es, hes, hlog⟩ := h.log
  rw [hlog]
  intro hin
  rcases List.mem_cons.mp hin with hin | hin
  · cases hin
  · rcases List.mem_append.mp hin with hin | hin
    · cases hes _ hin
    · exact hs hin

lemma unreported_snoc (h : ∀ payload, .message (.data .exit payload) ∉ labels)
    (hl : ∀ payload, l ≠ .message (.data .exit payload)) :
    ∀ payload, .message (.data .exit payload) ∉ labels ++ [l] := by
  intro payload hin
  rcases List.mem_append.mp hin with hin | hin
  · exact h payload hin
  · exact hl payload (List.mem_singleton.mp hin).symm

namespace Timely

lemma undecided (hd : t.deadline = whole + cfg.cleanupTimeout) (he : t.exit = none)
    (hlog : .timeout ∉ t.log) (hexit : ∀ payload, .message (.data .exit payload) ∉ labels)
    (hp : ∀ purpose deadline, t.phase = .awaiting purpose deadline → purpose = .cleanup) :
    Timely cfg ended whole labels t where
  deadline := hd
  untimed _ _ := hlog
  unreported _ _ := hexit
  receiving _ _ := he
  awaiting _ _ _ := he
  idle deadline h := by cases hp _ _ h
  limited lines limit deadline h := by cases hp _ _ h
  attributed e h := by cases he.symm.trans h

lemma idling (hd : t.deadline = whole + cfg.cleanupTimeout) (he : t.exit = none)
    (hexit : ∀ payload, .message (.data .exit payload) ∉ labels)
    (hi : ∃ idleDeadline, t.idleDeadline = some idleDeadline ∧ idleDeadline < whole)
    {deadline : Instant} (hp : t.phase = .awaiting .idle deadline) :
    Timely cfg ended whole labels t where
  deadline := hd
  untimed _ h := absurd hp (h deadline)
  unreported _ _ := hexit
  receiving _ _ := he
  awaiting _ _ _ := he
  idle _ _ := hi
  limited lines limit deadline h := by cases hp.symm.trans h
  attributed e h := by cases he.symm.trans h

lemma stopping (hd : t.deadline = whole + cfg.cleanupTimeout) (he : t.exit = none)
    (hlog : .timeout ∉ t.log) (hexit : ∀ payload, .message (.data .exit payload) ∉ labels)
    (ho : ¬Overran ended whole) {lines : List Bytes} {limit : Limit} {deadline : Instant}
    (hp : t.phase = .awaiting (.limit lines limit) deadline) : Timely cfg ended whole labels t where
  deadline := hd
  untimed _ _ := hlog
  unreported _ _ := hexit
  receiving _ _ := he
  awaiting _ _ _ := he
  idle deadline h := by cases hp.symm.trans h
  limited _ _ _ _ := ho
  attributed e h := by cases he.symm.trans h

lemma abandoned (hd : t.deadline = whole + cfg.cleanupTimeout) (he : t.exit = none)
    (hlog : .timeout ∉ t.log) (hp : t.phase = .abandoned) : Timely cfg ended whole labels t where
  deadline := hd
  untimed _ _ := hlog
  unreported _ h := absurd hp h
  receiving _ _ := he
  awaiting _ _ _ := he
  idle deadline h := by cases hp.symm.trans h
  limited lines limit deadline h := by cases hp.symm.trans h
  attributed e h := by cases he.symm.trans h

lemma decided {exit : Exit} (hd : t.deadline = whole + cfg.cleanupTimeout)
    (he : t.exit = some exit) (hr : ∀ wait, t.phase ≠ .receiving wait)
    (ha : ∀ purpose deadline, t.phase ≠ .awaiting purpose deadline)
    (h : ∀ e, exit = .error e → Attributed cfg ended whole labels t e) :
    Timely cfg ended whole labels t where
  deadline := hd
  untimed hn _ := by cases he.symm.trans hn
  unreported hn _ := by cases he.symm.trans hn
  receiving wait hp := absurd hp (hr wait)
  awaiting purpose deadline hp := absurd hp (ha purpose deadline)
  idle deadline hp := absurd hp (ha .idle deadline)
  limited lines limit deadline hp := absurd hp (ha _ deadline)
  attributed e hx := h e (Option.some.inj (he.symm.trans hx))

end Timely

lemma attributed_plain (hlog : .timeout ∉ t.log) (he : e.idleTimedOut = false)
    (hwhole : WholeFirst ended whole t → e.timedOut = true)
    (hexit : ∀ payload, .message (.data .exit payload) ∈ labels → saysTimedOut cfg payload = true →
      e.timedOut = true) : Attributed cfg ended whole labels t e where
  idle h := by cases he.symm.trans h
  first h := ⟨hwhole h, he⟩
  expired h := absurd h hlog
  reported payload hin hsays := ⟨hexit payload hin hsays, he⟩

lemma attributed_idle (hi : ∃ idleDeadline, t.idleDeadline = some idleDeadline ∧ idleDeadline < whole)
    (hexit : ∀ payload, .message (.data .exit payload) ∈ labels → saysTimedOut cfg payload = false) :
    Attributed cfg ended whole labels t e := by
  have hnot : ¬∀ idleDeadline, t.idleDeadline = some idleDeadline → whole ≤ idleDeadline := by
    intro h
    obtain ⟨idleDeadline, hsome, hlt⟩ := hi
    exact absurd (h idleDeadline hsome) (not_le.mpr hlt)
  refine ⟨fun _ => ⟨hi, hexit⟩, fun h => absurd h.2 hnot, fun _ h => absurd h hnot, ?_⟩
  intro payload hin hsays
  rw [hexit payload hin] at hsays
  cases hsays

lemma waits_timely {purpose : Purpose} (hd : s.deadline = whole + cfg.cleanupTimeout)
    (he : s.exit = none) (hlog : purpose ≠ .idle → .timeout ∉ s.log)
    (hi : purpose = .idle → ∃ idleDeadline, s.idleDeadline = some idleDeadline ∧ idleDeadline < whole)
    (ho : ∀ lines limit, purpose = .limit lines limit → ¬Overran ended whole)
    (hexit : ∀ payload, .message (.data .exit payload) ∉ labels) (h : Waits cfg purpose s t) :
    Timely cfg ended whole labels t := by
  cases h with
  | waiting deadline h hidle hp =>
    have hdead := h.deadline.trans hd
    have hnone := h.exit.trans he
    cases purpose with
    | idle =>
      obtain ⟨idleDeadline, hsome, hlt⟩ := hi rfl
      exact .idling hdead hnone hexit ⟨idleDeadline, hidle.trans hsome, hlt⟩ hp
    | limit lines limit =>
      exact .stopping hdead hnone (h.untimed (hlog (by simp))) hexit (ho lines limit rfl) hp
    | cleanup =>
      refine .undecided hdead hnone (h.untimed (hlog (by simp))) hexit fun purpose d hd => ?_
      exact (Phase.awaiting.inj (hp.symm.trans hd)).1.symm
  | @concluded u result h hidle =>
    have hdead := h.deadline.trans hd
    cases purpose with
    | idle =>
      obtain ⟨idleDeadline, hsome, hlt⟩ := hi rfl
      obtain ⟨e, hl, ht, hn, ho, hdecides⟩ := @conclude_idle cfg u result
      refine .decided (hdecides.deadline.trans hdead) hdecides.exit
        (by simp [hdecides.phase]) (by simp [hdecides.phase]) fun e' he' => ?_
      exact attributed_idle ⟨idleDeadline, hdecides.idleDeadline.trans (hidle.trans hsome), hlt⟩
        fun payload hin => absurd hin (hexit payload)
    | limit lines limit =>
      obtain ⟨e, hl, ht, hn, hdecides⟩ := @conclude_limit cfg u lines limit result
      refine .decided (hdecides.deadline.trans hdead) hdecides.exit
        (by simp [hdecides.phase]) (by simp [hdecides.phase]) fun e' he' => ?_
      obtain rfl := Exit.error.inj he'
      exact attributed_plain (hdecides.untimed (h.untimed (hlog (by simp)))) hn
        (fun hfirst => absurd hfirst.1 (ho lines limit rfl))
        fun payload hin => absurd hin (hexit payload)
    | cleanup =>
      obtain ⟨haside, hphase⟩ := @conclude_cleanup cfg u result
      exact .abandoned (haside.deadline.trans hdead) (haside.exit.trans (h.exit.trans he))
        (haside.untimed (h.untimed (hlog (by simp)))) hphase

lemma Timely.handed (h : Timely cfg ended whole labels s) {exit : Exit} (he : s.exit = some exit)
    (hl : ∀ payload, l ≠ .message (.data .exit payload)) {phase : Phase}
    (hr : ∀ wait, phase ≠ .receiving wait) (ha : ∀ purpose deadline, phase ≠ .awaiting purpose deadline) :
    Timely cfg ended whole (labels ++ [l]) { s with phase := phase } := by
  have hold : ∀ payload, .message (.data .exit payload) ∈ labels ++ [l] →
      .message (.data .exit payload) ∈ labels := by
    intro payload hin
    rcases List.mem_append.mp hin with hin | hin
    · exact hin
    · exact absurd (List.mem_singleton.mp hin).symm (hl payload)
  refine .decided h.deadline he hr ha fun e hx => ?_
  obtain ⟨hidle, hwhole, hexpired, hreported⟩ := h.attributed e (he.trans (congrArg some hx))
  constructor
  · intro hi
    obtain ⟨hdeadline, hexit⟩ := hidle hi
    exact ⟨hdeadline, fun payload hin => hexit payload (hold payload hin)⟩
  · exact hwhole
  · exact hexpired
  · exact fun payload hin => hreported payload (hold payload hin)

lemma mem_snoc_exit (h : ∀ payload, .message (.data .exit payload) ∉ labels) {payload : Bytes} :
    ∀ payload', .message (.data .exit payload') ∈ labels ++ [.message (.data .exit payload)] →
      payload' = payload := by
  intro payload' hin
  rcases List.mem_append.mp hin with hin | hin
  · exact absurd hin (h payload')
  · have heq := List.mem_singleton.mp hin
    simpa using heq

lemma InOrder.overLimit {wait : ℤ} {message : Message}
    (ho : InOrder cfg ended whole s (.message message)) (hp : s.phase = .receiving wait)
    (hran : Overran ended whole) : overLimit cfg s message = none := by
  cases message with
  | exitStatus => rfl
  | data tag payload =>
    cases tag with
    | exit | error => rfl
    | _ => exact ho wait hp hran

lemma Timely.quiet (h : Timely cfg ended whole labels s) {wait : ℤ}
    (hp : s.phase = .receiving wait) : s.exit = none ∧ .timeout ∉ s.log ∧
      ∀ payload, .message (.data .exit payload) ∉ labels := by
  have he := h.receiving wait hp
  exact ⟨he, h.untimed he (by simp [hp]), h.unreported he (by simp [hp])⟩

lemma Decides.wholeFirst {exit : Exit} {final : List Bytes} (h : Decides s t exit final)
    (hfirst : WholeFirst ended whole t) : WholeFirst ended whole s :=
  ⟨hfirst.1, fun idleDeadline hsome => hfirst.2 idleDeadline (h.idleDeadline.trans hsome)⟩

lemma Timely.exits {payload : Bytes} {wait : ℤ} {exit : Exit} {final : List Bytes}
    (h : Timely cfg ended whole labels s)
    (ho : InOrder cfg ended whole s (.message (.data .exit payload)))
    (hp : s.phase = .receiving wait) (hd : Decides s t exit final)
    (hx : ∀ e, exit = .error e → e.idleTimedOut = false ∧
      e.timedOut = saysTimedOut cfg payload) :
    Timely cfg ended whole (labels ++ [.message (.data .exit payload)]) t := by
  obtain ⟨-, hlog, hexit⟩ := h.quiet hp
  refine .decided (hd.deadline.trans h.deadline) hd.exit (by simp [hd.phase]) (by simp [hd.phase])
    fun e he => ?_
  obtain ⟨hn, ht⟩ := hx e he
  refine attributed_plain (hd.untimed hlog) hn (fun hfirst => ?_) fun payload' hin hsays => ?_
  · rw [ht]
    exact ho.1 wait hp (hd.wholeFirst hfirst)
  · rw [ht, ← mem_snoc_exit hexit payload' hin]
    exact hsays

lemma Timely.fails {message : Message} {wait : ℤ} (h : Timely cfg ended whole labels s)
    (ho : InOrder cfg ended whole s (.message message)) (hp : s.phase = .receiving wait)
    (hm : message = .exitStatus ∨ ∃ payload, message = .data .error payload)
    (hn : e.idleTimedOut = false) (hd : Decides s t (.error e) []) :
    Timely cfg ended whole (labels ++ [.message message]) t := by
  obtain ⟨-, hlog, hexit⟩ := h.quiet hp
  refine .decided (hd.deadline.trans h.deadline) hd.exit (by simp [hd.phase]) (by simp [hd.phase])
    fun e' he' => ?_
  obtain rfl := Exit.error.inj he'
  refine attributed_plain (hd.untimed hlog) hn (fun hfirst => ?_) fun payload hin => ?_
  · rcases hm with rfl | ⟨payload, rfl⟩
    · exact absurd (hd.wholeFirst hfirst) (ho wait hp)
    · exact absurd (hd.wholeFirst hfirst) (ho wait hp)
  · refine absurd hin (unreported_snoc hexit ?_ payload)
    rcases hm with rfl | ⟨payload, rfl⟩ <;> simp

lemma Timely.reports {payload : Bytes} {purpose : Purpose} {deadline : Instant}
    (h : Timely cfg ended whole labels s)
    (ho : InOrder cfg ended whole s (.message (.data .exit payload)))
    (hp : s.phase = .awaiting purpose deadline) :
    Timely cfg ended whole (labels ++ [.message (.data .exit payload)])
      (conclude cfg s purpose (.exit (s.tracking.report (cfg.json payload)))) := by
  have he := h.awaiting _ _ hp
  have hexit := h.unreported he (by simp [hp])
  cases purpose with
  | idle =>
    obtain ⟨idleDeadline, hsome, hlt⟩ := h.idle _ hp
    obtain ⟨e, -, -, -, -, hd⟩ := @conclude_idle cfg s
      (.exit (s.tracking.report (cfg.json payload)))
    refine .decided (hd.deadline.trans h.deadline) hd.exit (by simp [hd.phase])
      (by simp [hd.phase]) fun e' he' => ?_
    refine attributed_idle ⟨idleDeadline, hd.idleDeadline.trans hsome, hlt⟩ fun payload' hin => ?_
    rw [mem_snoc_exit hexit payload' hin]
    exact ho.2 _ deadline hp (by simp)
  | limit lines limit =>
    obtain ⟨e, -, -, hn, hd⟩ := @conclude_limit cfg s lines limit
      (.exit (s.tracking.report (cfg.json payload)))
    refine .decided (hd.deadline.trans h.deadline) hd.exit (by simp [hd.phase])
      (by simp [hd.phase]) fun e' he' => ?_
    obtain rfl := Exit.error.inj he'
    refine attributed_plain (hd.untimed (h.untimed he (by simp [hp]))) hn
      (fun hfirst => absurd hfirst.1 (h.limited _ _ _ hp)) fun payload' hin hsays => ?_
    rw [mem_snoc_exit hexit payload' hin, ho.2 _ deadline hp (by simp)] at hsays
    cases hsays
  | cleanup =>
    obtain ⟨haside, hphase⟩ := @conclude_cleanup cfg s
      (.exit (s.tracking.report (cfg.json payload)))
    exact .abandoned (haside.deadline.trans h.deadline) (haside.exit.trans he)
      (haside.untimed (h.untimed he (by simp [hp]))) hphase

lemma Timely.step (h : Timely cfg ended whole labels s) (ho : InOrder cfg ended whole s l)
    (hs : step cfg clock s l = some t) : Timely cfg ended whole (labels ++ [l]) t := by
  have hready : s.phase = .ready → s.exit = none → .timeout ∉ s.log ∧
      ∀ payload, .message (.data .exit payload) ∉ labels := by
    intro hp he
    exact ⟨h.untimed he (by simp [hp]), h.unreported he (by simp [hp])⟩
  cases step_turn hs with
  | asks hp he ha wait hw =>
    obtain ⟨hlog, hexit⟩ := hready hp he
    exact .undecided (ha.deadline.trans h.deadline) (ha.exit.trans he) (ha.untimed hlog)
      (unreported_snoc hexit (by simp)) (by simp [hw])
  | halts hp he => exact h.handed he (by simp) (by simp) (by simp)
  | raises hp e he => exact h.handed he (by simp) (by simp) (by simp)
  | leaves hp he hw =>
    obtain ⟨hlog, hexit⟩ := hready hp he
    exact waits_timely h.deadline he (fun _ => hlog) (by simp) (by simp)
      (unreported_snoc hexit (by simp)) hw
  | abandons hp exit he => exact h.handed he (by simp) (by simp) (by simp)
  | rewaits hp ha wait' hw =>
    obtain ⟨he, hlog, hexit⟩ := h.quiet hp
    exact .undecided (ha.deadline.trans h.deadline) (ha.exit.trans he) (ha.untimed hlog)
      (unreported_snoc hexit (by simp)) (by simp [hw])
  | idles hp hlong hi hw =>
    obtain ⟨he, hlog, hexit⟩ := h.quiet hp
    obtain ⟨idleDeadline, hsome, hle⟩ := hi
    exact waits_timely (s := s.add .timeout) h.deadline he (fun hne => absurd rfl hne)
      (fun _ => ⟨idleDeadline, hsome, lt_of_not_ge fun hge =>
        absurd (ho _ hp hlong idleDeadline hsome hge) (not_lt.mpr hle)⟩)
      (by simp) (unreported_snoc hexit (by simp)) hw
  | stops hp hw hi e hl ht hn hout hd =>
    obtain ⟨he, hlog, hexit⟩ := h.quiet hp
    refine .decided (hd.deadline.trans h.deadline) hd.exit (by simp [hd.phase]) (by simp [hd.phase])
      fun e' he' => ?_
    obtain rfl := Exit.error.inj he'
    constructor
    · intro hidle
      cases hn.symm.trans hidle
    · exact fun _ => ⟨ht, hn⟩
    · exact fun _ _ => ⟨ht, hn⟩
    · exact fun _ _ _ => ⟨ht, hn⟩
  | notes hp hm ha hw =>
    obtain ⟨he, hlog, hexit⟩ := h.quiet hp
    refine .undecided (ha.deadline.trans h.deadline) (ha.exit.trans he) (ha.untimed hlog)
      (unreported_snoc hexit (by simpa using hm)) ?_
    rcases hw with hw | ⟨wait', hw⟩ <;> simp [hw]
  | takes hp hm htakes =>
    obtain ⟨he, hlog, hexit⟩ := h.quiet hp
    refine .undecided (htakes.deadline.trans h.deadline) (htakes.exit.trans he) ?_
      (unreported_snoc hexit (by simpa using hm)) (by simp [htakes.phase])
    rw [htakes.log]
    simpa using hlog
  | exceeds hp hm hexceeds hover =>
    obtain ⟨he, hlog, hexit⟩ := h.quiet hp
    obtain ⟨u, lines, limit, hdeadline, hnone, hulog, hw⟩ := hexceeds
    refine waits_timely (hdeadline.trans h.deadline) (hnone.trans he) (fun _ => ?_) (by simp)
      (fun _ _ _ hran => hover (ho.overLimit hp hran)) (unreported_snoc hexit (by simpa using hm)) hw
    rw [hulog]
    simpa using hlog
  | exits hp exit hd hx =>
    refine h.exits ho hp hd fun e he => ?_
    obtain ⟨-, hn, ht⟩ := hx e he
    exact ⟨hn, ht.trans (report_timedOut _ _)⟩
  | fails hp hm e he hd => exact h.fails ho hp hm he.2.2.1 hd
  | awaits hp hm hw =>
    have he := h.awaiting _ _ hp
    refine waits_timely h.deadline he ?_ ?_ ?_
      (unreported_snoc (h.unreported he (by simp [hp])) hm) hw
    · intro hpurpose
      refine h.untimed he fun d hd => hpurpose ?_
      exact (Phase.awaiting.inj (hp.symm.trans hd)).1
    · rintro rfl
      exact h.idle _ hp
    · rintro lines limit rfl
      exact h.limited _ _ _ hp
  | reports hp => exact h.reports ho hp

lemma start_timely (timeoutMs reads : ℕ) :
    Timely cfg ended (wholeRun clock timeoutMs reads) [] (start cfg clock timeoutMs reads) := by
  refine .undecided rfl rfl ?_ (by simp) (by simp [start])
  simp only [start]
  cases cfg.maxStderrBytes <;> simp

/-- In every run that keeps the bounds in order, an error names the bound that came first. -/
theorem ordered_attributed (cfg : Options) (clock : ℕ → Instant) (timeoutMs reads : ℕ)
    (ended : Option Instant) (labels : List Label) (s : State) (e : Error)
    (h : OrderedRun cfg clock ended (wholeRun clock timeoutMs reads)
      (start cfg clock timeoutMs reads) labels s) (he : s.exit = some (.error e)) :
    Attributed cfg ended (wholeRun clock timeoutMs reads) labels s e := by
  have htimely : Timely cfg ended (wholeRun clock timeoutMs reads) labels s :=
    Transition.Run.history (fun labels s l t ht hst => ht.step hst.2 hst.1) h
      (start_timely timeoutMs reads)
  exact htimely.attributed e he

def idleStream (idleTimeout : ℕ) (timedOut : Bool) : Options where
  json _ := some (.object [("signal", .int 15), ("timed_out", .bool timedOut),
    ("confirmed", .bool true)])
  timeoutMs := 1000
  cleanupTimeout := 7000
  idleTimeout := some idleTimeout
  window := none
  maxLineBytes := none
  maxStderrBytes := none
  mergeStderr := false
  identityEnabled := false
  spawnObserver := false
  structuredSpawnErrors := false
  trackDescendants := false
  trackObserver := false

def expiresAt (time : Instant) (n : ℕ) : Instant :=
  if n < 2 then 0 else time

def silentRun : List Label :=
  [.pull, .expire, .message (.data .exit [])]

theorem ordered_attributed_idle : ∃ s e,
    Transition.exec (step (idleStream 300 false) (expiresAt 300))
      (start (idleStream 300 false) (expiresAt 300) 1000 0) silentRun = some s ∧
    s.exit = some (.error e) ∧ e.idleTimedOut = true ∧
    Attributed (idleStream 300 false) none (wholeRun (expiresAt 300) 1000 0) silentRun s e := by
  refine ⟨_, _, rfl, rfl, rfl, ordered_attributed _ _ _ _ none _ _ _ ?_ rfl⟩
  refine .cons ⟨rfl, trivial⟩ (.cons ⟨rfl, ?_⟩ (.cons ⟨rfl, ?_⟩ (.nil _)))
  · intro wait hp hle idleDeadline hsome hafter
    obtain rfl : (300 : ℤ) = idleDeadline := Option.some.inj hsome
    exact absurd hafter (by decide)
  · exact ⟨fun wait hp => (by cases hp), fun purpose deadline hp hpurpose => rfl⟩

/-- The run is over after a second, and the shim is inside the grace of its own timeout when the
idle bound elapses: the error says idle, although EXIT says that the run timed out. -/
theorem idle_blamed : ∃ s e,
    Transition.exec (step (idleStream 1500 true) (expiresAt 1500))
      (start (idleStream 1500 true) (expiresAt 1500) 1000 0) silentRun = some s ∧
    s.exit = some (.error e) ∧ e.idleTimedOut = true ∧ e.timedOut = false ∧
    ¬Attributed (idleStream 1500 true) none (wholeRun (expiresAt 1500) 1000 0) silentRun s e := by
  refine ⟨_, _, rfl, rfl, rfl, rfl, fun h => ?_⟩
  have hreport : saysTimedOut (idleStream 1500 true) [] = false := (h.idle rfl).2 [] (by decide)
  exact absurd hreport (by decide)

theorem loss_unattributed : ∃ s e,
    Transition.exec (step (idleStream 9000 true) (expiresAt 1500))
      (start (idleStream 9000 true) (expiresAt 1500) 1000 0) [.pull, .message .exitStatus] = some s ∧
    s.exit = some (.error e) ∧ e.timedOut = false ∧
    ¬Attributed (idleStream 9000 true) none (wholeRun (expiresAt 1500) 1000 0)
      [.pull, .message .exitStatus] s e := by
  refine ⟨_, _, rfl, rfl, rfl, fun h => ?_⟩
  have hfirst := h.first ⟨nofun, fun idleDeadline hsome => ?_⟩
  · cases hfirst.1
  · obtain rfl : (9000 : ℤ) = idleDeadline := Option.some.inj hsome
    decide

end Forcola.Beam.Stream
