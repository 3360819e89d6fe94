import Forcola.Beam.TerminalTable

/-! What an EXIT frame said is what every caller reads, unless a later end is handled as well. -/

namespace Forcola.Beam.Duplex

open Library Transition
open Native (Bytes Pipe)
open Shim (Tag ExitReport)

variable {cfg : Options} {s t : State} {payload : Bytes} {cause : Cause}

def Options.report (cfg : Options) (payload : Bytes) : ExitReport :=
  (Tracking.new cfg.trackDescendants).report (cfg.json payload)

def Options.reportCause (cfg : Options) (payload : Bytes) (cause : Cause) : Cause :=
  if (cfg.report payload).timedOut then .timeout else cause

structure Carries (cfg : Options) (payload : Bytes) (cause : Cause) (terminal : Terminal) : Prop where
  status : terminal.status = (cfg.report payload).status
  confirmation : terminal.confirmation =
    if (cfg.report payload).confirmed then .confirmed else .unconfirmed
  scope : terminal.scope = (cfg.report payload).scope
  cause : terminal.cause = cfg.reportCause payload cause ∨
    terminal.cause = .outputLimit ∧ ∃ limit, terminal.output = .limit limit

namespace Carries

lemma exitTerminal (tracking : Tracking) (h : tracking.enabled = cfg.trackDescendants)
    (payload : Bytes) (cause : Cause) :
    Carries cfg payload cause
        (exitTerminal (tracking.report (cfg.json payload)) cause tracking) ∧
      (Duplex.exitTerminal (tracking.report (cfg.json payload)) cause tracking).cause =
        cfg.reportCause payload cause := by
  have hr : ∀ decoded, (tracking.report decoded).status =
        ((Tracking.new cfg.trackDescendants).report decoded).status ∧
      (tracking.report decoded).confirmed =
        ((Tracking.new cfg.trackDescendants).report decoded).confirmed ∧
      (tracking.report decoded).scope =
        ((Tracking.new cfg.trackDescendants).report decoded).scope ∧
      (tracking.report decoded).timedOut =
        ((Tracking.new cfg.trackDescendants).report decoded).timedOut := by
    intro decoded
    rw [Tracking.report, Tracking.report, h, Tracking.new]
    split <;> exact ⟨rfl, rfl, rfl, rfl⟩
  obtain ⟨h1, h2, h3, h4⟩ := hr (cfg.json payload)
  have hc : (Duplex.exitTerminal (tracking.report (cfg.json payload)) cause tracking).cause =
      cfg.reportCause payload cause := by
    rw [Duplex.exitTerminal, h4]
    rfl
  refine ⟨⟨h1, ?_, h3, .inl hc⟩, hc⟩
  rw [Duplex.exitTerminal, h2]
  rfl

lemma finished {terminal : Terminal} (h : Carries cfg payload cause terminal)
    (hc : terminal.cause = cfg.reportCause payload cause) (s : State) :
    Carries cfg payload cause (finishOutputEvidence cfg terminal s) := by
  rw [finishOutputEvidence.eq_def]
  split
  · next limit _ => exact ⟨h.status, h.confirmation, h.scope, .inr ⟨rfl, limit, rfl⟩⟩
  · split
    · split
      · exact ⟨h.status, h.confirmation, h.scope, .inl hc⟩
      · exact h
    · exact h

end Carries

/-- The two places that take an EXIT frame, and the cause each of them gives the terminal. -/
inductive Exits (s : State) (payload : Bytes) : Cause → Label → Prop
  | handled (answers : List PortAnswer) :
      Exits s payload .childExit (.message (.port (.data .exit payload)) answers)
  | awaited : Exits s payload s.shutdownCause (.await (.data .exit payload))

/-- No further end is handled, and the process is not killed before it has published. -/
def Kept (s : State) (l : Label) : Prop :=
  (∀ m answers, l = .message m answers → m.ends = false) ∧
    (l = .kill → s.log.published ≠ [])

structure Carrying (cfg : Options) (payload : Bytes) (cause : Cause) (s : State) : Prop where
  exit : s.phase = .running ∨ s.phase = .stopping → ∃ e, s.exit = some e ∧
    Carries cfg payload cause e.terminal ∧ e.terminal.cause = cfg.reportCause payload cause
  awaiting : s.phase ≠ .awaiting
  closing : ∀ terminal, s.phase = .closing terminal → Carries cfg payload cause terminal
  dones : ∀ terminal ∈ s.log.dones, Carries cfg payload cause terminal
  published : ∀ terminal ∈ s.log.published, Carries cfg payload cause terminal
  gone : s.phase.alive = false → s.log.published ≠ []

lemma turn_exit {m : Message} (h : Turn cfg s m t) :
    (m.ends = false → t.exit = s.exit) ∧
      ∀ payload, m = .port (.data .exit payload) → ∃ e, t.exit = some e ∧
        e.terminal = exitTerminal (s.tracking.report (cfg.json payload)) .childExit s.tracking := by
  have output : ∀ {p : Pipe} {chunk payload : Bytes},
      Message.port (.data (Tag.ofPipe p) chunk) ≠ .port (.data .exit payload) := by
    intro p chunk payload h
    cases p <;> cases h
  cases h with
  | aside hm h =>
    refine ⟨fun _ => h.exit, ?_⟩
    rintro payload rfl
    cases hm
  | limited p chunk limit hd => exact ⟨fun _ => rfl, fun _ h => absurd h output⟩
  | accepted p chunk hd h =>
    exact ⟨fun _ => (replyPullWaiter_frame cfg _).2, fun _ h => absurd h output⟩
  | relayed p chunk hd => exact ⟨fun _ => rfl, fun _ h => absurd h output⟩
  | @ended _ e u w v hm hu hw hv hg hx =>
    refine ⟨fun h => absurd (hm.symm.trans h) (by decide), fun payload hp => ⟨e, ?_, hx payload hp⟩⟩
    have ha : ∀ x : State, (afterFrame cfg x).exit = x.exit := by
      intro x
      rw [afterFrame]
      split
      · rfl
      · split
        · rfl
        · split <;> rfl
    rw [ha, (replyPullWaiter_frame cfg v).2]
    exact hv.exit
  | refused caller reply hr => exact ⟨fun _ => rfl, fun _ h => by cases h⟩
  | last caller line hd hw hq he => exact ⟨fun _ => rfl, fun _ h => by cases h⟩
  | popped caller line queue hd hw hq he => exact ⟨fun _ => rfl, fun _ h => by cases h⟩
  | waits caller hd hw hq he =>
    refine ⟨fun _ => ?_, fun _ h => by cases h⟩
    obtain ⟨o, l, heq⟩ := grantPullCredit_eq cfg
      { s with waiter := some ⟨caller, s.refs⟩, refs := s.refs + 1 }
    rw [heq]
  | expired waiter hw => exact ⟨fun _ => rfl, fun _ h => by cases h⟩
  | stops cause hm => exact ⟨fun _ => rfl, fun _ h => by rcases hm with rfl | rfl <;> cases h⟩

namespace Carrying

lemma of_exit (hs : Spoken s) (hl : Live cfg s) (hp : s.phase = .running) {m : Message}
    (h : Turn cfg (s.hear (.handled m)) m t) {e : Ended} (he : t.exit = some e)
    (hc : Carries cfg payload cause e.terminal)
    (hcause : e.terminal.cause = cfg.reportCause payload cause) : Carrying cfg payload cause t := by
  obtain ⟨hb, hd⟩ := turn_told hl hp h
  have hph := (turn_phase hl hp h).1
  refine ⟨fun _ => ⟨e, he, hc, hcause⟩, ?_, ?_, ?_, ?_, ?_⟩
  · rcases hph with h | h <;> rw [h] <;> exact Phase.noConfusion
  · intro terminal ht
    rcases hph with h | h <;> rw [h] at ht <;> cases ht
  · intro terminal hm
    rcases hd with hd | ⟨e', hd, hf⟩
    · rw [hd, hs.running hp] at hm
      cases hm
    · rw [hd, hs.running hp] at hm
      obtain rfl := List.mem_singleton.mp hm
      obtain rfl : e = e' := Option.some.inj (he.symm.trans hf.exit)
      exact hc
  · intro terminal hm
    rw [hb, hs.unpublished (by rw [hp]; rfl)] at hm
    cases hm
  · intro ha
    rcases hph with h | h <;> rw [h] at ha <;> cases ha

lemma exits (hs : Spoken s) (hl : Live cfg s) {l : Label} (hx : Exits s payload cause l)
    (h : Move cfg s l t) : Carrying cfg payload cause t := by
  cases hx with
  | handled answers =>
    cases h with
    | turn _ hp h =>
      obtain ⟨e, he, hterm⟩ := (turn_exit h).2 payload rfl
      obtain ⟨hc, hcause⟩ := Carries.exitTerminal s.tracking hl.suits.1 payload .childExit
      exact of_exit hs hl hp h he (hterm ▸ hc) (hterm ▸ hcause)
  | awaited =>
    cases h with
    | noted event hp h hn => exact absurd rfl (hn payload)
    | concluded result event hp h hx =>
      obtain rfl := hx payload rfl
      obtain ⟨hc, hcause⟩ := Carries.exitTerminal s.tracking hl.suits.1 payload s.shutdownCause
      have hx := hs.awaiting hp
      have hdones : s.log.dones = [] := by
        by_contra hn
        have hsome := (hs.ended hn).1
        rw [hx] at hsome
        cases hsome
      refine ⟨fun h => (by rcases h with h | h <;> cases h), Phase.noConfusion, ?_, ?_, ?_, ?_⟩
      · intro terminal ht
        cases ht
        exact hc.finished hcause s
      · intro terminal hm
        rw [show State.log _ = _ from rfl, h.dones, (hear_silent s _ fun _ => Entry.noConfusion).1,
          hdones] at hm
        cases hm
      · intro terminal hm
        rw [show State.log _ = _ from rfl, h.published,
          (hear_silent s _ fun _ => Entry.noConfusion).2, hs.unpublished (by rw [hp]; rfl)] at hm
        cases hm
      · intro ha
        cases ha

lemma turn (hc : Carrying cfg payload cause s) (hs : Spoken s) (hl : Live cfg s)
    (hp : s.phase = .running) {m : Message} (hm : m.ends = false)
    (h : Turn cfg (s.hear (.handled m)) m t) : Carrying cfg payload cause t := by
  obtain ⟨e, he, hterm, hcause⟩ := hc.exit (.inl hp)
  exact of_exit hs hl hp h (((turn_exit h).1 hm).trans he) hterm hcause

lemma move (hc : Carrying cfg payload cause s) (hs : Spoken s) (hl : Live cfg s) {l : Label}
    (hk : Kept s l) (h : Move cfg s l t) : Carrying cfg payload cause t := by
  -- unless a message is handled, nobody is told a terminal but through the table
  have hdones : (∀ m answers, l ≠ .message m answers) → ∀ terminal ∈ t.log.dones,
      Carries cfg payload cause terminal := by
    intro hn terminal hm
    rcases move_shut hs h with ⟨m, answers, hml, -⟩ | ⟨hsh, -⟩
    · exact absurd hml (hn m answers)
    · exact hc.dones terminal (hsh.dones ▸ hm)
  cases h with
  | release =>
    exact ⟨hc.exit, hc.awaiting, hc.closing, hc.dones, hc.published, hc.gone⟩
  | turn answers hp h => exact hc.turn hs hl hp (hk.1 _ answers rfl) h
  | settled e kill hp he h =>
    obtain ⟨e', he', hterm, hcause⟩ := hc.exit (.inr hp)
    obtain rfl : e = e' := Option.some.inj (he.symm.trans he')
    refine ⟨fun h => (by rcases h with h | h <;> cases h), Phase.noConfusion, ?_,
      hdones fun _ _ => Label.noConfusion, ?_, fun ha => by cases ha⟩
    · intro terminal ht
      cases ht
      have hg : Carries cfg payload cause (withGroups e.terminal s.tracking) :=
        ⟨hterm.status, hterm.confirmation, hterm.scope, hterm.cause⟩
      exact hg.finished hcause s
    · intro terminal hm
      exact hc.published terminal ((ending_silent h).2 ▸ hm)
  | killing kill hp he h =>
    obtain ⟨e', he', -⟩ := hc.exit (.inr hp)
    rw [he] at he'
    cases he'
  | gaveUp result kill hp he h =>
    obtain ⟨e', he', -⟩ := hc.exit (.inr hp)
    rw [he] at he'
    cases he'
  | noted event hp h => exact absurd hp hc.awaiting
  | concluded result event hp h hx => exact absurd hp hc.awaiting
  | expired hp h => exact absurd hp hc.awaiting
  | drained terminal event hp =>
    refine ⟨hc.exit, hc.awaiting, hc.closing, hdones fun _ _ => Label.noConfusion, ?_, ?_⟩
    · rw [(hear_silent s _ fun _ => Entry.noConfusion).2]
      exact hc.published
    · rw [(hear_silent s _ fun _ => Entry.noConfusion).2]
      exact hc.gone
  | published terminal hp =>
    have hb := (Spoken.published_log cfg s terminal).2
    rw [hs.unpublished (by rw [hp]; rfl), List.nil_append] at hb
    refine ⟨fun h => (by rcases h with h | h <;> cases h), Phase.noConfusion, fun _ h => (by cases h),
      hdones fun _ _ => Label.noConfusion, ?_, fun ha => by cases ha⟩
    intro stored hm
    rw [hb] at hm
    have heq : stored = terminal := by
      cases hr : cfg.recipient <;> rw [hr] at hm <;> simpa using hm
    rw [heq]
    exact hc.closing terminal hp
  | left hp =>
    have hb := (Spoken.left_log hs.farewell).2
    refine ⟨fun h => (by rcases h with h | h <;> cases h), Phase.noConfusion, fun _ h => (by cases h),
      hdones fun _ _ => Label.noConfusion, ?_, fun _ => ?_⟩
    · rw [hb]
      exact hc.published
    · rw [hb]
      exact hs.published (.inl hp)
  | killed hp =>
    exact ⟨fun h => (by rcases h with h | h <;> cases h), Phase.noConfusion, fun _ h => (by cases h),
      hc.dones, hc.published, fun _ => hk.2 rfl⟩

lemma known (hc : Carrying cfg payload cause s) {terminal : Terminal} (hk : Known s terminal) :
    Carries cfg payload cause terminal := by
  rcases hk with hd | hp | ⟨ha, hn, -⟩
  · exact hc.dones terminal hd
  · exact hc.published terminal hp
  · exact absurd hn (hc.gone ha)

end Carrying

/-- The callers' steps, and the session steps that keep the report. -/
def Keeping (s : System) : Act → Prop
  | .session label => Kept s.session label
  | _ => True

lemma Carrying.step {s t : System} (hc : Carrying cfg payload cause s.session)
    (hs : Consistent cfg s) {a : Act} (hk : Keeping s a) (h : System.step cfg s a = some t) :
    Carrying cfg payload cause t.session := by
  by_cases hsession : ∃ label, a = .session label
  · obtain ⟨label, rfl⟩ := hsession
    simp only [System.step] at h
    split at h
    · obtain ⟨session, hst, rfl⟩ := Option.map_eq_some_iff.mp h
      exact hc.move hs.spoken hs.live hk (step_move hs.live hst)
    · cases h
  · rcases (Onward.step h fun label hl => hsession ⟨label, hl⟩).session with hx | ⟨stored, hx⟩
    · rw [hx]
      exact hc
    · rw [hx]
      exact ⟨hc.exit, hc.awaiting, hc.closing, hc.dones, hc.published, hc.gone⟩

lemma run_consistent {as : List Act} {s : System}
    (h : Run (fun s a t => System.step cfg s a = some t) (System.init cfg) as s) : Consistent cfg s :=
  h.invariant (fun _ _ _ hs ht => hs.step ht) (.init cfg)

theorem exit_evidence_kept {as bs : List Act} {s t u : System} {label : Label}
    (h : Run (fun s a t => System.step cfg s a = some t) (System.init cfg) as s)
    (hx : Exits s.session payload cause label) (ht : System.step cfg s (.session label) = some t)
    (k : Run (fun s a t => System.step cfg s a = some t ∧ Keeping s a) t bs u) :
    (∀ terminal ∈ u.terminals, Carries cfg payload cause terminal) ∧
      (∀ terminal ∈ u.session.log.dones, Carries cfg payload cause terminal) ∧
      (∀ terminal ∈ u.session.log.published, Carries cfg payload cause terminal) ∧
      ∀ terminal, u.stored = some terminal → Carries cfg payload cause terminal := by
  have hs := run_consistent h
  have hct : Carrying cfg payload cause t.session := by
    simp only [System.step] at ht
    split at ht
    · obtain ⟨session, hst, rfl⟩ := Option.map_eq_some_iff.mp ht
      exact .exits hs.spoken hs.live hx (step_move hs.live hst)
    · cases ht
  have hu : Consistent cfg u ∧ Carrying cfg payload cause u.session :=
    k.invariant (I := fun u => Consistent cfg u ∧ Carrying cfg payload cause u.session)
      (fun v b w hv hw => ⟨hv.1.step hw.1, hv.2.step hv.1 hw.2 hw.1⟩) ⟨hs.step ht, hct⟩
  refine ⟨fun terminal hm => hu.2.known (hu.1.known terminal hm), hu.2.dones, hu.2.published, ?_⟩
  intro terminal hst
  obtain ⟨table, htable, hx⟩ := Option.bind_eq_some_iff.mp hst
  exact hu.2.known (hu.1.found htable hx)

def shimLost : Label :=
  .message (.port .exitStatus) []

def drainActs : List Act :=
  [.call 0 .recv, .session (recv 0), .session (.terminate .closed), .session .publish]

theorem exit_evidence_kept_small :
    ∃ s t u, exec (System.step (smallOptions .pull)) (System.init (smallOptions .pull))
        [.session (output .stdout [97, 10])] = some s ∧
      System.step (smallOptions .pull) s (.session exited) = some t ∧
      exec (System.step (smallOptions .pull)) t drainActs = some u ∧
      (∀ terminal ∈ u.terminals, Carries (smallOptions .pull) exitPayload .childExit terminal) ∧
      (∀ terminal ∈ u.session.log.dones,
        Carries (smallOptions .pull) exitPayload .childExit terminal) ∧
      (∀ terminal ∈ u.session.log.published,
        Carries (smallOptions .pull) exitPayload .childExit terminal) ∧
      ∀ terminal, u.stored = some terminal →
        Carries (smallOptions .pull) exitPayload .childExit terminal := by
  have hrun : (exec (System.step (smallOptions .pull)) (System.init (smallOptions .pull))
      [.session (output .stdout [97, 10])]).any (fun s =>
        (System.step (smallOptions .pull) s (.session exited)).any fun t =>
          (exec (System.step (smallOptions .pull)) t drainActs).isSome) = true := by
    decide +kernel
  obtain ⟨s, hs, hb⟩ := Option.any_eq_true .. |>.mp hrun
  obtain ⟨t, ht, hb⟩ := Option.any_eq_true .. |>.mp hb
  obtain ⟨u, hu⟩ := Option.isSome_iff_exists.mp hb
  have hkeep : Run (fun s a t => System.step (smallOptions .pull) s a = some t ∧ Keeping s a) t
      drainActs u := by
    refine ((exec_run hu).restrict (p := (· ∈ drainActs)) fun _ h => h).mono fun v a w hw => ⟨hw.1, ?_⟩
    have hm := hw.2
    simp only [drainActs, List.mem_cons, List.not_mem_nil, or_false] at hm
    rcases hm with rfl | rfl | rfl | rfl
    · trivial
    · refine ⟨fun m answers hl => ?_, fun hl => by cases hl⟩
      cases hl
      rfl
    · exact ⟨fun _ _ hl => (by cases hl), fun hl => by cases hl⟩
    · exact ⟨fun _ _ hl => (by cases hl), fun hl => by cases hl⟩
  exact ⟨s, t, u, hs, ht, hu, exit_evidence_kept (exec_run hs) (.handled []) ht hkeep⟩

/-- The shim's exit is handled while a line is queued, and takes the place of the report. -/
theorem exit_evidence_overwritten :
    ¬ ∀ (as bs : List Act) (s t u : System) (payload : Bytes) (cause : Cause) (label : Label),
      Run (fun s a t => System.step (smallOptions .pull) s a = some t)
        (System.init (smallOptions .pull)) as s →
      Exits s.session payload cause label →
      System.step (smallOptions .pull) s (.session label) = some t →
      Run (fun s a t => System.step (smallOptions .pull) s a = some t ∧ a ≠ .session .kill) t bs u →
      ∀ terminal ∈ u.session.log.published, Carries (smallOptions .pull) payload cause terminal := by
  intro h
  have hrun : (exec (System.step (smallOptions .pull)) (System.init (smallOptions .pull))
      [.session (output .stdout [97, 10])]).any (fun s =>
        (System.step (smallOptions .pull) s (.session exited)).any fun t =>
          (exec (System.step (smallOptions .pull)) t (.session shimLost :: drainActs)).any fun u =>
            decide (∃ terminal ∈ u.session.log.published, terminal.confirmation = .transportLost)) =
          true := by
    decide +kernel
  obtain ⟨s, hs, hb⟩ := Option.any_eq_true .. |>.mp hrun
  obtain ⟨t, ht, hb⟩ := Option.any_eq_true .. |>.mp hb
  obtain ⟨u, hu, hb⟩ := Option.any_eq_true .. |>.mp hb
  obtain ⟨terminal, hm, hc⟩ := of_decide_eq_true hb
  have hcarry := h _ _ s t u exitPayload .childExit exited (exec_run hs) (.handled []) ht
    ((exec_run hu).restrict (by decide)) terminal hm
  rw [hcarry.confirmation] at hc
  exact absurd hc (by decide +kernel)

end Forcola.Beam.Duplex
