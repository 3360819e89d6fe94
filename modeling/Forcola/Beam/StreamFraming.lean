import Forcola.Beam.StreamOutput

/-! The lines a stream emits and the line limit it raises do not depend on how its input was cut. -/

namespace Forcola.Beam.Stream

open Library
open Native (Bytes Pipe)

def fits (cfg : Options) (line : Bytes) : Bool :=
  match cfg.maxLineBytes with
  | none => true
  | some maxLine => line.length ≤ maxLine

def LineLimited (s : State) : Prop :=
  ∃ e merged bytes, s.exit = some (.error e) ∧ e.limit = some (.line merged bytes)

/-- The lines of `text` before the first one out of bounds, and whether there is one. -/
structure Reassembled (cfg : Options) (text : Bytes) (s : State) : Prop where
  emitted : emittedLines s.log = (Lines.closed newline text).takeWhile (fits cfg)
  limited : LineLimited s ↔ ∃ line ∈ Lines.closed newline text, fits cfg line = false

variable {cfg : Options} {clock : ℕ → Instant} {s t u : State} {l : Label} {labels : List Label}

lemma fits_bound (cfg : Options) : Lines.Bound (fits cfg) := by
  intro line more h
  rw [fits] at h ⊢
  split at h
  · rfl
  · simp only [decide_eq_true_eq, List.length_append] at h ⊢
    omega

lemma fits_nil (cfg : Options) : fits cfg [] = true := by
  rw [fits]
  split
  · rfl
  · simp

def Fitting (cfg : Options) (text : Bytes) : Prop :=
  ∀ line ∈ Lines.closed newline text, fits cfg line = true

lemma fitting_iff {text : Bytes} : Fitting cfg text ↔
    (∀ line ∈ Lines.lines newline text, fits cfg line = true) ∧
      fits cfg (Lines.rest newline text) = true := by
  rw [Fitting, Lines.closed]
  by_cases hrest : Lines.rest newline text = []
  · simp [hrest, fits_nil]
  · simp [hrest, List.mem_append, or_imp, forall_and]

lemma Fitting.append {text more : Bytes} (h : Fitting cfg text)
    (k : Fitting cfg (Lines.rest newline text ++ more)) : Fitting cfg (text ++ more) := by
  intro line hin
  rw [Lines.closed_append, List.mem_append] at hin
  rcases hin with hin | hin
  · exact (fitting_iff.mp h).1 line hin
  · exact k line hin

lemma consumeLines_spec (s : State) (payload : Bytes) :
    (consumeLines cfg s payload = (Lines.lines newline (s.buffer ++ payload), none,
        { s with buffer := Lines.rest newline (s.buffer ++ payload) }) ∧
      Fitting cfg (s.buffer ++ payload)) ∨
    ∃ maxLine, cfg.maxLineBytes = some maxLine ∧
      consumeLines cfg s payload =
        ((Lines.closed newline (s.buffer ++ payload)).takeWhile (fits cfg),
          some (.line cfg.mergeStderr maxLine), s) ∧
      ∃ line ∈ Lines.closed newline (s.buffer ++ payload), fits cfg line = false := by
  rw [consumeLines.eq_def]
  generalize s.buffer ++ payload = data
  cases hmax : cfg.maxLineBytes with
  | none =>
    have hfits : ∀ line, fits cfg line = true := fun line => by rw [fits, hmax]
    exact .inl ⟨rfl, fun line _ => hfits line⟩
  | some maxLine =>
    have hfits : (fun line : Bytes => decide (line.length ≤ maxLine)) = fits cfg := by
      funext line
      rw [fits, hmax]
    dsimp only
    rw [hfits]
    split
    · next hshort =>
      have hline : ∃ line ∈ Lines.lines newline data, fits cfg line = false := by
        by_contra hnone
        refine hshort.ne (congrArg List.length (List.takeWhile_eq_self_iff.mpr fun line hin => ?_))
        by_contra hline
        exact hnone ⟨line, hin, by simpa using hline⟩
      refine .inr ⟨maxLine, rfl, ?_, ?_⟩
      · rw [Lines.closed, Lines.takeWhile_append_of_exists hline]
      · obtain ⟨line, hin, hline⟩ := hline
        exact ⟨line, List.mem_append_left _ hin, hline⟩
    · next hall =>
      have hlines : ∀ line ∈ Lines.lines newline data, fits cfg line = true := by
        apply List.takeWhile_eq_self_iff.mp
        exact (List.takeWhile_prefix _).eq_of_length
          (le_antisymm (List.takeWhile_prefix _).length_le (not_lt.mp hall))
      split
      · next hlong =>
        have hrest : fits cfg (Lines.rest newline data) = false := by
          rw [← hfits]
          simpa using hlong
        have hne : Lines.rest newline data ≠ [] := by
          intro hnil
          rw [hnil] at hlong
          simp at hlong
        refine .inr ⟨maxLine, rfl, ?_, _, ?_, hrest⟩
        · rw [Lines.closed, if_neg hne, List.takeWhile_append_of_pos hlines]
          simp [hrest]
        · rw [Lines.closed, if_neg hne]
          exact List.mem_append_right _ (List.mem_singleton_self _)
      · next hshort =>
        refine .inl ⟨rfl, fitting_iff.mpr ⟨hlines, ?_⟩⟩
        rw [← hfits]
        simpa using hshort

/-- What is given out for a line limit: the lines before the first one out of bounds. -/
structure Cut (cfg : Options) (out : List Bytes) (text : Bytes) : Prop where
  before : out = (Lines.closed newline text).takeWhile (fits cfg)
  line : ∃ line ∈ Lines.closed newline text, fits cfg line = false

lemma Cut.longer {out : List Bytes} {text longer : Bytes} (h : Cut cfg out text)
    (hl : text <+: longer) : Cut cfg out longer := by
  obtain ⟨more, rfl⟩ := hl
  obtain ⟨htake, hline⟩ := Lines.takeWhile_closed (fits_bound cfg) text more h.line
  exact ⟨h.before.trans htake.symm, hline⟩

lemma Cut.after {out : List Bytes} {text more : Bytes} (hf : Fitting cfg text)
    (h : Cut cfg out (Lines.rest newline text ++ more)) :
    Cut cfg (Lines.lines newline text ++ out) (text ++ more) := by
  obtain ⟨rfl, line, hin, hline⟩ := h
  refine ⟨?_, line, ?_, hline⟩
  · rw [Lines.closed_append text, List.takeWhile_append_of_pos (fitting_iff.mp hf).1]
  · rw [Lines.closed_append text]
    exact List.mem_append_right _ hin

structure Accepts (cfg : Options) (s t : State) (pipe : Pipe) (payload : Bytes) : Prop where
  takes : Takes cfg s t pipe payload
  fitting : feeds cfg pipe = true → Fitting cfg (s.buffer ++ payload)

structure Overruns (cfg : Options) (s t : State) (pipe : Pipe) (payload : Bytes) : Prop where
  waits : ∃ (u : State) (lines : List Bytes) (limit : Limit), u.exit = s.exit ∧
    u.log = .received pipe payload :: s.log ∧ Waits cfg (.limit lines limit) u t ∧
    ∀ merged bytes, limit = .line merged bytes → feeds cfg pipe = true ∧
      Cut cfg lines (s.buffer ++ payload)

lemma overruns_kill {pipe : Pipe} {payload : Bytes} {lines : List Bytes} {limit : Limit}
    (hexit : u.exit = s.exit) (hlog : u.log = .received pipe payload :: s.log)
    (hcut : ∀ merged bytes, limit = .line merged bytes → feeds cfg pipe = true ∧
      Cut cfg lines (s.buffer ++ payload)) :
    Overruns cfg s (killAndConfirm cfg clock u (.limit lines limit)) pipe payload :=
  ⟨u, lines, limit, hexit, hlog, killAndConfirm_waits _ _, hcut⟩

lemma handleStdout_framed (s : State) (payload : Bytes) :
    Accepts cfg s (handleMessage cfg clock s (.data .stdout payload)) .stdout payload ∨
      Overruns cfg s (handleMessage cfg clock s (.data .stdout payload)) .stdout payload := by
  obtain ⟨hbuffer, -, hdeadline, hexit, hlog⟩ :=
    @resetIdle_frame cfg clock (s.add (.received .stdout payload))
  obtain ⟨outstanding, hout⟩ := @accountStdout_frame cfg
    (resetIdle cfg clock (s.add (.received .stdout payload))) payload.length
  rw [handleMessage]
  rw [hout, deliver]
  generalize hr : ({ resetIdle cfg clock (s.add (.received .stdout payload)) with
    outstanding := outstanding } : State) = r
  have hrbuffer : r.buffer = s.buffer := by
    rw [← hr]
    exact hbuffer
  have hrlog : r.log = .received .stdout payload :: s.log := by
    rw [← hr]
    exact hlog
  have hrexit : r.exit = s.exit := by
    rw [← hr]
    exact hexit
  have hrdeadline : r.deadline = s.deadline := by
    rw [← hr]
    exact hdeadline
  rcases @consumeLines_spec cfg r payload with ⟨h, hfit⟩ | ⟨maxLine, hmax, h, hline⟩
  · rw [h]
    rw [hrbuffer] at hfit ⊢
    refine .inl ⟨⟨hrdeadline, hrexit, rfl, rfl, ?_⟩, fun _ => hfit⟩
    exact congrArg (Effect.emitted (Lines.lines newline (s.buffer ++ payload)) :: ·) hrlog
  · rw [h]
    rw [hrbuffer] at hline ⊢
    refine .inr (overruns_kill hrexit hrlog ?_)
    exact fun _ _ _ => ⟨rfl, rfl, hline⟩

lemma handleStderr_framed (s : State) (payload : Bytes) :
    Accepts cfg s (handleMessage cfg clock s (.data .stderr payload)) .stderr payload ∨
      Overruns cfg s (handleMessage cfg clock s (.data .stderr payload)) .stderr payload := by
  obtain ⟨hbuffer, -, hdeadline, hexit, hlog⟩ :=
    @resetIdle_frame cfg clock (s.add (.received .stderr payload))
  rw [handleMessage]
  generalize resetIdle cfg clock (s.add (.received .stderr payload)) = r at *
  have hrbuffer : r.buffer = s.buffer := hbuffer
  have hrlog : r.log = .received .stderr payload :: s.log := hlog
  have hrexit : r.exit = s.exit := hexit
  have hrdeadline : r.deadline = s.deadline := hdeadline
  rw [consumeStderr]
  cases hmax : cfg.maxStderrBytes with
  | none =>
    have hfeeds : feeds cfg .stderr = false := by simp [feeds, hmax]
    refine .inl ⟨⟨hrdeadline, hrexit, rfl, ?_, ?_⟩, fun h => by rw [hfeeds] at h; cases h⟩
    · rw [hfeeds]
      exact hrbuffer
    · rw [hfeeds]
      exact congrArg (Effect.emitted [] :: ·) hrlog
  | some maxStderr =>
    dsimp only
    cases hmerge : cfg.mergeStderr with
    | false =>
      have hfeeds : feeds cfg .stderr = false := by simp [feeds, hmerge]
      simp only [Bool.false_eq_true, if_false]
      split
      · refine .inr (overruns_kill hrexit hrlog ?_)
        intro merged bytes h
        cases h
      · refine .inl ⟨⟨hrdeadline, hrexit, rfl, ?_, ?_⟩, fun h => by rw [hfeeds] at h; cases h⟩
        · rw [hfeeds]
          exact hrbuffer
        · rw [hfeeds]
          exact congrArg (Effect.emitted [] :: ·) hrlog
    | true =>
      have hfeeds : feeds cfg .stderr = true := by simp [feeds, hmerge, hmax]
      simp only [if_true]
      have hkept : payload.take (maxStderr - r.stderrBytes) <+: payload := List.take_prefix _ _
      rcases @consumeLines_spec cfg { r with stderrBytes := r.stderrBytes +
        (payload.take (maxStderr - r.stderrBytes)).length }
          (payload.take (maxStderr - r.stderrBytes)) with ⟨h, hfit⟩ | ⟨maxLine, -, h, hline⟩
      · rw [h]
        dsimp only at hfit ⊢
        rw [hrbuffer] at hfit ⊢
        split
        · refine .inr (overruns_kill hrexit hrlog ?_)
          intro merged bytes h
          cases h
        · next hle =>
          -- a frame that stays under the limit is taken whole
          have htake : payload.take (maxStderr - r.stderrBytes) = payload :=
            List.take_of_length_le (not_lt.mp hle)
          rw [htake] at hfit ⊢
          refine .inl ⟨⟨hrdeadline, hrexit, rfl, ?_, ?_⟩, fun _ => hfit⟩
          · rw [hfeeds]
            rfl
          · rw [hfeeds]
            exact congrArg (Effect.emitted (Lines.lines newline (s.buffer ++ payload)) :: ·) hrlog
      · rw [h]
        dsimp only at hline ⊢
        rw [hrbuffer] at hline ⊢
        refine .inr (overruns_kill hrexit hrlog ?_)
        exact fun _ _ _ => ⟨hfeeds, Cut.longer ⟨rfl, hline⟩ ((List.prefix_append_right_inj _).mpr hkept)⟩

structure Framed (cfg : Options) (s : State) : Prop where
  going : s.exit = none → (∀ lines limit deadline, s.phase ≠ .awaiting (.limit lines limit) deadline) →
    Splits cfg s ∧ Fitting cfg (fed cfg s.log)
  waiting : (∃ wait, s.phase = .receiving wait) ∨
    (∃ purpose deadline, s.phase = .awaiting purpose deadline) → s.exit = none
  limiting : ∀ lines merged bytes deadline,
    s.phase = .awaiting (.limit lines (.line merged bytes)) deadline →
      Cut cfg (emittedLines s.log ++ lines) (fed cfg s.log)
  limited : LineLimited s → Cut cfg (emittedLines s.log) (fed cfg s.log)

namespace Framed

lemma undecided (he : t.exit = none) (hp : ∀ purpose deadline, t.phase ≠ .awaiting purpose deadline)
    (h : Splits cfg t ∧ Fitting cfg (fed cfg t.log)) : Framed cfg t where
  going _ _ := h
  waiting _ := he
  limiting lines merged bytes deadline ht := absurd ht (hp _ deadline)
  limited hl := by
    obtain ⟨e, -, -, hx, -⟩ := hl
    cases he.symm.trans hx

lemma decided {exit : Exit} (he : t.exit = some exit)
    (hp : t.phase = .ready ∨ t.phase = .halted ∨ (∃ e, t.phase = .raised e) ∨ t.phase = .abandoned)
    (hl : LineLimited t → Cut cfg (emittedLines t.log) (fed cfg t.log)) : Framed cfg t where
  going hn _ := by cases he.symm.trans hn
  waiting hw := by
    rcases hp with hp | hp | ⟨e, hp⟩ | hp <;> simp [hp] at hw
  limiting lines merged bytes deadline ht := by
    rcases hp with hp | hp | ⟨e, hp⟩ | hp <;> cases hp.symm.trans ht
  limited := hl

lemma ended {exit : Exit} {final : List Bytes} (hd : Decides s t exit final)
    (hx : ∀ e, exit = .error e → e.limit = none) : Framed cfg t := by
  refine decided hd.exit (.inl hd.phase) ?_
  rintro ⟨e, merged, bytes, he, hlimit⟩
  obtain rfl := Option.some.inj (hd.exit.symm.trans he)
  cases (hx e rfl).symm.trans hlimit

lemma handed (h : Framed cfg s) {exit : Exit} (he : s.exit = some exit) {phase : Phase}
    (hp : phase = .ready ∨ phase = .halted ∨ (∃ e, phase = .raised e) ∨ phase = .abandoned) :
    Framed cfg { s with phase := phase } :=
  decided he hp h.limited

lemma aside (ha : Aside s t) (h : Splits cfg s ∧ Fitting cfg (fed cfg s.log)) :
    Splits cfg t ∧ Fitting cfg (fed cfg t.log) := by
  obtain ⟨es, hes, hlog⟩ := ha.log
  obtain ⟨hfed, -⟩ := @aside_output cfg s.log _ hes
  refine ⟨ha.splits h.1, ?_⟩
  rw [hlog, hfed]
  exact h.2

lemma waits {purpose : Purpose} (he : s.exit = none)
    (hpurpose : ∀ lines limit, purpose ≠ .limit lines limit)
    (hs : Splits cfg s ∧ Fitting cfg (fed cfg s.log)) (h : Waits cfg purpose s t) :
    Framed cfg t := by
  cases h with
  | waiting deadline h hidle hp =>
    have hnone := h.exit.trans he
    refine ⟨fun _ _ => aside h hs, fun _ => hnone, ?_, ?_⟩
    · intro lines merged bytes d hd
      exact absurd (Phase.awaiting.inj (hp.symm.trans hd)).1 (hpurpose _ _)
    · rintro ⟨e, -, -, hx, -⟩
      cases hnone.symm.trans hx
  | @concluded u result h hidle =>
    cases purpose with
    | idle =>
      obtain ⟨e, hlimit, -, -, -, hd⟩ := @conclude_idle cfg u result
      refine ended hd fun e' he' => ?_
      obtain rfl := Exit.error.inj he'
      exact hlimit
    | limit lines limit => exact absurd rfl (hpurpose lines limit)
    | cleanup =>
      obtain ⟨haside, hphase⟩ := @conclude_cleanup cfg u result
      exact undecided (haside.exit.trans (h.exit.trans he)) (by simp [hphase])
        (aside haside (aside h hs))

lemma waits_limit {lines : List Bytes} {limit : Limit} (he : s.exit = none)
    (hs : ∀ merged bytes, limit = .line merged bytes →
      Cut cfg (emittedLines s.log ++ lines) (fed cfg s.log))
    (h : Waits cfg (.limit lines limit) s t) : Framed cfg t := by
  cases h with
  | waiting deadline h hidle hp =>
    have hnone := h.exit.trans he
    obtain ⟨es, hes, hlog⟩ := h.log
    obtain ⟨hfed, hemitted⟩ := @aside_output cfg s.log _ hes
    refine ⟨?_, fun _ => hnone, ?_, ?_⟩
    · exact fun _ hlimit => absurd hp (hlimit lines limit deadline)
    · intro lines' merged bytes d hd
      obtain ⟨hpurpose, -⟩ := Phase.awaiting.inj (hp.symm.trans hd)
      obtain ⟨rfl, rfl⟩ := Purpose.limit.inj hpurpose
      rw [hlog, hfed, hemitted]
      exact hs merged bytes rfl
    · rintro ⟨e, -, -, hx, -⟩
      cases hnone.symm.trans hx
  | @concluded u result h hidle =>
    obtain ⟨es, hes, hlog⟩ := h.log
    obtain ⟨hfed, hemitted⟩ := @aside_output cfg s.log _ hes
    obtain ⟨e, hlimit, -, -, hd⟩ := @conclude_limit cfg u lines limit result
    refine decided hd.exit (.inl hd.phase) ?_
    rintro ⟨e', merged, bytes, he', hlimit'⟩
    obtain rfl := Exit.error.inj (Option.some.inj (hd.exit.symm.trans he'))
    obtain ⟨fs, hfs, hfinal⟩ := hd.log
    obtain ⟨hfed', hemitted'⟩ := @aside_output cfg u.log _ hfs
    rw [hfinal]
    change Cut cfg (emittedLines (fs ++ u.log) ++ lines) (fed cfg (fs ++ u.log))
    rw [hfed', hemitted', hlog, hfed, hemitted]
    exact hs merged bytes (Option.some.inj (hlimit.symm.trans hlimit'))

lemma accepts (hs : Splits cfg s ∧ Fitting cfg (fed cfg s.log)) {pipe : Pipe} {payload : Bytes}
    (h : Accepts cfg s t pipe payload) : Splits cfg t ∧ Fitting cfg (fed cfg t.log) := by
  refine ⟨Flowing.takes hs.1 h.takes, ?_⟩
  have hlog : fed cfg t.log =
      if feeds cfg pipe then fed cfg s.log ++ payload else fed cfg s.log := by
    rw [h.takes.log]
    rfl
  rw [hlog]
  split
  · next hfeeds =>
    apply hs.2.append
    rw [← hs.1.1]
    exact h.fitting hfeeds
  · exact hs.2

lemma overruns (he : s.exit = none) (hs : Splits cfg s ∧ Fitting cfg (fed cfg s.log)) {pipe : Pipe}
    {payload : Bytes} (h : Overruns cfg s t pipe payload) : Framed cfg t := by
  obtain ⟨u, lines, limit, hexit, hlog, hwaits, hcut⟩ := h.waits
  refine waits_limit (hexit.trans he) ?_ hwaits
  intro merged bytes hlimit
  obtain ⟨hfeeds, hlines⟩ := hcut merged bytes hlimit
  have hfed : fed cfg u.log = fed cfg s.log ++ payload := by
    rw [hlog, fed, if_pos hfeeds]
  have hemitted : emittedLines u.log = emittedLines s.log := by
    rw [hlog]
    rfl
  rw [hs.1.1] at hlines
  rw [hfed, hemitted, hs.1.2]
  exact hlines.after hs.2

lemma handleMessage (h : Framed cfg s) {wait : ℤ} (hp : s.phase = .receiving wait)
    (message : Message) : Framed cfg (handleMessage cfg clock s message) := by
  have he : s.exit = none := h.waiting (.inl ⟨wait, hp⟩)
  have hs : Splits cfg s ∧ Fitting cfg (fed cfg s.log) := h.going he (by simp [hp])
  have frames : ∀ {t : State} {pipe : Pipe} {payload : Bytes},
      Accepts cfg s t pipe payload ∨ Overruns cfg s t pipe payload → Framed cfg t := by
    intro t pipe payload hframe
    rcases hframe with haccepts | hoverruns
    · exact undecided (haccepts.takes.exit.trans he) (by simp [haccepts.takes.phase])
        (accepts hs haccepts)
    · exact overruns he hs hoverruns
  cases message with
  | exitStatus =>
    obtain ⟨e, hplain, hd⟩ := @handleExitStatus_decides cfg s
    refine ended hd fun e' he' => ?_
    obtain rfl := Exit.error.inj he'
    exact hplain.1
  | data tag payload =>
    cases tag with
    | stdout => exact frames (handleStdout_framed s payload)
    | stderr => exact frames (handleStderr_framed s payload)
    | spawned =>
      have ha : Aside s (emit (s.recordIdentity cfg payload) []) :=
        (Aside.recordIdentity s payload).trans ((Aside.add _ (e := .emitted []) rfl).trans (.phase _ _))
      exact undecided (ha.exit.trans he) (fun _ _ => Phase.noConfusion) (aside ha hs)
    | tracked =>
      have ha : Aside s (s.recordTracked cfg payload) := .tracking s _ _
      obtain ⟨hr, wait', hw⟩ := @receiveNext_aside clock (s.recordTracked cfg payload)
      have hp' : (Stream.handleMessage cfg clock s (.data .tracked payload)).phase =
          .receiving wait' := hw
      exact undecided ((ha.trans hr).exit.trans he) (by simp [hp']) (aside (ha.trans hr) hs)
    | exit =>
      obtain ⟨exit, hd, hx⟩ := @handleExit_decides cfg s payload
      exact ended hd fun e he => (hx e he).1
    | error =>
      obtain ⟨e, hplain, hd⟩ := @handleError_decides cfg s payload
      refine ended hd fun e' he' => ?_
      obtain rfl := Exit.error.inj he'
      exact hplain.1
    | other =>
      have ha : Aside s (emit s []) := (Aside.add s (e := .emitted []) rfl).trans (.phase _ _)
      exact undecided (ha.exit.trans he) (fun _ _ => Phase.noConfusion) (aside ha hs)

lemma nested (h : Framed cfg s) {purpose : Purpose} {deadline : Instant}
    (hp : s.phase = .awaiting purpose deadline) (hw : Waits cfg purpose s t) : Framed cfg t := by
  have he : s.exit = none := h.waiting (.inr ⟨purpose, deadline, hp⟩)
  by_cases hpurpose : ∃ lines limit, purpose = .limit lines limit
  · obtain ⟨lines, limit, rfl⟩ := hpurpose
    refine waits_limit he (fun merged bytes hlimit => ?_) hw
    subst hlimit
    exact h.limiting lines merged bytes deadline hp
  · have hne : ∀ lines limit, purpose ≠ .limit lines limit :=
      fun lines limit hlimit => hpurpose ⟨lines, limit, hlimit⟩
    refine waits he hne (h.going he fun lines limit d hd => ?_) hw
    exact hne lines limit (Phase.awaiting.inj (hp.symm.trans hd)).1

lemma step (h : Framed cfg s) (hs : step cfg clock s l = some t) : Framed cfg t := by
  by_cases hm : ∃ wait message, s.phase = .receiving wait ∧ l = .message message
  · obtain ⟨wait, message, hp, rfl⟩ := hm
    rw [Stream.step.eq_def, hp] at hs
    obtain rfl := Option.some.inj hs
    exact h.handleMessage hp message
  · have hready : s.phase = .ready → s.exit = none → Splits cfg s ∧ Fitting cfg (fed cfg s.log) :=
      fun hp he => h.going he (by simp [hp])
    have hreceiving : ∀ wait, s.phase = .receiving wait →
        s.exit = none ∧ Splits cfg s ∧ Fitting cfg (fed cfg s.log) := by
      intro wait hp
      have he := h.waiting (.inl ⟨wait, hp⟩)
      exact ⟨he, h.going he (by simp [hp])⟩
    cases step_turn hs with
    | asks hp he ha wait hw =>
      exact undecided (ha.exit.trans he) (by simp [hw]) (aside ha (hready hp he))
    | halts hp he => exact h.handed he (.inr (.inl rfl))
    | raises hp e he => exact h.handed he (.inr (.inr (.inl ⟨e, rfl⟩)))
    | leaves hp he hw => exact waits he (by simp) (hready hp he) hw
    | abandons hp exit he => exact h.handed he (.inr (.inr (.inr rfl)))
    | rewaits hp ha wait' hw =>
      obtain ⟨he, hsplits⟩ := hreceiving _ hp
      exact undecided (ha.exit.trans he) (by simp [hw]) (aside ha hsplits)
    | idles hp hlong hi hw =>
      obtain ⟨he, hsplits⟩ := hreceiving _ hp
      exact waits (s := s.add .timeout) he (by simp) hsplits hw
    | stops hp hlong hi e hl ht hn ho hd =>
      refine ended hd fun e' he' => ?_
      obtain rfl := Exit.error.inj he'
      exact hl
    | notes hp hne ha hw => exact absurd ⟨_, _, hp, rfl⟩ hm
    | takes hp hne htakes => exact absurd ⟨_, _, hp, rfl⟩ hm
    | exceeds hp hne hexceeds => exact absurd ⟨_, _, hp, rfl⟩ hm
    | exits hp exit hd hx => exact absurd ⟨_, _, hp, rfl⟩ hm
    | fails hp hne e he hd => exact absurd ⟨_, _, hp, rfl⟩ hm
    | awaits hp hne hw => exact h.nested hp hw
    | @reports purpose deadline hp payload => exact h.nested hp (.concluded _ (.refl s) rfl)

end Framed

lemma start_framed (timeoutMs reads : ℕ) : Framed cfg (start cfg clock timeoutMs reads) := by
  have hlog : fed cfg (start cfg clock timeoutMs reads).log = [] ∧
      emittedLines (start cfg clock timeoutMs reads).log = [] := by
    simp only [start]
    cases cfg.maxStderrBytes <;> exact ⟨rfl, rfl⟩
  refine .undecided rfl (by simp [start]) ?_
  rw [Splits, hlog.1, hlog.2]
  refine ⟨⟨rfl, rfl⟩, ?_⟩
  simp [Fitting]

lemma run_framed {timeoutMs reads : ℕ}
    (h : Transition.Run (fun s l t => step cfg clock s l = some t)
      (start cfg clock timeoutMs reads) labels s) : Framed cfg s :=
  h.invariant (fun _ _ _ hs hst => hs.step hst) (start_framed timeoutMs reads)

lemma limited_reassembled {timeoutMs reads : ℕ}
    (h : Transition.Run (fun s l t => step cfg clock s l = some t)
      (start cfg clock timeoutMs reads) labels s) (hl : LineLimited s) {text : Bytes}
    (ht : fed cfg s.log <+: text) : Reassembled cfg text s := by
  obtain ⟨hbefore, hline⟩ := ((run_framed h).limited hl).longer ht
  exact ⟨hbefore, iff_of_true hl hline⟩

lemma exit_reassembled {timeoutMs reads : ℕ}
    (h : Transition.Run (fun s l t => step cfg clock s l = some t)
      (start cfg clock timeoutMs reads) labels s) {wait : ℤ} (hp : s.phase = .receiving wait)
    {payload : Bytes} (hs : step cfg clock s (.message (.data .exit payload)) = some t) :
    Reassembled cfg (fed cfg s.log) t ∧ ¬LineLimited t ∧ t.phase = .ready := by
  have hframed := run_framed h
  have he : s.exit = none := hframed.waiting (.inl ⟨wait, hp⟩)
  obtain ⟨hsplits, hfit⟩ := hframed.going he (by simp [hp])
  rw [step.eq_def, hp] at hs
  obtain rfl : handleExit cfg s payload = t := Option.some.inj hs
  obtain ⟨exit, hd, hx⟩ := @handleExit_decides cfg s payload
  obtain ⟨es, hes, hlog⟩ := hd.log
  obtain ⟨-, hemitted⟩ := @aside_output cfg s.log _ hes
  have hlimited : ¬LineLimited (handleExit cfg s payload) := by
    rintro ⟨e, merged, bytes, hexit, hlimit⟩
    have hsome := Option.some.inj (hd.exit.symm.trans hexit)
    cases (hx e hsome).1.symm.trans hlimit
  have hclosed : emittedLines (handleExit cfg s payload).log =
      Lines.closed newline (fed cfg s.log) := by
    rw [hlog]
    change emittedLines (es ++ s.log) ++ _ = _
    rw [hemitted, hsplits.2, hsplits.1, Lines.closed]
    simp only [List.isEmpty_iff]
  refine ⟨⟨?_, iff_of_false hlimited ?_⟩, hlimited, hd.phase⟩
  · rw [hclosed, List.takeWhile_eq_self_iff.mpr hfit]
  · rintro ⟨line, hin, hline⟩
    cases (hfit line hin).symm.trans hline

end Forcola.Beam.Stream
