import Forcola.Beam.Stream
import Forcola.Library.Transition

/-! What one step of a stream does, and its runs. -/

namespace Forcola.Beam.Stream

open Library
open Native (Bytes Pipe)

def Effect.aside : Effect → Bool
  | .emitted lines => lines.isEmpty
  | .received _ _ | .timeout => false
  | _ => true

structure Aside (s t : State) : Prop where
  buffer : t.buffer = s.buffer
  stderrBytes : t.stderrBytes = s.stderrBytes
  deadline : t.deadline = s.deadline
  exit : t.exit = s.exit
  log : ∃ es : List Effect, (∀ e ∈ es, e.aside = true) ∧ t.log = es ++ s.log

variable {cfg : Options} {clock : ℕ → Instant} {s t u : State} {payload : Bytes}

namespace Aside

lemma refl (s : State) : Aside s s :=
  ⟨rfl, rfl, rfl, rfl, [], by simp, rfl⟩

lemma trans (h : Aside s t) (k : Aside t u) : Aside s u := by
  obtain ⟨es, he, hl⟩ := h.log
  obtain ⟨fs, hf, hm⟩ := k.log
  refine ⟨k.buffer.trans h.buffer, k.stderrBytes.trans h.stderrBytes, k.deadline.trans h.deadline,
    k.exit.trans h.exit, fs ++ es, ?_, ?_⟩
  · intro e hin
    rcases List.mem_append.mp hin with hin | hin
    · exact hf e hin
    · exact he e hin
  · rw [hm, hl, List.append_assoc]

lemma add (s : State) {e : Effect} (h : e.aside = true) : Aside s (s.add e) :=
  ⟨rfl, rfl, rfl, rfl, [e], by simpa using h, rfl⟩

lemma now (s : State) : Aside s (s.now clock).2 :=
  ⟨rfl, rfl, rfl, rfl, [], by simp, rfl⟩

lemma phase (s : State) (phase : Phase) : Aside s { s with phase := phase } :=
  ⟨rfl, rfl, rfl, rfl, [], by simp, rfl⟩

lemma keeps : Keeper.Keeps Aside where
  refl := refl
  trans := trans
  setTracking _ _ := ⟨rfl, rfl, rfl, rfl, [], by simp, rfl⟩
  setIdentity _ _ := ⟨rfl, rfl, rfl, rfl, [], by simp, rfl⟩
  tell s _ := .add s rfl
  spawned s _ := .add s rfl

lemma tracking (s : State) (tracking : Tracking) (event : Option TrackingEvent) :
    Aside s ({ s with tracking := tracking }.tell cfg event) :=
  keeps.tracking s _ _

lemma recordIdentity (s : State) (payload : Bytes) : Aside s (s.recordIdentity cfg payload) :=
  keeps.recordIdentity _ s _

end Aside

lemma keeps_idleDeadline : Keeper.Keeps fun s t : State => t.idleDeadline = s.idleDeadline where
  refl _ := rfl
  trans h k := k.trans h
  setTracking _ _ := rfl
  setIdentity _ _ := rfl
  tell _ _ := rfl
  spawned _ _ := rfl

/-- A nested wait for EXIT, or what its end makes of the state. -/
inductive Waits (cfg : Options) (purpose : Purpose) (s : State) : State → Prop
  | waiting {t : State} (deadline : Instant) (h : Aside s t) (hi : t.idleDeadline = s.idleDeadline)
      (hp : t.phase = .awaiting purpose deadline) : Waits cfg purpose s t
  | concluded {u : State} (result : Confirmed) (h : Aside s u)
      (hi : u.idleDeadline = s.idleDeadline) : Waits cfg purpose s (conclude cfg u purpose result)

lemma Waits.after {purpose : Purpose} (h : Aside s t) (hi : t.idleDeadline = s.idleDeadline)
    (hw : Waits cfg purpose t u) : Waits cfg purpose s u := by
  cases hw with
  | waiting deadline hu hui hp => exact .waiting deadline (h.trans hu) (hui.trans hi) hp
  | concluded result hu hui => exact .concluded result (h.trans hu) (hui.trans hi)

lemma doAwaitExit_waits (s : State) (purpose : Purpose) (deadline : Instant) :
    Waits cfg purpose s (doAwaitExit cfg clock s purpose deadline) := by
  rw [doAwaitExit]
  dsimp only
  split
  · exact .concluded .timeout (.now s) rfl
  · exact .waiting deadline (Aside.trans (.now s) (.phase _ _)) rfl rfl

lemma killAndConfirm_waits (s : State) (purpose : Purpose) :
    Waits cfg purpose s (killAndConfirm cfg clock s purpose) := by
  have hkill : Aside s ((s.add (.send .kill)).now clock).2 :=
    Aside.trans (.add s (e := .send .kill) rfl) (.now _)
  exact Waits.after hkill rfl (doAwaitExit_waits _ _ _)

lemma awaitMessage_waits (s : State) (purpose : Purpose) (deadline : Instant) (message : Message) :
    Waits cfg purpose s (awaitMessage cfg clock s purpose deadline message) := by
  cases message with
  | exitStatus => exact .concluded .shimExited (.refl s) rfl
  | data tag payload =>
    cases tag with
    | exit => exact .concluded (.exit _) (.refl s) rfl
    | error => exact .concluded .error (.refl s) rfl
    | spawned =>
      exact Waits.after (.recordIdentity s payload) (keeps_idleDeadline.recordIdentity _ s _)
        (doAwaitExit_waits _ _ _)
    | tracked =>
      exact Waits.after (.tracking s _ _) (keeps_idleDeadline.tracking s _ _)
        (doAwaitExit_waits _ _ _)
    | stdout =>
      exact Waits.after (.add s (e := .discarded .stdout payload) rfl) rfl
        (doAwaitExit_waits _ _ _)
    | stderr =>
      exact Waits.after (.add s (e := .discarded .stderr payload) rfl) rfl
        (doAwaitExit_waits _ _ _)
    | other => exact doAwaitExit_waits _ _ _

def Error.plain (e : Error) : Prop :=
  e.limit = none ∧ e.timedOut = false ∧ e.idleTimedOut = false ∧ e.outputTruncated = false

lemma finishTracking_aside (s : State) (scope : Shim.Scope) (confirmation : Confirmation)
    (contained : Option Bool) (truncated : Bool) :
    Aside s (s.finishTracking cfg scope confirmation contained truncated) :=
  .tracking s _ _

lemma finishTracking_idle (s : State) (scope : Shim.Scope) (confirmation : Confirmation)
    (contained : Option Bool) (truncated : Bool) :
    (s.finishTracking cfg scope confirmation contained truncated).idleDeadline = s.idleDeadline :=
  keeps_idleDeadline.tracking s _ _

lemma cleanupEvidence_spec (s : State) (result : Confirmed) :
    (cleanupEvidence cfg s result).1.plain ∧ Aside s (cleanupEvidence cfg s result).2 ∧
      (cleanupEvidence cfg s result).2.idleDeadline = s.idleDeadline := by
  cases result <;>
    exact ⟨⟨rfl, rfl, rfl, rfl⟩, finishTracking_aside _ _ _ _ _, finishTracking_idle _ _ _ _ _⟩

structure Decides (s t : State) (exit : Exit) (final : List Bytes) : Prop where
  deadline : t.deadline = s.deadline
  idleDeadline : t.idleDeadline = s.idleDeadline
  exit : t.exit = some exit
  phase : t.phase = .ready
  log : ∃ es : List Effect, (∀ e ∈ es, e.aside = true) ∧ t.log = .emitted final :: es ++ s.log

lemma conclude_idle (s : State) (result : Confirmed) : ∃ e : Error,
    e.limit = none ∧ e.timedOut = false ∧ e.idleTimedOut = true ∧ e.outputTruncated = false ∧
      Decides s (conclude cfg s .idle result) (.error e) [] := by
  obtain ⟨⟨hlimit, htimed, -, htruncated⟩, haside, hidle⟩ :=
    @cleanupEvidence_spec cfg s result
  obtain ⟨es, hes, hlog⟩ := haside.log
  refine ⟨{ (cleanupEvidence cfg s result).1 with idleTimedOut := true }, hlimit, htimed, rfl,
    htruncated, haside.deadline, hidle, rfl, rfl, es, hes, ?_⟩
  exact congrArg (Effect.emitted [] :: ·) hlog

lemma conclude_limit (s : State) (lines : List Bytes) (limit : Limit) (result : Confirmed) :
    ∃ e : Error, e.limit = some limit ∧ e.timedOut = false ∧ e.idleTimedOut = false ∧
      Decides s (conclude cfg s (.limit lines limit) result) (.error e) lines := by
  obtain ⟨⟨-, htimed, hidleTimed, -⟩, haside, hidle⟩ := @cleanupEvidence_spec cfg s result
  obtain ⟨es, hes, hlog⟩ := haside.log
  refine ⟨{ (cleanupEvidence cfg s result).1 with limit := some limit, outputTruncated := true },
    rfl, htimed, hidleTimed, haside.deadline, hidle, rfl, rfl, es, hes, ?_⟩
  exact congrArg (Effect.emitted lines :: ·) hlog

lemma conclude_cleanup (s : State) (result : Confirmed) :
    Aside s (conclude cfg s .cleanup result) ∧ (conclude cfg s .cleanup result).phase = .abandoned :=
  ⟨Aside.trans (cleanupEvidence_spec s result).2.1 (.phase _ _), rfl⟩

def feeds (cfg : Options) : Pipe → Bool
  | .stdout => true
  | .stderr => cfg.mergeStderr && cfg.maxStderrBytes.isSome

structure Takes (cfg : Options) (s t : State) (pipe : Pipe) (payload : Bytes) : Prop where
  deadline : t.deadline = s.deadline
  exit : t.exit = s.exit
  phase : t.phase = .ready
  buffer : t.buffer =
    if feeds cfg pipe then Lines.rest newline (s.buffer ++ payload) else s.buffer
  log : t.log = .emitted (if feeds cfg pipe then Lines.lines newline (s.buffer ++ payload) else []) ::
    .received pipe payload :: s.log

structure Exceeds (cfg : Options) (s t : State) (pipe : Pipe) (payload : Bytes) : Prop where
  overrun : ∃ (u : State) (lines : List Bytes) (limit : Limit), u.deadline = s.deadline ∧
    u.exit = s.exit ∧ u.log = .received pipe payload :: s.log ∧
    Waits cfg (.limit lines limit) u t

def overLimit (cfg : Options) (s : State) : Message → Option Limit
  | .data .stdout payload => (consumeLines cfg s payload).2.1
  | .data .stderr payload =>
    match cfg.maxStderrBytes with
    | none => none
    | some maxStderr =>
      let remaining := maxStderr - s.stderrBytes
      match if cfg.mergeStderr then (consumeLines cfg s (payload.take remaining)).2.1 else none with
      | some limit => some limit
      | none => if remaining < payload.length then some (.totalStderr maxStderr) else none
  | _ => none

lemma consumeLines_limit (h : t.buffer = s.buffer) (payload : Bytes) :
    (consumeLines cfg t payload).2.1 = (consumeLines cfg s payload).2.1 := by
  rw [consumeLines, consumeLines, h]
  dsimp only
  split
  · rfl
  · split
    · rfl
    · split <;> rfl

lemma exceeds_kill {pipe : Pipe} {lines : List Bytes} {limit : Limit}
    (hdeadline : u.deadline = s.deadline) (hexit : u.exit = s.exit)
    (hlog : u.log = .received pipe payload :: s.log) :
    Exceeds cfg s (killAndConfirm cfg clock u (.limit lines limit)) pipe payload :=
  ⟨u, lines, limit, hdeadline, hexit, hlog, killAndConfirm_waits _ _⟩

lemma resetIdle_frame (s : State) : (resetIdle cfg clock s).buffer = s.buffer ∧
    (resetIdle cfg clock s).stderrBytes = s.stderrBytes ∧
    (resetIdle cfg clock s).deadline = s.deadline ∧ (resetIdle cfg clock s).exit = s.exit ∧
    (resetIdle cfg clock s).log = s.log := by
  rw [resetIdle]
  split <;> exact ⟨rfl, rfl, rfl, rfl, rfl⟩

lemma accountStdout_frame (s : State) (bytes : ℕ) :
    ∃ outstanding, accountStdout cfg s bytes = { s with outstanding := outstanding } := by
  rw [accountStdout]
  split
  · exact ⟨s.outstanding, rfl⟩
  · exact ⟨_, rfl⟩

lemma consumeLines_cases (s : State) (payload : Bytes) :
    consumeLines cfg s payload = (Lines.lines newline (s.buffer ++ payload), none,
        { s with buffer := Lines.rest newline (s.buffer ++ payload) }) ∨
      ∃ lines limit, consumeLines cfg s payload = (lines, some limit, s) := by
  rw [consumeLines]
  dsimp only
  split
  · exact .inl rfl
  · split
    · exact .inr ⟨_, _, rfl⟩
    · split
      · exact .inr ⟨_, _, rfl⟩
      · exact .inl rfl

lemma handleStdout (s : State) (payload : Bytes) :
    Takes cfg s (handleMessage cfg clock s (.data .stdout payload)) .stdout payload ∨
      Exceeds cfg s (handleMessage cfg clock s (.data .stdout payload)) .stdout payload ∧
        overLimit cfg s (.data .stdout payload) ≠ none := by
  obtain ⟨hbuffer, -, hdeadline, hexit, hlog⟩ :=
    @resetIdle_frame cfg clock (s.add (.received .stdout payload))
  obtain ⟨outstanding, hout⟩ := @accountStdout_frame cfg
    (resetIdle cfg clock (s.add (.received .stdout payload))) payload.length
  rw [handleMessage]
  rw [hout, deliver]
  rcases @consumeLines_cases cfg { resetIdle cfg clock (s.add (.received .stdout payload))
    with outstanding := outstanding } payload with h | ⟨lines, limit, h⟩
  · rw [h]
    refine .inl ⟨hdeadline, hexit, rfl, ?_, ?_⟩
    · change Lines.rest newline ((resetIdle cfg clock _).buffer ++ payload) = _
      rw [hbuffer]
      rfl
    · change Effect.emitted (Lines.lines newline ((resetIdle cfg clock _).buffer ++ payload)) ::
        (resetIdle cfg clock _).log = _
      rw [hbuffer, hlog]
      rfl
  · have hover : overLimit cfg s (.data .stdout payload) = some limit := by
      have hsame := @consumeLines_limit cfg s { resetIdle cfg clock (s.add (.received .stdout payload))
        with outstanding := outstanding } hbuffer payload
      exact hsame.symm.trans (congrArg (·.2.1) h)
    rw [h]
    refine .inr ⟨exceeds_kill ?_ ?_ ?_, by simp [hover]⟩
    · exact hdeadline
    · exact hexit
    · exact hlog

lemma handleStderr (s : State) (payload : Bytes) :
    Takes cfg s (handleMessage cfg clock s (.data .stderr payload)) .stderr payload ∨
      Exceeds cfg s (handleMessage cfg clock s (.data .stderr payload)) .stderr payload ∧
        overLimit cfg s (.data .stderr payload) ≠ none := by
  obtain ⟨hbuffer, hbytes, hdeadline, hexit, hlog⟩ :=
    @resetIdle_frame cfg clock (s.add (.received .stderr payload))
  rw [handleMessage, overLimit]
  generalize resetIdle cfg clock (s.add (.received .stderr payload)) = r at *
  rw [consumeStderr]
  cases hmax : cfg.maxStderrBytes with
  | none =>
    have hfeeds : feeds cfg .stderr = false := by simp [feeds, hmax]
    refine .inl ⟨hdeadline, hexit, rfl, ?_, ?_⟩
    · rw [hfeeds]
      exact hbuffer
    · rw [hfeeds]
      exact congrArg (Effect.emitted [] :: ·) hlog
  | some maxStderr =>
    dsimp only
    cases hmerge : cfg.mergeStderr with
    | false =>
      have hfeeds : feeds cfg .stderr = false := by simp [feeds, hmerge]
      simp only [Bool.false_eq_true, if_false]
      split
      · next hlt =>
        refine .inr ⟨exceeds_kill ?_ ?_ ?_, ?_⟩
        · exact hdeadline
        · exact hexit
        · exact hlog
        · have hbytes' : r.stderrBytes = s.stderrBytes := hbytes
          rw [if_pos (hbytes' ▸ hlt)]
          simp
      · refine .inl ⟨hdeadline, hexit, rfl, ?_, ?_⟩
        · rw [hfeeds]
          exact hbuffer
        · rw [hfeeds]
          exact congrArg (Effect.emitted [] :: ·) hlog
    | true =>
      have hfeeds : feeds cfg .stderr = true := by simp [feeds, hmerge, hmax]
      simp only [if_true]
      rcases @consumeLines_cases cfg { r with stderrBytes := r.stderrBytes +
        (payload.take (maxStderr - r.stderrBytes)).length }
          (payload.take (maxStderr - r.stderrBytes)) with h | ⟨lines, limit, h⟩
      · rw [h]
        dsimp only
        split
        · next hlt =>
          refine .inr ⟨exceeds_kill ?_ ?_ ?_, ?_⟩
          · exact hdeadline
          · exact hexit
          · exact hlog
          · have hbytes' : r.stderrBytes = s.stderrBytes := hbytes
            rw [if_pos (hbytes' ▸ hlt)]
            split <;> simp
        · next hle =>
          -- a frame that stays under the limit is taken whole
          have htake : payload.take (maxStderr - r.stderrBytes) = payload :=
            List.take_of_length_le (not_lt.mp hle)
          refine .inl ⟨hdeadline, hexit, rfl, ?_, ?_⟩
          · rw [hfeeds]
            change Lines.rest newline (r.buffer ++ payload.take _) = _
            rw [htake, hbuffer]
            rfl
          · rw [hfeeds]
            change Effect.emitted (Lines.lines newline (r.buffer ++ payload.take _)) :: r.log = _
            rw [htake, hbuffer, hlog]
            rfl
      · rw [h]
        refine .inr ⟨exceeds_kill ?_ ?_ ?_, ?_⟩
        · exact hdeadline
        · exact hexit
        · exact hlog
        · have hlimit : (consumeLines cfg s (payload.take (maxStderr - s.stderrBytes))).2.1 =
              some limit := by
            have hbytes' : r.stderrBytes = s.stderrBytes := hbytes
            rw [hbytes'] at h
            have hsame := @consumeLines_limit cfg s { r with stderrBytes := s.stderrBytes +
              (payload.take (maxStderr - s.stderrBytes)).length } hbuffer
                (payload.take (maxStderr - s.stderrBytes))
            exact hsame.symm.trans (congrArg (·.2.1) h)
          rw [hlimit]
          simp

lemma handleExit_decides (s : State) (payload : Bytes) : ∃ exit,
    Decides s (handleExit cfg s payload) exit (if s.buffer.isEmpty then [] else [s.buffer]) ∧
      ∀ e, exit = .error e → e.limit = none ∧ e.idleTimedOut = false ∧
        e.timedOut = (s.tracking.report (cfg.json payload)).timedOut := by
  obtain ⟨hbuffer, -, hdeadline, -, es, hes, hlog⟩ := @finishTracking_aside cfg s
    (s.tracking.report (cfg.json payload)).scope
    (Tracking.confirmation (s.tracking.report (cfg.json payload)))
    (s.tracking.report (cfg.json payload)).contained
    (s.tracking.report (cfg.json payload)).trackedGroupsTruncated
  rw [handleExit]
  dsimp only
  rw [hbuffer]
  refine ⟨_, ⟨hdeadline, finishTracking_idle _ _ _ _ _, rfl, rfl, es, hes,
    congrArg (Effect.emitted _ :: ·) hlog⟩, fun e he => ?_⟩
  split at he
  · cases he
  · obtain rfl := Exit.error.inj he
    exact ⟨rfl, rfl, rfl⟩

lemma handleError_decides (s : State) (payload : Bytes) : ∃ e : Error, e.plain ∧
    Decides s (handleError cfg s payload) (.error e) [] := by
  obtain ⟨-, -, hdeadline, -, es, hes, hlog⟩ :=
    @finishTracking_aside cfg s .unknown .notStarted none false
  exact ⟨_, ⟨rfl, rfl, rfl, rfl⟩, hdeadline, finishTracking_idle _ _ _ _ _, rfl, rfl, es, hes,
    congrArg (Effect.emitted [] :: ·) hlog⟩

lemma handleExitStatus_decides (s : State) : ∃ e : Error, e.plain ∧
    Decides s (handleExitStatus cfg s) (.error e) [] := by
  obtain ⟨-, -, hdeadline, -, es, hes, hlog⟩ :=
    @finishTracking_aside cfg s .unknown .transportLost none false
  exact ⟨_, ⟨rfl, rfl, rfl, rfl⟩, hdeadline, finishTracking_idle _ _ _ _ _, rfl, rfl, es, hes,
    congrArg (Effect.emitted [] :: ·) hlog⟩

lemma backstop_decides (s : State) : ∃ e : Error,
    e.limit = none ∧ e.timedOut = true ∧ e.idleTimedOut = false ∧ e.outputTruncated = false ∧
      Decides s (timeoutError.backstop cfg s) (.error e) [] := by
  obtain ⟨-, -, hdeadline, -, es, hes, hlog⟩ :=
    @finishTracking_aside cfg s .unknown .timeout none false
  exact ⟨_, rfl, rfl, rfl, rfl, hdeadline, finishTracking_idle _ _ _ _ _, rfl, rfl, es, hes,
    congrArg (Effect.emitted [] :: ·) hlog⟩

def IdleFirst (s : State) : Prop :=
  ∃ idleDeadline, s.idleDeadline = some idleDeadline ∧ idleDeadline ≤ s.deadline

lemma timeoutError_idle (h : IdleFirst s) :
    timeoutError cfg clock s = killAndConfirm cfg clock (s.add .timeout) .idle := by
  obtain ⟨idleDeadline, hidle, hle⟩ := h
  have hsome : (s.add .timeout).idleDeadline = some idleDeadline := hidle
  rw [timeoutError, hsome]
  exact if_pos hle

lemma timeoutError_backstop (h : ¬IdleFirst s) :
    timeoutError cfg clock s = timeoutError.backstop cfg (s.add .timeout) := by
  rw [timeoutError]
  split
  · next idleDeadline hidle => exact if_neg fun hle => h ⟨idleDeadline, hidle, hle⟩
  · rfl

inductive Turn (cfg : Options) (s : State) : Label → State → Prop
  | asks {t : State} (hp : s.phase = .ready) (he : s.exit = none) (h : Aside s t) (wait : ℤ)
      (hw : t.phase = .receiving wait) : Turn cfg s .pull t
  | halts (hp : s.phase = .ready) (he : s.exit = some .ok) :
      Turn cfg s .pull { s with phase := .halted }
  | raises (hp : s.phase = .ready) (e : Error) (he : s.exit = some (.error e)) :
      Turn cfg s .pull { s with phase := .raised e }
  | leaves {t : State} (hp : s.phase = .ready) (he : s.exit = none)
      (h : Waits cfg .cleanup s t) : Turn cfg s .halt t
  | abandons (hp : s.phase = .ready) (exit : Exit) (he : s.exit = some exit) :
      Turn cfg s .halt { s with phase := .abandoned }
  | rewaits {t : State} {wait : ℤ} (hp : s.phase = .receiving wait) (h : Aside s t) (wait' : ℤ)
      (hw : t.phase = .receiving wait') : Turn cfg s .expire t
  | idles {t : State} {wait : ℤ} (hp : s.phase = .receiving wait) (hw : wait ≤ longestWait)
      (hi : IdleFirst s)
      (h : Waits cfg .idle (s.add .timeout) t) : Turn cfg s .expire t
  | stops {t : State} {wait : ℤ} (hp : s.phase = .receiving wait) (hw : wait ≤ longestWait)
      (hi : ¬IdleFirst s) (e : Error) (hl : e.limit = none) (ht : e.timedOut = true) (hn : e.idleTimedOut = false)
      (ho : e.outputTruncated = false) (h : Decides (s.add .timeout) t (.error e) []) :
      Turn cfg s .expire t
  | notes {t : State} {wait : ℤ} (hp : s.phase = .receiving wait) {message : Message}
      (hm : ∀ payload, message ≠ .data .exit payload) (h : Aside s t)
      (hw : t.phase = .ready ∨ ∃ wait', t.phase = .receiving wait') :
      Turn cfg s (.message message) t
  | takes {t : State} {wait : ℤ} (hp : s.phase = .receiving wait) {message : Message} {pipe : Pipe}
      {payload : Bytes} (hm : ∀ payload, message ≠ .data .exit payload)
      (h : Takes cfg s t pipe payload) : Turn cfg s (.message message) t
  | exceeds {t : State} {wait : ℤ} (hp : s.phase = .receiving wait) {message : Message}
      {pipe : Pipe} {payload : Bytes} (hm : ∀ payload, message ≠ .data .exit payload)
      (h : Exceeds cfg s t pipe payload) (hl : overLimit cfg s message ≠ none) :
      Turn cfg s (.message message) t
  | exits {t : State} {wait : ℤ} (hp : s.phase = .receiving wait) {payload : Bytes} (exit : Exit)
      (h : Decides s t exit (if s.buffer.isEmpty then [] else [s.buffer]))
      (he : ∀ e, exit = .error e → e.limit = none ∧ e.idleTimedOut = false ∧
        e.timedOut = (s.tracking.report (cfg.json payload)).timedOut) :
      Turn cfg s (.message (.data .exit payload)) t
  | fails {t : State} {wait : ℤ} (hp : s.phase = .receiving wait) {message : Message}
      (hm : message = .exitStatus ∨ ∃ payload, message = .data .error payload) (e : Error)
      (he : e.plain) (h : Decides s t (.error e) []) : Turn cfg s (.message message) t
  | awaits {t : State} {purpose : Purpose} {deadline : Instant}
      (hp : s.phase = .awaiting purpose deadline) {label : Label}
      (hm : ∀ payload, label ≠ .message (.data .exit payload)) (h : Waits cfg purpose s t) :
      Turn cfg s label t
  | reports {purpose : Purpose} {deadline : Instant} (hp : s.phase = .awaiting purpose deadline)
      (payload : Bytes) : Turn cfg s (.message (.data .exit payload))
        (conclude cfg s purpose (.exit (s.tracking.report (cfg.json payload))))

lemma grantCredit_aside (s : State) : Aside s (grantCredit cfg clock s) := by
  have hreset : ∀ r : State, Aside r (resetIdle cfg clock r) := by
    intro r
    obtain ⟨hbuffer, hbytes, hdeadline, hexit, hlog⟩ := @resetIdle_frame cfg clock r
    exact ⟨hbuffer, hbytes, hdeadline, hexit, [], by simp, hlog⟩
  have hset : ∀ (r : State) (outstanding : ℕ), Aside r { r with outstanding := outstanding } :=
    fun r outstanding => ⟨rfl, rfl, rfl, rfl, [], by simp, rfl⟩
  rw [grantCredit]
  split
  · exact .refl s
  · next window hwindow =>
    dsimp only
    split
    · exact (Aside.add s (e := .send _) rfl).trans ((hset _ window).trans (hreset _))
    · exact (hset s window).trans (hreset _)

lemma receiveNext_aside (s : State) :
    Aside s (receiveNext clock s) ∧ ∃ wait, (receiveNext clock s).phase = .receiving wait :=
  ⟨Aside.trans (.now s) (.phase _ _), _, rfl⟩

lemma handleMessage_turn {wait : ℤ} (hp : s.phase = .receiving wait) (message : Message) :
    Turn cfg s (.message message) (handleMessage cfg clock s message) := by
  cases message with
  | exitStatus =>
    obtain ⟨e, he, h⟩ := @handleExitStatus_decides cfg s
    exact .fails hp (.inl rfl) e he h
  | data tag payload =>
    cases tag with
    | stdout =>
      rcases @handleStdout cfg clock s payload with h | ⟨h, hl⟩
      · exact .takes hp (by simp) h
      · exact .exceeds hp (by simp) h hl
    | stderr =>
      rcases @handleStderr cfg clock s payload with h | ⟨h, hl⟩
      · exact .takes hp (by simp) h
      · exact .exceeds hp (by simp) h hl
    | spawned =>
      have h : Aside s (emit (s.recordIdentity cfg payload) []) :=
        (Aside.recordIdentity s payload).trans ((Aside.add _ (e := .emitted []) rfl).trans (.phase _ _))
      exact .notes hp (by simp) h (.inl rfl)
    | tracked =>
      have h : Aside s (s.recordTracked cfg payload) := .tracking s _ _
      obtain ⟨hr, wait', hw⟩ := @receiveNext_aside clock (s.recordTracked cfg payload)
      exact .notes hp (by simp) (h.trans hr) (.inr ⟨wait', hw⟩)
    | exit =>
      obtain ⟨exit, h, he⟩ := @handleExit_decides cfg s payload
      exact .exits hp exit h he
    | error =>
      obtain ⟨e, he, h⟩ := @handleError_decides cfg s payload
      exact .fails hp (.inr ⟨payload, rfl⟩) e he h
    | other =>
      have h : Aside s (emit s []) := (Aside.add s (e := .emitted []) rfl).trans (.phase _ _)
      exact .notes hp (by simp) h (.inl rfl)

theorem step_turn {l : Label} (h : step cfg clock s l = some t) : Turn cfg s l t := by
  rw [step.eq_def] at h
  cases hp : s.phase with
  | ready =>
    rw [hp] at h
    cases l with
    | pull =>
      obtain rfl := Option.some.inj h
      rw [next]
      split
      · next he =>
        have hgrant := @grantCredit_aside cfg clock s
        obtain ⟨hr, wait, hw⟩ := @receiveNext_aside clock (grantCredit cfg clock s)
        exact .asks hp he (hgrant.trans hr) wait hw
      · next he => exact .halts hp he
      · next e he => exact .raises hp e he
    | halt =>
      obtain rfl := Option.some.inj h
      rw [cleanup]
      split
      · next he => exact .leaves hp he (killAndConfirm_waits _ _)
      · next exit he => exact .abandons hp exit he
    | _ => cases h
  | receiving wait =>
    rw [hp] at h
    cases l with
    | message message =>
      obtain rfl := Option.some.inj h
      exact handleMessage_turn hp message
    | expire =>
      dsimp only at h
      split at h
      · obtain rfl := Option.some.inj h
        obtain ⟨hr, wait', hw⟩ := @receiveNext_aside clock s
        exact .rewaits hp hr wait' hw
      · next hlong =>
        obtain rfl := Option.some.inj h
        by_cases hi : IdleFirst s
        · rw [timeoutError_idle hi]
          exact .idles hp (not_lt.mp hlong) hi (killAndConfirm_waits _ _)
        · obtain ⟨e, hl, ht, hn, ho, hd⟩ := @backstop_decides cfg (s.add .timeout)
          rw [timeoutError_backstop hi]
          exact .stops hp (not_lt.mp hlong) hi e hl ht hn ho hd
    | _ => cases h
  | awaiting purpose deadline =>
    rw [hp] at h
    cases l with
    | message message =>
      obtain rfl := Option.some.inj h
      by_cases hm : ∃ payload, message = .data .exit payload
      · obtain ⟨payload, rfl⟩ := hm
        exact .reports hp payload
      · refine .awaits hp ?_ (awaitMessage_waits _ _ _ _)
        intro payload heq
        exact hm ⟨payload, Label.message.inj heq⟩
    | expire =>
      obtain rfl := Option.some.inj h
      exact .awaits hp (by simp) (doAwaitExit_waits _ _ _)
    | _ => cases h
  | _ =>
    rw [hp] at h
    cases h

end Forcola.Beam.Stream
