import Forcola.Beam.StreamFraming
import Forcola.Native.OutputOrder

/-! The stderr a bounded stream keeps, and the limit it raises. -/

namespace Forcola.Beam.Stream

open Library
open Native (Bytes Pipe)
open Native.Supervisor (carried carried_append)

def handled (pipe : Pipe) : List Effect → Bytes
  | [] => []
  | .received p payload :: older =>
    if p = pipe then handled pipe older ++ payload else handled pipe older
  | _ :: older => handled pipe older

def admitted (maxStderr : ℕ) : List Effect → List (Pipe × Bytes)
  | [] => []
  | .received .stdout payload :: older => admitted maxStderr older ++ [(.stdout, payload)]
  | .received .stderr payload :: older =>
    admitted maxStderr older ++ [(.stderr, payload.take (maxStderr - (handled .stderr older).length))]
  | _ :: older => admitted maxStderr older

def mixed (cfg : Options) (chunks : List (Pipe × Bytes)) : Bytes :=
  (chunks.filter fun chunk => feeds cfg chunk.1).flatMap (·.2)

variable {cfg : Options} {clock : ℕ → Instant} {s t u : State} {l : Label} {maxStderr : ℕ}
  {log : List Effect}

lemma mixed_append (cfg : Options) (chunks more : List (Pipe × Bytes)) :
    mixed cfg (chunks ++ more) = mixed cfg chunks ++ mixed cfg more := by
  rw [mixed, List.filter_append, List.flatMap_append, mixed, mixed]

lemma carried_admitted (maxStderr : ℕ) (log : List Effect) :
    carried .stderr (admitted maxStderr log) = (handled .stderr log).take maxStderr := by
  induction log with
  | nil => rw [admitted, handled, List.take_nil]; rfl
  | cons e older ih =>
    cases e with
    | received pipe payload =>
      cases pipe with
      | stdout =>
        rw [admitted, carried_append, ih, handled, if_neg Pipe.noConfusion]
        exact List.append_nil _
      | stderr =>
        rw [admitted, carried_append, ih, handled, if_pos rfl, List.take_append]
        congr 1
        exact List.append_nil _
    | _ => exact ih

lemma mixed_admitted (h : (handled .stderr log).length ≤ maxStderr) :
    mixed cfg (admitted maxStderr log) = fed cfg log := by
  induction log with
  | nil => rfl
  | cons e older ih =>
    cases e with
    | received pipe payload =>
      cases pipe with
      | stdout =>
        rw [handled, if_neg Pipe.noConfusion] at h
        rw [admitted, mixed_append, ih h, fed, if_pos (show feeds cfg .stdout = true from rfl)]
        congr 1
        exact List.append_nil _
      | stderr =>
        rw [handled, if_pos rfl, List.length_append] at h
        rw [admitted, mixed_append, ih (by omega), fed, List.take_of_length_le (by omega), mixed]
        cases hf : feeds cfg .stderr <;> simp [hf]
    | _ => exact ih h

lemma aside_handled {es : List Effect} (hes : ∀ e ∈ es, e.aside = true) (pipe : Pipe) :
    handled pipe (es ++ log) = handled pipe log ∧
      admitted maxStderr (es ++ log) = admitted maxStderr log := by
  induction es with
  | nil => exact ⟨rfl, rfl⟩
  | cons e es ih =>
    obtain ⟨hhandled, hadmitted⟩ := ih fun x hx => hes x (List.mem_cons_of_mem _ hx)
    have he := hes e List.mem_cons_self
    cases e with
    | received pipe payload => cases he
    | _ => exact ⟨hhandled, hadmitted⟩

structure Saves (s t : State) : Prop where
  stderr : t.stderr = s.stderr
  bytes : t.stderrBytes = s.stderrBytes

namespace Saves

lemma refl (s : State) : Saves s s := ⟨rfl, rfl⟩

lemma trans (h : Saves s t) (k : Saves t u) : Saves s u :=
  ⟨k.stderr.trans h.stderr, k.bytes.trans h.bytes⟩

lemma keeps : Keeper.Keeps Saves where
  refl := refl
  trans := trans
  setTracking _ _ := ⟨rfl, rfl⟩
  setIdentity _ _ := ⟨rfl, rfl⟩
  tell _ _ := ⟨rfl, rfl⟩
  spawned _ _ := ⟨rfl, rfl⟩

lemma tracking (s : State) (tracking : Tracking) (event : Option TrackingEvent) :
    Saves s ({ s with tracking := tracking }.tell cfg event) :=
  keeps.tracking s _ _

lemma finishTracking (s : State) (scope : Shim.Scope) (confirmation : Confirmation)
    (contained : Option Bool) (truncated : Bool) :
    Saves s (s.finishTracking cfg scope confirmation contained truncated) :=
  keeps.tracking s _ _

lemma recordIdentity (s : State) (payload : Bytes) : Saves s (s.recordIdentity cfg payload) :=
  keeps.recordIdentity _ s _

lemma resetIdle (s : State) : Saves s (resetIdle cfg clock s) := by
  rw [Stream.resetIdle]
  split <;> exact ⟨rfl, rfl⟩

lemma accountStdout (s : State) (bytes : ℕ) : Saves s (accountStdout cfg s bytes) := by
  rw [Stream.accountStdout]
  split <;> exact ⟨rfl, rfl⟩

lemma grantCredit (s : State) : Saves s (grantCredit cfg clock s) := by
  rw [Stream.grantCredit]
  split
  · exact .refl s
  · dsimp only
    refine trans ?_ (.resetIdle _)
    split <;> exact ⟨rfl, rfl⟩

lemma consumeLines (s : State) (payload : Bytes) : Saves s (consumeLines cfg s payload).2.2 := by
  rcases @consumeLines_cases cfg s payload with h | ⟨lines, limit, h⟩
  · rw [h]
    exact ⟨rfl, rfl⟩
  · rw [h]
    exact .refl s

end Saves

def Saved (s : State) : Prop :=
  ∀ e, s.exit = some (.error e) → e.stderr = s.stderr

structure Preserves (s t : State) : Prop where
  saves : Saves s t
  error : ∀ e, t.exit = some (.error e) → s.exit = some (.error e) ∨ e.stderr = t.stderr

namespace Preserves

lemma of_eq (h : Saves s t) (he : t.exit = s.exit) : Preserves s t :=
  ⟨h, fun _ hx => .inl (he ▸ hx)⟩

lemma trans (h : Preserves s t) (k : Preserves t u) : Preserves s u := by
  refine ⟨h.saves.trans k.saves, fun e he => ?_⟩
  rcases k.error e he with he | he
  · rcases h.error e he with he | he
    · exact .inl he
    · exact .inr (he.trans k.saves.stderr.symm)
  · exact .inr he

lemma saved (h : Preserves s t) (hs : Saved s) : Saved t := by
  intro e he
  rcases h.error e he with he | he
  · exact (hs e he).trans h.saves.stderr.symm
  · exact he

lemma evidence (s : State) (result : Confirmed) :
    Saves s (cleanupEvidence cfg s result).2 ∧
      (cleanupEvidence cfg s result).1.stderr = (cleanupEvidence cfg s result).2.stderr := by
  cases result <;> exact ⟨.tracking s _ _, rfl⟩

lemma conclude (s : State) (purpose : Purpose) (result : Confirmed) :
    Preserves s (conclude cfg s purpose result) := by
  obtain ⟨hsaves, hstderr⟩ := @evidence cfg s result
  cases purpose with
  | idle =>
    refine ⟨⟨hsaves.stderr, hsaves.bytes⟩, fun e he => .inr ?_⟩
    obtain rfl := Exit.error.inj (Option.some.inj he)
    exact hstderr
  | limit lines limit =>
    refine ⟨⟨hsaves.stderr, hsaves.bytes⟩, fun e he => .inr ?_⟩
    obtain rfl := Exit.error.inj (Option.some.inj he)
    exact hstderr
  | cleanup =>
    refine .of_eq ⟨hsaves.stderr, hsaves.bytes⟩ ?_
    exact (cleanupEvidence_spec s result).2.1.exit

lemma doAwaitExit (s : State) (purpose : Purpose) (deadline : Instant) :
    Preserves s (doAwaitExit cfg clock s purpose deadline) := by
  rw [Stream.doAwaitExit]
  dsimp only
  split
  · exact trans (.of_eq (t := (s.now clock).2) ⟨rfl, rfl⟩ rfl) (.conclude _ _ _)
  · exact .of_eq ⟨rfl, rfl⟩ rfl

lemma killAndConfirm (s : State) (purpose : Purpose) :
    Preserves s (killAndConfirm cfg clock s purpose) := by
  rw [Stream.killAndConfirm]
  exact trans (.of_eq (t := ((s.add (.send .kill)).now clock).2) ⟨rfl, rfl⟩ rfl) (.doAwaitExit _ _ _)

lemma awaitMessage (s : State) (purpose : Purpose) (deadline : Instant) (message : Message) :
    Preserves s (awaitMessage cfg clock s purpose deadline message) := by
  cases message with
  | exitStatus => exact .conclude _ _ _
  | data tag payload =>
    cases tag with
    | exit => exact .conclude _ _ _
    | error => exact .conclude _ _ _
    | spawned =>
      exact trans (.of_eq (.recordIdentity s payload) (Aside.recordIdentity s payload).exit)
        (.doAwaitExit _ _ _)
    | tracked =>
      exact trans (.of_eq (.tracking s _ _) (Aside.tracking s _ _).exit) (.doAwaitExit _ _ _)
    | stdout =>
      exact trans (.of_eq (t := s.add (.discarded .stdout payload)) ⟨rfl, rfl⟩ rfl)
        (.doAwaitExit _ _ _)
    | stderr =>
      exact trans (.of_eq (t := s.add (.discarded .stderr payload)) ⟨rfl, rfl⟩ rfl)
        (.doAwaitExit _ _ _)
    | other => exact .doAwaitExit _ _ _

lemma timeoutError (s : State) : Preserves s (timeoutError cfg clock s) := by
  have hadd : Preserves s (s.add .timeout) := .of_eq ⟨rfl, rfl⟩ rfl
  have hback : Preserves (s.add .timeout) (timeoutError.backstop cfg (s.add .timeout)) := by
    have hsaves := @Saves.finishTracking cfg (s.add .timeout) .unknown .timeout none false
    refine ⟨⟨hsaves.stderr, hsaves.bytes⟩, fun e he => .inr ?_⟩
    obtain rfl := Exit.error.inj (Option.some.inj he)
    rfl
  refine hadd.trans ?_
  by_cases hi : IdleFirst s
  · rw [timeoutError_idle hi]
    exact .killAndConfirm _ _
  · rw [timeoutError_backstop hi]
    exact hback

lemma handleExit (s : State) (payload : Bytes) : Preserves s (handleExit cfg s payload) := by
  have hsaves := @Saves.finishTracking cfg s (s.tracking.report (cfg.json payload)).scope
    (Tracking.confirmation (s.tracking.report (cfg.json payload)))
    (s.tracking.report (cfg.json payload)).contained
    (s.tracking.report (cfg.json payload)).trackedGroupsTruncated
  refine ⟨⟨hsaves.stderr, hsaves.bytes⟩, fun e he => .inr ?_⟩
  rw [Stream.handleExit] at he
  dsimp only [emit, State.add] at he
  split at he
  · cases he
  · obtain rfl := Exit.error.inj (Option.some.inj he)
    rfl

lemma handleError (s : State) (payload : Bytes) : Preserves s (handleError cfg s payload) := by
  have hsaves := @Saves.finishTracking cfg s .unknown .notStarted none false
  refine ⟨⟨hsaves.stderr, hsaves.bytes⟩, fun e he => .inr ?_⟩
  obtain rfl := Exit.error.inj (Option.some.inj he)
  rfl

lemma handleExitStatus (s : State) : Preserves s (handleExitStatus cfg s) := by
  have hsaves := @Saves.finishTracking cfg s .unknown .transportLost none false
  refine ⟨⟨hsaves.stderr, hsaves.bytes⟩, fun e he => .inr ?_⟩
  obtain rfl := Exit.error.inj (Option.some.inj he)
  rfl

end Preserves

lemma step_preserves (h : step cfg clock s l = some t)
    (hl : ∀ wait payload, s.phase = .receiving wait → l ≠ .message (.data .stderr payload)) :
    Preserves s t := by
  rw [step.eq_def] at h
  split at h
  · obtain rfl := Option.some.inj h
    rw [next]
    split
    · exact .of_eq ⟨(Saves.grantCredit s).stderr, (Saves.grantCredit s).bytes⟩
        (grantCredit_aside s).exit
    · exact .of_eq ⟨rfl, rfl⟩ rfl
    · exact .of_eq ⟨rfl, rfl⟩ rfl
  · obtain rfl := Option.some.inj h
    rw [cleanup]
    split
    · exact .killAndConfirm s .cleanup
    · exact .of_eq ⟨rfl, rfl⟩ rfl
  · next wait message hp =>
    obtain rfl := Option.some.inj h
    cases message with
    | exitStatus => exact .handleExitStatus s
    | data tag payload =>
      cases tag with
      | stdout =>
        rw [handleMessage]
        obtain ⟨-, -, -, hexit, -⟩ :=
          @resetIdle_frame cfg clock (s.add (.received .stdout payload))
        obtain ⟨outstanding, hout⟩ := @accountStdout_frame cfg
          (resetIdle cfg clock (s.add (.received .stdout payload))) payload.length
        have hreset : Saves s (resetIdle cfg clock (s.add (.received .stdout payload))) :=
          Saves.trans (t := s.add (.received .stdout payload)) ⟨rfl, rfl⟩ (.resetIdle _)
        rw [hout]
        generalize resetIdle cfg clock (s.add (.received .stdout payload)) = r at *
        have hline : Saves s
            (consumeLines cfg { r with outstanding := outstanding } payload).2.2 :=
          hreset.trans (Saves.trans (t := { r with outstanding := outstanding }) ⟨rfl, rfl⟩
            (.consumeLines _ payload))
        have hlineExit :
            (consumeLines cfg { r with outstanding := outstanding } payload).2.2.exit = s.exit := by
          rcases @consumeLines_cases cfg { r with outstanding := outstanding } payload with
            h | ⟨lines, limit, h⟩ <;>
          · rw [h]
            exact hexit
        rw [deliver]
        split
        · exact Preserves.trans (.of_eq hline hlineExit) (.killAndConfirm _ _)
        · exact .of_eq ⟨hline.stderr, hline.bytes⟩ hlineExit
      | stderr => exact absurd rfl (hl wait payload hp)
      | spawned =>
        have hsaves := @Saves.recordIdentity cfg s payload
        exact .of_eq ⟨hsaves.stderr, hsaves.bytes⟩ (Aside.recordIdentity s payload).exit
      | tracked =>
        have hsaves : Saves s (s.recordTracked cfg payload) := .tracking s _ _
        exact .of_eq ⟨hsaves.stderr, hsaves.bytes⟩ (Aside.tracking s _ _).exit
      | exit => exact .handleExit s payload
      | error => exact .handleError s payload
      | other => exact .of_eq ⟨rfl, rfl⟩ rfl
  · split at h
    · obtain rfl := Option.some.inj h
      exact .of_eq ⟨rfl, rfl⟩ rfl
    · obtain rfl := Option.some.inj h
      exact .timeoutError s
  · obtain rfl := Option.some.inj h
    exact .awaitMessage s _ _ _
  · obtain rfl := Option.some.inj h
    exact .doAwaitExit s _ _
  · cases h

structure Whole (cfg : Options) (maxStderr : ℕ) (s : State) : Prop where
  le : (handled .stderr s.log).length ≤ maxStderr
  bytes : s.stderrBytes = (handled .stderr s.log).length
  stderr : cfg.mergeStderr = false → s.stderr = handled .stderr s.log

structure Full (cfg : Options) (maxStderr : ℕ) (lines : List Bytes) (s : State) : Prop where
  lt : maxStderr < (handled .stderr s.log).length
  stderr : cfg.mergeStderr = false → s.stderr = (handled .stderr s.log).take maxStderr
  emitted : emittedLines s.log ++ lines = Lines.lines newline (mixed cfg (admitted maxStderr s.log))

lemma Whole.aside (h : Whole cfg maxStderr s) (ha : Aside s t) (hs : Saves s t) :
    Whole cfg maxStderr t := by
  obtain ⟨es, hes, hlog⟩ := ha.log
  obtain ⟨hhandled, -⟩ := @aside_handled maxStderr s.log es hes .stderr
  rw [← hlog] at hhandled
  refine ⟨hhandled ▸ h.le, ?_, fun hm => ?_⟩
  · rw [hs.bytes, hhandled, h.bytes]
  · rw [hs.stderr, hhandled, h.stderr hm]

lemma Full.aside {lines : List Bytes} (h : Full cfg maxStderr lines s) (ha : Aside s t)
    (hs : Saves s t) : Full cfg maxStderr lines t := by
  obtain ⟨es, hes, hlog⟩ := ha.log
  obtain ⟨hhandled, hadmitted⟩ := @aside_handled maxStderr s.log es hes .stderr
  obtain ⟨-, hemitted⟩ := @aside_output cfg s.log es hes
  rw [← hlog] at hhandled hadmitted hemitted
  refine ⟨hhandled ▸ h.lt, fun hm => ?_, ?_⟩
  · rw [hs.stderr, hhandled, h.stderr hm]
  · rw [hemitted, hadmitted]
    exact h.emitted

def StderrLimited (maxStderr : ℕ) (s : State) : Prop :=
  ∃ e, s.exit = some (.error e) ∧ e.limit = some (.totalStderr maxStderr)

structure Capped (cfg : Options) (maxStderr : ℕ) (s : State) : Prop where
  going : s.exit = none → (∀ lines limit deadline, s.phase ≠ .awaiting (.limit lines limit) deadline) →
    Whole cfg maxStderr s
  waiting : (∃ wait, s.phase = .receiving wait) ∨
    (∃ purpose deadline, s.phase = .awaiting purpose deadline) → s.exit = none
  limiting : ∀ lines n deadline, s.phase = .awaiting (.limit lines (.totalStderr n)) deadline →
    n = maxStderr ∧ Full cfg maxStderr lines s
  limited : ∀ e n, s.exit = some (.error e) → e.limit = some (.totalStderr n) →
    n = maxStderr ∧ Full cfg maxStderr [] s
  saved : Saved s

namespace Capped

lemma undecided (he : t.exit = none) (hp : ∀ lines limit deadline, t.phase ≠ .awaiting (.limit lines limit) deadline)
    (h : Whole cfg maxStderr t) : Capped cfg maxStderr t where
  going _ _ := h
  waiting _ := he
  limiting lines n deadline ht := absurd ht (hp lines _ deadline)
  limited e n hx := by cases he.symm.trans hx
  saved e hx := by cases he.symm.trans hx

lemma decided {exit : Exit} (he : t.exit = some exit)
    (hp : t.phase = .ready ∨ t.phase = .halted ∨ (∃ e, t.phase = .raised e) ∨ t.phase = .abandoned)
    (hl : ∀ e n, exit = .error e → e.limit = some (.totalStderr n) →
      n = maxStderr ∧ Full cfg maxStderr [] t) (hs : Saved t) : Capped cfg maxStderr t where
  going hn _ := by cases he.symm.trans hn
  waiting hw := by
    rcases hp with hp | hp | ⟨e, hp⟩ | hp <;> simp [hp] at hw
  limiting lines n deadline ht := by
    rcases hp with hp | hp | ⟨e, hp⟩ | hp <;> cases hp.symm.trans ht
  limited e n hx := by
    obtain rfl := Option.some.inj (he.symm.trans hx)
    exact hl e n rfl
  saved := hs

lemma ended {exit : Exit} {final : List Bytes} (hd : Decides s t exit final)
    (hx : ∀ e, exit = .error e → e.limit = none) (hs : Saved t) : Capped cfg maxStderr t := by
  refine decided hd.exit (.inl hd.phase) (fun e n he hlimit => ?_) hs
  cases (hx e he).symm.trans hlimit

lemma handed (h : Capped cfg maxStderr s) {exit : Exit} (he : s.exit = some exit) {phase : Phase}
    (hp : phase = .ready ∨ phase = .halted ∨ (∃ e, phase = .raised e) ∨ phase = .abandoned) :
    Capped cfg maxStderr { s with phase := phase } := by
  refine decided he hp (fun e n hx hlimit => ?_) h.saved
  subst hx
  obtain ⟨rfl, hfull⟩ := h.limited e n he hlimit
  exact ⟨rfl, hfull.lt, hfull.stderr, hfull.emitted⟩

lemma waits {purpose : Purpose} (he : s.exit = none)
    (hpurpose : ∀ lines limit, purpose ≠ .limit lines limit) (hw : Whole cfg maxStderr s)
    (h : Waits cfg purpose s t) (hs : Preserves s t) : Capped cfg maxStderr t := by
  have hsaved : Saved t := hs.saved fun e hx => by cases he.symm.trans hx
  cases h with
  | waiting deadline h hidle hp =>
    refine undecided (h.exit.trans he) ?_ (hw.aside h hs.saves)
    intro lines limit d hd
    exact hpurpose _ _ (Phase.awaiting.inj (hp.symm.trans hd)).1
  | @concluded u result h hidle =>
    cases purpose with
    | idle =>
      obtain ⟨e, hlimit, -, -, -, hd⟩ := @conclude_idle cfg u result
      refine ended hd (fun e' he' => ?_) hsaved
      obtain rfl := Exit.error.inj he'
      exact hlimit
    | limit lines limit => exact absurd rfl (hpurpose lines limit)
    | cleanup =>
      obtain ⟨haside, hphase⟩ := @conclude_cleanup cfg u result
      exact undecided (haside.exit.trans (h.exit.trans he)) (by simp [hphase])
        (hw.aside (h.trans haside) hs.saves)

lemma waits_limit {lines : List Bytes} {limit : Limit} (he : s.exit = none)
    (hf : ∀ n, limit = .totalStderr n → n = maxStderr ∧ Full cfg maxStderr lines s)
    (h : Waits cfg (.limit lines limit) s t) (hs : Preserves s t) : Capped cfg maxStderr t := by
  have hsaved : Saved t := hs.saved fun e hx => by cases he.symm.trans hx
  cases h with
  | waiting deadline h hidle hp =>
    have hnone := h.exit.trans he
    refine ⟨fun _ hlimit => absurd hp (hlimit lines limit deadline), fun _ => hnone, ?_, ?_, hsaved⟩
    · intro lines' n d hd
      obtain ⟨hpurpose, -⟩ := Phase.awaiting.inj (hp.symm.trans hd)
      obtain ⟨rfl, hlimit⟩ := Purpose.limit.inj hpurpose
      obtain ⟨rfl, hfull⟩ := hf n hlimit
      exact ⟨rfl, hfull.aside h hs.saves⟩
    · intro e n hx
      cases hnone.symm.trans hx
  | @concluded u result h hidle =>
    obtain ⟨e, hlimit, -, -, hd⟩ := @conclude_limit cfg u lines limit result
    refine decided hd.exit (.inl hd.phase) (fun e' n he' hlimit' => ?_) hsaved
    obtain rfl := Exit.error.inj he'
    obtain ⟨rfl, hfull⟩ := hf n (Option.some.inj (hlimit.symm.trans hlimit'))
    obtain ⟨es, hes, hlog⟩ := h.log
    obtain ⟨fs, hfs, hfinal⟩ := hd.log
    have hall : ∀ x ∈ fs ++ es, x.aside = true := by
      intro x hx
      rcases List.mem_append.mp hx with hx | hx
      · exact hfs x hx
      · exact hes x hx
    have hfinal' : (conclude cfg u (.limit lines limit) result).log =
        .emitted lines :: (fs ++ es) ++ s.log := by
      rw [hfinal, hlog, List.cons_append, List.cons_append, List.append_assoc]
    obtain ⟨hhandled, hadmitted⟩ := @aside_handled n s.log _ hall .stderr
    obtain ⟨-, hemitted⟩ := @aside_output cfg s.log _ hall
    refine ⟨rfl, ?_, fun hm => ?_, ?_⟩
    · rw [hfinal']
      exact hhandled ▸ hfull.lt
    · rw [hs.saves.stderr, hfull.stderr hm, hfinal']
      exact congrArg (List.take n) hhandled.symm
    · rw [hfinal', List.append_nil]
      change emittedLines (fs ++ es ++ s.log) ++ lines =
        Lines.lines newline (mixed cfg (admitted n (fs ++ es ++ s.log)))
      rw [hemitted, hadmitted]
      exact hfull.emitted

lemma handleStdout_line (s : State) (payload : Bytes) :
    ((handleMessage cfg clock s (.data .stdout payload)).exit = s.exit ∧
      (handleMessage cfg clock s (.data .stdout payload)).phase = .ready ∧
      handled .stderr (handleMessage cfg clock s (.data .stdout payload)).log =
        handled .stderr s.log) ∨
    ∃ (u : State) (lines : List Bytes) (merged : Bool) (bytes : ℕ), u.exit = s.exit ∧
      handleMessage cfg clock s (.data .stdout payload) =
        killAndConfirm cfg clock u (.limit lines (.line merged bytes)) := by
  obtain ⟨-, -, -, hexit, hlog⟩ := @resetIdle_frame cfg clock (s.add (.received .stdout payload))
  obtain ⟨outstanding, hout⟩ := @accountStdout_frame cfg
    (resetIdle cfg clock (s.add (.received .stdout payload))) payload.length
  rw [handleMessage]
  rw [hout, deliver]
  generalize resetIdle cfg clock (s.add (.received .stdout payload)) = r at *
  rcases @consumeLines_spec cfg { r with outstanding := outstanding } payload with
    ⟨h, -⟩ | ⟨maxLine, -, h, -⟩
  · rw [h]
    refine .inl ⟨hexit, rfl, ?_⟩
    change handled .stderr r.log = _
    rw [hlog]
    rfl
  · rw [h]
    refine .inr ⟨_, _, _, _, ?_, rfl⟩
    exact hexit

lemma handleStderr (hmax : cfg.maxStderrBytes = some maxStderr) (hw : Whole cfg maxStderr s)
    (hs : Splits cfg s) (payload : Bytes) :
    (Whole cfg maxStderr (handleMessage cfg clock s (.data .stderr payload)) ∧
      (handleMessage cfg clock s (.data .stderr payload)).exit = s.exit ∧
      (handleMessage cfg clock s (.data .stderr payload)).phase = .ready) ∨
    ∃ (u : State) (lines : List Bytes) (limit : Limit), u.exit = s.exit ∧
      handleMessage cfg clock s (.data .stderr payload) =
        killAndConfirm cfg clock u (.limit lines limit) ∧
      ∀ n, limit = .totalStderr n → n = maxStderr ∧ Full cfg maxStderr lines u := by
  obtain ⟨hbuffer, hbytes, -, hexit, hlog⟩ :=
    @resetIdle_frame cfg clock (s.add (.received .stderr payload))
  have hstderr := (@Saves.resetIdle cfg clock (s.add (.received .stderr payload))).stderr
  rw [handleMessage]
  generalize resetIdle cfg clock (s.add (.received .stderr payload)) = r at *
  have hrbuffer : r.buffer = s.buffer := hbuffer
  have hrbytes : r.stderrBytes = (handled .stderr s.log).length := hbytes.trans hw.bytes
  have hrexit : r.exit = s.exit := hexit
  have hrlog : r.log = .received .stderr payload :: s.log := hlog
  have hrstderr : cfg.mergeStderr = false → r.stderr = handled .stderr s.log :=
    fun hm => hstderr.trans (hw.stderr hm)
  have hhandled : handled .stderr r.log = handled .stderr s.log ++ payload := by
    rw [hrlog, handled, if_pos rfl]
  have hle := hw.le
  have hmixed : mixed cfg (admitted maxStderr r.log) = fed cfg s.log ++
      if feeds cfg .stderr then payload.take (maxStderr - (handled .stderr s.log).length) else [] := by
    rw [hrlog, admitted, mixed_append, mixed_admitted hle, mixed]
    cases hf : feeds cfg .stderr <;> simp [hf]
  rw [consumeStderr, hmax]
  dsimp only
  rw [hrbytes]
  generalize hkept : payload.take (maxStderr - (handled .stderr s.log).length) = kept at *
  have hlen : kept.length = min (maxStderr - (handled .stderr s.log).length) payload.length := by
    rw [← hkept, List.length_take]
  cases hmerge : cfg.mergeStderr with
  | false =>
    have hfeeds : feeds cfg .stderr = false := by simp [feeds, hmerge]
    simp only [Bool.false_eq_true, if_false]
    split
    · next hover =>
      refine .inr ⟨_, [], .totalStderr maxStderr, ?_, rfl, fun n hn => ?_⟩
      · exact hrexit
      · obtain rfl := Limit.totalStderr.inj hn
        refine ⟨rfl, ?_, fun _ => ?_, ?_⟩
        · change maxStderr < (handled .stderr r.log).length
          rw [hhandled, List.length_append]
          omega
        · change r.stderr ++ kept = (handled .stderr r.log).take maxStderr
          rw [hhandled, hrstderr hmerge, List.take_append, List.take_of_length_le hle, hkept]
        · change emittedLines r.log ++ [] = Lines.lines newline (mixed cfg (admitted maxStderr r.log))
          rw [hmixed, hfeeds, List.append_nil, hrlog]
          simpa [emittedLines] using hs.2
    · next hunder =>
      have hall : kept = payload := by
        rw [← hkept]
        exact List.take_of_length_le (not_lt.mp hunder)
      refine .inl ⟨⟨?_, ?_, fun _ => ?_⟩, hrexit, rfl⟩
      · change (handled .stderr r.log).length ≤ maxStderr
        rw [hhandled, List.length_append]
        omega
      · change (handled .stderr s.log).length + kept.length = (handled .stderr r.log).length
        rw [hhandled, List.length_append, hall]
      · change r.stderr ++ kept = handled .stderr r.log
        rw [hhandled, hrstderr hmerge, hall]
  | true =>
    have hfeeds : feeds cfg .stderr = true := by simp [feeds, hmerge, hmax]
    simp only [if_true]
    rcases @consumeLines_spec cfg { r with stderrBytes := (handled .stderr s.log).length +
      kept.length } kept with ⟨h, -⟩ | ⟨maxLine, -, h, -⟩
    · rw [h]
      dsimp only
      rw [hrbuffer]
      split
      · next hover =>
        refine .inr ⟨_, _, .totalStderr maxStderr, ?_, rfl, fun n hn => ?_⟩
        · exact hrexit
        · obtain rfl := Limit.totalStderr.inj hn
          refine ⟨rfl, ?_, fun hm => ?_, ?_⟩
          · change maxStderr < (handled .stderr r.log).length
            rw [hhandled, List.length_append]
            omega
          · cases hmerge.symm.trans hm
          · change emittedLines r.log ++ Lines.lines newline (s.buffer ++ kept) =
              Lines.lines newline (mixed cfg (admitted maxStderr r.log))
            rw [hmixed, hfeeds, if_pos rfl, Lines.lines_append (fed cfg s.log), ← hs.1, ← hs.2, hrlog]
            rfl
      · next hunder =>
        have hall : kept = payload := by
          rw [← hkept]
          exact List.take_of_length_le (not_lt.mp hunder)
        refine .inl ⟨⟨?_, ?_, fun hm => ?_⟩, hrexit, rfl⟩
        · change (handled .stderr r.log).length ≤ maxStderr
          rw [hhandled, List.length_append]
          omega
        · change (handled .stderr s.log).length + kept.length = (handled .stderr r.log).length
          rw [hhandled, List.length_append, hall]
        · cases hmerge.symm.trans hm
    · rw [h]
      refine .inr ⟨_, _, .line cfg.mergeStderr maxLine, ?_, rfl, fun n hn => ?_⟩
      · exact hrexit
      · cases hn

lemma handleMessage (hmax : cfg.maxStderrBytes = some maxStderr) (h : Capped cfg maxStderr s)
    (hf : Framed cfg s) {wait : ℤ} (hp : s.phase = .receiving wait) (message : Message) :
    Capped cfg maxStderr (handleMessage cfg clock s message) := by
  have he : s.exit = none := h.waiting (.inl ⟨wait, hp⟩)
  have hw : Whole cfg maxStderr s := h.going he (by simp [hp])
  have hs : Splits cfg s := (hf.going he (by simp [hp])).1
  have hstep : step cfg clock s (.message message) =
      some (Stream.handleMessage cfg clock s message) := by
    rw [step.eq_def, hp]
  have keeps : (∀ payload, message ≠ .data .stderr payload) →
      Preserves s (Stream.handleMessage cfg clock s message) := by
    intro hne
    refine step_preserves hstep fun _ payload _ hl => ?_
    exact hne payload (Label.message.inj hl)
  have hsaved : ∀ {t : State}, Preserves s t → Saved t :=
    fun hk => hk.saved fun e hx => by cases he.symm.trans hx
  cases message with
  | exitStatus =>
    obtain ⟨e, hplain, hd⟩ := @handleExitStatus_decides cfg s
    refine ended hd (fun e' he' => ?_) (hsaved (.handleExitStatus s))
    obtain rfl := Exit.error.inj he'
    exact hplain.1
  | data tag payload =>
    cases tag with
    | stdout =>
      have hk := keeps fun _ => by simp
      rcases @handleStdout_line cfg clock s payload with ⟨hexit, hphase, hlog⟩ |
        ⟨u, lines, merged, bytes, hexit, hkill⟩
      · refine undecided (hexit.trans he) (by simp [hphase]) ⟨?_, ?_, fun hm => ?_⟩
        · exact hlog ▸ hw.le
        · rw [hk.saves.bytes, hw.bytes, hlog]
        · rw [hk.saves.stderr, hw.stderr hm, hlog]
      · rw [hkill]
        refine waits_limit (hexit.trans he) (fun n hn => ?_) (killAndConfirm_waits _ _)
          (.killAndConfirm _ _)
        cases hn
    | stderr =>
      rcases @handleStderr cfg clock s maxStderr hmax hw hs payload with ⟨hwhole, hexit, hphase⟩ |
        ⟨u, lines, limit, hexit, hkill, hfull⟩
      · exact undecided (hexit.trans he) (by simp [hphase]) hwhole
      · rw [hkill]
        exact waits_limit (hexit.trans he) hfull (killAndConfirm_waits _ _) (.killAndConfirm _ _)
    | spawned =>
      have ha : Aside s (emit (s.recordIdentity cfg payload) []) :=
        (Aside.recordIdentity s payload).trans ((Aside.add _ (e := .emitted []) rfl).trans (.phase _ _))
      exact undecided (ha.exit.trans he) (fun _ _ _ => Phase.noConfusion)
        (hw.aside ha (keeps fun _ => by simp).saves)
    | tracked =>
      have ha : Aside s (s.recordTracked cfg payload) := .tracking s _ _
      obtain ⟨hr, wait', hw'⟩ := @receiveNext_aside clock (s.recordTracked cfg payload)
      have hp' : (Stream.handleMessage cfg clock s (.data .tracked payload)).phase =
          .receiving wait' := hw'
      exact undecided ((ha.trans hr).exit.trans he) (by simp [hp'])
        (hw.aside (ha.trans hr) (keeps fun _ => by simp).saves)
    | exit =>
      obtain ⟨exit, hd, hx⟩ := @handleExit_decides cfg s payload
      exact ended hd (fun e he => (hx e he).1) (hsaved (.handleExit s payload))
    | error =>
      obtain ⟨e, hplain, hd⟩ := @handleError_decides cfg s payload
      refine ended hd (fun e' he' => ?_) (hsaved (.handleError s payload))
      obtain rfl := Exit.error.inj he'
      exact hplain.1
    | other =>
      have ha : Aside s (emit s []) := (Aside.add s (e := .emitted []) rfl).trans (.phase _ _)
      exact undecided (ha.exit.trans he) (fun _ _ _ => Phase.noConfusion)
        (hw.aside ha ⟨rfl, rfl⟩)

lemma nested (h : Capped cfg maxStderr s) {purpose : Purpose} {deadline : Instant}
    (hp : s.phase = .awaiting purpose deadline) (hw : Waits cfg purpose s t)
    (hk : Preserves s t) : Capped cfg maxStderr t := by
  have he : s.exit = none := h.waiting (.inr ⟨purpose, deadline, hp⟩)
  by_cases hpurpose : ∃ lines limit, purpose = .limit lines limit
  · obtain ⟨lines, limit, rfl⟩ := hpurpose
    refine waits_limit he (fun n hlimit => ?_) hw hk
    subst hlimit
    exact h.limiting lines n deadline hp
  · have hne : ∀ lines limit, purpose ≠ .limit lines limit :=
      fun lines limit hlimit => hpurpose ⟨lines, limit, hlimit⟩
    refine waits he hne (h.going he fun lines limit d hd => ?_) hw hk
    exact hne lines limit (Phase.awaiting.inj (hp.symm.trans hd)).1

lemma step (hmax : cfg.maxStderrBytes = some maxStderr) (h : Capped cfg maxStderr s)
    (hf : Framed cfg s) (hs : step cfg clock s l = some t) : Capped cfg maxStderr t := by
  by_cases hm : ∃ wait message, s.phase = .receiving wait ∧ l = .message message
  · obtain ⟨wait, message, hp, rfl⟩ := hm
    rw [Stream.step.eq_def, hp] at hs
    obtain rfl := Option.some.inj hs
    exact h.handleMessage hmax hf hp message
  · have hk : Preserves s t :=
      step_preserves hs fun wait payload hp hl => hm ⟨wait, _, hp, hl⟩
    have hready : s.phase = .ready → s.exit = none → Whole cfg maxStderr s :=
      fun hp he => h.going he (by simp [hp])
    have hreceiving : ∀ wait, s.phase = .receiving wait → s.exit = none ∧ Whole cfg maxStderr s := by
      intro wait hp
      have he := h.waiting (.inl ⟨wait, hp⟩)
      exact ⟨he, h.going he (by simp [hp])⟩
    cases step_turn hs with
    | asks hp he ha wait hw =>
      exact undecided (ha.exit.trans he) (by simp [hw]) ((hready hp he).aside ha hk.saves)
    | halts hp he => exact h.handed he (.inr (.inl rfl))
    | raises hp e he => exact h.handed he (.inr (.inr (.inl ⟨e, rfl⟩)))
    | leaves hp he hw => exact waits he (by simp) (hready hp he) hw hk
    | abandons hp exit he => exact h.handed he (.inr (.inr (.inr rfl)))
    | rewaits hp ha wait' hw =>
      obtain ⟨he, hwhole⟩ := hreceiving _ hp
      exact undecided (ha.exit.trans he) (by simp [hw]) (hwhole.aside ha hk.saves)
    | idles hp hlong hi hw =>
      obtain ⟨he, hwhole⟩ := hreceiving _ hp
      exact waits (s := s.add .timeout) he (by simp) ⟨hwhole.le, hwhole.bytes, hwhole.stderr⟩ hw
        ⟨⟨hk.saves.stderr, hk.saves.bytes⟩, hk.error⟩
    | stops hp hlong hi e hl ht hn ho hd =>
      obtain ⟨he, -⟩ := hreceiving _ hp
      refine ended hd (fun e' he' => ?_) (hk.saved fun e hx => by cases he.symm.trans hx)
      obtain rfl := Exit.error.inj he'
      exact hl
    | notes hp hne ha hw => exact absurd ⟨_, _, hp, rfl⟩ hm
    | takes hp hne htakes => exact absurd ⟨_, _, hp, rfl⟩ hm
    | exceeds hp hne hexceeds => exact absurd ⟨_, _, hp, rfl⟩ hm
    | exits hp exit hd hx => exact absurd ⟨_, _, hp, rfl⟩ hm
    | fails hp hne e he hd => exact absurd ⟨_, _, hp, rfl⟩ hm
    | awaits hp hne hw => exact h.nested hp hw hk
    | @reports purpose deadline hp payload => exact h.nested hp (.concluded _ (.refl s) rfl) hk

end Capped

lemma start_handled (timeoutMs reads : ℕ) (pipe : Pipe) :
    handled pipe (start cfg clock timeoutMs reads).log = [] := by
  simp only [start]
  cases cfg.maxStderrBytes <;> rfl

lemma start_capped (timeoutMs reads : ℕ) :
    Capped cfg maxStderr (start cfg clock timeoutMs reads) := by
  refine .undecided rfl (by simp [start]) ?_
  have hlog := @start_handled cfg clock timeoutMs reads .stderr
  refine ⟨?_, ?_, fun _ => ?_⟩
  · rw [hlog]
    exact Nat.zero_le _
  · rw [hlog]
    rfl
  · rw [hlog]
    rfl

end Forcola.Beam.Stream
