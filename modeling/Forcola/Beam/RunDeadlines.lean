import Forcola.Beam.RunOutput
import Mathlib

/-! The three deadlines of the collector, under any traffic. -/

namespace Forcola.Beam.Run

open Native (Bytes Pipe)

structure Onward (cfg : Options) (clock : ℕ → Instant) (a b : Acc) : Prop where
  timeoutAt : b.timeoutAt = a.timeoutAt
  backstop : b.backstop ≤ a.backstop
  reads : a.reads ≤ b.reads
  log : a.log <:+ b.log
  cancelled : ∀ reason at_, .cancelled reason at_ ∈ b.log → .cancelled reason at_ ∈ a.log ∨
    b.backstop ≤ at_ + cfg.cleanupMs ∧ ∃ n, a.reads ≤ n ∧ n < b.reads ∧ at_ = clock n

variable {cfg : Options} {clock : ℕ → Instant} {a b c : Acc} {message : Option Message}

namespace Onward

lemma refl (a : Acc) : Onward cfg clock a a :=
  ⟨rfl, le_refl _, le_refl _, List.suffix_refl _, fun _ _ => .inl⟩

lemma trans (h : Onward cfg clock a b) (k : Onward cfg clock b c) : Onward cfg clock a c := by
  refine ⟨k.timeoutAt.trans h.timeoutAt, k.backstop.trans h.backstop, h.reads.trans k.reads,
    h.log.trans k.log, fun reason at_ hin => ?_⟩
  rcases k.cancelled reason at_ hin with hin | ⟨hle, n, hn, hlt, rfl⟩
  · rcases h.cancelled reason at_ hin with hin | ⟨hle, n, hn, hlt, rfl⟩
    · exact .inl hin
    · exact .inr ⟨k.backstop.trans hle, n, hn, hlt.trans_le k.reads, rfl⟩
  · exact .inr ⟨hle, n, h.reads.trans hn, hlt, rfl⟩

lemma quiet (effects : List Effect) (htimeout : b.timeoutAt = a.timeoutAt)
    (hbackstop : b.backstop = a.backstop) (hreads : a.reads ≤ b.reads)
    (hlog : b.log = effects ++ a.log)
    (heffects : ∀ reason at_, .cancelled reason at_ ∉ effects) : Onward cfg clock a b := by
  refine ⟨htimeout, hbackstop.le, hreads, ⟨effects, hlog.symm⟩, fun reason at_ hin => ?_⟩
  rw [hlog] at hin
  rcases List.mem_append.mp hin with hin | hin
  · exact absurd hin (heffects reason at_)
  · exact .inl hin

lemma reads_le {n : ℕ} (h : a.reads ≤ n) : Onward cfg clock a { a with reads := n } :=
  quiet [] rfl rfl h rfl (by simp)

lemma cancel (a : Acc) (reason : Reason) : Onward cfg clock a (cancel cfg clock a reason) := by
  refine ⟨rfl, min_le_left _ _, Nat.le_succ _, ⟨[_, _], rfl⟩, fun reason' at_ hin => ?_⟩
  rcases List.mem_cons.mp hin with hin | hin
  · obtain ⟨-, rfl⟩ := Effect.cancelled.inj hin
    exact .inr ⟨min_le_right _ _, a.reads, le_refl _, Nat.lt_succ_self _, rfl⟩
  · rcases List.mem_cons.mp hin with hin | hin
    · cases hin
    · exact .inl hin

lemma tracking (a : Acc) (t : Tracking) (event : Option TrackingEvent) :
    Onward cfg clock a ({ a with tracking := t }.tell cfg event) := by
  rcases @tell_cases cfg { a with tracking := t } event with heq | ⟨e, heq⟩
  · rw [heq]
    exact quiet [] rfl rfl (le_refl _) rfl (by simp)
  · rw [heq]
    exact quiet [.tell e] rfl rfl (le_refl _) rfl (by simp)

lemma stores {pipe : Pipe} {payload : Bytes} {full o : Bool}
    (h : Stores cfg a pipe payload full o b) : Onward cfg clock a b := by
  refine quiet ((if o then [.observe (destination cfg pipe) (head cfg a payload)]
    else []) ++ [.received pipe payload full]) h.timeoutAt h.backstop h.reads ?_ ?_
  · rw [h.log, List.append_assoc]
    rfl
  · cases o <;> simp

lemma truncate (a : Acc) : Onward cfg clock a { a with truncated := true } :=
  quiet [] rfl rfl (le_refl _) rfl (by simp)

end Onward

lemma output_onward (a : Acc) (pipe : Pipe) (payload : Bytes) (queue : Option ℕ) :
    Onward cfg clock a (output cfg clock a pipe payload queue) := by
  cases hr : a.reason with
  | some reason =>
    have hout : output cfg clock a pipe payload queue =
        { a.add (.received pipe payload (queueFull cfg queue)) with truncated := true } := by
      simp [output, Acc.add, hr]
    rw [hout]
    exact .quiet [.received pipe payload _] rfl rfl (le_refl _) rfl (by simp)
  | none =>
    obtain ⟨b, hs, heq⟩ := @output_open cfg clock _ pipe payload queue hr
    have hb : Onward cfg clock a b := .stores hs
    rw [heq]
    split
    · exact hb.trans ((Onward.truncate b).trans (.cancel _ _))
    · split
      · exact hb.trans ((Onward.truncate b).trans (.cancel _ _))
      · split
        · exact hb.trans (.quiet [.send (.credit pipe payload.length)] rfl rfl
            (le_refl _) rfl (by simp))
        · exact hb

lemma checkDeadlines_onward (a : Acc) : Onward cfg clock a (checkDeadlines cfg clock a) := by
  rcases checkDeadlines_cases cfg clock a with ⟨n, hn, heq⟩ | ⟨n, reason, hn, -, -, heq⟩
  · rw [heq]
    exact .reads_le hn
  · rw [heq]
    exact (Onward.reads_le hn).trans (.cancel _ _)

lemma spawnError_onward (a : Acc) (payload : Bytes) :
    Onward cfg clock a (spawnError cfg a payload).2 := by
  rw [spawnError]
  dsimp only
  split <;> exact .tracking a _ _

lemma finish_onward (a : Acc) (payload : Bytes) :
    Onward cfg clock a (finish cfg a payload).2 := by
  rw [finish.eq_def]
  split
  · rw [finishReport]
    split
    · exact .tracking a _ _
    · exact .tracking a _ _
  · exact .tracking a _ _

lemma receive_onward (a : Acc) (message : Option Message) :
    Onward cfg clock a (receive cfg clock a message).acc := by
  cases message with
  | none => exact .refl a
  | some m =>
    cases m with
    | exitStatus status => exact .tracking a _ _
    | data tag payload queue =>
      cases tag with
      | stdout => exact output_onward a .stdout payload queue
      | stderr => exact output_onward a .stderr payload queue
      | spawned =>
        obtain ⟨identity, heq⟩ := spawned_frame cfg a payload
        have h : receive cfg clock a (some (.data .spawned payload queue)) =
            .collecting { a with identity := identity } := congrArg State.collecting heq
        rw [h]
        exact .quiet [] rfl rfl (le_refl _) rfl (by simp)
      | tracked => exact .tracking a _ _
      | exit => exact finish_onward a payload
      | error => exact spawnError_onward a payload
      | other => exact .refl a

def waiting (cfg : Options) (clock : ℕ → Instant) (a : Acc) : Acc :=
  let d := checkDeadlines cfg clock a
  { d with reads := d.reads + 1 + 1 }

lemma step_cases (cfg : Options) (clock : ℕ → Instant) (a : Acc) (message : Option Message) :
    let d := checkDeadlines cfg clock a
    let f := failure cfg (waiting cfg clock a) .backstop (d.reason.getD .timeout)
    (d.backstop ≤ clock (d.reads + 1) ∧ collect cfg clock a = .returns f.1 f.2 ∧
        step cfg clock (.collecting a) message = returns f) ∨
      clock (d.reads + 1) < d.backstop ∧
        collect cfg clock a = .receives (waiting cfg clock a)
          (min (max (nextDeadline cfg d - clock d.reads) 0) longestWait) ∧
        step cfg clock (.collecting a) message = receive cfg clock (waiting cfg clock a) message := by
  intro d f
  by_cases hback : d.backstop ≤ clock (d.reads + 1)
  · have hcollect : collect cfg clock a = .returns
        (failure cfg (waiting cfg clock a) .backstop (d.reason.getD .timeout)).1
        (failure cfg (waiting cfg clock a) .backstop (d.reason.getD .timeout)).2 := by
      rw [collect]
      exact if_pos hback
    refine .inl ⟨hback, hcollect, ?_⟩
    rw [step.eq_def]
    dsimp only
    rw [hcollect]
    rfl
  · have hcollect : collect cfg clock a = .receives (waiting cfg clock a)
        (min (max (nextDeadline cfg d - clock d.reads) 0) longestWait) := by
      rw [collect]
      exact if_neg hback
    refine .inr ⟨lt_of_not_ge hback, hcollect, ?_⟩
    rw [step.eq_def]
    dsimp only
    rw [hcollect]

lemma waiting_onward (a : Acc) :
    Onward cfg clock (checkDeadlines cfg clock a) (waiting cfg clock a) :=
  .reads_le (by omega)

lemma step_onward (a : Acc) (message : Option Message) :
    Onward cfg clock (checkDeadlines cfg clock a)
      (step cfg clock (.collecting a) message).acc := by
  rcases step_cases cfg clock a message with ⟨-, -, heq⟩ | ⟨-, -, heq⟩
  · rw [heq]
    exact (waiting_onward a).trans (.tracking _ _ _)
  · rw [heq]
    exact (waiting_onward a).trans (receive_onward _ message)

structure Bounded (cfg : Options) (clock : ℕ → Instant) (limit : Instant) (a : Acc) : Prop where
  timeoutAt : a.timeoutAt = limit
  backstop : a.backstop ≤ limit + cfg.cleanupMs
  cancelled : ∀ reason at_, .cancelled reason at_ ∈ a.log →
    a.backstop ≤ at_ + cfg.cleanupMs ∧ ∃ n, n < a.reads ∧ at_ = clock n

lemma Bounded.onward {limit : Instant} (h : Bounded cfg clock limit a)
    (k : Onward cfg clock a b) : Bounded cfg clock limit b := by
  refine ⟨k.timeoutAt.trans h.timeoutAt, k.backstop.trans h.backstop, fun reason at_ hin => ?_⟩
  rcases k.cancelled reason at_ hin with hin | ⟨hle, n, -, hlt, heq⟩
  · obtain ⟨hle, n, hlt, heq⟩ := h.cancelled reason at_ hin
    exact ⟨k.backstop.trans hle, n, hlt.trans_le k.reads, heq⟩
  · exact ⟨hle, n, hlt, heq⟩

lemma run_bounded {limit : Instant} {s : State} (h : Bounded cfg clock limit s.acc)
    (messages : List (Option Message)) :
    Bounded cfg clock limit (run cfg clock s messages).acc := by
  induction messages generalizing s with
  | nil => exact h
  | cons message messages ih =>
    apply ih
    cases s with
    | collecting a =>
      have hd : Bounded cfg clock limit (checkDeadlines cfg clock a) :=
        Bounded.onward h (checkDeadlines_onward a)
      exact hd.onward (step_onward a message)
    | returned o a => exact h

def isOutput : Option Message → Bool
  | some (.data .stdout _ _) | some (.data .stderr _ _) => true
  | _ => false

/-- The idle deadline passed at the iteration's second look at the clock. -/
def IdlePassed (clock : ℕ → Instant) (a : Acc) : Prop :=
  ∃ idleAt, a.idleAt = some idleAt ∧ idleAt ≤ clock (a.reads + 1)

structure Iteration (cfg : Options) (clock : ℕ → Instant) (a : Acc) (message : Option Message)
    (next : State) : Prop where
  /-- The effects of the cancellation come before any of the message's. -/
  timeout : cfg.strict = true → a.reason = none → a.timeoutAt ≤ clock a.reads →
    next.acc.reason = some .timeout ∧
      ∃ at_, .cancelled .timeout at_ :: .send .kill :: a.log <:+ next.acc.log
  idle : cfg.strict = true → a.reason = none → clock a.reads < a.timeoutAt → IdlePassed clock a →
    next.acc.reason = some .idleTimeout ∧
      ∃ at_, .cancelled .idleTimeout at_ :: .send .kill :: a.log <:+ next.acc.log
  noTimeout : a.reason = none → next.acc.reason = some .timeout →
    cfg.strict = true ∧ a.timeoutAt ≤ clock a.reads
  noIdle : a.reason = none → next.acc.reason = some .idleTimeout →
    cfg.strict = true ∧ clock a.reads < a.timeoutAt ∧ IdlePassed clock a
  idleAt : next.acc.idleAt = a.idleAt ∨
    isOutput message = true ∧ (checkDeadlines cfg clock a).reason = none
  backstop : next.acc.backstop ≤ a.backstop
  returns : a.backstop ≤ clock a.reads → ∃ o b, next = .returned o b
  waits : ∀ b remaining, collect cfg clock a = .receives b remaining →
    ∃ n, a.reads ≤ n ∧ clock n ≤ clock (n + 1) ∧ clock (n + 1) < b.backstop ∧
      remaining ≤ max (b.backstop - clock n) 0 ∧
      (cfg.strict = true → b.reason = none →
        remaining ≤ max (b.timeoutAt - clock n) 0 ∧
          ∀ idleAt, b.idleAt = some idleAt → remaining ≤ max (idleAt - clock n) 0)

lemma checkDeadlines_timeout (hs : cfg.strict = true) (hr : a.reason = none)
    (h : a.timeoutAt ≤ clock a.reads) :
    checkDeadlines cfg clock a = cancel cfg clock { a with reads := a.reads + 1 } .timeout := by
  rw [checkDeadlines, if_pos (by simp [hs, hr])]
  exact if_pos h

lemma checkDeadlines_idle (hs : cfg.strict = true) (hr : a.reason = none)
    (h : clock a.reads < a.timeoutAt) (hidle : IdlePassed clock a) :
    checkDeadlines cfg clock a =
      cancel cfg clock { a with reads := a.reads + 1 + 1 } .idleTimeout := by
  obtain ⟨idleAt, hat, hle⟩ := hidle
  have hearly : ¬a.timeoutAt ≤ (a.now clock).1 := not_le.mpr h
  rw [checkDeadlines, if_pos (by simp [hs, hr])]
  dsimp only
  rw [if_neg hearly]
  split
  · next idleAt' hat' =>
    obtain rfl := Option.some.inj (hat.symm.trans hat')
    exact if_pos hle
  · next hnone => cases hat.symm.trans hnone

lemma checkDeadlines_idleAt (a : Acc) : (checkDeadlines cfg clock a).idleAt = a.idleAt := by
  rcases checkDeadlines_cases cfg clock a with ⟨n, -, heq⟩ | ⟨n, reason, -, -, -, heq⟩ <;> rw [heq]
  rfl

lemma checkDeadlines_reason (hr : a.reason = none) :
    (checkDeadlines cfg clock a).reason = none ∨
      cfg.strict = true ∧ a.timeoutAt ≤ clock a.reads ∧
        (checkDeadlines cfg clock a).reason = some .timeout ∨
      cfg.strict = true ∧ clock a.reads < a.timeoutAt ∧ IdlePassed clock a ∧
        (checkDeadlines cfg clock a).reason = some .idleTimeout := by
  cases hs : cfg.strict with
  | false =>
    left
    rw [checkDeadlines, if_neg (by simp [hs])]
    exact hr
  | true =>
    rcases le_or_gt a.timeoutAt (clock a.reads) with h | h
    · refine .inr (.inl ⟨rfl, h, ?_⟩)
      rw [checkDeadlines_timeout hs hr h]
      rfl
    · by_cases hidle : IdlePassed clock a
      · refine .inr (.inr ⟨rfl, h, hidle, ?_⟩)
        rw [checkDeadlines_idle hs hr h hidle]
        rfl
      · left
        have hearly : ¬a.timeoutAt ≤ (a.now clock).1 := not_le.mpr h
        rw [checkDeadlines, if_pos (by simp [hs, hr])]
        dsimp only
        rw [if_neg hearly]
        split
        · next idleAt hat =>
          have hlater : ¬idleAt ≤ ((a.now clock).2.now clock).1 := fun hle => hidle ⟨idleAt, hat, hle⟩
          rw [if_neg hlater]
          exact hr
        · exact hr

lemma output_reason (hr : a.reason = none) (pipe : Pipe) (payload : Bytes) (queue : Option ℕ) :
    (output cfg clock a pipe payload queue).reason ∈
      [none, some Reason.maxOutputBytes, some Reason.observerOverflow] := by
  obtain ⟨b, hs, heq⟩ := @output_open cfg clock _ pipe payload queue hr
  have hb : b.reason = none := hs.reason.trans hr
  rw [heq]
  split
  · simp [cancel, Acc.now, Acc.add]
  · split
    · simp [cancel, Acc.now, Acc.add]
    · split <;> simp [grant, Acc.add, hb]

lemma receive_reason (hr : a.reason = none) (message : Option Message) :
    (receive cfg clock a message).acc.reason ∈
      [none, some Reason.maxOutputBytes, some Reason.observerOverflow] := by
  have hsame : ∀ b : Acc, b.reason = a.reason →
      b.reason ∈ [none, some Reason.maxOutputBytes, some Reason.observerOverflow] := by
    intro b hb
    rw [hb, hr]
    exact List.mem_cons_self
  cases message with
  | none => exact hsame a rfl
  | some m =>
    cases m with
    | exitStatus status => exact hsame _ (finishTracking_quiet _ _ _).1
    | data tag payload queue =>
      cases tag with
      | stdout => exact output_reason hr .stdout payload queue
      | stderr => exact output_reason hr .stderr payload queue
      | spawned =>
        obtain ⟨identity, heq⟩ := spawned_frame cfg a payload
        have h : receive cfg clock a (some (.data .spawned payload queue)) =
            .collecting { a with identity := identity } := congrArg State.collecting heq
        rw [h]
        exact hsame _ rfl
      | tracked => exact hsame _ (finishTracking_quiet _ _ _).1
      | exit => exact hsame _ (finish_quiet _ _).1
      | error => exact hsame _ (spawnError_quiet _ _).1
      | other => exact hsame a rfl

lemma tell_idleAt (a : Acc) (t : Tracking) (event : Option TrackingEvent) :
    ({ a with tracking := t }.tell cfg event).idleAt = a.idleAt := by
  rcases @tell_cases cfg { a with tracking := t } event with heq | ⟨e, heq⟩ <;> rw [heq]
  rfl

lemma output_idleAt {reason : Reason} (hr : a.reason = some reason) (pipe : Pipe)
    (payload : Bytes) (queue : Option ℕ) :
    (output cfg clock a pipe payload queue).idleAt = a.idleAt := by
  simp [output, Acc.add, hr]

lemma receive_idleAt (a : Acc) (message : Option Message) :
    (receive cfg clock a message).acc.idleAt = a.idleAt ∨
      isOutput message = true ∧ a.reason = none := by
  cases message with
  | none => exact .inl rfl
  | some m =>
    cases m with
    | exitStatus status => exact .inl (tell_idleAt _ _ _)
    | data tag payload queue =>
      cases tag with
      | stdout =>
        cases hr : a.reason with
        | none => exact .inr ⟨rfl, rfl⟩
        | some reason => exact .inl (output_idleAt hr .stdout payload queue)
      | stderr =>
        cases hr : a.reason with
        | none => exact .inr ⟨rfl, rfl⟩
        | some reason => exact .inl (output_idleAt hr .stderr payload queue)
      | spawned =>
        obtain ⟨identity, heq⟩ := spawned_frame cfg a payload
        have h : receive cfg clock a (some (.data .spawned payload queue)) =
            .collecting { a with identity := identity } := congrArg State.collecting heq
        rw [h]
        exact .inl rfl
      | tracked => exact .inl (tell_idleAt _ _ _)
      | exit =>
        left
        change (finish cfg a payload).2.idleAt = a.idleAt
        rw [finish.eq_def]
        split
        · rw [finishReport]
          split
          · exact tell_idleAt _ _ _
          · exact tell_idleAt _ _ _
        · exact tell_idleAt _ _ _
      | error =>
        left
        change (spawnError cfg a payload).2.idleAt = a.idleAt
        rw [spawnError]
        dsimp only
        split <;> exact tell_idleAt _ _ _
      | other => exact .inl rfl

lemma failure_frame (a : Acc) (termination : Termination) (reason : Reason) :
    (failure cfg a termination reason).2.reason = a.reason ∧
      (failure cfg a termination reason).2.idleAt = a.idleAt :=
  ⟨(finishTracking_quiet a _ _).1, tell_idleAt a _ _⟩

lemma step_reason {reason : Reason} (h : (checkDeadlines cfg clock a).reason = some reason)
    (message : Option Message) : (step cfg clock (.collecting a) message).acc.reason = some reason := by
  rcases step_cases cfg clock a message with ⟨-, -, heq⟩ | ⟨-, -, heq⟩
  · rw [heq]
    exact (failure_frame _ _ _).1.trans h
  · rw [heq]
    exact (receive_quiet _ message).1 reason h

lemma step_unset (h : (checkDeadlines cfg clock a).reason = none) (message : Option Message) :
    (step cfg clock (.collecting a) message).acc.reason ∈
      [none, some Reason.maxOutputBytes, some Reason.observerOverflow] := by
  rcases step_cases cfg clock a message with ⟨-, -, heq⟩ | ⟨-, -, heq⟩
  · rw [heq]
    exact List.mem_cons.mpr (.inl ((failure_frame _ _ _).1.trans h))
  · rw [heq]
    exact receive_reason (a := waiting cfg clock a) h message

lemma nextDeadline_le (cfg : Options) (a : Acc) : nextDeadline cfg a ≤ a.backstop ∧
    (cfg.strict = true → a.reason = none →
      nextDeadline cfg a ≤ a.timeoutAt ∧
        ∀ idleAt, a.idleAt = some idleAt → nextDeadline cfg a ≤ idleAt) := by
  rw [nextDeadline]
  split
  · split
    · next idleAt hat =>
      refine ⟨min_le_right _ _, fun _ _ => ⟨?_, fun idleAt' hat' => ?_⟩⟩
      · exact (min_le_left _ _).trans (min_le_left _ _)
      · obtain rfl := Option.some.inj (hat.symm.trans hat')
        exact (min_le_left _ _).trans (min_le_right _ _)
    · next hat =>
      refine ⟨min_le_right _ _, fun _ _ => ⟨min_le_left _ _, fun idleAt' hat' => ?_⟩⟩
      cases hat.symm.trans hat'
  · next h =>
    refine ⟨le_refl _, fun hs hr => ?_⟩
    simp [hs, hr] at h

lemma wait_le {deadline later now : Instant} (h : deadline ≤ later) :
    min (max (deadline - now) 0) longestWait ≤ max (later - now) 0 :=
  (min_le_left _ _).trans (max_le_max_right _ (Int.sub_le_sub_right h _))

lemma iteration (hclock : Monotone clock) (a : Acc) (message : Option Message) :
    Iteration cfg clock a message (step cfg clock (.collecting a) message) := by
  have hd := @checkDeadlines_onward cfg clock a
  have hstep := @step_onward cfg clock a message
  constructor
  · intro hs hr h
    have heq := checkDeadlines_timeout hs hr h
    refine ⟨step_reason (by rw [heq]; rfl) message, clock (a.reads + 1), ?_⟩
    rw [heq] at hstep
    exact hstep.log
  · intro hs hr h hidle
    have heq := checkDeadlines_idle hs hr h hidle
    refine ⟨step_reason (by rw [heq]; rfl) message, clock (a.reads + 1 + 1), ?_⟩
    rw [heq] at hstep
    exact hstep.log
  · intro hr hnext
    rcases @checkDeadlines_reason cfg clock _ hr with h | ⟨hs, hle, -⟩ |
      ⟨-, -, -, h⟩
    · have hmem := step_unset h message
      rw [hnext] at hmem
      exact absurd hmem (by decide)
    · exact ⟨hs, hle⟩
    · cases hnext.symm.trans (step_reason h message)
  · intro hr hnext
    rcases @checkDeadlines_reason cfg clock _ hr with h | ⟨-, -, h⟩ |
      ⟨hs, hlt, hidle, -⟩
    · have hmem := step_unset h message
      rw [hnext] at hmem
      exact absurd hmem (by decide)
    · cases hnext.symm.trans (step_reason h message)
    · exact ⟨hs, hlt, hidle⟩
  · rw [← @checkDeadlines_idleAt cfg clock a]
    rcases step_cases cfg clock a message with ⟨-, -, heq⟩ | ⟨-, -, heq⟩
    · rw [heq]
      exact .inl (failure_frame _ _ _).2
    · rw [heq]
      exact receive_idleAt _ message
  · exact hstep.backstop.trans hd.backstop
  · intro hpast
    rcases step_cases cfg clock a message with ⟨-, -, heq⟩ | ⟨hlt, -, -⟩
    · exact ⟨_, _, heq⟩
    · have hlate : clock a.reads ≤ clock ((checkDeadlines cfg clock a).reads + 1) :=
        hclock (hd.reads.trans (Nat.le_succ _))
      exact absurd (hd.backstop.trans (hpast.trans hlate)) (not_le.mpr hlt)
  · intro b remaining hcollect
    rcases step_cases cfg clock a message with ⟨-, hreturns, -⟩ | ⟨hlt, hreceives, -⟩
    · cases hreturns.symm.trans hcollect
    · obtain ⟨rfl, rfl⟩ := Turn.receives.inj (hreceives.symm.trans hcollect)
      obtain ⟨hback, hothers⟩ := nextDeadline_le cfg (checkDeadlines cfg clock a)
      refine ⟨_, hd.reads, hclock (Nat.le_succ _), hlt, wait_le hback, fun hs hr => ?_⟩
      obtain ⟨htimeout, hidle⟩ := hothers hs hr
      exact ⟨wait_le htimeout, fun idleAt hat => wait_le (hidle idleAt hat)⟩

lemma cancelled_of_cancellation {log : List Effect} {reason : Reason}
    (h : cancellation log = some reason) : ∃ at_, .cancelled reason at_ ∈ log := by
  induction log with
  | nil => cases h
  | cons effect older ih =>
    have hkeep : cancellation older = some reason → ∃ at_, .cancelled reason at_ ∈ effect :: older := by
      intro hc
      obtain ⟨at_, hin⟩ := ih hc
      exact ⟨at_, List.mem_cons_of_mem _ hin⟩
    cases effect with
    | cancelled reason' at_ =>
      cases hc : cancellation older with
      | some first =>
        rw [cancellation, hc] at h
        exact hkeep (hc.trans h)
      | none =>
        rw [cancellation, hc] at h
        obtain rfl := Option.some.inj h
        exact ⟨at_, List.mem_cons_self⟩
    | _ => exact hkeep h

/-- The deadlines of a run, at every moment of it and whatever it is sent next. -/
theorem run_deadlines (cfg : Options) (clock : ℕ → Instant) (hclock : Monotone clock)
    (timeoutMs : ℕ) (deadline : Option Instant) (reads : ℕ) (messages : List (Option Message)) :
    let start := execute cfg clock timeoutMs deadline reads
    let s := run cfg clock (.collecting start) messages
    Bounded cfg clock start.timeoutAt s.acc ∧
      (∀ reason, s.acc.reason = some reason → ∃ at_, .cancelled reason at_ ∈ s.acc.log) ∧
      ∀ a, s = .collecting a → ∀ message, Iteration cfg clock a message (step cfg clock s message) := by
  intro start s
  have hlog : ∀ reason at_, .cancelled reason at_ ∉ start.log := by
    intro reason at_ hin
    simp only [start, execute] at hin
    split at hin <;> simp at hin
  have hstart : Bounded cfg clock start.timeoutAt start :=
    ⟨rfl, le_refl _, fun reason at_ hin => absurd hin (hlog reason at_)⟩
  refine ⟨run_bounded hstart messages, fun reason hr => ?_, fun a hs message => ?_⟩
  · have hcollects : Collects cfg s.acc :=
      (run_sound (execute_sound timeoutMs deadline reads) messages).collects
    exact cancelled_of_cancellation (hcollects.reason.symm.trans hr)
  · rw [hs]
    exact iteration hclock a message

def hurriedRun : Options :=
  { plainRun with strict := true, idleTimeout := some 50, cleanupMs := 4 }

def State.over : State → Bool
  | .returned _ _ => true
  | .collecting _ => false

/-- On a clock that moves on by one at every reading the run is timed out, and it returns at the
backstop without an EXIT. -/
theorem run_deadlines_ticking :
    let start := execute hurriedRun (fun n => n) 3 none 0
    let s := run hurriedRun (fun n => n) (.collecting start) (List.replicate 9 none)
    Bounded hurriedRun (fun n => n) start.timeoutAt s.acc ∧
      (∃ at_, .cancelled .timeout at_ ∈ s.acc.log) ∧ s.over = true := by
  intro start s
  obtain ⟨hbounded, hcancelled, -⟩ := run_deadlines hurriedRun (fun n => n)
    (fun _ _ h => Int.ofNat_le.mpr h) 3 none 0 (List.replicate 9 none)
  exact ⟨hbounded, hcancelled .timeout (by decide +kernel), by decide +kernel⟩

end Forcola.Beam.Run
