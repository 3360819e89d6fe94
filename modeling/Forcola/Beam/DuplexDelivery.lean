import Forcola.Beam.DuplexCredit

/-! Lines go out once and in order, and every demand for a line is answered once. -/

namespace Forcola.Beam.Duplex

open Library Transition
open Native (Bytes Pipe)

def Entry.extend (p : Pipe) (segments : List Bytes × Bytes) : Entry → List Bytes × Bytes
  | .handled message =>
    if message.flushes then (segments.1 ++ [segments.2], [])
    else (segments.1, segments.2 ++ Entry.received p (.handled message))
  | _ => segments

def Log.segments (p : Pipe) (log : Log) : List Bytes × Bytes :=
  log.foldl (Entry.extend p) ([], [])

def Log.lines (p : Pipe) (log : Log) : List Bytes :=
  (log.segments p).1.flatMap (Lines.closed newline) ++ Lines.lines newline (log.segments p).2

def parting (p : Pipe) (s : State) : List Bytes :=
  match s.farewell with
  | some (_, .line line) => if line.pipe = p then [line.bytes] else []
  | _ => []

def Phase.flushed : Phase → Bool
  | .awaiting | .closing _ | .published | .stopped => true
  | _ => false

/-- The partial line `terminate/2` sent without clearing its buffer. -/
def spilled (cfg : Options) (s : State) (p : Pipe) : List Bytes :=
  if cfg.delivery = .messages ∧ s.phase.flushed = true ∧ s.buffers p ≠ [] then [s.buffers p] else []

def waiting (caller : Caller) (s : State) : ℕ :=
  match s.waiter with
  | some waiter => if waiter.caller = caller then 1 else 0
  | none => 0

def leaving (caller : Caller) (s : State) : ℕ :=
  match s.farewell with
  | some (last, _) => if last = caller then 1 else 0
  | none => 0

def Counted (s : State) : Prop :=
  ∀ caller, s.log.asked caller = s.log.answered caller + waiting caller s + leaving caller s

structure Delivering (cfg : Options) (s : State) : Prop where
  lines : s.halt = false → s.phase ≠ .killed → ∀ p,
    s.log.delivered p ++ parting p s ++ queued p s.queue = s.log.lines p ++ spilled cfg s p
  carry : s.halt = false → ∀ p, s.buffers p = Lines.rest newline (s.log.segments p).2
  answers : Counted s

variable {cfg : Options} {s t : State}

lemma segments_append (p : Pipe) (log : Log) (entry : Entry) :
    Log.segments p (log ++ [entry]) = entry.extend p (Log.segments p log) := by
  rw [Log.segments, List.foldl_append]
  rfl

lemma segments_did (p : Pipe) (log : Log) (effects : List Effect) :
    Log.segments p (log ++ effects.map .did) = Log.segments p log := by
  rw [Log.segments, List.foldl_append, List.foldl_map]
  induction effects with
  | nil => rfl
  | cons e es ih => exact ih

lemma lines_did (p : Pipe) (log : Log) (effects : List Effect) :
    Log.lines p (log ++ effects.map .did) = Log.lines p log := by
  rw [Log.lines, segments_did]
  rfl

lemma Aside.segments (h : Aside s t) (p : Pipe) : t.log.segments p = s.log.segments p := by
  obtain ⟨effects, -, hl⟩ := h.log
  rw [hl, segments_did]

lemma Aside.lines (h : Aside s t) (p : Pipe) : t.log.lines p = s.log.lines p := by
  rw [Log.lines, Log.lines, h.segments]

lemma lines_output {entry : Entry} {p : Pipe} {chunk : Bytes} (log : Log)
    (h : ∀ segments, entry.extend p segments = (segments.1, segments.2 ++ chunk)) :
    Log.lines p (log ++ [entry]) = Log.lines p log ++
        Lines.lines newline (Lines.rest newline (Log.segments p log).2 ++ chunk) ∧
      Lines.rest newline (Log.segments p (log ++ [entry])).2 =
        Lines.rest newline (Lines.rest newline (Log.segments p log).2 ++ chunk) := by
  rw [Log.lines, segments_append, h, Lines.lines_append, Lines.rest_append, Log.lines,
    List.append_assoc]
  exact ⟨rfl, rfl⟩

lemma lines_flush (log : Log) (entry : Entry) (p : Pipe)
    (h : ∀ segments, entry.extend p segments = (segments.1 ++ [segments.2], [])) :
    Log.lines p (log ++ [entry]) = Log.lines p log ++
        (if Lines.rest newline (Log.segments p log).2 = [] then []
          else [Lines.rest newline (Log.segments p log).2]) ∧
      Lines.rest newline (Log.segments p (log ++ [entry])).2 = [] := by
  rw [Log.lines, segments_append, h, Log.lines]
  simp [Lines.closed]

lemma extend_silent {m : Message} (hf : m.flushes = false)
    (hr : ∀ p, Entry.received p (.handled m) = []) (p : Pipe) (segments : List Bytes × Bytes) :
    Entry.extend p segments (.handled m) = segments := by
  rw [Entry.extend, hf, hr]
  simp

namespace Delivering

lemma init (cfg : Options) : Delivering cfg (init cfg) where
  lines _ _ p := by
    have h : spilled cfg (Duplex.init cfg) p = [] := by simp [spilled, Duplex.init]
    rw [h]
    rfl
  carry _ _ := rfl
  answers _ := rfl

lemma aside (hs : Delivering cfg s) (h : Aside s t) : Delivering cfg t where
  lines := by
    intro hh hp p
    have hsp : spilled cfg t p = spilled cfg s p := by
      rw [spilled, spilled, h.phase, h.buffers]
    have hpt : parting p t = parting p s := by rw [parting, parting, h.farewell]
    rw [h.delivered, h.queue, h.lines, hsp, hpt]
    exact hs.lines (h.halt ▸ hh) (h.phase ▸ hp) p
  carry := by
    intro hh p
    rw [h.buffers, h.segments]
    exact hs.carry (h.halt ▸ hh) p
  answers := by
    intro caller
    rw [waiting, leaving, h.asked, h.answered, h.waiter, h.farewell]
    exact hs.answers caller

end Delivering

structure Even (s : State) : Prop where
  lines : ∀ p, s.log.delivered p ++ queued p s.queue = s.log.lines p
  carry : ∀ p, s.buffers p = Lines.rest newline (s.log.segments p).2

namespace Even

lemma aside (hs : Even s) (h : Aside s t) : Even t where
  lines p := by
    rw [h.delivered, h.queue, h.lines]
    exact hs.lines p
  carry p := by
    rw [h.buffers, h.segments]
    exact hs.carry p

lemma hear_delivered (s : State) (m : Message) (p : Pipe) :
    (s.hear (.handled m)).log.delivered p = s.log.delivered p := by
  rw [show (s.hear (.handled m)).log = s.log ++ [.handled m] from rfl, Log.delivered_append]
  exact List.append_nil _

lemma heard (hs : Even s) {m : Message} (hf : m.flushes = false)
    (hr : ∀ p, Entry.received p (.handled m) = []) : Even (s.hear (.handled m)) := by
  have hseg : ∀ p, (s.hear (.handled m)).log.segments p = s.log.segments p := by
    intro p
    rw [show (s.hear (.handled m)).log = s.log ++ [.handled m] from rfl, segments_append]
    exact extend_silent hf hr p _
  refine ⟨fun p => ?_, fun p => ?_⟩
  · rw [hear_delivered, Log.lines, hseg]
    exact hs.lines p
  · rw [hseg]
    exact hs.carry p

lemma moved (hs : Even s) (hb : t.buffers = s.buffers)
    (hl : ∀ p, t.log.lines p = s.log.lines p) (hg : ∀ p, t.log.segments p = s.log.segments p)
    (hd : ∀ p, t.log.delivered p ++ queued p t.queue = s.log.delivered p ++ queued p s.queue) :
    Even t where
  lines p := by
    rw [hd, hl]
    exact hs.lines p
  carry p := by
    rw [hb, hg]
    exact hs.carry p

lemma replied (hs : Even s) (caller : Caller) (reply : RecvReply)
    (hr : ∀ p, Entry.delivered p (.did (.recvReply caller reply)) = []) :
    Even (s.tell [.recvReply caller reply]) := by
  refine hs.moved rfl (fun p => lines_did p _ [_]) (fun p => segments_did p _ [_]) fun p => ?_
  rw [State.tell, Log.delivered_append]
  simp [Log.delivered, hr]

lemma answered (hs : Even s) : Even (replyPullWaiter cfg s) := by
  have hlog : ∃ effects : List Effect, (replyPullWaiter cfg s).log = s.log ++ effects.map .did := by
    rcases replyPullWaiter_cases cfg s with
      ⟨h, -⟩ | ⟨_, _, _, -, -, -, h⟩ | ⟨_, _, -, -, -, -, h⟩
    · exact ⟨[], by rw [h]; simp⟩
    · rw [h]
      exact ⟨_, rfl⟩
    · rw [h]
      exact ⟨_, rfl⟩
  obtain ⟨effects, hlog⟩ := hlog
  obtain ⟨queue, waiter, log, heq⟩ := replyPullWaiter_eq cfg s
  refine hs.moved (by rw [heq]) (fun p => ?_) (fun p => ?_) fun p => (replyPullWaiter_log cfg s p).2.2.2
  · rw [hlog, lines_did]
  · rw [hlog, segments_did]

lemma afterFrame (hs : Even s) : Even (afterFrame cfg s) := by
  have stop : Even s.stop := ⟨hs.lines, hs.carry⟩
  rw [Duplex.afterFrame]
  split
  · exact stop
  · split
    · exact hs
    · split
      · exact hs
      · exact stop

lemma extend_output (p q : Pipe) (chunk : Bytes) (segments : List Bytes × Bytes) :
    Entry.extend q segments (.handled (.port (.data (Tag.ofPipe p) chunk))) =
      (segments.1, segments.2 ++ if q = p then chunk else []) := by
  have hf : (Message.port (.data (Tag.ofPipe p) chunk)).flushes = false := by cases p <;> rfl
  rw [Entry.extend, hf, if_neg Bool.false_ne_true]
  exact congrArg (fun b => (segments.1, segments.2 ++ b)) (output_ofPipe p q chunk)

lemma lines_chunk (s : State) (p q : Pipe) (chunk : Bytes) (hs : Even s) :
    (s.hear (.handled (.port (.data (Tag.ofPipe p) chunk)))).log.lines q =
        s.log.lines q ++ (if q = p then Lines.lines newline (s.buffers q ++ chunk) else []) ∧
      Lines.rest newline
          ((s.hear (.handled (.port (.data (Tag.ofPipe p) chunk)))).log.segments q).2 =
        if q = p then Lines.rest newline (s.buffers q ++ chunk) else s.buffers q := by
  by_cases hq : q = p
  · subst hq
    obtain ⟨h1, h2⟩ := lines_output s.log fun segments => by
      rw [extend_output q q chunk segments, if_pos rfl]
    rw [← hs.carry] at h1 h2
    rw [if_pos rfl, if_pos rfl]
    exact ⟨h1, h2⟩
  · have hseg : (s.hear (.handled (.port (.data (Tag.ofPipe p) chunk)))).log.segments q =
        s.log.segments q := by
      rw [show (s.hear (.handled (.port (.data (Tag.ofPipe p) chunk)))).log =
        s.log ++ [.handled (.port (.data (Tag.ofPipe p) chunk))] from rfl, segments_append,
        extend_output, if_neg hq, List.append_nil]
    rw [Log.lines, hseg, if_neg hq, if_neg hq, List.append_nil]
    exact ⟨rfl, (hs.carry q).symm⟩

lemma accepted (hs : Even s) (p : Pipe) (chunk : Bytes) :
    Even (accept (s.hear (.handled (.port (.data (Tag.ofPipe p) chunk)))) p chunk) := by
  refine ⟨fun q => ?_, fun q => ?_⟩
  · have hl := (lines_chunk s p q chunk hs).1
    have hd := hear_delivered s (.port (.data (Tag.ofPipe p) chunk)) q
    simp only [accept, queued_append, queued_lines]
    rw [hl, hd, ← List.append_assoc, show (s.hear _).queue = s.queue from rfl, hs.lines,
      show (s.hear _).buffers = s.buffers from rfl]
    by_cases hq : q = p
    · subst hq
      simp
    · simp [hq, Ne.symm hq]
  · have hr := (lines_chunk s p q chunk hs).2
    rw [show (accept _ p chunk).log = (s.hear (.handled (.port (.data (Tag.ofPipe p) chunk)))).log
      from rfl, hr]
    by_cases hq : q = p
    · subst hq
      simp [accept, State.hear]
    · simp [accept, State.hear, hq]

lemma delivered_owner (p : Pipe) (lines : List Line) :
    Log.delivered p ((lines.map fun line => Effect.owner (.line line)).map .did) = queued p lines := by
  induction lines with
  | nil => rfl
  | cons line lines ih =>
    rw [queued_cons, ← ih]
    rfl

lemma relayed (hs : Even s) (hq : s.queue = []) (p : Pipe) (chunk : Bytes) {v : State}
    (hv : v = s.hear (.handled (.port (.data (Tag.ofPipe p) chunk)))) :
    Even { v.tell ((Lines.lines newline (v.buffers p ++ chunk)).map fun line =>
        .owner (.line ⟨p, line⟩)) with
      buffers := Function.update v.buffers p (Lines.rest newline (v.buffers p ++ chunk)) } := by
  have hvb : v.buffers = s.buffers := by rw [hv]; rfl
  have hvq : v.queue = [] := by rw [hv]; exact hq
  refine ⟨fun q => ?_, fun q => ?_⟩
  · obtain ⟨hl, -⟩ := lines_chunk s p q chunk hs
    have hd := hear_delivered s (.port (.data (Tag.ofPipe p) chunk)) q
    rw [← hv] at hl hd
    simp only [State.tell]
    rw [lines_did, Log.delivered_append, hl, hd, hvq, queued_nil, List.append_nil, hvb]
    have hls := hs.lines q
    rw [hq, queued_nil, List.append_nil] at hls
    rw [hls]
    have hm : ((Lines.lines newline (s.buffers p ++ chunk)).map fun line =>
        Effect.owner (.line ⟨p, line⟩)) = ((Lines.lines newline (s.buffers p ++ chunk)).map
          (⟨p, ·⟩)).map fun line => .owner (.line line) := by
      rw [List.map_map]
      rfl
    rw [hm, delivered_owner, queued_lines]
    by_cases hqp : q = p
    · subst hqp
      simp
    · simp [hqp, Ne.symm hqp]
  · obtain ⟨-, hr⟩ := lines_chunk s p q chunk hs
    rw [← hv] at hr
    simp only [State.tell]
    rw [segments_did, hr, hvb]
    by_cases hqp : q = p
    · subst hqp
      simp
    · simp [hqp]

lemma queued_flushed (cfg : Options) (p : Pipe) (buffers : Pipe → Bytes) :
    queued p (partials buffers (if cfg.stderrFirst then [.stderr, .stdout] else [.stdout, .stderr])) =
      if buffers p = [] then [] else [buffers p] := by
  split
  · cases p <;> by_cases h : buffers .stdout = [] <;> by_cases k : buffers .stderr = [] <;>
      simp [queued, partials, h, k]
  · exact queued_partials p buffers

lemma flushed (hs : Even s) {m : Message} (hf : m.flushes = true) {u : State}
    (hu : Aside (s.hear (.handled m)) u) (hq : cfg.delivery = .messages → s.queue = []) :
    Even (flushBuffers cfg u) := by
  have hlines : ∀ p, u.log.lines p = s.log.lines p ++
      (if u.buffers p = [] then [] else [u.buffers p]) ∧
        Lines.rest newline (u.log.segments p).2 = [] := by
    intro p
    obtain ⟨h1, h2⟩ := lines_flush s.log (.handled m) p fun segments => by
      rw [Entry.extend, hf, if_pos rfl]
    rw [hu.lines, hu.segments, hu.buffers]
    rw [← hs.carry] at h1
    exact ⟨h1, h2⟩
  have hdel : ∀ p, u.log.delivered p = s.log.delivered p := fun p =>
    (hu.delivered p).trans (hear_delivered s m p)
  have huq : u.queue = s.queue := hu.queue
  rw [flushBuffers]
  cases hd : cfg.delivery with
  | pull =>
    refine ⟨fun p => ?_, fun p => (hlines p).2.symm⟩
    rw [(hlines p).1, hdel, queued_append, queued_partials, huq, ← List.append_assoc, hs.lines]
  | messages =>
    refine ⟨fun p => ?_, fun p => ?_⟩
    · simp only [State.tell]
      have hls := hs.lines p
      rw [hq hd, queued_nil, List.append_nil] at hls
      rw [lines_did, (hlines p).1, Log.delivered_append, hdel, huq, hq hd, queued_nil,
        List.append_nil, hls, flushedMessages, delivered_owner, queued_flushed]
    · simp only [State.tell]
      rw [segments_did, (hlines p).2]

end Even

namespace Counted

lemma aside (hs : Counted s) (h : Aside s t) : Counted t := by
  intro caller
  rw [waiting, leaving, h.asked, h.answered, h.waiter, h.farewell]
  exact hs caller

lemma hear_log (s : State) (m : Message) (caller : Caller) :
    (s.hear (.handled m)).log.asked caller =
        s.log.asked caller + (if Entry.asks caller (.handled m) then 1 else 0) ∧
      (s.hear (.handled m)).log.answered caller = s.log.answered caller := by
  rw [show (s.hear (.handled m)).log = s.log ++ [.handled m] from rfl, Log.asked, Log.answered,
    List.countP_append, List.countP_append, List.countP_singleton, List.countP_singleton]
  exact ⟨rfl, rfl⟩

lemma heard (hs : Counted s) {m : Message} (hm : ∀ caller, Entry.asks caller (.handled m) = false) :
    Counted (s.hear (.handled m)) := by
  intro caller
  obtain ⟨h1, h2⟩ := hear_log s m caller
  rw [h1, h2, hm]
  exact hs caller

lemma tell_log (s : State) (called caller : Caller) (reply : RecvReply) :
    (s.tell [.recvReply called reply]).log.asked caller = s.log.asked caller ∧
      (s.tell [.recvReply called reply]).log.answered caller =
        s.log.answered caller + (if called = caller then 1 else 0) := by
  have hl : (s.tell [.recvReply called reply]).log = s.log ++ [.did (.recvReply called reply)] := rfl
  rw [hl, Log.asked, Log.answered, List.countP_append, List.countP_append, List.countP_singleton,
    List.countP_singleton]
  refine ⟨rfl, ?_⟩
  by_cases h : called = caller <;> simp [Entry.answers, h, Log.answered]

lemma released (hs : Counted s) {w : Waiter} (hw : s.waiter = some w) (reply : RecvReply)
    (hl : t.log = (s.tell [.recvReply w.caller reply]).log) (hn : t.waiter = none)
    (hf : t.farewell = s.farewell) : Counted t := by
  intro caller
  obtain ⟨h1, h2⟩ := tell_log s w.caller caller reply
  have hc := hs caller
  rw [waiting, hw] at hc
  rw [waiting, leaving, hl, h1, h2, hn, hf, hc, leaving]
  simp only [Nat.add_zero]

lemma answered (hs : Counted s) : Counted (replyPullWaiter cfg s) := by
  rcases replyPullWaiter_cases cfg s with
    ⟨h, -⟩ | ⟨w, line, queue, -, hw, -, h⟩ | ⟨w, e, -, hw, -, -, h⟩
  · rw [h]
    exact hs
  · rw [h]
    exact hs.released hw (.line line) rfl rfl rfl
  · rw [h]
    exact hs.released hw (.done e.terminal) rfl rfl rfl

lemma afterFrame (hs : Counted s) : Counted (afterFrame cfg s) := by
  have stop : Counted s.stop := hs
  rw [Duplex.afterFrame]
  split
  · exact stop
  · split
    · exact hs
    · split
      · exact hs
      · exact stop

lemma not_asking {m : Message} (h : m.quiet = true ∨ m.ends = true) (caller : Caller) :
    Entry.asks caller (.handled m) = false := by
  cases m with
  | call asking call =>
    cases call with
    | recv => rcases h with h | h <;> cases h
    | sendLine line => rfl
    | sendEof => rfl
  | _ => rfl

lemma served (hs : Counted s) (caller : Caller) (reply : RecvReply)
    (hl : t.log = ((s.hear (.handled (.call caller .recv))).tell [.recvReply caller reply]).log)
    (hw : t.waiter = s.waiter) (hf : t.farewell = s.farewell) : Counted t := by
  intro c
  obtain ⟨h1, h2⟩ := tell_log (s.hear (.handled (.call caller .recv))) caller c reply
  obtain ⟨h3, h4⟩ := hear_log s (.call caller .recv) c
  have hc := hs c
  rw [waiting, leaving, hl, hw, hf, h1, h2, h3, h4, hc, waiting, leaving]
  by_cases h : caller = c
  · simp only [Entry.asks, h, beq_self_eq_true, if_true]
    omega
  · simp only [Entry.asks, h, beq_eq_false_iff_ne.mpr h, if_false, Bool.false_eq_true]
    omega

lemma told_log (s : State) (effects : List Effect)
    (h : ∀ e ∈ effects, ∀ caller, Entry.answers caller (.did e) = false) (caller : Caller) :
    (s.tell effects).log.asked caller = s.log.asked caller ∧
      (s.tell effects).log.answered caller = s.log.answered caller := by
  have h1 : Log.asked caller (effects.map .did) = 0 := by
    rw [Log.asked, List.countP_map, List.countP_eq_zero]
    exact fun _ _ => Bool.false_ne_true
  have h2 : Log.answered caller (effects.map .did) = 0 := by
    rw [Log.answered, List.countP_map, List.countP_eq_zero]
    intro e he
    simp [h e he caller]
  rw [State.tell, Log.asked, Log.answered, List.countP_append, List.countP_append]
  exact ⟨congrArg _ h1, congrArg _ h2⟩

lemma told (hs : Counted s) {effects : List Effect}
    (h : ∀ e ∈ effects, ∀ caller, Entry.answers caller (.did e) = false) :
    Counted (s.tell effects) := by
  intro caller
  obtain ⟨h1, h2⟩ := told_log s effects h caller
  rw [h1, h2]
  exact hs caller

lemma flushedMessages_silent (cfg : Options) (s : State) :
    ∀ e ∈ flushedMessages cfg s, ∀ caller, Entry.answers caller (.did e) = false := by
  intro e he caller
  obtain ⟨line, -, rfl⟩ := List.mem_map.mp he
  rfl

lemma flushBuffers (hs : Counted s) : Counted (flushBuffers cfg s) := by
  rw [Duplex.flushBuffers]
  cases cfg.delivery with
  | pull => exact hs
  | messages => exact hs.told (flushedMessages_silent cfg s)

lemma flushMessages (hs : Counted s) : Counted (flushMessages cfg s) := by
  rw [Duplex.flushMessages]
  cases cfg.delivery with
  | pull => exact hs
  | messages => exact hs.told (flushedMessages_silent cfg s)

lemma ending (hs : Counted s) (h : Ending cfg s t) : Counted t := by
  obtain ⟨u, hu, ht⟩ := h
  exact (hs.aside hu).flushMessages.aside ht

end Counted

lemma grantStreamCredit_told (cfg : Options) (s : State) (p : Pipe) :
    ∃ effects : List Effect, (∀ e ∈ effects, ∃ q n, e = .command (.credit q n)) ∧
      (grantStreamCredit cfg s p).log = s.log ++ effects.map .did := by
  rw [grantStreamCredit]
  split
  · exact ⟨[], by simp, by simp⟩
  · split
    · exact ⟨[.command (.credit p (cfg.maxPendingBytes - s.outstanding p))],
        fun e he => ⟨p, _, List.mem_singleton.mp he⟩, rfl⟩
    · exact ⟨[], by simp, by simp⟩

lemma grantPullCredit_told (cfg : Options) (s : State) :
    ∃ effects : List Effect, (∀ e ∈ effects, ∃ q n, e = .command (.credit q n)) ∧
      (grantPullCredit cfg s).log = s.log ++ effects.map .did := by
  obtain ⟨es, he, hl⟩ := grantStreamCredit_told cfg s .stdout
  obtain ⟨fs, hf, hm⟩ := grantStreamCredit_told cfg (grantStreamCredit cfg s .stdout) .stderr
  refine ⟨es ++ fs, fun e hmem => ?_, ?_⟩
  · rcases List.mem_append.mp hmem with h | h
    · exact he e h
    · exact hf e h
  · rw [grantPullCredit, hm, hl, List.map_append, List.append_assoc]

lemma grantPullCredit_frame (cfg : Options) (s : State) :
    (grantPullCredit cfg s).phase = s.phase ∧ (grantPullCredit cfg s).farewell = s.farewell := by
  obtain ⟨o, l, heq⟩ := grantPullCredit_eq cfg s
  rw [heq]
  exact ⟨rfl, rfl⟩

lemma Even.granted (hs : Even s) : Even (grantPullCredit cfg s) := by
  obtain ⟨effects, -, hl⟩ := grantPullCredit_told cfg s
  obtain ⟨o, l, heq⟩ := grantPullCredit_eq cfg s
  have hq : (grantPullCredit cfg s).queue = s.queue := by rw [heq]
  refine hs.moved (by rw [heq]) (fun p => ?_) (fun p => ?_) fun p => ?_
  · rw [hl, lines_did]
  · rw [hl, segments_did]
  · rw [(grantPullCredit_log cfg s p).2.2.2.1, hq]

lemma Counted.granted (hs : Counted s) : Counted (grantPullCredit cfg s) := by
  obtain ⟨effects, he, hl⟩ := grantPullCredit_told cfg s
  obtain ⟨o, l, heq⟩ := grantPullCredit_eq cfg s
  intro caller
  obtain ⟨h1, h2⟩ := Counted.told_log s effects
    (fun e hm _ => by obtain ⟨_, _, rfl⟩ := he e hm; rfl) caller
  have hw : (grantPullCredit cfg s).waiter = s.waiter := by rw [heq]
  have hf : (grantPullCredit cfg s).farewell = s.farewell := by rw [heq]
  rw [waiting, leaving, hl, hw, hf]
  exact (h1.trans (hs caller)).trans (by rw [← h2]; rfl)

namespace Delivering

lemma even (hs : Delivering cfg s) (hl : Live cfg s) (hp : s.phase = .running) : Even s where
  lines p := by
    have h := hs.lines (hl.halt hp) (by rw [hp]; exact Phase.noConfusion) p
    have hsp : spilled cfg s p = [] := by
      rw [spilled, hp, if_neg]
      exact fun h => Bool.false_ne_true h.2.1
    rwa [hsp, parting, hl.noFarewell hp, List.append_nil, List.append_nil] at h
  carry := hs.carry (hl.halt hp)

lemma of_even (he : Even t) (hc : Counted t) (hp : t.phase.flushed = false)
    (hf : t.farewell = none) : Delivering cfg t where
  lines _ _ p := by
    have hsp : spilled cfg t p = [] := by
      rw [spilled, hp, if_neg]
      exact fun h => Bool.false_ne_true h.2.1
    rw [hsp, parting, hf, List.append_nil, List.append_nil]
    exact he.lines p
  carry _ := he.carry
  answers := hc

lemma of_halted (hh : t.halt = true) (hc : Counted t) : Delivering cfg t where
  lines h := by
    rw [hh] at h
    cases h
  carry h := by
    rw [hh] at h
    cases h
  answers := hc

lemma afterFrame_frame (cfg : Options) (s : State) :
    (afterFrame cfg s).farewell = s.farewell ∧
      (s.phase = .running → (afterFrame cfg s).phase.flushed = false) := by
  rw [afterFrame]
  split
  · exact ⟨rfl, fun _ => rfl⟩
  · split
    · exact ⟨rfl, fun h => by rw [h]; rfl⟩
    · split
      · exact ⟨rfl, fun h => by rw [h]; rfl⟩
      · exact ⟨rfl, fun _ => rfl⟩

lemma turn (hs : Delivering cfg s) (hl : Live cfg s) (hp : s.phase = .running) {m : Message}
    (h : Turn cfg (s.hear (.handled m)) m t) : Delivering cfg t := by
  have he := hs.even hl hp
  have hc := hs.answers
  have hf := hl.noFarewell hp
  cases h with
  | aside hm h =>
    have hq := Message.quiet_output (.inl hm)
    have hfl : m.flushes = false := by
      cases m with
      | port event =>
        cases event with
        | exitStatus => cases hm
        | data tag payload => cases tag <;> first | rfl | cases hm
      | _ => rfl
    refine of_even ((he.heard hfl hq).aside h) ((hc.heard (Counted.not_asking (.inl hm))).aside h) ?_ ?_
    · rw [h.phase, show (s.hear (.handled m)).phase = s.phase from rfl, hp]
      rfl
    · exact h.farewell.trans hf
  | limited p chunk limit _ =>
    exact of_halted rfl (hc.heard (m := .port (.data (Tag.ofPipe p) chunk)) fun _ => rfl)
  | accepted p chunk _ h =>
    obtain ⟨q, w, l, heq⟩ := replyPullWaiter_eq cfg
      (accept (s.hear (.handled (.port (.data (Tag.ofPipe p) chunk)))) p chunk)
    have hc' : Counted (accept (s.hear (.handled (.port (.data (Tag.ofPipe p) chunk)))) p chunk) :=
      hc.heard (m := .port (.data (Tag.ofPipe p) chunk)) fun _ => rfl
    refine of_even (he.accepted p chunk).answered hc'.answered ?_ ?_
    · rw [heq]
      change s.phase.flushed = false
      rw [hp]
      rfl
    · rw [heq]
      exact hf
  | relayed p chunk hd =>
    have hq := hl.messages hd
    have hc' : Counted (s.hear (.handled (.port (.data (Tag.ofPipe p) chunk)))) :=
      hc.heard fun _ => rfl
    refine of_even (he.relayed hq p chunk rfl) (hc'.told ?_) ?_ hf
    · intro e hm caller
      obtain ⟨line, -, rfl⟩ := List.mem_map.mp hm
      rfl
    · change s.phase.flushed = false
      rw [hp]
      rfl
  | @ended _ e u w v hm hu hw hv hg hx =>
    obtain ⟨hk, -⟩ := flushed_iff hw
    obtain ⟨q, x, l, heq⟩ := replyPullWaiter_eq cfg v
    have hcu : Counted u := (hc.heard (Counted.not_asking (.inr hm))).aside hu
    have hw' : Even w ∧ Counted w := by
      cases hfl : m.flushes with
      | true =>
        rw [hfl, if_pos rfl] at hw
        rw [hw]
        exact ⟨he.flushed hfl hu hl.messages, hcu.flushBuffers⟩
      | false =>
        rw [hfl, if_neg Bool.false_ne_true] at hw
        rw [hw]
        exact ⟨(he.heard hfl (Message.quiet_output (.inr hm))).aside hu, hcu⟩
    have hev : Even v := Even.aside (s := { w with exit := some e }) ⟨hw'.1.lines, hw'.1.carry⟩ hv
    have hcv : Counted v := Counted.aside (s := { w with exit := some e }) hw'.2 hv
    obtain ⟨hfr, hph⟩ := afterFrame_frame cfg (replyPullWaiter cfg v)
    refine of_even hev.answered.afterFrame hcv.answered.afterFrame (hph ?_) (hfr.trans ?_)
    · rw [heq]
      exact hv.phase.trans (hk.phase.trans (hu.phase.trans hp))
    · rw [heq]
      exact hv.farewell.trans (hk.farewell.trans (hu.farewell.trans hf))
  | refused caller reply hr =>
    have heh := he.heard (m := .call caller .recv) rfl fun _ => rfl
    refine of_even (heh.replied caller reply ?_) (hc.served caller reply rfl rfl rfl) ?_ hf
    · rcases hr with rfl | rfl <;> exact fun _ => rfl
    · change s.phase.flushed = false
      rw [hp]
      rfl
  | last caller line hd hw hq hx =>
    have heh := he.heard (m := .call caller .recv) rfl fun _ => rfl
    refine ⟨fun _ _ p => ?_, fun _ => heh.carry, ?_⟩
    · have hlp := heh.lines p
      have hqh : (s.hear (.handled (.call caller .recv))).queue = [line] := hq
      rw [hqh, queued_cons, queued_nil, List.append_nil] at hlp
      have hsp : spilled cfg ({ s.hear (.handled (.call caller .recv)) with queue := [] }.stopWith
          caller (.line line)) p = [] := if_neg fun h => Bool.false_ne_true h.2.1
      rw [hsp]
      change _ ++ (if line.pipe = p then [line.bytes] else []) ++ queued p [] = _ ++ []
      rw [queued_nil, List.append_nil, List.append_nil]
      exact hlp
    · intro c
      obtain ⟨h1, h2⟩ := Counted.hear_log s (.call caller .recv) c
      have hcc := hc c
      rw [waiting, leaving, hf, show s.waiter = none from hw] at hcc
      have hgo : waiting c s = 0 := by rw [waiting, show s.waiter = none from hw]
      change (s.hear _).log.asked c = (s.hear _).log.answered c + waiting c s +
        if caller = c then 1 else 0
      rw [hgo]
      rw [h1, h2, hcc]
      by_cases h : caller = c <;> simp [Entry.asks, h]
  | popped caller line queue hd hw hq hx =>
    have heh := he.heard (m := .call caller .recv) rfl fun _ => rfl
    refine of_even ?_ (hc.served caller (.line line) rfl rfl rfl) ?_ hf
    · have hqh : (s.hear (.handled (.call caller .recv))).queue = line :: queue := hq
      refine heh.moved rfl (fun p => lines_did p _ [_]) (fun p => segments_did p _ [_]) fun p => ?_
      rw [hqh, queued_cons, ← List.append_assoc, State.tell, Log.delivered_append]
      congr 2
      exact List.append_nil _
    · change s.phase.flushed = false
      rw [hp]
      rfl
  | waits caller hd hw hq hx =>
    have heh := he.heard (m := .call caller .recv) rfl fun _ => rfl
    let u : State := { s.hear (.handled (.call caller .recv)) with
      waiter := some ⟨caller, s.refs⟩, refs := s.refs + 1 }
    have hcu : Counted u := by
      intro c
      obtain ⟨h1, h2⟩ := Counted.hear_log s (.call caller .recv) c
      have hcc := hc c
      rw [waiting, leaving, hf, show s.waiter = none from hw] at hcc
      change (s.hear _).log.asked c = (s.hear _).log.answered c + (if caller = c then 1 else 0) +
        leaving c s
      rw [leaving, hf, h1, h2, hcc]
      by_cases h : caller = c <;> simp [Entry.asks, h]
    have hfr := grantPullCredit_frame cfg u
    exact of_even (Even.granted (s := u) ⟨heh.lines, heh.carry⟩) hcu.granted
      (congrArg Phase.flushed (hfr.1.trans hp)) (hfr.2.trans hf)
  | expired waiter hw =>
    have heh := he.heard (m := .recvTimeout waiter.ref) rfl fun _ => rfl
    have hch : Counted (s.hear (.handled (.recvTimeout waiter.ref))) := hc.heard fun _ => rfl
    refine of_even ?_ (hch.released hw .timeout rfl rfl rfl) ?_ hf
    · have hr := heh.replied waiter.caller .timeout fun _ => rfl
      exact ⟨hr.lines, hr.carry⟩
    · change s.phase.flushed = false
      rw [hp]
      rfl
  | stops cause hm =>
    have heh := he.heard (m := m) (by rcases hm with rfl | rfl <;> rfl)
      (by rcases hm with rfl | rfl <;> exact fun _ => rfl)
    have hch : Counted (s.hear (.handled m)) :=
      hc.heard (by rcases hm with rfl | rfl <;> exact fun _ => rfl)
    exact of_even ⟨heh.lines, heh.carry⟩ hch rfl hf

lemma onward (hs : Delivering cfg s) (hk : s.phase ≠ .killed) {phase : Phase}
    (hf : phase.flushed = s.phase.flushed) : Delivering cfg { s with phase := phase } where
  lines hh _ p := by
    have hsp : spilled cfg { s with phase := phase } p = spilled cfg s p := by
      rw [spilled, spilled, ← hf]
    rw [hsp]
    exact hs.lines hh hk p
  carry := hs.carry
  answers := hs.answers

lemma missed (hs : Delivering cfg s) {entry : Entry} {event : PortEvent}
    (he : entry = .awaited event ∨ entry = .drained event) : Delivering cfg (s.hear entry) := by
  have hx : ∀ p segments, entry.extend p segments = segments := by
    rcases he with rfl | rfl <;> exact fun _ _ => rfl
  have hq : ∀ p caller, entry.delivered p = [] ∧ entry.asks caller = false ∧
      entry.answers caller = false := by
    rcases he with rfl | rfl <;> exact fun _ _ => ⟨rfl, rfl, rfl⟩
  have hseg : ∀ p, (s.hear entry).log.segments p = s.log.segments p := by
    intro p
    rw [show (s.hear entry).log = s.log ++ [entry] from rfl, segments_append, hx]
  refine ⟨fun hh hk p => ?_, fun hh p => ?_, fun caller => ?_⟩
  · have hl : (s.hear entry).log.delivered p = s.log.delivered p := by
      rw [show (s.hear entry).log = s.log ++ [entry] from rfl, Log.delivered_append]
      simp [Log.delivered, (hq p 0).1]
    rw [hl, Log.lines, hseg]
    exact hs.lines hh hk p
  · rw [hseg]
    exact hs.carry hh p
  · have hc := hs.answers caller
    rw [show (s.hear entry).log = s.log ++ [entry] from rfl, Log.asked, Log.answered,
      List.countP_append, List.countP_append, List.countP_singleton, List.countP_singleton,
      (hq .stdout caller).2.1, (hq .stdout caller).2.2]
    exact hc

lemma told (hs : Delivering cfg s) {effects : List Effect}
    (hd : ∀ e ∈ effects, ∀ p, Entry.delivered p (.did e) = [])
    (ha : ∀ e ∈ effects, ∀ caller, Entry.answers caller (.did e) = false) :
    Delivering cfg (s.tell effects) := by
  refine ⟨fun hh hk p => ?_, fun hh p => ?_, hs.answers.told ha⟩
  · have hl : (s.tell effects).log.delivered p = s.log.delivered p := by
      rw [State.tell, Log.delivered_append, Log.delivered, Log.delivered, List.flatMap_map,
        List.flatMap_eq_nil_iff.mpr fun e he => hd e he p, List.append_nil]
    rw [hl, show (s.tell effects).log.lines p = s.log.lines p from lines_did p s.log effects]
    exact hs.lines hh hk p
  · rw [show (s.tell effects).log.segments p = s.log.segments p from segments_did p s.log effects]
    exact hs.carry hh p

lemma ending (hs : Delivering cfg s) (hl : Live cfg s) (hp : s.phase = .stopping)
    (h : Ending cfg s t) {phase : Phase} (hf : phase.flushed = true) :
    Delivering cfg { t with phase := phase } := by
  have hc : Counted t := hs.answers.ending h
  refine ⟨fun hh _ p => ?_, fun hh p => ?_, hc⟩
  · obtain ⟨u, hu, ht⟩ := h
    have hsu := hs.aside hu
    have hlu := hl.aside hu
    have hup : u.phase = .stopping := hu.phase.trans hp
    have hd : (flushMessages cfg u).log.delivered p ++ parting p u ++ queued p u.queue =
        u.log.lines p ++ if cfg.delivery = .messages ∧ u.buffers p ≠ [] then [u.buffers p] else [] := by
      have hhu : u.halt = false := by
        have hm : (flushMessages cfg u).halt = u.halt := by
          rw [flushMessages]
          cases cfg.delivery <;> rfl
        exact hm.symm.trans (ht.halt.symm.trans hh)
      have hls := hsu.lines hhu (by rw [hup]; exact Phase.noConfusion) p
      have hsp : spilled cfg u p = [] := by
        rw [spilled, hup]
        exact if_neg fun h => Bool.false_ne_true h.2.1
      rw [hsp, List.append_nil] at hls
      rw [flushMessages]
      cases hdel : cfg.delivery with
      | pull =>
        rw [if_neg fun h => Delivery.noConfusion h.1, List.append_nil]
        exact hls
      | messages =>
        have hpt : parting p u = [] := by
          cases hfw : u.farewell with
          | none => rw [parting, hfw]
          | some f =>
            have hpull := (hlu.farewell (hfw ▸ rfl)).2.1
            rw [hdel] at hpull
            cases hpull
        rw [hpt, hlu.messages hdel, queued_nil, List.append_nil, List.append_nil] at hls ⊢
        simp only [State.tell]
        rw [Log.delivered_append, flushedMessages, Even.delivered_owner, Even.queued_flushed, hls]
        by_cases hb : u.buffers p = [] <;> simp [hb]
    have hfm : (flushMessages cfg u).queue = u.queue ∧ (flushMessages cfg u).farewell = u.farewell ∧
        (flushMessages cfg u).buffers = u.buffers := by
      rw [flushMessages]
      cases cfg.delivery <;> exact ⟨rfl, rfl, rfl⟩
    have hlines : (flushMessages cfg u).log.lines p = u.log.lines p := by
      rw [flushMessages]
      cases cfg.delivery with
      | pull => rfl
      | messages => exact lines_did p u.log _
    have hpt : parting p { t with phase := phase } = parting p u := by
      rw [parting, parting, show ({ t with phase := phase } : State).farewell = u.farewell from
        ht.farewell.trans hfm.2.1]
    have hsp : spilled cfg { t with phase := phase } p =
        if cfg.delivery = .messages ∧ u.buffers p ≠ [] then [u.buffers p] else [] := by
      rw [spilled, show ({ t with phase := phase } : State).buffers = u.buffers from
        ht.buffers.trans hfm.2.2, show ({ t with phase := phase } : State).phase.flushed = true
        from hf]
      simp only [true_and]
    rw [hpt, hsp]
    change t.log.delivered p ++ parting p u ++ queued p t.queue = t.log.lines p ++ _
    rw [ht.delivered, ht.queue, ht.lines, hfm.1, hlines]
    exact hd
  · obtain ⟨u, hu, ht⟩ := h
    have hfm : (flushMessages cfg u).buffers = u.buffers ∧
        (flushMessages cfg u).halt = u.halt ∧
        (flushMessages cfg u).log.segments p = u.log.segments p := by
      rw [flushMessages]
      cases cfg.delivery with
      | pull => exact ⟨rfl, rfl, rfl⟩
      | messages => exact ⟨rfl, rfl, segments_did p u.log _⟩
    change t.buffers p = Lines.rest newline (t.log.segments p).2
    rw [ht.buffers, ht.segments, hfm.1, hfm.2.2]
    exact (hs.aside hu).carry (hfm.2.1.symm.trans (ht.halt.symm.trans hh)) p

lemma left (hs : Delivering cfg s) (hp : s.phase = .published) :
    Delivering cfg s.leave := by
  have hlog : ∀ p, s.leave.log.delivered p = s.log.delivered p ++ parting p s := by
    intro p
    rw [State.leave, State.tell, Log.delivered_append, parting]
    cases s.farewell with
    | none => rfl
    | some f =>
      obtain ⟨caller, reply⟩ := f
      cases reply with
      | line line =>
        change _ ++ ((if line.pipe = p then [line.bytes] else []) ++ []) = _
        rw [List.append_nil]
      | _ => rfl
  refine ⟨fun hh hk p => ?_, fun hh p => ?_, fun caller => ?_⟩
  · have hls := hs.lines hh (by rw [hp]; exact Phase.noConfusion) p
    have hln : s.leave.log.lines p = s.log.lines p := lines_did p s.log _
    have hsp : spilled cfg s.leave p = spilled cfg s p := by
      rw [spilled, spilled, hp]
      rfl
    rw [hlog, hln, hsp]
    change _ ++ [] ++ queued p s.queue = _
    rw [List.append_nil]
    exact hls
  · have hsg : s.leave.log.segments p = s.log.segments p := segments_did p s.log _
    rw [hsg]
    exact hs.carry hh p
  · have hc := hs.answers caller
    rw [leaving] at hc
    have ha : s.leave.log.asked caller = s.log.asked caller := by
      rw [State.leave, State.tell, Log.asked, List.countP_append]
      cases s.farewell <;> rfl
    have hb : s.leave.log.answered caller = s.log.answered caller +
        match s.farewell with
        | some (last, _) => if last = caller then 1 else 0
        | none => 0 := by
      rw [State.leave, State.tell, Log.answered, List.countP_append]
      cases s.farewell with
      | none => rfl
      | some f =>
        obtain ⟨last, reply⟩ := f
        by_cases h : last = caller <;> simp [Entry.answers, h, Log.answered]
    rw [ha, hb, hc]
    change _ = _ + waiting caller s + 0
    omega

lemma move (hs : Delivering cfg s) (hl : Live cfg s) {l : Label} (h : Move cfg s l t) :
    Delivering cfg t := by
  cases h with
  | release => exact ⟨hs.lines, hs.carry, hs.answers⟩
  | turn answers hp h => exact hs.turn hl hp h
  | settled e kill hp he h => exact hs.ending hl hp h rfl
  | killing kill hp he h => exact hs.ending hl hp h rfl
  | gaveUp result kill hp he h => exact hs.ending hl hp h rfl
  | noted event hp h => exact (hs.missed (.inl rfl)).aside h
  | concluded result event hp h hx =>
    have hph := h.phase.trans hp
    exact ((hs.missed (.inl rfl)).aside h).onward (by rw [hph]; exact Phase.noConfusion)
      (by rw [hph]; rfl)
  | expired hp h =>
    have hph := h.phase.trans hp
    exact (hs.aside h).onward (by rw [hph]; exact Phase.noConfusion) (by rw [hph]; rfl)
  | drained terminal event hp => exact hs.missed (.inr rfl)
  | published terminal hp =>
    have hst : Delivering cfg (s.store (·.insertNew terminal)) := ⟨hs.lines, hs.carry, hs.answers⟩
    have hp' : ∀ e ∈ Effect.published terminal :: if cfg.recipient then [.recipient terminal] else [],
        e = .published terminal ∨ e = .recipient terminal := by
      intro e he
      cases cfg.recipient <;> simp at he <;> tauto
    refine (hst.told ?_ ?_).onward ?_ ?_
    · intro e he p
      rcases hp' e he with rfl | rfl <;> rfl
    · intro e he caller
      rcases hp' e he with rfl | rfl <;> rfl
    · change s.phase ≠ .killed
      rw [hp]
      exact Phase.noConfusion
    · change Phase.flushed .published = s.phase.flushed
      rw [hp]
      rfl
  | left hp => exact hs.left hp
  | killed hp => exact ⟨fun _ hk => absurd rfl hk, hs.carry, hs.answers⟩

lemma step (hs : Delivering cfg s) (hl : Live cfg s) {l : Label} (h : step cfg s l = some t) :
    Delivering cfg t :=
  hs.move hl (step_move hl h)

end Delivering

lemma run_delivering {as : List Label} (h : Steps cfg (init cfg) as t) :
    Live cfg t ∧ Delivering cfg t :=
  h.invariant (I := fun s => Live cfg s ∧ Delivering cfg s)
    (fun _ _ _ hs ht => ⟨hs.1.step ht, hs.2.step hs.1 ht⟩) ⟨.init cfg, .init cfg⟩

end Forcola.Beam.Duplex
