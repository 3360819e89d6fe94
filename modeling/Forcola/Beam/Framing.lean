import Forcola.Beam.Confirming
import Forcola.Beam.DaemonLogger
import Forcola.Beam.StreamFraming

/-! Line reassembly does not depend on how the output was cut into frames, mode by mode. -/

namespace Forcola.Beam

open Library Transition
open Native (Bytes Pipe)

namespace Duplex

def Entry.notice : Entry → List OwnerMessage
  | .did (.owner (.line line)) => [.line line]
  | .did (.owner (.exit status)) => [.exit status]
  | _ => []

def Log.notices (log : Log) : List OwnerMessage :=
  log.flatMap Entry.notice

/-- The owner was sent every line, a tail included, each once, and then one exit notice. -/
def Announced (s : State) : Prop :=
  ∃ lines status, s.log.notices = lines.map OwnerMessage.line ++ [.exit status] ∧
    ∀ p, queued p lines = Lines.closed newline (s.log.received p)

structure Relaying (s : State) : Prop where
  notices : ∃ lines, s.log.notices = lines.map OwnerMessage.line ∧
    ∀ p, queued p lines = Lines.lines newline (s.log.received p)
  buffers : ∀ p, s.buffers p = Lines.rest newline (s.log.received p)

variable {cfg : Options} {s t u : State} {effects : List Effect}

def Effect.Unannounced (e : Effect) : Prop :=
  ∀ status, e ≠ .owner (.exit status)

lemma recordIdentity_unannounced (s : State) (payload : Bytes) :
    Adds Effect.Unannounced s (recordIdentity cfg s payload) := by
  rw [recordIdentity]
  split
  · split
    · next identity _ =>
      have h : Adds Effect.Unannounced (s.store ({ · with spawnIdentity := some identity }))
          ((s.store ({ · with spawnIdentity := some identity })).tell
            [.owner (.spawned identity)]) := by
        apply adds_tell
        intro e he status
        obtain rfl := List.mem_singleton.mp he
        simp
      exact (adds_of_log rfl).trans (h.trans (adds_of_log rfl))
    · exact adds_of_log rfl
  · exact adds_of_log rfl

lemma recordTracked_unannounced (s : State) (payload : Bytes) :
    Adds Effect.Unannounced s (recordTracked cfg s payload) := by
  have hkeep : ∀ (b : Bool) (x : State) (f : TerminalTable → TerminalTable) (tracking : Tracking),
      Adds Effect.Unannounced x { (if b then x.store f else x) with tracking := tracking } := by
    intro b x f tracking
    cases b <;> exact adds_of_log rfl
  rw [recordTracked]
  cases (s.tracking.record (cfg.json payload)).2 with
  | none => exact hkeep _ _ _ _
  | some identity =>
    refine Adds.trans (t := (s.store fun table =>
        { table with trackedGroups := table.trackedGroups ++ [identity] }).tell
      ((if cfg.observer then [Effect.observer (.tracked identity)] else []) ++
        [Effect.owner (.tracked identity)])) ?_ (hkeep _ _ _ _)
    refine Adds.trans (t := s.store _) (adds_of_log rfl) (adds_tell ?_)
    intro e he status
    rcases List.mem_append.mp he with he | he
    · split at he
      · obtain rfl := List.mem_singleton.mp he
        simp
      · cases he
    · obtain rfl := List.mem_singleton.mp he
      simp

lemma submitInput_unannounced (s : State) (caller : Caller) (frame : InputFrame)
    (answer : PortAnswer) : Adds Effect.Unannounced s (submitInput s caller frame answer) := by
  rw [submitInput.eq_def]
  split
  · cases answer with
    | ok =>
      apply adds_tell
      intro e he status
      rcases List.mem_pair.mp he with rfl | rfl <;> simp
    | closed =>
      apply adds_tell
      intro e he status
      obtain rfl := List.mem_singleton.mp he
      simp
    | busy => exact adds_of_log rfl
  · exact adds_of_log rfl

lemma failPending_unannounced (s : State) (reply : SendReply) :
    Adds Effect.Unannounced s (s.failPending reply) := by
  refine Adds.trans (adds_tell ?_) (adds_of_log rfl)
  intro e he status
  obtain ⟨entry, -, rfl⟩ := List.mem_map.mp he
  simp

lemma flushInput_unannounced (s : State) (pending : List Input) (answers : List PortAnswer) :
    Adds Effect.Unannounced s (flushInput s pending answers) := by
  induction pending generalizing s answers with
  | nil => exact adds_of_log rfl
  | cons entry rest ih =>
    cases answers with
    | nil => exact adds_of_log rfl
    | cons answer answers =>
      cases answer with
      | ok =>
        refine Adds.trans (adds_tell ?_) (ih _ answers)
        intro e he status
        rcases List.mem_pair.mp he with rfl | rfl <;> simp
      | closed =>
        exact Adds.trans (t := { s with pending := entry :: rest }) (adds_of_log rfl)
          (failPending_unannounced _ _)
      | busy => exact adds_of_log rfl

lemma expireInput_unannounced (s : State) (ref : Ref) :
    Adds Effect.Unannounced s (expireInput s ref) := by
  rw [expireInput]
  split
  · exact adds_of_log rfl
  · next entry _ _ =>
    have h : Adds Effect.Unannounced s { s.tell [.sendReply entry.caller .busy] with
        pending := s.pending.filter (·.ref ≠ ref) } := by
      refine Adds.trans (adds_tell ?_) (adds_of_log rfl)
      intro e he status
      obtain rfl := List.mem_singleton.mp he
      simp
    split
    · exact h.trans (adds_of_log rfl)
    · exact h

lemma tell_reply (s : State) (caller : Caller) (reply : RecvReply) :
    Adds Effect.Unannounced s (s.tell [.recvReply caller reply]) := by
  apply adds_tell
  intro e he status
  obtain rfl := List.mem_singleton.mp he
  simp

lemma handleCall_unannounced (hd : cfg.delivery = .messages) (s : State) (caller : Caller)
    (call : Call) (answer : PortAnswer) :
    Adds Effect.Unannounced s (handleCall cfg s caller call answer) := by
  have refused : Adds Effect.Unannounced s (s.tell [.sendReply caller .closed]) := by
    apply adds_tell
    intro e he status
    obtain rfl := List.mem_singleton.mp he
    simp
  cases call with
  | sendLine line =>
    rw [handleCall]
    split
    · exact refused
    · exact submitInput_unannounced s caller _ answer
  | sendEof =>
    rw [handleCall]
    split
    · exact refused
    · exact Adds.trans (t := { s with stdinOpen := false }) (adds_of_log rfl)
        (submitInput_unannounced _ caller _ answer)
  | recv =>
    rw [handleCall, handleRecv.eq_def, hd]
    exact tell_reply s caller .notPull

lemma handle_unannounced (hd : cfg.delivery = .messages) {m : Message} (hm : m.quiet = true)
    (s : State) (answers : List PortAnswer) :
    Adds Effect.Unannounced s (handle cfg s m answers) := by
  cases m with
  | call caller call => exact handleCall_unannounced hd s caller call _
  | port event =>
    cases event with
    | exitStatus => cases hm
    | data tag payload =>
      have after : ∀ {t : State}, Adds Effect.Unannounced s t →
          Adds Effect.Unannounced s (afterFrame cfg t) := fun {t} h =>
        h.trans (adds_of_log (afterFrame_exit t).2)
      cases tag with
      | spawned => exact after (recordIdentity_unannounced s payload)
      | tracked => exact after (recordTracked_unannounced s payload)
      | other => exact after (adds_of_log rfl)
      | stdout => cases hm
      | stderr => cases hm
      | exit => cases hm
      | error => cases hm
  | ownerDown => cases hm
  | recvTimeout ref =>
    rw [handle, handleRecvTimeout]
    split
    · split
      · exact Adds.trans (tell_reply s _ .timeout) (adds_of_log rfl)
      · exact adds_of_log rfl
    · exact adds_of_log rfl
  | flushInput =>
    exact Adds.trans (t := { s with flushTimer := false }) (adds_of_log rfl)
      (flushInput_unannounced _ _ answers)
  | sendTimeout ref => exact expireInput_unannounced s ref
  | stop => cases hm
  | other => exact adds_of_log rfl

lemma notices_append (a b : Log) : Log.notices (a ++ b) = Log.notices a ++ Log.notices b :=
  List.flatMap_append

lemma Effect.notice_quiet {e : Effect} (ha : e.aside = true) (hu : e.Unannounced) :
    Entry.notice (.did e) = [] := by
  cases e with
  | owner message =>
    cases message with
    | line line => cases ha
    | exit status => exact absurd rfl (hu status)
    | _ => rfl
  | _ => rfl

lemma notices_quiet (h : ∀ e ∈ effects, Entry.notice (.did e) = []) :
    Log.notices (effects.map .did) = [] := by
  apply List.flatMap_eq_nil_iff.mpr
  intro entry hentry
  obtain ⟨e, he, rfl⟩ := List.mem_map.mp hentry
  exact h e he

lemma notices_lines (lines : List Line) :
    Log.notices ((lines.map fun line => Effect.owner (.line line)).map .did) =
      lines.map OwnerMessage.line := by
  induction lines with
  | nil => rfl
  | cons line lines ih => exact congrArg (OwnerMessage.line line :: ·) ih

lemma exit_noticed {log : Log} {status : ExitStatus} (h : .did (.owner (.exit status)) ∈ log) :
    OwnerMessage.exit status ∈ log.notices :=
  List.mem_flatMap.mpr ⟨_, h, List.mem_singleton_self _⟩

namespace Relaying

lemma init (cfg : Options) : Relaying (init cfg) :=
  ⟨⟨[], rfl, fun _ => rfl⟩, fun _ => rfl⟩

lemma unannounced (h : Relaying s) (status : ExitStatus) : .did (.owner (.exit status)) ∉ s.log := by
  intro hin
  obtain ⟨lines, hlines, -⟩ := h.notices
  have hmem := exit_noticed hin
  rw [hlines] at hmem
  obtain ⟨line, -, heq⟩ := List.mem_map.mp hmem
  cases heq

lemma grow (h : Relaying s) {more : Log} (hlog : t.log = s.log ++ more)
    (hn : Log.notices more = []) (hr : ∀ p, Log.received p more = []) (hb : t.buffers = s.buffers) :
    Relaying t := by
  obtain ⟨lines, hlines, hqueued⟩ := h.notices
  have hreceived : ∀ p, t.log.received p = s.log.received p := by
    intro p
    rw [hlog, Log.received_append, hr, List.append_nil]
  refine ⟨⟨lines, ?_, fun p => ?_⟩, fun p => ?_⟩
  · rw [hlog, notices_append, hn, List.append_nil, hlines]
  · rw [hreceived, hqueued]
  · rw [hreceived, hb, h.buffers]

lemma heard (h : Relaying s) {m : Message} (hm : ∀ p, Entry.received p (.handled m) = []) :
    Relaying (s.hear (.handled m)) :=
  @grow s (s.hear (.handled m)) h [.handled m] rfl rfl
    (fun p => (List.flatMap_singleton ..).trans (hm p)) rfl

lemma aside (h : Relaying s) (ha : Aside s t) (hu : Adds Effect.Unannounced s t) : Relaying t := by
  obtain ⟨es, hes, hlog⟩ := ha.log
  have hquiet : ∀ e ∈ es, Entry.notice (.did e) = [] := by
    intro e he
    apply Effect.notice_quiet (hes e he)
    rcases hu e (hlog ▸ List.mem_append_right _ (List.mem_map_of_mem he)) with hin | hquiet
    · intro status heq
      subst heq
      exact h.unannounced status hin
    · exact hquiet
  exact h.grow hlog (notices_quiet hquiet) (fun p => Log.received_did es) ha.buffers

lemma relayed (h : Relaying s) (p : Pipe) (chunk : Bytes) {v : State}
    (hlog : v.log = s.log ++ [.handled (.port (.data (Tag.ofPipe p) chunk))])
    (hbuffers : v.buffers = s.buffers) :
    Relaying { v.tell ((Lines.lines newline (v.buffers p ++ chunk)).map fun line =>
        .owner (.line ⟨p, line⟩)) with
      buffers := Function.update v.buffers p (Lines.rest newline (v.buffers p ++ chunk)) } := by
  obtain ⟨lines, hlines, hqueued⟩ := h.notices
  rw [hbuffers]
  have hreceived : ∀ q, Log.received q (v.log ++ ((Lines.lines newline (s.buffers p ++ chunk)).map
      fun line => Effect.owner (.line ⟨p, line⟩)).map .did) =
        s.log.received q ++ if q = p then chunk else [] := by
    intro q
    rw [Log.received_append, Log.received_did, List.append_nil, hlog, Log.received_append]
    refine congrArg (s.log.received q ++ ·) ((List.flatMap_singleton ..).trans ?_)
    exact output_ofPipe p q chunk
  refine ⟨⟨lines ++ (Lines.lines newline (s.buffers p ++ chunk)).map (⟨p, ·⟩), ?_, fun q => ?_⟩,
    fun q => ?_⟩
  · change Log.notices (v.log ++ _) = _
    have hmap : ((Lines.lines newline (s.buffers p ++ chunk)).map
        fun line => Effect.owner (.line ⟨p, line⟩)) =
        (((Lines.lines newline (s.buffers p ++ chunk)).map fun line => (⟨p, line⟩ : Line)).map
          fun line => Effect.owner (.line line)) := by
      rw [List.map_map]
      rfl
    have hnone : Log.notices [.handled (.port (.data (Tag.ofPipe p) chunk))] = [] := rfl
    rw [hmap, notices_append, notices_lines, hlog, notices_append, hlines, List.map_append, hnone,
      List.append_nil]
  · change _ = Lines.lines newline (Log.received q (v.log ++ _))
    rw [hreceived, queued_append, queued_lines, hqueued]
    by_cases hq : p = q
    · subst hq
      rw [if_pos rfl, if_pos rfl, h.buffers, Lines.lines_append (s.log.received p)]
    · rw [if_neg hq, if_neg (Ne.symm hq), List.append_nil, List.append_nil]
  · change Function.update s.buffers p _ q = Lines.rest newline (Log.received q (v.log ++ _))
    rw [hreceived]
    by_cases hq : p = q
    · subst hq
      rw [if_pos rfl, Function.update_self, h.buffers, Lines.rest_append (s.log.received p)]
    · rw [if_neg (Ne.symm hq), List.append_nil, Function.update_of_ne (Ne.symm hq), h.buffers]

lemma step (h : s.phase = .running → Relaying s) (hd : cfg.delivery = .messages) (hl : Live cfg s)
    {l : Label} (hs : step cfg s l = some t) : t.phase = .running → Relaying t := by
  intro ht
  have hmove := step_move hl hs
  cases hmove with
  | release => exact @grow _ _ (h ht) [] (List.append_nil _).symm rfl (fun _ => rfl) rfl
  | @turn m t answers hp hturn =>
    have hr := h hp
    have hstep : handle cfg (s.hear (.handled m)) m answers = t := by
      rw [Duplex.step.eq_def, hp] at hs
      exact Option.some.inj hs
    have hpull : ∀ {P : Prop}, cfg.delivery = .pull → P := fun hpull => by
      cases hd.symm.trans hpull
    cases hturn with
    | aside hm ha =>
      exact (hr.heard (Message.quiet_output (.inl hm))).aside ha
        (hstep ▸ handle_unannounced hd hm _ answers)
    | limited p chunk limit hdel => exact hpull hdel
    | accepted p chunk hdel hfits => exact hpull hdel
    | relayed p chunk _ => exact hr.relayed p chunk rfl rfl
    | @ended _ _ u w v hm hu hw hv hg hx =>
      have hlive := hl.move (.turn answers hp (.ended _ hm hu hw hv hg hx))
      have hexit : (afterFrame cfg (replyPullWaiter cfg v)).exit.isSome := by
        rw [(afterFrame_exit _).1, (replyPullWaiter_frame cfg _).2, hv.exit]
        rfl
      exact hpull (hlive.ended ht hexit).1
    | refused caller reply hreply =>
      refine (hr.heard (fun p => rfl)).grow (t := (s.hear _).tell _) rfl ?_
        (fun p => Log.received_did _) rfl
      rfl
    | last caller line hdel => exact hpull hdel
    | popped caller line queue hdel => exact hpull hdel
    | waits caller hdel => exact hpull hdel
    | expired waiter hw => exact hpull (hl.waiter (hw ▸ rfl)).1
    | stops cause hm => cases ht
  | settled e kill hp he hending => cases ht
  | killing kill hp he hending => cases ht
  | gaveUp result kill hp he hending => cases ht
  | noted event hp ha hn =>
    have hphase : t.phase = .awaiting := ha.phase.trans hp
    cases ht.symm.trans hphase
  | concluded result event hp ha hx => cases ht
  | expired hp ha => cases ht
  | drained terminal event hp => cases hp.symm.trans ht
  | published terminal hp => cases ht
  | left hp => cases ht
  | killed hp => cases ht

end Relaying

lemma run_relaying {as : List Label} (hd : cfg.delivery = .messages)
    (h : Steps cfg (init cfg) as s) : Live cfg s ∧ (s.phase = .running → Relaying s) :=
  h.invariant (I := fun s => Live cfg s ∧ (s.phase = .running → Relaying s))
    (fun _ _ _ hs ht => ⟨hs.1.step ht, Relaying.step hs.2 hd hs.1 ht⟩)
    ⟨.init cfg, fun _ => .init cfg⟩

structure Parted (s : State) : Prop where
  announced : Announced s
  buffers : ∀ p, s.buffers p = []
  exit : s.exit.isSome
  phase : s.phase ≠ .running ∧ s.phase ≠ .awaiting

lemma Announced.grow {more : Log} (h : Announced s) (hlog : t.log = s.log ++ more)
    (hn : Log.notices more = []) (hr : ∀ p, Log.received p more = []) : Announced t := by
  obtain ⟨lines, status, hlines, hqueued⟩ := h
  refine ⟨lines, status, ?_, fun p => ?_⟩
  · rw [hlog, notices_append, hn, List.append_nil, hlines]
  · rw [hlog, Log.received_append, hr, List.append_nil, hqueued]

lemma finishTracking_log (cfg : Options) (s : State) (terminal : Terminal) : ∃ effects : List Effect,
    (∀ e ∈ effects, Entry.notice (.did e) = []) ∧
      (finishTracking cfg s terminal).log = s.log ++ effects.map .did := by
  rw [finishTracking]
  split
  · refine ⟨_, ?_, rfl⟩
    intro e he
    obtain ⟨event, -, rfl⟩ := List.mem_map.mp he
    rfl
  · exact ⟨[], by simp, (List.append_nil _).symm⟩

lemma failPending_log (s : State) (reply : SendReply) : ∃ effects : List Effect,
    (∀ e ∈ effects, Entry.notice (.did e) = []) ∧
      (s.failPending reply).log = s.log ++ effects.map .did := by
  refine ⟨s.pending.map fun entry => .sendReply entry.caller reply, ?_, rfl⟩
  intro e he
  obtain ⟨entry, -, rfl⟩ := List.mem_map.mp he
  rfl

lemma Relaying.announced (h : Relaying s) (hd : cfg.delivery = .messages) (status : ExitStatus) :
    Announced (notifyExit cfg (flushBuffers cfg s) status) := by
  obtain ⟨lines, hlines, hqueued⟩ := h.notices
  let tails := partials s.buffers (if cfg.stderrFirst then [.stderr, .stdout] else [.stdout, .stderr])
  have hlog : (notifyExit cfg (flushBuffers cfg s) status).log =
      s.log ++ (flushedMessages cfg s ++ [Effect.owner (.exit status)]).map .did := by
    rw [notifyExit, flushBuffers, hd]
    simp [State.tell]
  refine ⟨lines ++ tails, status, ?_, fun p => ?_⟩
  · have hexit : Log.notices ([Effect.owner (.exit status)].map .did) = [.exit status] := rfl
    rw [hlog, List.map_append, notices_append, notices_append, hexit, flushedMessages,
      notices_lines, hlines, List.map_append, List.append_assoc]
  · rw [hlog, Log.received_append, Log.received_did, List.append_nil, queued_append, hqueued,
      Even.queued_flushed, h.buffers]
    rfl

lemma exit_parts (h : Relaying s) (hd : cfg.delivery = .messages) (hh : s.halt = false)
    (payload : Bytes) : Parted (handleData cfg s .exit payload) := by
  let report := s.tracking.report (cfg.json payload)
  let terminal := exitTerminal report .childExit s.tracking
  let u := finishTracking cfg s terminal
  let v := notifyExit cfg (flushBuffers cfg u) (reportStatus report)
  let w := ({ v with exit := some ⟨reportStatus report, terminal⟩ }).failPending .closed
  have hu : Relaying u := by
    obtain ⟨effects, hquiet, hlog⟩ := finishTracking_log cfg s terminal
    exact h.grow hlog (notices_quiet hquiet) (fun p => Log.received_did effects)
      (finishTracking_aside cfg s terminal).buffers
  have hw : Announced w := by
    obtain ⟨effects, hquiet, hlog⟩ :=
      failPending_log { v with exit := some ⟨reportStatus report, terminal⟩ } .closed
    exact (hu.announced hd (reportStatus report)).grow hlog (notices_quiet hquiet)
      fun p => Log.received_did effects
  have hreply : replyPullWaiter cfg w = w := by rw [replyPullWaiter.eq_def, hd]
  have hbuffers : w.buffers = fun _ => [] := by
    change (notifyExit cfg (flushBuffers cfg u) _).buffers = _
    rw [notifyExit, flushBuffers, hd]
    rfl
  have hhalt : w.halt = false := by
    change (notifyExit cfg (flushBuffers cfg u) _).halt = _
    rw [notifyExit, flushBuffers, hd]
    exact (finishTracking_aside cfg s terminal).halt.trans hh
  have hstop : handleData cfg s .exit payload = w.stop := by
    change afterFrame cfg (replyPullWaiter cfg w) = _
    rw [hreply, afterFrame_ended hhalt rfl, if_neg (by simp [hd])]
  rw [hstop]
  exact ⟨hw, fun p => congrFun hbuffers p, rfl, by simp [State.stop], by simp [State.stop]⟩

lemma Parted.step (h : Parted s) {l : Label} (hs : step cfg s l = some t) : Parted t := by
  rw [Duplex.step.eq_def] at hs
  split at hs
  · obtain rfl := Option.some.inj hs
    exact ⟨h.announced, h.buffers, h.exit, h.phase⟩
  · next hp => exact absurd hp h.phase.1
  · next kill hp =>
    obtain rfl := Option.some.inj hs
    have hnone : flushedMessages cfg (s.failPending .closed) = [] := by
      have hb : (s.failPending .closed).buffers = fun _ => [] := funext h.buffers
      rw [flushedMessages, hb]
      cases cfg.stderrFirst <;> rfl
    have hflush : flushMessages cfg (s.failPending .closed) = s.failPending .closed := by
      rw [flushMessages, hnone]
      split
      · simp [State.tell]
      · rfl
    obtain ⟨ended, hended⟩ := Option.isSome_iff_exists.mp h.exit
    obtain ⟨effects, hquiet, hlog⟩ := failPending_log s .closed
    obtain ⟨more, hmore, hlog'⟩ := finishTracking_log cfg (s.failPending .closed) ended.terminal
    have ha : Announced (finishTracking cfg (s.failPending .closed) ended.terminal) :=
      (h.announced.grow (t := s.failPending .closed) hlog (notices_quiet hquiet)
        fun p => Log.received_did effects).grow hlog' (notices_quiet hmore)
          fun p => Log.received_did more
    have hb := (finishTracking_aside cfg (s.failPending .closed) ended.terminal).buffers
    have he := (finishTracking_aside cfg (s.failPending .closed) ended.terminal).exit
    rw [terminate, hflush, settle.eq_def]
    have hexit : (s.failPending .closed).exit = some ended := hended
    rw [hexit]
    refine ⟨ha, fun p => ?_, ?_, by simp, by simp⟩
    · exact (congrFun hb p).trans (h.buffers p)
    · exact (congrArg Option.isSome he).trans h.exit
  · next hp => exact absurd hp h.phase.2
  · next hp => exact absurd hp h.phase.2
  · next terminal event hp =>
    obtain rfl := Option.some.inj hs
    exact ⟨h.announced.grow (t := s.hear (.drained event)) rfl rfl fun p => rfl, h.buffers, h.exit,
      by simp [State.hear, hp], by simp [State.hear, hp]⟩
  · next terminal hp =>
    obtain rfl := Option.some.inj hs
    refine ⟨h.announced.grow (t := publish cfg s terminal) rfl ?_ fun p => Log.received_did _,
      h.buffers, h.exit, by simp [publish], by simp [publish]⟩
    apply notices_quiet
    intro e he
    cases hr : cfg.recipient <;> simp [hr] at he
    · subst he
      rfl
    · rcases he with rfl | rfl <;> rfl
  · next hp =>
    obtain rfl := Option.some.inj hs
    refine ⟨h.announced.grow (t := s.leave) rfl ?_ fun p => Log.received_did _, h.buffers, h.exit,
      by simp [State.leave], by simp [State.leave]⟩
    apply notices_quiet
    intro e he
    obtain ⟨reply, -, rfl⟩ := List.mem_map.mp he
    rfl
  · cases hs
  · cases hs
  · next hp =>
    obtain rfl := Option.some.inj hs
    exact ⟨h.announced, h.buffers, h.exit, by simp, by simp⟩
  · cases hs

lemma exit_announces {as bs : List Label} {payload : Bytes} {answers : List PortAnswer}
    (hd : cfg.delivery = .messages) (h : Steps cfg (init cfg) as s) (hp : s.phase = .running)
    (ht : step cfg s (.message (.port (.data .exit payload)) answers) = some t)
    (hu : Steps cfg t bs u) : Announced u := by
  obtain ⟨hl, hr⟩ := run_relaying hd h
  have hparted : Parted t := by
    rw [step.eq_def, hp] at ht
    obtain rfl := Option.some.inj ht
    exact exit_parts ((hr hp).heard fun p => by cases p <;> rfl) hd (hl.halt hp) payload
  exact (hu.invariant (fun _ _ _ hs hst => Parted.step hs hst) hparted).announced

end Duplex

namespace Daemon.Logger

variable {cfg : Options} {clock : ℕ → Instant} {stderrFirst : Bool} {w v : Logger}
  {labels : List LoggerLabel}

lemma exit_over
    (hp : w.server.phase = .starting ∨ w.server.phase = .running) {payload : Bytes}
    (h : step cfg clock stderrFirst w (.server (.message (.data .exit payload))) = some v) :
    Over v := by
  rcases step_cases h with ⟨hl, -⟩ | ⟨label, server, hl, -, hserver, rfl⟩
  · cases hl
  · obtain rfl := LoggerLabel.server.inj hl
    have hstopped : ∃ reason, server.phase = .stopped reason := by
      rw [Daemon.step.eq_def] at hserver
      rcases hp with hp | hp
      · rw [hp] at hserver
        obtain rfl := Option.some.inj hserver
        exact ⟨_, rfl⟩
      · rw [hp] at hserver
        obtain rfl := Option.some.inj hserver
        exact ⟨_, rfl⟩
    have hfollow : (follow stderrFirst w (.message (.data .exit payload)) server).server = server := by
      rw [follow.eq_def]
      split
      · rfl
      · split <;> rfl
      · rfl
      · rfl
    rw [Over, hfollow]
    exact .inr hstopped

end Daemon.Logger

/-- Every mode that emits lines, at the EXIT frame that ends the session or at the line limit: the
lines do not depend on the cuts. A daemon that was not ready yet keeps its tails. -/
theorem lines_reassembled (stream : Stream.Options) (clock : ℕ → Instant)
    (timeoutMs reads : ℕ) (duplex : Duplex.Options) (daemon : Daemon.Options)
    (daemonClock : ℕ → Instant) (stderrFirst : Bool) :
    (∀ (labels : List Stream.Label) (s : Stream.State),
      Run (fun s l t => Stream.step stream clock s l = some t)
        (Stream.start stream clock timeoutMs reads) labels s →
      (∀ wait payload t, s.phase = .receiving wait →
        Stream.step stream clock s (.message (.data .exit payload)) = some t →
        Stream.Reassembled stream (Stream.fed stream s.log) t ∧ ¬Stream.LineLimited t ∧
          t.phase = .ready) ∧
      (Stream.LineLimited s → ∀ text, Stream.fed stream s.log <+: text →
        Stream.Reassembled stream text s)) ∧
    (∀ (as bs : List Duplex.Label) (s t u : Duplex.State) (payload : Bytes)
      (answers : List Duplex.PortAnswer), duplex.delivery = .messages →
      Duplex.Steps duplex (Duplex.init duplex) as s → s.phase = .running →
      Duplex.step duplex s (.message (.port (.data .exit payload)) answers) = some t →
      Duplex.Steps duplex t bs u → Duplex.Announced u) ∧
    ∀ (labels : List Daemon.LoggerLabel) (w v : Daemon.Logger) (payload : Bytes),
      Run (fun w l v => Daemon.Logger.step daemon daemonClock stderrFirst w l = some v)
        (Daemon.Logger.start daemon) labels w → w.crashed = false →
      w.server.phase = .starting ∨ w.server.phase = .running →
      Daemon.Logger.step daemon daemonClock stderrFirst w (.server (.message (.data .exit payload))) =
        some v →
      Daemon.Logger.Over v ∧
        ((∀ p, v.loggedOf p = Lines.closed newline (v.server.output p)) ↔
          .server .ready ∈ labels ∨ ∀ p, Lines.rest newline (v.server.output p) = []) := by
  refine ⟨fun labels s h => ⟨?_, ?_⟩, ?_, ?_⟩
  · intro wait payload t hp hs
    exact Stream.exit_reassembled h hp hs
  · exact fun hl text ht => Stream.limited_reassembled h hl ht
  · intro as bs s t u payload answers hd h hp ht hu
    exact Duplex.exit_announces hd h hp ht hu
  · intro labels w v payload h hc hp hv
    have ho := Daemon.Logger.exit_over hp hv
    have hlogs := (Daemon.Logger.run_logs (h.snoc hv)).complete_iff ho
    have hready : Daemon.LoggerLabel.server .ready ≠ .server (.message (.data .exit payload)) := by
      simp
    simp only [List.mem_append, List.mem_singleton, hready, or_false] at hlogs
    exact ⟨ho, hlogs⟩

def narrow : Stream.Options := { Stream.idleStream 300 false with maxLineBytes := some 1 }

def narrowRun : List Stream.Label :=
  [.pull, .message (.data .stdout [97, 10, 98, 98]), .message (.data .exit [])]

def daemonRun (ready : List Daemon.LoggerLabel) : List Daemon.LoggerLabel :=
  ready ++ [.server (.message (.data .stdout [97, 10, 98]))]

theorem lines_reassembled_small :
    (∃ s, exec (Stream.step narrow fun _ => 0) (Stream.start narrow (fun _ => 0) 1000 0) narrowRun =
        some s ∧
      Stream.emittedLines s.log = (Lines.closed newline [97, 10, 98, 98, 98, 10, 99]).takeWhile
        (Stream.fits narrow) ∧
      ∃ line ∈ Lines.closed newline [97, 10, 98, 98, 98, 10, 99],
        Stream.fits narrow line = false) ∧
    (∃ t, exec (Duplex.step (Duplex.smallOptions .messages)) (Duplex.init (Duplex.smallOptions .messages))
        [Duplex.output .stdout [97, 10, 98], Duplex.exited] = some t ∧ Duplex.Announced t) ∧
    ∃ v, exec (Daemon.Logger.step Daemon.Logger.quietDaemon (fun _ => 0) false)
        (Daemon.Logger.start Daemon.Logger.quietDaemon)
        (daemonRun [.server .ready] ++ [.server (.message (.data .exit []))]) = some v ∧
      ∀ p, v.loggedOf p = Lines.closed newline (v.server.output p) := by
  obtain ⟨hstream, hduplex, hdaemon⟩ := lines_reassembled narrow (fun _ => 0) 1000 0
    (Duplex.smallOptions .messages) Daemon.Logger.quietDaemon (fun _ => 0) false
  refine ⟨?_, ?_, ⟨_, rfl, ?_⟩⟩
  · obtain ⟨s, hs, hlimited⟩ : ∃ s, exec (Stream.step narrow fun _ => 0)
        (Stream.start narrow (fun _ => 0) 1000 0) narrowRun = some s ∧ Stream.LineLimited s :=
      ⟨_, rfl, _, false, 1, rfl, rfl⟩
    obtain ⟨hemitted, hline⟩ := (hstream narrowRun s (exec_run hs)).2 hlimited
      [97, 10, 98, 98, 98, 10, 99] (by cases hs; decide)
    exact ⟨s, hs, hemitted, hline.mp hlimited⟩
  · obtain ⟨s, t, hs, hp, ht⟩ : ∃ s t,
        exec (Duplex.step (Duplex.smallOptions .messages)) (Duplex.init (Duplex.smallOptions .messages))
          [Duplex.output .stdout [97, 10, 98]] = some s ∧ s.phase = .running ∧
        Duplex.step (Duplex.smallOptions .messages) s Duplex.exited = some t := ⟨_, _, rfl, rfl, rfl⟩
    refine ⟨t, exec_trans hs (exec_cons ht), ?_⟩
    exact hduplex [Duplex.output .stdout [97, 10, 98]] [] s t t Duplex.exitPayload [] rfl (exec_run hs) hp ht (.nil t)
  · exact (hdaemon (daemonRun [.server .ready]) _ _ [] (exec_run rfl) rfl (.inr rfl) rfl).2.mpr (.inl (by simp [daemonRun]))

/-- Before it is ready, the daemon's last line goes with the EXIT frame. -/
theorem lines_lost : ∃ w v,
    exec (Daemon.Logger.step Daemon.Logger.quietDaemon (fun _ => 0) false)
      (Daemon.Logger.start Daemon.Logger.quietDaemon) (daemonRun []) = some w ∧
    Daemon.Logger.step Daemon.Logger.quietDaemon (fun _ => 0) false w
      (.server (.message (.data .exit []))) = some v ∧
    Daemon.Logger.Over v ∧ v.loggedOf .stdout = [[97]] ∧
    Lines.closed newline (v.server.output .stdout) = [[97], [98]] :=
  ⟨_, _, rfl, rfl, .inr ⟨_, rfl⟩, by decide, by decide⟩

end Forcola.Beam
