import Forcola.Beam.DuplexGroups
import Forcola.Beam.GroupIndependence

/-! A duplex session without its tracked groups: it goes on just as the session does. -/

namespace Forcola.Beam.Duplex

open Library
open Native (Bytes Pipe ProcessIdentity)
open Shim (Scope Tag ExitReport)

def Terminal.erase (terminal : Terminal) : Terminal :=
  { terminal with trackedGroups := [], trackedGroupsTruncated := false }

def TerminalTable.erase (table : TerminalTable) : TerminalTable :=
  ⟨table.spawnIdentity, [], false, table.terminal.map .erase⟩

def Ended.erase (ended : Ended) : Ended :=
  ⟨ended.status, ended.terminal.erase⟩

def RecvReply.erase : RecvReply → RecvReply
  | .done terminal => .done terminal.erase
  | reply => reply

def Effect.erase : Effect → Option Effect
  | .owner (.tracked _) | .observer (.tracked _) => none
  | .observer (.exit scope confirmation contained _) =>
    some (.observer (.exit scope confirmation contained false))
  | .recvReply caller reply => some (.recvReply caller reply.erase)
  | .published terminal => some (.published terminal.erase)
  | .recipient terminal => some (.recipient terminal.erase)
  | effect => some effect

def PortEvent.erase : PortEvent → PortEvent
  | .data .tracked _ => .data .tracked []
  | event => event

def Message.erase : Message → Message
  | .port event => .port event.erase
  | message => message

def Entry.erase : Entry → Option Entry
  | .handled message => some (.handled message.erase)
  | .awaited event => some (.awaited event.erase)
  | .drained event => some (.drained event.erase)
  | .did effect => effect.erase.map .did

def Label.erase : Label → Label
  | .message m answers => .message m.erase answers
  | .await event => .await event.erase
  | .drain event => .drain event.erase
  | label => label

def Phase.erase : Phase → Phase
  | .closing terminal => .closing terminal.erase
  | phase => phase

def State.erase (s : State) : State :=
  { s with
    table := s.table.map .erase
    exit := s.exit.map .erase
    tracking := ⟨s.tracking.enabled, [], ∅, false, s.tracking.finished⟩
    phase := s.phase.erase
    farewell := s.farewell.map fun reply => (reply.1, reply.2.erase)
    log := s.log.filterMap Entry.erase }

variable {cfg : Options} {s s' t t' : State} {l l' : Label} {payload payload' : Bytes}

@[simp] lemma Terminal.erase_erase (terminal : Terminal) : terminal.erase.erase = terminal.erase :=
  rfl

@[simp] lemma RecvReply.erase_erase (reply : RecvReply) : reply.erase.erase = reply.erase := by
  cases reply <;> rfl

@[simp] lemma PortEvent.erase_erase (event : PortEvent) : event.erase.erase = event.erase := by
  cases event with
  | data tag payload => cases tag <;> rfl
  | exitStatus => rfl

@[simp] lemma Message.erase_erase (message : Message) : message.erase.erase = message.erase := by
  cases message with
  | port event => exact congrArg Message.port event.erase_erase
  | _ => rfl

lemma Effect.erase_erase {effect erased : Effect} (h : effect.erase = some erased) :
    erased.erase = some erased := by
  cases effect with
  | recvReply caller reply =>
    obtain rfl := Option.some.inj h
    simp [Effect.erase]
  | owner message =>
    cases message with
    | tracked identity => cases h
    | spawned identity =>
      obtain rfl := Option.some.inj h
      rfl
    | line line =>
      obtain rfl := Option.some.inj h
      rfl
    | exit status =>
      obtain rfl := Option.some.inj h
      rfl
  | observer event =>
    cases event with
    | tracked identity => cases h
    | exit scope confirmation contained truncated =>
      obtain rfl := Option.some.inj h
      rfl
  | sendReply caller reply =>
    obtain rfl := Option.some.inj h
    rfl
  | command command =>
    obtain rfl := Option.some.inj h
    rfl
  | published terminal =>
    obtain rfl := Option.some.inj h
    rfl
  | recipient terminal =>
    obtain rfl := Option.some.inj h
    rfl

lemma Entry.erase_erase {entry erased : Entry} (h : entry.erase = some erased) :
    erased.erase = some erased := by
  cases entry with
  | did effect =>
    obtain ⟨left, hleft, rfl⟩ := Option.map_eq_some_iff.mp h
    rw [Entry.erase, Effect.erase_erase hleft]
    rfl
  | handled message =>
    obtain rfl := Option.some.inj h
    simp [Entry.erase]
  | awaited event =>
    obtain rfl := Option.some.inj h
    simp [Entry.erase]
  | drained event =>
    obtain rfl := Option.some.inj h
    simp [Entry.erase]

lemma erase_log (log : Log) : (log.filterMap Entry.erase).filterMap Entry.erase =
    log.filterMap Entry.erase := by
  rw [List.filterMap_filterMap]
  apply List.filterMap_congr
  intro entry _
  cases h : entry.erase with
  | none => rfl
  | some erased => exact Entry.erase_erase h

@[simp] lemma Phase.erase_erase (phase : Phase) : phase.erase.erase = phase.erase := by
  cases phase <;> rfl

lemma State.erase_erase (s : State) : s.erase.erase = s.erase := by
  have htable : (s.table.map TerminalTable.erase).map TerminalTable.erase =
      s.table.map TerminalTable.erase := by
    cases s.table with
    | none => rfl
    | some table => cases h : table.terminal <;> simp [TerminalTable.erase, h]
  have hexit : (s.exit.map Ended.erase).map Ended.erase = s.exit.map Ended.erase := by
    cases s.exit <;> rfl
  have hfarewell : (s.farewell.map fun reply => (reply.1, reply.2.erase)).map
      (fun reply => (reply.1, reply.2.erase)) = s.farewell.map fun reply => (reply.1, reply.2.erase) := by
    cases s.farewell <;> simp
  rw [State.erase, State.erase]
  dsimp only
  rw [htable, hexit, hfarewell, erase_log, Phase.erase_erase]

lemma event_erase {event event' : PortEvent} (h : event.erase = event'.erase) :
    event = event' ∨ ∃ payload payload', event = .data .tracked payload ∧
      event' = .data .tracked payload' := by
  cases event with
  | exitStatus =>
    cases event' with
    | exitStatus => exact .inl rfl
    | data tag payload => cases tag <;> cases h
  | data tag payload =>
    cases event' with
    | exitStatus => cases tag <;> cases h
    | data tag' payload' =>
      cases tag <;> cases tag' <;>
        first
        | exact .inr ⟨payload, payload', rfl, rfl⟩
        | exact .inl h
        | cases h

lemma message_erase {message message' : Message} (h : message.erase = message'.erase) :
    message = message' ∨ ∃ payload payload', message = .port (.data .tracked payload) ∧
      message' = .port (.data .tracked payload') := by
  cases message with
  | port event =>
    cases message' with
    | port event' =>
      rcases event_erase (Message.port.inj h) with rfl | ⟨payload, payload', rfl, rfl⟩
      · exact .inl rfl
      · exact .inr ⟨payload, payload', rfl, rfl⟩
    | _ => cases h
  | _ =>
    cases message' with
    | port event' => cases h
    | _ => exact .inl h

section

variable (h : s.erase = s'.erase)

include h

lemma erase_same {α : Type*} (f : State → α) (hf : ∀ u : State, f u.erase = f u) : f s = f s' := by
  rw [← hf s, h, hf]

lemma erase_map (f : State → State) (hf : ∀ u : State, (f u).erase = f u.erase) :
    (f s).erase = (f s').erase := by
  rw [hf, hf, h]

lemma erase_tell {effects effects' : List Effect}
    (he : effects.filterMap Effect.erase = effects'.filterMap Effect.erase) :
    (s.tell effects).erase = (s'.tell effects').erase := by
  have hlog : ∀ (s : State) (effects : List Effect), (s.tell effects).erase =
      { s.erase with log := s.erase.log ++ (effects.filterMap Effect.erase).map .did } := by
    intro s effects
    have hmap : (effects.map Entry.did).filterMap Entry.erase =
        (effects.filterMap Effect.erase).map .did := by
      rw [List.filterMap_map, List.map_filterMap]
      rfl
    rw [State.tell, State.erase]
    dsimp only
    rw [List.filterMap_append, hmap]
    rfl
  rw [hlog, hlog, h, he]

lemma erase_hear {entry entry' : Entry} (he : entry.erase = entry'.erase) :
    (s.hear entry).erase = (s'.hear entry').erase := by
  have hlog : ∀ (s : State) (entry : Entry), (s.hear entry).erase =
      { s.erase with log := s.erase.log ++ entry.erase.toList } := by
    intro s entry
    rw [State.hear, State.erase]
    dsimp only
    rw [List.filterMap_append]
    cases hentry : entry.erase with
    | none => rw [List.filterMap_cons_none hentry]; rfl
    | some erased => rw [List.filterMap_cons_some hentry]; rfl
  rw [hlog, hlog, h, he]

lemma erase_store {f f' : TerminalTable → TerminalTable}
    (hf : ∀ table table', table.erase = table'.erase → (f table).erase = (f' table').erase) :
    (s.store f).erase = (s'.store f').erase := by
  have htable : (s.table.map f).map TerminalTable.erase =
      (s'.table.map f').map TerminalTable.erase := by
    have hsame : s.table.map TerminalTable.erase = s'.table.map TerminalTable.erase :=
      congrArg State.table h
    cases htable : s.table with
    | none =>
      rw [htable] at hsame
      rw [Option.map_eq_none_iff.mp hsame.symm]
      rfl
    | some table =>
      rw [htable] at hsame
      obtain ⟨table', htable', heq⟩ := Option.map_eq_some_iff.mp hsame.symm
      rw [htable']
      exact congrArg some (hf table table' heq.symm)
  calc (s.store f).erase = { s.erase with table := (s.table.map f).map .erase } := rfl
    _ = { s'.erase with table := (s'.table.map f').map .erase } := by rw [h, htable]
    _ = (s'.store f').erase := rfl

lemma erase_failPending (reply : SendReply) :
    (s.failPending reply).erase = (s'.failPending reply).erase := by
  have hpending := erase_same h State.pending fun _ => rfl
  rw [State.failPending, State.failPending, hpending]
  exact erase_map (erase_tell h rfl) ({ · with pending := [] }) fun _ => rfl

lemma erase_finishTracking {terminal terminal' : Terminal} (ht : terminal.erase = terminal'.erase) :
    (finishTracking cfg s terminal).erase = (finishTracking cfg s' terminal').erase := by
  have henabled := erase_same h (·.tracking.enabled) fun _ => rfl
  have hfinished := erase_same h (·.tracking.finished) fun _ => rfl
  obtain ⟨hscope, hconfirmation, hcontained⟩ : terminal.scope = terminal'.scope ∧
      terminal.confirmation = terminal'.confirmation ∧ terminal.contained = terminal'.contained := by
    have hparts : ∀ terminal : Terminal, terminal.erase.scope = terminal.scope ∧
        terminal.erase.confirmation = terminal.confirmation ∧
        terminal.erase.contained = terminal.contained := fun _ => ⟨rfl, rfl, rfl⟩
    rw [← (hparts terminal).1, ← (hparts terminal).2.1, ← (hparts terminal).2.2, ht]
    exact hparts terminal'
  have htracking : ∀ {k k' : Tracking}, k.enabled = k'.enabled → k.finished = k'.finished →
      { s with tracking := k }.erase = { s' with tracking := k' }.erase := by
    intro k k' he hf
    calc { s with tracking := k }.erase
        = { s.erase with tracking := ⟨k.enabled, [], ∅, false, k.finished⟩ } := rfl
      _ = { s'.erase with tracking := ⟨k'.enabled, [], ∅, false, k'.finished⟩ } := by rw [h, he, hf]
      _ = { s' with tracking := k' }.erase := rfl
  rw [finishTracking, finishTracking, Tracking.finish, Tracking.finish, henabled, hfinished, hscope,
    hconfirmation, hcontained]
  have hsame := htracking henabled hfinished
  split
  · split
    · exact erase_tell hsame rfl
    · exact erase_tell (htracking rfl rfl) rfl
  · split
    · exact hsame
    · exact htracking rfl rfl

lemma erase_enqueueInput (caller : Caller) (frame : InputFrame) :
    (enqueueInput s caller frame).erase = (enqueueInput s' caller frame).erase :=
  erase_map h (enqueueInput · caller frame) fun _ => rfl

lemma erase_submitInput (caller : Caller) (frame : InputFrame) (answer : PortAnswer) :
    (submitInput s caller frame answer).erase = (submitInput s' caller frame answer).erase := by
  have hpending := erase_same h State.pending fun _ => rfl
  rw [submitInput.eq_def, submitInput.eq_def, hpending]
  split
  · cases answer with
    | ok => exact erase_tell h rfl
    | closed => exact erase_tell h rfl
    | busy => exact erase_enqueueInput h caller frame
  · exact erase_enqueueInput h caller frame

lemma erase_flushInput (pending : List Input) (answers : List PortAnswer) :
    (flushInput s pending answers).erase = (flushInput s' pending answers).erase := by
  induction pending generalizing s s' answers with
  | nil => exact erase_map h ({ · with pending := [] }) fun _ => rfl
  | cons entry rest ih =>
    have hwait : { s with pending := entry :: rest, flushTimer := true }.erase =
        { s' with pending := entry :: rest, flushTimer := true }.erase :=
      erase_map h ({ · with pending := entry :: rest, flushTimer := true }) fun _ => rfl
    cases answers with
    | nil => exact hwait
    | cons answer answers =>
      cases answer with
      | ok => exact ih (erase_tell h rfl) answers
      | closed =>
        exact erase_failPending (erase_map h ({ · with pending := entry :: rest }) fun _ => rfl)
          .closed
      | busy => exact hwait

lemma erase_expireInput (ref : Ref) : (expireInput s ref).erase = (expireInput s' ref).erase := by
  have hpending := erase_same h State.pending fun _ => rfl
  rw [expireInput.eq_def, expireInput.eq_def, hpending]
  split
  · exact h
  · next entry _ _ =>
    have htold : (s.tell [.sendReply entry.caller .busy]).erase =
        (s'.tell [.sendReply entry.caller .busy]).erase := erase_tell h rfl
    dsimp only
    split
    · exact erase_map htold ({ · with
        pending := s'.pending.filter (·.ref ≠ ref), stdinOpen := true }) fun _ => rfl
    · exact erase_map htold ({ · with pending := s'.pending.filter (·.ref ≠ ref) }) fun _ => rfl

lemma erase_grantStreamCredit (stream : Pipe) :
    (grantStreamCredit cfg s stream).erase = (grantStreamCredit cfg s' stream).erase := by
  have houtstanding := erase_same h State.outstanding fun _ => rfl
  rw [grantStreamCredit, grantStreamCredit, houtstanding]
  split
  · exact h
  · split
    · exact erase_map (erase_tell h rfl) ({ · with
        outstanding := Function.update s'.outstanding stream cfg.maxPendingBytes }) fun _ => rfl
    · exact h

lemma erase_grantPullCredit : (grantPullCredit cfg s).erase = (grantPullCredit cfg s').erase :=
  erase_grantStreamCredit (erase_grantStreamCredit h .stdout) .stderr

lemma erase_accountPullCredit (stream : Pipe) (bytes : ℕ) :
    (accountPullCredit s stream bytes).erase = (accountPullCredit s' stream bytes).erase :=
  erase_map h (accountPullCredit · stream bytes) fun _ => rfl

lemma erase_replyPullWaiter : (replyPullWaiter cfg s).erase = (replyPullWaiter cfg s').erase := by
  have hwaiter := erase_same h State.waiter fun _ => rfl
  have hqueue := erase_same h State.queue fun _ => rfl
  have hexit := congrArg State.exit h
  change s.exit.map Ended.erase = s'.exit.map Ended.erase at hexit
  rw [replyPullWaiter.eq_def, replyPullWaiter.eq_def, hwaiter, hqueue]
  split
  · exact h
  · exact h
  · next waiter _ _ =>
    cases hq : s'.queue with
    | cons line queue =>
      exact erase_map (erase_tell h rfl) ({ · with queue := queue, waiter := none }) fun _ => rfl
    | nil =>
      cases he : s'.exit with
      | none =>
        rw [he] at hexit
        rw [Option.map_eq_none_iff.mp hexit]
        exact h
      | some ended' =>
        rw [he] at hexit
        obtain ⟨ended, hended, heq⟩ := Option.map_eq_some_iff.mp hexit
        have hterminal : ended.terminal.erase = ended'.terminal.erase := congrArg Ended.terminal heq
        rw [hended]
        refine erase_map (erase_tell h ?_) ({ · with waiter := none }) fun _ => rfl
        simp [Effect.erase, RecvReply.erase, hterminal]

lemma erase_markOutputLimit (limit : OutputLimit) :
    (markOutputLimit s limit).erase = (markOutputLimit s' limit).erase :=
  erase_map h (markOutputLimit · limit) fun _ => rfl

lemma erase_emit (stream : Pipe) (chunk : Bytes) :
    (emit cfg s stream chunk).erase = (emit cfg s' stream chunk).erase := by
  have hbuffers := erase_same h State.buffers fun _ => rfl
  have htotal := erase_same h State.totalOutputBytes fun _ => rfl
  have hqueue := erase_same h State.queue fun _ => rfl
  rw [emit.eq_def, emit.eq_def, hbuffers, htotal]
  split
  · dsimp only
    split
    · exact erase_markOutputLimit h _
    · rw [emitPullWithinTotal, emitPullWithinTotal, hbuffers, hqueue]
      dsimp only
      split
      · exact erase_markOutputLimit h _
      · apply erase_replyPullWaiter
        apply erase_accountPullCredit
        exact erase_map h ({ · with
          totalOutputBytes := s'.totalOutputBytes + chunk.length
          buffers := Function.update s'.buffers stream
            (splitLines (s'.buffers stream ++ chunk)).2
          queue := s'.queue ++
            (splitLines (s'.buffers stream ++ chunk)).1.map (Line.mk stream) }) fun _ => rfl
  · exact erase_map (erase_tell h rfl) ({ · with
      buffers := Function.update s'.buffers stream (splitLines (s'.buffers stream ++ chunk)).2 })
      fun _ => rfl

lemma erase_flushed : (s.tell (flushedMessages cfg s)).erase =
    (s'.tell (flushedMessages cfg s')).erase := by
  have hbuffers := erase_same h State.buffers fun _ => rfl
  apply erase_tell h
  rw [flushedMessages, flushedMessages, hbuffers]

lemma erase_flushBuffers : (flushBuffers cfg s).erase = (flushBuffers cfg s').erase := by
  have hbuffers := erase_same h State.buffers fun _ => rfl
  have hqueue := erase_same h State.queue fun _ => rfl
  rw [flushBuffers, flushBuffers, hbuffers, hqueue]
  split
  · exact erase_map h ({ · with
      buffers := fun _ => [], queue := s'.queue ++ partials s'.buffers [.stdout, .stderr] })
      fun _ => rfl
  · exact erase_map (erase_flushed h) ({ · with buffers := fun _ => [] }) fun _ => rfl

lemma erase_notifyExit (status : ExitStatus) :
    (notifyExit cfg s status).erase = (notifyExit cfg s' status).erase := by
  rw [notifyExit, notifyExit]
  split
  · exact h
  · exact erase_tell h rfl

lemma erase_recordIdentity (payload : Bytes) :
    (recordIdentity cfg s payload).erase = (recordIdentity cfg s' payload).erase := by
  have hidentity := erase_same h State.identity fun _ => rfl
  rw [recordIdentity, recordIdentity, hidentity]
  split
  · split
    · next identity _ =>
      refine erase_map (erase_tell (erase_store h ?_) rfl) ({ · with identity := some identity })
        fun _ => rfl
      intro table table' heq
      have hterminal := congrArg TerminalTable.terminal heq
      rw [TerminalTable.erase, TerminalTable.erase]
      exact congrArg (TerminalTable.mk _ _ _) hterminal
    · exact h
  · exact h

end

lemma erase_recordTracked (s : State) (payload : Bytes) :
    (recordTracked cfg s payload).erase = s.erase := by
  have hstore : ∀ (s : State) (f : TerminalTable → TerminalTable),
      (∀ table, (f table).erase = table.erase) → (s.store f).erase = s.erase := by
    intro s f hf
    have hid : s.store id = s := by
      rw [State.store, Option.map_id]
      rfl
    calc (s.store f).erase = (s.store id).erase :=
          erase_store rfl fun table table' heq => (hf table).trans heq
      _ = s.erase := by rw [hid]
  have htell : ∀ (s : State) (effects : List Effect), effects.filterMap Effect.erase = [] →
      (s.tell effects).erase = s.erase := by
    intro s effects hnone
    have hnil : s.tell [] = s := by
      rw [State.tell, List.map_nil, List.append_nil]
    calc (s.tell effects).erase = (s.tell []).erase := erase_tell rfl hnone
      _ = s.erase := by rw [hnil]
  have hset : ∀ (s : State) (k : Tracking), k.enabled = s.tracking.enabled →
      k.finished = s.tracking.finished → { s with tracking := k }.erase = s.erase := by
    intro s k henabled hfinished
    rw [State.erase, State.erase, henabled, hfinished]
  obtain ⟨henabled, hfinished⟩ := record_frame s.tracking (cfg.json payload)
  rw [recordTracked]
  refine (hset _ _ ?_ ?_).trans ?_
  · split <;> cases (s.tracking.record (cfg.json payload)).2 <;> exact henabled
  · split <;> cases (s.tracking.record (cfg.json payload)).2 <;> exact hfinished
  · cases (s.tracking.record (cfg.json payload)).2 with
    | none =>
      split
      · exact hstore s _ fun _ => rfl
      · rfl
    | some identity =>
      have htold : ((s.store fun table =>
          { table with trackedGroups := table.trackedGroups ++ [identity] }).tell
          ((if cfg.observer then [Effect.observer (.tracked identity)] else []) ++
            [Effect.owner (.tracked identity)])).erase = s.erase := by
        refine (htell _ _ ?_).trans (hstore s _ fun _ => rfl)
        cases cfg.observer <;> rfl
      split
      · refine (hstore _ _ ?_).trans htold
        exact fun _ => rfl
      · exact htold

section

variable (h : s.erase = s'.erase)

include h

lemma erase_ended (status : ExitStatus) {terminal terminal' : Terminal}
    (ht : terminal.erase = terminal'.erase) :
    { s with exit := some ⟨status, terminal⟩ }.erase =
      { s' with exit := some ⟨status, terminal'⟩ }.erase := by
  calc { s with exit := some ⟨status, terminal⟩ }.erase
      = { s.erase with exit := some ⟨status, terminal.erase⟩ } := rfl
    _ = { s'.erase with exit := some ⟨status, terminal'.erase⟩ } := by rw [h, ht]
    _ = { s' with exit := some ⟨status, terminal'⟩ }.erase := rfl

lemma erase_report (payload : Bytes) : s'.tracking.report (cfg.json payload) =
    { s.tracking.report (cfg.json payload) with
      trackedGroupsTruncated :=
        (s'.tracking.report (cfg.json payload)).trackedGroupsTruncated } := by
  have henabled := erase_same h (·.tracking.enabled) fun _ => rfl
  exact report_twin henabled.symm _

lemma erase_exitTerminal (payload : Bytes) (cause : Cause) :
    (exitTerminal (s.tracking.report (cfg.json payload)) cause s.tracking).erase =
      (exitTerminal (s'.tracking.report (cfg.json payload)) cause s'.tracking).erase := by
  rw [erase_report h payload]
  rfl

lemma erase_childExited (payload : Bytes) :
    (childExited cfg s payload).erase = (childExited cfg s' payload).erase := by
  have hstatus : reportStatus (s'.tracking.report (cfg.json payload)) =
      reportStatus (s.tracking.report (cfg.json payload)) := by
    rw [erase_report h payload]
    rfl
  have hterminal := @erase_exitTerminal cfg _ _ h payload .childExit
  rw [childExited, childExited, hstatus]
  apply erase_replyPullWaiter
  apply erase_failPending
  apply erase_ended
  · apply erase_notifyExit
    apply erase_flushBuffers
    exact erase_finishTracking h hterminal
  · exact hterminal

lemma erase_spawnFailed (payload : Bytes) :
    (spawnFailed cfg s payload).erase = (spawnFailed cfg s' payload).erase := by
  rw [spawnFailed, spawnFailed]
  apply erase_replyPullWaiter
  apply erase_failPending
  apply erase_ended
  · exact erase_finishTracking (erase_notifyExit h _) rfl
  · rfl

lemma erase_handleFrame (tag : Tag) (payload : Bytes) :
    (handleFrame cfg s tag payload).erase = (handleFrame cfg s' tag payload).erase := by
  cases tag with
  | stdout => exact erase_emit h .stdout payload
  | stderr => exact erase_emit h .stderr payload
  | spawned => exact erase_recordIdentity h payload
  | tracked =>
    rw [handleFrame, handleFrame, erase_recordTracked, erase_recordTracked, h]
  | exit => exact erase_childExited h payload
  | error => exact erase_spawnFailed h payload
  | other => exact h

lemma erase_stop : s.stop.erase = s'.stop.erase :=
  erase_map h State.stop fun _ => rfl

lemma erase_afterFrame : (afterFrame cfg s).erase = (afterFrame cfg s').erase := by
  have hhalt := erase_same h State.halt fun _ => rfl
  have hqueue := erase_same h State.queue fun _ => rfl
  have hexit := erase_same h (·.exit.isNone) fun u => Option.isNone_map
  rw [afterFrame, afterFrame, hhalt, hqueue, hexit]
  split
  · exact erase_stop h
  · split
    · exact h
    · split
      · exact h
      · exact erase_stop h

lemma erase_handleExitStatus : (handleExitStatus cfg s).erase = (handleExitStatus cfg s').erase := by
  have hreplied : ∀ {u u' : State}, u.erase = u'.erase →
      (if cfg.delivery = .pull ∧ u.queue ≠ [] then u else u.stop).erase =
        (if cfg.delivery = .pull ∧ u'.queue ≠ [] then u' else u'.stop).erase := by
    intro u u' k
    have hqueue := erase_same k State.queue fun _ => rfl
    rw [hqueue]
    split
    · exact k
    · exact erase_stop k
  rw [handleExitStatus, handleExitStatus]
  apply hreplied
  apply erase_replyPullWaiter
  apply erase_failPending
  apply erase_ended
  · apply erase_finishTracking _ rfl
    apply erase_notifyExit
    exact erase_flushBuffers h
  · rfl

lemma erase_stopWith (caller : Caller) {reply reply' : RecvReply}
    (hr : reply.erase = reply'.erase) :
    (s.stopWith caller reply).erase = (s'.stopWith caller reply').erase := by
  calc (s.stopWith caller reply).erase
      = { s.erase with phase := .stopping, farewell := some (caller, reply.erase) } := rfl
    _ = { s'.erase with phase := .stopping, farewell := some (caller, reply'.erase) } := by
        rw [h, hr]
    _ = (s'.stopWith caller reply').erase := rfl

lemma erase_handleRecv (caller : Caller) :
    (handleRecv cfg s caller).erase = (handleRecv cfg s' caller).erase := by
  have hwaiter := erase_same h State.waiter fun _ => rfl
  have hqueue := erase_same h State.queue fun _ => rfl
  have hisSome := erase_same h (·.exit.isSome) fun u => Option.isSome_map
  have hexit := congrArg State.exit h
  change s.exit.map Ended.erase = s'.exit.map Ended.erase at hexit
  rw [handleRecv.eq_def, handleRecv.eq_def, hwaiter, hqueue]
  split
  · exact erase_tell h rfl
  · exact erase_tell h rfl
  · cases hq : s'.queue with
    | cons line queue =>
      have hset := erase_map h ({ · with queue := queue, waiter := s'.waiter }) fun _ => rfl
      dsimp only
      rw [hisSome]
      split
      · exact erase_stopWith hset caller rfl
      · exact erase_tell hset rfl
    | nil =>
      cases he : s'.exit with
      | none =>
        rw [he] at hexit
        rw [Option.map_eq_none_iff.mp hexit]
        apply erase_grantPullCredit
        exact erase_map h (fun u => { u with
          queue := [], exit := none, waiter := some ⟨caller, u.refs⟩, refs := u.refs + 1 })
          fun _ => rfl
      | some ended' =>
        rw [he] at hexit
        obtain ⟨ended, hended, heq⟩ := Option.map_eq_some_iff.mp hexit
        have hterminal : ended.terminal.erase = ended'.terminal.erase := congrArg Ended.terminal heq
        rw [hended]
        exact erase_stopWith h caller (congrArg RecvReply.done hterminal)

lemma erase_handleCall (caller : Caller) (call : Call) (answer : PortAnswer) :
    (handleCall cfg s caller call answer).erase = (handleCall cfg s' caller call answer).erase := by
  have hstdin := erase_same h State.stdinOpen fun _ => rfl
  have hisSome := erase_same h (·.exit.isSome) fun u => Option.isSome_map
  cases call with
  | sendLine line =>
    rw [handleCall, handleCall, hisSome, hstdin]
    split
    · exact erase_tell h rfl
    · exact erase_submitInput h caller _ answer
  | sendEof =>
    rw [handleCall, handleCall, hisSome, hstdin]
    split
    · exact erase_tell h rfl
    · apply erase_submitInput
      exact erase_map h ({ · with stdinOpen := false }) fun _ => rfl
  | recv => exact erase_handleRecv h caller

lemma erase_handleRecvTimeout (ref : Ref) :
    (handleRecvTimeout s ref).erase = (handleRecvTimeout s' ref).erase := by
  have hwaiter := erase_same h State.waiter fun _ => rfl
  rw [handleRecvTimeout, handleRecvTimeout, hwaiter]
  split
  · split
    · exact erase_map (erase_tell h rfl) ({ · with waiter := none }) fun _ => rfl
    · exact h
  · exact h

lemma erase_handle {message message' : Message} (hm : message.erase = message'.erase)
    (answers : List PortAnswer) :
    (handle cfg s message answers).erase = (handle cfg s' message' answers).erase := by
  rcases message_erase hm with rfl | ⟨payload, payload', rfl, rfl⟩
  · cases message with
    | call caller call => exact erase_handleCall h caller call _
    | port event =>
      cases event with
      | data tag payload => exact erase_afterFrame (erase_handleFrame h tag payload)
      | exitStatus => exact erase_handleExitStatus h
    | ownerDown => exact erase_map h (fun u => { u with shutdownCause := .ownerDeath }.stop) fun _ => rfl
    | recvTimeout ref => exact erase_handleRecvTimeout h ref
    | flushInput =>
      have hpending := erase_same h State.pending fun _ => rfl
      rw [handle, handle, hpending]
      exact erase_flushInput (erase_map h ({ · with flushTimer := false, pending := s'.pending }) fun _ => rfl) _ answers
    | sendTimeout ref => exact erase_expireInput h ref
    | stop => exact erase_stop h
    | other => exact h
  · apply erase_afterFrame
    rw [handleFrame, handleFrame, erase_recordTracked, erase_recordTracked, h]

lemma erase_finishOutputEvidence {terminal terminal' : Terminal}
    (ht : terminal.erase = terminal'.erase) :
    (finishOutputEvidence cfg terminal s).erase = (finishOutputEvidence cfg terminal' s').erase := by
  have hlimit := erase_same h State.outputLimit fun _ => rfl
  have hqueue := erase_same h State.queue fun _ => rfl
  have hbuffers := erase_same h State.buffers fun _ => rfl
  rw [finishOutputEvidence, finishOutputEvidence, hlimit, hqueue, hbuffers]
  split
  · next limit _ =>
    exact congrArg (fun t : Terminal => { t with cause := .outputLimit, output := .limit limit }) ht
  · split
    · split
      · exact congrArg (fun t : Terminal => { t with output := .truncated }) ht
      · exact ht
    · exact ht

lemma erase_closing {terminal terminal' : Terminal} (ht : terminal.erase = terminal'.erase)  :
    { s with phase := .closing terminal }.erase = { s' with phase := .closing terminal' }.erase := by
  calc { s with phase := .closing terminal }.erase
      = { s.erase with phase := .closing terminal.erase } := rfl
    _ = { s'.erase with phase := .closing terminal'.erase } := by rw [h, ht]
    _ = { s' with phase := .closing terminal' }.erase := rfl

lemma erase_conclude {result result' : Shutdown}
    (hr : ∀ cause, (shutdownTerminal result cause s.tracking).erase =
      (shutdownTerminal result' cause s'.tracking).erase) :
    (conclude cfg s result).erase = (conclude cfg s' result').erase := by
  have hcause := erase_same h State.shutdownCause fun _ => rfl
  rw [conclude, conclude, hcause]
  apply erase_closing
  · exact erase_finishTracking h (hr _)
  · exact erase_finishOutputEvidence h (hr _)

lemma erase_settle (kill : KillAnswer) : (settle cfg s kill).erase = (settle cfg s' kill).erase := by
  have hexit := congrArg State.exit h
  change s.exit.map Ended.erase = s'.exit.map Ended.erase at hexit
  cases he : s'.exit with
  | none =>
    rw [he] at hexit
    have hnone := Option.map_eq_none_iff.mp hexit
    rw [settle.eq_def, settle.eq_def, he, hnone]
    cases kill with
    | accepted => exact erase_map (erase_tell h rfl) ({ · with phase := .awaiting }) fun _ => rfl
    | closed => exact erase_map h ({ · with exit := none, phase := .awaiting }) fun _ => rfl
    | busy => exact erase_conclude h fun _ => rfl
    | badarg => exact erase_conclude h fun _ => rfl
  | some ended' =>
    rw [he] at hexit
    obtain ⟨ended, hended, heq⟩ := Option.map_eq_some_iff.mp hexit
    have hterminal : ended.terminal.erase = ended'.terminal.erase := congrArg Ended.terminal heq
    have hgroups : ∀ (terminal : Terminal) (tracking : Tracking),
        (withGroups terminal tracking).erase = terminal.erase := fun _ _ => rfl
    rw [settle.eq_def, settle.eq_def, he, hended]
    apply erase_closing
    · exact erase_finishTracking h hterminal
    · apply erase_finishOutputEvidence h
      rw [hgroups, hgroups, hterminal]

lemma erase_terminate (kill : KillAnswer) :
    (terminate cfg s kill).erase = (terminate cfg s' kill).erase := by
  apply erase_settle
  have hfail := erase_failPending h .closed
  rw [flushMessages, flushMessages]
  split
  · exact erase_flushed hfail
  · exact hfail

lemma erase_awaitExit {event event' : PortEvent} (he : event.erase = event'.erase) :
    (awaitExit cfg s event).erase = (awaitExit cfg s' event').erase := by
  rcases event_erase he with rfl | ⟨payload, payload', rfl, rfl⟩
  · cases event with
    | exitStatus => exact erase_conclude h fun _ => rfl
    | data tag payload =>
      cases tag with
      | stdout => exact h
      | stderr => exact h
      | spawned => exact erase_recordIdentity h payload
      | tracked => rw [awaitExit, awaitExit, erase_recordTracked, erase_recordTracked, h]
      | exit => exact erase_conclude h fun cause => erase_exitTerminal h payload cause
      | error => exact erase_conclude h fun _ => rfl
      | other => exact h
  · rw [awaitExit, awaitExit, erase_recordTracked, erase_recordTracked, h]

lemma erase_publish {terminal terminal' : Terminal} (ht : terminal.erase = terminal'.erase) :
    (publish cfg s terminal).erase = (publish cfg s' terminal').erase := by
  have hinsert : ∀ table table' : TerminalTable, table.erase = table'.erase →
      (table.insertNew terminal).erase = (table'.insertNew terminal').erase := by
    intro table table' heq
    have hstored := congrArg TerminalTable.terminal heq
    have hspawned := congrArg TerminalTable.spawnIdentity heq
    change table.spawnIdentity = table'.spawnIdentity at hspawned
    change table.terminal.map Terminal.erase = table'.terminal.map Terminal.erase at hstored
    rw [TerminalTable.insertNew, TerminalTable.insertNew]
    cases htable' : table'.terminal with
    | none =>
      rw [htable'] at hstored
      rw [Option.map_eq_none_iff.mp hstored]
      simp [TerminalTable.erase, hspawned, ht]
    | some stored' =>
      rw [htable'] at hstored
      obtain ⟨stored, htable, -⟩ := Option.map_eq_some_iff.mp hstored
      rw [htable]
      exact heq
  rw [publish, publish]
  refine erase_map (erase_tell (erase_store h hinsert) ?_) ({ · with phase := .published }) fun _ => rfl
  cases cfg.recipient <;> simp [Effect.erase, ht]

lemma erase_leave : s.leave.erase = s'.leave.erase := by
  have hfarewell := congrArg State.farewell h
  change (s.farewell.map fun reply => (reply.1, reply.2.erase)) =
    s'.farewell.map fun reply => (reply.1, reply.2.erase) at hfarewell
  rw [State.leave, State.leave]
  refine erase_map (erase_tell h ?_) ({ · with phase := .stopped, farewell := none }) fun _ => rfl
  cases he : s'.farewell with
  | none =>
    rw [he] at hfarewell
    rw [Option.map_eq_none_iff.mp hfarewell]
  | some reply' =>
    rw [he] at hfarewell
    obtain ⟨reply, hreply, heq⟩ := Option.map_eq_some_iff.mp hfarewell
    obtain ⟨hcaller, hsame⟩ := Prod.mk.inj heq
    rw [hreply]
    simp [Effect.erase, hcaller, hsame]

end

lemma step_erase (hs : step cfg s l = some t) :
    ∃ u, step cfg s.erase l.erase = some u ∧ u.erase = t.erase := by
  have h := s.erase_erase
  have hphase : s.erase.phase = s.phase.erase := rfl
  rw [step.eq_def] at hs
  split at hs
  · obtain rfl := Option.some.inj hs
    have hrelease : step cfg s.erase .release = some { s.erase with table := none } := by
      rw [step.eq_def]
    exact ⟨_, hrelease, erase_map h ({ · with table := none }) fun _ => rfl⟩
  · next message answers hp =>
    obtain rfl := Option.some.inj hs
    rw [step.eq_def, hphase, hp]
    refine ⟨_, rfl, erase_handle (erase_hear h ?_) message.erase_erase answers⟩
    simp [Entry.erase]
  · next kill hp =>
    obtain rfl := Option.some.inj hs
    rw [step.eq_def, hphase, hp]
    exact ⟨_, rfl, erase_terminate h kill⟩
  · next event hp =>
    obtain rfl := Option.some.inj hs
    rw [step.eq_def, hphase, hp]
    refine ⟨_, rfl, erase_awaitExit (erase_hear h ?_) event.erase_erase⟩
    simp [Entry.erase]
  · next hp =>
    obtain rfl := Option.some.inj hs
    rw [step.eq_def, hphase, hp]
    exact ⟨_, rfl, erase_conclude h fun _ => rfl⟩
  · next terminal event hp =>
    obtain rfl := Option.some.inj hs
    rw [step.eq_def, hphase, hp]
    refine ⟨_, rfl, erase_hear h ?_⟩
    simp [Entry.erase]
  · next terminal hp =>
    obtain rfl := Option.some.inj hs
    rw [step.eq_def, hphase, hp]
    exact ⟨_, rfl, erase_publish h terminal.erase_erase⟩
  · next hp =>
    obtain rfl := Option.some.inj hs
    rw [step.eq_def, hphase, hp]
    exact ⟨_, rfl, erase_leave h⟩
  · cases hs
  · cases hs
  · next hstopped hkilled =>
    obtain rfl := Option.some.inj hs
    have hkill : step cfg s.erase .kill = some { s.erase with phase := .killed } := by
      rw [step.eq_def]
      cases hp : s.phase with
      | stopped => exact absurd hp hstopped
      | killed => exact absurd hp hkilled
      | _ => simp [hphase, hp, Phase.erase]
    exact ⟨_, hkill, erase_map h ({ · with phase := .killed }) fun _ => rfl⟩
  · cases hs

lemma step_alike (h : s.erase = s'.erase) (hl : l.erase = l'.erase) (hs : step cfg s l = some t)
    (hs' : step cfg s' l' = some t') : t.erase = t'.erase := by
  obtain ⟨u, hu, hut⟩ := step_erase hs
  obtain ⟨u', hu', hut'⟩ := step_erase hs'
  rw [h, hl, hu'] at hu
  rw [← hut, ← hut', Option.some.inj hu]

lemma run_alike {labels labels' : List Label}
    (h : Transition.Run (fun s l t => step cfg s l = some t) (init cfg) labels t)
    (h' : Transition.Run (fun s l t => step cfg s l = some t) (init cfg) labels' t')
    (hl : labels.map Label.erase = labels'.map Label.erase) : t.erase = t'.erase := by
  have hpairs : List.Forall₂ (fun l l' : Label => l.erase = l'.erase) labels labels' := by
    have hmapped : List.Forall₂ Eq (labels.map Label.erase) (labels'.map Label.erase) := by
      rw [List.forall₂_eq_eq_eq]
      exact hl
    exact List.forall₂_map_right_iff.mp (List.forall₂_map_left_iff.mp hmapped)
  refine h.related (R := fun s s' : State => s.erase = s'.erase) ?_ h' hpairs rfl
  exact fun _ _ _ _ _ _ hs hl hst hst' => step_alike hs hl hst hst'

end Forcola.Beam.Duplex
