import Forcola.Beam.DuplexLog

/-! What each message and each step does to a session, said once. -/

namespace Forcola.Beam.Duplex

open Library
open Native (Bytes Pipe ProcessIdentity)
open Shim (Tag Command)

variable {cfg : Options} {s t u : State}

structure Live (cfg : Options) (s : State) : Prop where
  halt : s.phase = .running → s.halt = false
  limit : s.outputLimit.isSome = s.halt
  ended : s.phase = .running → s.exit.isSome → cfg.delivery = .pull ∧ s.queue ≠ []
  waiter : s.waiter.isSome → cfg.delivery = .pull ∧ s.queue = [] ∧ s.exit = none
  farewell : s.farewell.isSome →
    s.phase ≠ .running ∧ cfg.delivery = .pull ∧ s.exit.isSome ∧ s.queue = []
  messages : cfg.delivery = .messages → s.queue = []
  suits : Suits cfg.trackDescendants s.tracking

lemma Message.quiet_output {m : Message} (h : m.quiet = true ∨ m.ends = true) (p : Pipe) :
    Entry.received p (.handled m) = [] := by
  cases m with
  | port event =>
    cases event with
    | exitStatus => rfl
    | data tag payload =>
      cases tag <;> cases p <;> first | rfl | (rcases h with h | h <;> cases h)
  | _ => rfl

lemma output_ofPipe (p q : Pipe) (chunk : Bytes) :
    PortEvent.output q (.data (Tag.ofPipe p) chunk) = if q = p then chunk else [] := by
  cases p <;> cases q <;> rfl

def accept (s : State) (p : Pipe) (chunk : Bytes) : State :=
  { s with
    totalOutputBytes := s.totalOutputBytes + chunk.length
    buffers := Function.update s.buffers p (Lines.rest newline (s.buffers p ++ chunk))
    queue := s.queue ++ (Lines.lines newline (s.buffers p ++ chunk)).map (⟨p, ·⟩)
    outstanding := Function.update s.outstanding p (s.outstanding p - chunk.length) }

structure Fits (cfg : Options) (s : State) (p : Pipe) (chunk : Bytes) : Prop where
  total : s.totalOutputBytes + chunk.length ≤ cfg.maxOutputBytes
  rest : (Lines.rest newline (s.buffers p ++ chunk)).length ≤ cfg.maxLineBytes
  lines : ∀ line ∈ Lines.lines newline (s.buffers p ++ chunk), line.length ≤ cfg.maxLineBytes

/-- Everything one message can do to a running session. -/
inductive Turn (cfg : Options) (s : State) : Message → State → Prop
  | aside {m : Message} {t : State} (hm : m.quiet = true) (h : Aside s t) : Turn cfg s m t
  | limited (p : Pipe) (chunk : Bytes) (limit : OutputLimit) (hd : cfg.delivery = .pull) :
      Turn cfg s (.port (.data (Tag.ofPipe p) chunk)) (markOutputLimit s limit).stop
  | accepted (p : Pipe) (chunk : Bytes) (hd : cfg.delivery = .pull) (h : Fits cfg s p chunk) :
      Turn cfg s (.port (.data (Tag.ofPipe p) chunk)) (replyPullWaiter cfg (accept s p chunk))
  | relayed (p : Pipe) (chunk : Bytes) (hd : cfg.delivery = .messages) :
      Turn cfg s (.port (.data (Tag.ofPipe p) chunk))
        { s.tell ((Lines.lines newline (s.buffers p ++ chunk)).map fun line =>
            .owner (.line ⟨p, line⟩)) with
          buffers := Function.update s.buffers p (Lines.rest newline (s.buffers p ++ chunk)) }
  | ended {m : Message} (e : Ended) {u w v : State} (hm : m.ends = true) (h : Aside s u)
      (hw : w = if m.flushes then flushBuffers cfg u else u)
      (k : Aside { w with exit := some e } v)
      (hg : withGroups e.terminal v.tracking = e.terminal)
      (hx : ∀ payload, m = .port (.data .exit payload) →
        e.terminal = exitTerminal (s.tracking.report (cfg.json payload)) .childExit s.tracking) :
      Turn cfg s m (afterFrame cfg (replyPullWaiter cfg v))
  | refused (caller : Caller) (reply : RecvReply) (hr : reply = .busy ∨ reply = .notPull) :
      Turn cfg s (.call caller .recv) (s.tell [.recvReply caller reply])
  | last (caller : Caller) (line : Line) (hd : cfg.delivery = .pull) (hw : s.waiter = none)
      (hq : s.queue = [line]) (he : s.exit.isSome) :
      Turn cfg s (.call caller .recv) (({ s with queue := [] }).stopWith caller (.line line))
  | popped (caller : Caller) (line : Line) (queue : List Line) (hd : cfg.delivery = .pull)
      (hw : s.waiter = none) (hq : s.queue = line :: queue) (he : s.exit.isSome → queue ≠ []) :
      Turn cfg s (.call caller .recv)
        (({ s with queue := queue }).tell [.recvReply caller (.line line)])
  | waits (caller : Caller) (hd : cfg.delivery = .pull) (hw : s.waiter = none) (hq : s.queue = [])
      (he : s.exit = none) :
      Turn cfg s (.call caller .recv)
        (grantPullCredit cfg { s with waiter := some ⟨caller, s.refs⟩, refs := s.refs + 1 })
  | expired (waiter : Waiter) (hw : s.waiter = some waiter) :
      Turn cfg s (.recvTimeout waiter.ref)
        { s.tell [.recvReply waiter.caller .timeout] with waiter := none }
  | stops {m : Message} (cause : Cause) (hm : m = .ownerDown ∨ m = .stop) :
      Turn cfg s m ({ s with shutdownCause := cause }).stop

lemma handleFrame_output (p : Pipe) (payload : Bytes) :
    handleFrame cfg s (Tag.ofPipe p) payload = emit cfg s p payload := by
  cases p <;> rfl

lemma flushBuffers_tracking (s : State) : (flushBuffers cfg s).tracking = s.tracking := by
  rw [flushBuffers]
  cases cfg.delivery <;> rfl

lemma notifyExit_tracking (s : State) (status : ExitStatus) :
    (notifyExit cfg s status).tracking = s.tracking := by
  rw [notifyExit]
  cases cfg.delivery <;> rfl

lemma finishTracking_tracking (s : State) (terminal : Terminal) :
    (finishTracking cfg s terminal).tracking = (s.tracking.finish terminal.scope
      terminal.confirmation terminal.contained terminal.trackedGroupsTruncated).1 := by
  rw [finishTracking]
  split <;> rfl

lemma withGroups_finish {shown terminal : Terminal} (s : State)
    (hg : shown.trackedGroups = s.tracking.observed)
    (hs : s.tracking.truncated = true → shown.trackedGroupsTruncated = true)
    (ht : terminal.trackedGroupsTruncated = true → shown.trackedGroupsTruncated = true) :
    withGroups shown (finishTracking cfg s terminal).tracking = shown := by
  rw [finishTracking_tracking, Tracking.finish]
  have keep : ∀ b f, (b = true → shown.trackedGroupsTruncated = true) →
      withGroups shown { s.tracking with truncated := b, finished := f } = shown := by
    intro b f hb
    have h : (shown.trackedGroupsTruncated || b) = shown.trackedGroupsTruncated := by
      cases b with
      | false => exact Bool.or_false _
      | true => rw [hb rfl, Bool.or_true]
    calc withGroups shown { s.tracking with truncated := b, finished := f }
        = { shown with
            trackedGroups := s.tracking.observed
            trackedGroupsTruncated := shown.trackedGroupsTruncated || b } := rfl
      _ = shown := by rw [h, ← hg]
  split
  · exact keep _ _ hs
  · refine keep (s.tracking.truncated || terminal.trackedGroupsTruncated) true fun hb => ?_
    rcases Bool.or_eq_true_iff.mp hb with hb | hb
    · exact hs hb
    · exact ht hb

lemma report_truncated (hl : Live cfg s) (decoded : Option Json) (ht : s.tracking.truncated = true) :
    (s.tracking.report decoded).trackedGroupsTruncated = true := by
  rw [Tracking.report]
  split
  · simp [Tracking.reportMap, ht]
  · next he =>
    have hf := hl.suits.2 (hl.suits.1.symm.trans (by simpa using he))
    rw [hf] at ht
    cases ht

lemma handleData_exit (hl : Live cfg s) (payload : Bytes) :
    Turn cfg s (.port (.data .exit payload)) (handleData cfg s .exit payload) := by
  let report := s.tracking.report (cfg.json payload)
  let terminal := exitTerminal report .childExit s.tracking
  let u := finishTracking cfg s terminal
  let v := ({ notifyExit cfg (flushBuffers cfg u) (reportStatus report) with
    exit := some ⟨reportStatus report, terminal⟩ }).failPending .closed
  have hv : Aside { flushBuffers cfg u with exit := some ⟨reportStatus report, terminal⟩ } v := by
    refine .trans ?_ (.failPending _ _)
    have h := notifyExit_aside cfg (flushBuffers cfg u) (reportStatus report)
    exact ⟨h.buffers, rfl, h.shutdownCause, h.totalOutputBytes, h.outstanding, h.queue, h.waiter,
      h.outputLimit, h.halt, h.phase, h.farewell, h.stored, h.suits, h.log⟩
  refine Turn.ended ⟨reportStatus report, terminal⟩ rfl (finishTracking_aside cfg s terminal) rfl hv
    ?_ ?_
  · have hk : v.tracking = u.tracking :=
      (notifyExit_tracking _ _).trans (flushBuffers_tracking u)
    rw [hk]
    exact withGroups_finish s rfl (report_truncated hl _) id
  · intro payload' h
    cases h
    rfl

lemma withExit_aside {u : State} (h : Aside s u) (e : Ended) :
    Aside { s with exit := some e } { u with exit := some e } :=
  ⟨h.buffers, rfl, h.shutdownCause, h.totalOutputBytes, h.outstanding, h.queue, h.waiter,
    h.outputLimit, h.halt, h.phase, h.farewell, h.stored, h.suits, h.log⟩

lemma handleData_error (s : State) (payload : Bytes) :
    Turn cfg s (.port (.data .error payload)) (handleData cfg s .error payload) := by
  let reason := Shim.decodeError (cfg.json payload) cfg.structuredSpawnErrors
  let terminal := spawnErrorTerminal reason
  let e : Ended := ⟨.spawnError reason, withGroups terminal s.tracking⟩
  let u := notifyExit cfg s (.spawnError reason)
  have hu : u.tracking = s.tracking := notifyExit_tracking s _
  have hv := (withExit_aside ((notifyExit_aside cfg s (.spawnError reason)).trans
    (finishTracking_aside cfg u terminal)) e).trans (.failPending _ .closed)
  refine Turn.ended e rfl (.refl s) rfl hv ?_ ?_
  · apply withGroups_finish u
    · rw [hu]
      rfl
    · intro ht
      rw [hu] at ht
      simpa [e, withGroups] using Or.inr ht
    · intro ht
      cases ht
  · intro payload' h
    cases h

lemma replyPullWaiter_cases (cfg : Options) (s : State) :
    (replyPullWaiter cfg s = s ∧
      (cfg.delivery = .messages ∨ s.waiter = none ∨ s.queue = [] ∧ s.exit = none)) ∨
    (∃ waiter line queue, cfg.delivery = .pull ∧ s.waiter = some waiter ∧ s.queue = line :: queue ∧
      replyPullWaiter cfg s =
        { s.tell [.recvReply waiter.caller (.line line)] with queue := queue, waiter := none }) ∨
    ∃ waiter ended, cfg.delivery = .pull ∧ s.waiter = some waiter ∧ s.queue = [] ∧
      s.exit = some ended ∧
      replyPullWaiter cfg s =
        { s.tell [.recvReply waiter.caller (.done ended.terminal)] with waiter := none } := by
  rw [replyPullWaiter.eq_def]
  split
  · next hd => exact .inl ⟨rfl, .inl hd⟩
  · next hw => exact .inl ⟨rfl, .inr (.inl hw)⟩
  · next waiter hd hw =>
    split
    · next line queue hq => exact .inr (.inl ⟨waiter, line, queue, hd, hw, hq, rfl⟩)
    · next ended hq he => exact .inr (.inr ⟨waiter, ended, hd, hw, hq, he, rfl⟩)
    · next hq he => exact .inl ⟨rfl, .inr (.inr ⟨hq, he⟩)⟩

lemma replyPullWaiter_eq (cfg : Options) (s : State) : ∃ queue waiter log,
    replyPullWaiter cfg s = { s with queue := queue, waiter := waiter, log := log } := by
  rcases replyPullWaiter_cases cfg s with ⟨h, -⟩ | ⟨_, _, _, -, -, -, h⟩ | ⟨_, _, -, -, -, -, h⟩ <;>
    exact ⟨_, _, _, h⟩

lemma replyPullWaiter_log (cfg : Options) (s : State) (p : Pipe) :
    (replyPullWaiter cfg s).log.received p = s.log.received p ∧
      (replyPullWaiter cfg s).log.reached p = s.log.reached p ∧
      (replyPullWaiter cfg s).log.granted p = s.log.granted p ∧
      (replyPullWaiter cfg s).log.delivered p ++ queued p (replyPullWaiter cfg s).queue =
        s.log.delivered p ++ queued p s.queue := by
  rcases replyPullWaiter_cases cfg s with
    ⟨h, -⟩ | ⟨w, line, queue, -, -, hq, h⟩ | ⟨w, e, -, -, hq, -, h⟩
  · rw [h]
    exact ⟨rfl, rfl, rfl, rfl⟩
  · rw [h, hq, queued_cons]
    simp only [State.tell]
    rw [Log.received_append, Log.reached_append, Log.granted_append, Log.delivered_append]
    simp [Log.received, Log.reached, Log.granted, Log.delivered, Entry.received, Entry.reached,
      Entry.granted, Entry.delivered]
  · rw [h]
    simp only [State.tell]
    rw [Log.received_append, Log.reached_append, Log.granted_append, Log.delivered_append]
    simp [Log.received, Log.reached, Log.granted, Log.delivered, Entry.received, Entry.reached,
      Entry.granted, Entry.delivered]

lemma replyPullWaiter_frame (cfg : Options) (s : State) :
    (replyPullWaiter cfg s).halt = s.halt ∧ (replyPullWaiter cfg s).exit = s.exit := by
  obtain ⟨queue, waiter, log, h⟩ := replyPullWaiter_eq cfg s
  rw [h]
  exact ⟨rfl, rfl⟩

lemma afterFrame_stopped (h : s.halt = true) : afterFrame cfg s = s.stop := by
  rw [afterFrame, h]
  rfl

lemma afterFrame_ended (hh : s.halt = false) (he : s.exit.isSome) :
    afterFrame cfg s = if cfg.delivery = .pull ∧ s.queue ≠ [] then s else s.stop := by
  rw [afterFrame, hh, if_neg Bool.false_ne_true, if_neg]
  rw [Option.isNone_eq_false_iff.mpr he]
  exact Bool.false_ne_true

lemma handleExitStatus_turn (hl : Live cfg s) (hp : s.phase = .running) :
    Turn cfg s (.port .exitStatus) (handleExitStatus cfg s) := by
  let e : Ended := ⟨.shimExited, withGroups shimLostTerminal s.tracking⟩
  let w := flushBuffers cfg s
  let u := notifyExit cfg w .shimExited
  let v := ({ finishTracking cfg u shimLostTerminal with exit := some e }).failPending .closed
  have hu : u.tracking = s.tracking := (notifyExit_tracking w _).trans (flushBuffers_tracking s)
  have hv : Aside { w with exit := some e } v :=
    (withExit_aside ((notifyExit_aside cfg w .shimExited).trans
      (finishTracking_aside cfg u shimLostTerminal)) e).trans (.failPending _ .closed)
  have hh : (replyPullWaiter cfg v).halt = false := by
    rw [(replyPullWaiter_frame cfg v).1, hv.halt]
    have hw : w.halt = s.halt := by
      simp only [w, flushBuffers]
      cases cfg.delivery <;> rfl
    exact hw.trans (hl.halt hp)
  have he : (replyPullWaiter cfg v).exit.isSome := by
    rw [(replyPullWaiter_frame cfg v).2]
    rfl
  have ht : handleExitStatus cfg s = afterFrame cfg (replyPullWaiter cfg v) := by
    rw [afterFrame_ended hh he]
    simp only [handleExitStatus, v, u, w, e, notifyExit_tracking, flushBuffers_tracking]
  rw [ht]
  refine Turn.ended e rfl (.refl s) rfl hv ?_ ?_
  · apply withGroups_finish u
    · rw [hu]
      rfl
    · intro ht
      rw [hu] at ht
      simpa [e, withGroups] using Or.inr ht
    · intro ht
      cases ht
  · intro payload h
    cases h

lemma emitPullWithinTotal_eq (cfg : Options) (s : State) (p : Pipe) (chunk : Bytes) :
    emitPullWithinTotal cfg s p chunk (s.totalOutputBytes + chunk.length) =
      if cfg.maxLineBytes < (Lines.rest newline (s.buffers p ++ chunk)).length ∨
          ∃ line ∈ Lines.lines newline (s.buffers p ++ chunk), cfg.maxLineBytes < line.length then
        markOutputLimit s (.line p cfg.maxLineBytes)
      else replyPullWaiter cfg (accept s p chunk) := rfl

lemma handleData_output (hl : Live cfg s) (hp : s.phase = .running) (p : Pipe) (chunk : Bytes) :
    Turn cfg s (.port (.data (Tag.ofPipe p) chunk)) (handleData cfg s (Tag.ofPipe p) chunk) := by
  rw [handleData, handleFrame_output, emit.eq_def]
  cases hd : cfg.delivery with
  | messages =>
    have hx : s.exit = none := by
      cases he : s.exit with
      | none => rfl
      | some e =>
        have h := (hl.ended hp (he ▸ rfl)).1
        rw [hd] at h
        cases h
    have hr := Turn.relayed (s := s) p chunk hd
    generalize ht : ({ s.tell _ with buffers := _ } : State) = t at hr
    have hs : afterFrame cfg t = t := by
      have h1 : t.halt = false := by rw [← ht]; exact hl.halt hp
      have h2 : t.exit = none := by rw [← ht]; exact hx
      rw [afterFrame, h1, h2]
      rfl
    simp only [splitLines]
    rw [ht, hs]
    exact hr
  | pull =>
    have hlimit : ∀ limit, afterFrame cfg (markOutputLimit s limit) = (markOutputLimit s limit).stop :=
      fun limit => afterFrame_stopped rfl
    simp only
    by_cases htotal : cfg.maxOutputBytes < s.totalOutputBytes + chunk.length
    · rw [if_pos htotal, hlimit]
      exact .limited p chunk _ hd
    · rw [if_neg htotal, emitPullWithinTotal_eq]
      by_cases hline : cfg.maxLineBytes < (Lines.rest newline (s.buffers p ++ chunk)).length ∨
          ∃ line ∈ Lines.lines newline (s.buffers p ++ chunk), cfg.maxLineBytes < line.length
      · rw [if_pos hline, hlimit]
        exact .limited p chunk _ hd
      · rw [if_neg hline]
        push Not at hline htotal
        have hr := Turn.accepted (s := s) p chunk hd ⟨htotal, hline.1, hline.2⟩
        have hs : afterFrame cfg (replyPullWaiter cfg (accept s p chunk)) =
            replyPullWaiter cfg (accept s p chunk) := by
          obtain ⟨h1, h2⟩ := replyPullWaiter_frame cfg (accept s p chunk)
          cases he : s.exit with
          | none =>
            rw [afterFrame, h1, h2, show (accept s p chunk).halt = false from hl.halt hp,
              show (accept s p chunk).exit = none from he]
            rfl
          | some e =>
            have hw : s.waiter = none := by
              cases hw : s.waiter with
              | none => rfl
              | some w =>
                have h := (hl.waiter (hw ▸ rfl)).2.2
                rw [he] at h
                cases h
            have hr : replyPullWaiter cfg (accept s p chunk) = accept s p chunk := by
              rw [replyPullWaiter.eq_def, hd, show (accept s p chunk).waiter = none from hw]
            have hq : (accept s p chunk).queue ≠ [] :=
              List.append_ne_nil_of_left_ne_nil (hl.ended hp (he ▸ rfl)).2 _
            have hx : (accept s p chunk).exit.isSome := by
              rw [show (accept s p chunk).exit = s.exit from rfl, he]
              rfl
            have hh : (accept s p chunk).halt = false := hl.halt hp
            rw [hr, afterFrame_ended hh hx, if_pos ⟨hd, hq⟩]
        rw [← hs] at hr
        exact hr

lemma handleData_quiet (hl : Live cfg s) (hp : s.phase = .running) {t : State} (h : Aside s t) :
    afterFrame cfg t = t := by
  rw [afterFrame, h.halt, hl.halt hp, h.exit, h.queue]
  cases he : s.exit with
  | none => rfl
  | some e => simp [hl.ended hp (he ▸ rfl)]

lemma handleRecv_turn (hl : Live cfg s) (hp : s.phase = .running) (caller : Caller) :
    Turn cfg s (.call caller .recv) (handleRecv cfg s caller) := by
  rw [handleRecv.eq_def]
  split
  · exact .refused caller .notPull (.inr rfl)
  · exact .refused caller .busy (.inl rfl)
  · next hd hw =>
    split
    · next line queue hq =>
      by_cases h : s.exit.isSome ∧ queue = []
      · obtain ⟨he, rfl⟩ := h
        simp only [he, true_and, if_true]
        exact .last caller line hd hw hq he
      · simp only [h, if_false]
        exact .popped caller line queue hd hw hq fun he hn => h ⟨he, hn⟩
    · next ended hq he => exact absurd hq (hl.ended hp (he ▸ rfl)).2
    · next hq he => exact .waits caller hd hw hq he

theorem handle_turn (hl : Live cfg s) (hp : s.phase = .running) (m : Message)
    (answers : List PortAnswer) : Turn cfg s m (handle cfg s m answers) := by
  cases m with
  | call caller call =>
    cases call with
    | sendLine line =>
      apply Turn.aside rfl
      simp only [handle, handleCall]
      split
      · exact .tell s (by simp [Effect.aside])
      · exact submitInput_aside ..
    | sendEof =>
      apply Turn.aside rfl
      simp only [handle, handleCall]
      split
      · exact .tell s (by simp [Effect.aside])
      · refine .trans (t := { s with stdinOpen := false }) ?_ (submitInput_aside ..)
        exact ⟨rfl, rfl, rfl, rfl, rfl, rfl, rfl, rfl, rfl, rfl, rfl, rfl, fun _ => id, [], by simp, by simp⟩
    | recv => exact handleRecv_turn hl hp caller
  | port event =>
    cases event with
    | exitStatus => exact handleExitStatus_turn hl hp
    | data tag payload =>
      have quiet : ∀ t, Aside s t → handleFrame cfg s tag payload = t →
          Aside s (handleData cfg s tag payload) := by
        rintro t ht rfl
        rw [handleData, handleData_quiet hl hp ht]
        exact ht
      cases tag with
      | stdout => exact handleData_output hl hp .stdout payload
      | stderr => exact handleData_output hl hp .stderr payload
      | exit => exact handleData_exit hl payload
      | error => exact handleData_error s payload
      | spawned => exact .aside rfl (quiet _ (recordIdentity_aside s payload) rfl)
      | tracked => exact .aside rfl (quiet _ (recordTracked_aside s payload) rfl)
      | other => exact .aside rfl (quiet s (.refl s) rfl)
  | ownerDown => exact .stops .ownerDeath (.inl rfl)
  | recvTimeout ref =>
    simp only [handle, handleRecvTimeout]
    split
    · next waiter hw =>
      split
      · next hr =>
        subst hr
        exact .expired waiter hw
      · exact .aside rfl (.refl s)
    · exact .aside rfl (.refl s)
  | flushInput =>
    refine .aside rfl (.trans (t := { s with flushTimer := false }) ?_ (flushInput_aside ..))
    exact ⟨rfl, rfl, rfl, rfl, rfl, rfl, rfl, rfl, rfl, rfl, rfl, rfl, fun _ => id, [], by simp, by simp⟩
  | sendTimeout ref => exact .aside rfl (expireInput_aside s ref)
  | stop => exact .stops s.shutdownCause (.inr rfl)
  | other => exact .aside rfl (.refl s)

def shutDown (cfg : Options) (s : State) (result : Shutdown) : Terminal :=
  finishOutputEvidence cfg (shutdownTerminal result s.shutdownCause s.tracking) s

/-- The start of `terminate/2`: pending senders are answered, `:messages` mode flushes. -/
def Ending (cfg : Options) (s t : State) : Prop :=
  ∃ u, Aside s u ∧ Aside (flushMessages cfg u) t

inductive Move (cfg : Options) (s : State) : Label → State → Prop
  | release : Move cfg s .release { s with table := none }
  | turn {m : Message} {t : State} (answers : List PortAnswer) (hp : s.phase = .running)
      (h : Turn cfg (s.hear (.handled m)) m t) : Move cfg s (.message m answers) t
  | settled {t : State} (e : Ended) (kill : KillAnswer) (hp : s.phase = .stopping)
      (he : s.exit = some e) (h : Ending cfg s t) :
      Move cfg s (.terminate kill)
        { t with phase := .closing (finishOutputEvidence cfg (withGroups e.terminal s.tracking) s) }
  | killing {t : State} (kill : KillAnswer) (hp : s.phase = .stopping) (he : s.exit = none)
      (h : Ending cfg s t) : Move cfg s (.terminate kill) { t with phase := .awaiting }
  | gaveUp {t : State} (result : Shutdown) (kill : KillAnswer) (hp : s.phase = .stopping)
      (he : s.exit = none) (h : Ending cfg s t) :
      Move cfg s (.terminate kill) { t with phase := .closing (shutDown cfg s result) }
  | noted {t : State} (event : PortEvent) (hp : s.phase = .awaiting)
      (h : Aside (s.hear (.awaited event)) t) (hn : ∀ payload, event ≠ .data .exit payload) :
      Move cfg s (.await event) t
  | concluded {t : State} (result : Shutdown) (event : PortEvent) (hp : s.phase = .awaiting)
      (h : Aside (s.hear (.awaited event)) t)
      (hx : ∀ payload, event = .data .exit payload →
        result = .exit (s.tracking.report (cfg.json payload))) :
      Move cfg s (.await event) { t with phase := .closing (shutDown cfg s result) }
  | expired {t : State} (hp : s.phase = .awaiting) (h : Aside s t) :
      Move cfg s .deadline { t with phase := .closing (shutDown cfg s .timeout) }
  | drained (terminal : Terminal) (event : PortEvent) (hp : s.phase = .closing terminal) :
      Move cfg s (.drain event) (s.hear (.drained event))
  | published (terminal : Terminal) (hp : s.phase = .closing terminal) :
      Move cfg s .publish (publish cfg s terminal)
  | left (hp : s.phase = .published) : Move cfg s .leave s.leave
  | killed (hp : s.phase ≠ .stopped) : Move cfg s .kill { s with phase := .killed }

lemma flushMessages_tracking (s : State) : (flushMessages cfg s).tracking = s.tracking := by
  rw [flushMessages]
  cases cfg.delivery <;> rfl

lemma flushMessages_core (cfg : Options) (s : State) :
    (flushMessages cfg s).exit = s.exit ∧ (flushMessages cfg s).queue = s.queue ∧
      (flushMessages cfg s).buffers = s.buffers ∧
      (flushMessages cfg s).outputLimit = s.outputLimit ∧
      (flushMessages cfg s).shutdownCause = s.shutdownCause := by
  rw [flushMessages]
  cases cfg.delivery <;> exact ⟨rfl, rfl, rfl, rfl, rfl⟩

lemma finishOutputEvidence_congr {terminal : Terminal} (hl : t.outputLimit = s.outputLimit)
    (hq : t.queue = s.queue) (hb : t.buffers = s.buffers) :
    finishOutputEvidence cfg terminal t = finishOutputEvidence cfg terminal s := by
  rw [finishOutputEvidence, finishOutputEvidence, hl, hq, hb]

lemma terminate_move (kill : KillAnswer) (hp : s.phase = .stopping) :
    Move cfg s (.terminate kill) (terminate cfg s kill) := by
  have hf : Aside s (s.failPending .closed) := .failPending s _
  obtain ⟨he, hq, hb, hl, hc⟩ := flushMessages_core cfg (s.failPending .closed)
  have ht : (flushMessages cfg (s.failPending .closed)).tracking = s.tracking :=
    flushMessages_tracking _
  rw [terminate]
  generalize hu : flushMessages cfg (s.failPending .closed) = u at he hq hb hl hc ht
  have ending : ∀ v, Aside u v → Ending cfg s v := fun v hv => ⟨_, hf, hu ▸ hv⟩
  have closing : ∀ terminal, finishOutputEvidence cfg terminal u =
      finishOutputEvidence cfg terminal s := fun _ => finishOutputEvidence_congr hl hq hb
  have done : ∀ result, conclude cfg u result =
      { finishTracking cfg u (shutdownTerminal result u.shutdownCause u.tracking) with
        phase := .closing (shutDown cfg s result) } := by
    intro result
    rw [conclude, closing, shutDown, ht, hc]
    rfl
  rw [settle.eq_def]
  split
  · next e hx =>
    rw [closing, ht]
    exact .settled e _ hp (he ▸ hx) (ending _ (finishTracking_aside cfg u _))
  · next hx => exact .killing _ hp (he ▸ hx) (ending _ (.tell u (by simp [Effect.aside])))
  · next hx => exact .killing _ hp (he ▸ hx) (ending u (.refl u))
  · next hx =>
    rw [done]
    exact .gaveUp .timeout _ hp (he ▸ hx) (ending _ (finishTracking_aside cfg u _))
  · next hx =>
    rw [done]
    exact .gaveUp .transportLost _ hp (he ▸ hx) (ending _ (finishTracking_aside cfg u _))

lemma awaitExit_move (event : PortEvent) (hp : s.phase = .awaiting) :
    Move cfg s (.await event) (awaitExit cfg (s.hear (.awaited event)) event) := by
  cases event with
  | exitStatus =>
    refine .concluded .transportLost .exitStatus hp (finishTracking_aside cfg _ _) ?_
    intro payload h
    cases h
  | data tag payload =>
    cases tag with
    | stdout => exact .noted _ hp (.refl _) fun _ h => by cases h
    | stderr => exact .noted _ hp (.refl _) fun _ h => by cases h
    | other => exact .noted _ hp (.refl _) fun _ h => by cases h
    | spawned => exact .noted _ hp (recordIdentity_aside _ payload) fun _ h => by cases h
    | tracked => exact .noted _ hp (recordTracked_aside _ payload) fun _ h => by cases h
    | exit =>
      refine .concluded (.exit _) _ hp (finishTracking_aside cfg _ _) ?_
      intro payload' h
      cases h
      rfl
    | error =>
      refine .concluded (.spawnError _) _ hp (finishTracking_aside cfg _ _) ?_
      intro payload' h
      cases h

theorem step_move (hl : Live cfg s) {l : Label} (h : step cfg s l = some t) : Move cfg s l t := by
  have live : ∀ m, s.phase = .running → Live cfg (s.hear (.handled m)) := fun m hp =>
    ⟨hl.halt, hl.limit, hl.ended, hl.waiter, hl.farewell, hl.messages, hl.suits⟩
  rw [step.eq_def] at h
  split at h
  · obtain rfl := Option.some.inj h
    exact .release
  · next m answers hp =>
    obtain rfl := Option.some.inj h
    exact .turn answers hp (handle_turn (live m hp) hp m answers)
  · next kill hp =>
    obtain rfl := Option.some.inj h
    exact terminate_move kill hp
  · next event hp =>
    obtain rfl := Option.some.inj h
    exact awaitExit_move event hp
  · next hp =>
    obtain rfl := Option.some.inj h
    exact .expired hp (finishTracking_aside cfg s _)
  · next hp =>
    obtain rfl := Option.some.inj h
    exact .drained _ _ hp
  · next hp =>
    obtain rfl := Option.some.inj h
    exact .published _ hp
  · next hp =>
    obtain rfl := Option.some.inj h
    exact .left hp
  · cases h
  · cases h
  · next hp _ =>
    obtain rfl := Option.some.inj h
    exact .killed hp
  · cases h

namespace Live

lemma init (cfg : Options) : Live cfg (init cfg) where
  halt _ := rfl
  limit := rfl
  ended _ h := by cases h
  waiter h := by cases h
  farewell h := by cases h
  messages _ := rfl
  suits := ⟨rfl, fun _ => rfl⟩

lemma aside (hl : Live cfg s) (h : Aside s t) : Live cfg t where
  halt := by
    rw [h.phase, h.halt]
    exact hl.halt
  limit := by
    rw [h.outputLimit, h.halt]
    exact hl.limit
  ended := by
    rw [h.phase, h.exit, h.queue]
    exact hl.ended
  waiter := by
    rw [h.waiter, h.queue, h.exit]
    exact hl.waiter
  farewell := by
    rw [h.farewell, h.phase, h.exit, h.queue]
    exact hl.farewell
  messages := by
    rw [h.queue]
    exact hl.messages
  suits := h.suits _ hl.suits

lemma stopped (hl : Live cfg s) (phase : Phase) (hp : phase ≠ .running) :
    Live cfg { s with phase := phase } where
  halt h := absurd h hp
  limit := hl.limit
  ended h := absurd h hp
  waiter := hl.waiter
  farewell h := ⟨hp, (hl.farewell h).2⟩
  messages := hl.messages
  suits := hl.suits

lemma heard (hl : Live cfg s) (entry : Entry) : Live cfg (s.hear entry) :=
  ⟨hl.halt, hl.limit, hl.ended, hl.waiter, hl.farewell, hl.messages, hl.suits⟩

lemma noFarewell (hl : Live cfg s) (hp : s.phase = .running) : s.farewell = none := by
  cases h : s.farewell with
  | none => rfl
  | some f => exact absurd hp (hl.farewell (h ▸ rfl)).1

lemma waiting (hl : Live cfg s) {w : Waiter} (h : s.waiter = some w) :
    cfg.delivery = .pull ∧ s.queue = [] ∧ s.exit = none :=
  hl.waiter (h ▸ rfl)

end Live

lemma replyPullWaiter_waiter (cfg : Options) (hd : s.waiter.isSome → cfg.delivery = .pull) :
    (replyPullWaiter cfg s).waiter.isSome →
      cfg.delivery = .pull ∧ (replyPullWaiter cfg s).queue = [] ∧
        (replyPullWaiter cfg s).exit = none := by
  intro hw
  rcases replyPullWaiter_cases cfg s with ⟨h, hk⟩ | ⟨_, _, _, -, -, -, h⟩ | ⟨_, _, -, -, -, -, h⟩
  · rw [h] at hw ⊢
    rcases hk with hk | hk | hk
    · rw [hd hw] at hk
      cases hk
    · rw [hk] at hw
      cases hw
    · exact ⟨hd hw, hk⟩
  · rw [h] at hw
    cases hw
  · rw [h] at hw
    cases hw

lemma grantStreamCredit_eq (cfg : Options) (s : State) (p : Pipe) : ∃ outstanding log,
    grantStreamCredit cfg s p = { s with outstanding := outstanding, log := log } := by
  rw [grantStreamCredit]
  split
  · exact ⟨_, _, rfl⟩
  · split <;> exact ⟨_, _, rfl⟩

lemma grantPullCredit_eq (cfg : Options) (s : State) : ∃ outstanding log,
    grantPullCredit cfg s = { s with outstanding := outstanding, log := log } := by
  obtain ⟨o, l, h⟩ := grantStreamCredit_eq cfg s .stdout
  obtain ⟨o', l', h'⟩ := grantStreamCredit_eq cfg (grantStreamCredit cfg s .stdout) .stderr
  rw [grantPullCredit, h', h]
  exact ⟨o', l', rfl⟩

lemma flushBuffers_eq (cfg : Options) (s : State) : ∃ queue log,
    flushBuffers cfg s = { s with buffers := fun _ => [], queue := queue, log := log } ∧
      (cfg.delivery = .messages → queue = s.queue) ∧
      (cfg.delivery = .pull → log = s.log ∧
        queue = s.queue ++ partials s.buffers [.stdout, .stderr]) := by
  rw [flushBuffers]
  cases cfg.delivery with
  | pull => exact ⟨_, _, rfl, fun h => (by cases h), fun _ => ⟨rfl, rfl⟩⟩
  | messages => exact ⟨_, _, rfl, fun _ => rfl, fun h => (by cases h)⟩

structure Flushed (s t : State) : Prop where
  exit : t.exit = s.exit
  shutdownCause : t.shutdownCause = s.shutdownCause
  totalOutputBytes : t.totalOutputBytes = s.totalOutputBytes
  outstanding : t.outstanding = s.outstanding
  waiter : t.waiter = s.waiter
  outputLimit : t.outputLimit = s.outputLimit
  halt : t.halt = s.halt
  phase : t.phase = s.phase
  farewell : t.farewell = s.farewell
  suits : ∀ enabled, Suits enabled s.tracking → Suits enabled t.tracking

lemma flushed_iff {u w : State} {flushes : Bool}
    (h : w = if flushes then flushBuffers cfg u else u) :
    Flushed u w ∧ (cfg.delivery = .messages → w.queue = u.queue) := by
  cases flushes with
  | false =>
    obtain rfl : w = u := h
    exact ⟨⟨rfl, rfl, rfl, rfl, rfl, rfl, rfl, rfl, rfl, fun _ => id⟩, fun _ => rfl⟩
  | true =>
    obtain ⟨queue, log, heq, hm, -⟩ := flushBuffers_eq cfg u
    rw [if_pos rfl, heq] at h
    subst h
    exact ⟨⟨rfl, rfl, rfl, rfl, rfl, rfl, rfl, rfl, rfl, fun _ => id⟩, hm⟩

lemma afterFrame_live (hl : t.outputLimit.isSome = t.halt)
    (hw : t.waiter.isSome → cfg.delivery = .pull ∧ t.queue = [] ∧ t.exit = none)
    (hf : t.farewell = none) (hm : cfg.delivery = .messages → t.queue = []) (hi : Suits cfg.trackDescendants t.tracking) :
    Live cfg (afterFrame cfg t) := by
  have stop : Live cfg t.stop := by
    refine ⟨?_, hl, ?_, hw, ?_, hm, hi⟩
    · intro h
      cases h
    · intro h
      cases h
    · intro h
      rw [show t.stop.farewell = none from hf] at h
      cases h
  have go : t.halt = false → (t.exit.isSome → cfg.delivery = .pull ∧ t.queue ≠ []) → Live cfg t := by
    intro hh he
    refine ⟨fun _ => hh, hl, fun _ => he, hw, ?_, hm, hi⟩
    intro h
    rw [hf] at h
    cases h
  rw [afterFrame]
  split
  · exact stop
  · next hh =>
    split
    · next he =>
      refine go (by simpa using hh) fun h => ?_
      rw [Option.isNone_iff_eq_none.mp he] at h
      cases h
    · split
      · next hq => exact go (by simpa using hh) fun _ => hq
      · exact stop

namespace Live

lemma turn (hl : Live cfg s) (hp : s.phase = .running) {m : Message} (h : Turn cfg s m t) :
    Live cfg t := by
  have hf := hl.noFarewell hp
  cases h with
  | aside _ h => exact hl.aside h
  | limited p chunk limit hd =>
    refine ⟨?_, rfl, ?_, hl.waiter, ?_, hl.messages, hl.suits⟩
    · intro h
      cases h
    · intro h
      cases h
    · intro h
      rw [show (markOutputLimit s limit).stop.farewell = none from hf] at h
      cases h
  | accepted p chunk hd h =>
    obtain ⟨q, w, l, heq⟩ := replyPullWaiter_eq cfg (accept s p chunk)
    have hw := replyPullWaiter_waiter cfg (s := accept s p chunk) fun _ => hd
    have he : s.exit.isSome → (replyPullWaiter cfg (accept s p chunk)).queue ≠ [] := by
      intro he
      rcases replyPullWaiter_cases cfg (accept s p chunk) with
        ⟨h, -⟩ | ⟨waiter, _, _, -, hw, -⟩ | ⟨waiter, _, -, hw, -⟩
      · rw [h]
        exact List.append_ne_nil_of_left_ne_nil (hl.ended hp he).2 _
      · have hx := (hl.waiting hw).2.2
        rw [hx] at he
        cases he
      · have hx := (hl.waiting hw).2.2
        rw [hx] at he
        cases he
    rw [heq] at hw he ⊢
    refine ⟨hl.halt, hl.limit, fun _ hx => ⟨hd, he hx⟩, hw, ?_, ?_, hl.suits⟩
    · intro h
      rw [show ({ accept s p chunk with queue := q, waiter := w, log := l } : State).farewell = none
        from hf] at h
      cases h
    · intro h
      rw [hd] at h
      cases h
  | relayed p chunk hd =>
    exact ⟨hl.halt, hl.limit, hl.ended, hl.waiter, hl.farewell, hl.messages, hl.suits⟩
  | @ended _ e u w v hm hu hw hv hg hx =>
    obtain ⟨hk, hq⟩ := flushed_iff hw
    obtain ⟨q, x, l, heq⟩ := replyPullWaiter_eq cfg v
    have hd : v.waiter.isSome → cfg.delivery = .pull := by
      intro h
      rw [hv.waiter, show ({ w with exit := some e } : State).waiter = w.waiter from rfl, hk.waiter,
        hu.waiter] at h
      exact (hl.waiter h).1
    apply afterFrame_live
    · rw [heq]
      exact (congrArg Option.isSome (hv.outputLimit.trans (hk.outputLimit.trans hu.outputLimit))).trans
        (hl.limit.trans (hv.halt.trans (hk.halt.trans hu.halt)).symm)
    · exact replyPullWaiter_waiter cfg hd
    · rw [heq]
      exact hv.farewell.trans (hk.farewell.trans (hu.farewell.trans hf))
    · intro hmsg
      have hnop : replyPullWaiter cfg v = v := by rw [replyPullWaiter.eq_def, hmsg]
      rw [hnop, hv.queue]
      exact (hq hmsg).trans (hu.queue.trans (hl.messages hmsg))
    · rw [heq]
      exact hv.suits _ (hk.suits _ (hu.suits _ hl.suits))
  | refused caller reply hr =>
    exact ⟨hl.halt, hl.limit, hl.ended, hl.waiter, hl.farewell, hl.messages, hl.suits⟩
  | last caller line hd hw hq he =>
    refine ⟨?_, hl.limit, ?_, ?_, ?_, fun _ => rfl, hl.suits⟩
    · intro h
      cases h
    · intro h
      cases h
    · intro h
      rw [show (State.stopWith { s with queue := [] } caller (.line line)).waiter = none from hw] at h
      cases h
    · exact fun _ => ⟨Phase.noConfusion, hd, he, rfl⟩
  | popped caller line queue hd hw hq he =>
    refine ⟨hl.halt, hl.limit, fun _ hx => ⟨hd, he hx⟩, ?_, ?_, ?_, hl.suits⟩
    · intro h
      rw [show (State.tell { s with queue := queue } _).waiter = none from hw] at h
      cases h
    · intro h
      rw [show (State.tell { s with queue := queue } _).farewell = none from hf] at h
      cases h
    · intro h
      rw [hd] at h
      cases h
  | waits caller hd hw hq he =>
    obtain ⟨o, l, heq⟩ := grantPullCredit_eq cfg
      { s with waiter := some ⟨caller, s.refs⟩, refs := s.refs + 1 }
    rw [heq]
    refine ⟨hl.halt, hl.limit, hl.ended, fun _ => ⟨hd, hq, he⟩, hl.farewell, hl.messages, hl.suits⟩
  | expired waiter hw =>
    refine ⟨hl.halt, hl.limit, hl.ended, ?_, hl.farewell, hl.messages, hl.suits⟩
    intro h
    cases h
  | stops cause hm =>
    refine ⟨?_, hl.limit, ?_, hl.waiter, ?_, hl.messages, hl.suits⟩
    · intro h
      cases h
    · intro h
      cases h
    · intro h
      rw [show (State.stop { s with shutdownCause := cause }).farewell = none from hf] at h
      cases h

lemma ending (hl : Live cfg s) (h : Ending cfg s t) : Live cfg t := by
  obtain ⟨u, hu, ht⟩ := h
  refine .aside (s := flushMessages cfg u) ?_ ht
  have hl' := hl.aside hu
  rw [flushMessages]
  cases cfg.delivery with
  | pull => exact hl'
  | messages => exact ⟨hl'.halt, hl'.limit, hl'.ended, hl'.waiter, hl'.farewell, hl'.messages, hl'.suits⟩

lemma move (hl : Live cfg s) {l : Label} (h : Move cfg s l t) : Live cfg t := by
  cases h with
  | release => exact ⟨hl.halt, hl.limit, hl.ended, hl.waiter, hl.farewell, hl.messages, hl.suits⟩
  | turn answers hp h => exact (hl.heard _).turn hp h
  | settled e kill hp he h => exact (hl.ending h).stopped _ Phase.noConfusion
  | killing kill hp he h => exact (hl.ending h).stopped _ Phase.noConfusion
  | gaveUp result kill hp he h => exact (hl.ending h).stopped _ Phase.noConfusion
  | noted event hp h => exact (hl.heard _).aside h
  | concluded result event hp h hx => exact ((hl.heard _).aside h).stopped _ Phase.noConfusion
  | expired hp h => exact (hl.aside h).stopped _ Phase.noConfusion
  | drained terminal event hp => exact hl.heard _
  | published terminal hp =>
    have h : Live cfg ((s.store (·.insertNew terminal)).tell
        (.published terminal :: if cfg.recipient then [.recipient terminal] else [])) :=
      ⟨hl.halt, hl.limit, hl.ended, hl.waiter, hl.farewell, hl.messages, hl.suits⟩
    exact h.stopped _ Phase.noConfusion
  | left hp =>
    refine ⟨?_, hl.limit, ?_, hl.waiter, ?_, hl.messages, hl.suits⟩
    · intro h
      cases h
    · intro h
      cases h
    · intro h
      cases h
  | killed hp => exact hl.stopped _ Phase.noConfusion

lemma step (hl : Live cfg s) {l : Label} (h : step cfg s l = some t) : Live cfg t :=
  hl.move (step_move hl h)

end Live

end Forcola.Beam.Duplex
