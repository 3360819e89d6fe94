import Forcola.Beam.DuplexTerminal
import Forcola.Library.Outbox

/-! The input queue: which frames the port takes, in which order, and what their callers hear. -/

namespace Forcola.Beam.Duplex

open Library Transition
open Native (Bytes Pipe)
open Shim (Tag Command)

namespace Entry

def offered : Entry → List (Caller × InputFrame)
  | .handled (.call caller (.sendLine line)) => [(caller, .line line)]
  | .handled (.call caller .sendEof) => [(caller, .eof)]
  | _ => []

def sent : Entry → List Command
  | .did (.command (.stdin bytes)) => [.stdin bytes]
  | .did (.command .eof) => [.eof]
  | _ => []

def replied : Entry → List (Caller × SendReply)
  | .did (.sendReply caller reply) => [(caller, reply)]
  | _ => []

end Entry

namespace Log

def offered (log : Log) : List (Caller × InputFrame) := log.flatMap Entry.offered

def sent (log : Log) : List Command := log.flatMap Entry.sent

def replied (log : Log) : List (Caller × SendReply) := log.flatMap Entry.replied

def sendReplies (caller : Caller) (log : Log) : List SendReply :=
  (log.replied.filter (·.1 = caller)).map (·.2)

end Log

@[ext] structure Feed where
  pending : List Input
  stdinOpen : Bool
  flushTimer : Bool
  refs : ℕ
  offered : List (Caller × InputFrame)
  sent : List Command
  replied : List (Caller × SendReply)

def State.feed (s : State) : Feed :=
  ⟨s.pending, s.stdinOpen, s.flushTimer, s.refs, s.log.offered, s.log.sent, s.log.replied⟩

variable {cfg : Options} {s t : State}

def Effect.feeds : Effect → Bool
  | .sendReply _ _ | .command (.stdin _) | .command .eof => true
  | _ => false

lemma Effect.unfed {e : Effect} (h : e.feeds = false) :
    Entry.offered (.did e) = [] ∧ Entry.sent (.did e) = [] ∧ Entry.replied (.did e) = [] := by
  cases e with
  | sendReply caller reply => cases h
  | command command => cases command <;> first | exact ⟨rfl, rfl, rfl⟩ | cases h
  | _ => exact ⟨rfl, rfl, rfl⟩

lemma flatMap_quiet {α : Type*} {f : Entry → List α} {effects : List Effect}
    (h : ∀ e ∈ effects, f (.did e) = []) (log : Log) :
    (log ++ effects.map Entry.did).flatMap f = log.flatMap f := by
  have hn : (effects.map Entry.did).flatMap f = [] := by
    rw [List.flatMap_map, List.flatMap_eq_nil_iff]
    exact h
  rw [List.flatMap_append, hn, List.append_nil]

lemma feed_tell (s : State) {effects : List Effect} (h : ∀ e ∈ effects, e.feeds = false) :
    (s.tell effects).feed = s.feed := by
  have ho := flatMap_quiet (f := Entry.offered) (fun e he => (e.unfed (h e he)).1) s.log
  have hs := flatMap_quiet (f := Entry.sent) (fun e he => (e.unfed (h e he)).2.1) s.log
  have hr := flatMap_quiet (f := Entry.replied) (fun e he => (e.unfed (h e he)).2.2) s.log
  exact Feed.ext rfl rfl rfl rfl ho hs hr

lemma grantStreamCredit_feed (cfg : Options) (s : State) (p : Pipe) :
    (grantStreamCredit cfg s p).feed = s.feed := by
  rw [grantStreamCredit]
  split
  · rfl
  · split
    · exact feed_tell s (by simp [Effect.feeds])
    · rfl

lemma grantPullCredit_feed (cfg : Options) (s : State) :
    (grantPullCredit cfg s).feed = s.feed :=
  (grantStreamCredit_feed cfg _ .stderr).trans (grantStreamCredit_feed cfg s .stdout)

lemma replyPullWaiter_feed (cfg : Options) (s : State) :
    (replyPullWaiter cfg s).feed = s.feed := by
  rcases replyPullWaiter_cases cfg s with ⟨h, -⟩ | ⟨w, line, queue, -, -, -, h⟩ |
    ⟨w, ended, -, -, -, -, h⟩
  · rw [h]
  · rw [h]
    exact feed_tell s (by simp [Effect.feeds])
  · rw [h]
    exact feed_tell s (by simp [Effect.feeds])

lemma finishTracking_feed (cfg : Options) (s : State) (terminal : Terminal) :
    (finishTracking cfg s terminal).feed = s.feed := by
  rw [finishTracking]
  split
  · refine (feed_tell _ fun e he => ?_).trans rfl
    obtain ⟨event, -, rfl⟩ := List.mem_map.mp he
    rfl
  · rfl

lemma notifyExit_feed (cfg : Options) (s : State) (status : ExitStatus) :
    (notifyExit cfg s status).feed = s.feed := by
  rw [notifyExit]
  cases cfg.delivery with
  | pull => rfl
  | messages => exact feed_tell s (by simp [Effect.feeds])

lemma owner_unfed {α : Type*} (xs : List α) (f : α → OwnerMessage) :
    ∀ e ∈ xs.map fun x => Effect.owner (f x), e.feeds = false := by
  intro e he
  obtain ⟨x, -, rfl⟩ := List.mem_map.mp he
  rfl

lemma flushBuffers_feed (cfg : Options) (s : State) : (flushBuffers cfg s).feed = s.feed := by
  rw [flushBuffers]
  cases cfg.delivery with
  | pull => rfl
  | messages => exact feed_tell s (owner_unfed _ _)

lemma flushMessages_feed (cfg : Options) (s : State) : (flushMessages cfg s).feed = s.feed := by
  rw [flushMessages]
  cases cfg.delivery with
  | pull => rfl
  | messages => exact feed_tell s (owner_unfed _ _)

lemma emit_feed (cfg : Options) (s : State) (p : Pipe) (chunk : Bytes) :
    (emit cfg s p chunk).feed = s.feed := by
  rw [emit.eq_def]
  cases cfg.delivery with
  | messages => exact feed_tell s (owner_unfed _ _)
  | pull =>
    dsimp only
    split
    · rfl
    · rw [emitPullWithinTotal_eq]
      split
      · rfl
      · exact (replyPullWaiter_feed cfg _).trans rfl

lemma recordIdentity_feed (cfg : Options) (s : State) (payload : Bytes) :
    (recordIdentity cfg s payload).feed = s.feed := by
  rw [recordIdentity.eq_def]
  split
  · split
    · next identity _ =>
      exact feed_tell (s.store ({ · with spawnIdentity := some identity }))
        (by simp [Effect.feeds])
    · rfl
  · rfl

lemma recordTracked_feed (cfg : Options) (s : State) (payload : Bytes) :
    (recordTracked cfg s payload).feed = s.feed := by
  have told : ∀ (u : State) (identity : Native.ProcessIdentity), u.feed = s.feed →
      (u.tell ((if cfg.observer then [Effect.observer (.tracked identity)] else []) ++
        [Effect.owner (.tracked identity)])).feed = s.feed := by
    intro u identity hu
    refine (feed_tell u fun e he => ?_).trans hu
    rcases List.mem_append.mp he with he | he
    · split at he
      · obtain rfl := List.mem_singleton.mp he
        rfl
      · cases he
    · obtain rfl := List.mem_singleton.mp he
      rfl
  have kept : ∀ (u : State) (tracking : Tracking), u.feed = s.feed →
      ({ u with tracking := tracking } : State).feed = s.feed := fun _ _ h => h
  rw [recordTracked]
  apply kept
  cases s.tracking.record (cfg.json payload) with
  | mk tracking identity =>
    cases identity with
    | none =>
      dsimp only
      split <;> rfl
    | some identity =>
      dsimp only
      split
      · exact told (s.store _) identity rfl
      · exact told (s.store _) identity rfl

lemma afterFrame_feed (cfg : Options) (s : State) : (afterFrame cfg s).feed = s.feed := by
  rw [afterFrame]
  split
  · rfl
  · split
    · rfl
    · split <;> rfl

namespace Feed

def opened (v : Feed) : InputFrame → Bool
  | .line _ => v.stdinOpen
  | .eof => false

def offer (v : Feed) (caller : Caller) (frame : InputFrame) : Feed :=
  { v with
    offered := v.offered ++ [(caller, frame)]
    stdinOpen := v.opened frame }

def fail (v : Feed) (pending : List Input) : Feed :=
  { v with
    pending := []
    replied := v.replied ++ pending.map fun entry => (entry.caller, .closed) }

def send (v : Feed) (done : List Input) : Feed :=
  { v with
    sent := v.sent ++ done.map (·.frame.command)
    replied := v.replied ++ done.map fun entry => (entry.caller, .ok) }

end Feed

inductive Fed (v : Feed) : Feed → Prop
  | rest (refs : ℕ) (h : v.refs ≤ refs) : Fed v { v with refs := refs }
  | barred (caller : Caller) (frame : InputFrame) :
      Fed v { v with
        offered := v.offered ++ [(caller, frame)]
        replied := v.replied ++ [(caller, .closed)] }
  | refused (caller : Caller) (frame : InputFrame) (ho : v.stdinOpen = true) :
      Fed v { v.offer caller frame with replied := v.replied ++ [(caller, .closed)] }
  | passed (caller : Caller) (frame : InputFrame) (ho : v.stdinOpen = true)
      (hp : v.pending = []) :
      Fed v ((v.offer caller frame).send [⟨caller, frame, v.refs⟩])
  | queued (caller : Caller) (frame : InputFrame) (ho : v.stdinOpen = true) :
      Fed v { v.offer caller frame with
        pending := v.pending ++ [⟨caller, frame, v.refs⟩]
        refs := v.refs + 1
        flushTimer := true }
  | flushed (done rest : List Input) (timer : Bool) (hp : v.pending = done ++ rest)
      (ht : rest ≠ [] → timer = true) :
      Fed v { v.send done with pending := rest, flushTimer := timer }
  | broken (done rest : List Input) (timer : Bool) (hp : v.pending = done ++ rest) :
      Fed v { (v.send done).fail rest with flushTimer := timer }
  | expired (front : List Input) (entry : Input) (back : List Input)
      (hp : v.pending = front ++ entry :: back) :
      Fed v { v with
        pending := front ++ back
        stdinOpen := v.stdinOpen || decide (entry.frame = .eof)
        replied := v.replied ++ [(entry.caller, .busy)] }
  | failed : Fed v (v.fail v.pending)

structure Fresh (v : Feed) : Prop where
  nodup : (v.pending.map (·.ref)).Nodup
  below : ∀ entry ∈ v.pending, entry.ref < v.refs

lemma hear_feed (s : State) (entry : Entry) :
    (s.hear entry).feed =
      { s.feed with
        offered := s.feed.offered ++ entry.offered
        sent := s.feed.sent ++ entry.sent
        replied := s.feed.replied ++ entry.replied } := by
  refine Feed.ext rfl rfl rfl rfl ?_ ?_ ?_
  · exact List.flatMap_append.trans (congrArg (s.log.offered ++ ·) (List.append_nil _))
  · exact List.flatMap_append.trans (congrArg (s.log.sent ++ ·) (List.append_nil _))
  · exact List.flatMap_append.trans (congrArg (s.log.replied ++ ·) (List.append_nil _))

lemma hear_quiet (s : State) {entry : Entry} (ho : entry.offered = []) (hs : entry.sent = [])
    (hr : entry.replied = []) : (s.hear entry).feed = s.feed := by
  rw [hear_feed, ho, hs, hr, List.append_nil, List.append_nil, List.append_nil]

lemma reply_feed (s : State) (caller : Caller) (reply : SendReply) :
    (s.tell [.sendReply caller reply]).feed =
      { s.feed with replied := s.feed.replied ++ [(caller, reply)] } := by
  refine Feed.ext rfl rfl rfl rfl ?_ ?_ ?_
  · exact List.flatMap_append.trans (List.append_nil _)
  · exact List.flatMap_append.trans (List.append_nil _)
  · exact List.flatMap_append

lemma accept_feed (s : State) (entry : Input) :
    (s.tell [.command entry.frame.command, .sendReply entry.caller .ok]).feed =
      s.feed.send [entry] := by
  refine Feed.ext rfl rfl rfl rfl ?_ ?_ ?_
  · exact List.flatMap_append.trans (List.append_nil _)
  · refine List.flatMap_append.trans ?_
    obtain ⟨caller, frame, ref⟩ := entry
    cases frame <;> rfl
  · exact List.flatMap_append

lemma failPending_feed (s : State) : (s.failPending .closed).feed = s.feed.fail s.pending := by
  refine Feed.ext rfl rfl rfl rfl ?_ ?_ ?_
  · refine flatMap_quiet (f := Entry.offered) (fun e he => ?_) s.log
    obtain ⟨entry, -, rfl⟩ := List.mem_map.mp he
    rfl
  · refine flatMap_quiet (f := Entry.sent) (fun e he => ?_) s.log
    obtain ⟨entry, -, rfl⟩ := List.mem_map.mp he
    rfl
  · refine List.flatMap_append.trans (congrArg (s.log.replied ++ ·) ?_)
    induction s.pending with
    | nil => rfl
    | cons entry rest ih => exact congrArg ((entry.caller, SendReply.closed) :: ·) ih

lemma Feed.send_send (v : Feed) (a b : List Input) : (v.send a).send b = v.send (a ++ b) := by
  simp [Feed.send]

lemma flushInput_fed (s : State) (pending : List Input) (answers : List PortAnswer) :
    ∃ done rest timer, pending = done ++ rest ∧
      ((flushInput s pending answers).feed =
          { s.feed.send done with pending := rest, flushTimer := timer } ∧
        (rest ≠ [] → timer = true) ∨
      (flushInput s pending answers).feed =
        { (s.feed.send done).fail rest with flushTimer := timer }) := by
  induction pending generalizing s answers with
  | nil => exact ⟨[], [], s.flushTimer, rfl, .inl ⟨by simp [flushInput, State.feed, Feed.send], by simp⟩⟩
  | cons entry rest ih =>
    have kept : ∃ done back timer, entry :: rest = done ++ back ∧
        (({ s with pending := entry :: rest, flushTimer := true } : State).feed =
          { s.feed.send done with pending := back, flushTimer := timer } ∧
        (back ≠ [] → timer = true) ∨
        ({ s with pending := entry :: rest, flushTimer := true } : State).feed =
        { (s.feed.send done).fail back with flushTimer := timer }) :=
      ⟨[], entry :: rest, true, rfl, .inl ⟨by simp [State.feed, Feed.send], fun _ => rfl⟩⟩
    cases answers with
    | nil => exact kept
    | cons answer answers =>
      cases answer with
      | busy => exact kept
      | closed =>
        refine ⟨[], entry :: rest, s.flushTimer, rfl, .inr ?_⟩
        change (({ s with pending := entry :: rest } : State).failPending .closed).feed = _
        rw [failPending_feed]
        simp [State.feed, Feed.send, Feed.fail]
      | ok =>
        obtain ⟨done, back, timer, hp, h⟩ :=
          ih (s.tell [.command entry.frame.command, .sendReply entry.caller .ok]) answers
        rw [accept_feed, Feed.send_send] at h
        exact ⟨entry :: done, back, timer, congrArg (entry :: ·) hp, h⟩

lemma submitInput_fed (s : State) (caller : Caller) (frame : InputFrame) (answer : PortAnswer) {v : Feed}
    (ho : v.stdinOpen = true) (hs : s.feed = v.offer caller frame) :
    Fed v (submitInput s caller frame answer).feed := by
  have hq : Fed v (enqueueInput s caller frame).feed := by
    have h : (enqueueInput s caller frame).feed = { v.offer caller frame with
        pending := v.pending ++ [⟨caller, frame, v.refs⟩]
        refs := v.refs + 1
        flushTimer := true } := by
      have hp : s.pending = v.pending := congrArg Feed.pending hs
      have hr : s.refs = v.refs := congrArg Feed.refs hs
      rw [← hp, ← hr, ← hs]
      rfl
    rw [h]
    exact .queued caller frame ho
  rw [submitInput.eq_def]
  split
  · next hp =>
    have hv : v.pending = [] := by
      have hsp : s.pending = v.pending := congrArg Feed.pending hs
      rw [← hsp]
      exact List.isEmpty_iff.mp hp
    cases answer with
    | ok =>
      have h := accept_feed s ⟨caller, frame, v.refs⟩
      rw [h, hs]
      exact .passed caller frame ho hv
    | closed =>
      dsimp only
      rw [reply_feed, hs]
      exact .refused caller frame ho
    | busy => exact hq
  · exact hq

lemma expireInput_feed (s : State) (hv : Fresh s.feed) {entry : Input} (hm : entry ∈ s.pending) :
    ∃ front back, s.pending = front ++ entry :: back ∧
      (expireInput s entry.ref).feed = { s.feed with
        pending := front ++ back
        stdinOpen := s.feed.stdinOpen || decide (entry.frame = .eof)
        replied := s.feed.replied ++ [(entry.caller, .busy)] } := by
  obtain ⟨front, back, hp⟩ := List.append_of_mem hm
  have hn := hv.nodup
  change (s.pending.map (·.ref)).Nodup at hn
  rw [hp, List.map_append, List.map_cons] at hn
  obtain ⟨-, hback, hdis⟩ := List.nodup_append.mp hn
  have hfront : ∀ e ∈ front, e.ref ≠ entry.ref := fun e he =>
    hdis _ (List.mem_map_of_mem he) _ List.mem_cons_self
  have hback : ∀ e ∈ back, e.ref ≠ entry.ref := fun e he h =>
    (List.nodup_cons.mp hback).1 (h ▸ List.mem_map_of_mem he)
  have hf : s.pending.filter (·.ref = entry.ref) = [entry] := by
    rw [hp, List.filter_append, List.filter_cons_of_pos (by simp),
      List.filter_eq_nil_iff.mpr fun e he => by simpa using hfront e he,
      List.filter_eq_nil_iff.mpr fun e he => by simpa using hback e he, List.nil_append]
  have hrest : s.pending.filter (·.ref ≠ entry.ref) = front ++ back := by
    rw [hp, List.filter_append, List.filter_cons_of_neg (by simp),
      List.filter_eq_self.mpr fun e he => by simpa using hfront e he,
      List.filter_eq_self.mpr fun e he => by simpa using hback e he]
  have h : ∀ b, b = (s.stdinOpen || decide (entry.frame = .eof)) →
      ({ s.tell [.sendReply entry.caller .busy] with
        pending := front ++ back, stdinOpen := b } : State).feed = { s.feed with
        pending := front ++ back
        stdinOpen := s.feed.stdinOpen || decide (entry.frame = .eof)
        replied := s.feed.replied ++ [(entry.caller, .busy)] } := by
    intro b hb
    have hr := reply_feed s entry.caller .busy
    rw [hb]
    exact Feed.ext rfl rfl rfl rfl (congrArg Feed.offered hr :) (congrArg Feed.sent hr :)
      (congrArg Feed.replied hr :)
  refine ⟨front, back, hp, ?_⟩
  rw [expireInput, hf, hrest]
  dsimp only
  split
  · next heof => exact h true (by simp [heof])
  · next heof => exact h s.stdinOpen (by simp [heof])

lemma expireInput_fed (s : State) (hv : Fresh s.feed) (ref : Ref) :
    Fed s.feed (expireInput s ref).feed := by
  by_cases hm : ∃ entry ∈ s.pending, entry.ref = ref
  · obtain ⟨entry, hm, rfl⟩ := hm
    obtain ⟨front, back, hp, h⟩ := expireInput_feed s hv hm
    rw [h]
    exact .expired front entry back hp
  · have hf : s.pending.filter (·.ref = ref) = [] :=
      List.filter_eq_nil_iff.mpr fun e he hr => hm ⟨e, he, of_decide_eq_true hr⟩
    rw [expireInput, hf]
    exact .rest s.refs (le_refl _)

lemma ended_feed {u : State} {v : Feed} (h : u.feed = v) (e : Ended) :
    (replyPullWaiter cfg (({ u with exit := some e }).failPending .closed)).feed =
      v.fail v.pending := by
  rw [replyPullWaiter_feed, failPending_feed, ← h]
  rfl

lemma childExited_feed (cfg : Options) (s : State) (payload : Bytes) :
    (childExited cfg s payload).feed = s.feed.fail s.feed.pending := by
  rw [childExited]
  apply ended_feed
  rw [notifyExit_feed, flushBuffers_feed, finishTracking_feed]

lemma spawnFailed_feed (cfg : Options) (s : State) (payload : Bytes) :
    (spawnFailed cfg s payload).feed = s.feed.fail s.feed.pending := by
  rw [spawnFailed]
  apply ended_feed
  rw [finishTracking_feed, notifyExit_feed]

lemma handleExitStatus_feed (cfg : Options) (s : State) :
    (handleExitStatus cfg s).feed = s.feed.fail s.feed.pending := by
  have h : ∀ u : State, u.feed = s.feed.fail s.feed.pending →
      (if cfg.delivery = .pull ∧ u.queue ≠ [] then u else u.stop).feed =
        s.feed.fail s.feed.pending := by
    intro u hu
    split
    · exact hu
    · exact hu
  apply h
  apply ended_feed
  rw [finishTracking_feed, notifyExit_feed, flushBuffers_feed]

lemma handleData_fed (s : State) (tag : Tag) (payload : Bytes) :
    Fed s.feed (handleData cfg s tag payload).feed := by
  have hr : Fed s.feed s.feed := .rest s.refs (le_refl _)
  rw [handleData, afterFrame_feed]
  cases tag with
  | stdout => exact (emit_feed cfg s .stdout payload).symm ▸ hr
  | stderr => exact (emit_feed cfg s .stderr payload).symm ▸ hr
  | spawned => exact (recordIdentity_feed cfg s payload).symm ▸ hr
  | tracked => exact (recordTracked_feed cfg s payload).symm ▸ hr
  | exit => exact (childExited_feed cfg s payload).symm ▸ .failed
  | error => exact (spawnFailed_feed cfg s payload).symm ▸ .failed
  | other => exact hr

lemma handleRecv_fed (s : State) (caller : Caller) :
    Fed s.feed (handleRecv cfg s caller).feed := by
  have hr : ∀ u : State, u.feed = s.feed → Fed s.feed u.feed :=
    fun u hu => hu.symm ▸ .rest s.refs (le_refl _)
  rw [handleRecv.eq_def]
  split
  · exact hr _ (feed_tell s (by simp [Effect.feeds]))
  · exact hr _ (feed_tell s (by simp [Effect.feeds]))
  · split
    · dsimp only
      split
      · exact hr _ rfl
      · exact hr _ ((feed_tell _ (by simp [Effect.feeds])).trans rfl)
    · exact hr _ rfl
    · rw [grantPullCredit_feed]
      exact .rest (s.refs + 1) (Nat.le_succ _)

lemma handleCall_fed (s : State) (caller : Caller) (call : Call) (answer : PortAnswer) :
    Fed s.feed (handleCall cfg (s.hear (.handled (.call caller call))) caller call answer).feed := by
  have barred : ∀ frame, Entry.offered (.handled (.call caller call)) = [(caller, frame)] →
      Fed s.feed ((s.hear (.handled (.call caller call))).tell [.sendReply caller .closed]).feed := by
    intro frame hf
    rw [reply_feed, hear_feed, hf]
    simp only [Entry.sent, Entry.replied, List.append_nil]
    exact .barred caller frame
  have opened : ∀ {e : Option Ended}, ¬(e.isSome ∨ s.stdinOpen = false) → s.stdinOpen = true :=
    fun h => (Bool.not_eq_false _).mp (not_or.mp h).2
  cases call with
  | sendLine line =>
    rw [handleCall]
    split
    · exact barred (.line line) rfl
    · next h =>
      refine submitInput_fed _ caller _ answer (opened h) ?_
      rw [hear_feed]
      simp [Feed.offer, Feed.opened, Entry.offered, Entry.sent, Entry.replied]
  | sendEof =>
    rw [handleCall]
    split
    · exact barred .eof rfl
    · next h =>
      refine submitInput_fed _ caller _ answer (opened h) ?_
      have hh := hear_feed s (.handled (.call caller .sendEof))
      refine Feed.ext rfl rfl rfl rfl (congrArg Feed.offered hh :) ?_ ?_
      · exact (congrArg Feed.sent hh).trans (List.append_nil _)
      · exact (congrArg Feed.replied hh).trans (List.append_nil _)
  | recv =>
    have hh : (s.hear (.handled (.call caller .recv))).feed = s.feed := hear_quiet s rfl rfl rfl
    rw [handleCall, ← hh]
    exact handleRecv_fed _ caller

lemma handle_fed (hv : Fresh s.feed) (m : Message) (answers : List PortAnswer) :
    Fed s.feed (handle cfg (s.hear (.handled m)) m answers).feed := by
  have quiet : (∀ caller call, m ≠ .call caller call) → (s.hear (.handled m)).feed = s.feed := by
    intro hm
    refine hear_quiet s ?_ rfl rfl
    cases m with
    | call caller call => exact absurd rfl (hm caller call)
    | _ => rfl
  have hr : ∀ u : State, u.feed = s.feed → Fed s.feed u.feed :=
    fun u hu => hu.symm ▸ .rest s.refs (le_refl _)
  cases m with
  | call caller call => exact handleCall_fed s caller call _
  | port event =>
    have hq := quiet fun _ _ h => by cases h
    cases event with
    | exitStatus =>
      rw [handle, handleExitStatus_feed, hq]
      exact .failed
    | data tag payload =>
      rw [handle, ← hq]
      exact handleData_fed _ tag payload
  | ownerDown => exact hr _ (quiet fun _ _ h => by cases h)
  | recvTimeout ref =>
    have hq := quiet fun _ _ h => by cases h
    rw [handle, handleRecvTimeout]
    split
    · split
      · exact hr _ ((feed_tell (s.hear _) (by simp [Effect.feeds])).trans hq)
      · exact hr _ hq
    · exact hr _ hq
  | flushInput =>
    have hq := quiet fun _ _ h => by cases h
    have hs : ({ s.hear (.handled .flushInput) with flushTimer := false } : State).feed =
        { s.feed with flushTimer := false } := by
      rw [← hq]
      rfl
    obtain ⟨done, rest, timer, hp, ⟨h, ht⟩ | h⟩ :=
      flushInput_fed { s.hear (.handled .flushInput) with flushTimer := false } s.pending answers
    · rw [handle]
      exact (h.trans (by rw [hs])) ▸ .flushed done rest timer hp ht
    · rw [handle]
      exact (h.trans (by rw [hs])) ▸ .broken done rest timer hp
  | sendTimeout ref =>
    have hq := quiet fun _ _ h => by cases h
    rw [handle, ← hq]
    exact expireInput_fed _ (hq ▸ hv) ref
  | stop => exact hr _ (quiet fun _ _ h => by cases h)
  | other => exact hr _ (quiet fun _ _ h => by cases h)

lemma conclude_feed (cfg : Options) (s : State) (result : Shutdown) :
    (conclude cfg s result).feed = s.feed :=
  finishTracking_feed cfg s _

lemma settle_feed (cfg : Options) (s : State) (kill : KillAnswer) :
    (settle cfg s kill).feed = s.feed := by
  rw [settle.eq_def]
  split
  · next ended _ => exact finishTracking_feed cfg s ended.terminal
  · exact feed_tell s (by simp [Effect.feeds])
  · rfl
  · exact conclude_feed cfg s _
  · exact conclude_feed cfg s _

lemma terminate_feed (cfg : Options) (s : State) (kill : KillAnswer) :
    (terminate cfg s kill).feed = s.feed.fail s.feed.pending := by
  rw [terminate, settle_feed, flushMessages_feed, failPending_feed]
  rfl

lemma awaitExit_feed (cfg : Options) (s : State) (event : PortEvent) :
    (awaitExit cfg s event).feed = s.feed := by
  cases event with
  | exitStatus => exact conclude_feed cfg s _
  | data tag payload =>
    cases tag with
    | exit => exact conclude_feed cfg s _
    | error => exact conclude_feed cfg s _
    | spawned => exact recordIdentity_feed cfg s payload
    | tracked => exact recordTracked_feed cfg s payload
    | stdout => rfl
    | stderr => rfl
    | other => rfl

theorem step_fed (hv : Fresh s.feed) {l : Label} (h : step cfg s l = some t) :
    Fed s.feed t.feed := by
  have hr : ∀ u : State, u.feed = s.feed → Fed s.feed u.feed :=
    fun u hu => hu.symm ▸ .rest s.refs (le_refl _)
  rw [step.eq_def] at h
  split at h
  · obtain rfl := Option.some.inj h
    exact hr _ rfl
  · next m answers hp =>
    obtain rfl := Option.some.inj h
    exact handle_fed hv m answers
  · next kill hp =>
    obtain rfl := Option.some.inj h
    exact (terminate_feed cfg s kill).symm ▸ .failed
  · next event hp =>
    obtain rfl := Option.some.inj h
    exact hr _ ((awaitExit_feed cfg _ event).trans (hear_quiet s rfl rfl rfl))
  · obtain rfl := Option.some.inj h
    exact hr _ (conclude_feed cfg s _)
  · next event hp =>
    obtain rfl := Option.some.inj h
    exact hr _ (hear_quiet s rfl rfl rfl)
  · next terminal hp =>
    obtain rfl := Option.some.inj h
    refine hr _ ((feed_tell (s.store (·.insertNew terminal)) fun e he => ?_).trans rfl)
    rcases List.mem_cons.mp he with rfl | he
    · rfl
    · split at he
      · obtain rfl := List.mem_singleton.mp he
        rfl
      · cases he
  · next hp =>
    obtain rfl := Option.some.inj h
    refine hr _ ((feed_tell s fun e he => ?_).trans rfl)
    obtain ⟨reply, -, rfl⟩ := List.mem_map.mp he
    rfl
  · cases h
  · cases h
  · obtain rfl := Option.some.inj h
    exact hr _ rfl
  · cases h

def Input.offer (entry : Input) : Caller × InputFrame := (entry.caller, entry.frame)

def callers (replied : List (Caller × SendReply)) (p : SendReply → Bool) : List Caller :=
  (replied.filter (p ·.2)).map (·.1)

@[simp] lemma callers_append (a b : List (Caller × SendReply)) (p : SendReply → Bool) :
    callers (a ++ b) p = callers a p ++ callers b p := by
  simp [callers]

@[simp] lemma callers_single (caller : Caller) (reply : SendReply) (p : SendReply → Bool) :
    callers [(caller, reply)] p = if p reply then [caller] else [] := by
  cases h : p reply <;> simp [callers, h]

@[simp] lemma callers_map (entries : List Input) (reply : SendReply) (p : SendReply → Bool) :
    callers (entries.map fun entry => (entry.caller, reply)) p =
      if p reply then entries.map (·.caller) else [] := by
  cases h : p reply <;> simp [callers, h, List.filter_map, Function.comp_def]

/-- The input of a session as a queue of offers: `es` is what happened to them. -/
structure Boxed (v : Feed) (es : List (Outbox.Event Caller InputFrame)) : Prop where
  run : Run Outbox.Step [] es (v.pending.map Input.offer)
  offered : Outbox.offered es = v.offered
  sent : (Outbox.taken es).map (·.2.command) = v.sent
  taken : (Outbox.taken es).map Prod.fst = callers v.replied (· = .ok)
  dropped : (Outbox.dropped es).map Prod.fst = callers v.replied (· ≠ .ok)

namespace Boxed

variable {v w : Feed} {es : List (Outbox.Event Caller InputFrame)}

lemma spurned (hv : Boxed v es) (x : Caller × InputFrame) {reply : SendReply} (hr : reply ≠ .ok)
    (hp : w.pending = v.pending) (ho : w.offered = v.offered ++ [x]) (hs : w.sent = v.sent)
    (ht : w.replied = v.replied ++ [(x.1, reply)]) :
    Boxed w (es ++ [.offered x, .dropped x]) where
  run := by
    refine hv.run.append (.cons (.offer _ x) (.single ?_))
    rw [hp]
    simpa using Outbox.Step.drop (v.pending.map Input.offer) x []
  offered := by simp [hv.offered, ho]
  sent := by simp [hv.sent, hs]
  taken := by simp [hv.taken, ht, hr]
  dropped := by simp [hv.dropped, ht, hr]

lemma next (hv : Boxed v es) (h : Fed v w) : ∃ more, Boxed w (es ++ more) := by
  cases h with
  | rest refs hr => exact ⟨[], by simpa using ⟨hv.run, hv.offered, hv.sent, hv.taken, hv.dropped⟩⟩
  | barred caller frame =>
    exact ⟨_, hv.spurned (caller, frame) SendReply.noConfusion rfl rfl rfl rfl⟩
  | refused caller frame ho =>
    exact ⟨_, hv.spurned (caller, frame) SendReply.noConfusion rfl rfl rfl rfl⟩
  | passed caller frame ho hp =>
    have hrun := hv.run
    rw [hp] at hrun
    refine ⟨[.offered (caller, frame), .taken (caller, frame)],
      hrun.append (.cons (.offer _ _) (.single ?_)), ?_, ?_, ?_, ?_⟩
    · simpa [Feed.send, Feed.offer, hp] using Outbox.Step.take (caller, frame) []
    · simp [hv.offered, Feed.send, Feed.offer]
    · simp [hv.sent, Feed.send, Feed.offer]
    · simp [hv.taken, Feed.send, Feed.offer, callers]
    · simp [hv.dropped, Feed.send, Feed.offer, callers]
  | queued caller frame ho =>
    refine ⟨[.offered (caller, frame)], hv.run.append (.single ?_), ?_, ?_, ?_, ?_⟩
    · rw [List.map_append]
      exact .offer _ _
    · simp [hv.offered, Feed.offer]
    · simp [hv.sent, Feed.offer]
    · simp [hv.taken, Feed.offer]
    · simp [hv.dropped, Feed.offer]
  | flushed done rest timer hp ht =>
    have hrun := hv.run
    rw [hp, List.map_append] at hrun
    refine ⟨done.map fun entry => .taken entry.offer,
      hrun.append (Outbox.take_all done Input.offer _), ?_, ?_, ?_, ?_⟩
    · simp [hv.offered, Feed.send]
    · simp [hv.sent, Feed.send, Input.offer, Function.comp_def]
    · simp [hv.taken, Feed.send, Input.offer, Function.comp_def]
    · simp [hv.dropped, Feed.send]
  | broken done rest timer hp =>
    have hrun := hv.run
    rw [hp, List.map_append] at hrun
    refine ⟨(done.map fun entry => .taken entry.offer) ++ rest.map fun entry => .dropped entry.offer,
      hrun.append ((Outbox.take_all done Input.offer _).append (Outbox.drop_all rest Input.offer)),
      ?_, ?_, ?_, ?_⟩
    · simp [hv.offered, Feed.send, Feed.fail]
    · simp [hv.sent, Feed.send, Feed.fail, Input.offer, Function.comp_def]
    · simp [hv.taken, Feed.send, Feed.fail, Input.offer, Function.comp_def]
    · simp [hv.dropped, Feed.send, Feed.fail, Input.offer, Function.comp_def]
  | expired front entry back hp =>
    have hrun := hv.run
    rw [hp, List.map_append, List.map_cons] at hrun
    refine ⟨[.dropped entry.offer], hrun.append (.single ?_), ?_, ?_, ?_, ?_⟩
    · rw [List.map_append]
      exact .drop _ _ _
    · simp [hv.offered]
    · simp [hv.sent]
    · simp [hv.taken]
    · simp [hv.dropped, Input.offer]
  | failed =>
    refine ⟨v.pending.map fun entry => .dropped entry.offer,
      hv.run.append (Outbox.drop_all v.pending Input.offer), ?_, ?_, ?_, ?_⟩
    · simp [hv.offered, Feed.fail]
    · simp [hv.sent, Feed.fail]
    · simp [hv.taken, Feed.fail]
    · simp [hv.dropped, Feed.fail, Input.offer, Function.comp_def]

end Boxed

def Feed.line (v : Feed) : List Command :=
  v.sent ++ v.pending.map (·.frame.command)

structure Tended (v : Feed) : Prop where
  fresh : Fresh v
  armed : v.pending ≠ [] → v.flushTimer = true
  /-- Nothing stands behind an EOF. -/
  sealed : v.line.Pairwise fun earlier _ => earlier ≠ .eof
  unsealed : v.stdinOpen = true → Command.eof ∉ v.line

namespace Tended

variable {v w : Feed}

lemma shorter (hv : Tended v) (hp : w.pending.Sublist v.pending) (hr : v.refs ≤ w.refs)
    (ht : w.pending ≠ [] → w.flushTimer = true) (hl : w.line.Sublist v.line)
    (ho : w.stdinOpen = true → Command.eof ∉ w.line) : Tended w where
  fresh := ⟨hv.fresh.nodup.sublist (hp.map _),
    fun entry he => (hv.fresh.below entry (hp.subset he)).trans_le hr⟩
  armed := ht
  sealed := hv.sealed.sublist hl
  unsealed := ho

lemma append (hv : Tended v) (ho : v.stdinOpen = true) {frame : InputFrame}
    (hl : w.line = v.line ++ [frame.command]) :
    (w.line.Pairwise fun earlier _ => earlier ≠ .eof) ∧
      (v.opened frame = true → Command.eof ∉ w.line) := by
  have hn := hv.unsealed ho
  rw [hl]
  constructor
  · refine List.pairwise_append.mpr ⟨hv.sealed, List.pairwise_singleton _ _, ?_⟩
    rintro a ha _ - rfl
    exact hn ha
  · intro ht
    cases frame with
    | line bytes => simpa [InputFrame.command] using hn
    | eof => cases ht

lemma next (hv : Tended v) (h : Fed v w) : Tended w := by
  cases h with
  | rest refs hr => exact hv.shorter (.refl _) hr hv.armed (.refl _) hv.unsealed
  | barred caller frame => exact hv.shorter (.refl _) (le_refl _) hv.armed (.refl _) hv.unsealed
  | refused caller frame ho =>
    exact hv.shorter (.refl _) (le_refl _) hv.armed (.refl _) fun _ => hv.unsealed ho
  | passed caller frame ho hp =>
    have hl : ((v.offer caller frame).send [⟨caller, frame, v.refs⟩]).line =
        v.line ++ [frame.command] := by
      simp [Feed.line, Feed.send, Feed.offer, hp]
    obtain ⟨hs, hu⟩ := hv.append ho hl
    exact ⟨⟨hv.fresh.nodup, hv.fresh.below⟩, hv.armed, hs, hu⟩
  | queued caller frame ho =>
    have hl : Feed.line { v.offer caller frame with
        pending := v.pending ++ [⟨caller, frame, v.refs⟩]
        refs := v.refs + 1
        flushTimer := true } = v.line ++ [frame.command] := by
      simp [Feed.line, Feed.offer]
    obtain ⟨hs, hu⟩ := hv.append ho hl
    refine ⟨⟨?_, ?_⟩, fun _ => rfl, hs, hu⟩
    · rw [List.map_append]
      refine List.nodup_append.mpr ⟨hv.fresh.nodup, List.nodup_singleton _, ?_⟩
      intro a ha b hb
      obtain ⟨entry, he, rfl⟩ := List.mem_map.mp ha
      obtain rfl := List.mem_singleton.mp hb
      exact (hv.fresh.below entry he).ne
    · intro entry he
      rcases List.mem_append.mp he with he | he
      · exact (hv.fresh.below entry he).trans (Nat.lt_succ_self _)
      · obtain rfl := List.mem_singleton.mp he
        exact Nat.lt_succ_self _
  | flushed done rest timer hp ht =>
    have hl : Feed.line { v.send done with pending := rest, flushTimer := timer } = v.line := by
      simp [Feed.line, Feed.send, hp]
    refine hv.shorter ?_ (le_refl _) ht (hl ▸ .refl _) (hl ▸ hv.unsealed)
    rw [hp]
    exact List.sublist_append_right _ _
  | broken done rest timer hp =>
    have hl : (Feed.line { (v.send done).fail rest with flushTimer := timer }).Sublist v.line := by
      simp [Feed.line, Feed.send, Feed.fail, hp]
    exact hv.shorter (List.nil_sublist _) (le_refl _) (fun h => absurd rfl h) hl
      fun ho hm => hv.unsealed ho (hl.subset hm)
  | expired front entry back hp =>
    have hl : v.line = v.sent ++ front.map (·.frame.command) ++ entry.frame.command ::
        back.map (·.frame.command) := by
      simp [Feed.line, hp]
    have hw : (v.sent ++ (front ++ back).map (·.frame.command)).Sublist v.line := by
      rw [hl, List.map_append, ← List.append_assoc]
      exact (List.Sublist.refl _).append (List.sublist_cons_self _ _)
    refine hv.shorter ?_ (le_refl _) (fun _ => hv.armed ?_) hw fun ho hm => ?_
    · rw [hp]
      exact (List.Sublist.refl front).append (List.sublist_cons_self entry back)
    · rw [hp]
      exact List.append_ne_nil_of_right_ne_nil _ (List.cons_ne_nil _ _)
    · -- an expired EOF was the last frame, so what is left holds none
      rcases Bool.or_eq_true_iff.mp ho with ho | he
      · exact hv.unsealed ho (hw.subset hm)
      · have hs := hv.sealed
        rw [hl, of_decide_eq_true he] at hs
        obtain ⟨-, hb, ha⟩ := List.pairwise_append.mp hs
        change Command.eof ∈ v.sent ++ (front ++ back).map (·.frame.command) at hm
        rw [List.map_append, ← List.append_assoc] at hm
        rcases List.mem_append.mp hm with hm | hm
        · exact ha _ hm _ List.mem_cons_self rfl
        · exact (List.pairwise_cons.mp hb).1 _ hm rfl
  | failed =>
    have hl : (v.fail v.pending).line.Sublist v.line := by
      simp [Feed.line, Feed.fail]
    exact hv.shorter (List.nil_sublist _) (le_refl _) (fun h => absurd rfl h) hl
      fun ho hm => hv.unsealed ho (hl.subset hm)

end Tended

def Emptied (s : State) : Prop :=
  (s.phase = .running ∨ s.phase = .stopping ∨ s.phase = .killed) ∨ s.pending = []

lemma Emptied.step (hl : Live cfg s) (hs : Emptied s) {l : Label} (h : step cfg s l = some t) :
    Emptied t := by
  have quiet : ∀ {phase : Phase}, s.phase = phase → (phase ≠ .running ∧ phase ≠ .stopping ∧
      phase ≠ .killed) → s.pending = [] := by
    intro phase hp hn
    rcases hs with (h | h | h) | h
    · exact absurd (hp.symm.trans h) hn.1
    · exact absurd (hp.symm.trans h) hn.2.1
    · exact absurd (hp.symm.trans h) hn.2.2
    · exact h
  have hm := step_move hl h
  rw [step.eq_def] at h
  split at h
  · obtain rfl := Option.some.inj h
    exact hs
  · next m answers hp =>
    cases hm with
    | turn _ _ ht => exact .inl ((turn_phase hl hp ht).1.imp_right .inl)
  · next kill hp =>
    obtain rfl := Option.some.inj h
    exact .inr (congrArg Feed.pending (terminate_feed cfg s kill))
  · next event hp =>
    obtain rfl := Option.some.inj h
    exact .inr ((congrArg Feed.pending (awaitExit_feed cfg _ event)).trans (quiet hp (by simp)))
  · next hp =>
    obtain rfl := Option.some.inj h
    exact .inr ((congrArg Feed.pending (conclude_feed cfg s _)).trans (quiet hp (by simp)))
  · next event hp =>
    obtain rfl := Option.some.inj h
    exact .inr (quiet hp (by simp))
  · next hp =>
    obtain rfl := Option.some.inj h
    exact .inr (quiet hp (by simp))
  · next hp =>
    obtain rfl := Option.some.inj h
    exact .inr (quiet hp (by simp))
  · cases h
  · cases h
  · obtain rfl := Option.some.inj h
    exact .inl (.inr (.inr rfl))
  · cases h

lemma run_fed {as : List Label} (h : Steps cfg (init cfg) as t) :
    Live cfg t ∧ Tended t.feed ∧ (∃ es, Boxed t.feed es) ∧ Emptied t := by
  refine h.invariant
    (I := fun s => Live cfg s ∧ Tended s.feed ∧ (∃ es, Boxed s.feed es) ∧ Emptied s)
    (fun s l u hs hu => ?_) ⟨.init cfg, ?_, ⟨[], .nil _, rfl, rfl, rfl, rfl⟩, .inl (.inl rfl)⟩
  · obtain ⟨hl, ht, ⟨es, hb⟩, he⟩ := hs
    have hf := step_fed ht.fresh hu
    obtain ⟨more, hb⟩ := hb.next hf
    exact ⟨hl.step hu, ht.next hf, ⟨_, hb⟩, he.step hl hu⟩
  · exact ⟨⟨List.nodup_nil, fun _ h => by cases h⟩, fun h => absurd rfl h, .nil,
      fun _ => List.not_mem_nil⟩

lemma replies_length (caller : Caller) (log : Log) :
    (log.sendReplies caller).length = log.replied.countP (·.1 = caller) := by
  rw [Log.sendReplies, List.length_map, List.countP_eq_length_filter]

lemma callers_count (replied : List (Caller × SendReply)) (caller : Caller) :
    (callers replied (· = .ok)).count caller + (callers replied (· ≠ .ok)).count caller =
      replied.countP (·.1 = caller) := by
  induction replied with
  | nil => rfl
  | cons x replied ih =>
    obtain ⟨c, reply⟩ := x
    by_cases hr : reply = .ok <;> by_cases hc : c = caller <;>
      simp [callers, hr, hc] at ih ⊢ <;> omega

lemma mem_callers {log : Log} {caller : Caller} :
    caller ∈ callers log.replied (· = .ok) ↔ SendReply.ok ∈ log.sendReplies caller := by
  simp [callers, Log.sendReplies]

lemma Boxed.count {v : Feed} {es : List (Outbox.Event Caller InputFrame)} (hv : Boxed v es)
    (caller : Caller) :
    v.replied.countP (·.1 = caller) + v.pending.countP (·.caller = caller) =
      v.offered.countP (·.1 = caller) := by
  have hp := (Outbox.offered_perm hv.run).map Prod.fst
  rw [List.nil_append, hv.offered, List.map_append, List.map_append, hv.taken, hv.dropped,
    List.map_map] at hp
  have hc := hp.count_eq caller
  rw [List.count_append, List.count_append, callers_count] at hc
  have h1 : ∀ xs : List (Caller × InputFrame),
      (xs.map Prod.fst).count caller = xs.countP (·.1 = caller) := by
    intro xs
    rw [List.count_eq_countP, List.countP_map]
    rfl
  have h2 : (v.pending.map (Prod.fst ∘ Input.offer)).count caller =
      v.pending.countP (·.caller = caller) := by
    rw [List.count_eq_countP, List.countP_map]
    rfl
  rw [h1, h2] at hc
  exact hc.symm

/-- The callers of GenServer calls are told apart: `from` holds a fresh reference. -/
def Log.Distinct (log : Log) : Prop := (log.offered.map Prod.fst).Nodup

lemma sent_eq_filter {es : List (Outbox.Event Caller InputFrame)} (hb : Boxed t.feed es)
    (hn : t.log.Distinct) :
    t.log.sent = (t.log.offered.filter fun call => SendReply.ok ∈ t.log.sendReplies call.1).map
      (·.2.command) := by
  have htaken := Outbox.taken_eq_filter hb.run (by rw [hb.offered]; exact hn)
  have hs := hb.sent
  rw [htaken, hb.taken, hb.offered] at hs
  refine hs.symm.trans (congrArg (List.map _) (List.filter_congr fun call _ => ?_))
  exact decide_eq_decide.mpr mem_callers

lemma step_message {u : State} {m : Message} {answers : List PortAnswer}
    (h : step cfg t (.message m answers) = some u) :
    t.phase = .running ∧ handle cfg (t.hear (.handled m)) m answers = u := by
  cases hp : t.phase with
  | running => exact ⟨rfl, by simpa [step, hp] using h⟩
  | _ => simp [step, hp] at h

lemma sendLine_line {u : State} (ho : t.stdinOpen = true) (hx : t.exit = none) {caller : Caller}
    {line : Bytes} {answers : List PortAnswer}
    (h : step cfg t (.message (.call caller (.sendLine line)) (.ok :: answers)) = some u) :
    u.feed.line = t.feed.line ++ [.stdin (line ++ [newline])] := by
  have hh := hear_feed t (.handled (.call caller (.sendLine line)))
  obtain ⟨-, rfl⟩ := step_message h
  rw [handle, handleCall, if_neg (by simp [hx, ho, State.hear]), submitInput.eq_def]
  split
  · next hq =>
    have hq : t.pending = [] := List.isEmpty_iff.mp hq
    have hs : (t.hear (.handled (.call caller (.sendLine line)))).feed.line = t.feed.line := by
      rw [hh]
      simp [Feed.line, Entry.sent]
    have ha := accept_feed (t.hear (.handled (.call caller (.sendLine line)))) ⟨caller, .line line, 0⟩
    refine (congrArg Feed.line ha).trans ?_
    rw [← hs]
    simp [Feed.line, Feed.send, State.feed, State.hear, hq, InputFrame.command]
  · have hs : (t.hear (.handled (.call caller (.sendLine line)))).log.sent = t.log.sent :=
      (congrArg Feed.sent hh).trans (List.append_nil _)
    simp [Feed.line, State.feed, enqueueInput, hs, InputFrame.command]
    simp [State.hear]

theorem input_queue {as : List Label} (h : Steps cfg (init cfg) as t) :
    (t.log.Distinct →
      t.log.sent = (t.log.offered.filter fun call => SendReply.ok ∈ t.log.sendReplies call.1).map
        (·.2.command)) ∧
    (∀ caller, (t.log.sendReplies caller).length + t.pending.countP (·.caller = caller) =
      t.log.offered.countP (·.1 = caller)) ∧
    (t.log.Distinct → ∀ caller, SendReply.busy ∈ t.log.sendReplies caller →
      SendReply.ok ∉ t.log.sendReplies caller) ∧
    Emptied t ∧
    (t.log.sent.Pairwise fun earlier _ => earlier ≠ .eof) ∧
    (t.pending ≠ [] → t.flushTimer = true) ∧
    (∀ entry ∈ t.pending, entry.frame = .eof → ∀ answers u,
      step cfg t (.message (.sendTimeout entry.ref) answers) = some u →
      u.log.replied = t.log.replied ++ [(entry.caller, .busy)] ∧ u.stdinOpen = true ∧
        Command.eof ∉ u.feed.line) ∧
    (t.stdinOpen = true → t.exit = none → ∀ caller line answers u,
      step cfg t (.message (.call caller (.sendLine line)) (.ok :: answers)) = some u →
      u.feed.line = t.feed.line ++ [.stdin (line ++ [newline])]) := by
  obtain ⟨hl, ht, ⟨es, hb⟩, he⟩ := run_fed h
  refine ⟨sent_eq_filter hb, fun caller => ?_, fun hn caller hbusy hok => ?_, he, ?_, ht.armed, ?_,
    fun ho hx caller line answers u => sendLine_line ho hx⟩
  · rw [replies_length]
    exact hb.count caller
  · -- two answers would need two calls of one caller
    have hc := hb.count caller
    have hone : t.log.offered.countP (·.1 = caller) ≤ 1 := by
      have h1 := List.nodup_iff_count_le_one.mp hn caller
      rw [List.count_eq_countP, List.countP_map] at h1
      exact h1
    have hlen : 2 ≤ (t.log.sendReplies caller).length := by
      rcases hr : t.log.sendReplies caller with _ | ⟨a, _ | ⟨b, rest⟩⟩
      · rw [hr] at hok
        cases hok
      · rw [hr] at hok hbusy
        cases (List.mem_singleton.mp hok).trans (List.mem_singleton.mp hbusy).symm
      · simp
    rw [replies_length] at hlen
    change t.log.replied.countP _ + t.pending.countP _ = t.log.offered.countP _ at hc
    omega
  · have hs := ht.sealed
    exact (List.pairwise_append.mp hs).1
  · intro entry hm heof answers u hu
    have hnext := ht.next (step_fed ht.fresh hu)
    obtain ⟨-, rfl⟩ := step_message hu
    have hq : (t.hear (.handled (.sendTimeout entry.ref))).feed = t.feed := hear_quiet t rfl rfl rfl
    obtain ⟨front, back, -, hx⟩ := expireInput_feed (t.hear _) (hq ▸ ht.fresh) hm
    have ho : (expireInput (t.hear (.handled (.sendTimeout entry.ref))) entry.ref).stdinOpen =
        true := by
      refine (congrArg Feed.stdinOpen hx).trans ?_
      simp [heof]
    refine ⟨?_, ho, hnext.unsealed ho⟩
    refine (congrArg Feed.replied hx).trans ?_
    rw [hq]
    rfl

/-- A busy port: a line and an EOF wait, the line is taken, the EOF expires, one more line goes. -/
def busyInput : List Label :=
  [.message (.call 0 (.sendLine [97])) [.busy], .message (.call 1 .sendEof) [],
    .message .flushInput [.ok, .busy], .message (.sendTimeout 1) [],
    .message (.call 2 (.sendLine [98])) [.ok]]

theorem input_queue_small :
    ∃ t, exec (step (smallOptions .pull)) (init (smallOptions .pull)) busyInput = some t ∧
      (t.log.Distinct →
        t.log.sent = (t.log.offered.filter fun call => SendReply.ok ∈ t.log.sendReplies call.1).map
          (·.2.command)) ∧
      (∀ caller, (t.log.sendReplies caller).length + t.pending.countP (·.caller = caller) =
        t.log.offered.countP (·.1 = caller)) ∧
      (t.log.sent.Pairwise fun earlier _ => earlier ≠ .eof) ∧
      t.log.sent = [.stdin [97, 10], .stdin [98, 10]] := by
  have hrun : (exec (step (smallOptions .pull)) (init (smallOptions .pull)) busyInput).any
      (fun t => decide (t.log.sent = [.stdin [97, 10], .stdin [98, 10]])) = true := by
    decide +kernel
  obtain ⟨t, ht, hs⟩ := Option.any_eq_true .. |>.mp hrun
  obtain ⟨hsent, hcount, -, -, hlast, -⟩ := input_queue (exec_run ht)
  exact ⟨t, ht, hsent, hcount, hlast, of_decide_eq_true hs⟩

end Forcola.Beam.Duplex
