import Forcola.Beam.Duplex
import Forcola.Library.Transition

/-! What a session's log says, and which callbacks leave the delivery state alone. -/

namespace Forcola.Beam.Duplex

open Library
open Native (Bytes Pipe ProcessIdentity)
open Shim (Tag Command)

namespace Message

def quiet : Message → Bool
  | .call _ .recv | .ownerDown | .stop | .port .exitStatus => false
  | .port (.data tag _) =>
    match tag with
    | .spawned | .tracked | .other => true
    | _ => false
  | _ => true

def ends : Message → Bool
  | .port .exitStatus | .port (.data .exit _) | .port (.data .error _) => true
  | _ => false

def flushes : Message → Bool
  | .port .exitStatus | .port (.data .exit _) => true
  | _ => false

end Message

def Tag.ofPipe : Pipe → Tag
  | .stdout => .stdout
  | .stderr => .stderr

def PortEvent.output (p : Pipe) : PortEvent → Bytes
  | .data tag payload => if tag = Tag.ofPipe p then payload else []
  | .exitStatus => []

namespace Entry

def received (p : Pipe) : Entry → Bytes
  | .handled (.port event) => event.output p
  | _ => []

/-- Output that came to the process, whatever it did with it. -/
def reached (p : Pipe) : Entry → Bytes
  | .handled (.port event) | .awaited event | .drained event => event.output p
  | _ => []

def delivered (p : Pipe) : Entry → List Bytes
  | .did (.recvReply _ (.line line)) | .did (.owner (.line line)) =>
    if line.pipe = p then [line.bytes] else []
  | _ => []

def granted (p : Pipe) : Entry → ℕ
  | .did (.command (.credit pipe bytes)) => if pipe = p then bytes else 0
  | _ => 0

def dones : Entry → List Terminal
  | .did (.recvReply _ (.done terminal)) => [terminal]
  | _ => []

def asks (caller : Caller) : Entry → Bool
  | .handled (.call asking .recv) => asking == caller
  | _ => false

def answers (caller : Caller) : Entry → Bool
  | .did (.recvReply answered _) => answered == caller
  | _ => false

def published : Entry → List Terminal
  | .did (.published terminal) | .did (.recipient terminal) => [terminal]
  | _ => []

end Entry

namespace Log

def received (p : Pipe) (log : Log) : Bytes := log.flatMap (Entry.received p)

def reached (p : Pipe) (log : Log) : Bytes := log.flatMap (Entry.reached p)

def delivered (p : Pipe) (log : Log) : List Bytes := log.flatMap (Entry.delivered p)

def granted (p : Pipe) (log : Log) : ℕ := (log.map (Entry.granted p)).sum

def dones (log : Log) : List Terminal := log.flatMap Entry.dones

def published (log : Log) : List Terminal := log.flatMap Entry.published

def asked (caller : Caller) (log : Log) : ℕ := log.countP (Entry.asks caller)

def answered (caller : Caller) (log : Log) : ℕ := log.countP (Entry.answers caller)

end Log

def queued (p : Pipe) (queue : List Line) : List Bytes :=
  (queue.filter (·.pipe = p)).map (·.bytes)

@[simp] lemma queued_nil (p : Pipe) : queued p [] = [] := rfl

lemma queued_append (p : Pipe) (a b : List Line) : queued p (a ++ b) = queued p a ++ queued p b := by
  simp [queued]

lemma queued_cons (p : Pipe) (line : Line) (queue : List Line) :
    queued p (line :: queue) = (if line.pipe = p then [line.bytes] else []) ++ queued p queue := by
  by_cases h : line.pipe = p
  · simp [queued, h]
  · simp [queued, h]

lemma queued_lines (p q : Pipe) (lines : List Bytes) :
    queued p (lines.map (⟨q, ·⟩)) = if q = p then lines else [] := by
  by_cases h : q = p
  · simp [queued, h, List.filter_map, Function.comp_def]
  · simp [queued, h, List.filter_map, Function.comp_def]

lemma queued_partials (p : Pipe) (buffers : Pipe → Bytes) :
    queued p (partials buffers [.stdout, .stderr]) =
      if buffers p = [] then [] else [buffers p] := by
  cases p <;> by_cases h : buffers .stdout = [] <;> by_cases k : buffers .stderr = [] <;>
    simp [queued, partials, h, k]

def Effect.aside : Effect → Bool
  | .recvReply _ _ => false
  | .owner (.line _) => false
  | .command (.credit _ _) => false
  | .published _ | .recipient _ => false
  | _ => true

def Suits (enabled : Bool) (tracking : Tracking) : Prop :=
  tracking.enabled = enabled ∧ (enabled = false → tracking.truncated = false)

lemma suits_finish {enabled : Bool} {tracking : Tracking} (h : Suits enabled tracking)
    (scope : Shim.Scope) (confirmation : Confirmation) (contained : Option Bool) (truncated : Bool) :
    Suits enabled (tracking.finish scope confirmation contained truncated).1 := by
  rw [Tracking.finish]
  split
  · exact h
  · next hf =>
    refine ⟨h.1, fun he => ?_⟩
    rw [h.1, he] at hf
    exact absurd rfl hf

lemma record_enabled (tracking : Tracking) (decoded : Option Json) :
    (tracking.record decoded).1.enabled = tracking.enabled := by
  rw [Tracking.record]
  split
  · rfl
  · cases Shim.decodeIdentity decoded with
    | none => rfl
    | some identity =>
      simp only [Tracking.recordIdentity]
      split
      · split
        · rfl
        · split <;> rfl
      · rfl

lemma suits_record {enabled : Bool} {tracking : Tracking} (h : Suits enabled tracking)
    (decoded : Option Json) : Suits enabled (tracking.record decoded).1 := by
  refine ⟨(record_enabled tracking decoded).trans h.1, fun he => ?_⟩
  rw [Tracking.record, h.1, he]
  exact h.2 he

structure Aside (s t : State) : Prop where
  buffers : t.buffers = s.buffers
  exit : t.exit = s.exit
  shutdownCause : t.shutdownCause = s.shutdownCause
  totalOutputBytes : t.totalOutputBytes = s.totalOutputBytes
  outstanding : t.outstanding = s.outstanding
  queue : t.queue = s.queue
  waiter : t.waiter = s.waiter
  outputLimit : t.outputLimit = s.outputLimit
  halt : t.halt = s.halt
  phase : t.phase = s.phase
  farewell : t.farewell = s.farewell
  stored : t.table.map (·.terminal) = s.table.map (·.terminal)
  suits : ∀ enabled, Suits enabled s.tracking → Suits enabled t.tracking
  log : ∃ effects : List Effect, (∀ e ∈ effects, e.aside = true) ∧ t.log = s.log ++ effects.map .did

variable {cfg : Options} {s t u : State}

namespace Aside

lemma refl (s : State) : Aside s s :=
  ⟨rfl, rfl, rfl, rfl, rfl, rfl, rfl, rfl, rfl, rfl, rfl, rfl, fun _ => id, [], by simp, by simp⟩

lemma trans (h : Aside s t) (k : Aside t u) : Aside s u := by
  obtain ⟨es, he, hl⟩ := h.log
  obtain ⟨fs, hf, hm⟩ := k.log
  refine ⟨k.buffers.trans h.buffers, k.exit.trans h.exit, k.shutdownCause.trans h.shutdownCause,
    k.totalOutputBytes.trans h.totalOutputBytes, k.outstanding.trans h.outstanding,
    k.queue.trans h.queue, k.waiter.trans h.waiter, k.outputLimit.trans h.outputLimit,
    k.halt.trans h.halt, k.phase.trans h.phase, k.farewell.trans h.farewell, k.stored.trans h.stored,
    fun enabled => k.suits enabled ∘ h.suits enabled,
    es ++ fs, ?_, ?_⟩
  · intro e hm
    rcases List.mem_append.mp hm with hm | hm
    · exact he e hm
    · exact hf e hm
  · rw [hm, hl, List.map_append, List.append_assoc]

lemma tell (s : State) {effects : List Effect} (h : ∀ e ∈ effects, e.aside = true) :
    Aside s (s.tell effects) :=
  ⟨rfl, rfl, rfl, rfl, rfl, rfl, rfl, rfl, rfl, rfl, rfl, rfl, fun _ => id, effects, h, rfl⟩

lemma store (s : State) {f : TerminalTable → TerminalTable}
    (hf : ∀ table, (f table).terminal = table.terminal) : Aside s (s.store f) := by
  refine ⟨rfl, rfl, rfl, rfl, rfl, rfl, rfl, rfl, rfl, rfl, rfl, ?_, fun _ => id, [], by simp,
    by simp [State.store]⟩
  rw [State.store, Option.map_map]
  exact congrFun (congrArg Option.map (funext hf)) s.table

lemma failPending (s : State) (reply : SendReply) : Aside s (s.failPending reply) := by
  refine ⟨rfl, rfl, rfl, rfl, rfl, rfl, rfl, rfl, rfl, rfl, rfl, rfl, fun _ => id,
    s.pending.map fun entry => .sendReply entry.caller reply, ?_, rfl⟩
  intro e he
  obtain ⟨entry, -, rfl⟩ := List.mem_map.mp he
  rfl

end Aside

lemma finishTracking_aside (cfg : Options) (s : State) (terminal : Terminal) :
    Aside s (finishTracking cfg s terminal) := by
  have hi : ∀ enabled, Suits enabled s.tracking → Suits enabled (s.tracking.finish terminal.scope
    terminal.confirmation terminal.contained terminal.trackedGroupsTruncated).1 :=
      fun _ h => suits_finish h _ _ _ _
  rw [finishTracking]
  split
  · refine ⟨rfl, rfl, rfl, rfl, rfl, rfl, rfl, rfl, rfl, rfl, rfl, rfl, hi, _, ?_, rfl⟩
    intro e he
    obtain ⟨event, -, rfl⟩ := List.mem_map.mp he
    rfl
  · exact ⟨rfl, rfl, rfl, rfl, rfl, rfl, rfl, rfl, rfl, rfl, rfl, rfl, hi, [], by simp, by simp⟩

lemma notifyExit_aside (cfg : Options) (s : State) (status : ExitStatus) : Aside s (notifyExit cfg s status) := by
  rw [notifyExit]
  cases cfg.delivery with
  | pull => exact .refl s
  | messages => exact .tell s (by simp [Effect.aside])

lemma accepted_aside (frame : InputFrame) (caller : Caller) :
    ∀ e ∈ [Effect.command frame.command, .sendReply caller .ok], e.aside = true := by
  intro e he
  cases frame with
  | line bytes =>
    rcases List.mem_pair.mp he with rfl | rfl <;> rfl
  | eof =>
    rcases List.mem_pair.mp he with rfl | rfl <;> rfl

lemma enqueueInput_aside (s : State) (caller : Caller) (frame : InputFrame) :
    Aside s (enqueueInput s caller frame) :=
  ⟨rfl, rfl, rfl, rfl, rfl, rfl, rfl, rfl, rfl, rfl, rfl, rfl, fun _ => id, [], by simp, by simp [enqueueInput]⟩

lemma submitInput_aside (s : State) (caller : Caller) (frame : InputFrame) (answer : PortAnswer) :
    Aside s (submitInput s caller frame answer) := by
  rw [submitInput.eq_def]
  split
  · cases answer with
    | ok => exact .tell s (accepted_aside frame caller)
    | closed => exact .tell s (by simp [Effect.aside])
    | busy => exact enqueueInput_aside ..
  · exact enqueueInput_aside ..

lemma flushInput_aside (s : State) (pending : List Input) (answers : List PortAnswer) :
    Aside s (flushInput s pending answers) := by
  induction pending generalizing s answers with
  | nil =>
    exact ⟨rfl, rfl, rfl, rfl, rfl, rfl, rfl, rfl, rfl, rfl, rfl, rfl, fun _ => id, [], by simp, by simp [flushInput]⟩
  | cons entry rest ih =>
    have keep : Aside s { s with pending := entry :: rest } :=
      ⟨rfl, rfl, rfl, rfl, rfl, rfl, rfl, rfl, rfl, rfl, rfl, rfl, fun _ => id, [], by simp, by simp⟩
    cases answers with
    | nil =>
      exact ⟨rfl, rfl, rfl, rfl, rfl, rfl, rfl, rfl, rfl, rfl, rfl, rfl, fun _ => id, [], by simp,
        by simp [flushInput]⟩
    | cons answer answers =>
      cases answer with
      | ok => exact .trans (.tell s (accepted_aside _ _)) (ih _ answers)
      | closed => exact keep.trans (.failPending _ _)
      | busy =>
        exact ⟨rfl, rfl, rfl, rfl, rfl, rfl, rfl, rfl, rfl, rfl, rfl, rfl, fun _ => id, [], by simp,
          by simp [flushInput]⟩

lemma expireInput_aside (s : State) (ref : Ref) : Aside s (expireInput s ref) := by
  rw [expireInput]
  split
  · exact .refl s
  · next entry _ _ =>
    have told : Aside s { s.tell [.sendReply entry.caller .busy] with
        pending := s.pending.filter (·.ref ≠ ref) } :=
      ⟨rfl, rfl, rfl, rfl, rfl, rfl, rfl, rfl, rfl, rfl, rfl, rfl, fun _ => id, [.sendReply entry.caller .busy],
        by simp [Effect.aside], rfl⟩
    split
    · exact told.trans ⟨rfl, rfl, rfl, rfl, rfl, rfl, rfl, rfl, rfl, rfl, rfl, rfl, fun _ => id, [], by simp, by simp⟩
    · exact told

lemma recordIdentity_aside (s : State) (payload : Bytes) :
    Aside s (recordIdentity cfg s payload) := by
  rw [recordIdentity.eq_def]
  split
  · split
    · next identity _ =>
      have h : Aside s ((s.store ({ · with spawnIdentity := some identity })).tell
          [.owner (.spawned identity)]) := by
        refine .trans (.store s ?_) (.tell _ ?_)
        · exact fun _ => rfl
        · simp [Effect.aside]
      exact ⟨h.buffers, h.exit, h.shutdownCause, h.totalOutputBytes, h.outstanding, h.queue,
        h.waiter, h.outputLimit, h.halt, h.phase, h.farewell, h.stored, h.suits, h.log⟩
    · exact .refl s
  · exact .refl s

lemma recordTracked_aside (s : State) (payload : Bytes) :
    Aside s (recordTracked cfg s payload) := by
  have told : ∀ identity : ProcessIdentity, Aside s
      ((s.store fun table =>
        { table with trackedGroups := table.trackedGroups ++ [identity] }).tell
        ((if cfg.observer then [Effect.observer (.tracked identity)] else []) ++
          [Effect.owner (.tracked identity)])) := by
    intro identity
    refine .trans (.store s ?_) (.tell _ ?_)
    · exact fun _ => rfl
    intro e he
    split at he <;> simp at he
    · rcases he with rfl | rfl <;> rfl
    · rw [he]
      rfl
  have stored : ∀ t : State, Aside s t →
      Aside s { t with tracking := (s.tracking.record (cfg.json payload)).1 } := fun t h =>
    ⟨h.buffers, h.exit, h.shutdownCause, h.totalOutputBytes, h.outstanding, h.queue, h.waiter,
      h.outputLimit, h.halt, h.phase, h.farewell, h.stored, fun _ hi => suits_record hi _, h.log⟩
  rw [recordTracked]
  apply stored
  cases (s.tracking.record (cfg.json payload)).2 with
  | none =>
    split
    · exact .store s fun _ => rfl
    · exact .refl s
  | some identity =>
    split
    · exact (told identity).trans (.store _ fun _ => rfl)
    · exact told identity

lemma Effect.aside_silent {e : Effect} (h : e.aside = true) (p : Pipe) (caller : Caller) :
    Entry.delivered p (.did e) = [] ∧ Entry.granted p (.did e) = 0 ∧ Entry.dones (.did e) = [] ∧
      Entry.published (.did e) = [] ∧ Entry.answers caller (.did e) = false := by
  cases e with
  | recvReply caller reply => cases h
  | sendReply caller reply => exact ⟨rfl, rfl, rfl, rfl, rfl⟩
  | owner message => cases message <;> first | exact ⟨rfl, rfl, rfl, rfl, rfl⟩ | cases h
  | observer event => exact ⟨rfl, rfl, rfl, rfl, rfl⟩
  | command command => cases command <;> first | exact ⟨rfl, rfl, rfl, rfl, rfl⟩ | cases h
  | published terminal => cases h
  | recipient terminal => cases h

namespace Log

variable {p : Pipe} {log more : Log}

lemma received_append : received p (log ++ more) = received p log ++ received p more :=
  List.flatMap_append

lemma reached_append : reached p (log ++ more) = reached p log ++ reached p more :=
  List.flatMap_append

lemma delivered_append : delivered p (log ++ more) = delivered p log ++ delivered p more :=
  List.flatMap_append

lemma granted_append : granted p (log ++ more) = granted p log + granted p more := by
  simp [granted]

lemma dones_append : dones (log ++ more) = dones log ++ dones more :=
  List.flatMap_append

lemma published_append : published (log ++ more) = published log ++ published more :=
  List.flatMap_append

lemma received_did (effects : List Effect) : received p (effects.map .did) = [] := by
  induction effects with
  | nil => rfl
  | cons e es ih => exact ih

lemma reached_did (effects : List Effect) : reached p (effects.map .did) = [] := by
  induction effects with
  | nil => rfl
  | cons e es ih => exact ih

end Log

lemma tell_received (s : State) (effects : List Effect) (p : Pipe) :
    (s.tell effects).log.received p = s.log.received p := by
  rw [State.tell, Log.received_append, Log.received_did, List.append_nil]

lemma tell_granted (s : State) (caller : Caller) (reply : RecvReply) (p : Pipe) :
    (s.tell [.recvReply caller reply]).log.granted p = s.log.granted p := by
  rw [State.tell, Log.granted_append]
  rfl

lemma hear_received (s : State) (entry : Entry) (p : Pipe) :
    (s.hear entry).log.received p = s.log.received p ++ entry.received p := by
  rw [show (s.hear entry).log = s.log ++ [entry] from rfl, Log.received_append]
  simp [Log.received]

namespace Aside

variable (h : Aside s t) (p : Pipe)

include h

lemma received : t.log.received p = s.log.received p := by
  obtain ⟨effects, -, hl⟩ := h.log
  rw [hl, Log.received_append, Log.received_did, List.append_nil]

lemma reached : t.log.reached p = s.log.reached p := by
  obtain ⟨effects, -, hl⟩ := h.log
  rw [hl, Log.reached_append, Log.reached_did, List.append_nil]

lemma delivered : t.log.delivered p = s.log.delivered p := by
  obtain ⟨effects, he, hl⟩ := h.log
  rw [hl, Log.delivered_append]
  have hn : Log.delivered p (effects.map .did) = [] := by
    rw [Log.delivered, List.flatMap_map, List.flatMap_eq_nil_iff]
    exact fun e hm => (Effect.aside_silent (he e hm) p 0).1
  rw [hn, List.append_nil]

lemma granted : t.log.granted p = s.log.granted p := by
  obtain ⟨effects, he, hl⟩ := h.log
  rw [hl, Log.granted_append]
  have hn : Log.granted p (effects.map .did) = 0 := by
    clear hl
    induction effects with
    | nil => rfl
    | cons e es ih =>
      have h0 := (Effect.aside_silent (he e List.mem_cons_self) p 0).2.1
      have hs := ih fun e' hm => he e' (List.mem_cons_of_mem e hm)
      simpa [Log.granted, h0] using hs
  rw [hn, Nat.add_zero]

lemma dones : t.log.dones = s.log.dones := by
  obtain ⟨effects, he, hl⟩ := h.log
  rw [hl, Log.dones_append]
  have hn : Log.dones (effects.map .did) = [] := by
    rw [Log.dones, List.flatMap_map, List.flatMap_eq_nil_iff]
    exact fun e hm => (Effect.aside_silent (he e hm) .stdout 0).2.2.1
  rw [hn, List.append_nil]

lemma published : t.log.published = s.log.published := by
  obtain ⟨effects, he, hl⟩ := h.log
  rw [hl, Log.published_append]
  have hn : Log.published (effects.map .did) = [] := by
    rw [Log.published, List.flatMap_map, List.flatMap_eq_nil_iff]
    exact fun e hm => (Effect.aside_silent (he e hm) .stdout 0).2.2.2.1
  rw [hn, List.append_nil]

lemma asked (caller : Caller) : t.log.asked caller = s.log.asked caller := by
  obtain ⟨effects, -, hl⟩ := h.log
  have hn : Log.asked caller (effects.map .did) = 0 := by
    rw [Log.asked, List.countP_map, List.countP_eq_zero]
    intro e he
    exact Bool.false_ne_true
  rw [Log.asked, hl, List.countP_append]
  exact (congrArg _ hn).trans (Nat.add_zero _)

lemma answered (caller : Caller) : t.log.answered caller = s.log.answered caller := by
  obtain ⟨effects, he, hl⟩ := h.log
  have hn : Log.answered caller (effects.map .did) = 0 := by
    rw [Log.answered, List.countP_map, List.countP_eq_zero]
    intro e hm
    simp [(Effect.aside_silent (he e hm) .stdout caller).2.2.2.2]
  rw [Log.answered, hl, List.countP_append]
  exact (congrArg _ hn).trans (Nat.add_zero _)

end Aside

end Forcola.Beam.Duplex
