import Forcola.Beam.DuplexTerminal

/-! Callers of one session and the table they read its terminal from. -/

namespace Forcola.Beam.Duplex

open Library Transition
open Native (Bytes Pipe)

inductive Request
  | awaitTerminal
  | shutdown
  | recv
deriving DecidableEq, Repr

/-- The three places where `await_terminal` asks for a result. -/
inductive Look
  | first
  | second
  | last
deriving DecidableEq, Repr

/-- Where a caller is. `terminal_result` looks a terminal up, asks whether the session lives,
reads the stored groups, inserts a terminal of its own and looks again. -/
inductive Point
  | call (replies : ℕ)
  | stop
  | lookup (look : Look)
  | alive (look : Look)
  | groups
  | insert (terminal : Terminal)
  | reread
  | down
deriving DecidableEq, Repr

inductive Answer
  | line (line : Line)
  | ok (terminal : Terminal)
  | done (terminal : Terminal)
  | outputLimit (terminal : Terminal)
  | timeout
  | busy
  | notPull
  | pending
  | released
  | badmatch
deriving DecidableEq, Repr

namespace Answer

def terminal : Answer → Option Terminal
  | .ok stored | .done stored | .outputLimit stored => some stored
  | _ => none

def ofReply : RecvReply → Answer
  | .line text => .line text
  | .done last => .done last
  | .timeout => .timeout
  | .busy => .busy
  | .notPull => .notPull

end Answer

def Request.answer (request : Request) (terminal : Terminal) : Answer :=
  match request, terminal.output with
  | .recv, .limit _ => .outputLimit terminal
  | .recv, _ => .done terminal
  | _, _ => .ok terminal

structure System where
  session : State
  clients : Caller → Option (Request × Point)
  answers : List (Caller × Answer)

inductive Act
  | session (label : Label)
  | call (caller : Caller) (request : Request)
  | proceed (caller : Caller)
  | elapse (caller : Caller)
deriving DecidableEq, Repr

def Log.replies (caller : Caller) (log : Log) : List RecvReply :=
  log.filterMap fun
    | .did (.recvReply answered reply) => if answered = caller then some reply else none
    | _ => none

def Phase.alive : Phase → Bool
  | .stopped | .killed => false
  | _ => true

def TerminalTable.lost (table : TerminalTable) : Terminal :=
  { lostTerminal .transportLost .sessionLost with
    trackedGroups := table.trackedGroups
    trackedGroupsTruncated := table.trackedGroupsTruncated }

namespace System

variable (cfg : Options)

def init : System := ⟨Duplex.init cfg, fun _ => none, []⟩

def goto (s : System) (caller : Caller) (request : Request) (point : Point) : System :=
  { s with clients := Function.update s.clients caller (some (request, point)) }

def finish (s : System) (caller : Caller) (answer : Answer) : System :=
  { s with
    clients := Function.update s.clients caller none
    answers := s.answers ++ [(caller, answer)] }

/-- A `recv` message is in the session's mailbox while its caller waits and it is not handled. -/
def deliverable (s : System) : Label → Bool
  | .message (.call caller .recv) _ =>
    match s.clients caller with
    | some (.recv, .call replies) => s.session.log.asked caller == replies
    | _ => false
  | _ => true

def call (s : System) (caller : Caller) (request : Request) : System :=
  match request with
  | .awaitTerminal => s.goto caller request (.lookup .first)
  | .shutdown => s.goto caller request .stop
  | .recv =>
    match cfg.delivery with
    | .messages => s.finish caller .notPull
    | .pull => s.goto caller request (.call (s.session.log.answered caller))

def pending (s : System) (caller : Caller) (request : Request) : Look → System
  | .first => s.goto caller request (.lookup .second)
  | .second => s.goto caller request .down
  | .last => s.finish caller .pending

def proceed (s : System) (caller : Caller) (request : Request) (point : Point) : Option System :=
  match point with
  | .call replies =>
    match (s.session.log.replies caller)[replies]? with
    | some reply => some (s.finish caller (.ofReply reply))
    | none => if s.session.phase.alive then none else some (s.goto caller request (.lookup .first))
  | .stop => if s.session.phase.alive then none else some (s.goto caller request (.lookup .first))
  | .lookup look =>
    match s.session.table with
    | none => some (s.finish caller .released)
    | some table =>
      match table.terminal with
      | some terminal => some (s.finish caller (request.answer terminal))
      | none => some (s.goto caller request (.alive look))
  | .alive look =>
    if s.session.phase.alive then some (s.pending caller request look)
    else some (s.goto caller request .groups)
  | .groups =>
    match s.session.table with
    | none => some (s.finish caller .released)
    | some table => some (s.goto caller request (.insert table.lost))
  | .insert terminal =>
    match s.session.table with
    | none => some (s.finish caller .released)
    | some _ =>
      some ({ s with session := s.session.store (·.insertNew terminal) }.goto caller request .reread)
  | .reread =>
    match s.session.table with
    | none => some (s.finish caller .released)
    | some table =>
      match table.terminal with
      | some terminal => some (s.finish caller (request.answer terminal))
      | none => some (s.finish caller .badmatch)
  | .down => if s.session.phase.alive then none else some (s.goto caller request (.lookup .last))

def step (s : System) : Act → Option System
  | .session label =>
    if s.deliverable label then
      (Duplex.step cfg s.session label).map fun session => { s with session := session }
    else none
  | .call caller request =>
    match s.clients caller with
    | none => some (s.call cfg caller request)
    | some _ => none
  | .proceed caller =>
    match s.clients caller with
    | some (request, point) => s.proceed caller request point
    | none => none
  | .elapse caller =>
    match s.clients caller with
    | some (_, .down) => some (s.finish caller .timeout)
    | _ => none

end System

variable {cfg : Options} {s t : State}

lemma flushBuffers_table (cfg : Options) (s : State) : (flushBuffers cfg s).table = s.table := by
  rw [flushBuffers]
  cases cfg.delivery <;> rfl

lemma turn_table {m : Message} (h : Turn cfg (s.hear (.handled m)) m t) :
    t.table.map (·.terminal) = s.table.map (·.terminal) := by
  cases h with
  | aside hm h => exact h.stored
  | limited p chunk limit _ => rfl
  | accepted p chunk hdel h =>
    obtain ⟨q, w, l, heq⟩ := replyPullWaiter_eq cfg (accept (s.hear _) p chunk)
    rw [heq]
    rfl
  | relayed p chunk hdel => rfl
  | @ended _ e u w v hm hu hw hv hg hx =>
    have hwt : w.table = u.table := by
      rw [hw]
      split
      · exact flushBuffers_table cfg u
      · rfl
    have hft : ∀ x, (afterFrame cfg x).table = x.table := by
      intro x
      rw [afterFrame]
      split
      · rfl
      · split
        · rfl
        · split <;> rfl
    obtain ⟨q, x, l, heq⟩ := replyPullWaiter_eq cfg v
    rw [hft, heq]
    refine hv.stored.trans ?_
    change w.table.map _ = _
    rw [hwt]
    exact hu.stored
  | refused caller reply hr => rfl
  | last caller line hdel hw hq hx => rfl
  | popped caller line queue hdel hw hq hx => rfl
  | waits caller hdel hw hq hx =>
    have ht : ∀ x, (grantPullCredit cfg x).table = x.table := by
      intro x
      obtain ⟨o, l, heq⟩ := grantPullCredit_eq cfg x
      rw [heq]
    rw [ht]
    rfl
  | expired waiter hw => rfl
  | stops cause hm => rfl

lemma ending_table (h : Ending cfg s t) : t.table.map (·.terminal) = s.table.map (·.terminal) := by
  obtain ⟨u, hu, ht⟩ := h
  have hm : (flushMessages cfg u).table = u.table := by
    rw [flushMessages]
    cases cfg.delivery <;> rfl
  exact ht.stored.trans ((congrArg _ hm).trans hu.stored)

inductive Stored (s : State) (l : Label) (t : State) : Prop
  | same (ht : t.table.map (·.terminal) = s.table.map (·.terminal))
      (hb : t.log.published = s.log.published)
  | released (hl : l = .release) (ht : t.table = none) (hb : t.log.published = s.log.published)
  | published (terminal : Terminal) (hp : s.phase = .closing terminal) (hk : t.phase = .published)
      (ht : t.table = s.table.map (·.insertNew terminal))
      (hb : t.log.published.head? = some terminal)

lemma move_stored (hs : Spoken s) (hl : Live cfg s) {l : Label} (h : Move cfg s l t) :
    Stored s l t := by
  cases h with
  | release => exact .released rfl rfl rfl
  | turn answers hp h => exact .same (turn_table h) (turn_told hl hp h).1
  | settled e kill hp he h =>
    have ht := ending_table h
    exact .same ht (ending_silent h).2
  | killing kill hp he h =>
    have ht := ending_table h
    exact .same ht (ending_silent h).2
  | gaveUp result kill hp he h =>
    have ht := ending_table h
    exact .same ht (ending_silent h).2
  | noted event hp h =>
    exact .same h.stored (h.published.trans (hear_silent s _ fun _ => Entry.noConfusion).2)
  | concluded result event hp h hx =>
    exact .same h.stored (h.published.trans (hear_silent s _ fun _ => Entry.noConfusion).2)
  | expired hp h => exact .same h.stored h.published
  | drained terminal event hp => exact .same rfl (hear_silent s _ fun _ => Entry.noConfusion).2
  | published terminal hp =>
    refine .published terminal hp rfl rfl ?_
    rw [(Spoken.published_log cfg s terminal).2, hs.unpublished (by rw [hp]; rfl)]
    rfl
  | left hp => exact .same rfl (Spoken.left_log hs.farewell).2
  | killed hp => exact .same rfl rfl

lemma move_dones (hs : Spoken s) {l : Label} (h : Move cfg s l t) {terminal : Terminal}
    (hm : terminal ∈ s.log.dones) : terminal ∈ t.log.dones := by
  rcases move_shut hs h with ⟨m, answers, -, hp, hturn⟩ | ⟨hsh, -⟩
  · rw [hs.running hp] at hm
    cases hm
  · rwa [hsh.dones]

lemma move_gone (hs : s.phase.alive = false) {l : Label} (h : Move cfg s l t) :
    t.phase.alive = false ∧ t.log = s.log ∧ (t.table = s.table ∨ l = .release ∧ t.table = none) := by
  cases h with
  | release => exact ⟨hs, rfl, .inr ⟨rfl, rfl⟩⟩
  | killed hp => exact ⟨rfl, rfl, .inl rfl⟩
  | turn answers hp h => rw [hp] at hs; cases hs
  | settled e kill hp he h => rw [hp] at hs; cases hs
  | killing kill hp he h => rw [hp] at hs; cases hs
  | gaveUp result kill hp he h => rw [hp] at hs; cases hs
  | noted event hp h => rw [hp] at hs; cases hs
  | concluded result event hp h hx => rw [hp] at hs; cases hs
  | expired hp h => rw [hp] at hs; cases hs
  | drained terminal event hp => rw [hp] at hs; cases hs
  | published terminal hp => rw [hp] at hs; cases hs
  | left hp => rw [hp] at hs; cases hs

namespace System

def stored (s : System) : Option Terminal :=
  s.session.table.bind (·.terminal)

def terminals (s : System) : List Terminal :=
  s.answers.filterMap (·.2.terminal)

end System

def Point.late : Point → Bool
  | .groups | .insert _ | .reread => true
  | _ => false

inductive Access (s : System) (caller : Caller) (request : Request) : Point → System → Prop
  | replied (n : ℕ) (reply : RecvReply)
      (h : (s.session.log.replies caller)[n]? = some reply) :
      Access s caller request (.call n) (s.finish caller (.ofReply reply))
  | onward {point : Point} (next : Point) (hn : next.late = false) :
      Access s caller request point (s.goto caller request next)
  | read {point : Point} (table : TerminalTable) (terminal : Terminal)
      (ht : s.session.table = some table) (hx : table.terminal = some terminal) :
      Access s caller request point (s.finish caller (request.answer terminal))
  | nothing {point : Point} (answer : Answer) (ha : answer.terminal = none) :
      Access s caller request point (s.finish caller answer)
  | gone (look : Look) (hd : s.session.phase.alive = false) :
      Access s caller request (.alive look) (s.goto caller request .groups)
  | grouped (table : TerminalTable) (ht : s.session.table = some table) :
      Access s caller request .groups (s.goto caller request (.insert table.lost))
  | inserted (terminal : Terminal) :
      Access s caller request (.insert terminal)
        ({ s with session := s.session.store (·.insertNew terminal) }.goto caller request .reread)

lemma proceed_access {s t : System} {caller : Caller} {request : Request} {point : Point}
    (h : s.proceed caller request point = some t) : Access s caller request point t := by
  cases point with
  | call replies =>
    simp only [System.proceed] at h
    split at h
    · next reply hr =>
      obtain rfl := Option.some.inj h
      exact .replied replies reply hr
    · split at h
      · cases h
      · obtain rfl := Option.some.inj h
        exact .onward _ rfl
  | stop =>
    simp only [System.proceed] at h
    split at h
    · cases h
    · obtain rfl := Option.some.inj h
      exact .onward _ rfl
  | lookup look =>
    simp only [System.proceed] at h
    split at h
    · obtain rfl := Option.some.inj h
      exact .nothing .released rfl
    · next table ht =>
      split at h
      · next terminal hx =>
        obtain rfl := Option.some.inj h
        exact .read table terminal ht hx
      · obtain rfl := Option.some.inj h
        exact .onward _ rfl
  | alive look =>
    simp only [System.proceed] at h
    split at h
    · obtain rfl := Option.some.inj h
      cases look with
      | first => exact .onward _ rfl
      | second => exact .onward _ rfl
      | last => exact .nothing .pending rfl
    · next hd =>
      obtain rfl := Option.some.inj h
      exact .gone look (by simpa using hd)
  | groups =>
    simp only [System.proceed] at h
    split at h
    · obtain rfl := Option.some.inj h
      exact .nothing .released rfl
    · next table ht =>
      obtain rfl := Option.some.inj h
      exact .grouped table ht
  | insert terminal =>
    simp only [System.proceed] at h
    split at h
    · obtain rfl := Option.some.inj h
      exact .nothing .released rfl
    · obtain rfl := Option.some.inj h
      exact .inserted terminal
  | reread =>
    simp only [System.proceed] at h
    split at h
    · obtain rfl := Option.some.inj h
      exact .nothing .released rfl
    · next table ht =>
      split at h
      · next terminal hx =>
        obtain rfl := Option.some.inj h
        exact .read table terminal ht hx
      · obtain rfl := Option.some.inj h
        exact .nothing .badmatch rfl
  | down =>
    simp only [System.proceed] at h
    split at h
    · cases h
    · obtain rfl := Option.some.inj h
      exact .onward _ rfl

def Known (s : State) (terminal : Terminal) : Prop :=
  terminal ∈ s.log.dones ∨ terminal ∈ s.log.published ∨
    s.phase.alive = false ∧ s.log.published = [] ∧ terminal.cause = .sessionLost ∧
      ∀ table, s.table = some table → table.terminal = some terminal

structure Consistent (cfg : Options) (s : System) : Prop where
  live : Live cfg s.session
  spoken : Spoken s.session
  table : s.session.phase.alive = true ∨ s.session.log.published ≠ [] →
    ∀ table, s.session.table = some table → table.terminal = s.session.log.published.head?
  lost : s.session.phase.alive = false → s.session.log.published = [] →
    ∀ table terminal, s.session.table = some table → table.terminal = some terminal →
      terminal.cause = .sessionLost
  gone : ∀ caller request point, s.clients caller = some (request, point) → point.late = true →
    s.session.phase.alive = false
  inserting : ∀ caller request terminal, s.clients caller = some (request, .insert terminal) →
    terminal.cause = .sessionLost
  rereading : ∀ caller request, s.clients caller = some (request, .reread) →
    ∀ table, s.session.table = some table → table.terminal.isSome
  known : ∀ terminal ∈ s.terminals, Known s.session terminal

namespace Consistent

variable {s t : System}

lemma init (cfg : Options) : Consistent cfg (System.init cfg) where
  live := .init cfg
  spoken := .init cfg
  table := by
    rintro - table ht
    obtain rfl := Option.some.inj ht
    rfl
  lost h := by cases h
  gone _ _ _ h := by cases h
  inserting _ _ _ h := by cases h
  rereading _ _ h := by cases h
  known _ h := by cases h

lemma found (hs : Consistent cfg s) {table : TerminalTable} {terminal : Terminal}
    (ht : s.session.table = some table) (h : table.terminal = some terminal) :
    Known s.session terminal := by
  by_cases hp : s.session.phase.alive = true ∨ s.session.log.published ≠ []
  · have hh := hs.table hp table ht
    rw [h] at hh
    exact .inr (.inl (List.mem_of_head? hh.symm))
  · rw [not_or, Bool.not_eq_true, not_not] at hp
    refine .inr (.inr ⟨hp.1, hp.2, hs.lost hp.1 hp.2 table terminal ht h, fun other ho => ?_⟩)
    obtain rfl := Option.some.inj (ht.symm.trans ho)
    exact h

lemma goto_clients {caller c : Caller} {request r : Request} {point q : Point}
    (h : (s.goto caller request point).clients c = some (r, q)) :
    point = q ∨ s.clients c = some (r, q) := by
  have h' : Function.update s.clients caller (some (request, point)) c = some (r, q) := h
  by_cases hc : c = caller
  · rw [hc, Function.update_self] at h'
    exact .inl (congrArg Prod.snd (Option.some.inj h'))
  · rw [Function.update_of_ne hc] at h'
    exact .inr h'

lemma finish_clients {caller c : Caller} {answer : Answer} {r : Request} {q : Point}
    (h : (s.finish caller answer).clients c = some (r, q)) : s.clients c = some (r, q) := by
  have h' : Function.update s.clients caller none c = some (r, q) := h
  by_cases hc : c = caller
  · rw [hc, Function.update_self] at h'
    cases h'
  · rwa [Function.update_of_ne hc] at h'

lemma goto (hs : Consistent cfg s) (caller : Caller) (request : Request) {point : Point}
    (hp : point.late = true → s.session.phase.alive = false)
    (hi : ∀ terminal, point = .insert terminal → terminal.cause = .sessionLost)
    (hr : point = .reread → ∀ table, s.session.table = some table → table.terminal.isSome) :
    Consistent cfg (s.goto caller request point) where
  live := hs.live
  spoken := hs.spoken
  table := hs.table
  lost := hs.lost
  gone c r q h := by
    rcases goto_clients h with rfl | h
    · exact hp
    · exact hs.gone c r q h
  inserting c r terminal h := by
    rcases goto_clients h with h | h
    · exact hi terminal h
    · exact hs.inserting c r terminal h
  rereading c r h := by
    rcases goto_clients h with h | h
    · exact hr h
    · exact hs.rereading c r h
  known := hs.known

lemma early (hs : Consistent cfg s) (caller : Caller) (request : Request) {point : Point}
    (hp : point.late = false) : Consistent cfg (s.goto caller request point) := by
  refine hs.goto caller request (fun h => ?_) (fun terminal h => ?_) fun h => ?_
  · rw [hp] at h
    cases h
  · rw [h] at hp
    cases hp
  · rw [h] at hp
    cases hp

lemma finish (hs : Consistent cfg s) (caller : Caller) {answer : Answer}
    (ha : ∀ terminal, answer.terminal = some terminal → Known s.session terminal) :
    Consistent cfg (s.finish caller answer) where
  live := hs.live
  spoken := hs.spoken
  table := hs.table
  lost := hs.lost
  gone c r q h := hs.gone c r q (finish_clients h)
  inserting c r terminal h := hs.inserting c r terminal (finish_clients h)
  rereading c r h := hs.rereading c r (finish_clients h)
  known terminal hm := by
    rw [System.terminals, System.finish, List.filterMap_append, List.mem_append] at hm
    rcases hm with hm | hm
    · exact hs.known terminal hm
    · obtain ⟨⟨c, a⟩, he, hx⟩ := List.mem_filterMap.mp hm
      obtain ⟨rfl, rfl⟩ : c = caller ∧ a = answer := by simpa using he
      exact ha terminal hx

lemma answer_terminal (request : Request) (terminal : Terminal) :
    (request.answer terminal).terminal = some terminal := by
  rw [Request.answer.eq_def]
  split <;> rfl

lemma replied {caller : Caller} {n : ℕ} {reply : RecvReply} {log : Log}
    (h : (log.replies caller)[n]? = some reply) {terminal : Terminal}
    (ht : (Answer.ofReply reply).terminal = some terminal) : terminal ∈ log.dones := by
  have hm := List.mem_of_getElem? h
  rw [Log.replies, List.mem_filterMap] at hm
  obtain ⟨entry, he, hr⟩ := hm
  cases reply with
  | done last =>
    obtain rfl : last = terminal := Option.some.inj ht
    rw [Log.dones, List.mem_flatMap]
    refine ⟨entry, he, ?_⟩
    split at hr
    · split at hr
      · cases hr
        exact List.mem_singleton_self _
      · cases hr
    · cases hr
  | _ => cases ht

lemma insertNew_terminal (table : TerminalTable) (terminal : Terminal) :
    (table.insertNew terminal).terminal = some (table.terminal.getD terminal) := by
  rw [TerminalTable.insertNew]
  split
  · next h =>
    rw [h]
    rfl
  · next stored h =>
    rw [h]
    rfl

lemma inserted (hs : Consistent cfg s) {terminal : Terminal} (hd : s.session.phase.alive = false)
    (hc : terminal.cause = .sessionLost) :
    Consistent cfg { s with session := s.session.store (·.insertNew terminal) } := by
  have hold : ∀ table', (s.session.store (·.insertNew terminal)).table = some table' →
      ∃ table, s.session.table = some table ∧
        table'.terminal = some (table.terminal.getD terminal) := by
    intro table' h
    obtain ⟨table, ht, rfl⟩ := Option.map_eq_some_iff.mp h
    exact ⟨table, ht, insertNew_terminal table terminal⟩
  have hl := hs.live
  have hp := hs.spoken
  refine ⟨⟨hl.halt, hl.limit, hl.ended, hl.waiter, hl.farewell, hl.messages, hl.suits⟩,
    ⟨hp.farewell, hp.running, hp.awaiting, hp.ended, hp.unpublished, hp.published, hp.left, hp.same⟩,
    ?_, ?_, hs.gone, hs.inserting, ?_, ?_⟩
  · intro h table' ht'
    obtain ⟨table, ht, hx⟩ := hold table' ht'
    have hh := hs.table h table ht
    cases hpub : s.session.log.published with
    | nil =>
      rcases h with h | h
      · rw [show s.session.phase.alive = true from h] at hd
        cases hd
      · exact absurd hpub h
    | cons x xs =>
      rw [hx, hh, hpub]
      exact congrArg List.head? hpub.symm
  · intro _ hn table' x ht' hx'
    obtain ⟨table, ht, hx⟩ := hold table' ht'
    rw [hx] at hx'
    cases hterm : table.terminal with
    | none =>
      rw [hterm] at hx'
      obtain rfl : terminal = x := Option.some.inj hx'
      exact hc
    | some y =>
      rw [hterm] at hx'
      obtain rfl : y = x := Option.some.inj hx'
      exact hs.lost hd hn table y ht hterm
  · intro c r _ table' ht'
    obtain ⟨table, -, hx⟩ := hold table' ht'
    rw [hx]
    rfl
  · intro x hm
    refine (hs.known x hm).imp_right (.imp_right ?_)
    rintro ⟨h1, h2, h3, h4⟩
    refine ⟨h1, h2, h3, fun table' ht' => ?_⟩
    obtain ⟨table, ht, hx⟩ := hold table' ht'
    rw [hx, h4 table ht]
    rfl

lemma call (hs : Consistent cfg s) (caller : Caller) (request : Request) :
    Consistent cfg (s.call cfg caller request) := by
  cases request with
  | awaitTerminal => exact hs.early caller _ rfl
  | shutdown => exact hs.early caller _ rfl
  | recv =>
    rw [System.call]
    cases cfg.delivery with
    | messages => exact hs.finish caller fun _ h => by cases h
    | pull => exact hs.early caller _ rfl

lemma proceed (hs : Consistent cfg s) {caller : Caller} {request : Request} {point : Point}
    (hc : s.clients caller = some (request, point)) (h : Access s caller request point t) :
    Consistent cfg t := by
  cases h with
  | replied n reply h => exact hs.finish caller fun _ hx => .inl (replied h hx)
  | onward next hn => exact hs.early caller request hn
  | read table terminal ht hx =>
    refine hs.finish caller fun found hf => ?_
    obtain rfl : terminal = found := Option.some.inj ((answer_terminal request terminal).symm.trans hf)
    exact hs.found ht hx
  | nothing answer ha =>
    refine hs.finish caller fun _ hx => ?_
    rw [ha] at hx
    cases hx
  | gone look hd =>
    exact hs.goto caller request (fun _ => hd) (fun _ h => by cases h) fun h => by cases h
  | grouped table ht =>
    refine hs.goto caller request (fun _ => hs.gone caller request _ hc rfl) ?_ fun h => by cases h
    intro terminal hx
    cases hx
    rfl
  | inserted terminal =>
    have hd := hs.gone caller request _ hc rfl
    refine (hs.inserted hd (hs.inserting caller request terminal hc)).goto caller request
      (fun _ => hd) (fun _ h => by cases h) ?_
    intro _ table' ht'
    obtain ⟨table, -, rfl⟩ := Option.map_eq_some_iff.mp ht'
    rw [insertNew_terminal]
    rfl

lemma same_terminal {a b : Option TerminalTable} (h : b.map (·.terminal) = a.map (·.terminal))
    {table' : TerminalTable} (hb : b = some table') :
    ∃ table, a = some table ∧ table.terminal = table'.terminal := by
  rw [hb] at h
  obtain ⟨table, ha, hx⟩ := Option.map_eq_some_iff.mp h.symm
  exact ⟨table, ha, hx⟩

lemma alive_of {l : Label} {session : State} (hm : Move cfg s.session l session)
    (h : session.phase.alive = true) : s.session.phase.alive = true := by
  by_contra hn
  rw [(move_gone (by simpa using hn) hm).1] at h
  cases h

lemma session (hs : Consistent cfg s) {l : Label} {session : State}
    (h : Duplex.step cfg s.session l = some session) :
    Consistent cfg { s with session := session } := by
  have hm := step_move hs.live h
  have hst := move_stored hs.spoken hs.live hm
  refine ⟨hs.live.move hm, hs.spoken.move hs.live hm, ?_, ?_, ?_, hs.inserting, ?_, ?_⟩
  · intro hp table' ht'
    cases hst with
    | same ht hb =>
      obtain ⟨table, ha, hx⟩ := same_terminal ht ht'
      rw [← hx, hs.table (hp.imp (alive_of hm) fun hn => hb ▸ hn) table ha]
      exact congrArg List.head? hb.symm
    | released _ ht _ =>
      rw [show session.table = some table' from ht'] at ht
      cases ht
    | published terminal hc _ ht hb =>
      obtain ⟨table, ha, rfl⟩ := Option.map_eq_some_iff.mp (ht.symm.trans ht')
      have hx := hs.table (.inl (by rw [hc]; rfl)) table ha
      rw [hs.spoken.unpublished (by rw [hc]; rfl)] at hx
      rw [insertNew_terminal, hx]
      exact hb.symm
  · intro hd hn table' terminal ht' hx'
    cases hst with
    | same ht hb =>
      obtain ⟨table, ha, hx⟩ := same_terminal ht ht'
      have hn' : s.session.log.published = [] := hb.symm.trans hn
      by_cases hsd : s.session.phase.alive = true
      · have hh := hs.table (.inl hsd) table ha
        rw [hn', hx, hx'] at hh
        cases hh
      · exact hs.lost (by simpa using hsd) hn' table terminal ha (hx.trans hx')
    | released _ ht _ =>
      rw [show session.table = some table' from ht'] at ht
      cases ht
    | published _ _ hk _ _ =>
      rw [show session.phase = .published from hk] at hd
      cases hd
  · intro caller request point hc hl
    exact (move_gone (hs.gone caller request point hc hl) hm).1
  · intro caller request hc table' ht'
    rcases (move_gone (hs.gone caller request _ hc rfl) hm).2.2 with ht | ⟨-, ht⟩
    · exact hs.rereading caller request hc table' (ht.symm.trans ht')
    · rw [show session.table = some table' from ht'] at ht
      cases ht
  · intro terminal hk
    rcases hs.known terminal hk with hd | hp | ⟨h1, h2, h3, h4⟩
    · exact .inl (move_dones hs.spoken hm hd)
    · refine .inr (.inl ?_)
      cases hst with
      | same _ hb => exact hb ▸ hp
      | released _ _ hb => exact hb ▸ hp
      | published _ hc _ _ _ =>
        rw [hs.spoken.unpublished (by rw [hc]; rfl)] at hp
        cases hp
    · obtain ⟨k1, k2, k3⟩ := move_gone h1 hm
      refine .inr (.inr ⟨k1, (congrArg Log.published k2).trans h2, h3, fun table' ht' => ?_⟩)
      rcases k3 with ht | ⟨-, ht⟩
      · exact h4 table' (ht.symm.trans ht')
      · rw [show session.table = some table' from ht'] at ht
        cases ht

lemma step (hs : Consistent cfg s) {a : Act} (h : System.step cfg s a = some t) : Consistent cfg t := by
  cases a with
  | session label =>
    simp only [System.step] at h
    split at h
    · obtain ⟨session, hst, rfl⟩ := Option.map_eq_some_iff.mp h
      exact hs.session hst
    · cases h
  | call caller request =>
    simp only [System.step] at h
    split at h
    · obtain rfl := Option.some.inj h
      exact hs.call caller request
    · cases h
  | proceed caller =>
    simp only [System.step] at h
    split at h
    · next request point hc => exact hs.proceed hc (proceed_access h)
    · cases h
  | elapse caller =>
    simp only [System.step] at h
    split at h
    · obtain rfl := Option.some.inj h
      exact hs.finish caller fun _ hx => by cases hx
    · cases h

end Consistent

structure Onward (s t : System) : Prop where
  session : t.session = s.session ∨
    ∃ terminal, t.session = s.session.store (·.insertNew terminal)
  answers : ∃ more, t.answers = s.answers ++ more

namespace Onward

variable {s t : System}

lemma goto (s : System) (caller : Caller) (request : Request) (point : Point) :
    Onward s (s.goto caller request point) :=
  ⟨.inl rfl, [], (List.append_nil _).symm⟩

lemma finish (s : System) (caller : Caller) (answer : Answer) : Onward s (s.finish caller answer) :=
  ⟨.inl rfl, [(caller, answer)], rfl⟩

lemma access {caller : Caller} {request : Request} {point : Point}
    (h : Access s caller request point t) : Onward s t := by
  cases h with
  | replied n reply h => exact finish ..
  | onward next hn => exact goto ..
  | read table terminal ht hx => exact finish ..
  | nothing answer ha => exact finish ..
  | gone look hd => exact goto ..
  | grouped table ht => exact goto ..
  | inserted terminal => exact ⟨.inr ⟨terminal, rfl⟩, [], (List.append_nil _).symm⟩

lemma step {a : Act} (h : System.step cfg s a = some t) (ha : ∀ label, a ≠ .session label) :
    Onward s t := by
  cases a with
  | session label => exact absurd rfl (ha label)
  | call caller request =>
    simp only [System.step] at h
    split at h
    · obtain rfl := Option.some.inj h
      cases request with
      | awaitTerminal => exact goto ..
      | shutdown => exact goto ..
      | recv =>
        rw [System.call]
        cases cfg.delivery with
        | messages => exact finish ..
        | pull => exact goto ..
    · cases h
  | proceed caller =>
    simp only [System.step] at h
    split at h
    · exact access (proceed_access h)
    · cases h
  | elapse caller =>
    simp only [System.step] at h
    split at h
    · obtain rfl := Option.some.inj h
      exact finish ..
    · cases h

end Onward

/-- The steps after which everyone still sees one terminal. -/
def Settling (s : System) : Act → Prop
  | .session label => label ≠ .release ∧ Spared s.session label ∧ Whole s.session label
  | _ => True

structure Settled (cfg : Options) (s : System) : Prop where
  consistent : Consistent cfg s
  agreeing : Agreeing cfg s.session
  tidy : Tidy s.session
  spared : s.session.phase = .killed → s.session.log.dones = [] ∨ s.session.log.published ≠ []
  table : s.session.table.isSome

namespace Settled

variable {s t : System}

lemma init (cfg : Options) : Settled cfg (System.init cfg) where
  consistent := .init cfg
  agreeing _ _ h := by cases h
  tidy h := absurd rfl h
  spared h := by cases h
  table := rfl

lemma session (hs : Settled cfg s) {l : Label} {session : State} (ha : Settling s (.session l))
    (h : Duplex.step cfg s.session l = some session) :
    Settled cfg { s with session := session } := by
  obtain ⟨hr, hk, hw⟩ := ha
  have hl := hs.consistent.live
  have hp := hs.consistent.spoken
  have hm := step_move hl h
  refine ⟨hs.consistent.session h, hs.agreeing.move hp hl hk hm, hs.tidy.move hp hl hw hm, ?_, ?_⟩
  · intro hkilled
    by_cases hs' : s.session.phase.alive = true
    · by_cases hlk : l = .kill
      · have hlog : session.log = s.session.log := by
          subst hlk
          cases hm
          rfl
        rw [hlog]
        exact hk hlk
      · have halive : s.session.phase ≠ .killed := by
          intro hph
          rw [hph] at hs'
          cases hs'
        exact absurd hkilled (move_alive hl halive hlk hm)
    · obtain ⟨-, hlog, -⟩ := move_gone (by simpa using hs') hm
      rw [hlog]
      cases hph : s.session.phase with
      | stopped => exact .inr (hp.published (.inr hph))
      | killed => exact hs.spared hph
      | _ =>
        rw [hph] at hs'
        exact absurd rfl hs'
  · cases move_stored hp hl hm with
    | same ht hb =>
      have hb := congrArg Option.isSome ht
      rw [Option.isSome_map, Option.isSome_map] at hb
      exact hb.trans hs.table
    | released h _ _ => exact absurd h hr
    | published terminal _ _ ht _ =>
      rw [show session.table = _ from ht, Option.isSome_map]
      exact hs.table

lemma step (hs : Settled cfg s) {a : Act} (ha : Settling s a) (h : System.step cfg s a = some t) :
    Settled cfg t := by
  by_cases hsession : ∃ label, a = .session label
  · obtain ⟨label, rfl⟩ := hsession
    simp only [System.step] at h
    split at h
    · obtain ⟨session, hst, rfl⟩ := Option.map_eq_some_iff.mp h
      exact hs.session ha hst
    · cases h
  · have hc := hs.consistent.step h
    rcases (Onward.step h fun label hl => hsession ⟨label, hl⟩).session with hx | ⟨terminal, hx⟩
    · refine ⟨hc, ?_, ?_, ?_, ?_⟩ <;> rw [hx]
      · exact hs.agreeing
      · exact hs.tidy
      · exact hs.spared
      · exact hs.table
    · refine ⟨hc, ?_, ?_, ?_, ?_⟩ <;> rw [hx]
      · exact hs.agreeing
      · exact hs.tidy
      · exact hs.spared
      · rw [State.store, Option.isSome_map]
        exact hs.table

def outcome (cfg : Options) (s : System) : Option Terminal :=
  if s.session.phase.alive = true ∨ s.session.log.published ≠ [] then verdict cfg s.session
  else s.stored

lemma sole (hs : Settled cfg s) {terminal : Terminal} (hk : Known s.session terminal) :
    outcome cfg s = some terminal := by
  have hp := hs.consistent.spoken
  rw [outcome]
  rcases hk with hd | hb | ⟨h1, h2, -, h4⟩
  · have hne := List.ne_nil_of_mem hd
    rw [if_pos]
    · exact hs.agreeing (hs.tidy hne) terminal hd
    · -- a session that is gone after telling a caller its terminal has published it
      cases hph : s.session.phase with
      | stopped => exact .inr (hp.published (.inr hph))
      | killed => exact .inr ((hs.spared hph).resolve_left hne)
      | _ => exact .inl rfl
  · have hne := List.ne_nil_of_mem hb
    rw [if_pos (.inr hne), verdict]
    cases hph : s.session.phase with
    | published => exact hp.same terminal hb
    | stopped => exact hp.same terminal hb
    | killed => exact hp.same terminal hb
    | _ => exact absurd (hp.unpublished (by rw [hph]; rfl)) hne
  · rw [if_neg, System.stored]
    · obtain ⟨table, ht⟩ := Option.isSome_iff_exists.mp hs.table
      rw [ht]
      exact h4 table ht
    · rw [h1, h2]
      simp

lemma stored_sole (hs : Settled cfg s) {terminal : Terminal} (h : s.stored = some terminal) :
    outcome cfg s = some terminal := by
  obtain ⟨table, ht, hx⟩ := Option.bind_eq_some_iff.mp h
  exact hs.sole (hs.consistent.found ht hx)

lemma stored_step (hs : Settled cfg s) {a : Act} (ha : Settling s a)
    (h : System.step cfg s a = some t) {terminal : Terminal} (hst : s.stored = some terminal) :
    t.stored = some terminal := by
  obtain ⟨table, ht, hx⟩ := Option.bind_eq_some_iff.mp hst
  by_cases hsession : ∃ label, a = .session label
  · obtain ⟨label, rfl⟩ := hsession
    simp only [System.step] at h
    split at h
    · obtain ⟨session, hstep, rfl⟩ := Option.map_eq_some_iff.mp h
      have hl := hs.consistent.live
      have hp := hs.consistent.spoken
      cases move_stored hp hl (step_move hl hstep) with
      | same hsame hb =>
        obtain ⟨table', ht', hx'⟩ := Consistent.same_terminal hsame.symm ht
        exact Option.bind_eq_some_iff.mpr ⟨table', ht', hx'.trans hx⟩
      | released hr _ _ => exact absurd hr ha.1
      | published closing hc _ _ _ =>
        have hh := hs.consistent.table (.inl (by rw [hc]; rfl)) table ht
        rw [hp.unpublished (by rw [hc]; rfl), hx] at hh
        cases hh
    · cases h
  · rcases (Onward.step h fun label hl => hsession ⟨label, hl⟩).session with hsame | ⟨other, hsame⟩
    · rw [System.stored, hsame]
      exact hst
    · refine Option.bind_eq_some_iff.mpr ⟨table.insertNew other, ?_, ?_⟩
      · rw [hsame, State.store, ht]
        rfl
      · rw [Consistent.insertNew_terminal, hx]
        rfl

end Settled

lemma answers_step {s t : System} {a : Act} (h : System.step cfg s a = some t) :
    ∃ more, t.answers = s.answers ++ more := by
  by_cases hsession : ∃ label, a = .session label
  · obtain ⟨label, rfl⟩ := hsession
    simp only [System.step] at h
    split at h
    · obtain ⟨session, -, rfl⟩ := Option.map_eq_some_iff.mp h
      exact ⟨[], (List.append_nil _).symm⟩
    · cases h
  · exact (Onward.step h fun label hl => hsession ⟨label, hl⟩).answers

abbrev Settles (cfg : Options) : System → List Act → System → Prop :=
  Run fun s a t => System.step cfg s a = some t ∧ Settling s a

lemma settles_settled {s t : System} {as : List Act} (h : Settles cfg s as t) (hs : Settled cfg s) :
    Settled cfg t :=
  h.invariant (fun _ _ _ hs ht => hs.step ht.2 ht.1) hs

theorem single_assignment {as bs : List Act} {t u : System}
    (h : Settles cfg (System.init cfg) as t) (k : Settles cfg t bs u) :
    (∀ x ∈ t.terminals, ∀ y ∈ u.terminals, x = y) ∧
      (∀ stored, t.stored = some stored →
        u.stored = some stored ∧ ∀ y ∈ u.terminals, y = stored) ∧
      ∀ caller request terminal, t.clients caller = some (request, .insert terminal) →
        terminal.cause = .sessionLost ∧ ∃ v, System.step cfg t (.proceed caller) = some v ∧
          ∃ stored, v.stored = some stored ∧ (t.stored = none → stored = terminal) := by
  have ht := settles_settled h (.init cfg)
  have hu := settles_settled k ht
  have same : ∀ x y, Known u.session x → Known u.session y → x = y := fun x y hx hy =>
    Option.some.inj ((hu.sole hx).symm.trans (hu.sole hy))
  refine ⟨fun x hx y hy => ?_, fun stored hst => ?_, fun caller request terminal hc => ?_⟩
  · have hmore : ∃ more, u.answers = t.answers ++ more := by
      refine k.invariant (I := fun u => ∃ more, u.answers = t.answers ++ more) ?_
        ⟨[], (List.append_nil _).symm⟩
      rintro v b w ⟨more, hv⟩ hw
      obtain ⟨extra, hx⟩ := answers_step hw.1
      exact ⟨more ++ extra, by rw [hx, hv, List.append_assoc]⟩
    obtain ⟨more, hmore⟩ := hmore
    have hxu : x ∈ u.terminals := by
      rw [System.terminals, hmore, List.filterMap_append]
      exact List.mem_append_left _ hx
    exact same x y (hu.consistent.known x hxu) (hu.consistent.known y hy)
  · have hstu : Settled cfg u ∧ u.stored = some stored :=
      k.invariant (I := fun u => Settled cfg u ∧ u.stored = some stored)
        (fun v b w hv hw => ⟨hv.1.step hw.2 hw.1, hv.1.stored_step hw.2 hw.1 hv.2⟩) ⟨ht, hst⟩
    refine ⟨hstu.2, fun y hy => ?_⟩
    exact Option.some.inj ((hu.sole (hu.consistent.known y hy)).symm.trans (hu.stored_sole hstu.2))
  · obtain ⟨table, htable⟩ := Option.isSome_iff_exists.mp ht.table
    refine ⟨ht.consistent.inserting caller request terminal hc,
      { t with session := t.session.store (·.insertNew terminal) }.goto caller request .reread,
      ?_, table.terminal.getD terminal, ?_, fun hn => ?_⟩
    · simp only [System.step, hc, System.proceed, htable]
    · refine Option.bind_eq_some_iff.mpr ⟨table.insertNew terminal, ?_,
        Consistent.insertNew_terminal table terminal⟩
      change t.session.table.map _ = _
      rw [htable]
      rfl
    · have hx : table.terminal = none := by
        rw [System.stored, htable] at hn
        exact hn
      rw [hx]
      rfl

def Act.plain : Act → Bool
  | .session .release | .session .kill | .session (.message (.port (.data .error _)) _) => false
  | _ => true

lemma settling_of_plain {s : System} {a : Act} (h : a.plain = true) : Settling s a := by
  cases a with
  | session label =>
    refine ⟨?_, ?_, ?_⟩
    · rintro rfl
      cases h
    · rintro rfl
      cases h
    · rintro payload answers rfl
      cases h
  | _ => trivial

lemma plain_settles {s t : System} {as : List Act} (h : exec (System.step cfg) s as = some t)
    (hp : ∀ a ∈ as, a.plain = true) : Settles cfg s as t :=
  ((exec_run h).restrict hp).mono fun _ _ _ h => ⟨h.1, settling_of_plain h.2⟩

def toldActs : List Act :=
  [.call 0 .recv, .session (recv 0), .session exited, .proceed 0]

def lateActs : List Act :=
  [.session (.terminate .closed), .session .publish, .session .leave, .call 1 .awaitTerminal,
    .proceed 1]

theorem single_assignment_small :
    ∃ t u, exec (System.step (smallOptions .pull)) (System.init (smallOptions .pull)) toldActs =
        some t ∧
      exec (System.step (smallOptions .pull)) t lateActs = some u ∧
      (∀ x ∈ t.terminals, ∀ y ∈ u.terminals, x = y) ∧
      (∀ stored, t.stored = some stored →
        u.stored = some stored ∧ ∀ y ∈ u.terminals, y = stored) ∧
      ∀ caller request terminal, t.clients caller = some (request, .insert terminal) →
        terminal.cause = .sessionLost ∧
          ∃ v, System.step (smallOptions .pull) t (.proceed caller) = some v ∧
            ∃ stored, v.stored = some stored ∧ (t.stored = none → stored = terminal) := by
  have hrun : (exec (System.step (smallOptions .pull)) (System.init (smallOptions .pull)) toldActs).any
      (fun t => (exec (System.step (smallOptions .pull)) t lateActs).isSome) = true := by
    decide +kernel
  obtain ⟨t, ht, hu⟩ := Option.any_eq_true .. |>.mp hrun
  obtain ⟨u, hu⟩ := Option.isSome_iff_exists.mp hu
  exact ⟨t, u, ht, hu, single_assignment (plain_settles ht (by decide)) (plain_settles hu (by decide))⟩

/-- The process is killed after it has told a caller, and the next caller finds it lost. -/
theorem single_assignment_fails :
    ¬ ∀ (as : List Act) (t : System),
      Run (fun s a t => System.step (smallOptions .pull) s a = some t ∧ a ≠ .session .release)
        (System.init (smallOptions .pull)) as t →
      ∀ x ∈ t.terminals, ∀ y ∈ t.terminals, x = y := by
  intro h
  have hrun : (exec (System.step (smallOptions .pull)) (System.init (smallOptions .pull))
      (toldActs ++ [.session .kill, .call 1 .awaitTerminal, .proceed 1, .proceed 1, .proceed 1,
        .proceed 1, .proceed 1])).any
      (fun t => decide (∃ x ∈ t.terminals, ∃ y ∈ t.terminals, x ≠ y)) = true := by
    decide +kernel
  obtain ⟨t, ht, hb⟩ := Option.any_eq_true .. |>.mp hrun
  obtain ⟨x, hx, y, hy, hne⟩ := of_decide_eq_true hb
  exact hne (h _ t ((exec_run ht).restrict (by decide)) x hx y hy)

end Forcola.Beam.Duplex
