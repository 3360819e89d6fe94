import Forcola.Beam.Shim
import Forcola.Library.Transition

/-! The guard process between a port and its owner, and the owner's close. -/

namespace Forcola.Beam.PortGuard

open Library.Transition
open Native (Bytes)

inductive PortEvent
  | data (payload : Bytes)
  | exitStatus (status : ℕ)
deriving DecidableEq, Repr

inductive ExitReason (R : Type)
  | normal
  | abnormal (reason : R)

inductive Signal (R : Type)
  | event (e : PortEvent)
  | exit (reason : ExitReason R)
  | ownerDown

/-- What the guard sends under its port; `shimError` is an exit status too. -/
inductive Message (R : Type)
  | event (e : PortEvent)
  | shimError (reason : R)
  | guardClosed

inductive Mail (R : Type)
  | port (message : Message R)
  | other (n : ℕ)

inductive Guard
  | relaying (reportedExit : Bool)
  | closing
  | gone
deriving DecidableEq

/-- In its own code, at the time check or in the receive of `drain_guard`, past `close/1`, or
dead. -/
inductive Owner
  | running
  | checking (deadline : ℕ)
  | receiving (deadline : ℕ)
  | closed (ok : Bool)
  | dead
deriving DecidableEq

/-- `emitted`, `died`, `handled` and `sent` are the history of the port and the guard, and
`received` is what the owner has taken of it. -/
structure State (R : Type) where
  clock : ℕ
  emitted : List PortEvent
  died : Option (ExitReason R)
  inbox : List (Signal R)
  guard : Guard
  handled : List (Signal R)
  sent : List (Message R)
  mailbox : List (Mail R)
  received : List (Message R)
  owner : Owner

/-- The receive loops that take messages of the port before `close/1`: `negotiate/3`, the
collectors of single commands and streams, and the servers, which take any message. -/
inductive Loop
  | negotiate
  | collect
  | serve
deriving DecidableEq

inductive Label (R : Type)
  | emit (e : PortEvent)
  | die (reason : ExitReason R)
  | ownerDies
  | mail (n : ℕ)
  | elapse (time : ℕ)
  | relay
  | finish
  | take (loop : Loop)
  | close
  | check
  | receive
  | expire

def guardCloseTimeout : ℕ := 5000

variable {R : Type}

def guardPort (reportedExit : Bool) : Signal R → Guard × List (Message R)
  | .event (.exitStatus status) => (.relaying true, [.event (.exitStatus status)])
  | .event e => (.relaying reportedExit, [.event e])
  | .exit .normal => (.closing, [])
  | .exit (.abnormal reason) => (.closing, if reportedExit then [] else [.shimError reason])
  | .ownerDown => (.closing, [])

def Mail.isPort : Mail R → Bool
  | .port _ => true
  | .other _ => false

def Loop.accepts : Loop → Mail R → Bool
  | .negotiate, mail => mail.isPort
  | .collect, .port (.event (.data payload)) => !payload.isEmpty
  | .collect, .port (.event (.exitStatus _)) => true
  | .collect, .port (.shimError _) => true
  | .collect, _ => false
  | .serve, _ => true

namespace State

def alive (s : State R) : Bool :=
  s.owner != .dead

def send (s : State R) (messages : List (Message R)) : State R :=
  { s with
    sent := s.sent ++ messages
    mailbox := if s.alive then s.mailbox ++ messages.map .port else s.mailbox }

end State

def start : State R where
  clock := 0
  emitted := []
  died := none
  inbox := []
  guard := .relaying false
  handled := []
  sent := []
  mailbox := []
  received := []
  owner := .running

def framed : List (Mail R) → List (Message R)
  | [] => []
  | .port message :: mails => message :: framed mails
  | .other _ :: mails => framed mails

def State.takes (s : State R) (p : Mail R → Bool) : State R :=
  { s with
    mailbox := s.mailbox.eraseP p
    received := s.received ++ framed (s.mailbox.find? p).toList }

def drainGuard (s : State R) (deadline : ℕ) : Option (State R) :=
  match s.mailbox.find? Mail.isPort with
  | some (.port .guardClosed) => some { s.takes Mail.isPort with owner := .closed true }
  | some _ => some { s.takes Mail.isPort with owner := .checking deadline }
  | none => none

def step (s : State R) : Label R → Option (State R)
  | .emit e =>
    if s.died.isSome then none
    else some { s with emitted := s.emitted ++ [e], inbox := s.inbox ++ [.event e] }
  | .die reason =>
    if s.died.isSome then none
    else some { s with died := some reason, inbox := s.inbox ++ [.exit reason] }
  | .ownerDies =>
    if s.alive then
      some { s with owner := .dead, mailbox := [], inbox := s.inbox ++ [.ownerDown] }
    else none
  | .mail n => if s.alive then some { s with mailbox := s.mailbox ++ [.other n] } else none
  | .elapse time => some { s with clock := s.clock + time }
  | .relay =>
    match s.guard, s.inbox with
    | .relaying reportedExit, signal :: inbox =>
      let (guard, messages) := guardPort reportedExit signal
      some ({ s with guard := guard, inbox := inbox, handled := s.handled ++ [signal] }.send
        messages)
    | _, _ => none
  | .finish =>
    match s.guard with
    | .closing => some ({ s with guard := .gone }.send [.guardClosed])
    | _ => none
  | .take loop =>
    if s.owner = .running ∧ s.mailbox.any loop.accepts then some (s.takes loop.accepts) else none
  | .close =>
    match s.owner with
    | .running => some { s with owner := .checking (s.clock + guardCloseTimeout) }
    | _ => none
  | .check =>
    match s.owner with
    | .checking deadline =>
      if s.clock < deadline then some { s with owner := .receiving deadline }
      else some { s with owner := .closed false }
    | _ => none
  | .receive =>
    match s.owner with
    | .receiving deadline => drainGuard s deadline
    | _ => none
  | .expire =>
    match s.owner with
    | .receiving deadline =>
      if deadline ≤ s.clock ∧ s.mailbox.find? Mail.isPort = none then
        some { s with owner := .closed false }
      else none
    | _ => none

abbrev Steps (s : State R) (labels : List (Label R)) (t : State R) : Prop :=
  Run (fun s l t => step s l = some t) s labels t

def PortEvent.isExit : PortEvent → Bool
  | .exitStatus _ => true
  | .data _ => false

def notice (events : List PortEvent) : Signal R → List (Message R)
  | .exit (.abnormal reason) => if events.any PortEvent.isExit then [] else [.shimError reason]
  | _ => []

def Signal.isEvent : Signal R → Bool
  | .event _ => true
  | _ => false

inductive Relayed : Guard → List (Signal R) → List (Message R) → Prop
  | relaying (events : List PortEvent) :
      Relayed (.relaying (events.any PortEvent.isExit)) (events.map .event) (events.map .event)
  | closing (events : List PortEvent) {last : Signal R} : last.isEvent = false →
      Relayed .closing (events.map .event ++ [last]) (events.map .event ++ notice events last)
  | gone (events : List PortEvent) {last : Signal R} : last.isEvent = false →
      Relayed .gone (events.map .event ++ [last])
        (events.map .event ++ notice events last ++ [.guardClosed])

def Signal.fromPort : Signal R → Bool
  | .ownerDown => false
  | _ => true

def Message.carries : Message R → Bool
  | .event (.data payload) => !payload.isEmpty
  | _ => true

/-- What a living owner was sent it has received, in order but for empty packets, or finds in its
mailbox. -/
def Kept (s : State R) : Prop :=
  (s.received ++ framed s.mailbox).Perm s.sent ∧
    (s.received ++ framed s.mailbox).filter Message.carries = s.sent.filter Message.carries

structure Inv (s : State R) : Prop where
  relayed : Relayed s.guard s.handled s.sent
  signals : (s.handled ++ s.inbox).filter Signal.fromPort =
    s.emitted.map .event ++ s.died.toList.map .exit
  mailbox : List.Sublist (framed s.mailbox) s.sent
  owner : s.alive = true → .ownerDown ∉ s.handled ++ s.inbox
  heard : s.received.filter Message.carries <+: s.sent.filter Message.carries
  kept : s.alive = true → Kept s
  lost : s.alive = false → framed s.mailbox = []

inductive Taken (s t : State R) : Prop
  | same : framed t.mailbox = framed s.mailbox → t.received = s.received → Taken s t
  | took (message : Message R) {front back : List (Message R)} :
      framed s.mailbox = front ++ message :: back → framed t.mailbox = front ++ back →
      t.received = s.received ++ [message] →
      (∀ m ∈ front, m.carries = false ∨ m = .guardClosed) → Taken s t

inductive Moved (s : State R) : State R → Prop
  | owner {t : State R} : t.emitted = s.emitted → t.died = s.died → t.inbox = s.inbox →
      t.guard = s.guard → t.handled = s.handled → t.sent = s.sent → t.alive = s.alive →
      Taken s t → Moved s t
  | emitted (e) : s.died = none →
      Moved s { s with emitted := s.emitted ++ [e], inbox := s.inbox ++ [.event e] }
  | died (reason) : s.died = none →
      Moved s { s with died := some reason, inbox := s.inbox ++ [.exit reason] }
  | ownerDied : s.alive = true → Moved s { s with owner := .dead, mailbox := [], inbox := s.inbox ++ [.ownerDown] }
  | relayed {reportedExit signal inbox} : s.guard = .relaying reportedExit →
      s.inbox = signal :: inbox →
      Moved s ({ s with
        guard := (guardPort reportedExit signal).1
        inbox := inbox
        handled := s.handled ++ [signal] }.send (guardPort reportedExit signal).2)
  | finished : s.guard = .closing → Moved s ({ s with guard := .gone }.send [.guardClosed])

def Signal.event? : Signal R → Option PortEvent
  | .event e => some e
  | _ => none

def Message.event? : Message R → Option PortEvent
  | .event e => some e
  | _ => none

def Message.isNotice : Message R → Bool
  | .event e => e.isExit
  | .shimError _ => true
  | .guardClosed => false

/-- The guard takes what the port said in its order and sends every event on, with one notice
for a port that died without an exit status and the closing message at the very end. Empty
packets, which the shim never writes, are left behind by a collector. -/
structure Faithful (s : State R) : Prop where
  taken : (s.handled ++ s.inbox).filter Signal.fromPort =
    s.emitted.map .event ++ s.died.toList.map .exit
  relayed : s.sent.filterMap Message.event? = s.handled.filterMap Signal.event?
  order : s.sent.filterMap Message.event? <+: s.emitted
  complete : ∀ reason, .exit reason ∈ s.handled → s.sent.filterMap Message.event? = s.emitted
  heard : s.received.filter Message.carries <+: s.sent.filter Message.carries
  kept : s.alive = true → Kept s
  mailbox : List.Sublist (framed s.mailbox) s.sent
  notice : ∀ reason, .exit (.abnormal reason) ∈ s.handled →
    (∀ e ∈ s.emitted, e.isExit = false) → s.sent.filter Message.isNotice = [.shimError reason] ∧
      ∃ rest, s.sent = s.emitted.map .event ++ .shimError reason :: rest ∧
        ∀ m ∈ rest, m = .guardClosed
  closed : .guardClosed ∈ s.sent →
    s.guard = .gone ∧ ∃ front, s.sent = front ++ [.guardClosed] ∧ .guardClosed ∉ front

def Label.ofGuard : Label R → Bool
  | .relay | .finish => true
  | _ => false

structure Settled (s : State R) : Prop where
  events : s.sent.filterMap Message.event? = s.emitted
  ended : ∀ reason, s.died = some reason → .exit reason ∈ s.handled ∧ .guardClosed ∈ s.sent

def late (s : State R) : Label R → Prop
  | .check => ∃ deadline, s.owner = .checking deadline ∧ deadline ≤ s.clock
  | _ => False

abbrev Prompt (s : State R) (labels : List (Label R)) (t : State R) : Prop :=
  Run (fun s l t => step s l = some t ∧ ¬late s l) s labels t

def Silent (s : State R) : Prop :=
  ∀ more t, Steps s more t → framed t.mailbox = []

def Draining (s : State R) : Prop :=
  match s.owner with
  | .checking _ | .receiving _ => .guardClosed ∈ framed s.mailbox
  | .closed ok => ok = true ∧ framed s.mailbox = []
  | .running => False
  | .dead => True

section Steps

variable {s t u : State R} {labels more : List (Label R)} {mails : List (Mail R)}

lemma framed_append (mails more : List (Mail R)) :
    framed (mails ++ more) = framed mails ++ framed more := by
  induction mails with
  | nil => rfl
  | cons mail mails ih => cases mail <;> simp [framed, ih]

@[simp] lemma framed_port (messages : List (Message R)) :
    framed (messages.map .port) = messages := by
  induction messages with
  | nil => rfl
  | cons message messages ih => rw [List.map_cons, framed, ih]

lemma mem_framed {message : Message R} (h : message ∈ framed mails) :
    .port message ∈ mails := by
  induction mails with
  | nil => cases h
  | cons mail mails ih =>
    cases mail with
    | port m =>
      rcases List.mem_cons.mp h with rfl | h
      · exact List.mem_cons_self
      · exact List.mem_cons_of_mem _ (ih h)
    | other n => exact List.mem_cons_of_mem _ (ih h)

lemma takes_taken {p : Mail R → Bool}
    (hp : ∀ m : Message R, p (.port m) = false → m.carries = false ∨ m = .guardClosed) :
    Taken s (s.takes p) := by
  cases hf : s.mailbox.find? p with
  | none =>
    refine .same ?_ ?_
    · rw [State.takes, List.eraseP_of_forall_not (List.find?_eq_none.mp hf)]
    · rw [State.takes, hf]
      exact List.append_nil _
  | some mail =>
    obtain ⟨hmail, front, back, hsplit, hfront⟩ := List.find?_eq_some_iff_append.mp hf
    have hfront' : ∀ b ∈ front, ¬p b = true := fun b hb => by simpa using hfront b hb
    have herase : s.mailbox.eraseP p = front ++ back := by
      rw [hsplit, List.eraseP_append_right _ hfront', List.eraseP_cons_of_pos hmail]
    cases mail with
    | other n =>
      refine .same ?_ ?_
      · rw [State.takes, herase, hsplit, framed_append, framed_append, framed]
      · rw [State.takes, hf]
        exact List.append_nil _
    | port message =>
      refine @Taken.took R s _ message (framed front) (framed back) ?_ ?_ ?_ ?_
      · rw [hsplit, framed_append, framed]
      · rw [State.takes, herase, framed_append]
      · rw [State.takes, hf]
        rfl
      · exact fun m hm => hp m (by simpa using hfront _ (mem_framed hm))

lemma Loop.accepts_port (loop : Loop) (m : Message R) (h : loop.accepts (.port m) = false) :
    m.carries = false ∨ m = .guardClosed := by
  cases loop with
  | negotiate | serve => cases h
  | collect =>
    cases m with
    | event e =>
      cases e with
      | data payload => exact .inl h
      | exitStatus status => cases h
    | shimError reason => cases h
    | guardClosed => exact .inr rfl

lemma takes_port : Taken s (s.takes Mail.isPort) :=
  takes_taken fun _ h => nomatch h

lemma Taken.sublist (h : Taken s t) : List.Sublist (framed t.mailbox) (framed s.mailbox) := by
  cases h with
  | same hm => rw [hm]
  | took message hm hm' =>
    rw [hm, hm']
    exact (List.Sublist.refl _).append (List.sublist_cons_self _ _)

lemma Relayed.relay {reportedExit : Bool} {handled : List (Signal R)} {sent : List (Message R)}
    (h : Relayed (.relaying reportedExit) handled sent) (signal : Signal R) :
    Relayed (guardPort reportedExit signal).1 (handled ++ [signal])
      (sent ++ (guardPort reportedExit signal).2) := by
  generalize hg : Guard.relaying reportedExit = guard at h
  cases h with
  | relaying events =>
    obtain rfl := Guard.relaying.inj hg
    cases signal with
    | event e =>
      have hnext : Relayed (.relaying ((events ++ [e]).any PortEvent.isExit))
          ((events ++ [e]).map Signal.event) ((events ++ [e]).map (Message.event (R := R))) :=
        .relaying (events ++ [e])
      rw [List.map_append, List.map_append, List.any_append] at hnext
      cases e with
      | data payload => simpa [guardPort, PortEvent.isExit] using hnext
      | exitStatus status => simpa [guardPort, PortEvent.isExit] using hnext
    | exit reason =>
      cases reason with
      | normal =>
        have hc := @Relayed.closing R events (.exit .normal) rfl
        simpa [guardPort, notice] using hc
      | abnormal r => exact @Relayed.closing R events (.exit (.abnormal r)) rfl
    | ownerDown =>
      have hc := @Relayed.closing R events .ownerDown rfl
      simpa [guardPort, notice] using hc
  | closing | gone => cases hg

lemma Relayed.finish {handled : List (Signal R)} {sent : List (Message R)}
    (h : Relayed .closing handled sent) : Relayed .gone handled (sent ++ [.guardClosed]) := by
  cases h with
  | closing events hlast => exact .gone events hlast

lemma mailbox_send (messages : List (Message R)) (h : List.Sublist (framed s.mailbox) s.sent) :
    List.Sublist (framed (s.send messages).mailbox) (s.send messages).sent := by
  simp only [State.send]
  split
  · rw [framed_append, framed_port]
    exact h.append (.refl _)
  · exact h.trans (List.sublist_append_left _ _)

lemma drainGuard_eq_some {deadline : ℕ} (h : drainGuard s deadline = some t) :
    ∃ message, s.mailbox.find? Mail.isPort = some (.port message) ∧
      t = { s.takes Mail.isPort with
        owner := match message with
          | .guardClosed => .closed true
          | _ => .checking deadline } := by
  rw [drainGuard] at h
  split at h
  · next hf =>
    cases h
    exact ⟨_, hf, rfl⟩
  · next mail hne hf =>
    cases h
    cases mail with
    | other n => exact absurd (List.find?_some hf) (by simp [Mail.isPort])
    | port message =>
      refine ⟨message, hf, ?_⟩
      cases message with
      | guardClosed => exact absurd rfl hne
      | _ => rfl
  · cases h

lemma alive_of {before : Owner} (hs : s.owner = before) (hb : before ≠ .dead)
    (ht : t.owner ≠ .dead) : t.alive = s.alive := by
  rw [State.alive, State.alive, hs, bne_iff_ne.mpr hb, bne_iff_ne.mpr ht]

lemma step_moved {l : Label R} (h : step s l = some t) : Moved s t := by
  cases l with
  | emit e =>
    rw [step] at h
    split at h
    · cases h
    · next hn =>
      cases h
      exact .emitted e (Option.not_isSome_iff_eq_none.mp hn)
  | die reason =>
    rw [step] at h
    split at h
    · cases h
    · next hn =>
      cases h
      exact .died reason (Option.not_isSome_iff_eq_none.mp hn)
  | ownerDies =>
    rw [step] at h
    split at h
    · next ha =>
      cases h
      exact .ownerDied ha
    · cases h
  | mail n =>
    rw [step] at h
    split at h
    · cases h
      refine .owner rfl rfl rfl rfl rfl rfl rfl (.same ?_ rfl)
      rw [framed_append]
      simp [framed]
    · cases h
  | elapse time =>
    cases h
    exact .owner rfl rfl rfl rfl rfl rfl rfl (.same rfl rfl)
  | relay =>
    rw [step] at h
    split at h
    · next hg hi =>
      cases h
      exact .relayed hg hi
    · cases h
  | finish =>
    rw [step] at h
    split at h
    · next hg =>
      cases h
      exact .finished hg
    · cases h
  | take loop =>
    rw [step] at h
    split at h
    · cases h
      exact .owner rfl rfl rfl rfl rfl rfl rfl (takes_taken loop.accepts_port)
    · cases h
  | close =>
    rw [step] at h
    split at h
    · next ho =>
      cases h
      exact .owner rfl rfl rfl rfl rfl rfl (alive_of ho nofun nofun) (.same rfl rfl)
    · cases h
  | check =>
    rw [step] at h
    split at h
    · next ho =>
      split at h <;>
      · cases h
        exact .owner rfl rfl rfl rfl rfl rfl (alive_of ho nofun nofun) (.same rfl rfl)
    · cases h
  | expire =>
    rw [step] at h
    split at h
    · next ho =>
      split at h
      · cases h
        exact .owner rfl rfl rfl rfl rfl rfl (alive_of ho nofun nofun) (.same rfl rfl)
      · cases h
    · cases h
  | receive =>
    rw [step] at h
    split at h
    · next ho =>
      obtain ⟨message, -, rfl⟩ := drainGuard_eq_some h
      refine .owner rfl rfl rfl rfl rfl rfl (alive_of ho nofun ?_) ?_
      · cases message <;> nofun
      · cases takes_port (s := s) with
        | same hm hr => exact .same hm hr
        | took m hm hm' hr hf => exact .took m hm hm' hr hf
    · cases h

lemma not_closed_front (events : List PortEvent) (last : Signal R) :
    .guardClosed ∉ events.map Message.event ++ notice events last := by
  intro h
  rcases List.mem_append.mp h with h | h
  · obtain ⟨e, -, he⟩ := List.mem_map.mp h
    cases he
  · rw [notice.eq_def] at h
    split at h
    · split at h
      · cases h
      · cases List.mem_singleton.mp h
    · cases h

lemma Relayed.closed {guard : Guard} {handled : List (Signal R)} {sent : List (Message R)}
    (h : Relayed guard handled sent) (hm : .guardClosed ∈ sent) :
    guard = .gone ∧ ∃ front, sent = front ++ [.guardClosed] ∧ .guardClosed ∉ front := by
  cases h with
  | relaying events =>
    obtain ⟨e, -, he⟩ := List.mem_map.mp hm
    cases he
  | closing events hlast => exact absurd hm (not_closed_front events _)
  | gone events hlast => exact ⟨rfl, _, rfl, not_closed_front events _⟩

lemma sublist_last {A : Type} {x : A} {front rest : List A}
    (h : List.Sublist (x :: rest) (front ++ [x])) (hx : x ∉ front) : rest = [] := by
  obtain ⟨l, r, heq, hl, hr⟩ := List.sublist_append_iff.mp h
  cases l with
  | nil =>
    rw [List.nil_append] at heq
    subst heq
    have := hr.length_le
    simpa using this
  | cons y l =>
    obtain ⟨rfl, -⟩ := List.cons.inj heq
    exact absurd (hl.subset List.mem_cons_self) hx

lemma Relayed.ahead {guard : Guard} {handled : List (Signal R)}
    {sent front back : List (Message R)} {message : Message R} (h : Relayed guard handled sent)
    (hsub : List.Sublist (front ++ message :: back) sent) : .guardClosed ∉ front := by
  intro hm
  obtain ⟨-, head, hsent, hhead⟩ := h.closed (hsub.subset (List.mem_append_left _ hm))
  obtain ⟨before, rest, rfl⟩ := List.append_of_mem hm
  rw [hsent, List.append_assoc] at hsub
  have hrest := sublist_last ((List.sublist_append_right before _).trans hsub) hhead
  cases rest <;> cases hrest

lemma Kept.heard (h : Kept s) :
    s.received.filter Message.carries <+: s.sent.filter Message.carries := by
  rw [← h.2, List.filter_append]
  exact List.prefix_append _ _

lemma Kept.send (messages : List (Message R)) (ha : s.alive = true) (h : Kept s) :
    Kept (s.send messages) := by
  have hm : framed (s.send messages).mailbox = framed s.mailbox ++ messages := by
    rw [State.send]
    dsimp only
    rw [if_pos ha, framed_append, framed_port]
  refine ⟨?_, ?_⟩
  · rw [hm, ← List.append_assoc]
    exact h.1.append_right _
  · rw [hm, ← List.append_assoc, List.filter_append]
    exact (congrArg (· ++ messages.filter Message.carries) h.2).trans
      (List.filter_append ..).symm

lemma Taken.kept (h : Taken s t) (hi : Inv s) (hs : t.sent = s.sent) (hk : Kept s) : Kept t := by
  cases h with
  | same hm hr =>
    rw [Kept, hm, hr, hs]
    exact hk
  | took message hm hm' hr hfront =>
    have hahead := hi.relayed.ahead (hm ▸ hi.mailbox)
    have hblank : ∀ {front : List (Message R)}, (∀ m ∈ front, m.carries = false) →
        front.filter Message.carries = [] := fun hf =>
      List.filter_eq_nil_iff.mpr fun m hm => by simp [hf m hm]
    have hnil := hblank fun m hmem => (hfront m hmem).resolve_right fun he => hahead (he ▸ hmem)
    obtain ⟨hperm, hfilter⟩ := hk
    rw [hm] at hperm hfilter
    rw [Kept, hm', hr, hs]
    refine ⟨?_, ?_⟩
    · refine .trans ?_ hperm
      rw [List.append_assoc, List.singleton_append]
      exact .append_left _ List.perm_middle.symm
    · rw [← hfilter]
      simp only [List.filter_append, List.filter_cons, List.filter_nil, hnil, List.nil_append,
        List.append_assoc]
      split <;> simp

lemma Inv.sent_owner {guard : Guard} {inbox handled : List (Signal R)}
    {messages : List (Message R)} (h : Inv s)
    (hi : List.Subset (handled ++ inbox) (s.handled ++ s.inbox))
    (hs : (handled ++ inbox).filter Signal.fromPort =
      s.emitted.map .event ++ s.died.toList.map .exit)
    (hr : Relayed guard handled (s.sent ++ messages)) :
    Inv ({ s with guard := guard, inbox := inbox, handled := handled }.send messages) where
  relayed := hr
  signals := hs
  mailbox := mailbox_send messages h.mailbox
  owner ha hm := h.owner ha (hi hm)
  heard := by
    refine h.heard.trans ?_
    rw [State.send, List.filter_append]
    exact List.prefix_append _ _
  kept ha := Kept.send messages ha (h.kept ha)
  lost ha := by
    have hdead : ¬s.alive = true := Bool.eq_false_iff.mp ha
    exact (congrArg framed (if_neg hdead)).trans (h.lost ha)

lemma Inv.moved (h : Inv s) (hm : Moved s t) : Inv t := by
  cases hm with
  | owner he hd hi hg hh hs ha ht =>
    refine ⟨?_, ?_, ?_, ?_, ?_, ?_, ?_⟩
    · rw [hg, hh, hs]
      exact h.relayed
    · rw [hh, hi, he, hd]
      exact h.signals
    · rw [hs]
      exact ht.sublist.trans h.mailbox
    · rw [ha, hh, hi]
      exact h.owner
    · cases hlive : s.alive with
      | true => exact (ht.kept h hs (h.kept hlive)).heard
      | false =>
        cases ht with
        | same _ hr =>
          rw [hr, hs]
          exact h.heard
        | took message hm =>
          rw [h.lost hlive] at hm
          cases List.append_eq_nil_iff.mp hm.symm |>.2
    · rw [ha]
      exact fun hlive => ht.kept h hs (h.kept hlive)
    · rw [ha]
      exact fun hlive => List.sublist_nil.mp (h.lost hlive ▸ ht.sublist)
  | emitted e hd =>
    refine ⟨h.relayed, ?_, h.mailbox, fun ha hm => h.owner ha ?_, h.heard, h.kept, h.lost⟩
    · have hsignals := h.signals
      rw [hd] at hsignals
      simp only [Option.toList_none, List.map_nil, List.append_nil] at hsignals
      simp only [← List.append_assoc, List.filter_append]
      rw [← List.filter_append, hsignals, hd]
      simp [Signal.fromPort]
    · rw [← List.append_assoc] at hm
      exact (List.mem_append.mp hm).resolve_right (by simp)
  | died reason hd =>
    refine ⟨h.relayed, ?_, h.mailbox, fun ha hm => h.owner ha ?_, h.heard, h.kept, h.lost⟩
    · have hsignals := h.signals
      rw [hd] at hsignals
      simp only [Option.toList_none, List.map_nil, List.append_nil] at hsignals
      simp only [← List.append_assoc, List.filter_append]
      rw [← List.filter_append, hsignals]
      simp [Signal.fromPort]
    · rw [← List.append_assoc] at hm
      exact (List.mem_append.mp hm).resolve_right (by simp)
  | ownerDied ha =>
    refine ⟨h.relayed, ?_, List.nil_sublist _, nofun, h.heard, nofun, fun _ => rfl⟩
    simp only [← List.append_assoc, List.filter_append]
    rw [← List.filter_append, h.signals]
    simp [Signal.fromPort]
  | @relayed reportedExit signal inbox hg hi =>
    have hrelayed := h.relayed
    rw [hg] at hrelayed
    have hsame : s.handled ++ [signal] ++ inbox = s.handled ++ s.inbox := by simp [hi]
    refine h.sent_owner (hsame ▸ List.Subset.refl _) (hsame ▸ h.signals) (hrelayed.relay signal)
  | finished hg =>
    have hrelayed := h.relayed
    rw [hg] at hrelayed
    exact h.sent_owner (List.Subset.refl _) h.signals hrelayed.finish

lemma start_inv : Inv (start : State R) :=
  ⟨.relaying [], rfl, .refl _, fun _ => by simp [start], List.prefix_refl _,
    fun _ => ⟨.refl _, rfl⟩, fun _ => rfl⟩

lemma run_inv (h : Steps start labels s) : Inv s :=
  h.invariant (fun _ _ _ hs hst => hs.moved (step_moved hst)) start_inv

lemma filterMap_fromPort (signals : List (Signal R)) :
    (signals.filter Signal.fromPort).filterMap Signal.event? =
      signals.filterMap Signal.event? := by
  induction signals with
  | nil => rfl
  | cons signal signals ih =>
    cases signal with
    | event e =>
      rw [List.filter_cons_of_pos rfl]
      simp only [List.filterMap_cons, Signal.event?, ih]
    | exit reason =>
      rw [List.filter_cons_of_pos rfl]
      simp only [List.filterMap_cons, Signal.event?, ih]
    | ownerDown =>
      rw [List.filter_cons_of_neg Bool.false_ne_true]
      simp only [List.filterMap_cons, Signal.event?, ih]

lemma filterMap_signals (events : List PortEvent) :
    (events.map (Signal.event (R := R))).filterMap Signal.event? = events := by
  rw [List.filterMap_map]
  exact List.filterMap_some

lemma filterMap_messages (events : List PortEvent) :
    (events.map (Message.event (R := R))).filterMap Message.event? = events := by
  rw [List.filterMap_map]
  exact List.filterMap_some

lemma notice_event (events : List PortEvent) (last : Signal R) :
    (notice events last).filterMap Message.event? = [] := by
  rw [notice.eq_def]
  split
  · split <;> rfl
  · rfl

lemma isEvent_event {last : Signal R} (h : last.isEvent = false) :
    [last].filterMap Signal.event? = [] := by
  cases last with
  | event e => cases h
  | exit | ownerDown => rfl

lemma Relayed.events {guard : Guard} {handled : List (Signal R)} {sent : List (Message R)}
    (h : Relayed guard handled sent) :
    sent.filterMap Message.event? = handled.filterMap Signal.event? := by
  cases h with
  | relaying events => rw [filterMap_messages, filterMap_signals]
  | closing events hlast =>
    rw [List.filterMap_append, List.filterMap_append, filterMap_messages, filterMap_signals,
      notice_event, isEvent_event hlast]
  | gone events hlast =>
    have hlast' : [Message.guardClosed (R := R)].filterMap Message.event? = [] := rfl
    rw [List.filterMap_append, List.filterMap_append, List.filterMap_append, filterMap_messages,
      filterMap_signals, notice_event, isEvent_event hlast, hlast', List.append_nil]

lemma Inv.events (h : Inv s) : (s.handled ++ s.inbox).filterMap Signal.event? = s.emitted := by
  rw [← filterMap_fromPort, h.signals, List.filterMap_append, filterMap_signals]
  cases s.died <;> simp [Signal.event?]

lemma notices_none {events : List PortEvent} (h : ∀ e ∈ events, e.isExit = false) :
    (events.map (Message.event (R := R))).filter Message.isNotice = [] := by
  rw [List.filter_eq_nil_iff]
  intro m hm
  obtain ⟨e, he, rfl⟩ := List.mem_map.mp hm
  simp [Message.isNotice, h e he]

lemma Relayed.notice {guard : Guard} {handled : List (Signal R)} {sent : List (Message R)}
    (h : Relayed guard handled sent) {reason : R} (hm : .exit (.abnormal reason) ∈ handled)
    (hn : ∀ e ∈ handled.filterMap Signal.event?, e.isExit = false) :
    sent.filter Message.isNotice = [.shimError reason] := by
  have hfront : ∀ (events : List PortEvent) (last : Signal R), last.isEvent = false →
      .exit (.abnormal reason) ∈ events.map Signal.event ++ [last] →
      (∀ e ∈ (events.map Signal.event ++ [last]).filterMap Signal.event?, e.isExit = false) →
      (events.map Message.event ++ PortGuard.notice events last).filter Message.isNotice =
        [.shimError reason] := by
    intro events last hlast hm hn
    rw [List.filterMap_append, filterMap_signals, isEvent_event hlast, List.append_nil] at hn
    have heq : last = .exit (.abnormal reason) := by
      rcases List.mem_append.mp hm with hm | hm
      · obtain ⟨e, -, he⟩ := List.mem_map.mp hm
        cases he
      · exact (List.mem_singleton.mp hm).symm
    have hany : events.any PortEvent.isExit = false := by
      rw [List.any_eq_false]
      intro e he
      simp [hn e he]
    rw [heq, PortGuard.notice, hany, List.filter_append, notices_none hn]
    rfl
  cases h with
  | relaying events =>
    obtain ⟨e, -, he⟩ := List.mem_map.mp hm
    cases he
  | closing events hlast => exact hfront events _ hlast hm hn
  | gone events hlast =>
    rw [List.filter_append, hfront events _ hlast hm hn]
    rfl

lemma Relayed.gone_sent {handled : List (Signal R)} {sent : List (Message R)}
    (h : Relayed .gone handled sent) :
    ∃ front, sent = front ++ [.guardClosed] ∧ .guardClosed ∉ front := by
  cases h with
  | gone events hlast => exact ⟨_, rfl, not_closed_front events _⟩

lemma Relayed.ended {guard : Guard} {handled : List (Signal R)} {sent : List (Message R)}
    (h : Relayed guard handled sent) {reason : ExitReason R} (hm : .exit reason ∈ handled) :
    ∃ events : List PortEvent, handled = events.map .event ++ [.exit reason] := by
  have hlast : ∀ (events : List PortEvent) (last : Signal R),
      .exit reason ∈ events.map Signal.event ++ [last] → last = .exit reason := by
    intro events last hm
    rcases List.mem_append.mp hm with hm | hm
    · obtain ⟨e, -, he⟩ := List.mem_map.mp hm
      cases he
    · exact (List.mem_singleton.mp hm).symm
  cases h with
  | relaying events =>
    obtain ⟨e, -, he⟩ := List.mem_map.mp hm
    cases he
  | closing events | gone events => exact ⟨events, by rw [hlast events _ hm]⟩

lemma events_before_exit {events emitted : List PortEvent} {reason : ExitReason R}
    {rest : List (Signal R)} {died : Option (ExitReason R)}
    (h : events.map .event ++ .exit reason :: rest =
      emitted.map .event ++ died.toList.map .exit) :
    events = emitted ∧ died = some reason := by
  induction events generalizing emitted with
  | nil =>
    cases emitted with
    | nil =>
      cases died with
      | none => cases h
      | some r =>
        cases h
        exact ⟨rfl, rfl⟩
    | cons e emitted => cases h
  | cons e events ih =>
    cases emitted with
    | nil => cases died <;> cases h
    | cons e' emitted =>
      obtain ⟨he, hrest⟩ := List.cons.inj h
      obtain ⟨rfl, hd⟩ := ih hrest
      cases he
      exact ⟨rfl, hd⟩

lemma Inv.ended (h : Inv s) {reason : ExitReason R} (hm : .exit reason ∈ s.handled) :
    s.handled = s.emitted.map .event ++ [.exit reason] ∧ s.died = some reason := by
  obtain ⟨events, heq⟩ := h.relayed.ended hm
  have hsignals := h.signals
  have hevents : (events.map (Signal.event (R := R))).filter Signal.fromPort =
      events.map .event := by
    rw [List.filter_eq_self]
    intro signal hs
    obtain ⟨e, -, rfl⟩ := List.mem_map.mp hs
    rfl
  rw [heq, List.append_assoc, List.filter_append, hevents, List.singleton_append,
    List.filter_cons_of_pos rfl] at hsignals
  obtain ⟨rfl, hd⟩ := events_before_exit hsignals
  exact ⟨heq, hd⟩

lemma Inv.complete (h : Inv s) {reason : ExitReason R} (hm : .exit reason ∈ s.handled) :
    s.sent.filterMap Message.event? = s.emitted := by
  rw [h.relayed.events, (h.ended hm).1, List.filterMap_append, filterMap_signals]
  exact List.append_nil _

lemma Relayed.terminal {guard : Guard} {handled : List (Signal R)} {sent : List (Message R)}
    (h : Relayed guard handled sent) {events : List PortEvent} {reason : R}
    (heq : handled = events.map .event ++ [.exit (.abnormal reason)])
    (hn : ∀ e ∈ events, e.isExit = false) :
    ∃ rest, sent = events.map .event ++ .shimError reason :: rest ∧
      ∀ m ∈ rest, m = Message.guardClosed := by
  have hsame : ∀ {others : List PortEvent} {last : Signal R},
      others.map .event ++ [last] = events.map .event ++ [.exit (.abnormal reason)] →
      others = events ∧ PortGuard.notice others last = [.shimError reason] := by
    intro others last heq
    obtain ⟨hmap, hlast⟩ := List.append_inj' heq rfl
    have hothers : others = events := by
      have := congrArg (List.filterMap Signal.event?) hmap
      rwa [filterMap_signals, filterMap_signals] at this
    have hany : events.any PortEvent.isExit = false :=
      List.any_eq_false.mpr fun e he => by simp [hn e he]
    rw [hothers, List.singleton_inj.mp hlast, PortGuard.notice, hany]
    exact ⟨rfl, rfl⟩
  cases h with
  | relaying others =>
    have hm : Signal.exit (.abnormal reason) ∈ others.map Signal.event := heq ▸ by simp
    obtain ⟨e, -, he⟩ := List.mem_map.mp hm
    cases he
  | closing others hlast =>
    obtain ⟨rfl, hnotice⟩ := hsame heq
    exact ⟨[], by rw [hnotice], nofun⟩
  | gone others hlast =>
    obtain ⟨rfl, hnotice⟩ := hsame heq
    exact ⟨[.guardClosed], by rw [hnotice]; simp, by simp⟩

lemma Inv.faithful (h : Inv s) : Faithful s := by
  have hevents := h.events
  rw [List.filterMap_append] at hevents
  have hprefix : s.handled.filterMap Signal.event? <+: s.emitted := ⟨_, hevents⟩
  refine ⟨h.signals, h.relayed.events, ?_, fun _ => h.complete, h.heard, h.kept, h.mailbox, ?_,
    h.relayed.closed⟩
  · rw [h.relayed.events]
    exact hprefix
  · intro reason hm hn
    exact ⟨h.relayed.notice hm fun e he => hn e (List.IsPrefix.subset hprefix he),
      h.relayed.terminal (h.ended hm).1 hn⟩

lemma Relayed.last_signal {guard : Guard} {handled : List (Signal R)} {sent : List (Message R)}
    (h : Relayed guard handled sent) (hg : ∀ reported, guard ≠ .relaying reported)
    (ho : .ownerDown ∉ handled) : ∃ reason, .exit reason ∈ handled := by
  have hlast : ∀ (events : List PortEvent) (last : Signal R), last.isEvent = false →
      .ownerDown ∉ events.map Signal.event ++ [last] →
      ∃ reason, .exit reason ∈ events.map Signal.event ++ [last] := by
    intro events last hlast ho
    cases last with
    | event e => cases hlast
    | exit reason => exact ⟨reason, by simp⟩
    | ownerDown => exact absurd (by simp) ho
  cases h with
  | relaying events => exact absurd rfl (hg _)
  | closing events h | gone events h => exact hlast events _ h ho

lemma Inv.settled_gone (h : Inv s) (ha : s.alive = true) (hg : s.guard = .gone) : Settled s := by
  have hrelayed := h.relayed
  rw [hg] at hrelayed
  obtain ⟨reason, hm⟩ := hrelayed.last_signal nofun fun hm =>
    h.owner ha (List.mem_append_left _ hm)
  obtain ⟨front, hsent, -⟩ := hrelayed.gone_sent
  refine ⟨h.complete hm, fun reason' hd => ⟨?_, hsent ▸ by simp⟩⟩
  obtain rfl := Option.some.inj ((h.ended hm).2.symm.trans hd)
  exact hm

lemma Inv.settled_idle (h : Inv s) {reported : Bool} (hg : s.guard = .relaying reported)
    (hi : s.inbox = []) : Settled s := by
  have hsignals := h.signals
  have hevents := h.events
  rw [hi, List.append_nil] at hsignals hevents
  refine ⟨h.relayed.events.trans hevents, fun reason hd => ?_⟩
  rw [hd] at hsignals
  have hmem : Signal.exit reason ∈ s.handled.filter Signal.fromPort := hsignals ▸ by simp
  have hrelayed := h.relayed
  generalize s.handled = handled, s.sent = sent at hrelayed hmem
  rw [hg] at hrelayed
  cases hrelayed with
  | relaying events =>
    obtain ⟨e, -, he⟩ := List.mem_map.mp (List.mem_filter.mp hmem).1
    cases he

lemma Inv.settles (h : Inv s) (ha : s.alive = true) : ∃ more t,
    (∀ l ∈ more, l.ofGuard = true) ∧ Steps s more t ∧ t.emitted = s.emitted ∧ t.died = s.died ∧
      t.alive = true ∧ Settled t := by
  have hclosing : ∀ {u : State R}, Inv u → u.alive = true → u.guard = .closing → ∃ more t,
      (∀ l ∈ more, l.ofGuard = true) ∧ Steps u more t ∧ t.emitted = u.emitted ∧
        t.died = u.died ∧ t.alive = true ∧ Settled t := by
    intro u hu ha hg
    have hst : step u .finish = some ({ u with guard := .gone }.send [.guardClosed]) := by
      simp only [step, hg]
    exact ⟨[.finish], _, by simp [Label.ofGuard], .single hst, rfl, rfl, ha,
      (hu.moved (step_moved hst)).settled_gone ha rfl⟩
  generalize hinbox : s.inbox = inbox
  induction inbox generalizing s with
  | nil =>
    cases hg : s.guard with
    | relaying reported =>
      exact ⟨[], s, nofun, .nil s, rfl, rfl, ha, h.settled_idle hg hinbox⟩
    | closing => exact hclosing h ha hg
    | gone => exact ⟨[], s, nofun, .nil s, rfl, rfl, ha, h.settled_gone ha hg⟩
  | cons signal inbox ih =>
    cases hg : s.guard with
    | relaying reported =>
      have hst : step s .relay = some ({ s with
          guard := (guardPort reported signal).1
          inbox := inbox
          handled := s.handled ++ [signal] }.send (guardPort reported signal).2) := by
        simp only [step, hg, hinbox]
      obtain ⟨more, t, hmore, hrun, he, hd, hlive, ht⟩ :=
        ih (h.moved (step_moved hst)) ha rfl
      exact ⟨.relay :: more, t, List.forall_mem_cons.mpr ⟨rfl, hmore⟩, .cons hst hrun, he, hd,
        hlive, ht⟩
    | closing => exact hclosing h ha hg
    | gone => exact ⟨[], s, nofun, .nil s, rfl, rfl, ha, h.settled_gone ha hg⟩

lemma Moved.gone (h : Moved s t) (hg : s.guard = .gone) :
    t.guard = .gone ∧ t.sent = s.sent ∧ List.Sublist (framed t.mailbox) (framed s.mailbox) := by
  cases h with
  | owner _ _ _ hguard _ hs _ ht => exact ⟨hguard.trans hg, hs, ht.sublist⟩
  | emitted | died => exact ⟨hg, rfl, .refl _⟩
  | ownerDied => exact ⟨hg, rfl, List.nil_sublist _⟩
  | relayed h | finished h => cases hg.symm.trans h

lemma run_gone (h : Steps s labels t) (hg : s.guard = .gone) :
    t.guard = .gone ∧ t.sent = s.sent ∧ List.Sublist (framed t.mailbox) (framed s.mailbox) := by
  induction h with
  | nil => exact ⟨hg, rfl, .refl _⟩
  | cons hst _ ih =>
    obtain ⟨hg', hs, hm⟩ := (step_moved hst).gone hg
    obtain ⟨hg'', hs', hm'⟩ := ih hg'
    exact ⟨hg'', hs'.trans hs, hm'.trans hm⟩

lemma silent_of_gone (hg : s.guard = .gone) (hf : framed s.mailbox = []) : Silent s := by
  intro more t h
  have hm := (run_gone h hg).2.2
  rw [hf] at hm
  exact List.sublist_nil.mp hm

lemma find_framed {message : Message R} (h : mails.find? Mail.isPort = some (.port message)) :
    framed mails = message :: framed (mails.eraseP Mail.isPort) := by
  induction mails with
  | nil => cases h
  | cons mail mails ih =>
    cases mail with
    | port m =>
      rw [List.find?_cons_of_pos rfl] at h
      cases h
      rw [List.eraseP_cons_of_pos rfl, framed]
    | other n =>
      rw [List.find?_cons_of_neg (by simp [Mail.isPort])] at h
      rw [List.eraseP_cons_of_neg (by simp [Mail.isPort]), framed, framed]
      exact ih h

lemma find_none (h : mails.find? Mail.isPort = none) : framed mails = [] := by
  induction mails with
  | nil => rfl
  | cons mail mails ih =>
    rw [List.find?_eq_none] at h
    obtain ⟨hmail, hmails⟩ := List.forall_mem_cons.mp h
    cases mail with
    | port m => exact absurd rfl hmail
    | other n => exact ih (List.find?_eq_none.mpr hmails)

lemma Inv.last (h : Inv s) (hg : s.guard = .gone) {rest : List (Message R)}
    (hf : framed s.mailbox = .guardClosed :: rest) : rest = [] := by
  have hrelayed := h.relayed
  rw [hg] at hrelayed
  obtain ⟨front, hsent, hfront⟩ := hrelayed.gone_sent
  have hm := h.mailbox
  rw [hsent, hf] at hm
  exact sublist_last hm hfront

lemma Draining.step {l : Label R} (h : Draining s) (hi : Inv s) (hg : s.guard = .gone)
    (hst : step s l = some t) (hl : ¬late s l) : Draining t := by
  rw [Draining] at h
  cases l with
  | emit | die =>
    rw [PortGuard.step] at hst
    split at hst
    · cases hst
    · cases hst
      exact h
  | ownerDies =>
    rw [PortGuard.step] at hst
    split at hst
    · cases hst
      exact trivial
    · cases hst
  | mail n =>
    rw [PortGuard.step] at hst
    split at hst
    · cases hst
      rw [Draining, framed_append]
      simpa [framed] using h
    · cases hst
  | elapse time =>
    cases hst
    exact h
  | relay | finish => simp [PortGuard.step, hg] at hst
  | take loop =>
    rw [PortGuard.step] at hst
    split at hst
    · next hr =>
      rw [hr.1] at h
      exact h.elim
    · cases hst
  | close =>
    rw [PortGuard.step] at hst
    split at hst
    · next hr =>
      rw [hr] at h
      exact h.elim
    · cases hst
  | check =>
    rw [PortGuard.step] at hst
    split at hst
    · next deadline ho =>
      rw [ho] at h
      rw [if_pos (Nat.lt_of_not_le fun hle => hl ⟨deadline, ho, hle⟩)] at hst
      cases hst
      exact h
    · cases hst
  | receive =>
    rw [PortGuard.step] at hst
    split at hst
    · next deadline ho =>
      rw [ho] at h
      obtain ⟨message, hf, rfl⟩ := drainGuard_eq_some hst
      have hframed := find_framed hf
      rw [hframed] at h
      cases message with
      | guardClosed => exact ⟨rfl, hi.last hg hframed⟩
      | event e =>
        exact (List.mem_cons.mp h).resolve_left (by simp)
      | shimError reason =>
        exact (List.mem_cons.mp h).resolve_left (by simp)
    · cases hst
  | expire =>
    rw [PortGuard.step] at hst
    split at hst
    · next deadline ho =>
      rw [ho] at h
      split at hst
      · next hx =>
        rw [find_none hx.2] at h
        cases h
      · cases hst
    · cases hst

lemma Draining.run (h : Draining s) (hi : Inv s) (hg : s.guard = .gone)
    (hrun : Prompt s labels t) : Draining t := by
  have hall : Draining s ∧ Inv s ∧ s.guard = .gone := ⟨h, hi, hg⟩
  refine (hrun.invariant (I := fun u => Draining u ∧ Inv u ∧ u.guard = .gone) ?_ hall).1
  intro u l v hu hst
  have hm := step_moved hst.1
  exact ⟨hu.1.step hu.2.1 hu.2.2 hst.1 hst.2, hu.2.1.moved hm, (hm.gone hu.2.2).1⟩

lemma closed_step {l : Label R} {ok : Bool} (hst : step s l = some t)
    (hs : s.owner = .closed ok) : t.owner = .closed ok ∨ t.owner = .dead := by
  cases l with
  | emit | die =>
    rw [step] at hst
    split at hst <;> cases hst
    exact .inl hs
  | ownerDies =>
    rw [step] at hst
    split at hst <;> cases hst
    exact .inr rfl
  | mail n =>
    rw [step] at hst
    split at hst <;> cases hst
    exact .inl hs
  | elapse time =>
    cases hst
    exact .inl hs
  | relay | finish =>
    rw [step] at hst
    split at hst <;> cases hst
    exact .inl hs
  | take | close | check | receive | expire => simp [step, hs] at hst

lemma dead_step {l : Label R} (hst : step s l = some t) (hs : s.owner = .dead) :
    t.owner = .dead := by
  cases l with
  | emit | die | relay | finish =>
    rw [step] at hst
    split at hst <;> cases hst
    exact hs
  | elapse time =>
    cases hst
    exact hs
  | ownerDies | mail => simp [step, State.alive, hs] at hst
  | take | close | check | receive | expire => simp [step, hs] at hst

lemma run_closed {ok : Bool} (h : Steps s labels t) (hs : s.owner = .closed ok ∨ s.owner = .dead) :
    t.owner = .closed ok ∨ t.owner = .dead := by
  refine h.invariant (I := fun u => u.owner = .closed ok ∨ u.owner = .dead) ?_ hs
  intro u l v hu hst
  rcases hu with hu | hu
  · exact closed_step hst hu
  · exact .inr (dead_step hst hu)

lemma late_step {l : Label R} (hst : step s l = some t) (hl : late s l) :
    t.owner = .closed false := by
  cases l with
  | check =>
    obtain ⟨deadline, ho, hle⟩ := hl
    rw [step, ho] at hst
    dsimp only at hst
    rw [if_neg (Nat.not_lt.mpr hle)] at hst
    cases hst
    rfl
  | _ => exact hl.elim

lemma prompt_of_closed (h : Steps s labels t) (ht : t.owner = .closed true) :
    Prompt s labels t := by
  induction h with
  | nil => exact .nil _
  | cons hst hrest ih =>
    refine .cons ⟨hst, fun hl => ?_⟩ (ih ht)
    rcases run_closed hrest (.inl (late_step hst hl)) with h | h
    · cases ht.symm.trans h
    · cases ht.symm.trans h

lemma closing_step {l : Label R} (hst : step s l = some t) (ht : t.owner = .closed true) :
    s.owner = .closed true ∨ .guardClosed ∈ framed s.mailbox := by
  cases l with
  | emit | die | relay | finish | mail =>
    rw [step] at hst
    split at hst <;> cases hst
    exact .inl ht
  | elapse time =>
    cases hst
    exact .inl ht
  | ownerDies | take | close =>
    rw [step] at hst
    split at hst
    · cases hst
      first
        | exact .inl ht
        | cases ht
    · cases hst
  | check | expire =>
    rw [step] at hst
    split at hst
    · split at hst <;> cases hst <;> cases ht
    · cases hst
  | receive =>
    rw [step] at hst
    split at hst
    · obtain ⟨message, hf, rfl⟩ := drainGuard_eq_some hst
      cases message with
      | guardClosed => exact .inr (find_framed hf ▸ List.mem_cons_self)
      | event | shimError => cases ht
    · cases hst

lemma closing_run (h : Steps s labels t) (hg : s.guard = .gone) (ht : t.owner = .closed true) :
    s.owner = .closed true ∨ .guardClosed ∈ framed s.mailbox := by
  induction h with
  | nil => exact .inl ht
  | cons hst _ ih =>
    obtain ⟨hg', -, hm⟩ := (step_moved hst).gone hg
    rcases ih hg' ht with hc | hc
    · exact closing_step hst hc
    · exact .inr (hm.subset hc)

lemma check_prompt {deadline : ℕ} (ho : s.owner = .checking deadline) (hlt : s.clock < deadline) :
    step s .check = some { s with owner := .receiving deadline } := by
  simp only [step, ho]
  exact if_pos hlt

lemma check_late {deadline : ℕ} (ho : s.owner = .checking deadline)
    (hle : ¬s.clock < deadline) : step s .check = some { s with owner := .closed false } := by
  simp only [step, ho]
  exact if_neg hle

lemma expire_returns {deadline : ℕ} (ho : s.owner = .receiving deadline)
    (hf : s.mailbox.find? Mail.isPort = none) : ∃ t, Steps s [.elapse deadline, .expire] t ∧
      t.owner = .closed false := by
  have hexpire : step { s with clock := s.clock + deadline } .expire =
      some { s with clock := s.clock + deadline, owner := .closed false } := by
    simp only [step, ho]
    exact if_pos ⟨Nat.le_add_left .., hf⟩
  exact ⟨_, .cons rfl (.single hexpire), rfl⟩

lemma receiving_returns {deadline : ℕ} (ho : s.owner = .receiving deadline) :
    ∃ more t ok, Steps s more t ∧ t.owner = .closed ok := by
  generalize hn : (framed s.mailbox).length = n
  induction n generalizing s with
  | zero =>
    cases hf : s.mailbox.find? Mail.isPort with
    | some mail =>
      cases mail with
      | other m => exact absurd (List.find?_some hf) (by simp [Mail.isPort])
      | port message =>
        rw [find_framed hf] at hn
        cases hn
    | none =>
      obtain ⟨t, hrun, ht⟩ := expire_returns ho hf
      exact ⟨_, t, false, hrun, ht⟩
  | succ n ih =>
    cases hf : s.mailbox.find? Mail.isPort with
    | some mail =>
      cases mail with
      | other m => exact absurd (List.find?_some hf) (by simp [Mail.isPort])
      | port message =>
        rw [find_framed hf, List.length_cons] at hn
        have hreceive : step s .receive = drainGuard s deadline := by simp only [step, ho]
        rw [drainGuard, hf] at hreceive
        have hmore : ∀ u : State R, u.owner = .checking deadline →
            u.mailbox = s.mailbox.eraseP Mail.isPort →
            ∃ more t ok, Steps u more t ∧ t.owner = .closed ok := by
          intro u hu hm
          by_cases hlt : u.clock < deadline
          · obtain ⟨more, t, ok, hrun, ht⟩ := ih (s := { u with owner := .receiving deadline })
              rfl (by rw [hm]; exact Nat.succ.inj hn)
            exact ⟨_, t, ok, .cons (check_prompt hu hlt) hrun, ht⟩
          · exact ⟨_, _, false, .single (check_late hu hlt), rfl⟩
        cases message with
        | guardClosed => exact ⟨[.receive], _, true, .single hreceive, rfl⟩
        | event | shimError =>
          obtain ⟨more, t, ok, hrun, ht⟩ := hmore
            { s.takes Mail.isPort with owner := .checking deadline } rfl rfl
          exact ⟨_, t, ok, .cons hreceive hrun, ht⟩
    | none =>
      obtain ⟨t, hrun, ht⟩ := expire_returns ho hf
      exact ⟨_, t, false, hrun, ht⟩

lemma drain_returns {deadline : ℕ}
    (h : s.owner = .checking deadline ∨ s.owner = .receiving deadline) :
    ∃ more t ok, Steps s more t ∧ t.owner = .closed ok := by
  rcases h with h | h
  · by_cases hlt : s.clock < deadline
    · obtain ⟨more, t, ok, hrun, ht⟩ := receiving_returns (s := { s with owner := .receiving deadline })
        rfl
      exact ⟨_, t, ok, .cons (check_prompt h hlt) hrun, ht⟩
    · exact ⟨_, _, false, .single (check_late h hlt), rfl⟩
  · exact receiving_returns h

lemma step_close (hst : step s .close = some t) : s.owner = .running ∧
    t = { s with owner := .checking (s.clock + guardCloseTimeout) } := by
  rw [step] at hst
  split at hst
  · next ho =>
    cases hst
    exact ⟨ho, rfl⟩
  · cases hst

lemma close_found (hg : s.guard = .gone) (hrun : Steps s (.close :: more) t)
    (ht : t.owner = .closed true) : .guardClosed ∈ framed s.mailbox := by
  cases hrun with
  | cons hst hrest =>
    obtain ⟨-, rfl⟩ := step_close hst
    rcases closing_run hrest hg ht with h | h
    · cases h
    · exact h

lemma close_iff (hi : Inv s) (hg : s.guard = .gone) {ok : Bool}
    (hrun : Steps s (.close :: more) t) (ht : t.owner = .closed ok) :
    (ok = true ∧ Silent t) ↔
      .guardClosed ∈ framed s.mailbox ∧ Prompt s (.close :: more) t := by
  constructor
  · rintro ⟨rfl, -⟩
    exact ⟨close_found hg hrun ht, prompt_of_closed hrun ht⟩
  · rintro ⟨hmem, hprompt⟩
    cases hprompt with
    | cons hst hrest =>
      obtain ⟨-, rfl⟩ := step_close hst.1
      have hdraining : Draining { s with owner := .checking (s.clock + guardCloseTimeout) } := hmem
      have hd := hdraining.run (hi.moved (step_moved hst.1)) hg hrest
      rw [Draining, ht] at hd
      exact ⟨hd.1, silent_of_gone (run_gone hrun hg).1 hd.2⟩

end Steps

/-- In every run the guard relays faithfully, left alone sends on everything the port has said,
and its closing message ends it. A close always returns; once the guard is gone, it succeeds and
leaves no message behind exactly if no other receive took the closing message before it and no
time check of its drain is late. -/
theorem close_guarded {labels : List (Label R)} {s : State R} (h : Steps start labels s) :
    Faithful s ∧
    (s.alive = true → ∃ more t, (∀ l ∈ more, l.ofGuard = true) ∧ Steps s more t ∧
      t.emitted = s.emitted ∧ t.died = s.died ∧ t.alive = true ∧ Settled t ∧ Faithful t) ∧
    (s.guard = .gone → ∀ more t, Steps s more t → t.guard = .gone ∧ t.sent = s.sent) ∧
    (∀ deadline, s.owner = .checking deadline ∨ s.owner = .receiving deadline →
      ∃ more t ok, Steps s more t ∧ t.owner = .closed ok) ∧
    (s.guard = .gone → ∀ more t ok, Steps s (.close :: more) t → t.owner = .closed ok →
      ((ok = true ∧ Silent t) ↔
        .guardClosed ∈ framed s.mailbox ∧ Prompt s (.close :: more) t)) := by
  have hi := run_inv h
  refine ⟨hi.faithful, fun ha => ?_, fun hg more t hrun => ?_, fun _ ho => drain_returns ho,
    fun hg more t ok hrun ht => close_iff hi hg hrun ht⟩
  · obtain ⟨more, t, hmore, hrun, he, hd, hlive, ht⟩ := hi.settles ha
    exact ⟨more, t, hmore, hrun, he, hd, hlive, ht, (run_inv (h.append hrun)).faithful⟩
  · obtain ⟨hg', hs, -⟩ := run_gone hrun hg
    exact ⟨hg', hs⟩

def exiting : List (Label String) :=
  [.emit (.exitStatus 0), .die .normal, .relay, .relay, .finish]

def closing : List (Label String) :=
  [.close, .check, .receive, .check, .receive]

theorem close_guarded_exiting :
    ∃ s t, Steps start exiting s ∧ Steps s closing t ∧ t.owner = .closed true ∧ Silent t := by
  have hruns : (exec step start exiting).any (fun s => s.guard == .gone &&
      (exec step s closing).any fun t => t.owner == .closed true) = true := by
    decide +kernel
  obtain ⟨s, hs, hruns⟩ := Option.any_eq_true .. |>.mp hruns
  rw [Bool.and_eq_true, beq_iff_eq] at hruns
  obtain ⟨hg, hruns⟩ := hruns
  obtain ⟨t, ht, ho⟩ := Option.any_eq_true .. |>.mp hruns
  have ho := beq_iff_eq.mp ho
  have hrun : Steps s closing t := exec_run ht
  refine ⟨s, t, exec_run hs, hrun, ho, ?_⟩
  exact (((close_guarded (exec_run hs)).2.2.2.2 hg _ t true hrun ho).mpr
    ⟨close_found hg hrun ho, prompt_of_closed hrun ho⟩).2

/-- A server that still has output to hand out takes the closing message with everything else,
and its close waits in vain. -/
theorem close_unanswered :
    ¬∀ (labels : List (Label String)) (s t : State String) (more : List (Label String)) (ok : Bool),
      Steps start labels s → s.guard = .gone → Steps s (.close :: more) t →
      t.owner = .closed ok → ok = true := by
  intro hall
  have hruns : (exec step start (exiting ++ [.take .serve, .take .serve])).any (fun s =>
      s.guard == .gone && (exec step s [.close, .check, .elapse 5000, .expire]).any fun t =>
        t.owner == .closed false) = true := by
    decide +kernel
  obtain ⟨s, hs, hruns⟩ := Option.any_eq_true .. |>.mp hruns
  rw [Bool.and_eq_true, beq_iff_eq] at hruns
  obtain ⟨hg, hruns⟩ := hruns
  obtain ⟨t, ht, ho⟩ := Option.any_eq_true .. |>.mp hruns
  have := hall _ s t _ false (exec_run hs) hg (exec_run ht) (beq_iff_eq.mp ho)
  cases this

end Forcola.Beam.PortGuard
