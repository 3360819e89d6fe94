import Forcola.Beam.CreditBalance
import Forcola.Beam.DuplexCredit

/-! A duplex session as the client of its port: what it sends, and what it makes of its credit. -/

namespace Forcola.Beam.Duplex

open Library
open Native (Bytes Pipe)
open Shim (Tag Command)
open Session (granted)

def Effect.command? : Effect → Option Command
  | .command c => some c
  | _ => none

def Entry.command? : Entry → Option Command
  | .did effect => effect.command?
  | _ => none

def commands (s : State) : List Command :=
  s.log.filterMap Entry.command?

def PortEvent.data? : PortEvent → Option (Tag × Bytes)
  | .data tag payload => some (tag, payload)
  | .exitStatus => none

def Label.data? : Label → Option (Tag × Bytes)
  | .message (.port event) _ | .await event | .drain event => event.data?
  | _ => none

variable {cfg : Options} {s t u : State} {l : Label} {pipe : Pipe}

/-- Whatever is sent, it grants nothing. -/
abbrev Mute : State → State → Prop :=
  Session.Mute State.outstanding State.log fun log pipe =>
    Session.granted pipe (log.filterMap Entry.command?)

lemma granted_more {more : Log} (h : t.log = s.log ++ more) (pipe : Pipe) :
    granted pipe (commands t) =
      granted pipe (commands s) + granted pipe (more.filterMap Entry.command?) := by
  rw [commands, h, List.filterMap_append, Session.granted_append, commands]

def Unfunded (effects : List Effect) : Prop :=
  ∀ e ∈ effects, ∀ pipe bytes, e ≠ .command (.credit pipe bytes)

lemma Unfunded.granted {effects : List Effect} (h : Unfunded effects) (pipe : Pipe) :
    granted pipe ((effects.map Entry.did).filterMap Entry.command?) = 0 := by
  induction effects with
  | nil => rfl
  | cons e effects ih =>
    have hrest := ih fun x hx => h x (List.mem_cons_of_mem _ hx)
    have hsplit : ((e :: effects).map Entry.did).filterMap Entry.command? =
        e.command?.toList ++ (effects.map Entry.did).filterMap Entry.command? := by
      rw [List.map_cons]
      cases hc : e.command? <;> simp [Entry.command?, hc]
    rw [hsplit, Session.granted_append, hrest]
    cases e with
    | command command =>
      cases command with
      | credit q bytes => exact absurd rfl (h _ List.mem_cons_self q bytes)
      | _ => cases pipe <;> rfl
    | _ => cases pipe <;> rfl

namespace Mute

lemma granted (h : Mute s t) (pipe : Pipe) :
    granted pipe (commands t) = granted pipe (commands s) :=
  congrFun h.said pipe

lemma extends_by {effects : List Effect} (ho : t.outstanding = s.outstanding)
    (hl : t.log = s.log ++ effects.map .did) (h : Unfunded effects) : Mute s t := by
  refine ⟨ho, ⟨_, hl.symm⟩, funext fun pipe => ?_⟩
  refine (granted_more hl pipe).trans ?_
  rw [h.granted, Nat.add_zero]
  rfl

lemma aside (h : Aside s t) : Mute s t := by
  obtain ⟨effects, haside, hl⟩ := h.log
  refine .extends_by h.outstanding hl fun e he pipe bytes heq => ?_
  have hfalse := haside e he
  rw [heq] at hfalse
  cases hfalse

lemma reply (s : State) (caller : Caller) (reply : RecvReply) :
    Mute s (s.tell [.recvReply caller reply]) :=
  .extends_by rfl rfl fun e he pipe bytes heq => by
    obtain rfl := List.mem_singleton.mp he
    cases heq

lemma owner (s : State) {effects : List Effect} (h : ∀ e ∈ effects, ∃ message, e = .owner message) :
    Mute s (s.tell effects) :=
  .extends_by rfl rfl fun e he pipe bytes heq => by
    obtain ⟨message, rfl⟩ := h e he
    cases heq

lemma hear (s : State) {entry : Entry} (h : entry.command? = none) : Mute s (s.hear entry) := by
  refine ⟨rfl, List.prefix_append _ _, funext fun pipe => ?_⟩
  have hl : (s.hear entry).log = s.log ++ [entry] := rfl
  refine (granted_more hl pipe).trans ?_
  rw [List.filterMap_cons, h]
  rfl

lemma answered (cfg : Options) (s : State) : Mute s (replyPullWaiter cfg s) := by
  rcases replyPullWaiter_cases cfg s with
    ⟨h, -⟩ | ⟨w, line, queue, -, -, -, h⟩ | ⟨w, ended, -, -, -, -, h⟩
  · rw [h]
    exact .refl s
  · rw [h]
    exact (reply s w.caller (.line line)).trans (.of_eq rfl rfl)
  · rw [h]
    exact (reply s w.caller (.done ended.terminal)).trans (.of_eq rfl rfl)

lemma flushed (cfg : Options) (s : State) : Mute s (s.tell (flushedMessages cfg s)) := by
  refine .owner s fun e he => ?_
  obtain ⟨line, -, rfl⟩ := List.mem_map.mp he
  exact ⟨_, rfl⟩

lemma flushBuffers (cfg : Options) (s : State) : Mute s (flushBuffers cfg s) := by
  rw [Duplex.flushBuffers]
  cases cfg.delivery with
  | pull => exact .of_eq rfl rfl
  | messages => exact (flushed cfg s).trans (.of_eq rfl rfl)

lemma afterFrame (cfg : Options) (s : State) : Mute s (afterFrame cfg s) := by
  rw [Duplex.afterFrame]
  split
  · exact .of_eq rfl rfl
  · split
    · exact .refl s
    · split
      · exact .refl s
      · exact .of_eq rfl rfl

lemma ending (h : Ending cfg s t) : Mute s t := by
  obtain ⟨u, hu, ht⟩ := h
  refine (aside hu).trans (.trans ?_ (aside ht))
  rw [flushMessages]
  cases cfg.delivery with
  | messages => exact flushed cfg u
  | pull => exact .refl u

lemma accepted (s : State) (p : Pipe) (chunk : Bytes) :
    (replyPullWaiter cfg (accept s p chunk)).outstanding =
        Function.update s.outstanding p (s.outstanding p - chunk.length) ∧
      s.log <+: (replyPullWaiter cfg (accept s p chunk)).log ∧
      ∀ pipe, Session.granted pipe (commands (replyPullWaiter cfg (accept s p chunk))) =
        Session.granted pipe (commands s) := by
  have h := answered cfg (accept s p chunk)
  exact ⟨h.outstanding, h.grows, h.granted⟩

end Mute

instance (cfg : Options) (pipe : Pipe) : Decidable (Gated cfg pipe) :=
  inferInstanceAs (Decidable ¬(pipe = .stderr ∧ cfg.pty = true))

lemma grantStreamCredit_granted (hfits : cfg.maxPendingBytes ≤ Native.u64Max) (s : State)
    (q pipe : Pipe) : granted pipe (commands (grantStreamCredit cfg s q)) =
      granted pipe (commands s) +
        if pipe = q ∧ Gated cfg q then cfg.maxPendingBytes - s.outstanding q else 0 := by
  rw [grantStreamCredit]
  by_cases hpty : q = .stderr ∧ cfg.pty = true
  · rw [if_pos hpty, if_neg fun h => h.2 hpty, Nat.add_zero]
  · rw [if_neg hpty]
    by_cases hlt : s.outstanding q < cfg.maxPendingBytes
    · rw [if_pos hlt]
      have hlog : ({ s.tell [.command (.credit q (cfg.maxPendingBytes - s.outstanding q))] with
          outstanding := Function.update s.outstanding q cfg.maxPendingBytes } : State).log =
          s.log ++ [.did (.command (.credit q (cfg.maxPendingBytes - s.outstanding q)))] := rfl
      rw [granted_more hlog]
      by_cases hq : pipe = q
      · subst hq
        rw [if_pos ⟨rfl, hpty⟩]
        exact congrArg _ (Session.granted_credit pipe (by omega))
      · rw [if_neg fun h => hq h.1]
        exact congrArg _ (Session.granted_other (Ne.symm hq) _)
    · rw [if_neg hlt, Nat.sub_eq_zero_of_le (Nat.le_of_not_lt hlt), ite_self, Nat.add_zero]

lemma grantStreamCredit_extends (cfg : Options) (s : State) (q : Pipe) :
    s.log <+: (grantStreamCredit cfg s q).log := by
  rw [grantStreamCredit]
  split
  · exact List.prefix_rfl
  · split
    · exact List.prefix_append _ _
    · exact List.prefix_rfl

/-- What a pipe is short of a full window is granted, and nothing more. -/
structure Funds (cfg : Options) (s t : State) : Prop where
  phase : t.phase = s.phase
  log : s.log <+: t.log
  outstanding : ∀ pipe, Gated cfg pipe →
    t.outstanding pipe = max (s.outstanding pipe) cfg.maxPendingBytes
  granted : cfg.maxPendingBytes ≤ Native.u64Max → ∀ pipe, Gated cfg pipe →
    Session.granted pipe (commands t) =
      Session.granted pipe (commands s) + (cfg.maxPendingBytes - s.outstanding pipe)

lemma grantPullCredit_funds (cfg : Options) (s : State) : Funds cfg s (grantPullCredit cfg s) := by
  refine ⟨?_, ?_, fun pipe hg => ?_, fun hfits pipe hg => ?_⟩
  · obtain ⟨o, l, heq⟩ := grantPullCredit_eq cfg s
    rw [heq]
  · exact (grantStreamCredit_extends cfg s .stdout).trans
      (grantStreamCredit_extends cfg _ .stderr)
  · rw [grantPullCredit_outstanding, if_neg hg]
  · rw [grantPullCredit, grantStreamCredit_granted hfits, grantStreamCredit_granted hfits]
    cases pipe with
    | stdout =>
      rw [if_pos ⟨rfl, hg⟩, if_neg fun h => (by cases h.1)]
      rfl
    | stderr =>
      rw [if_neg fun h => (by cases h.1), if_pos ⟨rfl, hg⟩, grantStreamCredit_outstanding,
        if_neg fun h => (by cases h.1)]
      rfl

inductive Speaks (cfg : Options) (s : State) (l : Label) (t : State) : Prop
  | mute (h : Mute s t) (hl : t.phase = .running →
      s.phase = .running ∧ l.data?.bind Session.chunk? = none)
  | accounts (p : Pipe) (chunk : Bytes) (hp : s.phase = .running)
      (hl : l.data?.bind Session.chunk? = some (p, chunk))
      (ho : t.outstanding = Function.update s.outstanding p (s.outstanding p - chunk.length))
      (hlog : s.log <+: t.log) (hg : ∀ pipe, granted pipe (commands t) = granted pipe (commands s))
  | relays (hd : cfg.delivery = .messages) (h : Mute s t)
  | funds (hp : s.phase = .running) (hl : l.data?.bind Session.chunk? = none) (h : Funds cfg s t)

lemma Message.silent {m : Message} (h : m.quiet = true ∨ m.ends = true) (answers : List PortAnswer) :
    (Label.message m answers).data?.bind Session.chunk? = none := by
  cases m with
  | port event =>
    cases event with
    | exitStatus => rfl
    | data tag payload =>
      cases tag <;> first | rfl | (rcases h with h | h <;> cases h)
  | _ => rfl

lemma chunk_ofPipe (p : Pipe) (chunk : Bytes) :
    Session.chunk? (Tag.ofPipe p, chunk) = some (p, chunk) := by
  cases p <;> rfl

lemma Turn.speaks (hp : s.phase = .running) {m : Message} {answers : List PortAnswer}
    (h : Turn cfg (s.hear (.handled m)) m t) : Speaks cfg s (.message m answers) t := by
  have hear : Mute s (s.hear (.handled m)) := .hear s rfl
  cases h with
  | aside hm h =>
    exact .mute (hear.trans (Mute.aside h)) fun _ => ⟨hp, Message.silent (.inl hm) answers⟩
  | limited p chunk limit _ => exact .mute (hear.trans (.of_eq rfl rfl)) fun hr => by cases hr
  | accepted p chunk _ h =>
    obtain ⟨ho, hlog, hg⟩ := @Mute.accepted cfg
      (s.hear (.handled (.port (.data (Tag.ofPipe p) chunk)))) p chunk
    exact .accounts p chunk hp (chunk_ofPipe p chunk) ho (hear.grows.trans hlog) fun pipe =>
      (hg pipe).trans (hear.granted pipe)
  | relayed p chunk hd =>
    refine .relays hd (hear.trans (.trans (Mute.owner _ ?_) (.of_eq rfl rfl)))
    intro e he
    obtain ⟨line, -, rfl⟩ := List.mem_map.mp he
    exact ⟨_, rfl⟩
  | @ended m e u w v hm hu hw hv hg hx =>
    have hflush : Mute u w := by
      rw [hw]
      split
      · exact .flushBuffers cfg u
      · exact .refl u
    refine .mute ?_ fun _ => ⟨hp, Message.silent (.inr hm) answers⟩
    have hexit : Mute w { w with exit := some e } := .of_eq rfl rfl
    exact hear.trans ((Mute.aside hu).trans (hflush.trans (hexit.trans ((Mute.aside hv).trans
      ((Mute.answered cfg v).trans (Mute.afterFrame cfg _))))))
  | refused caller reply hr => exact .mute (hear.trans (Mute.reply _ _ _)) fun _ => ⟨hp, rfl⟩
  | last caller line _ hw hq he => exact .mute (hear.trans (.of_eq rfl rfl)) fun _ => ⟨hp, rfl⟩
  | popped caller line queue _ hw hq he =>
    refine .mute (hear.trans ?_) fun _ => ⟨hp, rfl⟩
    exact .trans (.of_eq (t := { s.hear (.handled (.call caller .recv)) with queue := queue })
      rfl rfl) (Mute.reply _ _ _)
  | waits caller _ hw hq he =>
    refine .funds hp rfl ?_
    have h := grantPullCredit_funds cfg { s.hear (.handled (.call caller .recv)) with
      waiter := some ⟨caller, (s.hear (.handled (.call caller .recv))).refs⟩
      refs := (s.hear (.handled (.call caller .recv))).refs + 1 }
    refine ⟨h.phase, hear.grows.trans h.log, h.outstanding, fun hfits pipe hg => ?_⟩
    have hgranted := h.granted hfits pipe hg
    have hheard := hear.granted pipe
    rw [hgranted]
    exact congrArg (· + _) hheard
  | expired waiter hw =>
    exact .mute (hear.trans ((Mute.reply _ _ _).trans (.of_eq rfl rfl))) fun _ => ⟨hp, rfl⟩
  | stops cause hm => exact .mute (hear.trans (.of_eq rfl rfl)) fun hr => by cases hr

lemma Move.speaks (h : Move cfg s l t) : Speaks cfg s l t := by
  cases h with
  | release => exact .mute (.of_eq rfl rfl) fun hr => ⟨hr, rfl⟩
  | turn answers hp h => exact h.speaks hp
  | settled e kill hp he h => exact .mute ((Mute.ending h).trans (.of_eq rfl rfl)) fun hr => by cases hr
  | killing kill hp he h => exact .mute ((Mute.ending h).trans (.of_eq rfl rfl)) fun hr => by cases hr
  | gaveUp result kill hp he h =>
    exact .mute ((Mute.ending h).trans (.of_eq rfl rfl)) fun hr => by cases hr
  | noted event hp h =>
    refine .mute ((Mute.hear s rfl).trans (Mute.aside h)) fun hr => ?_
    cases (h.phase.symm.trans hr).symm.trans hp
  | concluded result event hp h hx =>
    exact .mute ((Mute.hear s rfl).trans ((Mute.aside h).trans (.of_eq rfl rfl)))
      fun hr => by cases hr
  | expired hp h => exact .mute ((Mute.aside h).trans (.of_eq rfl rfl)) fun hr => by cases hr
  | drained terminal event hp =>
    refine .mute (Mute.hear s rfl) fun hr => ?_
    cases hp.symm.trans hr
  | published terminal hp =>
    have hlog : (s.tell (.published terminal ::
        if cfg.recipient then [.recipient terminal] else [])).log = s.log ++
          (.published terminal :: if cfg.recipient then [.recipient terminal] else []).map .did := rfl
    refine .mute (Mute.extends_by rfl hlog ?_) fun hr => by cases hr
    intro e he pipe bytes heq
    rw [heq] at he
    rcases List.mem_cons.mp he with he | he
    · cases he
    · split at he
      · cases List.mem_singleton.mp he
      · cases he
  | left hp =>
    have hlog : (s.tell (s.farewell.toList.map fun reply => .recvReply reply.1 reply.2)).log =
        s.log ++ (s.farewell.toList.map fun reply => .recvReply reply.1 reply.2).map .did := rfl
    refine .mute (Mute.extends_by rfl hlog ?_) fun hr => by cases hr
    intro e he pipe bytes heq
    obtain ⟨reply, -, hreply⟩ := List.mem_map.mp he
    cases hreply.trans heq
  | killed hp => exact .mute (.of_eq rfl rfl) fun hr => by cases hr

/-- A state of a session, whatever its owner, its callers and the port did. -/
abbrev Sound (cfg : Options) := { s : State // Live cfg s }

def next (cfg : Options) (s : Sound cfg) (l : Label) : Option (Sound cfg) :=
  (step cfg s.1 l).pmap (p := Live cfg) Subtype.mk fun _ h => s.2.step h

def opened (cfg : Options) : Sound cfg := ⟨init cfg, .init cfg⟩

lemma next_step {s t : Sound cfg} (h : next cfg s l = some t) : step cfg s.1 l = some t.1 := by
  obtain ⟨u, hu, hs, rfl⟩ := Option.pmap_eq_some_iff.mp h
  exact hs

lemma next_speaks {s t : Sound cfg} (h : next cfg s l = some t) : Speaks cfg s.1 l t.1 :=
  (step_move s.2 (next_step h)).speaks

lemma next_grows {s t : Sound cfg} (h : next cfg s l = some t) :
    commands s.1 <+: commands t.1 := by
  have hlog : s.1.log <+: t.1.log := by
    cases next_speaks h with
    | mute h => exact h.grows
    | accounts p chunk hp hl ho hlog hg => exact hlog
    | relays hd h => exact h.grows
    | funds hp hl h => exact h.log
  exact hlog.filterMap Entry.command?

def client (cfg : Options) : Session.Client (Sound cfg) Label where
  step := next cfg
  hears := Label.data?
  commands s := commands s.1
  grows := next_grows

def Running (s : Sound cfg) : Prop := s.1.phase = .running

lemma keeps (hd : cfg.delivery = .pull) (hfits : cfg.maxPendingBytes ≤ Native.u64Max)
    (hg : Gated cfg pipe) : Session.Keeps (client cfg) pipe cfg.maxPendingBytes Running
      fun s => s.1.outstanding pipe := by
  constructor
  · intro s l t hs hl
    cases next_speaks hs with
    | mute h hrunning =>
      obtain ⟨hp, hsilent⟩ := hrunning hl
      have hout : t.1.outstanding pipe = s.1.outstanding pipe := congrFun h.outstanding pipe
      refine ⟨hp, fun hbound => ⟨by omega, 0, h.granted pipe, ?_⟩⟩
      rw [Session.heardBytes_silent (K := client cfg) hsilent, List.length_nil]
      exact ⟨by omega, fun _ => by omega⟩
    | accounts p chunk hp hchunk ho hlog hgranted =>
      refine ⟨hp, fun hbound => ?_⟩
      rw [Session.heardBytes_chunk (K := client cfg) hchunk, ho]
      by_cases hq : p = pipe
      · subst hq
        rw [if_pos rfl, Function.update_self]
        exact ⟨by omega, 0, hgranted p, by omega, fun _ => by omega⟩
      · rw [if_neg hq, Function.update_of_ne (Ne.symm hq), List.length_nil]
        exact ⟨hbound, 0, hgranted pipe, le_refl _, fun _ => rfl⟩
    | relays hm h => cases hd.symm.trans hm
    | funds hp hsilent h =>
      have hout := h.outstanding pipe hg
      refine ⟨hp, fun hbound => ?_⟩
      rw [max_eq_right hbound] at hout
      rw [Session.heardBytes_silent (K := client cfg) hsilent, List.length_nil]
      exact ⟨hout.le, _, h.granted hfits pipe hg, by omega, fun _ => by omega⟩
  · intro s l t hs hl
    cases next_speaks hs with
    | mute h => exact h.granted pipe
    | accounts p chunk hp hchunk ho hlog hgranted => exact hgranted pipe
    | relays hm h => exact h.granted pipe
    | funds hp hsilent h => exact absurd (h.phase.trans hp) hl

lemma opens (cfg : Options) (pipe : Pipe) : Session.Opens (client cfg) pipe cfg.maxPendingBytes
    Running (fun s => s.1.outstanding pipe) (opened cfg) :=
  ⟨rfl, Nat.zero_le _, rfl⟩

end Forcola.Beam.Duplex
