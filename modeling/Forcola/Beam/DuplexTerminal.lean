import Forcola.Beam.DuplexDelivery

/-! The terminal a session gives out: to its callers, in its table, to its recipient. -/

namespace Forcola.Beam.Duplex

open Library Transition
open Native (Bytes Pipe)
open Shim (Tag ExitReport)

variable {cfg : Options} {s t u v : State}

lemma tell_append (s : State) (effect : Effect) :
    (s.tell [effect]).log.dones = s.log.dones ++ Entry.dones (.did effect) ∧
      (s.tell [effect]).log.published = s.log.published ++ Entry.published (.did effect) := by
  rw [State.tell, Log.dones_append, Log.published_append]
  simp [Log.dones, Log.published]

lemma tell_silent (s : State) (effects : List Effect)
    (h : ∀ e ∈ effects, Entry.dones (.did e) = [] ∧ Entry.published (.did e) = []) :
    (s.tell effects).log.dones = s.log.dones ∧
      (s.tell effects).log.published = s.log.published := by
  have h1 : Log.dones (effects.map .did) = [] := by
    rw [Log.dones, List.flatMap_map, List.flatMap_eq_nil_iff]
    exact fun e he => (h e he).1
  have h2 : Log.published (effects.map .did) = [] := by
    rw [Log.published, List.flatMap_map, List.flatMap_eq_nil_iff]
    exact fun e he => (h e he).2
  rw [State.tell, Log.dones_append, Log.published_append, h1, h2, List.append_nil, List.append_nil]
  exact ⟨rfl, rfl⟩

lemma hear_silent (s : State) (entry : Entry) (h : ∀ e, entry ≠ .did e) :
    (s.hear entry).log.dones = s.log.dones ∧ (s.hear entry).log.published = s.log.published := by
  rw [show (s.hear entry).log = s.log ++ [entry] from rfl, Log.dones_append, Log.published_append]
  cases entry with
  | did e => exact absurd rfl (h e)
  | handled m => exact ⟨List.append_nil _, List.append_nil _⟩
  | awaited event => exact ⟨List.append_nil _, List.append_nil _⟩
  | drained event => exact ⟨List.append_nil _, List.append_nil _⟩

lemma flushedMessages_unspoken (cfg : Options) (s : State) : ∀ e ∈ flushedMessages cfg s,
    Entry.dones (.did e) = [] ∧ Entry.published (.did e) = [] := by
  intro e he
  obtain ⟨line, -, rfl⟩ := List.mem_map.mp he
  exact ⟨rfl, rfl⟩

lemma flushBuffers_silent (cfg : Options) (s : State) :
    (flushBuffers cfg s).log.dones = s.log.dones ∧
      (flushBuffers cfg s).log.published = s.log.published := by
  rw [flushBuffers]
  cases cfg.delivery with
  | pull => exact ⟨rfl, rfl⟩
  | messages => exact tell_silent s _ (flushedMessages_unspoken cfg s)

lemma ending_silent (h : Ending cfg s t) :
    t.log.dones = s.log.dones ∧ t.log.published = s.log.published := by
  obtain ⟨u, hu, ht⟩ := h
  have hm : (flushMessages cfg u).log.dones = u.log.dones ∧
      (flushMessages cfg u).log.published = u.log.published := by
    rw [flushMessages]
    cases cfg.delivery with
    | pull => exact ⟨rfl, rfl⟩
    | messages => exact tell_silent u _ (flushedMessages_unspoken cfg u)
  exact ⟨ht.dones.trans (hm.1.trans hu.dones), ht.published.trans (hm.2.trans hu.published)⟩

lemma replyPullWaiter_published (cfg : Options) (s : State) :
    (replyPullWaiter cfg s).log.published = s.log.published := by
  rcases replyPullWaiter_cases cfg s with ⟨h, -⟩ | ⟨_, _, _, -, -, -, h⟩ | ⟨_, _, -, -, -, -, h⟩
  · rw [h]
  · rw [h]
    exact (tell_append s _).2.trans (List.append_nil _)
  · rw [h]
    exact (tell_append s _).2.trans (List.append_nil _)

structure Finished (s : State) (m : Message) (t : State) (e : Ended) : Prop where
  waiter : s.waiter.isSome
  exit : t.exit = some e
  phase : t.phase = .stopping
  queue : t.queue = []
  farewell : t.farewell = none
  limit : t.outputLimit = none
  groups : withGroups e.terminal t.tracking = e.terminal
  buffers : t.buffers = (fun _ => []) ∨
    (∃ payload, m = .port (.data .error payload)) ∧ t.buffers = s.buffers

lemma Message.unflushed_end {m : Message} (hm : m.ends = true) (hf : m.flushes = false) :
    ∃ payload, m = .port (.data .error payload) := by
  cases m with
  | port event =>
    cases event with
    | exitStatus => cases hf
    | data tag payload =>
      cases tag with
      | error => exact ⟨payload, rfl⟩
      | exit => cases hf
      | _ => cases hm
  | _ => cases hm

lemma ended_told (hl : Live cfg s) (hp : s.phase = .running) {m : Message} {e : Ended}
    {u w v : State} (hm : m.ends = true) (hu : Aside (s.hear (.handled m)) u)
    (hw : w = if m.flushes then flushBuffers cfg u else u) (hv : Aside { w with exit := some e } v)
    (hg : withGroups e.terminal v.tracking = e.terminal) :
    (afterFrame cfg (replyPullWaiter cfg v)).log.published = s.log.published ∧
      ((afterFrame cfg (replyPullWaiter cfg v)).log.dones = s.log.dones ∨
        (afterFrame cfg (replyPullWaiter cfg v)).log.dones = s.log.dones ++ [e.terminal] ∧
          Finished s m (afterFrame cfg (replyPullWaiter cfg v)) e) := by
  obtain ⟨hd, hb⟩ := hear_silent s (.handled m) fun _ => Entry.noConfusion
  obtain ⟨hk, -⟩ := flushed_iff hw
  have hwlog : w.log.dones = u.log.dones ∧ w.log.published = u.log.published := by
    cases hfl : m.flushes with
    | true =>
      rw [hfl, if_pos rfl] at hw
      rw [hw]
      exact flushBuffers_silent cfg u
    | false =>
      rw [hfl, if_neg Bool.false_ne_true] at hw
      rw [hw]
      exact ⟨rfl, rfl⟩
  have hvd : v.log.dones = s.log.dones := hv.dones.trans (hwlog.1.trans (hu.dones.trans hd))
  have hvb : v.log.published = s.log.published :=
    hv.published.trans (hwlog.2.trans (hu.published.trans hb))
  have hhalt : v.halt = false := hv.halt.trans (hk.halt.trans (hu.halt.trans (hl.halt hp)))
  have hexit : v.exit = some e := hv.exit
  have hafter : ∀ x, afterFrame cfg x = x ∨ afterFrame cfg x = x.stop := by
    intro x
    rw [afterFrame]
    split
    · exact .inr rfl
    · split
      · exact .inl rfl
      · split
        · exact .inl rfl
        · exact .inr rfl
  have hlog : ∀ x, (afterFrame cfg x).log = x.log := by
    intro x
    rcases hafter x with h | h
    · rw [h]
    · rw [h]
      rfl
  rw [hlog, replyPullWaiter_published]
  refine ⟨hvb, ?_⟩
  rcases replyPullWaiter_cases cfg v with
    ⟨h, -⟩ | ⟨x, line, queue, -, -, -, h⟩ | ⟨x, e', hdel, hx, hq, he', h⟩
  · rw [h]
    exact .inl hvd
  · rw [h]
    exact .inl (((tell_append v _).1.trans (List.append_nil _)).trans hvd)
  · obtain rfl : e = e' := Option.some.inj (hexit.symm.trans he')
    have hstop : afterFrame cfg (replyPullWaiter cfg v) = (replyPullWaiter cfg v).stop := by
      rw [afterFrame_ended]
      · rw [if_neg]
        rw [h]
        exact fun hn => hn.2 hq
      · rw [(replyPullWaiter_frame cfg v).1]
        exact hhalt
      · rw [(replyPullWaiter_frame cfg v).2, hexit]
        rfl
    refine .inr ⟨?_, ?_⟩
    · rw [h]
      exact (tell_append v _).1.trans (congrArg (· ++ [e.terminal]) hvd)
    · rw [hstop, h]
      have hfw : v.farewell = none :=
        hv.farewell.trans (hk.farewell.trans (hu.farewell.trans (hl.noFarewell hp)))
      refine ⟨?_, hexit, rfl, hq, hfw, ?_, hg, ?_⟩
      · have hws : v.waiter = s.waiter := hv.waiter.trans (hk.waiter.trans hu.waiter)
        rw [← hws, hx]
        rfl
      · have hlim : v.outputLimit.isSome = false := by
          rw [hv.outputLimit, show ({ w with exit := some e } : State).outputLimit = w.outputLimit
            from rfl, hk.outputLimit, hu.outputLimit]
          exact hl.limit.trans (hl.halt hp)
        exact Option.isSome_eq_false_iff.mp hlim |> Option.isNone_iff_eq_none.mp
      · change v.buffers = _ ∨ _ ∧ v.buffers = _
        rw [hv.buffers]
        cases hfl : m.flushes with
        | true =>
          rw [hfl, if_pos rfl] at hw
          obtain ⟨q, l, hfb, -⟩ := flushBuffers_eq cfg u
          refine .inl ?_
          rw [hw, hfb]
        | false =>
          rw [hfl, if_neg Bool.false_ne_true] at hw
          exact .inr ⟨Message.unflushed_end hm hfl, hw ▸ hu.buffers⟩

lemma turn_told (hl : Live cfg s) (hp : s.phase = .running) {m : Message}
    (h : Turn cfg (s.hear (.handled m)) m t) :
    t.log.published = s.log.published ∧
      (t.log.dones = s.log.dones ∨
        ∃ e, t.log.dones = s.log.dones ++ [e.terminal] ∧ Finished s m t e) := by
  obtain ⟨hd, hb⟩ := hear_silent s (.handled m) fun _ => Entry.noConfusion
  have reply : ∀ (caller : Caller) (reply : RecvReply), Entry.dones (.did (.recvReply caller reply)) = [] →
      ((s.hear (.handled m)).tell [.recvReply caller reply]).log.dones = s.log.dones ∧
        ((s.hear (.handled m)).tell [.recvReply caller reply]).log.published = s.log.published := by
    intro caller reply hr
    obtain ⟨h1, h2⟩ := tell_silent (s.hear (.handled m)) [.recvReply caller reply]
      (by simpa [Entry.published] using hr)
    exact ⟨h1.trans hd, h2.trans hb⟩
  cases h with
  | aside hm h => exact ⟨h.published.trans hb, .inl (h.dones.trans hd)⟩
  | limited p chunk limit _ => exact ⟨hb, .inl hd⟩
  | accepted p chunk hdel h =>
    refine ⟨(replyPullWaiter_published cfg _).trans hb, .inl ?_⟩
    rcases replyPullWaiter_cases cfg (accept (s.hear _) p chunk) with
      ⟨h, -⟩ | ⟨x, line, queue, -, -, -, h⟩ | ⟨x, e, -, hx, -, he, -⟩
    · rw [h]
      exact hd
    · rw [h]
      exact (reply x.caller (.line line) rfl).1
    · have hn : s.exit = none := (hl.waiting hx).2.2
      rw [show s.exit = some e from he] at hn
      cases hn
  | relayed p chunk hdel =>
    obtain ⟨h1, h2⟩ := tell_silent (s.hear (.handled (.port (.data (Tag.ofPipe p) chunk))))
      ((Lines.lines newline
        ((s.hear (.handled (.port (.data (Tag.ofPipe p) chunk)))).buffers p ++ chunk)).map fun line =>
          .owner (.line ⟨p, line⟩)) (by
        intro e he
        obtain ⟨line, -, rfl⟩ := List.mem_map.mp he
        exact ⟨rfl, rfl⟩)
    exact ⟨h2.trans hb, .inl (h1.trans hd)⟩
  | ended e hm hu hw hv hg hx =>
    obtain ⟨h1, h2⟩ := ended_told hl hp hm hu hw hv hg
    exact ⟨h1, h2.imp_right fun h => ⟨e, h⟩⟩
  | refused caller r hr =>
    obtain ⟨h1, h2⟩ := reply caller r (by rcases hr with rfl | rfl <;> rfl)
    exact ⟨h2, .inl h1⟩
  | last caller line hdel hw hq hx => exact ⟨hb, .inl hd⟩
  | popped caller line queue hdel hw hq hx =>
    obtain ⟨h1, h2⟩ := reply caller (.line line) rfl
    exact ⟨h2, .inl h1⟩
  | waits caller hdel hw hq hx =>
    obtain ⟨-, -, -, -, h1, h2⟩ := grantPullCredit_log cfg
      { s.hear (.handled (.call caller .recv)) with
        waiter := some ⟨caller, s.refs⟩, refs := s.refs + 1 } .stdout
    exact ⟨h2.trans hb, .inl (h1.trans hd)⟩
  | expired waiter hw =>
    obtain ⟨h1, h2⟩ := reply waiter.caller .timeout rfl
    exact ⟨h2, .inl h1⟩
  | stops cause hm => exact ⟨hb, .inl hd⟩

lemma afterFrame_phase (cfg : Options) (s : State) :
    (afterFrame cfg s).phase = s.phase ∨ (afterFrame cfg s).phase = .stopping := by
  rw [afterFrame]
  split
  · exact .inr rfl
  · split
    · exact .inl rfl
    · split
      · exact .inl rfl
      · exact .inr rfl

lemma turn_phase (hl : Live cfg s) (hp : s.phase = .running) {m : Message}
    (h : Turn cfg (s.hear (.handled m)) m t) :
    (t.phase = .running ∨ t.phase = .stopping) ∧
      ∀ caller reply, t.farewell = some (caller, reply) → ∃ line, reply = .line line := by
  have silent : ∀ x : State, x.farewell = s.farewell →
      ∀ caller reply, x.farewell = some (caller, reply) → ∃ line, reply = .line line := by
    intro x hx caller reply hr
    rw [hx, hl.noFarewell hp] at hr
    cases hr
  cases h with
  | aside hm h => exact ⟨.inl (h.phase.trans hp), silent t h.farewell⟩
  | limited p chunk limit _ => exact ⟨.inr rfl, silent _ rfl⟩
  | accepted p chunk hdel h =>
    obtain ⟨q, w, l, heq⟩ := replyPullWaiter_eq cfg (accept (s.hear _) p chunk)
    rw [heq]
    exact ⟨.inl hp, silent _ rfl⟩
  | relayed p chunk hdel => exact ⟨.inl hp, silent _ rfl⟩
  | ended e hm hu hw hv hg hx =>
    obtain ⟨hk, -⟩ := flushed_iff hw
    obtain ⟨q, x, l, heq⟩ := replyPullWaiter_eq cfg _
    have hph := hv.phase.trans (hk.phase.trans (hu.phase.trans hp))
    have hfw := hv.farewell.trans (hk.farewell.trans hu.farewell)
    refine ⟨(afterFrame_phase cfg _).imp_left fun h => ?_, silent _ ?_⟩
    · rw [h, heq]
      exact hph
    · rw [(Delivering.afterFrame_frame cfg _).1, heq]
      exact hfw
  | refused caller reply hr => exact ⟨.inl hp, silent _ rfl⟩
  | last caller line hdel hw hq hx =>
    refine ⟨.inr rfl, fun c r hr => ?_⟩
    obtain ⟨rfl, rfl⟩ : caller = c ∧ .line line = r := by simpa [State.stopWith] using hr
    exact ⟨line, rfl⟩
  | popped caller line queue hdel hw hq hx => exact ⟨.inl hp, silent _ rfl⟩
  | waits caller hdel hw hq hx =>
    have hfr := grantPullCredit_frame cfg { s.hear (.handled (.call caller .recv)) with
      waiter := some ⟨caller, (s.hear (.handled (.call caller .recv))).refs⟩
      refs := (s.hear (.handled (.call caller .recv))).refs + 1 }
    exact ⟨.inl (hfr.1.trans hp), silent _ hfr.2⟩
  | expired waiter hw => exact ⟨.inl hp, silent _ rfl⟩
  | stops cause hm => exact ⟨.inr rfl, silent _ rfl⟩

def Phase.early : Phase → Bool
  | .running | .stopping | .awaiting | .closing _ => true
  | _ => false

structure Spoken (s : State) : Prop where
  farewell : ∀ caller reply, s.farewell = some (caller, reply) → ∃ line, reply = .line line
  running : s.phase = .running → s.log.dones = []
  awaiting : s.phase = .awaiting → s.exit = none
  ended : s.log.dones ≠ [] → s.exit.isSome ∧ s.queue = [] ∧ s.farewell = none
  unpublished : s.phase.early = true → s.log.published = []
  published : s.phase = .published ∨ s.phase = .stopped → s.log.published ≠ []
  left : s.phase = .stopped → s.farewell = none
  same : ∀ terminal ∈ s.log.published, s.log.published.head? = some terminal

namespace Spoken

lemma init (cfg : Options) : Spoken (init cfg) where
  farewell _ _ h := by cases h
  running _ := rfl
  awaiting h := by cases h
  ended h := absurd rfl h
  unpublished _ := rfl
  published h := by rcases h with h | h <;> cases h
  left _ := rfl
  same _ h := by cases h

lemma turn (hs : Spoken s) (hl : Live cfg s) (hp : s.phase = .running) {m : Message}
    (h : Turn cfg (s.hear (.handled m)) m t) : Spoken t := by
  obtain ⟨hb, hd⟩ := turn_told hl hp h
  obtain ⟨hph, hfw⟩ := turn_phase hl hp h
  have hnil : t.log.published = [] := hb.trans (hs.unpublished (by rw [hp]; rfl))
  have hold : t.log.dones = s.log.dones → t.log.dones = [] := fun h => h.trans (hs.running hp)
  refine ⟨hfw, fun hr => ?_, fun ha => ?_, fun hn => ?_, fun _ => hnil, fun hr => ?_, fun hr => ?_,
    ?_⟩
  · rcases hd with hd | ⟨e, -, hf⟩
    · exact hold hd
    · rw [hf.phase] at hr
      cases hr
  · rcases hph with h | h <;> rw [h] at ha <;> cases ha
  · rcases hd with hd | ⟨e, -, hf⟩
    · exact absurd (hold hd) hn
    · exact ⟨hf.exit ▸ rfl, hf.queue, hf.farewell⟩
  · rcases hph with h | h <;> rw [h] at hr <;> rcases hr with hr | hr <;> cases hr
  · rcases hph with h | h <;> rw [h] at hr <;> cases hr
  · intro q hq
    rw [hnil] at hq
    cases hq

lemma silent (hs : Spoken s) (hp : s.phase.early = true) (ht : t.phase.early = true)
    (hr : t.phase ≠ .running) (ha : t.phase = .awaiting → t.exit = none)
    (hd : t.log.dones = s.log.dones) (hb : t.log.published = s.log.published)
    (he : t.exit = s.exit) (hq : t.queue = s.queue) (hf : t.farewell = s.farewell) : Spoken t where
  farewell := hf ▸ hs.farewell
  running h := absurd h hr
  awaiting := ha
  ended h := by
    rw [he, hq, hf]
    exact hs.ended (hd ▸ h)
  unpublished _ := hb.trans (hs.unpublished hp)
  published h := by rcases h with h | h <;> rw [h] at ht <;> cases ht
  left h := by
    rw [h] at ht
    cases ht
  same := hb ▸ hs.same

lemma ending_frame (h : Ending cfg s t) :
    t.exit = s.exit ∧ t.queue = s.queue ∧ t.farewell = s.farewell := by
  obtain ⟨u, hu, ht⟩ := h
  have hm : (flushMessages cfg u).exit = u.exit ∧ (flushMessages cfg u).queue = u.queue ∧
      (flushMessages cfg u).farewell = u.farewell := by
    rw [flushMessages]
    cases cfg.delivery <;> exact ⟨rfl, rfl, rfl⟩
  exact ⟨ht.exit.trans (hm.1.trans hu.exit), ht.queue.trans (hm.2.1.trans hu.queue),
    ht.farewell.trans (hm.2.2.trans hu.farewell)⟩

lemma published_log (cfg : Options) (s : State) (terminal : Terminal) :
    (publish cfg s terminal).log.dones = s.log.dones ∧
      (publish cfg s terminal).log.published =
        s.log.published ++ terminal :: if cfg.recipient then [terminal] else [] := by
  simp only [publish, State.store, State.tell]
  rw [Log.dones_append, Log.published_append]
  cases cfg.recipient <;> exact ⟨List.append_nil _, rfl⟩

lemma left_log (hf : ∀ caller reply, s.farewell = some (caller, reply) → ∃ line, reply = .line line) :
    s.leave.log.dones = s.log.dones ∧ s.leave.log.published = s.log.published := by
  refine tell_silent s _ fun e he => ?_
  obtain ⟨⟨caller, reply⟩, hm, rfl⟩ := List.mem_map.mp he
  obtain ⟨line, rfl⟩ := hf caller reply (Option.mem_toList.mp hm)
  exact ⟨rfl, rfl⟩

lemma move (hs : Spoken s) (hl : Live cfg s) {l : Label} (h : Move cfg s l t) : Spoken t := by
  cases h with
  | release =>
    exact ⟨hs.farewell, hs.running, hs.awaiting, hs.ended, hs.unpublished, hs.published, hs.left,
      hs.same⟩
  | turn answers hp h => exact hs.turn hl hp h
  | settled e kill hp he h =>
    obtain ⟨hd, hb⟩ := ending_silent h
    obtain ⟨hx, hq, hf⟩ := ending_frame h
    exact hs.silent (by rw [hp]; rfl) rfl Phase.noConfusion Phase.noConfusion hd hb hx hq hf
  | killing kill hp he h =>
    obtain ⟨hd, hb⟩ := ending_silent h
    obtain ⟨hx, hq, hf⟩ := ending_frame h
    exact hs.silent (by rw [hp]; rfl) rfl Phase.noConfusion (fun _ => hx.trans he) hd hb hx hq hf
  | gaveUp result kill hp he h =>
    obtain ⟨hd, hb⟩ := ending_silent h
    obtain ⟨hx, hq, hf⟩ := ending_frame h
    exact hs.silent (by rw [hp]; rfl) rfl Phase.noConfusion Phase.noConfusion hd hb hx hq hf
  | noted event hp h =>
    obtain ⟨hd, hb⟩ := hear_silent s (.awaited event) fun _ => Entry.noConfusion
    have hph : t.phase = .awaiting := h.phase.trans hp
    exact hs.silent (by rw [hp]; rfl) (by rw [hph]; rfl) (by rw [hph]; exact Phase.noConfusion)
      (fun _ => h.exit.trans (hs.awaiting hp)) (h.dones.trans hd) (h.published.trans hb) h.exit
      h.queue h.farewell
  | concluded result event hp h hx =>
    obtain ⟨hd, hb⟩ := hear_silent s (.awaited event) fun _ => Entry.noConfusion
    exact hs.silent (by rw [hp]; rfl) rfl Phase.noConfusion Phase.noConfusion (h.dones.trans hd)
      (h.published.trans hb) h.exit h.queue h.farewell
  | expired hp h =>
    exact hs.silent (by rw [hp]; rfl) rfl Phase.noConfusion Phase.noConfusion h.dones h.published h.exit h.queue
      h.farewell
  | drained terminal event hp =>
    obtain ⟨hd, hb⟩ := hear_silent s (.drained event) fun _ => Entry.noConfusion
    have hph : (s.hear (.drained event)).phase = .closing terminal := hp
    exact hs.silent (by rw [hp]; rfl) (by rw [hph]; rfl) (by rw [hph]; exact Phase.noConfusion)
      (by rw [hph]; exact Phase.noConfusion) hd hb rfl rfl rfl
  | published terminal hp =>
    obtain ⟨hd, hb⟩ := published_log cfg s terminal
    rw [hs.unpublished (by rw [hp]; rfl), List.nil_append] at hb
    refine ⟨hs.farewell, Phase.noConfusion, Phase.noConfusion, fun h => hs.ended (hd ▸ h),
      Bool.noConfusion, fun _ => ?_, Phase.noConfusion, ?_⟩
    · rw [hb]
      exact List.cons_ne_nil _ _
    · intro q hq
      rw [hb] at hq ⊢
      have hq' : q = terminal := by
        cases hr : cfg.recipient <;> rw [hr] at hq <;> simpa using hq
      rw [hq']
      rfl
  | left hp =>
    obtain ⟨hd, hb⟩ := left_log hs.farewell
    refine ⟨fun _ _ h => (by cases h), Phase.noConfusion, Phase.noConfusion, fun h => ?_,
      Bool.noConfusion, fun _ => ?_, fun _ => rfl, ?_⟩
    · exact ⟨(hs.ended (hd ▸ h)).1, (hs.ended (hd ▸ h)).2.1, rfl⟩
    · rw [hb]
      exact hs.published (.inl hp)
    · rw [hb]
      exact hs.same
  | killed hp =>
    exact ⟨hs.farewell, Phase.noConfusion, Phase.noConfusion, hs.ended, Bool.noConfusion,
      fun h => (by rcases h with h | h <;> cases h), Phase.noConfusion, hs.same⟩

end Spoken

def verdict (cfg : Options) (s : State) : Option Terminal :=
  match s.phase with
  | .running | .stopping =>
    s.exit.map fun e => finishOutputEvidence cfg (withGroups e.terminal s.tracking) s
  | .awaiting => none
  | .closing terminal => some terminal
  | .published | .stopped | .killed => s.log.published.head?

/-- A caller is told what is published, unless a partial line is left over. -/
def Agreeing (cfg : Options) (s : State) : Prop :=
  (∀ p, s.buffers p = []) → ∀ terminal ∈ s.log.dones, verdict cfg s = some terminal

def Spared (s : State) (l : Label) : Prop :=
  l = .kill → s.log.dones = [] ∨ s.log.published ≠ []

/-- No spawn error ends a session that has a partial line and a caller waiting. -/
def Whole (s : State) (l : Label) : Prop :=
  ∀ payload answers, l = .message (.port (.data .error payload)) answers → s.waiter.isSome →
    ∀ p, s.buffers p = []

lemma finishOutputEvidence_clean (hl : s.outputLimit = none) (hq : s.queue = [])
    (hb : ∀ p, s.buffers p = []) (terminal : Terminal) :
    finishOutputEvidence cfg terminal s = terminal := by
  rw [finishOutputEvidence, hl]
  cases cfg.delivery with
  | pull => simp [hq, hb]
  | messages => rfl

lemma ending_core (h : Ending cfg s t) :
    t.buffers = s.buffers ∧ t.outputLimit = s.outputLimit ∧ t.halt = s.halt := by
  obtain ⟨u, hu, ht⟩ := h
  have hm : (flushMessages cfg u).buffers = u.buffers ∧
      (flushMessages cfg u).outputLimit = u.outputLimit ∧ (flushMessages cfg u).halt = u.halt := by
    rw [flushMessages]
    cases cfg.delivery <;> exact ⟨rfl, rfl, rfl⟩
  exact ⟨ht.buffers.trans (hm.1.trans hu.buffers), ht.outputLimit.trans (hm.2.1.trans hu.outputLimit),
    ht.halt.trans (hm.2.2.trans hu.halt)⟩

namespace Agreeing

lemma of_unended (hs : Spoken s) (he : s.exit = none) (hd : t.log.dones = s.log.dones) :
    Agreeing cfg t := by
  intro _ terminal hm
  rw [hd] at hm
  have h := (hs.ended (List.ne_nil_of_mem hm)).1
  rw [he] at h
  cases h

lemma turn (hs : Spoken s) (hl : Live cfg s) (hp : s.phase = .running) {m : Message}
    (h : Turn cfg (s.hear (.handled m)) m t) : Agreeing cfg t := by
  intro hb terminal hm
  rcases (turn_told hl hp h).2 with hd | ⟨e, hd, hf⟩
  · rw [hd, hs.running hp] at hm
    cases hm
  · rw [hd, hs.running hp] at hm
    obtain rfl := List.mem_singleton.mp hm
    rw [verdict, hf.phase, hf.exit]
    simp only [Option.map_some]
    rw [hf.groups, finishOutputEvidence_clean hf.limit hf.queue hb]

lemma move (ha : Agreeing cfg s) (hs : Spoken s) (hl : Live cfg s) {l : Label} (hk : Spared s l)
    (h : Move cfg s l t) : Agreeing cfg t := by
  cases h with
  | release => exact ha
  | turn answers hp h => exact turn hs hl hp h
  | settled e kill hp he h =>
    intro hb terminal hm
    rw [show State.log _ = _ from rfl, (ending_silent h).1] at hm
    have hv := ha (fun p => (congrFun (ending_core h).1 p).symm.trans (hb p)) terminal hm
    rw [verdict, hp, he] at hv
    exact hv
  | killing kill hp he h => exact of_unended hs he (ending_silent h).1
  | gaveUp result kill hp he h => exact of_unended hs he (ending_silent h).1
  | noted event hp h =>
    exact of_unended hs (hs.awaiting hp)
      (h.dones.trans (hear_silent s _ fun _ => Entry.noConfusion).1)
  | concluded result event hp h hx =>
    exact of_unended hs (hs.awaiting hp)
      (h.dones.trans (hear_silent s _ fun _ => Entry.noConfusion).1)
  | expired hp h => exact of_unended hs (hs.awaiting hp) h.dones
  | drained terminal event hp =>
    intro hb told hm
    rw [(hear_silent s _ fun _ => Entry.noConfusion).1] at hm
    have hv := ha hb told hm
    rw [verdict, hp] at hv
    rw [verdict, show (s.hear (.drained event)).phase = .closing terminal from hp]
    exact hv
  | published terminal hp =>
    intro hb told hm
    obtain ⟨hd, hpub⟩ := Spoken.published_log cfg s terminal
    rw [hd] at hm
    have hv := ha hb told hm
    rw [verdict, hp] at hv
    rw [hs.unpublished (by rw [hp]; rfl), List.nil_append] at hpub
    change (publish cfg s terminal).log.published.head? = some told
    rw [hpub]
    exact hv
  | left hp =>
    intro hb told hm
    obtain ⟨hd, hpub⟩ := Spoken.left_log hs.farewell
    rw [hd] at hm
    have hv := ha hb told hm
    rw [verdict, hp] at hv
    change s.leave.log.published.head? = some told
    rw [hpub]
    exact hv
  | killed hp =>
    intro hb told hm
    have hv := ha hb told hm
    have hpub : s.log.published ≠ [] := by
      rcases hk rfl with h | h
      · exact absurd h (List.ne_nil_of_mem hm)
      · exact h
    rw [verdict] at hv
    cases hph : s.phase with
    | running => exact absurd (hs.unpublished (by rw [hph]; rfl)) hpub
    | stopping => exact absurd (hs.unpublished (by rw [hph]; rfl)) hpub
    | awaiting => exact absurd (hs.unpublished (by rw [hph]; rfl)) hpub
    | closing terminal => exact absurd (hs.unpublished (by rw [hph]; rfl)) hpub
    | published => rwa [hph] at hv
    | stopped => exact absurd hph hp
    | killed => rwa [hph] at hv

end Agreeing

structure Shut (s t : State) : Prop where
  dones : t.log.dones = s.log.dones
  exit : t.exit = s.exit
  buffers : t.buffers = s.buffers
  queue : t.queue = s.queue
  halt : t.halt = s.halt
  outputLimit : t.outputLimit = s.outputLimit

lemma Aside.shut (h : Aside s t) : Shut s t :=
  ⟨h.dones, h.exit, h.buffers, h.queue, h.halt, h.outputLimit⟩

lemma shut_ending (h : Ending cfg s t) : Shut s t := by
  obtain ⟨hx, hq, -⟩ := Spoken.ending_frame h
  obtain ⟨hb, hl, hh⟩ := ending_core h
  exact ⟨(ending_silent h).1, hx, hb, hq, hh, hl⟩

lemma shut_hear (s : State) {entry : Entry} (h : ∀ e, entry ≠ .did e) (ha : Aside (s.hear entry) t) :
    Shut s t :=
  ⟨ha.dones.trans (hear_silent s entry h).1, ha.exit, ha.buffers, ha.queue, ha.halt, ha.outputLimit⟩

lemma Shut.onward (h : Shut s t) (phase : Phase) : Shut s { t with phase := phase } :=
  ⟨h.dones, h.exit, h.buffers, h.queue, h.halt, h.outputLimit⟩

lemma move_shut (hs : Spoken s) {l : Label} (h : Move cfg s l t) :
    (∃ m answers, l = .message m answers ∧ s.phase = .running ∧
      Turn cfg (s.hear (.handled m)) m t) ∨
    Shut s t ∧ (s.phase = .running → l = .kill ∨ t.phase = .running) := by
  have later : s.phase ≠ .running → s.phase = .running → l = .kill ∨ t.phase = .running :=
    fun h k => absurd k h
  cases h with
  | release => exact .inr ⟨⟨rfl, rfl, rfl, rfl, rfl, rfl⟩, .inr⟩
  | turn answers hp h => exact .inl ⟨_, answers, rfl, hp, h⟩
  | settled e kill hp he h =>
    exact .inr ⟨(shut_ending h).onward _, later (by rw [hp]; exact Phase.noConfusion)⟩
  | killing kill hp he h =>
    exact .inr ⟨(shut_ending h).onward _, later (by rw [hp]; exact Phase.noConfusion)⟩
  | gaveUp result kill hp he h =>
    exact .inr ⟨(shut_ending h).onward _, later (by rw [hp]; exact Phase.noConfusion)⟩
  | noted event hp h =>
    exact .inr ⟨shut_hear s (fun _ => Entry.noConfusion) h,
      later (by rw [hp]; exact Phase.noConfusion)⟩
  | concluded result event hp h hx =>
    exact .inr ⟨(shut_hear s (fun _ => Entry.noConfusion) h).onward _,
      later (by rw [hp]; exact Phase.noConfusion)⟩
  | expired hp h => exact .inr ⟨h.shut.onward _, later (by rw [hp]; exact Phase.noConfusion)⟩
  | drained terminal event hp =>
    exact .inr ⟨shut_hear s (fun _ => Entry.noConfusion) (.refl _),
      later (by rw [hp]; exact Phase.noConfusion)⟩
  | published terminal hp =>
    exact .inr ⟨⟨(Spoken.published_log cfg s terminal).1, rfl, rfl, rfl, rfl, rfl⟩,
      later (by rw [hp]; exact Phase.noConfusion)⟩
  | left hp =>
    exact .inr ⟨⟨(Spoken.left_log hs.farewell).1, rfl, rfl, rfl, rfl, rfl⟩,
      later (by rw [hp]; exact Phase.noConfusion)⟩
  | killed hp => exact .inr ⟨⟨rfl, rfl, rfl, rfl, rfl, rfl⟩, fun _ => .inl rfl⟩

def Tidy (s : State) : Prop :=
  s.log.dones ≠ [] → ∀ p, s.buffers p = []

lemma Tidy.move (ht : Tidy s) (hs : Spoken s) (hl : Live cfg s) {l : Label} (hw : Whole s l)
    (h : Move cfg s l t) : Tidy t := by
  intro hn p
  rcases move_shut hs h with ⟨m, answers, rfl, hp, hturn⟩ | ⟨hsh, -⟩
  · rcases (turn_told hl hp hturn).2 with hd | ⟨e, -, hf⟩
    · rw [hd] at hn
      exact absurd (hs.running hp) hn
    · rcases hf.buffers with hb | ⟨⟨payload, rfl⟩, hb⟩
      · rw [hb]
      · rw [hb]
        exact hw payload answers rfl hf.waiter p
  · rw [hsh.buffers]
    exact ht (hsh.dones ▸ hn) p

def Label.disturbs : Label → Bool
  | .kill | .message .stop _ | .message .ownerDown _ => true
  | _ => false

structure Natural (s : State) : Prop where
  ended : s.phase ≠ .running → s.halt = false → s.exit.isSome ∧ s.queue = []
  alive : s.phase ≠ .killed

lemma afterFrame_ends (hd : cfg.delivery = .pull) (hp : s.phase = .running) (he : s.exit.isSome) :
    (afterFrame cfg s).phase = .running ∨ (afterFrame cfg s).halt = true ∨
      (afterFrame cfg s).exit.isSome ∧ (afterFrame cfg s).queue = [] := by
  rw [afterFrame]
  split
  · next hh => exact .inr (.inl hh)
  · split
    · exact .inl hp
    · split
      · exact .inl hp
      · next hq => exact .inr (.inr ⟨he, not_not.mp fun hn => hq ⟨hd, hn⟩⟩)

lemma turn_ends (hd : cfg.delivery = .pull) (hp : s.phase = .running)
    {m : Message} {answers : List PortAnswer} (hm : Label.disturbs (.message m answers) = false)
    (h : Turn cfg (s.hear (.handled m)) m t) :
    t.phase = .running ∨ t.halt = true ∨ t.exit.isSome ∧ t.queue = [] := by
  cases h with
  | aside hm h => exact .inl (h.phase.trans hp)
  | limited p chunk limit _ => exact .inr (.inl rfl)
  | accepted p chunk hdel h =>
    obtain ⟨q, w, l, heq⟩ := replyPullWaiter_eq cfg (accept (s.hear _) p chunk)
    rw [heq]
    exact .inl hp
  | relayed p chunk hdel => exact .inl hp
  | ended e hm hu hw hv hg hx =>
    obtain ⟨hk, -⟩ := flushed_iff hw
    obtain ⟨q, x, l, heq⟩ := replyPullWaiter_eq cfg _
    refine afterFrame_ends hd ?_ ?_
    · rw [heq]
      exact hv.phase.trans (hk.phase.trans (hu.phase.trans hp))
    · rw [(replyPullWaiter_frame cfg _).2, hv.exit]
      rfl
  | refused caller reply hr => exact .inl hp
  | last caller line hdel hw hq hx => exact .inr (.inr ⟨hx, rfl⟩)
  | popped caller line queue hdel hw hq hx => exact .inl hp
  | waits caller hdel hw hq hx =>
    have hfr := grantPullCredit_frame cfg { s.hear (.handled (.call caller .recv)) with
      waiter := some ⟨caller, (s.hear (.handled (.call caller .recv))).refs⟩
      refs := (s.hear (.handled (.call caller .recv))).refs + 1 }
    exact .inl (hfr.1.trans hp)
  | expired waiter hw => exact .inl hp
  | stops cause hc => rcases hc with rfl | rfl <;> cases hm

lemma move_alive (hl : Live cfg s) (hs : s.phase ≠ .killed) {l : Label} (hk : l ≠ .kill)
    (h : Move cfg s l t) : t.phase ≠ .killed := by
  cases h with
  | release => exact hs
  | turn answers hp h =>
    rcases (turn_phase hl hp h).1 with h | h <;> rw [h] <;> exact Phase.noConfusion
  | noted event hp h =>
    rw [h.phase]
    exact hs
  | drained terminal event hp => exact hs
  | killed hp => exact absurd rfl hk
  | _ => exact Phase.noConfusion

lemma Natural.move (hn : Natural s) (hd : cfg.delivery = .pull) (hs : Spoken s) (hl : Live cfg s)
    {l : Label} (hu : l.disturbs = false) (h : Move cfg s l t) : Natural t := by
  refine ⟨fun hr hh => ?_, move_alive hl hn.alive (by rintro rfl; cases hu) h⟩
  rcases move_shut hs h with ⟨m, answers, rfl, hp, hturn⟩ | ⟨hsh, hph⟩
  · rcases turn_ends hd hp hu hturn with h | h | h
    · exact absurd h hr
    · rw [h] at hh
      cases hh
    · exact h
  · rw [hsh.exit, hsh.queue]
    refine hn.ended (fun hp => ?_) (hsh.halt ▸ hh)
    rcases hph hp with rfl | h
    · cases hu
    · exact hr h

lemma run_spoken {as : List Label} (h : Steps cfg (init cfg) as t) : Live cfg t ∧ Spoken t :=
  h.invariant (I := fun s => Live cfg s ∧ Spoken s)
    (fun _ _ _ hs ht => ⟨hs.1.step ht, hs.2.move hs.1 (step_move hs.1 ht)⟩) ⟨.init cfg, .init cfg⟩

lemma run_agreeing {as : List Label}
    (h : Run (fun s l t => step cfg s l = some t ∧ Spared s l) (init cfg) as t) : Agreeing cfg t := by
  have hi : Live cfg t ∧ Spoken t ∧ Agreeing cfg t := by
    refine h.invariant (I := fun s => Live cfg s ∧ Spoken s ∧ Agreeing cfg s)
      (fun s l u hs ht => ?_) ⟨.init cfg, .init cfg, fun _ _ hm => by cases hm⟩
    have hm := step_move hs.1 ht.1
    exact ⟨hs.1.move hm, hs.2.1.move hs.1 hm, hs.2.2.move hs.2.1 hs.1 ht.2 hm⟩
  exact hi.2.2

lemma run_natural {as : List Label} (hd : cfg.delivery = .pull) (h : Steps cfg (init cfg) as t)
    (hu : ∀ l ∈ as, l.disturbs = false) : Natural t := by
  have hi : Live cfg t ∧ Spoken t ∧ Natural t := by
    refine (h.restrict hu).invariant (I := fun s => Live cfg s ∧ Spoken s ∧ Natural s)
      (fun s l u hs ht => ?_) ⟨.init cfg, .init cfg, fun hp => absurd rfl hp, Phase.noConfusion⟩
    have hm := step_move hs.1 ht.1
    exact ⟨hs.1.move hm, hs.2.1.move hs.1 hm, hs.2.2.move hd hs.2.1 hs.1 ht.2 hm⟩
  exact hi.2.2

lemma run_tidy {as : List Label} (h : Steps cfg (init cfg) as t)
    (hn : ∀ payload answers, .message (.port (.data .error payload)) answers ∉ as) : Tidy t := by
  have hi : Live cfg t ∧ Spoken t ∧ Tidy t := by
    refine (h.restrict (p := fun l => ∀ payload answers,
      l ≠ .message (.port (.data .error payload)) answers) ?_).invariant
      (I := fun s => Live cfg s ∧ Spoken s ∧ Tidy s) (fun s l u hs ht => ?_)
      ⟨.init cfg, .init cfg, fun hn => absurd rfl hn⟩
    · rintro l hl payload answers rfl
      exact hn payload answers hl
    · have hm := step_move hs.1 ht.1
      exact ⟨hs.1.move hm, hs.2.1.move hs.1 hm,
        hs.2.2.move hs.2.1 hs.1 (fun payload answers hl => absurd hl (ht.2 payload answers)) hm⟩
  exact hi.2.2

lemma spilled_pull (hd : cfg.delivery = .pull) (s : State) (p : Pipe) : spilled cfg s p = [] := by
  rw [spilled, hd]
  exact if_neg fun h => Delivery.noConfusion h.1

lemma one_caller (hl : Live cfg s) : ∃ asking : Option Caller, ∀ caller,
    waiting caller s + leaving caller s = if asking = some caller then 1 else 0 := by
  cases hw : s.waiter with
  | none =>
    refine ⟨s.farewell.map (·.1), fun caller => ?_⟩
    rw [waiting, leaving, hw]
    cases s.farewell <;> simp
  | some w =>
    have hf : s.farewell = none := by
      cases hf : s.farewell with
      | none => rfl
      | some f =>
        have hx := (hl.farewell (hf ▸ rfl)).2.2.1
        rw [(hl.waiting hw).2.2] at hx
        cases hx
    refine ⟨some w.caller, fun caller => ?_⟩
    rw [waiting, leaving, hw, hf]
    simp

theorem pull_delivery {as : List Label} (hd : cfg.delivery = .pull)
    (h : Steps cfg (init cfg) as t) (hu : ∀ l ∈ as, l.disturbs = false)
    (hlimit : t.outputLimit = none) :
    (∀ p, t.log.delivered p ++ parting p t ++ queued p t.queue = t.log.lines p) ∧
      (∃ asking : Option Caller, ∀ caller, t.log.asked caller =
        t.log.answered caller + if asking = some caller then 1 else 0) ∧
      (t.phase = .stopped → (∀ p, t.log.delivered p = t.log.lines p) ∧
        ∀ caller, t.log.asked caller = t.log.answered caller) ∧
      (t.log.dones ≠ [] → ∀ p, t.log.delivered p = t.log.lines p) ∧
      ((∀ payload answers, .message (.port (.data .error payload)) answers ∉ as) ∨
          (∀ p, t.buffers p = []) →
        ∀ terminal ∈ t.log.dones, ∀ stored ∈ t.log.published, stored = terminal) := by
  obtain ⟨hl, hs⟩ := run_spoken h
  have hdel := (run_delivering h).2
  have hn := run_natural hd h hu
  have hh : t.halt = false := by
    rw [← hl.limit, hlimit]
    rfl
  have hlines : ∀ p, t.log.delivered p ++ parting p t ++ queued p t.queue = t.log.lines p := by
    intro p
    have hp := hdel.lines hh hn.alive p
    rwa [spilled_pull hd, List.append_nil] at hp
  have hag : Agreeing cfg t := by
    refine run_agreeing ((h.restrict hu).mono fun s l u hs => ⟨hs.1, ?_⟩)
    rintro rfl
    cases hs.2
  refine ⟨hlines, ?_, fun hp => ?_, fun hdn p => ?_, ?_⟩
  · obtain ⟨asking, ha⟩ := one_caller hl
    refine ⟨asking, fun caller => ?_⟩
    rw [← ha caller, ← Nat.add_assoc]
    exact hdel.answers caller
  · -- the child has ended, so nobody waits, and the last reply has gone out
    obtain ⟨hx, hq⟩ := hn.ended (by rw [hp]; exact Phase.noConfusion) hh
    have hw : t.waiter = none := by
      cases hw : t.waiter with
      | none => rfl
      | some w =>
        rw [(hl.waiting hw).2.2] at hx
        cases hx
    refine ⟨fun p => ?_, fun caller => ?_⟩
    · have hlp := hlines p
      rwa [parting, hs.left hp, hq, queued_nil, List.append_nil, List.append_nil] at hlp
    · have hc := hdel.answers caller
      rwa [waiting, leaving, hw, hs.left hp] at hc
  · obtain ⟨-, hq, hf⟩ := hs.ended hdn
    have hp := hlines p
    rwa [parting, hf, hq, queued_nil, List.append_nil, List.append_nil] at hp
  · intro hb terminal hm stored hst
    have hclean : ∀ p, t.buffers p = [] := by
      rcases hb with hb | hb
      · exact run_tidy h hb (List.ne_nil_of_mem hm)
      · exact hb
    have hv := hag hclean terminal hm
    have hhead := hs.same stored hst
    rw [verdict] at hv
    cases hp : t.phase with
    | published => rw [hp] at hv; exact Option.some.inj (hhead.symm.trans hv)
    | stopped => rw [hp] at hv; exact Option.some.inj (hhead.symm.trans hv)
    | killed => exact absurd hp hn.alive
    | _ =>
      rw [hs.unpublished (by rw [hp]; rfl)] at hst
      cases hst

def exited : Label :=
  .message (.port (.data .exit exitPayload)) []

def spawnFails : Label :=
  .message (.port (.data .error [])) []

theorem pull_delivery_small :
    ∃ t, exec (step (smallOptions .pull)) (init (smallOptions .pull))
        [recv 0, output .stdout [97, 10], recv 1, exited, .terminate .closed, .publish, .leave] =
          some t ∧
      (∀ p, t.log.delivered p ++ parting p t ++ queued p t.queue = t.log.lines p) ∧
      (∃ asking : Option Caller, ∀ caller, t.log.asked caller =
        t.log.answered caller + if asking = some caller then 1 else 0) ∧
      (t.phase = .stopped → (∀ p, t.log.delivered p = t.log.lines p) ∧
        ∀ caller, t.log.asked caller = t.log.answered caller) ∧
      (t.log.dones ≠ [] → ∀ p, t.log.delivered p = t.log.lines p) ∧
      ((∀ payload answers, .message (.port (.data .error payload)) answers ∉
            [recv 0, output .stdout [97, 10], recv 1, exited, .terminate .closed, .publish, .leave]) ∨
          (∀ p, t.buffers p = []) →
        ∀ terminal ∈ t.log.dones, ∀ stored ∈ t.log.published, stored = terminal) := by
  have hrun : (exec (step (smallOptions .pull)) (init (smallOptions .pull))
      [recv 0, output .stdout [97, 10], recv 1, exited, .terminate .closed, .publish, .leave]).any
        (fun t => t.outputLimit.isNone) = true := by
    decide +kernel
  obtain ⟨t, ht, hn⟩ := Option.any_eq_true .. |>.mp hrun
  exact ⟨t, ht, pull_delivery rfl (exec_run ht) (by decide) (Option.isNone_iff_eq_none.mp hn)⟩

/-- Output behind an EXIT frame starts a line of its own, and a spawn error beside a partial line
is published as truncated output. -/
theorem pull_delivery_fails :
    (¬ ∀ (as : List Label) (t : State), Steps (smallOptions .pull) (init (smallOptions .pull)) as t →
        (∀ l ∈ as, l.disturbs = false) → t.outputLimit = none →
        ∀ p, t.log.delivered p <+: Lines.closed newline (t.log.received p)) ∧
      ¬ ∀ (as : List Label) (t : State), Steps (smallOptions .pull) (init (smallOptions .pull)) as t →
        (∀ l ∈ as, l.disturbs = false) → t.outputLimit = none →
        ∀ terminal ∈ t.log.dones, ∀ stored ∈ t.log.published, stored = terminal := by
  constructor
  · intro h
    have hrun : (exec (step (smallOptions .pull)) (init (smallOptions .pull))
        [output .stdout [97, 10, 98], exited, output .stdout [99], recv 0, recv 0,
          .terminate .closed, .publish, .leave]).any (fun t => t.outputLimit.isNone &&
            decide (¬ t.log.delivered .stdout <+:
              Lines.closed newline (t.log.received .stdout))) = true := by
      decide +kernel
    obtain ⟨t, ht, hb⟩ := Option.any_eq_true .. |>.mp hrun
    simp only [Bool.and_eq_true, decide_eq_true_eq] at hb
    exact hb.2 (h _ t (exec_run ht) (by decide) (Option.isNone_iff_eq_none.mp hb.1) .stdout)
  · intro h
    have hrun : (exec (step (smallOptions .pull)) (init (smallOptions .pull))
        [recv 0, output .stdout [98], spawnFails, .terminate .closed, .publish]).any (fun t =>
          t.outputLimit.isNone && decide (∃ terminal ∈ t.log.dones, ∃ stored ∈ t.log.published,
            stored ≠ terminal)) = true := by
      decide +kernel
    obtain ⟨t, ht, hb⟩ := Option.any_eq_true .. |>.mp hrun
    simp only [Bool.and_eq_true, decide_eq_true_eq] at hb
    obtain ⟨hn, terminal, hd, stored, hs, hne⟩ := hb
    exact hne (h _ t (exec_run ht) (by decide) (Option.isNone_iff_eq_none.mp hn) terminal hd stored hs)

/-- Output no callback saw: frames the shutdown loop or `Shim.close/1` took from the mailbox. -/
def Entry.missed (p : Pipe) : Entry → Bytes
  | .awaited event | .drained event => event.output p
  | _ => []

def Log.missed (p : Pipe) (log : Log) : Bytes := log.flatMap (Entry.missed p)

def Entry.arrive (p : Pipe) (segments : List Bytes × Bytes) (entry : Entry) :
    List Bytes × Bytes :=
  match entry with
  | .handled _ => entry.extend p segments
  | entry => (segments.1, segments.2 ++ entry.missed p)

def Log.arrived (p : Pipe) (log : Log) : List Bytes × Bytes :=
  log.foldl (Entry.arrive p) ([], [])

lemma arrived_append (p : Pipe) (log : Log) (entry : Entry) :
    Log.arrived p (log ++ [entry]) = entry.arrive p (Log.arrived p log) := by
  rw [Log.arrived, List.foldl_append]
  rfl

def Log.arrivedLines (p : Pipe) (log : Log) : List Bytes :=
  (log.arrived p).1.flatMap (Lines.closed newline) ++ Lines.closed newline (log.arrived p).2

/-- Nothing was missed, or just the end of a partial line that was given out without it. -/
def Log.Whole (p : Pipe) (log : Log) : Prop :=
  log.missed p = [] ∨ log.missed p = [newline] ∧ Lines.rest newline (log.segments p).2 ≠ []

instance (p : Pipe) (log : Log) : Decidable (log.Whole p) :=
  inferInstanceAs (Decidable (_ ∨ _ ∧ _))

structure Attended (s : State) : Prop where
  arrived : ∀ p, s.log.arrived p = ((s.log.segments p).1, (s.log.segments p).2 ++ s.log.missed p)
  none : s.phase = .running ∨ s.phase = .stopping → ∀ p, s.log.missed p = []

def Told (s t : State) : Prop :=
  ∃ effects : List Effect, t.log = s.log ++ effects.map .did

namespace Told

lemma refl (s : State) : Told s s := ⟨[], (List.append_nil _).symm⟩

lemma trans (h : Told s t) (k : Told t u) : Told s u := by
  obtain ⟨effects, h⟩ := h
  obtain ⟨more, k⟩ := k
  exact ⟨effects ++ more, by rw [k, h, List.map_append, List.append_assoc]⟩

lemma tell (s : State) (effects : List Effect) : Told s (s.tell effects) := ⟨effects, rfl⟩

lemma of_log (h : t.log = s.log) : Told s t := ⟨[], h.trans (List.append_nil _).symm⟩

lemma missed (h : Told s t) (p : Pipe) : t.log.missed p = s.log.missed p := by
  obtain ⟨effects, h⟩ := h
  rw [h, Log.missed, Log.missed, List.flatMap_append, List.flatMap_map]
  simp [Entry.missed]

lemma segments (h : Told s t) (p : Pipe) : t.log.segments p = s.log.segments p := by
  obtain ⟨effects, h⟩ := h
  rw [h, segments_did]

lemma arrived (h : Told s t) (p : Pipe) : t.log.arrived p = s.log.arrived p := by
  obtain ⟨effects, h⟩ := h
  rw [h, Log.arrived, Log.arrived, List.foldl_append, List.foldl_map]
  simp [Entry.arrive, Entry.missed]

lemma answered (cfg : Options) (s : State) : Told s (replyPullWaiter cfg s) := by
  rcases replyPullWaiter_cases cfg s with ⟨h, -⟩ | ⟨_, _, _, -, -, -, h⟩ | ⟨_, _, -, -, -, -, h⟩
  · rw [h]
    exact .refl s
  · rw [h]
    exact ⟨_, rfl⟩
  · rw [h]
    exact ⟨_, rfl⟩

lemma afterFrame (cfg : Options) (s : State) : Told s (afterFrame cfg s) := by
  rw [Duplex.afterFrame]
  repeat' split
  all_goals exact of_log rfl

lemma flushBuffers (cfg : Options) (s : State) : Told s (flushBuffers cfg s) := by
  rw [Duplex.flushBuffers]
  cases cfg.delivery with
  | pull => exact of_log rfl
  | messages => exact ⟨_, rfl⟩

lemma granted (cfg : Options) (s : State) : Told s (grantPullCredit cfg s) := by
  have hone : ∀ (u : State) (p : Pipe), Told u (grantStreamCredit cfg u p) := by
    intro u p
    rw [grantStreamCredit]
    split
    · exact refl u
    · split
      · exact ⟨_, rfl⟩
      · exact refl u
  exact (hone _ _).trans (hone _ _)

lemma turn {m : Message} (h : Turn cfg s m t) : Told s t := by
  cases h with
  | aside hm h =>
    obtain ⟨effects, -, hlog⟩ := h.log
    exact ⟨effects, hlog⟩
  | limited | stops | last => exact of_log rfl
  | accepted p chunk => exact (of_log rfl).trans (answered cfg (accept s p chunk))
  | relayed | refused | popped | expired => exact ⟨_, rfl⟩
  | @ended m e u w v hm hu hw hv =>
    obtain ⟨effects, -, hlog⟩ := hu.log
    obtain ⟨more, -, hlog'⟩ := hv.log
    have huw : Told u w := by
      rw [hw]
      split
      · exact flushBuffers cfg u
      · exact refl u
    have hwv : Told w v := ⟨more, hlog'⟩
    exact Told.trans ⟨effects, hlog⟩ (huw.trans (hwv.trans ((answered cfg v).trans
      (afterFrame cfg _))))
  | waits caller => exact (of_log rfl).trans (granted cfg _)

lemma ending (h : Ending cfg s t) : Told s t := by
  obtain ⟨u, hu, ht⟩ := h
  obtain ⟨effects, -, hlog⟩ := hu.log
  obtain ⟨more, -, hlog'⟩ := ht.log
  have hflush : Told u (flushMessages cfg u) := by
    rw [flushMessages]
    cases cfg.delivery with
    | pull => exact of_log rfl
    | messages => exact ⟨_, rfl⟩
  exact Told.trans ⟨effects, hlog⟩ (hflush.trans ⟨more, hlog'⟩)

end Told

namespace Attended

lemma told (h : Attended s) (ht : Told s t)
    (hp : t.phase = .running ∨ t.phase = .stopping → s.phase = .running ∨ s.phase = .stopping) :
    Attended t where
  arrived p := by rw [ht.arrived, ht.segments, ht.missed, h.arrived]
  none hrun p := by rw [ht.missed, h.none (hp hrun)]

lemma handled (h : Attended s) (hp : s.phase = .running) (m : Message) :
    Attended (s.hear (.handled m)) where
  arrived p := by
    have hnone := h.none (.inl hp) p
    have harrived := h.arrived p
    rw [hnone, List.append_nil] at harrived
    have hmissed : (s.hear (.handled m)).log.missed p = [] := by
      rw [State.hear, Log.missed, List.flatMap_append]
      exact List.append_eq_nil_iff.mpr ⟨hnone, rfl⟩
    rw [hmissed, List.append_nil]
    change Log.arrived p (s.log ++ [.handled m]) = Log.segments p (s.log ++ [.handled m])
    rw [arrived_append, segments_append, harrived]
    rfl
  none _ p := by
    rw [State.hear, Log.missed, List.flatMap_append]
    exact List.append_eq_nil_iff.mpr ⟨h.none (.inl hp) p, rfl⟩

lemma lost (h : Attended s) {entry : Entry} (he : ∀ m, entry ≠ .handled m)
    (hs : ∀ p segments, entry.extend p segments = segments)
    (hp : s.phase ≠ .running ∧ s.phase ≠ .stopping) : Attended (s.hear entry) where
  arrived p := by
    have harrive : entry.arrive p (s.log.arrived p) =
        ((s.log.arrived p).1, (s.log.arrived p).2 ++ entry.missed p) := by
      rw [Entry.arrive.eq_def]
      split
      · next m => exact absurd rfl (he m)
      · rfl
    have hmissed : Log.missed p (s.log ++ [entry]) = s.log.missed p ++ entry.missed p := by
      rw [Log.missed, List.flatMap_append, List.flatMap_singleton]
      rfl
    change Log.arrived p (s.log ++ [entry]) = ((Log.segments p (s.log ++ [entry])).1,
      (Log.segments p (s.log ++ [entry])).2 ++ Log.missed p (s.log ++ [entry]))
    rw [arrived_append, harrive, h.arrived, segments_append, hs, hmissed, List.append_assoc]
  none hrun p := by
    rcases hrun with hrun | hrun
    · exact absurd hrun hp.1
    · exact absurd hrun hp.2

lemma move (h : Attended s) {l : Label} (hm : Move cfg s l t) : Attended t := by
  cases hm with
  | release => exact h.told (.of_log rfl) id
  | turn answers hp ht =>
    exact (h.handled hp _).told (.turn ht) fun _ => .inl hp
  | settled e kill hp he hend =>
    exact h.told ((Told.ending hend).trans (.of_log rfl)) (by simp)
  | killing kill hp he hend =>
    exact h.told ((Told.ending hend).trans (.of_log rfl)) (by simp)
  | gaveUp result kill hp he hend =>
    exact h.told ((Told.ending hend).trans (.of_log rfl)) (by simp)
  | noted event hp ha =>
    obtain ⟨effects, -, hlog⟩ := ha.log
    exact (h.lost (fun _ => Entry.noConfusion) (fun _ _ => rfl) (by simp [hp])).told ⟨effects, hlog⟩
      (by rw [ha.phase]; exact id)
  | concluded result event hp ha =>
    obtain ⟨effects, -, hlog⟩ := ha.log
    exact (h.lost (fun _ => Entry.noConfusion) (fun _ _ => rfl) (by simp [hp])).told ⟨effects, hlog⟩
      (by simp)
  | expired hp ha =>
    obtain ⟨effects, -, hlog⟩ := ha.log
    exact h.told ⟨effects, hlog⟩ (by simp)
  | drained terminal event hp =>
    exact h.lost (fun _ => Entry.noConfusion) (fun _ _ => rfl) (by simp [hp])
  | published terminal hp => exact h.told ⟨_, rfl⟩ (by simp [publish])
  | left hp => exact h.told ⟨_, rfl⟩ (by simp [State.leave])
  | killed hp => exact h.told (.of_log rfl) (by simp)

end Attended

lemma run_attended {as : List Label} (h : Steps cfg (init cfg) as t) : Attended t := by
  have hi : Live cfg t ∧ Attended t := by
    refine h.invariant (I := fun s => Live cfg s ∧ Attended s) (fun s l u hs ht => ?_)
      ⟨.init cfg, fun _ => rfl, fun _ _ => rfl⟩
    have hm := step_move hs.1 ht
    exact ⟨hs.1.move hm, hs.2.move hm⟩
  exact hi.2

structure Weighed (cfg : Options) (s : State) : Prop where
  closing : ∀ terminal, s.phase = .closing terminal →
    ∃ before, terminal = finishOutputEvidence cfg before s
  published : ∀ terminal ∈ s.log.published, ∃ before, terminal = finishOutputEvidence cfg before s

lemma Shut.weighed (h : Shut s t) (before : Terminal) :
    finishOutputEvidence cfg before s = finishOutputEvidence cfg before t :=
  (finishOutputEvidence_congr h.outputLimit h.queue h.buffers).symm

namespace Weighed

lemma onward (hw : Weighed cfg s) (h : Shut s t) (hb : t.log.published = s.log.published)
    (hc : ∀ terminal, t.phase = .closing terminal →
      ∃ before, terminal = finishOutputEvidence cfg before s) : Weighed cfg t where
  closing terminal hp := by
    obtain ⟨before, hbf⟩ := hc terminal hp
    exact ⟨before, hbf.trans (h.weighed before)⟩
  published terminal hm := by
    obtain ⟨before, hbf⟩ := hw.published terminal (hb ▸ hm)
    exact ⟨before, hbf.trans (h.weighed before)⟩

lemma turn (hs : Spoken s) (hl : Live cfg s) (hp : s.phase = .running) {m : Message}
    (h : Turn cfg (s.hear (.handled m)) m t) : Weighed cfg t where
  closing terminal ht := by
    rcases (turn_phase hl hp h).1 with h | h <;> rw [h] at ht <;> cases ht
  published terminal hm := by
    rw [(turn_told hl hp h).1, hs.unpublished (by rw [hp]; rfl)] at hm
    cases hm

lemma move (hw : Weighed cfg s) (hs : Spoken s) (hl : Live cfg s) {l : Label} (h : Move cfg s l t) :
    Weighed cfg t := by
  have hsh : (∀ m answers, l ≠ .message m answers) → Shut s t := by
    intro hn
    rcases move_shut hs h with ⟨m, answers, hm, -⟩ | ⟨hsh, -⟩
    · exact absurd hm (hn m answers)
    · exact hsh
  cases h with
  | release => exact hw.onward (hsh fun _ _ => Label.noConfusion) rfl hw.closing
  | turn answers hp h => exact turn hs hl hp h
  | settled e kill hp he h =>
    refine hw.onward (hsh fun _ _ => Label.noConfusion) (ending_silent h).2 fun terminal ht => ?_
    cases ht
    exact ⟨_, rfl⟩
  | killing kill hp he h =>
    exact hw.onward (hsh fun _ _ => Label.noConfusion) (ending_silent h).2 fun _ ht => by cases ht
  | gaveUp result kill hp he h =>
    refine hw.onward (hsh fun _ _ => Label.noConfusion) (ending_silent h).2 fun terminal ht => ?_
    cases ht
    exact ⟨_, rfl⟩
  | noted event hp h =>
    refine hw.onward (hsh fun _ _ => Label.noConfusion)
      (h.published.trans (hear_silent s _ fun _ => Entry.noConfusion).2) ?_
    intro terminal ht
    rw [h.phase, show (s.hear _).phase = .awaiting from hp] at ht
    cases ht
  | concluded result event hp h hx =>
    refine hw.onward (hsh fun _ _ => Label.noConfusion)
      (h.published.trans (hear_silent s _ fun _ => Entry.noConfusion).2) ?_
    intro terminal ht
    cases ht
    exact ⟨_, rfl⟩
  | expired hp h =>
    refine hw.onward (hsh fun _ _ => Label.noConfusion) h.published fun terminal ht => ?_
    cases ht
    exact ⟨_, rfl⟩
  | drained terminal event hp =>
    exact hw.onward (hsh fun _ _ => Label.noConfusion) (hear_silent s _ fun _ => Entry.noConfusion).2
      hw.closing
  | published terminal hp =>
    refine ⟨fun _ ht => (by cases ht), fun stored hm => ?_⟩
    rw [(Spoken.published_log cfg s terminal).2, hs.unpublished (by rw [hp]; rfl),
      List.nil_append] at hm
    have heq : stored = terminal := by
      cases hr : cfg.recipient <;> rw [hr] at hm <;> simpa using hm
    obtain ⟨before, hb⟩ := hw.closing terminal hp
    exact ⟨before, (heq.trans hb).trans ((hsh fun _ _ => Label.noConfusion).weighed before)⟩
  | left hp =>
    exact hw.onward (hsh fun _ _ => Label.noConfusion) (Spoken.left_log hs.farewell).2
      fun _ ht => by cases ht
  | killed hp => exact hw.onward (hsh fun _ _ => Label.noConfusion) rfl fun _ ht => by cases ht

end Weighed

lemma run_weighed {as : List Label} (h : Steps cfg (init cfg) as t) : Weighed cfg t := by
  have hi : Live cfg t ∧ Spoken t ∧ Weighed cfg t := by
    refine h.invariant (I := fun s => Live cfg s ∧ Spoken s ∧ Weighed cfg s)
      (fun s l u hs ht => ?_)
      ⟨.init cfg, .init cfg, fun _ hp => (by cases hp), fun _ hm => (by cases hm)⟩
    have hm := step_move hs.1 ht
    exact ⟨hs.1.move hm, hs.2.1.move hs.1 hm, hs.2.2.move hs.2.1 hs.1 hm⟩
  exact hi.2.2

lemma complete_clean {before : Terminal}
    (h : (finishOutputEvidence cfg before s).output = .complete) :
    s.outputLimit = none ∧ (cfg.delivery = .pull → s.queue = [] ∧ ∀ p, s.buffers p = []) := by
  rw [finishOutputEvidence] at h
  cases hl : s.outputLimit with
  | some limit =>
    rw [hl] at h
    cases h
  | none =>
    rw [hl] at h
    refine ⟨rfl, fun hd => ?_⟩
    rw [hd] at h
    simp only at h
    split at h
    · cases h
    · next hn =>
      push Not at hn
      exact ⟨hn.1, fun p => by cases p <;> simp [hn.2.1, hn.2.2]⟩

lemma complete_lines {as : List Label} {terminal : Terminal}
    (h : Steps cfg (init cfg) as t) (hp : t.phase = .stopped)
    (hm : terminal ∈ t.log.published) (hc : terminal.output = .complete) (p : Pipe) :
    t.log.delivered p = (t.log.segments p).1.flatMap (Lines.closed newline) ++
      Lines.closed newline (t.log.segments p).2 := by
  obtain ⟨hl, hs⟩ := run_spoken h
  have hdel := (run_delivering h).2
  obtain ⟨before, rfl⟩ := (run_weighed h).published terminal hm
  obtain ⟨hlim, hclean⟩ := complete_clean hc
  have hh : t.halt = false := by
    rw [← hl.limit, hlim]
    rfl
  have hlines := hdel.lines hh (by rw [hp]; exact Phase.noConfusion) p
  have hcarry := hdel.carry hh p
  rw [parting, hs.left hp, List.append_nil] at hlines
  rw [Lines.closed, ← hcarry, ← List.append_assoc]
  cases hd : cfg.delivery with
  | pull =>
    obtain ⟨hq, hb⟩ := hclean hd
    rw [hq, queued_nil, List.append_nil, spilled_pull hd, List.append_nil] at hlines
    rw [hlines, hb, if_pos rfl, List.append_nil]
    rfl
  | messages =>
    rw [hl.messages hd, queued_nil, List.append_nil, spilled, hd, hp] at hlines
    rw [hlines]
    by_cases hb : t.buffers p = []
    · simp [hb, Log.lines]
    · simp [hb, Phase.flushed, Log.lines]

/-- A stopped session whose terminal calls the output complete has given out every line of the
output that came to it exactly if none of that output was missed by its callbacks, or just the end
of the last line. -/
theorem complete_output {as : List Label} {terminal : Terminal}
    (h : Steps cfg (init cfg) as t) (hp : t.phase = .stopped)
    (hm : terminal ∈ t.log.published) (hc : terminal.output = .complete) (p : Pipe) :
    t.log.delivered p = t.log.arrivedLines p ↔ t.log.Whole p := by
  rw [complete_lines h hp hm hc, Log.arrivedLines, (run_attended h).arrived]
  dsimp only
  rw [List.append_cancel_left_eq, eq_comm, Lines.closed_append_self]
  rfl

def Phase.isStopped : Phase → Bool
  | .stopped => true
  | _ => false

lemma Phase.isStopped_iff {phase : Phase} : phase.isStopped = true ↔ phase = .stopped := by
  cases phase <;> simp [isStopped]

theorem complete_output_small :
    ∃ t, exec (step (smallOptions .messages)) (init (smallOptions .messages))
        [output .stdout [97, 10, 98], exited, .terminate .closed, .publish, .leave] = some t ∧
      (t.log.delivered .stdout = t.log.arrivedLines .stdout ↔ t.log.Whole .stdout) := by
  have hrun : (exec (step (smallOptions .messages)) (init (smallOptions .messages))
      [output .stdout [97, 10, 98], exited, .terminate .closed, .publish, .leave]).any (fun t =>
        t.phase.isStopped && decide (∃ terminal ∈ t.log.published, terminal.output = .complete)) =
          true := by
    decide +kernel
  obtain ⟨t, ht, hb⟩ := Option.any_eq_true .. |>.mp hrun
  simp only [Bool.and_eq_true, decide_eq_true_eq] at hb
  obtain ⟨hp, terminal, hm, hc⟩ := hb
  exact ⟨t, ht, complete_output (exec_run ht) (Phase.isStopped_iff.mp hp) hm hc .stdout⟩

/-- In neither mode: output between KILL and EXIT is dropped, and the terminal takes the shim's word
for it. -/
theorem complete_output_fails :
    ¬ ∃ delivery, ∀ (as : List Label) (t : State) (terminal : Terminal),
      Steps (smallOptions delivery) (init (smallOptions delivery)) as t → t.phase = .stopped →
      terminal ∈ t.log.published → terminal.output = .complete →
      ∀ p, t.log.delivered p = t.log.arrivedLines p := by
  rintro ⟨delivery, h⟩
  have hrun : (exec (step (smallOptions delivery)) (init (smallOptions delivery))
      [.message .stop [], .terminate .accepted, .await (.data .stdout [120]),
        .await (.data .exit exitPayload), .publish, .leave]).any (fun t =>
        (t.phase.isStopped && decide (∃ terminal ∈ t.log.published, terminal.output = .complete)) &&
          decide (t.log.delivered .stdout ≠ t.log.arrivedLines .stdout)) = true := by
    cases delivery with
    | messages | pull => decide +kernel
  obtain ⟨t, ht, hb⟩ := Option.any_eq_true .. |>.mp hrun
  simp only [Bool.and_eq_true, decide_eq_true_eq] at hb
  obtain ⟨⟨hp, terminal, hm, hc⟩, hne⟩ := hb
  exact hne (h _ t terminal (exec_run ht) (Phase.isStopped_iff.mp hp) hm hc .stdout)

end Forcola.Beam.Duplex
