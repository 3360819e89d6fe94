import Forcola.Beam.DuplexSteps

/-! Read credit in pull mode: what a session holds, and what a waiting caller has asked for. -/

namespace Forcola.Beam.Duplex

open Library Transition
open Native (Bytes Pipe)

/-- A pty carries no separate stderr. -/
def Gated (cfg : Options) (p : Pipe) : Prop :=
  ¬(p = .stderr ∧ cfg.pty = true)

def weight (s : State) (p : Pipe) : ℕ :=
  (queued p s.queue).flatten.length + (s.buffers p).length + s.outstanding p

/-- The shim forwards no byte beyond the credit it was granted. -/
def Compliant (s : State) : Label → Prop
  | .message (.port event) _ =>
    ∀ p, (s.log.received p).length + (event.output p).length ≤ s.log.granted p
  | _ => True

variable {cfg : Options} {s t : State}

lemma grantStreamCredit_outstanding (s : State) (p q : Pipe) :
    (grantStreamCredit cfg s p).outstanding q =
      if q = p ∧ ¬(p = .stderr ∧ cfg.pty = true) then max (s.outstanding q) cfg.maxPendingBytes
      else s.outstanding q := by
  rw [grantStreamCredit]
  by_cases hp : p = .stderr ∧ cfg.pty = true
  · simp [hp]
  · by_cases hq : q = p
    · subst hq
      by_cases hlt : s.outstanding q < cfg.maxPendingBytes
      · simp [hp, hlt, hlt.le]
      · simp [hp, hlt, Nat.le_of_not_lt hlt]
    · by_cases hlt : s.outstanding p < cfg.maxPendingBytes
      · simp [hp, hq, hlt, State.tell]
      · simp [hp, hq, hlt]

lemma grantPullCredit_outstanding (cfg : Options) (s : State) (p : Pipe) :
    (grantPullCredit cfg s).outstanding p =
      if p = .stderr ∧ cfg.pty = true then s.outstanding p
      else max (s.outstanding p) cfg.maxPendingBytes := by
  rw [grantPullCredit, grantStreamCredit_outstanding, grantStreamCredit_outstanding]
  cases p with
  | stdout => simp
  | stderr => cases hp : cfg.pty <;> simp

lemma grantStreamCredit_log (cfg : Options) (s : State) (p q : Pipe) :
    (grantStreamCredit cfg s p).log.granted q + s.outstanding q =
        s.log.granted q + (grantStreamCredit cfg s p).outstanding q ∧
      (grantStreamCredit cfg s p).log.received q = s.log.received q ∧
      (grantStreamCredit cfg s p).log.reached q = s.log.reached q ∧
      (grantStreamCredit cfg s p).log.delivered q = s.log.delivered q ∧
      (grantStreamCredit cfg s p).log.dones = s.log.dones ∧
      (grantStreamCredit cfg s p).log.published = s.log.published := by
  rw [grantStreamCredit]
  by_cases hp : p = .stderr ∧ cfg.pty = true
  · simp [hp]
  · by_cases hlt : s.outstanding p < cfg.maxPendingBytes
    · simp only [hp, hlt, if_false, if_true, State.tell, List.map_cons, List.map_nil]
      rw [Log.granted_append, Log.received_append, Log.reached_append, Log.delivered_append,
        Log.dones_append, Log.published_append]
      by_cases hq : q = p
      · subst hq
        simp [Log.granted, Log.received, Log.reached, Log.delivered, Log.dones, Log.published,
          Entry.granted, Entry.received, Entry.reached, Entry.delivered, Entry.dones, Entry.published]
        omega
      · simp [Log.granted, Log.received, Log.reached, Log.delivered, Log.dones, Log.published,
          Entry.granted, Entry.received, Entry.reached, Entry.delivered, Entry.dones, Entry.published, hq, Ne.symm hq]
    · simp [hp, hlt]

lemma grantPullCredit_log (cfg : Options) (s : State) (p : Pipe) :
    (grantPullCredit cfg s).log.granted p + s.outstanding p =
        s.log.granted p + (grantPullCredit cfg s).outstanding p ∧
      (grantPullCredit cfg s).log.received p = s.log.received p ∧
      (grantPullCredit cfg s).log.reached p = s.log.reached p ∧
      (grantPullCredit cfg s).log.delivered p = s.log.delivered p ∧
      (grantPullCredit cfg s).log.dones = s.log.dones ∧
      (grantPullCredit cfg s).log.published = s.log.published := by
  obtain ⟨g1, r1, k1, d1, w1, x1⟩ := grantStreamCredit_log cfg s .stdout p
  obtain ⟨g2, r2, k2, d2, w2, x2⟩ :=
    grantStreamCredit_log cfg (grantStreamCredit cfg s .stdout) .stderr p
  rw [grantPullCredit]
  exact ⟨by omega, r2.trans r1, k2.trans k1, d2.trans d1, w2.trans w1, x2.trans x1⟩

structure Held (cfg : Options) (s : State) : Prop where
  buffers : ∀ p, (s.buffers p).length ≤ cfg.maxLineBytes
  lines : ∀ line ∈ s.queue, line.bytes.length ≤ cfg.maxLineBytes
  total : s.totalOutputBytes ≤ cfg.maxOutputBytes
  funded : s.waiter.isSome → s.halt = false → ∀ p, Gated cfg p →
    cfg.maxPendingBytes ≤ s.outstanding p + (s.buffers p).length

lemma mem_partials {buffers : Pipe → Bytes} {streams : List Pipe} {line : Line}
    (h : line ∈ partials buffers streams) : line.bytes = buffers line.pipe := by
  obtain ⟨hm, -⟩ := List.mem_filter.mp h
  obtain ⟨p, -, rfl⟩ := List.mem_map.mp hm
  rfl

namespace Held

lemma init (cfg : Options) : Held cfg (init cfg) where
  buffers _ := Nat.zero_le _
  lines line h := by cases h
  total := Nat.zero_le _
  funded h := by cases h

lemma aside (hs : Held cfg s) (h : Aside s t) : Held cfg t where
  buffers := by
    rw [h.buffers]
    exact hs.buffers
  lines := by
    rw [h.queue]
    exact hs.lines
  total := by
    rw [h.totalOutputBytes]
    exact hs.total
  funded := by
    rw [h.waiter, h.halt, h.outstanding, h.buffers]
    exact hs.funded

lemma answered (hb : ∀ p, (s.buffers p).length ≤ cfg.maxLineBytes)
    (hq : ∀ line ∈ s.queue, line.bytes.length ≤ cfg.maxLineBytes)
    (ht : s.totalOutputBytes ≤ cfg.maxOutputBytes)
    (hf : s.waiter.isSome → s.queue = [] → s.exit = none → s.halt = false → ∀ p, Gated cfg p →
      cfg.maxPendingBytes ≤ s.outstanding p + (s.buffers p).length)
    (hd : cfg.delivery = .pull) : Held cfg (replyPullWaiter cfg s) := by
  rcases replyPullWaiter_cases cfg s with
    ⟨h, hk⟩ | ⟨_, line, queue, -, -, hl, h⟩ | ⟨_, _, -, -, -, -, h⟩
  · rw [h]
    refine ⟨hb, hq, ht, fun hw hh => ?_⟩
    rcases hk with hk | hk | ⟨hk, he⟩
    · rw [hd] at hk
      cases hk
    · rw [hk] at hw
      cases hw
    · exact hf hw hk he hh
  · rw [h]
    refine ⟨hb, fun l hm => hq l ?_, ht, fun hw => by cases hw⟩
    rw [hl]
    exact List.mem_cons_of_mem _ hm
  · rw [h]
    exact ⟨hb, hq, ht, fun hw => by cases hw⟩

lemma stopped (hs : Held cfg s) (phase : Phase) : Held cfg { s with phase := phase } :=
  ⟨hs.buffers, hs.lines, hs.total, hs.funded⟩

lemma afterFrame (hs : Held cfg s) : Held cfg (afterFrame cfg s) := by
  rw [Duplex.afterFrame]
  split
  · exact hs.stopped _
  · split
    · exact hs
    · split
      · exact hs
      · exact hs.stopped _

lemma accepted (hs : Held cfg s) {p : Pipe} {chunk : Bytes}
    (hd : cfg.delivery = .pull) (h : Fits cfg s p chunk) :
    Held cfg (replyPullWaiter cfg (accept s p chunk)) := by
  refine answered ?_ ?_ h.total ?_ hd
  · intro q
    by_cases hq : q = p
    · subst hq
      simpa [accept] using h.rest
    · simpa [accept, hq] using hs.buffers q
  · intro line hm
    rcases List.mem_append.mp hm with hm | hm
    · exact hs.lines line hm
    · obtain ⟨bytes, hb, rfl⟩ := List.mem_map.mp hm
      exact h.lines bytes hb
  · -- no line was completed, so what left the credit went into the buffer
    intro hw hq he hh q hg
    have hf := hs.funded hw hh q hg
    by_cases hqp : q = p
    · subst hqp
      have hlines : Lines.lines newline (s.buffers q ++ chunk) = [] := by
        have hn := (List.append_eq_nil_iff.mp hq).2
        exact List.map_eq_nil_iff.mp hn
      have hrest := Lines.length_rest hlines
      simp only [accept, Function.update_self]
      rw [hrest, List.length_append]
      omega
    · simpa [accept, hqp] using hf

lemma ended (hs : Held cfg s) {flushes : Bool} {e : Ended} {u w v : State} (hu : Aside s u)
    (hw : w = if flushes then flushBuffers cfg u else u) (hv : Aside { w with exit := some e } v)
    (hd : cfg.delivery = .pull) : Held cfg (replyPullWaiter cfg v) := by
  have hu' := hs.aside hu
  have hw' : (∀ p, (w.buffers p).length ≤ cfg.maxLineBytes) ∧
      (∀ line ∈ w.queue, line.bytes.length ≤ cfg.maxLineBytes) := by
    cases flushes with
    | false =>
      obtain rfl : w = u := hw
      exact ⟨hu'.buffers, hu'.lines⟩
    | true =>
      obtain ⟨queue, log, heq, -, hp⟩ := flushBuffers_eq cfg u
      rw [if_pos rfl, heq, (hp hd).2] at hw
      subst hw
      refine ⟨fun p => Nat.zero_le _, fun line hm => ?_⟩
      rcases List.mem_append.mp hm with hm | hm
      · exact hu'.lines line hm
      · rw [mem_partials hm]
        exact hu'.buffers _
  refine answered ?_ ?_ ?_ ?_ hd
  · rw [hv.buffers]
    exact hw'.1
  · rw [hv.queue]
    exact hw'.2
  · rw [hv.totalOutputBytes]
    exact ((flushed_iff hw).1.totalOutputBytes.trans hu.totalOutputBytes).trans_le hs.total
  · intro _ _ he
    rw [hv.exit] at he
    cases he

lemma turn (hs : Held cfg s) (hd : cfg.delivery = .pull) {m : Message}
    (h : Turn cfg s m t) : Held cfg t := by
  cases h with
  | aside hm h => exact hs.aside h
  | limited p chunk limit _ =>
    exact ⟨hs.buffers, hs.lines, hs.total, fun _ h => by cases h⟩
  | accepted p chunk _ h => exact hs.accepted hd h
  | relayed p chunk hm =>
    rw [hd] at hm
    cases hm
  | ended e hm hu hw hv hg hx => exact (hs.ended hu hw hv hd).afterFrame
  | refused caller reply hr => exact ⟨hs.buffers, hs.lines, hs.total, hs.funded⟩
  | last caller line _ hw hq he =>
    refine ⟨hs.buffers, nofun, hs.total, fun h => ?_⟩
    rw [show (State.stopWith { s with queue := [] } caller (.line line)).waiter = none from hw] at h
    cases h
  | popped caller line queue _ hw hq he =>
    refine ⟨hs.buffers, fun l hm => hs.lines l ?_, hs.total, fun h => ?_⟩
    · rw [hq]
      exact List.mem_cons_of_mem _ hm
    · rw [show (State.tell { s with queue := queue } _).waiter = none from hw] at h
      cases h
  | waits caller _ hw hq he =>
    obtain ⟨o, l, heq⟩ := grantPullCredit_eq cfg
      { s with waiter := some ⟨caller, s.refs⟩, refs := s.refs + 1 }
    have hg : ∀ p, Gated cfg p → cfg.maxPendingBytes ≤ o p := by
      intro p hg
      have ho := grantPullCredit_outstanding cfg
        { s with waiter := some ⟨caller, s.refs⟩, refs := s.refs + 1 } p
      rw [heq, if_neg hg] at ho
      rw [show o p = _ from ho]
      exact le_max_right _ _
    rw [heq]
    exact ⟨hs.buffers, hs.lines, hs.total, fun _ _ p hp => (hg p hp).trans (Nat.le_add_right _ _)⟩
  | expired waiter hw => exact ⟨hs.buffers, hs.lines, hs.total, fun h => by cases h⟩
  | stops cause hm => exact ⟨hs.buffers, hs.lines, hs.total, hs.funded⟩

lemma ending (hs : Held cfg s) (h : Ending cfg s t) : Held cfg t := by
  obtain ⟨u, hu, ht⟩ := h
  refine .aside (s := flushMessages cfg u) ?_ ht
  have hs' := hs.aside hu
  rw [flushMessages]
  cases cfg.delivery with
  | pull => exact hs'
  | messages => exact ⟨hs'.buffers, hs'.lines, hs'.total, hs'.funded⟩

lemma move (hs : Held cfg s) (hd : cfg.delivery = .pull) {l : Label}
    (h : Move cfg s l t) : Held cfg t := by
  have heard : ∀ e, Held cfg (s.hear e) := fun _ => ⟨hs.buffers, hs.lines, hs.total, hs.funded⟩
  cases h with
  | release => exact ⟨hs.buffers, hs.lines, hs.total, hs.funded⟩
  | turn answers hp h => exact (heard _).turn hd h
  | settled e kill hp he h => exact (hs.ending h).stopped _
  | killing kill hp he h => exact (hs.ending h).stopped _
  | gaveUp result kill hp he h => exact (hs.ending h).stopped _
  | noted event hp h => exact (heard _).aside h
  | concluded result event hp h hx => exact ((heard _).aside h).stopped _
  | expired hp h => exact (hs.aside h).stopped _
  | drained terminal event hp => exact heard _
  | published terminal hp => exact ⟨hs.buffers, hs.lines, hs.total, hs.funded⟩
  | left hp => exact ⟨hs.buffers, hs.lines, hs.total, hs.funded⟩
  | killed hp => exact hs.stopped _

end Held

structure Ledger (cfg : Options) (s : State) : Prop where
  spent : s.halt = false → ∀ p, s.outstanding p + (s.log.received p).length = s.log.granted p
  weight : ∀ p, weight s p ≤ cfg.maxPendingBytes + cfg.maxLineBytes

lemma queued_length (p : Pipe) (line : Line) (queue : List Line) :
    (queued p queue).flatten.length ≤ (queued p (line :: queue)).flatten.length := by
  rw [queued_cons, List.flatten_append, List.length_append]
  apply Nat.le_add_left

namespace Ledger

lemma init (cfg : Options) : Ledger cfg (init cfg) where
  spent _ _ := rfl
  weight _ := Nat.zero_le _

lemma aside (hs : Ledger cfg s) (h : Aside s t) : Ledger cfg t where
  spent := by
    intro hh p
    rw [h.outstanding, h.received, h.granted]
    exact hs.spent (h.halt ▸ hh) p
  weight p := by
    have hw : Duplex.weight t p = Duplex.weight s p := by
      rw [Duplex.weight, Duplex.weight, h.queue, h.buffers, h.outstanding]
    exact hw ▸ hs.weight p

lemma stopped (hs : Ledger cfg s) (phase : Phase) : Ledger cfg { s with phase := phase } :=
  ⟨hs.spent, hs.weight⟩

lemma afterFrame (hs : Ledger cfg s) : Ledger cfg (afterFrame cfg s) := by
  rw [Duplex.afterFrame]
  split
  · exact hs.stopped _
  · split
    · exact hs
    · split
      · exact hs
      · exact hs.stopped _

lemma answered (hs : Ledger cfg s) : Ledger cfg (replyPullWaiter cfg s) := by
  obtain ⟨queue, waiter, log, h⟩ := replyPullWaiter_eq cfg s
  have hlog := replyPullWaiter_log cfg s
  refine ⟨fun hh p => ?_, fun p => ?_⟩
  · obtain ⟨hr, -, hg, -⟩ := hlog p
    rw [hr, hg, h]
    exact hs.spent ((replyPullWaiter_frame cfg s).1 ▸ hh) p
  · refine le_trans ?_ (hs.weight p)
    rw [Duplex.weight, Duplex.weight]
    rcases replyPullWaiter_cases cfg s with ⟨h, -⟩ | ⟨_, line, queue, -, -, hq, h⟩ | ⟨_, _, -, -, hq, -, h⟩
    · rw [h]
    · rw [h, hq]
      have := queued_length p line queue
      simp only [State.tell]
      omega
    · rw [h]
      exact le_refl _

lemma accepted (hs : Ledger cfg s) (hh : s.halt = false) {p : Pipe} {chunk : Bytes}
    (hc : chunk.length ≤ s.outstanding p) {entry : Entry}
    (he : ∀ q, entry.received q = if q = p then chunk else []) (hg : ∀ q, entry.granted q = 0) :
    Ledger cfg (accept (s.hear entry) p chunk) := by
  refine ⟨fun _ q => ?_, fun q => ?_⟩
  · have hb := hs.spent hh q
    have hlog : (accept (s.hear entry) p chunk).log = (s.hear entry).log := rfl
    have hgr : (s.hear entry).log.granted q = s.log.granted q := by
      rw [show (s.hear entry).log = s.log ++ [entry] from rfl, Log.granted_append]
      simp [Log.granted, hg]
    rw [hlog, hear_received, he, hgr]
    by_cases hq : q = p
    · subst hq
      simp [accept, State.hear]
      omega
    · simp [accept, State.hear, hq]
      omega
  · have hb := hs.weight q
    rw [Duplex.weight] at hb ⊢
    by_cases hq : q = p
    · subst hq
      have hsplit := Lines.length_lines newline (s.buffers q ++ chunk)
      rw [List.length_append] at hsplit
      simp [accept, State.hear, queued_append, queued_lines]
      rw [List.length_flatten] at hsplit
      rw [List.length_flatten] at hb
      omega
    · simpa [accept, State.hear, queued_append, queued_lines, hq, Ne.symm hq] using hb

lemma ended (hs : Ledger cfg s) {flushes : Bool} {e : Ended} {u w v : State} (hu : Aside s u)
    (hw : w = if flushes then flushBuffers cfg u else u) (hv : Aside { w with exit := some e } v)
    (hd : cfg.delivery = .pull) : Ledger cfg (replyPullWaiter cfg v) := by
  apply answered
  refine .aside (s := { w with exit := some e }) ?_ hv
  have hu' := hs.aside hu
  cases flushes with
  | false =>
    obtain rfl : w = u := hw
    exact ⟨hu'.spent, hu'.weight⟩
  | true =>
    obtain ⟨queue, log, heq, -, hp⟩ := flushBuffers_eq cfg u
    obtain ⟨rfl, rfl⟩ := hp hd
    rw [if_pos rfl, heq] at hw
    subst hw
    refine ⟨hu'.spent, fun p => ?_⟩
    have hb := hu'.weight p
    rw [Duplex.weight] at hb ⊢
    simp only [queued_append, queued_partials, List.flatten_append, List.length_append,
      List.length_nil]
    by_cases hn : u.buffers p = []
    · simp only [hn, if_true, List.flatten_nil, List.length_nil] at hb ⊢
      omega
    · simp only [hn, if_false, List.flatten_singleton]
      omega

lemma heard (hs : Ledger cfg s) (entry : Entry) (hr : ∀ p, entry.received p = [])
    (hg : ∀ p, entry.granted p = 0) : Ledger cfg (s.hear entry) := by
  refine ⟨fun hh p => ?_, hs.weight⟩
  rw [hear_received, hr, List.append_nil]
  have hg : (s.hear entry).log.granted p = s.log.granted p := by
    rw [show (s.hear entry).log = s.log ++ [entry] from rfl, Log.granted_append]
    simp [Log.granted, hg]
  rw [hg]
  exact hs.spent hh p

lemma lighter (hs : Ledger cfg s) (hq : ∀ p, (queued p t.queue).flatten.length ≤
    (queued p s.queue).flatten.length) (hb : t.buffers = s.buffers)
    (ho : t.outstanding = s.outstanding) (hr : ∀ p, t.log.received p = s.log.received p)
    (hg : ∀ p, t.log.granted p = s.log.granted p) (hh : s.halt = false) : Ledger cfg t := by
  refine ⟨fun _ p => ?_, fun p => ?_⟩
  · rw [ho, hr, hg]
    exact hs.spent hh p
  · have hw := hs.weight p
    have hl := hq p
    rw [Duplex.weight] at hw ⊢
    rw [hb, ho]
    omega

lemma granted (hs : Ledger cfg s) (hb : ∀ p, (s.buffers p).length ≤ cfg.maxLineBytes)
    (hq : s.queue = []) : Ledger cfg (grantPullCredit cfg s) := by
  obtain ⟨o, l, heq⟩ := grantPullCredit_eq cfg s
  refine ⟨fun hh p => ?_, fun p => ?_⟩
  · obtain ⟨hg, hr, -⟩ := grantPullCredit_log cfg s p
    rw [heq] at hh
    have hsp := hs.spent hh p
    rw [hr]
    omega
  · have hw := hs.weight p
    have hbuf := hb p
    rw [Duplex.weight] at hw ⊢
    rw [grantPullCredit_outstanding, show (grantPullCredit cfg s).queue = s.queue by rw [heq],
      show (grantPullCredit cfg s).buffers = s.buffers by rw [heq], hq]
    rw [hq] at hw
    simp only [queued_nil, List.flatten_nil, List.length_nil] at hw ⊢
    split
    · omega
    · rcases le_total (s.outstanding p) cfg.maxPendingBytes with h | h
      · rw [max_eq_right h]
        omega
      · rw [max_eq_left h]
        omega

lemma halted (hs : Ledger cfg s) (hq : t.queue = s.queue) (hb : t.buffers = s.buffers)
    (ho : t.outstanding = s.outstanding) (hh : t.halt = true) : Ledger cfg t := by
  refine ⟨fun h => ?_, fun p => ?_⟩
  · rw [hh] at h
    cases h
  · have hw := hs.weight p
    rw [Duplex.weight] at hw ⊢
    rw [hq, hb, ho]
    exact hw

end Ledger

lemma compliant_output {answers : List PortAnswer} {p : Pipe} {chunk : Bytes}
    (h : Compliant s (.message (.port (.data (Tag.ofPipe p) chunk)) answers)) :
    (s.log.received p).length + chunk.length ≤ s.log.granted p := by
  have hp := h p
  rwa [output_ofPipe, if_pos rfl] at hp

lemma Ledger.turn (hs : Ledger cfg s) (hl : Live cfg s) (hk : Held cfg s) (hp : s.phase = .running)
    (hd : cfg.delivery = .pull) {m : Message} {answers : List PortAnswer}
    (hc : Compliant s (.message m answers)) (h : Turn cfg (s.hear (.handled m)) m t) :
    Ledger cfg t := by
  have hh := hl.halt hp
  cases h with
  | aside hm h => exact (hs.heard _ (Message.quiet_output (.inl hm)) fun _ => rfl).aside h
  | limited p chunk limit _ => exact hs.halted rfl rfl rfl rfl
  | accepted p chunk _ h =>
    have hc' := compliant_output hc
    have hb := hs.spent hh p
    refine Ledger.answered (hs.accepted hh (by omega) (fun q => ?_) fun q => rfl)
    exact output_ofPipe p q chunk
  | relayed p chunk hm =>
    rw [hd] at hm
    cases hm
  | ended e hm hu hw hv hg hx =>
    exact ((hs.heard _ (Message.quiet_output (.inr hm)) fun _ => rfl).ended hu hw hv hd).afterFrame
  | refused caller reply hr =>
    have hs' := hs.heard (Entry.handled (.call caller .recv)) (fun _ => rfl) fun _ => rfl
    exact hs'.lighter (fun _ => le_refl _) rfl rfl (tell_received _ _) (tell_granted _ _ _) hh
  | last caller line _ hw hq he =>
    have hs' := hs.heard (Entry.handled (.call caller .recv)) (fun _ => rfl) fun _ => rfl
    exact hs'.lighter (fun _ => Nat.zero_le _) rfl rfl (fun _ => rfl) (fun _ => rfl) hh
  | popped caller line queue _ hw hq he =>
    have hs' := hs.heard (Entry.handled (.call caller .recv)) (fun _ => rfl) fun _ => rfl
    refine hs'.lighter (fun p => ?_) rfl rfl (tell_received _ _) (tell_granted _ _ _) hh
    rw [hq]
    exact queued_length p line queue
  | waits caller _ hw hq he =>
    have hs' := hs.heard (Entry.handled (.call caller .recv)) (fun _ => rfl) fun _ => rfl
    exact Ledger.granted ⟨hs'.spent, hs'.weight⟩ hk.buffers hq
  | expired waiter hw =>
    have hs' := hs.heard (Entry.handled (.recvTimeout waiter.ref)) (fun _ => rfl) fun _ => rfl
    exact hs'.lighter (fun _ => le_refl _) rfl rfl (tell_received _ _) (tell_granted _ _ _) hh
  | stops cause hm =>
    have hs' := hs.heard (Entry.handled m) (fun p => by rcases hm with rfl | rfl <;> rfl)
      fun _ => rfl
    exact hs'.lighter (fun _ => le_refl _) rfl rfl (fun _ => rfl) (fun _ => rfl) hh

lemma Ledger.ending (hs : Ledger cfg s) (hd : cfg.delivery = .pull) (h : Ending cfg s t) :
    Ledger cfg t := by
  obtain ⟨u, hu, ht⟩ := h
  have hf : flushMessages cfg u = u := by rw [flushMessages, hd]
  exact (hs.aside hu).aside (hf ▸ ht)

lemma Ledger.move (hs : Ledger cfg s) (hl : Live cfg s) (hk : Held cfg s)
    (hd : cfg.delivery = .pull) {l : Label} (hc : Compliant s l) (h : Move cfg s l t) :
    Ledger cfg t := by
  cases h with
  | release => exact ⟨hs.spent, hs.weight⟩
  | turn answers hp h => exact hs.turn hl hk hp hd hc h
  | settled e kill hp he h => exact (hs.ending hd h).stopped _
  | killing kill hp he h => exact (hs.ending hd h).stopped _
  | gaveUp result kill hp he h => exact (hs.ending hd h).stopped _
  | noted event hp h => exact (hs.heard (.awaited event) (fun _ => rfl) fun _ => rfl).aside h
  | concluded result event hp h hx =>
    exact ((hs.heard (.awaited event) (fun _ => rfl) fun _ => rfl).aside h).stopped _
  | expired hp h => exact (hs.aside h).stopped _
  | drained terminal event hp => exact hs.heard (.drained event) (fun _ => rfl) fun _ => rfl
  | published terminal hp =>
    refine ⟨fun hh p => ?_, hs.weight⟩
    have hg : (publish cfg s terminal).log.granted p = s.log.granted p := by
      simp only [publish, State.store, State.tell]
      rw [Log.granted_append]
      split <;> rfl
    have hr : (publish cfg s terminal).log.received p = s.log.received p := tell_received _ _ p
    rw [hg, hr]
    exact hs.spent hh p
  | left hp =>
    refine ⟨fun hh p => ?_, hs.weight⟩
    have hg : s.leave.log.granted p = s.log.granted p := by
      simp only [State.leave, State.tell]
      rw [Log.granted_append]
      cases s.farewell <;> rfl
    have hr : s.leave.log.received p = s.log.received p := tell_received _ _ p
    rw [hg, hr]
    exact hs.spent hh p
  | killed hp => exact hs.stopped _

abbrev Steps (cfg : Options) : State → List Label → State → Prop :=
  Run fun s l t => step cfg s l = some t

lemma queue_length (queue : List Line) :
    (queue.map (·.bytes.length)).sum =
      (queued .stdout queue).flatten.length + (queued .stderr queue).flatten.length := by
  induction queue with
  | nil => rfl
  | cons line queue ih =>
    rw [List.map_cons, List.sum_cons, ih, queued_cons, queued_cons]
    rcases line with ⟨p, bytes⟩
    cases p with
    | stdout =>
      simp
      omega
    | stderr =>
      simp
      omega

theorem memory_bounded {as : List Label} (hd : cfg.delivery = .pull)
    (h : Run (fun s l t => step cfg s l = some t ∧ Compliant s l) (init cfg) as t) :
    (t.queue.map (·.bytes.length)).sum +
        ((t.buffers .stdout).length + (t.buffers .stderr).length) +
        (t.outstanding .stdout + t.outstanding .stderr) ≤
          2 * (cfg.maxPendingBytes + cfg.maxLineBytes) ∧
      (∀ line ∈ t.queue, line.bytes.length ≤ cfg.maxLineBytes) ∧
      (∀ p, (t.buffers p).length ≤ cfg.maxLineBytes) ∧
      t.totalOutputBytes ≤ cfg.maxOutputBytes := by
  have hs : Live cfg t ∧ Held cfg t ∧ Ledger cfg t := by
    refine h.invariant (I := fun s => Live cfg s ∧ Held cfg s ∧ Ledger cfg s)
      (fun s l u hs ht => ?_) ⟨.init cfg, .init cfg, .init cfg⟩
    obtain ⟨hl, hk, hg⟩ := hs
    have hm := step_move hl ht.1
    exact ⟨hl.move hm, hk.move hd hm, hg.move hl hk hd ht.2 hm⟩
  obtain ⟨-, hk, hg⟩ := hs
  have h1 := hg.weight .stdout
  have h2 := hg.weight .stderr
  rw [weight] at h1 h2
  have hq := queue_length t.queue
  exact ⟨by omega, hk.lines, hk.buffers, hk.total⟩

def exitPayload : Bytes := [123, 34, 115, 116, 97, 116, 117, 115, 34, 58, 48, 125]

def smallOptions (delivery : Delivery) : Options where
  json payload := if payload = exitPayload then some (.object [("status", .int 0)]) else none
  delivery := delivery
  pty := false
  maxLineBytes := 4
  maxOutputBytes := 64
  maxPendingBytes := 8
  identityEnabled := false
  structuredSpawnErrors := false
  trackDescendants := false
  observer := false
  recipient := false
  stderrFirst := false
  validated _ := by decide

def output (p : Pipe) (chunk : Bytes) : Label :=
  .message (.port (.data (Tag.ofPipe p) chunk)) []

def recv (caller : Caller) : Label :=
  .message (.call caller .recv) []

instance (s : State) (l : Label) : Decidable (Compliant s l) :=
  match l with
  | .message (.port event) _ =>
    decidable_of_iff (∀ p ∈ [Pipe.stdout, .stderr],
      (s.log.received p).length + (event.output p).length ≤ s.log.granted p)
      ⟨fun h p => h p (by cases p <;> decide), fun h p _ => h p⟩
  | .message (.call _ _) _ | .message .ownerDown _ | .message (.recvTimeout _) _
  | .message .flushInput _ | .message (.sendTimeout _) _ | .message .stop _ | .message .other _
  | .terminate _ | .await _ | .deadline | .drain _ | .publish | .leave | .kill | .release =>
    isTrue trivial

theorem memory_bounded_small :
    ∃ t, exec (guarded Compliant (step (smallOptions .pull))) (init (smallOptions .pull))
        [recv 0, output .stdout [97, 10, 98, 10, 99]] = some t ∧
      (t.queue.map (·.bytes.length)).sum +
        ((t.buffers .stdout).length + (t.buffers .stderr).length) +
        (t.outstanding .stdout + t.outstanding .stderr) ≤ 2 * (8 + 4) ∧
      (∀ line ∈ t.queue, line.bytes.length ≤ 4) ∧ (∀ p, (t.buffers p).length ≤ 4) ∧
      t.totalOutputBytes ≤ 64 := by
  have hrun : (exec (guarded Compliant (step (smallOptions .pull))) (init (smallOptions .pull))
      [recv 0, output .stdout [97, 10, 98, 10, 99]]).isSome := by
    decide +kernel
  obtain ⟨t, ht⟩ := Option.isSome_iff_exists.mp hrun
  exact ⟨t, ht, memory_bounded rfl (exec_guarded ht)⟩

end Forcola.Beam.Duplex
