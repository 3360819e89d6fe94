import Forcola.Beam.CreditConserved
import Forcola.Beam.DuplexInput

/-! A caller that waits for a line: what may still come in before the line does. -/

namespace Forcola.Beam.Duplex

open Library Transition
open Native (Bytes Pipe)
open Native.Supervisor (carried received)
open Session (heardBytes unprocessed)

variable {cfg : Options} {s t : State} {l : Label} {w : Waiter}

inductive Awaits (cfg : Options) (s : State) (l : Label) (w : Waiter) (t : State) : Prop
  | still (hw : s.waiter = some w) (hb : t.phase = .running → s.phase = .running ∧
      ∀ p, (l.data?.bind Session.chunk? = none ∧ t.buffers p = s.buffers p) ∨
        ∃ q chunk, l.data?.bind Session.chunk? = some (q, chunk) ∧
          t.buffers p = if q = p then s.buffers p ++ chunk else s.buffers p)
  | asked (hr : w.ref = s.refs) (hrefs : t.refs = s.refs + 1)

lemma Awaits.quiet (hw : s.waiter = some w) (hb : t.buffers = s.buffers)
    (hp : t.phase = .running → s.phase = .running ∧ l.data?.bind Session.chunk? = none) :
    Awaits cfg s l w t :=
  .still hw fun hr => ⟨(hp hr).1, fun p => .inl ⟨(hp hr).2, congrFun hb p⟩⟩

lemma Awaits.stopped (hw : s.waiter = some w) (hp : t.phase ≠ .running) : Awaits cfg s l w t :=
  .still hw fun hr => absurd hr hp

lemma Ending.waiter (h : Ending cfg s t) : t.waiter = s.waiter := by
  obtain ⟨u, hu, ht⟩ := h
  have hflush : (flushMessages cfg u).waiter = u.waiter := by
    rw [flushMessages]
    cases cfg.delivery <;> rfl
  exact ht.waiter.trans (hflush.trans hu.waiter)

lemma replyPullWaiter_keeps (hd : cfg.delivery = .pull)
    (h : (replyPullWaiter cfg s).waiter = some w) :
    replyPullWaiter cfg s = s ∧ s.queue = [] ∧ s.exit = none := by
  rcases replyPullWaiter_cases cfg s with
    ⟨heq, hk⟩ | ⟨w, line, queue, -, -, -, heq⟩ | ⟨w, ended, -, -, -, -, heq⟩
  · rw [heq] at h
    rcases hk with hk | hk | hk
    · cases hd.symm.trans hk
    · cases hk.symm.trans h
    · exact ⟨heq, hk⟩
  · rw [heq] at h
    cases h
  · rw [heq] at h
    cases h

lemma Turn.awaits (hd : cfg.delivery = .pull) (hp : s.phase = .running) {m : Message}
    {answers : List PortAnswer} (h : Turn cfg (s.hear (.handled m)) m t)
    (hw : t.waiter = some w) : Awaits cfg s (.message m answers) w t := by
  cases h with
  | aside hm h =>
    exact .quiet (h.waiter.symm.trans hw) h.buffers fun _ => ⟨hp, Message.silent (.inl hm) answers⟩
  | limited p chunk limit _ => exact .quiet hw rfl fun hr => by cases hr
  | accepted p chunk _ h =>
    obtain ⟨heq, hqueue, -⟩ := replyPullWaiter_keeps hd hw
    rw [heq] at hw ⊢
    refine .still hw fun _ => ⟨hp, fun q => .inr ⟨p, chunk, chunk_ofPipe p chunk, ?_⟩⟩
    have hlines : Lines.lines newline (s.buffers p ++ chunk) = [] :=
      List.map_eq_nil_iff.mp (List.append_eq_nil_iff.mp hqueue).2
    have hrest : Lines.rest newline (s.buffers p ++ chunk) = s.buffers p ++ chunk :=
      Lines.rest_eq hlines
    change Function.update s.buffers p (Lines.rest newline (s.buffers p ++ chunk)) q = _
    rw [hrest]
    by_cases hq : p = q
    · subst hq
      rw [if_pos rfl, Function.update_self]
    · rw [if_neg hq, Function.update_of_ne (Ne.symm hq)]
  | relayed p chunk hm => cases hd.symm.trans hm
  | @ended m e u v x hm hu hv hx hg hr =>
    have hafter : (afterFrame cfg (replyPullWaiter cfg x)).waiter =
        (replyPullWaiter cfg x).waiter := by
      rw [afterFrame]
      split
      · rfl
      · split
        · rfl
        · split <;> rfl
    obtain ⟨-, -, hexit⟩ := replyPullWaiter_keeps hd (hafter.symm.trans hw)
    cases hx.exit.symm.trans hexit
  | refused caller reply hr => exact .quiet hw rfl fun _ => ⟨hp, rfl⟩
  | last caller line _ hn hq he => cases (Eq.symm hn).trans hw
  | popped caller line queue _ hn hq he => cases (Eq.symm hn).trans hw
  | waits caller _ hn hq he =>
    obtain ⟨o, log, heq⟩ := grantPullCredit_eq cfg { s.hear (.handled (.call caller .recv)) with
      waiter := some ⟨caller, (s.hear (.handled (.call caller .recv))).refs⟩
      refs := (s.hear (.handled (.call caller .recv))).refs + 1 }
    rw [heq] at hw ⊢
    obtain rfl := Option.some.inj hw
    exact .asked rfl rfl
  | expired waiter hn => cases hw
  | stops cause hm => exact .quiet hw rfl fun hr => by cases hr

lemma Move.awaits (hd : cfg.delivery = .pull) (h : Move cfg s l t) (hw : t.waiter = some w) :
    Awaits cfg s l w t := by
  cases h with
  | release => exact .quiet hw rfl fun hr => ⟨hr, rfl⟩
  | turn answers hp h => exact h.awaits hd hp hw
  | settled e kill hp he h => exact .stopped (h.waiter.symm.trans hw) fun hr => by cases hr
  | killing kill hp he h => exact .stopped (h.waiter.symm.trans hw) fun hr => by cases hr
  | gaveUp result kill hp he h => exact .stopped (h.waiter.symm.trans hw) fun hr => by cases hr
  | noted event hp h =>
    refine .stopped (h.waiter.symm.trans hw) fun hr => ?_
    cases (h.phase.symm.trans hr).symm.trans hp
  | concluded result event hp h hx =>
    exact .stopped (h.waiter.symm.trans hw) fun hr => by cases hr
  | expired hp h => exact .stopped (h.waiter.symm.trans hw) fun hr => by cases hr
  | drained terminal event hp =>
    refine .stopped hw fun hr => ?_
    cases hp.symm.trans hr
  | published terminal hp => exact .stopped hw fun hr => by cases hr
  | left hp => exact .stopped hw fun hr => by cases hr
  | killed hp => exact .stopped hw fun hr => by cases hr

lemma Fed.refs_le {v u : Feed} (h : Fed v u) : v.refs ≤ u.refs := by
  cases h with
  | rest refs hr => exact hr
  | queued => exact Nat.le_succ _
  | _ => exact le_refl _

structure Numbered (s : State) : Prop where
  tended : Tended s.feed
  below : ∀ w, s.waiter = some w → w.ref < s.refs

lemma Numbered.step (hs : Numbered s) (hl : Live cfg s) (hd : cfg.delivery = .pull)
    (h : step cfg s l = some t) : Numbered t := by
  have hfed : Fed s.feed t.feed := step_fed hs.tended.fresh h
  have hrefs : s.refs ≤ t.refs := hfed.refs_le
  refine ⟨hs.tended.next hfed, fun w hw => ?_⟩
  cases (step_move hl h).awaits hd hw with
  | still hwas => exact (hs.below w hwas).trans_le hrefs
  | asked hr hnext =>
    rw [hr, hnext]
    exact Nat.lt_succ_self _

variable {σ : Type} {shim : Native.Supervisor.Config} {H : Native.Host σ}
  {u v : Session.State (Sound cfg) σ} {labels later : List (Session.Label Label)}

lemma Runs.numbered {n : Native.Supervisor.State σ} (hd : cfg.delivery = .pull)
    (h : Session.Runs (client cfg) shim H (.begin (opened cfg) n) labels u) :
    Numbered u.left.1 := by
  have hinit : Numbered (init cfg) :=
    ⟨⟨⟨List.nodup_nil, fun _ h => by cases h⟩, fun h => absurd rfl h, .nil,
      fun _ => List.not_mem_nil⟩, fun w hw => by cases hw⟩
  exact h.client.invariant (I := fun s => Numbered s.1)
    (fun s _ _ hs ht => hs.step s.2 hd (next_step ht)) hinit

lemma Runs.held {n : Native.Supervisor.State σ} (hd : cfg.delivery = .pull)
    (h : Session.Runs (client cfg) shim H (.begin (opened cfg) n) labels u) :
    Held cfg u.left.1 :=
  h.client.invariant (I := fun s => Held cfg s.1)
    (fun s _ _ hs ht => hs.move hd (step_move s.2 (next_step ht))) (.init cfg)

/-- As long as one caller waits, everything that comes in stays in the partial lines. -/
structure Gathers (w : Waiter) (u : Session.State (Sound cfg) σ)
    (later : List (Session.Label Label)) (v : Session.State (Sound cfg) σ) : Prop where
  numbered : Numbered v.left.1
  below : w.ref < v.left.1.refs
  buffers : v.left.1.phase = .running → v.left.1.waiter = some w → ∀ p,
    v.left.1.buffers p = u.left.1.buffers p ++ carried p (Session.heard (client cfg) later)

lemma Gathers.step {l : Session.Label Label} (hd : cfg.delivery = .pull)
    (h : Gathers w u later v) {x : Session.State (Sound cfg) σ}
    (hs : Session.step (client cfg) shim H v l = some x) : Gathers w u (later ++ [l]) x := by
  cases l with
  | right l =>
    obtain ⟨-, heq⟩ := Session.step_right hs
    obtain ⟨hn, hbelow, hbuffers⟩ := h
    rw [← heq] at hn hbelow hbuffers
    refine ⟨hn, hbelow, ?_⟩
    rw [Session.heard_right]
    exact hbuffers
  | left l =>
    have hstep := next_step (Session.step_left hs).1
    have hfed : Fed v.left.1.feed x.left.1.feed := step_fed h.numbered.tended.fresh hstep
    refine ⟨h.numbered.step v.left.2 hd hstep, h.below.trans_le hfed.refs_le, ?_⟩
    intro hr hw p
    cases (step_move v.left.2 hstep).awaits hd hw with
    | asked href hrefs => exact absurd h.below (href ▸ lt_irrefl _)
    | still hwas hb =>
      obtain ⟨hp, hbytes⟩ := hb hr
      have hbefore := h.buffers hp hwas p
      rw [Session.heard_left, ← List.append_assoc, ← hbefore]
      rcases hbytes p with ⟨hsilent, heq⟩ | ⟨q, chunk, hchunk, heq⟩
      · rw [Session.heardBytes_silent (K := client cfg) hsilent, List.append_nil]
        exact heq
      · rw [Session.heardBytes_chunk (K := client cfg) hchunk, heq]
        split
        · rfl
        · exact (List.append_nil _).symm

/-- A waiting caller is never blocked for want of credit. -/
theorem recv_never_stalls (cfg : Options) (shim : Native.Supervisor.Config) (H : Native.Host σ)
    (began : Native.Instant) (tracker : Option (Native.Tracker σ))
    (labels : List (Session.Label Label)) (u : Session.State (Sound cfg) σ) (w : Waiter)
    (hd : cfg.delivery = .pull) (hfits : cfg.maxPendingBytes ≤ Native.u64Max)
    (h : Session.Runs (client cfg) shim H (.begin (opened cfg)
      (Native.Supervisor.begin began true (pumps cfg) tracker)) labels u)
    (hr : u.left.1.phase = .running) (hw : u.left.1.waiter = some w) :
    u.left.1.queue = [] ∧ u.left.1.exit = none ∧ u.left.1.halt = false ∧
      ∀ p, Gated cfg p →
        cfg.maxPendingBytes ≤ u.left.1.outstanding p + (u.left.1.buffers p).length ∧
        (u.left.1.buffers p).length ≤ cfg.maxLineBytes ∧
        cfg.maxLineBytes < cfg.maxPendingBytes ∧
        0 < u.left.1.outstanding p ∧
        (∀ c, Session.Budget p u c →
          cfg.maxLineBytes + (carried p (Session.heard (client cfg) labels)).length <
            (u.left.1.buffers p).length + c.available + unprocessed (client cfg) p u +
              (received p (Session.shimLabels labels)).length) ∧
        ∀ later v, Session.Runs (client cfg) shim H u later v → v.left.1.phase = .running →
          v.left.1.waiter = some w →
          v.left.1.buffers p = u.left.1.buffers p ++ carried p (Session.heard (client cfg) later) ∧
          (v.left.1.buffers p).length ≤ cfg.maxLineBytes := by
  have hlive : Live cfg u.left.1 := u.left.2
  have hsome : u.left.1.waiter.isSome := Option.isSome_of_eq_some hw
  obtain ⟨-, hqueue, hexit⟩ := hlive.waiter hsome
  have hhalt := hlive.halt hr
  have hheld := Runs.held hd h
  refine ⟨hqueue, hexit, hhalt, fun p hg => ?_⟩
  have hfunded := hheld.funded hsome hhalt p hg
  have hbuffer := hheld.buffers p
  obtain ⟨-, -, hline⟩ := cfg.validated hd
  refine ⟨hfunded, hbuffer, hline, by omega, fun c hc => ?_, fun later v hlater hvr hvw => ?_⟩
  · have hbalance := (h.balanced (keeps hd hfits hg) (opens cfg p) hfits
      (pumps_piped hg)).balance hr c hc
    omega
  · have hgathers : Gathers w u later v := by
      have hn := Runs.numbered hd h
      refine Run.history (fun _ _ _ _ hi hs => hi.step hd hs) hlater ⟨hn, hn.below w hw, ?_⟩
      intro _ _ p
      exact (List.append_nil _).symm
    refine ⟨hgathers.buffers hvr hvw p, ?_⟩
    obtain ⟨labels', hall⟩ : ∃ labels', Session.Runs (client cfg) shim H (.begin (opened cfg)
      (Native.Supervisor.begin began true (pumps cfg) tracker)) labels' v := ⟨_, h.append hlater⟩
    exact (Runs.held hd hall).buffers p

def partialLine : List (Session.Label Label) :=
  .left (recv 0) :: (oneByte 8).map .right ++ [.left (output .stdout [97])]

def secondByte : List (Session.Label Label) :=
  [.right (.pump .stdout .permit), .right (.pump .stdout (.read (.data [98]))),
    .right (.pump .stdout (.write true)), .left (output .stdout [98])]

/-- The caller waits on with a partial line buffered, and a further byte joins it. -/
theorem recv_never_stalls_partial : ∃ u v,
    exec (Session.step (client (smallOptions .pull)) gatedShim .empty)
      (.begin (opened (smallOptions .pull)) (Native.Supervisor.begin 0 true
        (pumps (smallOptions .pull)) none)) partialLine = some u ∧
    exec (Session.step (client (smallOptions .pull)) gatedShim .empty) u secondByte = some v ∧
    u.left.1.buffers .stdout = [97] ∧ u.left.1.waiter = some ⟨0, 0⟩ ∧ u.left.1.queue = [] ∧
    8 ≤ u.left.1.outstanding .stdout + 1 ∧ 0 < u.left.1.outstanding .stderr ∧
    Session.Budget .stdout u ⟨7, false, false⟩ ∧
    4 + 1 < 1 + 7 + unprocessed (client (smallOptions .pull)) .stdout u + 1 ∧
    v.left.1.waiter = some ⟨0, 0⟩ ∧ v.left.1.buffers .stdout = [97] ++ [98] := by
  have hk : (exec (Session.step (client (smallOptions .pull)) gatedShim .empty)
      (.begin (opened (smallOptions .pull)) (Native.Supervisor.begin 0 true
        (pumps (smallOptions .pull)) none)) partialLine).any (fun u =>
          decide (Running u.left ∧ u.left.1.waiter = some ⟨0, 0⟩ ∧ u.left.1.buffers .stdout = [97] ∧
            (u.right.selected .stdout).bind Native.Pump.credit = some ⟨7, false, false⟩) &&
          (exec (Session.step (client (smallOptions .pull)) gatedShim .empty) u secondByte).any
            fun v => decide (Running v.left ∧ v.left.1.waiter = some ⟨0, 0⟩)) = true := by
    decide +kernel
  obtain ⟨u, hu, hp⟩ := Option.any_eq_true .. |>.mp hk
  obtain ⟨hnow, hthen⟩ := (Bool.and_eq_true ..).mp hp
  obtain ⟨hrunning, hwaiter, hbuffer, hcredit⟩ := of_decide_eq_true hnow
  obtain ⟨v, hv, hq⟩ := Option.any_eq_true .. |>.mp hthen
  obtain ⟨hlater, hwaits⟩ := of_decide_eq_true hq
  have hbudget := Session.budget_of_eq hcredit
  obtain ⟨hqueue, -, -, hpipes⟩ := recv_never_stalls (smallOptions .pull) gatedShim .empty 0 none
    partialLine u ⟨0, 0⟩ rfl (by decide) (exec_run hu) hrunning hwaiter
  obtain ⟨hfunded, -, -, -, hcovered, hjoins⟩ := hpipes .stdout fun h => by cases h.1
  obtain ⟨-, -, -, hopen, -⟩ := hpipes .stderr fun h => by cases h.2
  have hcover := hcovered _ hbudget
  rw [hbuffer] at hfunded hcover
  refine ⟨u, v, hu, hv, hbuffer, hwaiter, hqueue, hfunded, hopen, hbudget, hcover, hwaits, ?_⟩
  exact hbuffer ▸ (hjoins secondByte v (exec_run hv) hlater hwaits).1

end Forcola.Beam.Duplex
