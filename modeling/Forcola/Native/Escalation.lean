import Forcola.Native.TrackingSteps

/-! One pass of the escalation: what happens to a target on its turn. -/

namespace Forcola.Native

open Forcola.Library

inductive Due (c : Cleanup) (previous : Option Sequence) (target : Instant) : Phase → Bool → Prop
  | forced : c.deadline ≤ target →
      Due c previous target .kill (previous.all fun s => s.phase != .kill)
  | first : previous = none → Due c previous target c.firstPhase false
  | next {s} : previous = some s → s.next ≤ target → Due c previous target s.phase.advance false

lemma nextSignal_cases (c : Cleanup) (previous : Option Sequence) (target : Instant) :
    (∃ s, previous = some s ∧ target < s.next ∧
        nextSignal c previous target (c.deadline ≤ target) = (s, none, false)) ∨
      ∃ phase next shortened, Due c previous target phase shortened ∧
        nextSignal c previous target (c.deadline ≤ target) =
          (⟨phase, next⟩, some phase.signal, shortened) := by
  rw [nextSignal.eq_def]
  by_cases hd : c.deadline ≤ target
  · refine .inr ⟨.kill, target, _, .forced hd, ?_⟩
    simp [hd, Phase.signal]
  · simp only [hd, decide_false, Bool.false_eq_true, if_false]
    cases previous with
    | none => exact .inr ⟨c.firstPhase, _, false, .first rfl, rfl⟩
    | some s =>
      by_cases hn : target < s.next
      · left
        exact ⟨s, rfl, hn, by simp [hn]⟩
      · right
        refine ⟨s.phase.advance, target + c.grace s.phase.advance, false, ?_, by simp [hn]⟩
        exact .next rfl (Nat.le_of_not_lt hn)

namespace Tracker

variable {σ : Type} {H : Host σ} {t t1 t2 t3 : Tracker σ}

inductive Refused (H : Host σ) (now : Instant) (id : ProcessIdentity) (group : Bool)
    (t : Tracker σ) : Tracker σ → Prop
  | mk {target t1 signal t2} : t.now H now = (target, t1) →
      t1.sendChecked H id group signal = (false, t2) → Refused H now id group t t2

inductive Signalled (H : Host σ) (c : Cleanup) (now : Instant) (id : ProcessIdentity)
    (group : Bool) (previous : Option Sequence) (t : Tracker σ) :
    Tracker σ → Sequence → Bool → Prop
  | mk {target t1 phase shortened t2 later t3} : t.now H now = (target, t1) →
      Due c previous target phase shortened →
      t1.sendChecked H id group phase.signal = (true, t2) → t2.now H target = (later, t3) →
      Signalled H c now id group previous t t3 ⟨phase, later + c.grace phase⟩ shortened

def failShortened (t : Tracker σ) (shortened : Bool) : Tracker σ :=
  if shortened then t.fail .shortened else t

def inGroup (live : List ProcessIdentity) (group : ProcessIdentity) : List ProcessIdentity :=
  live.filter (·.pgid == group.pgid)

def verifies (H : Host σ) (c : Cleanup) (now : Instant) (group : ProcessIdentity)
    (previous : Option Sequence) (t : Tracker σ) : Bool :=
  let (targetNow, t) := t.now H now
  let (_, signal, _) := nextSignal c previous targetNow (c.deadline ≤ targetNow)
  (t.sendChecked H group true (signal.getD 0)).1

inductive GroupTurn (H : Host σ) (c : Cleanup) (now : Instant) (live : List ProcessIdentity)
    (group : ProcessIdentity) (previous : Option Sequence) (covered : List ℕ) (t : Tracker σ) :
    List ℕ × Tracker σ → Prop
  | skipped : GroupTurn H c now live group previous covered t (covered, t)
  | refused {t'} : Refused H now group true t t' →
      GroupTurn H c now live group previous covered t (covered, t')
  | waited {target t1 s t2} : verifies H c now group previous t = true →
      t.now H now = (target, t1) → previous = some s → target < s.next →
      t1.sendChecked H group true 0 = (true, t2) →
      GroupTurn H c now live group previous covered t
        (covered ++ (inGroup live group).map (·.pid),
          (t2.setGroup group s).setMembers (inGroup live group) s)
  | signalled {t' s shortened} : verifies H c now group previous t = true →
      Signalled H c now group true previous t t' s shortened →
      GroupTurn H c now live group previous covered t
        (covered ++ (inGroup live group).map (·.pid),
          ((t'.setGroup group s).failShortened shortened).setMembers (inGroup live group) s)

inductive MemberTurn (H : Host σ) (c : Cleanup) (now : Instant) (member : ProcessIdentity)
    (t : Tracker σ) : Tracker σ → Prop
  | waited {target t'} : t.now H now = (target, t') → MemberTurn H c now member t t'
  | refused {t'} : Refused H now member false t t' → MemberTurn H c now member t t'
  | signalled {t' s shortened} :
      Signalled H c now member false (t.members.lookup member) t t' s shortened →
      MemberTurn H c now member t ((t'.setMembers [member] s).failShortened shortened)

lemma advanceGroup_turn (c : Cleanup) (now : Instant) (live : List ProcessIdentity)
    (group : ProcessIdentity) (previous : Option Sequence) (covered : List ℕ) (t : Tracker σ) :
    GroupTurn H c now live group previous covered t
      (advanceGroup H c now live group previous covered t) := by
  simp only [advanceGroup]
  split
  · exact .skipped
  · generalize hn : t.now H now = n
    obtain ⟨target, t1⟩ := n
    dsimp only
    rcases nextSignal_cases c previous target with ⟨s, hs, hlt, hnext⟩ | ⟨phase, next, b, hdue, hnext⟩
    · rw [hnext]
      dsimp only
      generalize hsc : t1.sendChecked H group true ((none : Option ℕ).getD 0) = r
      obtain ⟨sent, t2⟩ := r
      cases sent with
      | false => exact .refused ⟨hn, hsc⟩
      | true =>
        have hv : verifies H c now group previous t = true := by
          simp only [verifies, hn, hnext]
          exact congrArg Prod.fst hsc
        exact .waited hv hn hs hlt hsc
    · rw [hnext]
      dsimp only
      generalize hsc : t1.sendChecked H group true ((some phase.signal).getD 0) = r
      obtain ⟨sent, t2⟩ := r
      cases sent with
      | false => exact .refused ⟨hn, hsc⟩
      | true =>
        have hv : verifies H c now group previous t = true := by
          simp only [verifies, hn, hnext]
          exact congrArg Prod.fst hsc
        simp only [Option.isSome_some, if_true, afterSignal]
        generalize hl : t2.now H target = l
        obtain ⟨later, t3⟩ := l
        exact .signalled hv ⟨hn, hdue, hsc, hl⟩

lemma advanceMember_turn (c : Cleanup) (now : Instant) (member : ProcessIdentity) (t : Tracker σ) :
    MemberTurn H c now member t (advanceMember H c now member t) := by
  simp only [advanceMember]
  generalize hn : t.now H now = n
  obtain ⟨target, t1⟩ := n
  dsimp only
  rcases nextSignal_cases c (t.members.lookup member) target with
    ⟨s, hs, hlt, hnext⟩ | ⟨phase, next, b, hdue, hnext⟩
  · rw [hnext]
    exact .waited hn
  · rw [hnext]
    dsimp only
    generalize hsc : t1.sendChecked H member false phase.signal = r
    obtain ⟨sent, t2⟩ := r
    cases sent with
    | false => exact .refused ⟨hn, hsc⟩
    | true =>
      simp only [afterSignal]
      generalize hl : t2.now H target = l
      obtain ⟨later, t3⟩ := l
      exact .signalled ⟨hn, hdue, hsc, hl⟩

lemma advanceGroups_induct (c : Cleanup) (now : Instant) (live : List ProcessIdentity)
    {P : List (ProcessIdentity × Option Sequence) → List ℕ → Tracker σ → Prop}
    (hstep : ∀ group previous rest covered t r, P ((group, previous) :: rest) covered t →
      r = advanceGroup H c now live group previous covered t →
      GroupTurn H c now live group previous covered t r → P rest r.1 r.2)
    (l : List (ProcessIdentity × Option Sequence)) (covered : List ℕ) (t : Tracker σ)
    (h : P l covered t) :
    P [] (advanceGroups H c now live l covered t).1 (advanceGroups H c now live l covered t).2 := by
  induction l generalizing covered t with
  | nil => exact h
  | cons entry rest ih =>
    obtain ⟨group, previous⟩ := entry
    exact ih _ _ (hstep _ _ _ _ _ _ h rfl (advanceGroup_turn c now live group previous covered t))

lemma advanceMembers_induct (c : Cleanup) (now : Instant)
    {P : List ProcessIdentity → Tracker σ → Prop}
    (hstep : ∀ member rest t t', P (member :: rest) t → MemberTurn H c now member t t' → P rest t')
    (l : List ProcessIdentity) (t : Tracker σ) (h : P l t) : P [] (advanceMembers H c now l t) := by
  induction l generalizing t with
  | nil => exact h
  | cons member rest ih =>
    exact ih _ (hstep _ _ _ _ h (advanceMember_turn c now member t))

structure Steady (t t' : Tracker σ) : Prop where
  pending : t'.pending = t.pending
  groups : ∀ id, id ∈ t'.groups ↔ id ∈ t.groups

namespace Steady

lemma of_eq (hp : t1.pending = t.pending) (hg : t1.groups = t.groups) : Steady t t1 :=
  ⟨hp, fun _ => by rw [hg]⟩

lemma refl (t : Tracker σ) : Steady t t := of_eq rfl rfl

lemma trans (h : Steady t t1) (h' : Steady t1 t2) : Steady t t2 :=
  ⟨h'.pending.trans h.pending, fun id => (h'.groups id).trans (h.groups id)⟩

lemma checked {id : ProcessIdentity} {group : Bool} {signal : ℕ} {r : Bool × Tracker σ}
    (h : t.sendChecked H id group signal = r) : Steady t r.2 := by
  subst h
  have hc := sendChecked_cases (H := H) t id group signal
  generalize t.sendChecked H id group signal = r at hc
  cases hc with
  | unreadable h | invalid h | refused h | verified h =>
    obtain rfl := read_eq h
    exact of_eq rfl rfl
  | sent h _ _ _ _ hs | noMembers h _ _ _ _ hs | unsent h _ _ _ _ hs =>
    obtain rfl := read_eq h
    obtain rfl := signal_eq hs
    exact of_eq rfl rfl

lemma asked {now target : Instant} (h : t.now H now = (target, t1)) : Steady t t1 := by
  obtain rfl := now_eq h
  exact of_eq rfl rfl

lemma refused {now : Instant} {id : ProcessIdentity} {group : Bool}
    (h : Refused H now id group t t1) : Steady t t1 := by
  obtain ⟨hn, hs⟩ := h
  exact (asked hn).trans (checked hs)

lemma signalled {c : Cleanup} {now : Instant} {id : ProcessIdentity} {group : Bool}
    {previous : Option Sequence} {s : Sequence} {shortened : Bool}
    (h : Signalled H c now id group previous t t1 s shortened) : Steady t t1 := by
  obtain ⟨hn, -, hs, hl⟩ := h
  exact ((asked hn).trans (checked hs)).trans (asked hl)

lemma setGroup (h : Steady t t1) {id : ProcessIdentity} (hid : id ∈ t.groups) (s : Sequence) :
    Steady t (t1.setGroup id s) := by
  refine ⟨h.pending, fun id' => ?_⟩
  have hmem : id' ∈ (t1.setGroup id s).groups ↔ id' = id ∨ id' ∈ t1.groups := AList.mem_insert _
  rw [hmem, h.groups]
  constructor
  · rintro (rfl | h)
    · exact hid
    · exact h
  · exact .inr

lemma failShortened (t : Tracker σ) (b : Bool) : Steady t (t.failShortened b) := by
  rw [Tracker.failShortened]
  split <;> exact of_eq rfl rfl

lemma setMembers (t : Tracker σ) (ids : List ProcessIdentity) (s : Sequence) :
    Steady t (t.setMembers ids s) :=
  of_eq rfl rfl

lemma group {c : Cleanup} {now : Instant} {live : List ProcessIdentity} {g : ProcessIdentity}
    {previous : Option Sequence} {covered : List ℕ} {r : List ℕ × Tracker σ}
    (h : GroupTurn H c now live g previous covered t r) (hg : g ∈ t.groups) : Steady t r.2 := by
  cases h with
  | skipped => exact refl t
  | refused h => exact refused h
  | waited _ hn _ _ hs => exact (((asked hn).trans (checked hs)).setGroup hg _).trans (setMembers ..)
  | signalled _ h =>
    exact (((signalled h).setGroup hg _).trans (failShortened ..)).trans (setMembers ..)

lemma member {c : Cleanup} {now : Instant} {m : ProcessIdentity} (h : MemberTurn H c now m t t1) :
    Steady t t1 := by
  cases h with
  | waited hn => exact asked hn
  | refused h => exact refused h
  | signalled h => exact ((signalled h).trans (setMembers ..)).trans (failShortened ..)

lemma escalate (c : Cleanup) (now : Instant) (live : List ProcessIdentity) (t : Tracker σ) :
    Steady t (Tracker.escalate H c now live t) := by
  rw [Tracker.escalate]
  have hmem : ∀ p ∈ (t.order H t.groups.pairs).1, p.1 ∈ t.groups := by
    intro p hp
    rw [← AList.lookup_isSome]
    exact Option.isSome_iff_exists.mpr ⟨p.2, Table.mem_pairs.mp (mem_order.mp hp)⟩
  have hgroups := advanceGroups_induct (H := H) c now live
    (P := fun rest _ u => Steady t u ∧ ∀ p ∈ rest, p.1 ∈ t.groups)
    (fun g previous rest covered u r h _ hturn =>
      ⟨h.1.trans (group hturn ((h.1.groups g).mpr (h.2 _ List.mem_cons_self))),
        fun p hp => h.2 p (List.mem_cons_of_mem _ hp)⟩)
    (t.order H t.groups.pairs).1 [] (t.order H t.groups.pairs).2 ⟨of_eq rfl rfl, hmem⟩
  exact hgroups.1.trans (advanceMembers_induct (H := H) c now
    (P := fun _ u => Steady _ u) (fun _ _ _ _ h hturn => h.trans (member hturn)) _ _ (refl _))

lemma advance (t : Tracker σ) (now : Instant) : Steady t (t.advance H now).2 := by
  rw [Tracker.advance]
  split
  · exact refl t
  · next c hc =>
    have ho : Steady t (t.order H t.processes.values).2 := of_eq rfl rfl
    generalize t.order H t.processes.values = o at ho
    have he := ho.trans (escalate (H := H) c now
      ((o.1.filter fun p => !p.exited).map (·.identity)) o.2)
    dsimp only
    generalize (o.1.filter fun p => !p.exited).map (·.identity) = live at he ⊢
    generalize Tracker.escalate H c now live o.2 = u at he ⊢
    generalize (if live.isEmpty && u.incompleteScans == 0 then min (c.emptyScans + 1) 255 else 0) = n
    split
    · exact he.trans (of_eq rfl rfl)
    · exact he.trans (of_eq rfl rfl)

lemma sendKills (l : List ProcessIdentity) (t : Tracker σ) : Steady t (Tracker.sendKills H l t) := by
  induction l generalizing t with
  | nil => exact refl t
  | cons id rest ih => exact (checked (H := H) rfl).trans (ih _)

lemma finishScan (t : Tracker σ) : Steady (t.scan H) (t.finishScan H).2 := by
  rw [Tracker.finishScan]
  generalize t.scan H = u
  have ho : Steady u (u.order H u.processes.values).2 := of_eq rfl rfl
  generalize u.order H u.processes.values = o at ho ⊢
  dsimp only
  split
  · exact ho
  · have hf : Steady u (o.2.fail .lateAdoption) := ho.trans (of_eq rfl rfl)
    exact hf.trans (sendKills _ _)

end Steady

end Tracker

end Forcola.Native
