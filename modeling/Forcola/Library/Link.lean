import Forcola.Library.Transition

/-! Two transition systems that send each other messages over first-in first-out channels. -/

namespace Forcola.Library.Link

open Transition

/-- A system between two channels: the message a step takes in, and all it has sent, oldest first. -/
structure End (S L I O : Type*) where
  step : S → L → Option S
  takes : L → Option I
  sent : S → List O
  grows : ∀ {s : S} {l : L} {t : S}, step s l = some t → sent s <+: sent t

structure State (A B : Type*) where
  left : A
  right : B
  toLeft : ℕ
  toRight : ℕ

inductive Label (L M : Type*)
  | left (l : L)
  | right (l : M)

variable {A B L M I J O P : Type*}

def Label.left? : Label L M → Option L
  | .left l => some l
  | .right _ => none

def Label.right? : Label L M → Option M
  | .left _ => none
  | .right l => some l

def State.begin (left : A) (right : B) : State A B := ⟨left, right, 0, 0⟩

def receive (fits : P → I → Bool) (sent : List P) (taken : ℕ) : Option I → Option ℕ
  | none => some taken
  | some i => (sent[taken]?).bind fun p => if fits p i then some (taken + 1) else none

variable (a : End A L I O) (b : End B M J P) (fitsLeft : P → I → Bool) (fitsRight : O → J → Bool)

def step (s : State A B) : Label L M → Option (State A B)
  | .left l => (receive fitsLeft (b.sent s.right) s.toLeft (a.takes l)).bind fun n =>
      (a.step s.left l).map fun t => { s with left := t, toLeft := n }
  | .right l => (receive fitsRight (a.sent s.left) s.toRight (b.takes l)).bind fun n =>
      (b.step s.right l).map fun t => { s with right := t, toRight := n }

/-- The first messages of a channel, as they were taken. -/
structure Delivered (fits : P → I → Bool) (sent : List P) (taken : ℕ) (messages : List I) : Prop where
  le : taken ≤ sent.length
  fits : List.Forall₂ (fun p i => fits p i = true) (sent.take taken) messages

structure Linked (s₀ : State A B) (labels : List (Label L M)) (s : State A B) : Prop where
  left : Run (fun s l t => a.step s l = some t) s₀.left (labels.filterMap Label.left?) s.left
  right : Run (fun s l t => b.step s l = some t) s₀.right (labels.filterMap Label.right?) s.right
  toLeft : Delivered fitsLeft (b.sent s.right) s.toLeft
    ((labels.filterMap Label.left?).filterMap a.takes)
  toRight : Delivered fitsRight (a.sent s.left) s.toRight
    ((labels.filterMap Label.right?).filterMap b.takes)

variable {a b fitsLeft fitsRight} {fits : P → I → Bool} {sent sent' : List P} {n m : ℕ}
  {messages : List I} {s₀ s t : State A B} {labels : List (Label L M)}

namespace Delivered

lemma nil (fits : P → I → Bool) (sent : List P) : Delivered fits sent 0 [] :=
  ⟨Nat.zero_le _, .nil⟩

lemma grows (h : Delivered fits sent n messages) (hs : sent <+: sent') :
    Delivered fits sent' n messages := by
  obtain ⟨more, rfl⟩ := hs
  refine ⟨Nat.le_trans h.le (by simp), ?_⟩
  rw [List.take_append_of_le_length h.le]
  exact h.fits

lemma receive {i : Option I} (h : Delivered fits sent n messages)
    (hr : Link.receive fits sent n i = some m) : Delivered fits sent m (messages ++ i.toList) := by
  cases i with
  | none =>
    obtain rfl := Option.some.inj hr
    rw [Option.toList_none, List.append_nil]
    exact h
  | some i =>
    obtain ⟨p, hp, hr⟩ := Option.bind_eq_some_iff.mp hr
    split at hr
    · next hfits =>
      obtain rfl := Option.some.inj hr
      obtain ⟨hlt, rfl⟩ := List.getElem?_eq_some_iff.mp hp
      refine ⟨hlt, ?_⟩
      rw [List.take_add_one, hp]
      exact List.rel_append h.fits (.cons hfits .nil)
    · cases hr

end Delivered

lemma filterMap_snoc {X Y : Type*} (f : X → Option Y) (xs : List X) (x : X) :
    (xs ++ [x]).filterMap f = xs.filterMap f ++ (f x).toList := by
  rw [List.filterMap_append]
  cases h : f x <;> simp [h]

lemma Linked.step {l : Label L M} (h : Linked a b fitsLeft fitsRight s₀ labels s)
    (hs : Link.step a b fitsLeft fitsRight s l = some t) :
    Linked a b fitsLeft fitsRight s₀ (labels ++ [l]) t := by
  cases l with
  | left l =>
    obtain ⟨n, hn, hs⟩ := Option.bind_eq_some_iff.mp hs
    obtain ⟨t, ht, rfl⟩ := Option.map_eq_some_iff.mp hs
    constructor
    · rw [filterMap_snoc]
      exact h.left.snoc ht
    · rw [filterMap_snoc, Label.right?, Option.toList_none, List.append_nil]
      exact h.right
    · rw [filterMap_snoc, Label.left?, Option.toList_some, filterMap_snoc]
      exact h.toLeft.receive hn
    · rw [filterMap_snoc, Label.right?, Option.toList_none, List.append_nil]
      exact h.toRight.grows (a.grows ht)
  | right l =>
    obtain ⟨n, hn, hs⟩ := Option.bind_eq_some_iff.mp hs
    obtain ⟨t, ht, rfl⟩ := Option.map_eq_some_iff.mp hs
    constructor
    · rw [filterMap_snoc, Label.left?, Option.toList_none, List.append_nil]
      exact h.left
    · rw [filterMap_snoc]
      exact h.right.snoc ht
    · rw [filterMap_snoc, Label.left?, Option.toList_none, List.append_nil]
      exact h.toLeft.grows (b.grows ht)
    · rw [filterMap_snoc, Label.right?, Option.toList_some, filterMap_snoc]
      exact h.toRight.receive hn

lemma linked_begin (left : A) (right : B) :
    Linked a b fitsLeft fitsRight (.begin left right) [] (.begin left right) :=
  ⟨.nil _, .nil _, .nil _ _, .nil _ _⟩

theorem run_linked {left : A} {right : B}
    (h : Run (fun s l t => Link.step a b fitsLeft fitsRight s l = some t) (.begin left right) labels s) :
    Linked a b fitsLeft fitsRight (.begin left right) labels s :=
  h.history (fun _ _ _ _ hi hs => hi.step hs) (linked_begin left right)

end Forcola.Library.Link
