import Mathlib.Data.List.Basic

/-! Streams that arrive in pieces, with interruptions, and loops that fill a buffer from them. -/

namespace Forcola.Library.Pieces

variable {α β ε : Type*}

/-- What a read finds: at most `n + 1` items, an interruption, or a failure. -/
inductive Offer (ε : Type*)
  | piece (n : ℕ)
  | interrupted
  | failed (e : ε)

structure Reader (α ε : Type*) where
  items : List α
  offers : List (Offer ε)

inductive Answer (α ε : Type*)
  | data (items : List α)
  | interrupted
  | failed (e : ε)

/-- No items mean the end of the stream. -/
def Reader.read (r : Reader α ε) (size : ℕ) : Answer α ε × Reader α ε :=
  match r.offers with
  | [] => (.data (r.items.take size), ⟨r.items.drop size, []⟩)
  | .piece n :: offers =>
    (.data (r.items.take (min size (n + 1))), ⟨r.items.drop (min size (n + 1)), offers⟩)
  | .interrupted :: offers => (.interrupted, ⟨r.items, offers⟩)
  | .failed e :: offers => (.failed e, ⟨r.items, offers⟩)

variable {r r' : Reader α ε} {size want : ℕ} {items filled : List α} {stop : List α → Except ε β}
  {done : List α → β}

lemma read_offers (h : r.read size = (.data items, r')) : r'.offers.length ≤ r.offers.length := by
  obtain ⟨xs, offers⟩ := r
  cases offers with
  | nil =>
    cases h
    exact Nat.le_refl _
  | cons offer offers =>
    cases offer <;> cases h
    exact Nat.le_succ _

lemma read_interrupted (h : r.read size = (.interrupted, r')) :
    r'.items = r.items ∧ ∃ offer, r.offers = offer :: r'.offers := by
  obtain ⟨xs, offers⟩ := r
  cases offers with
  | nil => cases h
  | cons offer offers =>
    cases offer <;> cases h
    exact ⟨rfl, _, rfl⟩

def fill (stop : List α → Except ε β) (done : List α → β) (want : ℕ) (r : Reader α ε)
    (filled : List α) : Except ε β × Reader α ε :=
  if filled.length < want then
    match h : r.read (want - filled.length) with
    | (.data [], r') => (stop filled, r')
    | (.data (x :: xs), r') => fill stop done want r' (filled ++ x :: xs)
    | (.interrupted, r') => fill stop done want r' filled
    | (.failed e, r') => (.error e, r')
  else (.ok (done filled), r)
termination_by r.offers.length + (want - filled.length)
decreasing_by
  · have hle := read_offers h
    rw [List.length_append, List.length_cons]
    omega
  · obtain ⟨-, offer, ho⟩ := read_interrupted h
    rw [ho, List.length_cons]
    omega

def Steady (r : Reader α ε) : Prop := ∀ e, .failed e ∉ r.offers

lemma Steady.read (h : Steady r) (hr : r.read size = (.data items, r')) :
    Steady r' ∧ r.items = items ++ r'.items ∧ items.length ≤ size ∧
      (0 < size → items = [] → r.items = []) := by
  obtain ⟨xs, offers⟩ := r
  cases offers with
  | nil =>
    cases hr
    refine ⟨fun e => List.not_mem_nil, (List.take_append_drop _ _).symm, List.length_take_le _ _, ?_⟩
    intro hs hnil
    rcases List.take_eq_nil_iff.mp hnil with hz | hx
    · omega
    · exact hx
  | cons offer offers =>
    cases offer <;> cases hr
    refine ⟨fun e he => h e (List.mem_cons_of_mem _ he), (List.take_append_drop _ _).symm, ?_, ?_⟩
    · exact Nat.le_trans (List.length_take_le _ _) (Nat.min_le_left _ _)
    · intro hs hnil
      rcases List.take_eq_nil_iff.mp hnil with hz | hx
      · omega
      · exact hx

theorem fill_steady (h : Steady r) (hle : filled.length ≤ want) :
    ∃ r', Steady r' ∧
      ((want ≤ (filled ++ r.items).length ∧ r'.items = (filled ++ r.items).drop want ∧
        fill stop done want r filled = (.ok (done ((filled ++ r.items).take want)), r')) ∨
      ((filled ++ r.items).length < want ∧ r'.items = [] ∧
        fill stop done want r filled = (stop (filled ++ r.items), r'))) := by
  fun_induction fill stop done want r filled with
  | case1 r filled hlt r' hr =>
    obtain ⟨hsteady, hitems, -, hend⟩ := h.read hr
    have hnil : r.items = [] := hend (by omega) rfl
    refine ⟨r', hsteady, .inr ⟨?_, ?_, ?_⟩⟩
    · rwa [hnil, List.append_nil]
    · rwa [hnil, List.nil_append, eq_comm] at hitems
    · rw [hnil, List.append_nil]
  | case2 r filled hlt x xs r' hr ih =>
    obtain ⟨hsteady, hitems, hsize, -⟩ := h.read hr
    have hfits : (filled ++ x :: xs).length ≤ want := by
      rw [List.length_append]
      omega
    have hall : filled ++ r.items = (filled ++ x :: xs) ++ r'.items := by
      rw [hitems, List.append_assoc]
    rw [hall]
    exact ih hsteady hfits
  | case3 r filled hlt r' hr ih =>
    obtain ⟨hitems, offer, ho⟩ := read_interrupted hr
    rw [← hitems]
    exact ih (fun e he => h e (ho ▸ List.mem_cons_of_mem _ he)) hle
  | case4 r filled hlt e r' hr =>
    exfalso
    obtain ⟨xs, offers⟩ := r
    cases offers with
    | nil => cases hr
    | cons offer offers =>
      cases offer <;> cases hr
      exact h e List.mem_cons_self
  | case5 r filled hge =>
    have heq : filled.length = want := by omega
    refine ⟨r, h, .inl ⟨?_, ?_, ?_⟩⟩
    · rw [List.length_append]
      omega
    · rw [← heq, List.drop_left]
    · rw [← heq, List.take_left]

end Forcola.Library.Pieces
