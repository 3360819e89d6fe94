import Mathlib.Algebra.Order.Ring.Int
import Mathlib.Data.List.Basic
import Mathlib.Tactic.Common

/-! Fields between separators, the last item of a kind, and numerals read with a bound. -/

namespace Forcola.Library.Text

variable {α : Type*} {p : α → Bool} {field front rest : List α} {sep : α}

def fields (p : α → Bool) (text : List α) : List (List α) :=
  (text.splitOnP p).filter fun field => !field.isEmpty

lemma fields_separator (hsep : p sep = true) (rest : List α) :
    fields p (sep :: rest) = fields p rest := by
  rw [fields, List.splitOnP_cons_eq_if_splitOnPPrepend, if_pos hsep]
  rfl

lemma fields_field (hfield : ∀ x ∈ field, p x = false) (hne : field ≠ []) (hsep : p sep = true)
    (rest : List α) : fields p (field ++ sep :: rest) = field :: fields p (sep :: rest) := by
  have hsplit : (field ++ sep :: rest).splitOnP p = field :: rest.splitOnP p := by
    apply List.splitOnP_append_cons_of_forall_mem
    · intro x hx
      rw [hfield x hx]
    · exact hsep
  rw [fields_separator hsep, fields, hsplit, List.filter_cons_of_pos (by simpa using hne)]
  rfl

theorem fields_flatMap {texts : List (List α)} (htexts : ∀ t ∈ texts, t ≠ [] ∧ ∀ x ∈ t, p x = false)
    {last : α} (hsep : p sep = true) (hlast : p last = true) :
    fields p (texts.flatMap (fun t => sep :: t) ++ [last]) = texts := by
  induction texts with
  | nil =>
    rw [List.flatMap_nil, List.nil_append, fields_separator hlast]
    rfl
  | cons t texts ih =>
    obtain ⟨hne, hfield⟩ := htexts t List.mem_cons_self
    have hrest := ih fun t' ht' => htexts t' (List.mem_cons_of_mem _ ht')
    rw [List.flatMap_cons, List.cons_append, List.cons_append, fields_separator hsep,
      List.append_assoc]
    cases texts with
    | nil =>
      rw [List.flatMap_nil, List.nil_append] at hrest ⊢
      rw [fields_field hfield hne hlast, hrest]
    | cons t' texts =>
      rw [List.flatMap_cons, List.cons_append, List.cons_append] at hrest ⊢
      rw [fields_field hfield hne hsep, hrest]

def lastIdx? (p : α → Bool) (xs : List α) : Option ℕ :=
  (xs.reverse.findIdx? p).map fun i => xs.length - 1 - i

lemma lastIdx?_append (hsep : p sep = true) (hrest : ∀ x ∈ rest, p x = false) :
    lastIdx? p (front ++ sep :: rest) = some front.length := by
  have hnone : rest.reverse.findIdx? p = none := by
    rw [List.findIdx?_eq_none_iff]
    intro x hx
    exact hrest x (List.mem_reverse.mp hx)
  have hreverse : (front ++ sep :: rest).reverse = rest.reverse ++ sep :: front.reverse := by
    rw [List.reverse_append, List.reverse_cons, List.append_assoc]
    rfl
  rw [lastIdx?, hreverse, List.findIdx?_append, hnone, List.findIdx?_cons, hsep, if_pos rfl,
    List.length_append, List.length_cons]
  simp only [Option.none_or, Option.map_some, List.length_reverse]
  congr 1
  omega

lemma lastIdx?_eq_none : lastIdx? p front = none ↔ ∀ x ∈ front, p x = false := by
  rw [lastIdx?, Option.map_eq_none_iff, List.findIdx?_eq_none_iff]
  constructor
  · intro h x hx
    exact h x (List.mem_reverse.mpr hx)
  · intro h x hx
    exact h x (List.mem_reverse.mp hx)

def readDigits (bound : ℕ) : List Char → ℕ → Option ℕ
  | [], value => some value
  | c :: cs, value =>
    if c.isDigit then
      if 10 * value + (c.toNat - '0'.toNat) < bound then
        readDigits bound cs (10 * value + (c.toNat - '0'.toNat))
      else none
    else none

variable {bound value n : ℕ} {cs : List Char}

lemma le_ofDigitChars (cs : List Char) (value : ℕ) : value ≤ Nat.ofDigitChars 10 cs value := by
  induction cs generalizing value with
  | nil => exact Nat.le_of_eq Nat.ofDigitChars_nil.symm
  | cons c cs ih =>
    rw [Nat.ofDigitChars_cons]
    apply Nat.le_trans _ (ih _)
    omega

theorem readDigits_eq_some (h : value < bound) : readDigits bound cs value = some n ↔
    (∀ c ∈ cs, c.isDigit = true) ∧ n < bound ∧ n = Nat.ofDigitChars 10 cs value := by
  induction cs generalizing value with
  | nil =>
    rw [readDigits, Nat.ofDigitChars_nil]
    constructor
    · rintro ⟨⟩
      exact ⟨fun c hc => absurd hc List.not_mem_nil, h, rfl⟩
    · rintro ⟨-, -, rfl⟩
      rfl
  | cons c cs ih =>
    have hle := le_ofDigitChars cs (10 * value + (c.toNat - '0'.toNat))
    rw [readDigits, Nat.ofDigitChars_cons, List.forall_mem_cons]
    by_cases hdigit : c.isDigit = true
    · by_cases hlt : 10 * value + (c.toNat - '0'.toNat) < bound
      · rw [if_pos hdigit, if_pos hlt, ih hlt]
        exact ⟨fun hr => ⟨⟨hdigit, hr.1⟩, hr.2⟩, fun hr => ⟨hr.1.2, hr.2⟩⟩
      · rw [if_pos hdigit, if_neg hlt]
        refine ⟨nofun, ?_⟩
        rintro ⟨-, hn, rfl⟩
        omega
    · rw [if_neg hdigit]
      exact ⟨nofun, fun hr => absurd hr.1.1 hdigit⟩

theorem readDigits_toDigits (h : n < bound) : readDigits bound (Nat.toDigits 10 n) 0 = some n := by
  rw [readDigits_eq_some (Nat.lt_of_le_of_lt (Nat.zero_le n) h)]
  refine ⟨?_, h, Nat.ofDigitChars_ten_toDigits.symm⟩
  intro c hc
  exact Nat.isDigit_of_mem_toDigits (by decide) (by decide) hc

end Forcola.Library.Text
