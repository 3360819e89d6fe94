import Mathlib.Data.List.Induction
import Mathlib.Data.List.Infix
import Mathlib.Data.List.Nodup
import Mathlib.Order.Nat

/-! The distinct items of a sequence in the order of their first occurrence, up to a bound. -/

namespace Forcola.Library.FirstSeen

variable {α : Type*} [DecidableEq α]

def distinct (xs : List α) : List α :=
  xs.eraseDups

def kept (bound : ℕ) (xs : List α) : List α :=
  (distinct xs).take bound

/-- More than `bound` distinct items came by. -/
def Overflows (bound : ℕ) (xs : List α) : Prop :=
  bound < (distinct xs).length

variable {bound : ℕ} {xs ys : List α} {x : α}

lemma distinct_snoc (xs : List α) (x : α) :
    distinct (xs ++ [x]) = if x ∈ xs then distinct xs else distinct xs ++ [x] := by
  rw [distinct, List.eraseDups_append]
  by_cases h : x ∈ xs
  · simp [List.removeAll, h, distinct]
  · simp [List.removeAll, h, distinct, List.eraseDups_cons]

lemma mem_distinct : x ∈ distinct xs ↔ x ∈ xs := by
  induction xs using List.reverseRecOn with
  | nil => rfl
  | append_singleton xs y ih =>
    rw [distinct_snoc]
    split
    · next h =>
      rw [ih, List.mem_append, List.mem_singleton]
      constructor
      · exact .inl
      · rintro (hx | rfl)
        · exact hx
        · exact h
    · rw [List.mem_append, List.mem_append, ih]

lemma nodup_distinct (xs : List α) : (distinct xs).Nodup := by
  induction xs using List.reverseRecOn with
  | nil => exact List.nodup_nil
  | append_singleton xs y ih =>
    rw [distinct_snoc]
    split
    · exact ih
    · next h =>
      rw [List.nodup_append]
      refine ⟨ih, List.nodup_singleton y, fun a ha b hb => ?_⟩
      obtain rfl := List.mem_singleton.mp hb
      rintro rfl
      exact h (mem_distinct.mp ha)

@[simp] lemma kept_nil : kept bound ([] : List α) = [] :=
  List.take_nil

lemma overflows_nil : ¬Overflows bound ([] : List α) :=
  Nat.not_lt_zero _

lemma nodup_kept : (kept bound xs).Nodup :=
  (nodup_distinct xs).sublist (List.take_sublist _ _)

lemma length_kept_le : (kept bound xs).length ≤ bound :=
  List.length_take_le _ _

lemma kept_of_room (h : (kept bound xs).length < bound) :
    kept bound xs = distinct xs ∧ ¬Overflows bound xs := by
  have hle : (distinct xs).length ≤ bound := by
    rw [kept, List.length_take] at h
    omega
  exact ⟨List.take_of_length_le hle, not_lt.mpr hle⟩

lemma kept_seen (h : x ∈ kept bound xs) :
    kept bound (xs ++ [x]) = kept bound xs ∧ (Overflows bound (xs ++ [x]) ↔ Overflows bound xs) := by
  have hmem : x ∈ xs := mem_distinct.mp (List.mem_of_mem_take h)
  rw [kept, Overflows, distinct_snoc, if_pos hmem]
  exact ⟨rfl, Iff.rfl⟩

lemma kept_full (h : x ∉ kept bound xs) (hfull : bound ≤ (kept bound xs).length) :
    kept bound (xs ++ [x]) = kept bound xs ∧ Overflows bound (xs ++ [x]) := by
  have hlen : bound ≤ (distinct xs).length :=
    hfull.trans (List.length_take_le' _ _)
  rw [kept, Overflows, distinct_snoc]
  split
  · next hmem =>
    refine ⟨rfl, lt_of_le_of_ne hlen fun heq => h ?_⟩
    rw [kept, List.take_of_length_le heq.symm.le]
    exact mem_distinct.mpr hmem
  · rw [List.take_append_of_le_length hlen, List.length_append]
    exact ⟨rfl, Nat.lt_succ_of_le hlen⟩

lemma kept_new (h : x ∉ kept bound xs) (hroom : (kept bound xs).length < bound) :
    kept bound (xs ++ [x]) = kept bound xs ++ [x] ∧ ¬Overflows bound (xs ++ [x]) := by
  obtain ⟨hall, -⟩ := kept_of_room hroom
  rw [hall] at h hroom ⊢
  have hmem : x ∉ xs := fun hx => h (mem_distinct.mpr hx)
  rw [kept, Overflows, distinct_snoc, if_neg hmem]
  have hlen : (distinct xs ++ [x]).length ≤ bound := by
    rw [List.length_append]
    exact hroom
  exact ⟨List.take_of_length_le hlen, not_lt.mpr hlen⟩

lemma distinct_starts (xs ys : List α) : distinct xs <+: distinct (xs ++ ys) := by
  rw [distinct, distinct, List.eraseDups_append]
  exact List.prefix_append _ _

lemma Overflows.append (h : Overflows bound xs) (ys : List α) : Overflows bound (xs ++ ys) :=
  lt_of_lt_of_le h (distinct_starts xs ys).length_le

lemma kept_prefix (xs ys : List α) : kept bound xs <+: kept bound (xs ++ ys) :=
  List.IsPrefix.take (distinct_starts xs ys) bound

end Forcola.Library.FirstSeen
