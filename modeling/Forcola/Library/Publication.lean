import Mathlib.Data.List.Basic
import Mathlib.Order.Lattice

/-! A list published in a table, each entry before the count that covers it, and its readers. -/

namespace Forcola.Library.Publication

variable {α : Type*}

inductive Write (α : Type*)
  | entry (index : ℕ) (value : α)
  | count (n : ℕ)

structure Rows (α : Type*) where
  entry : ℕ → Option α
  count : ℕ

namespace Rows

def empty : Rows α := ⟨fun _ => none, 0⟩

def write (r : Rows α) : Write α → Rows α
  | .entry index value => { r with entry := fun i => if i = index then some value else r.entry i }
  | .count n => { r with count := n }

end Rows

def after (writes : List (Write α)) (r : Rows α) (n : ℕ) : Rows α :=
  (writes.take n).foldl Rows.write r

def publish : ℕ → List α → List (Write α)
  | _, [] => []
  | k, a :: as => .entry (k + 1) a :: .count (k + 1) :: publish (k + 1) as

/-- A reader that takes the count at one moment and each entry at a moment of its own. -/
def read (history : ℕ → Rows α) (moment : ℕ) (later : ℕ → ℕ) : Option (List α) :=
  (List.range' 1 (history moment).count).mapM fun i => (history (later i)).entry i

variable {as : List α} {r : Rows α} {k n i j : ℕ}

lemma after_zero (writes : List (Write α)) : after writes r 0 = r := by
  rw [after, List.take_zero, List.foldl_nil]

lemma after_publish (a : α) (as : List α) (n : ℕ) : after (publish k (a :: as)) r (n + 2) =
    after (publish (k + 1) as) ((r.write (.entry (k + 1) a)).write (.count (k + 1))) n :=
  rfl

lemma after_count (hr : r.count = k) :
    (after (publish k as) r n).count = k + min (n / 2) as.length := by
  induction as generalizing k r n with
  | nil => simp [publish, after, hr]
  | cons a as ih =>
    match n with
    | 0 => simpa [after_zero] using hr
    | 1 => simpa [after, publish, Rows.write] using hr
    | n + 2 =>
      have hrest := @ih ((r.write (.entry (k + 1) a)).write (.count (k + 1))) (k + 1) n rfl
      rw [after_publish, hrest, List.length_cons]
      omega

lemma after_kept (hi : i ≤ k) : (after (publish k as) r n).entry i = r.entry i := by
  induction as generalizing k r n with
  | nil => simp [publish, after]
  | cons a as ih =>
    have hwrite : (r.write (.entry (k + 1) a)).entry i = r.entry i := by
      simp [Rows.write, show i ≠ k + 1 by omega]
    match n with
    | 0 => rw [after_zero]
    | 1 => exact hwrite
    | n + 2 =>
      rw [after_publish, ih (by omega)]
      exact hwrite

lemma after_entry (hj : j < as.length) (hn : j < (n + 1) / 2) :
    (after (publish k as) r n).entry (k + j + 1) = as[j]? := by
  induction as generalizing k r n j with
  | nil => cases hj
  | cons a as ih =>
    rw [List.length_cons] at hj
    match n with
    | 0 => omega
    | 1 =>
      obtain rfl : j = 0 := by omega
      simp [after, publish, Rows.write]
    | n + 2 =>
      rw [after_publish]
      cases j with
      | zero =>
        rw [after_kept (by omega)]
        simp [Rows.write]
      | succ j =>
        have hentry := @ih ((r.write (.entry (k + 1) a)).write (.count (k + 1))) (k + 1) n j
          (by omega) (by omega)
        rw [List.getElem?_cons_succ, ← hentry]
        congr 1
        omega

lemma mapM_entries {f : ℕ → Option α} (hlen : n ≤ as.length) (hf : ∀ j < n, f (k + j) = as[j]?) :
    (List.range' k n).mapM f = some (as.take n) := by
  induction n generalizing k as with
  | zero => rfl
  | succ n ih =>
    cases as with
    | nil => simp at hlen
    | cons a as =>
      have hhead : f k = some a := hf 0 (Nat.succ_pos n)
      have htail : (List.range' (k + 1) n).mapM f = some (as.take n) := by
        apply ih
        · simpa using hlen
        · intro j hj
          have hsucc := hf (j + 1) (by omega)
          rw [List.getElem?_cons_succ] at hsucc
          rw [← hsucc]
          congr 1
          omega
      rw [List.range'_succ, List.mapM_cons, hhead, htail]
      rfl

lemma read_prefix {moment : ℕ} {later : ℕ → ℕ} (h : ∀ i, moment ≤ later i) :
    read (after (publish 0 as) .empty) moment later = some (as.take (moment / 2)) := by
  have hcount : (after (publish 0 as) .empty moment).count = min (moment / 2) as.length := by
    have h := @after_count α as .empty 0 moment rfl
    rwa [Nat.zero_add] at h
  rw [read, hcount, List.take_eq_take_min]
  apply mapM_entries
  · exact min_le_right _ _
  · intro j hj
    have hlater := h (1 + j)
    have hentry := @after_entry α as .empty 0 (later (1 + j)) j (by omega) (by omega)
    rw [← hentry]
    congr 1
    omega

end Forcola.Library.Publication
