import Mathlib.Data.List.AList
import Mathlib.Data.Finset.Card

/-! Finite tables with unique keys, on top of Mathlib's association lists. -/

namespace Forcola.Library

/-- A finite map; the order of its entries carries no meaning. -/
abbrev Table (K V : Type) := AList (fun _ : K => V)

namespace Table

variable {K V : Type}

def pairs (t : Table K V) : List (K × V) :=
  t.entries.map fun e => (e.1, e.2)

def values (t : Table K V) : List V :=
  t.entries.map fun e => e.2

def size (t : Table K V) : ℕ :=
  t.entries.length

def retain (p : K → V → Bool) (t : Table K V) : Table K V :=
  ⟨t.entries.filter fun e => p e.1 e.2,
    t.nodupKeys.sublist List.filter_sublist⟩

@[simp] lemma values_empty : values (∅ : Table K V) = [] := rfl

@[simp] lemma pairs_empty : pairs (∅ : Table K V) = [] := rfl

variable [DecidableEq K] {t : Table K V} {k : K} {v : V} {p : K → V → Bool}

lemma lookup_iff : t.lookup k = some v ↔ (⟨k, v⟩ : Sigma fun _ : K => V) ∈ t.entries :=
  AList.mem_lookup_iff

lemma mem_pairs : (k, v) ∈ t.pairs ↔ t.lookup k = some v := by
  rw [lookup_iff]
  simp only [pairs, List.mem_map, Prod.mk.injEq]
  constructor
  · rintro ⟨⟨k', v'⟩, h, rfl, rfl⟩
    exact h
  · intro h
    exact ⟨_, h, rfl, rfl⟩

lemma mem_values : v ∈ t.values ↔ ∃ k, t.lookup k = some v := by
  simp only [values, List.mem_map, lookup_iff]
  constructor
  · rintro ⟨⟨k, v'⟩, h, rfl⟩
    exact ⟨k, h⟩
  · rintro ⟨k, h⟩
    exact ⟨_, h, rfl⟩

lemma mem_keys : k ∈ t.keys ↔ ∃ v, t.lookup k = some v := by
  rw [← AList.mem_keys, ← AList.lookup_isSome, Option.isSome_iff_exists]

lemma lookup_retain : (t.retain p).lookup k = some v ↔ t.lookup k = some v ∧ p k v = true := by
  simp [lookup_iff, retain]

lemma map_values {f : V → K} (h : ∀ k v, t.lookup k = some v → f v = k) :
    t.values.map f = t.keys := by
  rw [values, AList.keys, List.keys, List.map_map]
  apply List.map_congr_left
  intro e he
  exact h e.1 e.2 (lookup_iff.mpr he)

lemma size_insert_of_mem (h : k ∈ t) : size (t.insert k v) = t.size := by
  have hkeys : k ∈ t.entries.keys := h
  obtain ⟨b, l₁, l₂, -, hl, hk⟩ := List.exists_of_kerase hkeys
  rw [size, size, AList.entries_insert, hk, hl]
  simp only [List.length_cons, List.length_append]
  omega

lemma size_erase_le (t : Table K V) (k : K) : size (t.erase k) ≤ t.size :=
  (List.kerase_sublist k t.entries).length_le

lemma size_insert_le (t : Table K V) (k : K) (v : V) : size (t.insert k v) ≤ t.size + 1 := by
  rw [size, AList.entries_insert, List.length_cons]
  exact Nat.succ_le_succ (size_erase_le t k)

lemma size_le_card {F : Finset K} (h : ∀ k ∈ t.keys, k ∈ F) : t.size ≤ F.card := by
  have hlen : t.keys.toFinset.card = t.size := by
    rw [List.toFinset_card_of_nodup t.keys_nodup, size, AList.keys, List.keys, List.length_map]
  rw [← hlen]
  apply Finset.card_le_card
  intro k hk
  exact h k (List.mem_toFinset.mp hk)

lemma size_ge_card {F : Finset K} (h : ∀ k ∈ F, k ∈ t) : F.card ≤ t.size := by
  have hsub : F ⊆ t.keys.toFinset := by
    intro k hk
    exact List.mem_toFinset.mpr (AList.mem_keys.mp (h k hk))
  have hlen : t.keys.length = t.size := by
    rw [size, AList.keys, List.keys, List.length_map]
  exact (Finset.card_le_card hsub).trans ((List.toFinset_card_le _).trans hlen.le)

lemma size_lt_card {F : Finset K} (h : ∀ k ∈ t.keys, k ∈ F) (hk : k ∈ F)
    (hn : t.lookup k = none) : t.size < F.card := by
  have hle : t.size ≤ (F.erase k).card := by
    apply size_le_card
    intro k' hm
    refine Finset.mem_erase.mpr ⟨?_, h k' hm⟩
    rintro rfl
    obtain ⟨v, hv⟩ := mem_keys.mp hm
    simp [hv] at hn
  have hpos : 0 < F.card := Finset.card_pos.mpr ⟨k, hk⟩
  rw [Finset.card_erase_of_mem hk] at hle
  omega

end Table

end Forcola.Library
