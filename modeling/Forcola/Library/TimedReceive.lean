import Mathlib
import Forcola.Library.Transition

/-! Processes that wait in timed receives, and a clock that may be any one that never goes back. -/

namespace Forcola.Library.TimedReceive

open Transition

variable {S L : Type*}

/-- `waiting` is the number of clock readings made before the receive the process is in, and its
timeout; the labels that `expires` holds of are its `after` clauses. -/
structure Process (S L : Type*) where
  step : S → L → Option S
  expires : L → Prop
  waiting : S → Option (ℕ × ℤ)

/-- A step of the process in which no timer fires early: what the clock shows next is at least the
timeout after what it showed last. -/
def Process.Timed (p : Process S L) (clock : ℕ → ℤ) (s : S) (l : L) (t : S) : Prop :=
  p.step s l = some t ∧
    (p.expires l → ∀ n wait, p.waiting s = some (n + 1, wait) → clock n + wait ≤ clock (n + 1))

structure System (S L : Type*) where
  process : (ℕ → ℤ) → Process S L
  start : (ℕ → ℤ) → S
  /-- The clock readings made so far. -/
  reads : S → ℕ

namespace System

def Reaches (y : System S L) (clock : ℕ → ℤ) (s : S) : Prop :=
  ∃ labels, Run ((y.process clock).Timed clock) (y.start clock) labels s

def Legal (y : System S L) (limit : ℤ) : Prop :=
  ∀ clock, Monotone clock → ∀ s, y.Reaches clock s →
    ∀ n wait, (y.process clock).waiting s = some (n, wait) → 0 ≤ wait ∧ wait ≤ limit

def Patient (y : System S L) (gaveUp : S → Prop) (due : (ℕ → ℤ) → S → ℤ) : Prop :=
  ∀ clock, Monotone clock → ∀ s, y.Reaches clock s → gaveUp s → due clock s ≤ clock (y.reads s)

variable {y : System S L} {clock : ℕ → ℤ} {s : S}

lemma Reaches.invariant {I : S → Prop} (h : y.Reaches clock s) (hstart : I (y.start clock))
    (hstep : ∀ s l t, I s → (y.process clock).Timed clock s l t → I t) : I s := by
  obtain ⟨labels, hrun⟩ := h
  exact hrun.invariant hstep hstart

lemma Legal.of_invariant {limit : ℤ} (I : (ℕ → ℤ) → S → Prop)
    (hstart : ∀ clock, Monotone clock → I clock (y.start clock))
    (hstep : ∀ clock, Monotone clock → ∀ s l t, I clock s →
      (y.process clock).Timed clock s l t → I clock t)
    (hwait : ∀ clock, Monotone clock → ∀ s, I clock s →
      ∀ n wait, (y.process clock).waiting s = some (n, wait) → 0 ≤ wait ∧ wait ≤ limit) :
    y.Legal limit := by
  intro clock hclock s hs
  exact hwait clock hclock s (hs.invariant (hstart clock hclock) (hstep clock hclock))

lemma Patient.of_invariant {gaveUp : S → Prop} {due : (ℕ → ℤ) → S → ℤ}
    (I : (ℕ → ℤ) → S → Prop) (hstart : ∀ clock, Monotone clock → I clock (y.start clock))
    (hstep : ∀ clock, Monotone clock → ∀ s l t, I clock s →
      (y.process clock).Timed clock s l t → I clock t)
    (hdue : ∀ clock, Monotone clock → ∀ s, I clock s → gaveUp s → due clock s ≤ clock (y.reads s)) :
    y.Patient gaveUp due := by
  intro clock hclock s hs
  exact hdue clock hclock s (hs.invariant (hstart clock hclock) (hstep clock hclock))

lemma Legal.start {limit wait : ℤ} {n : ℕ} (h : y.Legal limit) (hclock : Monotone clock)
    (hwait : (y.process clock).waiting (y.start clock) = some (n, wait)) : wait ≤ limit :=
  (h clock hclock _ ⟨[], .nil _⟩ n wait hwait).2

end System

lemma clamp_legal {limit : ℤ} (h : 0 ≤ limit) (wait : ℤ) :
    0 ≤ min (max wait 0) limit ∧ min (max wait 0) limit ≤ limit :=
  ⟨le_min (le_max_right _ _) h, min_le_right _ _⟩

lemma remaining_legal {limit wait : ℤ} (h : 0 ≤ limit) (hwait : 0 < wait) :
    0 ≤ min wait limit ∧ min wait limit ≤ limit :=
  ⟨le_min hwait.le h, min_le_right _ _⟩

end Forcola.Library.TimedReceive
