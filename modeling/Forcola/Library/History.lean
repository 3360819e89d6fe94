import Mathlib.Data.List.Basic

/-! Histories kept newest first, and properties of an event relative to its past. -/

namespace Forcola.Library.History

variable {E : Type*}

/-- Every event of the history satisfies `P` together with what came before it. -/
def Every (P : E → List E → Prop) : List E → Prop
  | [] => True
  | e :: past => P e past ∧ Every P past

variable {P Q : E → List E → Prop} {log newer older : List E} {e : E}

@[simp] lemma every_nil : Every P [] := trivial

@[simp] lemma every_cons : Every P (e :: older) ↔ P e older ∧ Every P older := Iff.rfl

lemma every_iff : Every P log ↔ ∀ newer e past, log = newer ++ e :: past → P e past := by
  induction log with
  | nil => simp
  | cons e past ih =>
    rw [every_cons, ih]
    constructor
    · rintro ⟨he, hp⟩ newer e' past' h
      cases newer with
      | nil =>
        obtain ⟨rfl, rfl⟩ := List.cons.inj h
        exact he
      | cons d newer => exact hp _ _ _ (List.cons.inj h).2
    · intro h
      exact ⟨h [] e past rfl, fun newer e' past' hp => h (e :: newer) e' past' (by simp [hp])⟩

lemma Every.mono (h : Every P log) (hPQ : ∀ e past, P e past → Q e past) : Every Q log := by
  induction log with
  | nil => trivial
  | cons e past ih => exact ⟨hPQ _ _ h.1, ih h.2⟩

lemma Every.and (h : Every P log) (k : Every Q log) : Every (fun e past => P e past ∧ Q e past) log := by
  induction log with
  | nil => trivial
  | cons e past ih => exact ⟨⟨h.1, k.1⟩, ih h.2 k.2⟩

lemma every_forall {p : E → Prop} : Every (fun e _ => p e) log ↔ ∀ e ∈ log, p e := by
  induction log with
  | nil => simp
  | cons e past ih => simp [ih]

end Forcola.Library.History
