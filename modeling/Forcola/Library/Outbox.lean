import Forcola.Library.Transition
import Mathlib.Data.List.Nodup
import Mathlib.Data.List.Perm.Basic

/-! A queue of offers: each is taken in its turn, or dropped from where it stands. -/

namespace Forcola.Library.Outbox

open Transition

variable {C F : Type*}

inductive Event (C F : Type*)
  | offered (offer : C × F)
  | taken (offer : C × F)
  | dropped (offer : C × F)

inductive Step : List (C × F) → Event C F → List (C × F) → Prop
  | offer (queue : List (C × F)) (x : C × F) : Step queue (.offered x) (queue ++ [x])
  | take (x : C × F) (queue : List (C × F)) : Step (x :: queue) (.taken x) queue
  | drop (front : List (C × F)) (x : C × F) (back : List (C × F)) :
      Step (front ++ x :: back) (.dropped x) (front ++ back)

namespace Event

@[simp] def offers : Event C F → List (C × F)
  | .offered x => [x]
  | .taken _ | .dropped _ => []

@[simp] def takes : Event C F → List (C × F)
  | .taken x => [x]
  | .offered _ | .dropped _ => []

@[simp] def drops : Event C F → List (C × F)
  | .dropped x => [x]
  | .offered _ | .taken _ => []

end Event

def offered (events : List (Event C F)) : List (C × F) := events.flatMap Event.offers

def taken (events : List (Event C F)) : List (C × F) := events.flatMap Event.takes

def dropped (events : List (Event C F)) : List (C × F) := events.flatMap Event.drops

section Reading

variable (e : Event C F) (es fs : List (Event C F))

@[simp] lemma read_nil :
    offered ([] : List (Event C F)) = [] ∧ taken ([] : List (Event C F)) = [] ∧
      dropped ([] : List (Event C F)) = [] :=
  ⟨rfl, rfl, rfl⟩

@[simp] lemma read_cons :
    offered (e :: es) = e.offers ++ offered es ∧ taken (e :: es) = e.takes ++ taken es ∧
      dropped (e :: es) = e.drops ++ dropped es :=
  ⟨rfl, rfl, rfl⟩

@[simp] lemma read_append :
    offered (es ++ fs) = offered es ++ offered fs ∧ taken (es ++ fs) = taken es ++ taken fs ∧
      dropped (es ++ fs) = dropped es ++ dropped fs := by
  simp [offered, taken, dropped]

@[simp] lemma read_taken {α : Type*} (xs : List α) (f : α → C × F) :
    offered (xs.map fun x => Event.taken (f x)) = [] ∧
      taken (xs.map fun x => Event.taken (f x)) = xs.map f ∧
      dropped (xs.map fun x => Event.taken (f x)) = [] := by
  induction xs with
  | nil => simp
  | cons x xs ih => simp [ih]

@[simp] lemma read_dropped {α : Type*} (xs : List α) (f : α → C × F) :
    offered (xs.map fun x => Event.dropped (f x)) = [] ∧
      taken (xs.map fun x => Event.dropped (f x)) = [] ∧
      dropped (xs.map fun x => Event.dropped (f x)) = xs.map f := by
  induction xs with
  | nil => simp
  | cons x xs ih => simp [ih]

end Reading

variable {p q : List (C × F)} {es : List (Event C F)}

lemma take_all {α : Type*} (front : List α) (f : α → C × F) (back : List (C × F)) :
    Run Step (front.map f ++ back) (front.map fun x => Event.taken (f x)) back := by
  induction front with
  | nil => exact .nil _
  | cons x front ih => exact .cons (.take (f x) _) ih

lemma drop_all {α : Type*} (queue : List α) (f : α → C × F) :
    Run Step (queue.map f) (queue.map fun x => Event.dropped (f x)) [] := by
  induction queue with
  | nil => exact .nil _
  | cons x queue ih => exact .cons (.drop [] (f x) _) ih

theorem taken_sublist (h : Run Step p es q) : (taken es ++ q).Sublist (p ++ offered es) := by
  induction h with
  | nil s => simp
  | @cons s t u a as hst _ ih =>
    cases hst with
    | offer queue x => simpa using ih
    | take x queue => simpa using ih
    | drop front x back =>
      refine ih.trans ?_
      simp only [read_cons, Event.offers, List.nil_append, List.append_assoc, List.cons_append]
      exact (List.Sublist.refl front).append (List.sublist_cons_self _ _)

theorem offered_perm (h : Run Step p es q) :
    (p ++ offered es).Perm (taken es ++ dropped es ++ q) := by
  induction h with
  | nil s => simp
  | @cons s t u a as hst _ ih =>
    cases hst with
    | offer queue x => simpa using ih
    | take x queue => simpa using ih
    | drop front x back =>
      have hx : (front ++ x :: back ++ offered as).Perm (x :: (front ++ back ++ offered as)) := by
        simp only [List.append_assoc, List.cons_append]
        exact List.perm_middle
      have hy : (x :: (taken as ++ dropped as ++ u)).Perm (taken as ++ x :: dropped as ++ u) := by
        simp only [List.append_assoc, List.cons_append]
        exact List.perm_middle.symm
      simpa using hx.trans ((ih.cons x).trans hy)

theorem taken_eq_filter [DecidableEq C] (h : Run Step [] es q)
    (hn : ((offered es).map Prod.fst).Nodup) :
    taken es = (offered es).filter fun x => x.1 ∈ (taken es).map Prod.fst := by
  have hs : (taken es).Sublist (offered es) :=
    (List.sublist_append_left _ _).trans (taken_sublist h)
  generalize taken es = xs at hs
  generalize offered es = ys at hs hn
  induction hs with
  | slnil => rfl
  | @cons xs ys y hs ih =>
    obtain ⟨hy, hn⟩ := List.nodup_cons.mp hn
    have hx : y.1 ∉ xs.map Prod.fst := fun hm => hy ((hs.map Prod.fst).subset hm)
    rw [List.filter_cons_of_neg (by simpa using hx)]
    exact ih hn
  | @cons_cons xs ys y hs ih =>
    obtain ⟨hy, hn⟩ := List.nodup_cons.mp hn
    rw [List.filter_cons_of_pos (by simp)]
    refine congrArg (y :: ·) ((ih hn).trans (List.filter_congr fun z hz => ?_))
    have hne : z.1 ≠ y.1 := fun he => hy (he ▸ List.mem_map_of_mem hz)
    simp [hne]

end Forcola.Library.Outbox
