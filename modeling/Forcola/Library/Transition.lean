import Mathlib.Data.List.Forall2
import Mathlib.Logic.Relation

/-! Labelled transition systems: runs, what they keep and how they are executed. -/

namespace Forcola.Library.Transition

variable {S L : Type*}

inductive Run (step : S → L → S → Prop) : S → List L → S → Prop
  | nil (s : S) : Run step s [] s
  | cons {s t u : S} {a : L} {as : List L} :
      step s a t → Run step t as u → Run step s (a :: as) u

variable {step : S → L → S → Prop} {s t u : S} {a : L} {as bs : List L}

lemma Run.single (h : step s a t) : Run step s [a] t :=
  .cons h (.nil t)

lemma Run.append (h : Run step s as t) (k : Run step t bs u) : Run step s (as ++ bs) u := by
  induction h with
  | nil => exact k
  | cons hs _ ih => exact .cons hs (ih k)

lemma Run.snoc (h : Run step s as t) (k : step t a u) : Run step s (as ++ [a]) u :=
  h.append (.single k)

lemma Run.invariant_of {I : S → Prop} {ok : S → L → Prop}
    (hstep : ∀ s a t, I s → ok s a → step s a t → I t)
    (h : Run (fun s a t => step s a t ∧ ok s a) s as t) (hs : I s) : I t := by
  induction h with
  | nil => exact hs
  | cons hst _ ih => exact ih (hstep _ _ _ hs hst.2 hst.1)

lemma Run.invariant {I : S → Prop} (hstep : ∀ s a t, I s → step s a t → I t)
    (h : Run step s as t) (hs : I s) : I t := by
  induction h with
  | nil => exact hs
  | cons hst _ ih => exact ih (hstep _ _ _ hs hst)

lemma Run.history_from {I : List L → S → Prop}
    (hstep : ∀ as s a t, I as s → step s a t → I (as ++ [a]) t) (h : Run step s bs t) (hs : I as s) :
    I (as ++ bs) t := by
  induction h generalizing as with
  | nil => rwa [List.append_nil]
  | cons hst _ ih =>
    have hi := ih (hstep _ _ _ _ hs hst)
    rwa [List.append_assoc, List.singleton_append] at hi

lemma Run.history {I : List L → S → Prop} (hstep : ∀ as s a t, I as s → step s a t → I (as ++ [a]) t)
    (h : Run step s bs t) (hs : I [] s) : I bs t :=
  h.history_from hstep hs

lemma Run.mono {step' : S → L → S → Prop} (hstep : ∀ s a t, step s a t → step' s a t)
    (h : Run step s as t) : Run step' s as t := by
  induction h with
  | nil => exact .nil _
  | cons hst _ ih => exact .cons (hstep _ _ _ hst) ih

lemma Run.related {R : S → S → Prop} {Q : L → L → Prop} {s' t' : S}
    (hstep : ∀ s s' a a' t t', R s s' → Q a a' → step s a t → step s' a' t' → R t t')
    (h : Run step s as t) (h' : Run step s' bs t') (hl : List.Forall₂ Q as bs) (hs : R s s') :
    R t t' := by
  induction h generalizing s' bs with
  | nil =>
    cases hl
    cases h'
    exact hs
  | cons hst _ ih =>
    cases hl with
    | cons hl hls =>
      cases h' with
      | cons hst' h' => exact ih h' hls (hstep _ _ _ _ _ _ hs hl hst hst')

lemma Run.restrict {p : L → Prop} (h : Run step s as t) (hp : ∀ a ∈ as, p a) :
    Run (fun s a t => step s a t ∧ p a) s as t := by
  induction h with
  | nil => exact .nil _
  | cons hst _ ih =>
    exact .cons ⟨hst, hp _ List.mem_cons_self⟩ (ih fun a ha => hp a (List.mem_cons_of_mem _ ha))

def exec (f : S → L → Option S) : S → List L → Option S
  | s, [] => some s
  | s, a :: as => (f s a).bind fun t => exec f t as

lemma exec_cons {f : S → L → Option S} (h : f s a = some t) : exec f s (a :: as) = exec f t as := by
  rw [exec, h]
  rfl

lemma exec_run {f : S → L → Option S} (h : exec f s as = some t) :
    Run (fun s a t => f s a = some t) s as t := by
  induction as generalizing s with
  | nil =>
    obtain rfl : s = t := Option.some.inj h
    exact .nil s
  | cons a as ih =>
    obtain ⟨u, hu, ht⟩ := Option.bind_eq_some_iff.mp h
    exact .cons hu (ih ht)

lemma run_exec {f : S → L → Option S} (h : Run (fun s a t => f s a = some t) s as t) :
    exec f s as = some t := by
  induction h with
  | nil => rfl
  | cons hst _ ih => exact (exec_cons hst).trans ih

lemma exec_append {f : S → L → Option S} :
    exec f s (as ++ bs) = (exec f s as).bind fun t => exec f t bs := by
  induction as generalizing s with
  | nil => rfl
  | cons a as ih =>
    rw [List.cons_append, exec, exec, Option.bind_assoc]
    exact congrArg _ (funext fun u => ih)

lemma exec_trans {f : S → L → Option S} (h : exec f s as = some t) (k : exec f t bs = some u) :
    exec f s (as ++ bs) = some u := by
  rw [exec_append, h]
  exact k

def observe {O : Type*} (f : S → L → Option S) (out : S → L → List O) : S → List L → List O
  | _, [] => []
  | s, a :: as => out s a ++ (f s a).elim [] fun t => observe f out t as

lemma observe_snoc {O : Type*} {f : S → L → Option S} {out : S → L → List O}
    (h : Run (fun s a t => f s a = some t) s as t) :
    observe f out s (as ++ [a]) = observe f out s as ++ out t a := by
  induction h with
  | nil s =>
    rw [List.nil_append, observe, observe]
    cases f s a <;> simp [observe]
  | cons hst _ ih => simp [observe, hst, ih]

def guarded (p : S → L → Prop) [∀ s a, Decidable (p s a)] (f : S → L → Option S) :
    S → L → Option S :=
  fun s a => if p s a then f s a else none

lemma exec_guarded {p : S → L → Prop} [∀ s a, Decidable (p s a)] {f : S → L → Option S}
    (h : exec (guarded p f) s as = some t) : Run (fun s a t => f s a = some t ∧ p s a) s as t := by
  refine (exec_run h).mono fun s a t hst => ?_
  rw [guarded] at hst
  split at hst
  · next hp => exact ⟨hst, hp⟩
  · cases hst

end Forcola.Library.Transition
