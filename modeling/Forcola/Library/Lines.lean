import Mathlib.Data.List.Basic
import Mathlib.Data.List.TakeWhile

/-! A sequence cut at a separator: its terminated lines and the unterminated rest. -/

namespace Forcola.Library.Lines

variable {α : Type*} [DecidableEq α] (sep : α)

def lines (data : List α) : List (List α) :=
  (data.splitOn sep).dropLast

def rest (data : List α) : List α :=
  (data.splitOn sep).getLast (List.splitOn_ne_nil sep data)

def closed (data : List α) : List (List α) :=
  lines sep data ++ if rest sep data = [] then [] else [rest sep data]

@[simp] lemma lines_nil : lines sep ([] : List α) = [] := rfl

@[simp] lemma rest_nil : rest sep ([] : List α) = [] := rfl

@[simp] lemma closed_nil : closed sep ([] : List α) = [] := rfl

variable {sep} {a : α} {data more : List α}

lemma lines_sep : lines sep (sep :: data) = [] :: lines sep data := by
  simp [lines, List.splitOn_cons_eq_if_modifyHead, List.dropLast_cons_of_ne_nil]

lemma rest_sep : rest sep (sep :: data) = rest sep data := by
  simp [rest, List.splitOn_cons_eq_if_modifyHead]

lemma split_cons (data : List α) (h : a ≠ sep) :
    (lines sep data = [] ∧ lines sep (a :: data) = [] ∧
      rest sep (a :: data) = a :: rest sep data) ∨
    ∃ l ls, lines sep data = l :: ls ∧ lines sep (a :: data) = (a :: l) :: ls ∧
      rest sep (a :: data) = rest sep data := by
  simp only [lines, rest, List.splitOn_cons_eq_if_modifyHead, beq_iff_eq, h, if_false]
  obtain ⟨l, ls, hl⟩ := List.exists_cons_of_ne_nil (List.splitOn_ne_nil sep data)
  simp only [hl, List.modifyHead_cons]
  cases ls with
  | nil => exact .inl ⟨rfl, rfl, rfl⟩
  | cons m ms => exact .inr ⟨l, (m :: ms).dropLast, rfl, rfl, rfl⟩

lemma split_append (data more : List α) :
    lines sep (data ++ more) = lines sep data ++ lines sep (rest sep data ++ more) ∧
      rest sep (data ++ more) = rest sep (rest sep data ++ more) := by
  induction data with
  | nil => exact ⟨rfl, rfl⟩
  | cons a as ih =>
    obtain ⟨hl, hr⟩ := ih
    by_cases h : a = sep
    · subst h
      rw [List.cons_append, lines_sep, rest_sep, lines_sep, rest_sep, hl, hr]
      exact ⟨rfl, rfl⟩
    · rcases split_cons as h with ⟨h0, h1, h2⟩ | ⟨l, ls, h0, h1, h2⟩
      · rw [h0, List.nil_append] at hl
        rw [h1, h2, List.nil_append]
        rcases split_cons (as ++ more) h with ⟨k0, k1, k2⟩ | ⟨l, ls, k0, k1, k2⟩
        · rcases split_cons (rest sep as ++ more) h with ⟨-, m1, m2⟩ | ⟨_, _, m0, -⟩
          · exact ⟨k1.trans m1.symm, by rw [List.cons_append, List.cons_append, k2, m2, hr]⟩
          · rw [← hl, k0] at m0
            cases m0
        · rcases split_cons (rest sep as ++ more) h with ⟨m0, -⟩ | ⟨m, ms, m0, m1, m2⟩
          · rw [← hl, k0] at m0
            cases m0
          · rw [← hl, k0, List.cons.injEq] at m0
            obtain ⟨rfl, rfl⟩ := m0
            exact ⟨k1.trans m1.symm, by rw [List.cons_append, List.cons_append, k2, m2, hr]⟩
      · rcases split_cons (as ++ more) h with ⟨k0, -⟩ | ⟨m, ms, k0, k1, k2⟩
        · rw [hl, h0] at k0
          cases k0
        · rw [hl, h0, List.cons_append, List.cons.injEq] at k0
          obtain ⟨rfl, rfl⟩ := k0
          rw [h1, h2]
          exact ⟨k1, k2.trans hr⟩

lemma lines_append (data more : List α) :
    lines sep (data ++ more) = lines sep data ++ lines sep (rest sep data ++ more) :=
  (split_append data more).1

lemma rest_append (data more : List α) :
    rest sep (data ++ more) = rest sep (rest sep data ++ more) :=
  (split_append data more).2

lemma flatten_lines (data : List α) :
    (lines sep data).flatten ++ rest sep data = data.filter (· ≠ sep) := by
  induction data with
  | nil => rfl
  | cons a as ih =>
    by_cases h : a = sep
    · subst h
      rw [lines_sep, rest_sep, List.flatten_cons, List.nil_append, ih]
      simp
    · rw [List.filter_cons_of_pos (by simpa using h), ← ih]
      rcases split_cons as h with ⟨h0, h1, h2⟩ | ⟨l, ls, h0, h1, h2⟩
      · simp [h0, h1, h2]
      · simp [h0, h1, h2]

variable (sep) in
lemma length_lines (data : List α) :
    (lines sep data).flatten.length + (rest sep data).length ≤ data.length := by
  rw [← List.length_append, flatten_lines]
  apply List.length_filter_le

lemma closed_sep (data : List α) : closed sep (sep :: data) = [] :: closed sep data := by
  rw [closed, closed, lines_sep, rest_sep, List.cons_append]

lemma closed_cons (data : List α) (h : a ≠ sep) :
    closed sep (a :: data) = (a :: (closed sep data).headD []) :: (closed sep data).tail := by
  rw [closed, closed]
  rcases split_cons data h with ⟨h0, h1, h2⟩ | ⟨l, ls, h0, h1, h2⟩
  · rw [h0, h1, h2, List.nil_append, List.nil_append, if_neg (List.cons_ne_nil _ _)]
    split
    · next hnil => rw [hnil]; rfl
    · rfl
  · rw [h0, h1, h2]
    rfl

lemma closed_eq_nil : closed sep data = [] ↔ data = [] := by
  cases data with
  | nil => simp
  | cons a data =>
    by_cases h : a = sep
    · subst h
      simp [closed_sep]
    · simp [closed_cons data h]

lemma closed_eq_blank : closed sep data = [[]] ↔ data = [sep] := by
  cases data with
  | nil => simp
  | cons a data =>
    by_cases h : a = sep
    · subst h
      simp [closed_sep, closed_eq_nil]
    · simp [closed_cons data h, h]

lemma rest_free (data : List α) : sep ∉ rest sep data := by
  induction data with
  | nil => simp
  | cons a as ih =>
    by_cases h : a = sep
    · subst h
      rwa [rest_sep]
    · rcases split_cons as h with ⟨-, -, h2⟩ | ⟨l, ls, -, -, h2⟩
      · rw [h2, List.mem_cons, not_or]
        exact ⟨Ne.symm h, ih⟩
      · rwa [h2]

lemma closed_start (start more : List α) (h : sep ∉ start) (hs : start ≠ []) :
    closed sep (start ++ more) =
      (start ++ (closed sep more).headD []) :: (closed sep more).tail := by
  induction start with
  | nil => exact absurd rfl hs
  | cons a start ih =>
    obtain ⟨ha, hstart⟩ := not_or.mp (List.mem_cons.not.mp h)
    rw [List.cons_append, closed_cons _ (Ne.symm ha)]
    cases start with
    | nil => rfl
    | cons b start =>
      rw [ih hstart (List.cons_ne_nil _ _)]
      rfl

lemma closed_extends (data more : List α) (h : rest sep data ≠ []) : ∃ tail ls,
    closed sep (rest sep data ++ more) = (rest sep data ++ tail) :: ls :=
  ⟨_, _, closed_start _ more (rest_free data) h⟩

lemma closed_append (data more : List α) :
    closed sep (data ++ more) = lines sep data ++ closed sep (rest sep data ++ more) := by
  rw [closed, closed, lines_append, rest_append, List.append_assoc]

lemma closed_append_self (data more : List α) :
    closed sep (data ++ more) = closed sep data ↔
      more = [] ∨ more = [sep] ∧ rest sep data ≠ [] := by
  have hclosed : closed sep data =
      lines sep data ++ if rest sep data = [] then [] else [rest sep data] := rfl
  rw [closed_append, hclosed, List.append_cancel_left_eq]
  by_cases hr : rest sep data = []
  · rw [if_pos hr, hr, List.nil_append, closed_eq_nil]
    simp
  · rw [if_neg hr, closed_start _ _ (rest_free data) hr]
    constructor
    · intro h
      obtain ⟨hhead, htail⟩ := List.cons.inj h
      have hhead : (closed sep more).headD [] = [] := List.append_cancel_left
        (hhead.trans (List.append_nil _).symm)
      cases hc : closed sep more with
      | nil => exact .inl (closed_eq_nil.mp hc)
      | cons l ls =>
        rw [hc] at hhead htail
        obtain rfl : l = [] := hhead
        obtain rfl : ls = [] := htail
        exact .inr ⟨closed_eq_blank.mp hc, hr⟩
    · rintro (rfl | ⟨rfl, -⟩)
      · simp
      · simp [closed_sep]

/-- A bound on a line that no longer line meets either. -/
def Bound (fits : List α → Bool) : Prop :=
  ∀ line more, fits (line ++ more) = true → fits line = true

lemma takeWhile_append_of_exists {β : Type*} {fits : β → Bool} {items : List β}
    (h : ∃ item ∈ items, fits item = false) (others : List β) :
    (items ++ others).takeWhile fits = items.takeWhile fits := by
  rw [List.takeWhile_append, if_neg]
  intro hlen
  obtain ⟨item, hin, hitem⟩ := h
  have hall := List.takeWhile_eq_self_iff.mp
    ((List.takeWhile_prefix fits).eq_of_length hlen) item hin
  rw [hitem] at hall
  cases hall

lemma takeWhile_closed {fits : List α → Bool} (hb : Bound fits) (data more : List α)
    (h : ∃ line ∈ closed sep data, fits line = false) :
    (closed sep (data ++ more)).takeWhile fits = (closed sep data).takeWhile fits ∧
      ∃ line ∈ closed sep (data ++ more), fits line = false := by
  by_cases hlines : ∃ line ∈ lines sep data, fits line = false
  · -- the line is terminated already
    have hcut := takeWhile_append_of_exists hlines
    obtain ⟨line, hin, hline⟩ := hlines
    rw [closed_append, hcut, closed, hcut]
    exact ⟨rfl, line, List.mem_append_left _ hin, hline⟩
  · -- only the rest is too long, and it can only grow
    have hfit : ∀ line ∈ lines sep data, fits line = true := by
      intro line hin
      by_contra hline
      exact hlines ⟨line, hin, by simpa using hline⟩
    obtain ⟨line, hin, hline⟩ := h
    have hrest : rest sep data ≠ [] ∧ line = rest sep data := by
      rw [closed, List.mem_append] at hin
      rcases hin with hin | hin
      · rw [hfit line hin] at hline
        cases hline
      · split at hin
        · cases hin
        · next hne => exact ⟨hne, List.mem_singleton.mp hin⟩
    obtain ⟨hne, rfl⟩ := hrest
    obtain ⟨tail, ls, heq⟩ := closed_extends data more hne
    have htail : fits (rest sep data ++ tail) = false := by
      by_contra hgrown
      have hline' := hb _ _ (by simpa using hgrown)
      rw [hline] at hline'
      cases hline'
    rw [closed_append, heq, closed, if_neg hne, List.takeWhile_append_of_pos hfit,
      List.takeWhile_append_of_pos hfit]
    refine ⟨by simp [htail, hline], _, ?_, htail⟩
    exact List.mem_append_right _ List.mem_cons_self

lemma rest_eq (h : lines sep data = []) : rest sep data = data := by
  have hj : [sep].intercalate (data.splitOn sep) = data := List.intercalate_splitOn sep
  obtain ⟨l, hl⟩ : ∃ l, data.splitOn sep = [l] := by
    obtain ⟨l, ls, hl⟩ := List.exists_cons_of_ne_nil (List.splitOn_ne_nil sep data)
    rw [lines, hl] at h
    cases ls with
    | nil => exact ⟨l, hl⟩
    | cons m ms => cases h
  rw [hl] at hj
  simp only [rest, hl, List.getLast_singleton]
  rw [← hj]
  simp

lemma length_rest (h : lines sep data = []) : (rest sep data).length = data.length :=
  congrArg List.length (rest_eq h)

end Forcola.Library.Lines
