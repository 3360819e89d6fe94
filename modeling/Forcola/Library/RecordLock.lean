import Mathlib.Data.List.Basic
import Mathlib.Order.MinMax

/-! Advisory record locks of one file: who has locked which bytes, and what a request meets. -/

namespace Forcola.Library.RecordLock

inductive Kind
  | read
  | write
deriving DecidableEq, Repr

/-- The bytes from `start` up to `stop`, or up to the end of any file; never none. -/
structure Span where
  start : ℕ
  stop : Option ℕ
  nonempty : ∀ n ∈ stop, start < n
deriving DecidableEq

instance : Membership ℕ Span where
  mem s n := s.start ≤ n ∧ ∀ m ∈ s.stop, n < m

namespace Span

variable {s t : Span} {n cut : ℕ}

def whole : Span := ⟨0, none, fun _ h => absurd h (Option.not_mem_none _)⟩

def overlaps (s t : Span) : Bool :=
  s.stop.all (t.start < ·) && t.stop.all (s.start < ·)

def below (s : Span) (cut : ℕ) : Option Span :=
  if h : s.start < cut then
    some ⟨s.start, some ((s.stop.map (min cut)).getD cut), by
      intro n hn
      obtain rfl := Option.some.inj hn
      cases hs : s.stop with
      | none => exact h
      | some m =>
        have hm := s.nonempty m hs
        simp only [Option.map_some, Option.getD_some]
        omega⟩
  else none

def upward (s : Span) (cut : ℕ) : Option Span :=
  if h : ∀ n ∈ s.stop, cut < n then
    some ⟨max s.start cut, s.stop, fun n hn => by
      have hs := s.nonempty n hn
      have hc := h n hn
      omega⟩
  else none

def minus (s t : Span) : List Span :=
  (s.below t.start).toList ++ (t.stop.bind s.upward).toList

lemma mem_iff : n ∈ s ↔ s.start ≤ n ∧ ∀ m ∈ s.stop, n < m :=
  Iff.rfl

lemma mem_whole (n : ℕ) : n ∈ whole :=
  ⟨Nat.zero_le n, fun _ h => absurd h (Option.not_mem_none _)⟩

lemma overlaps_iff : s.overlaps t = true ↔ ∃ n, n ∈ s ∧ n ∈ t := by
  simp only [overlaps, Bool.and_eq_true, Option.all_eq_true, decide_eq_true_eq]
  constructor
  · rintro ⟨hs, ht⟩
    refine ⟨max s.start t.start, ⟨le_max_left _ _, fun m hm => ?_⟩, le_max_right _ _, fun m hm => ?_⟩
    · exact max_lt (s.nonempty m hm) (hs m hm)
    · exact max_lt (ht m hm) (t.nonempty m hm)
  · rintro ⟨n, ⟨hs, hs'⟩, ht, ht'⟩
    exact ⟨fun m hm => Nat.lt_of_le_of_lt ht (hs' m hm), fun m hm => Nat.lt_of_le_of_lt hs (ht' m hm)⟩

lemma mem_below : (∃ u ∈ s.below cut, n ∈ u) ↔ n ∈ s ∧ n < cut := by
  unfold below
  split
  · next h =>
    simp only [Option.mem_some_iff, exists_eq_left', mem_iff, forall_eq']
    cases s.stop with
    | none => simp
    | some m =>
      simp only [Option.map_some, Option.getD_some, Option.mem_some_iff, forall_eq']
      omega
  · next h =>
    refine iff_of_false (fun ⟨u, hu, _⟩ => by cases hu) fun ⟨hs, hn⟩ => h ?_
    exact Nat.lt_of_le_of_lt hs.1 hn

lemma mem_upward : (∃ u ∈ s.upward cut, n ∈ u) ↔ n ∈ s ∧ cut ≤ n := by
  unfold upward
  split
  · simp only [Option.mem_some_iff, exists_eq_left', mem_iff, max_le_iff]
    tauto
  · next h =>
    refine iff_of_false (fun ⟨u, hu, _⟩ => by cases hu) fun ⟨hs, hn⟩ => h fun m hm => ?_
    exact Nat.lt_of_le_of_lt hn (hs.2 m hm)

lemma mem_minus : (∃ u ∈ s.minus t, n ∈ u) ↔ n ∈ s ∧ n ∉ t := by
  have hout : n ∉ t ↔ n < t.start ∨ ∃ m ∈ t.stop, m ≤ n := by
    rw [mem_iff, not_and_or, Nat.not_le]
    push Not
    rfl
  have hup : (∃ u ∈ t.stop.bind s.upward, n ∈ u) ↔ ∃ m ∈ t.stop, n ∈ s ∧ m ≤ n := by
    constructor
    · rintro ⟨u, hu, hn⟩
      obtain ⟨m, hm, hu⟩ := Option.bind_eq_some_iff.mp hu
      exact ⟨m, hm, mem_upward.mp ⟨u, hu, hn⟩⟩
    · rintro ⟨m, hm, hn⟩
      obtain ⟨u, hu, hn⟩ := mem_upward.mpr hn
      exact ⟨u, Option.bind_eq_some_iff.mpr ⟨m, hm, hu⟩, hn⟩
  simp only [minus, List.mem_append, Option.mem_toList, or_and_right, exists_or]
  refine (or_congr mem_below hup).trans ?_
  rw [hout, and_or_left]
  refine or_congr_right ⟨?_, ?_⟩
  · rintro ⟨m, hm, hs, hle⟩
    exact ⟨hs, m, hm, hle⟩
  · rintro ⟨hs, m, hm, hle⟩
    exact ⟨m, hm, hs, hle⟩

end Span

structure Record (O : Type*) where
  owner : O
  kind : Kind
  span : Span

/-- `fcntl(2)` on what `T` keeps of one file; `holds` is who has locked a byte, and how. -/
structure Fcntl (O T : Type*) where
  holds : T → O → Kind → ℕ → Prop
  setlk : T → Record O → Option T
  getlk : T → Record O → Option (Record O)
  unlock : T → O → Span → T
  close : T → O → T

namespace Fcntl

variable {O T : Type*} (L : Fcntl O T)

/-- Another owner has a lock on a byte of `r`, and one of the two is a write lock. -/
def Meets (t : T) (r : Record O) (o : O) (k : Kind) : Prop :=
  o ≠ r.owner ∧ (r.kind = .write ∨ k = .write) ∧ ∃ n ∈ r.span, L.holds t o k n

structure Lawful : Prop where
  refused : ∀ t r, L.setlk t r = none ↔ ∃ o k, L.Meets t r o k
  -- a lock that is set replaces what its owner had on the same bytes
  granted : ∀ t r u, L.setlk t r = some u → ∀ o k n, L.holds u o k n ↔
    o = r.owner ∧ k = r.kind ∧ n ∈ r.span ∨ L.holds t o k n ∧ ¬(o = r.owner ∧ n ∈ r.span)
  probed : ∀ t r a, L.getlk t r = some a → L.Meets t r a.owner a.kind
  unlocked : ∀ t o s p k n, L.holds (L.unlock t o s) p k n ↔ L.holds t p k n ∧ ¬(p = o ∧ n ∈ s)
  -- an owner that closes the file or exits loses all its locks
  closed : ∀ t o p k n, L.holds (L.close t o) p k n ↔ L.holds t p k n ∧ p ≠ o

def Compatible (t : T) : Prop :=
  ∀ n o p k, L.holds t o .write n → L.holds t p k n → p = o

variable {L} {t u : T} {r : Record O}

lemma Lawful.free (hL : L.Lawful) (hs : L.setlk t r = some u) (o : O) (k : Kind) :
    ¬L.Meets t r o k := by
  intro hm
  cases hs.symm.trans ((hL.refused t r).mpr ⟨o, k, hm⟩)

lemma Compatible.setlk (hL : L.Lawful) (h : L.Compatible t) (hs : L.setlk t r = some u) :
    L.Compatible u := by
  intro n o p k ho hp
  rcases (hL.granted t r u hs o .write n).mp ho with ⟨rfl, hkind, hn⟩ | ⟨ho, -⟩
  · rcases (hL.granted t r u hs p k n).mp hp with ⟨hp, -⟩ | ⟨hp, -⟩
    · exact hp
    · by_contra hne
      exact hL.free hs p k ⟨hne, .inl hkind.symm, n, hn, hp⟩
  · rcases (hL.granted t r u hs p k n).mp hp with ⟨rfl, -, hn⟩ | ⟨hp, -⟩
    · by_contra hne
      exact hL.free hs o .write ⟨fun heq => hne heq.symm, .inr rfl, n, hn, ho⟩
    · exact h n o p k ho hp

lemma Compatible.mono (h : L.Compatible t) (hheld : ∀ o k n, L.holds u o k n → L.holds t o k n) :
    L.Compatible u :=
  fun n o p k ho hp => h n o p k (hheld o .write n ho) (hheld p k n hp)

lemma Compatible.unlock (hL : L.Lawful) (h : L.Compatible t) (o : O) (s : Span) :
    L.Compatible (L.unlock t o s) :=
  h.mono fun p k n hp => ((hL.unlocked t o s p k n).mp hp).1

lemma Compatible.close (hL : L.Lawful) (h : L.Compatible t) (o : O) : L.Compatible (L.close t o) :=
  h.mono fun p k n hp => ((hL.closed t o p k n).mp hp).1

lemma Lawful.kept_of_granted (hL : L.Lawful) (hs : L.setlk t r = some u) {o : O} (ho : o ≠ r.owner)
    (k : Kind) (n : ℕ) : L.holds u o k n ↔ L.holds t o k n := by
  rw [hL.granted t r u hs, or_iff_right fun h => ho h.1, and_iff_left fun h => ho h.1]

lemma Lawful.kept_of_unlocked (hL : L.Lawful) {o p : O} (hp : p ≠ o) (s : Span) (k : Kind) (n : ℕ) :
    L.holds (L.unlock t o s) p k n ↔ L.holds t p k n := by
  rw [hL.unlocked, and_iff_left fun h => hp h.1]

lemma Lawful.kept_of_closed (hL : L.Lawful) {o p : O} (hp : p ≠ o) (k : Kind) (n : ℕ) :
    L.holds (L.close t o) p k n ↔ L.holds t p k n := by
  rw [hL.closed, and_iff_left hp]

end Fcntl

/-- A table that keeps the locks themselves. -/
abbrev Locks (O : Type*) := List (Record O)

variable {O : Type*} [DecidableEq O]

/-- Whether two locks exclude each other; an owner never excludes itself. -/
def Record.conflicts (a b : Record O) : Bool :=
  a.owner ≠ b.owner && (a.kind = .write || b.kind = .write) && a.span.overlaps b.span

lemma Record.conflicts_iff {a b : Record O} : a.conflicts b = true ↔ a.owner ≠ b.owner ∧
    (a.kind = .write ∨ b.kind = .write) ∧ ∃ n, n ∈ a.span ∧ n ∈ b.span := by
  simp [conflicts, ← Span.overlaps_iff, and_assoc]

namespace Locks

omit [DecidableEq O] in
def Holds (locks : Locks O) (owner : O) (kind : Kind) (n : ℕ) : Prop :=
  ∃ r ∈ locks, r.owner = owner ∧ r.kind = kind ∧ n ∈ r.span

def unlock (locks : Locks O) (owner : O) (span : Span) : Locks O :=
  locks.flatMap fun r =>
    if r.owner = owner then (r.span.minus span).map fun s => { r with span := s } else [r]

def setlk (locks : Locks O) (r : Record O) : Option (Locks O) :=
  if locks.any r.conflicts then none else some (r :: locks.unlock r.owner r.span)

def getlk (locks : Locks O) (r : Record O) : Option (Record O) :=
  locks.find? r.conflicts

def close (locks : Locks O) (owner : O) : Locks O :=
  locks.filter (·.owner ≠ owner)

variable (O) in
def fcntl : Fcntl O (Locks O) := ⟨Holds, setlk, getlk, unlock, close⟩

variable {locks held : Locks O} {r : Record O}

lemma holds_unlock (owner : O) (span : Span) (o : O) (kind : Kind) (n : ℕ) :
    (locks.unlock owner span).Holds o kind n ↔ locks.Holds o kind n ∧ ¬(o = owner ∧ n ∈ span) := by
  constructor
  · rintro ⟨a, ha, rfl, rfl, hn⟩
    obtain ⟨r, hr, ha⟩ := List.mem_flatMap.mp ha
    split at ha
    · obtain ⟨s, hs, rfl⟩ := List.mem_map.mp ha
      obtain ⟨hin, hout⟩ := Span.mem_minus.mp ⟨s, hs, hn⟩
      exact ⟨⟨r, hr, rfl, rfl, hin⟩, fun h => hout h.2⟩
    · next ho =>
      obtain rfl := List.mem_singleton.mp ha
      exact ⟨⟨_, hr, rfl, rfl, hn⟩, fun h => ho h.1⟩
  · rintro ⟨⟨r, hr, rfl, rfl, hn⟩, hout⟩
    by_cases ho : r.owner = owner
    · obtain ⟨s, hs, hn⟩ := Span.mem_minus.mpr ⟨hn, fun h => hout ⟨ho, h⟩⟩
      refine ⟨{ r with span := s }, List.mem_flatMap.mpr ⟨r, hr, ?_⟩, rfl, rfl, hn⟩
      rw [if_pos ho]
      exact List.mem_map_of_mem hs
    · refine ⟨r, List.mem_flatMap.mpr ⟨r, hr, ?_⟩, rfl, rfl, hn⟩
      rw [if_neg ho]
      exact List.mem_singleton_self r

lemma setlk_eq_some : locks.setlk r = some held ↔
    (∀ a ∈ locks, r.conflicts a = false) ∧ held = r :: locks.unlock r.owner r.span := by
  unfold setlk
  split
  · next h =>
    obtain ⟨a, ha, hc⟩ := List.any_eq_true.mp h
    refine iff_of_false (fun h => by cases h) fun hall => ?_
    exact Bool.noConfusion ((hall.1 a ha).symm.trans hc)
  · next h =>
    have hall : ∀ a ∈ locks, r.conflicts a = false := by
      simpa [List.any_eq_true] using h
    exact ⟨fun h => ⟨hall, (Option.some.inj h).symm⟩, fun h => congrArg some h.2.symm⟩

lemma setlk_eq_none : locks.setlk r = none ↔ ∃ a ∈ locks, r.conflicts a = true := by
  unfold setlk
  split
  · next h => exact iff_of_true rfl (List.any_eq_true.mp h)
  · next h => exact iff_of_false (fun h => by cases h) fun he => h (List.any_eq_true.mpr he)

lemma meets_of_conflicts {a : Record O} (ha : a ∈ locks) (h : r.conflicts a = true) :
    (fcntl O).Meets locks r a.owner a.kind := by
  obtain ⟨hne, hwrite, n, hr, hn⟩ := Record.conflicts_iff.mp h
  exact ⟨hne.symm, hwrite, n, hr, a, ha, rfl, rfl, hn⟩

lemma fcntl_lawful : (fcntl O).Lawful where
  refused locks r := by
    refine setlk_eq_none.trans ⟨?_, ?_⟩
    · rintro ⟨a, ha, hc⟩
      exact ⟨_, _, meets_of_conflicts ha hc⟩
    · rintro ⟨_, _, hne, hwrite, n, hr, a, ha, rfl, rfl, hn⟩
      exact ⟨a, ha, Record.conflicts_iff.mpr ⟨hne.symm, hwrite, n, hr, hn⟩⟩
  granted locks r held hs o k n := by
    obtain ⟨-, rfl⟩ := setlk_eq_some.mp hs
    refine Iff.trans ?_ (or_congr_right (holds_unlock r.owner r.span o k n))
    constructor
    · rintro ⟨a, ha, hown, hkind, hn⟩
      rcases List.mem_cons.mp ha with rfl | ha
      · exact .inl ⟨hown.symm, hkind.symm, hn⟩
      · exact .inr ⟨a, ha, hown, hkind, hn⟩
    · rintro (⟨rfl, rfl, hn⟩ | ⟨a, ha, h⟩)
      · exact ⟨r, List.mem_cons_self, rfl, rfl, hn⟩
      · exact ⟨a, List.mem_cons_of_mem _ ha, h⟩
  probed locks r a hg :=
    meets_of_conflicts (List.mem_of_find?_eq_some hg) (List.find?_some hg)
  unlocked locks o s p k n := holds_unlock o s p k n
  closed locks o p k n := by
    constructor
    · rintro ⟨a, ha, rfl, rfl, hn⟩
      obtain ⟨ha, hne⟩ := List.mem_filter.mp ha
      exact ⟨⟨a, ha, rfl, rfl, hn⟩, by simpa using hne⟩
    · rintro ⟨⟨a, ha, rfl, rfl, hn⟩, hne⟩
      exact ⟨a, List.mem_filter.mpr ⟨ha, by simpa using hne⟩, rfl, rfl, hn⟩

lemma compatible_nil : (fcntl O).Compatible [] :=
  fun _ _ _ _ h => absurd h.choose_spec.1 List.not_mem_nil

end Locks

end Forcola.Library.RecordLock
