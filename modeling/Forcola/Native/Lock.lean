import Forcola.Library.RecordLock
import Forcola.Library.Transition
import Mathlib.Logic.Function.Basic

/-! `forcola_shim lock`, any number of times, beside other processes that lock the same files. -/

namespace Forcola.Native.Lock

open Library Transition RecordLock

def attempts : ℕ := 3

inductive Line
  | ok
  | held (pid : ℤ)
  | errorUsage
  | errorOpen (name : String)
  | errorLock (name : String)
deriving DecidableEq, Repr

namespace Line

def text : Line → String
  | .ok => "ok"
  | .held pid => "held " ++ toString pid
  | .errorUsage => "error usage"
  | .errorOpen name => "error open " ++ name
  | .errorLock name => "error lock " ++ name

def status : Line → ℕ
  | .ok => 0
  | .held _ => 3
  | .errorUsage => 2
  | .errorOpen _ => 4
  | .errorLock _ => 5

end Line

/-- Where a shim is: `setting n` and `probing n` have `n` attempts left behind this one, and a
process ended by a signal has no exit status. -/
inductive Point
  | starting
  | opening
  | setting (left : ℕ)
  | probing (left : ℕ)
  | finishing (line : Line)
  | announcing
  | waiting
  | exited (status : Option ℕ)
deriving DecidableEq, Repr

def Point.attempt : ℕ → Point
  | 0 => .finishing (.held 0)
  | n + 1 => .setting n

variable {F T : Type}

structure Shim (F : Type) where
  args : List String
  file : Option F
  point : Point
  stdout : List Line

inductive Owner
  | shim (i : ℕ)
  | other (n : ℕ)
deriving DecidableEq, Repr

structure State (F T : Type) where
  files : F → T
  shims : ℕ → Shim F

inductive Fault
  | interrupted
  | failed (name : String)

inductive Action (F : Type)
  | begins
  | opens (result : Except String F)
  | setlk (fault : Option Fault)
  | getlk (fails : Bool)
  | writes (ok : Bool)
  | released
  | killed

inductive Label (F : Type)
  | shim (i : ℕ) (action : Action F)
  | locks (n : ℕ) (file : F) (kind : Kind) (span : Span)
  | unlocks (n : ℕ) (file : F) (span : Span)
  | closes (n : ℕ) (file : F)

def wholeFile (i : ℕ) : Record Owner := ⟨.shim i, .write, .whole⟩

namespace State

def goto (s : State F T) (i : ℕ) (point : Point) : State F T :=
  { s with shims := Function.update s.shims i { s.shims i with point := point } }

def say (s : State F T) (i : ℕ) (line : Line) : State F T :=
  { s with
    shims := Function.update s.shims i
      { s.shims i with stdout := (s.shims i).stdout ++ [line] } }

def exit (L : Fcntl Owner T) (s : State F T) (i : ℕ) (status : Option ℕ) : State F T :=
  { s.goto i (.exited status) with files := fun f => L.close (s.files f) (.shim i) }

variable [DecidableEq F]

def relock (s : State F T) (file : F) (locks : T) : State F T :=
  { s with files := Function.update s.files file locks }

end State

-- `pid` is what `F_GETLK` says of an owner: -1 for a lock of an open file description
variable [DecidableEq F] (L : Fcntl Owner T) (pid : Owner → ℤ)

def act (s : State F T) (i : ℕ) : Action F → Option (State F T)
  | .begins =>
    if (s.shims i).point = .starting then
      match (s.shims i).args with
      | [path] => some (s.goto i (if path = "" then .finishing .errorUsage else .opening))
      | _ => some (s.goto i (.finishing .errorUsage))
    else none
  | .opens result =>
    if (s.shims i).point = .opening then
      match result with
      | .ok file => some
        { s with
          shims := Function.update s.shims i
            { s.shims i with file := some file, point := .attempt attempts } }
      | .error name => some (s.goto i (.finishing (.errorOpen name)))
    else none
  | .setlk fault =>
    match (s.shims i).point, (s.shims i).file with
    | .setting n, some file =>
      match fault with
      | some .interrupted => some (s.goto i (.attempt n))
      | some (.failed name) => some (s.goto i (.finishing (.errorLock name)))
      | none =>
        match L.setlk (s.files file) (wholeFile i) with
        | some locks => some ((s.relock file locks).goto i .announcing)
        | none => some (s.goto i (.probing n))
    | _, _ => none
  | .getlk fails =>
    match (s.shims i).point, (s.shims i).file with
    | .probing n, some file =>
      if fails then some (s.goto i (.finishing (.held 0)))
      else
        match L.getlk (s.files file) (wholeFile i) with
        | some record => some (s.goto i (.finishing (.held (pid record.owner))))
        | none => some (s.goto i (.attempt n))
    | _, _ => none
  | .writes ok =>
    match (s.shims i).point with
    | .finishing line =>
      some (State.exit L (if ok then s.say i line else s) i (some line.status))
    | .announcing =>
      -- nobody is listening when this fails
      some (if ok then (s.say i .ok).goto i .waiting else s.exit L i (some 0))
    | _ => none
  | .released =>
    if (s.shims i).point = .waiting then some (s.exit L i (some 0)) else none
  | .killed =>
    match (s.shims i).point with
    | .exited _ => none
    | _ => some (s.exit L i none)

def step (s : State F T) : Label F → Option (State F T)
  | .shim i action => act L pid s i action
  | .locks n file kind span =>
    (L.setlk (s.files file) ⟨.other n, kind, span⟩).map (s.relock file)
  | .unlocks n file span => some (s.relock file (L.unlock (s.files file) (.other n) span))
  | .closes n file => some (s.relock file (L.close (s.files file) (.other n)))

/-- Nobody has run yet, and what is locked is locked by others. -/
structure Start (L : Fcntl Owner T) (s : State F T) : Prop where
  compatible : ∀ f, L.Compatible (s.files f)
  others : ∀ f o k n, L.holds (s.files f) o k n → ∃ m, o = .other m
  shims : ∀ i, (s.shims i).point = .starting ∧ (s.shims i).stdout = [] ∧ (s.shims i).file = none

namespace Point

def holds : Point → Bool
  | .announcing | .waiting => true
  | _ => false

def alive : Point → Bool
  | .exited _ => false
  | _ => true

def budget : Point → ℕ
  | .starting | .opening => attempts
  | .setting n => n + 1
  | .probing n => n
  | _ => 0

lemma attempt_quiet (n : ℕ) : (attempt n).holds = false ∧ (attempt n).alive = true ∧
    (attempt n).budget = n ∧ attempt n ≠ .finishing .ok ∧
    ∀ k, attempt n = .finishing (.held k) → k = 0 := by
  cases n with
  | zero => exact ⟨rfl, rfl, rfl, by simp [attempt], fun k hk => by cases hk; rfl⟩
  | succ n => exact ⟨rfl, rfl, rfl, by simp [attempt], fun k hk => by cases hk⟩

end Point

def Action.isSetlk : Action F → Bool
  | .setlk _ => true
  | _ => false

def Holds (s : State F T) (i : ℕ) (f : F) : Prop :=
  (s.shims i).file = some f ∧ (s.shims i).point.holds = true

def Blocks (L : Fcntl Owner T) (pid : Owner → ℤ) (s : State F T) (i : ℕ) (k : ℤ) : Prop :=
  ∃ f, (s.shims i).file = some f ∧
    ∃ o kind n, o ≠ .shim i ∧ L.holds (s.files f) o kind n ∧ pid o = k

structure Goes (L : Fcntl Owner T) (pid : Owner → ℤ) (s : State F T) (i : ℕ) (a : Action F)
    (p : Point) : Prop where
  leaves : (s.shims i).point.holds = false ∧ (s.shims i).point.alive = true
  enters : p.holds = false ∧ p.alive = true
  budget : p.budget + a.isSetlk.toNat ≤ (s.shims i).point.budget
  refuses : p ≠ .finishing .ok
  named : ∀ k, p = .finishing (.held k) → k = 0 ∨ Blocks L pid s i k

inductive Acts (L : Fcntl Owner T) (pid : Owner → ℤ) (s : State F T) (i : ℕ) :
    Action F → State F T → Prop
  | goes {a p} : Goes L pid s i a p → Acts L pid s i a (s.goto i p)
  | opened (file) : (s.shims i).point = .opening → Acts L pid s i (.opens (.ok file))
      { s with
        shims := Function.update s.shims i
          { s.shims i with file := some file, point := .setting 2 } }
  | granted {n file locks} : (s.shims i).point = .setting n → (s.shims i).file = some file →
      L.setlk (s.files file) (wholeFile i) = some locks →
      Acts L pid s i (.setlk none) ((s.relock file locks).goto i .announcing)
  | announced : (s.shims i).point = .announcing →
      Acts L pid s i (.writes true) ((s.say i .ok).goto i .waiting)
  | finished {line} : (s.shims i).point = .finishing line →
      Acts L pid s i (.writes true) ((s.say i line).exit L i (some line.status))
  | ended {a status} : (s.shims i).point.alive = true →
      a = .killed ∨ a = .released ∨ a = .writes false →
      ((s.shims i).point = .waiting → status = none ∨ status = some 0) →
      Acts L pid s i a (s.exit L i status)

variable {L : Fcntl Owner T} {pid : Owner → ℤ} {s t : State F T} {i j n : ℕ} {a : Action F} {f : F}
  {o : Owner} {k : Kind} {labels : List (Label F)}

lemma setlk_acts {fault : Option Fault} (h : act L pid s i (.setlk fault) = some t) :
    Acts L pid s i (.setlk fault) t := by
  simp only [act] at h
  split at h
  · next n file hp hf =>
    have hleaves : (s.shims i).point.holds = false ∧ (s.shims i).point.alive = true := by
      rw [hp]
      exact ⟨rfl, rfl⟩
    cases fault with
    | some fault =>
      cases fault with
      | interrupted =>
        obtain rfl := Option.some.inj h
        obtain ⟨hholds, halive, hbudget, hok, hheld⟩ := Point.attempt_quiet n
        refine .goes ⟨hleaves, ⟨hholds, halive⟩, ?_, hok, fun k hk => .inl (hheld k hk)⟩
        rw [hbudget, hp]
        exact le_refl _
      | failed name =>
        obtain rfl := Option.some.inj h
        refine .goes ⟨hleaves, ⟨rfl, rfl⟩, ?_, by simp, fun k hk => by cases hk⟩
        rw [hp]
        exact Nat.succ_le_succ (Nat.zero_le n)
    | none =>
      cases hlocks : L.setlk (s.files file) (wholeFile i) with
      | some locks =>
        simp only [hlocks] at h
        obtain rfl := Option.some.inj h
        exact .granted hp hf hlocks
      | none =>
        simp only [hlocks] at h
        obtain rfl := Option.some.inj h
        refine .goes ⟨hleaves, ⟨rfl, rfl⟩, ?_, by simp, fun k hk => by cases hk⟩
        rw [hp]
        exact le_refl _
  · cases h

lemma getlk_acts {fails : Bool} (hL : L.Lawful) (h : act L pid s i (.getlk fails) = some t) :
    Acts L pid s i (.getlk fails) t := by
  simp only [act] at h
  split at h
  · next n file hp hf =>
    have hleaves : (s.shims i).point.holds = false ∧ (s.shims i).point.alive = true := by
      rw [hp]
      exact ⟨rfl, rfl⟩
    split at h
    · obtain rfl := Option.some.inj h
      exact .goes ⟨hleaves, ⟨rfl, rfl⟩, Nat.zero_le _, by simp, fun k hk => by cases hk; exact .inl rfl⟩
    · cases hlocks : L.getlk (s.files file) (wholeFile i) with
      | some record =>
        simp only [hlocks] at h
        obtain rfl := Option.some.inj h
        obtain ⟨hne, -, n, -, hholds⟩ := hL.probed _ _ _ hlocks
        refine .goes ⟨hleaves, ⟨rfl, rfl⟩, Nat.zero_le _, by simp, fun k hk => .inr ?_⟩
        cases hk
        exact ⟨file, hf, record.owner, record.kind, n, hne, hholds, rfl⟩
      | none =>
        simp only [hlocks] at h
        obtain rfl := Option.some.inj h
        obtain ⟨hholds, halive, hbudget, hok, hheld⟩ := Point.attempt_quiet n
        refine .goes ⟨hleaves, ⟨hholds, halive⟩, ?_, hok, fun k hk => .inl (hheld k hk)⟩
        rw [hbudget, hp]
        exact le_refl _
  · cases h

lemma act_acts (hL : L.Lawful) (h : act L pid s i a = some t) : Acts L pid s i a t := by
  cases a with
  | begins =>
    simp only [act] at h
    split at h
    · next hp =>
      have hgo : ∀ p : Point, p = .opening ∨ p = .finishing .errorUsage →
          Goes L pid s i (.begins : Action F) p := by
        rintro p (rfl | rfl)
        · exact ⟨by rw [hp]; exact ⟨rfl, rfl⟩, ⟨rfl, rfl⟩, by rw [hp]; exact le_refl attempts,
            by simp, fun k hk => by cases hk⟩
        · exact ⟨by rw [hp]; exact ⟨rfl, rfl⟩, ⟨rfl, rfl⟩, Nat.zero_le _, by simp, fun k hk => by cases hk⟩
      split at h
      · obtain rfl := Option.some.inj h
        apply Acts.goes
        apply hgo
        split
        · exact .inr rfl
        · exact .inl rfl
      · obtain rfl := Option.some.inj h
        exact .goes (hgo _ (.inr rfl))
    · cases h
  | opens result =>
    simp only [act] at h
    split at h
    · next hp =>
      cases result with
      | ok file =>
        obtain rfl := Option.some.inj h
        exact .opened file hp
      | error name =>
        obtain rfl := Option.some.inj h
        exact .goes ⟨by rw [hp]; exact ⟨rfl, rfl⟩, ⟨rfl, rfl⟩, Nat.zero_le _, by simp, fun k hk => by cases hk⟩
    · cases h
  | setlk fault => exact setlk_acts h
  | getlk fails => exact getlk_acts hL h
  | writes ok =>
    simp only [act] at h
    split at h
    · next line hp =>
      obtain rfl := Option.some.inj h
      cases ok with
      | true => exact .finished hp
      | false =>
        exact .ended (by rw [hp]; rfl) (.inr (.inr rfl)) fun hw => by cases hp.symm.trans hw
    · next hp =>
      obtain rfl := Option.some.inj h
      cases ok with
      | true => exact .announced hp
      | false => exact .ended (by rw [hp]; rfl) (.inr (.inr rfl)) fun _ => .inr rfl
    · cases h
  | released =>
    simp only [act] at h
    split at h
    · next hp =>
      obtain rfl := Option.some.inj h
      exact .ended (by rw [hp]; rfl) (.inr (.inl rfl)) fun _ => .inr rfl
    · cases h
  | killed =>
    simp only [act] at h
    split at h
    · cases h
    · next hne =>
      obtain rfl := Option.some.inj h
      refine .ended ?_ (.inl rfl) fun _ => .inl rfl
      cases hp : (s.shims i).point with
      | exited status => exact absurd hp (hne status)
      | _ => rfl

def Shim.Tells (x : Shim F) : Prop :=
  match x.point with
  | .waiting => x.stdout = [.ok]
  | .exited status => x.stdout = [] ∨
      ∃ line, x.stdout = [line] ∧ ∀ c, status = some c → c = line.status
  | .finishing line => x.stdout = [] ∧ line ≠ .ok
  | _ => x.stdout = []

structure Inv (L : Fcntl Owner T) (s : State F T) : Prop where
  compatible : ∀ f, L.Compatible (s.files f)
  owned : ∀ f i k n, L.holds (s.files f) (.shim i) k n → Holds s i f ∧ k = .write
  holding : ∀ i f, Holds s i f → ∀ n, L.holds (s.files f) (.shim i) .write n
  placed : ∀ i, (s.shims i).point.holds = true → ∃ f, (s.shims i).file = some f
  tells : ∀ i, (s.shims i).Tells

namespace Shim

variable {x : Shim F}

omit [DecidableEq F] in
lemma Tells.silent (h : x.Tells) (halive : x.point.alive = true) (hw : x.point ≠ .waiting) :
    x.stdout = [] := by
  unfold Tells at h
  split at h
  · next hp => exact absurd hp hw
  · next status hp =>
    rw [hp] at halive
    cases halive
  · exact h.1
  · exact h

omit [DecidableEq F] in
lemma tells_silent (h : x.stdout = []) (hw : x.point ≠ .waiting) (hf : x.point ≠ .finishing .ok) :
    x.Tells := by
  unfold Tells
  split
  · next hp => exact absurd hp hw
  · exact .inl h
  · next line hp => exact ⟨h, fun hl => hf (hl ▸ hp)⟩
  · exact h

end Shim

namespace Inv

omit [DecidableEq F] in
lemma not_holds_of_point (h : (s.shims i).point.holds = false) : ¬Holds s i f :=
  fun hh => Bool.noConfusion (h.symm.trans hh.2)

omit [DecidableEq F] in
lemma moved (h : Inv L s) {x : Shim F} (hfile : x.point.holds = true → x.file = (s.shims i).file)
    (hholds : x.point.holds = (s.shims i).point.holds) (htells : x.Tells) :
    Inv L { s with shims := Function.update s.shims i x } := by
  have hiff : ∀ j f, Holds { s with shims := Function.update s.shims i x } j f ↔ Holds s j f := by
    intro j f
    by_cases hj : j = i
    · subst hj
      simp only [Holds, Function.update_self, hholds]
      refine and_congr_left fun hp => ?_
      rw [hfile (hholds.trans hp)]
    · simp only [Holds, Function.update_of_ne hj]
  refine ⟨h.compatible, fun f j k n hk => ?_, fun j f hh => h.holding j f ((hiff j f).mp hh),
    fun j hp => ?_, fun j => ?_⟩
  · obtain ⟨hh, hwrite⟩ := h.owned f j k n hk
    exact ⟨(hiff j f).mpr hh, hwrite⟩
  · by_cases hj : j = i
    · subst hj
      simp only [Function.update_self] at hp ⊢
      obtain ⟨f, hf⟩ := h.placed j (hholds.symm.trans hp)
      exact ⟨f, (hfile hp).trans hf⟩
    · simp only [Function.update_of_ne hj] at hp ⊢
      exact h.placed j hp
  · by_cases hj : j = i
    · subst hj
      simpa only [Function.update_self] using htells
    · simpa only [Function.update_of_ne hj] using h.tells j

omit [DecidableEq F] in
lemma exit_shims (s : State F T) (i j : ℕ) (status : Option ℕ) :
    (s.exit L i status).shims j =
      if j = i then { s.shims i with point := .exited status } else s.shims j := by
  simp only [State.exit, State.goto, Function.update_apply]

omit [DecidableEq F] in
lemma exited (hL : L.Lawful) (h : Inv L s) {status : Option ℕ} {stdout : List Line}
    (hsay : t = { s with shims := Function.update s.shims i { s.shims i with stdout := stdout } })
    (htells : ({ s.shims i with stdout := stdout, point := .exited status } : Shim F).Tells) :
    Inv L (t.exit L i status) := by
  subst hsay
  have hshims : ∀ j, (State.exit L { s with
      shims := Function.update s.shims i { s.shims i with stdout := stdout } } i status).shims j =
        if j = i then { s.shims i with stdout := stdout, point := .exited status }
        else s.shims j := by
    intro j
    rw [exit_shims]
    by_cases hj : j = i
    · simp [hj]
    · simp [hj]
  have hholds : ∀ j f, Holds (State.exit L { s with
      shims := Function.update s.shims i { s.shims i with stdout := stdout } } i status) j f ↔
        j ≠ i ∧ Holds s j f := by
    intro j f
    simp only [Holds, hshims]
    by_cases hj : j = i
    · simp [hj, Point.holds]
    · simp [hj]
  refine ⟨fun f => (h.compatible f).close hL _, fun f j k n hk => ?_, fun j f hh n => ?_,
    fun j hp => ?_, fun j => ?_⟩
  · obtain ⟨hk, hne⟩ := (hL.closed _ _ _ _ _).mp hk
    obtain ⟨hh, hwrite⟩ := h.owned f j k n hk
    exact ⟨(hholds j f).mpr ⟨fun hj => hne (congrArg _ hj), hh⟩, hwrite⟩
  · obtain ⟨hj, hh⟩ := (hholds j f).mp hh
    exact (hL.closed _ _ _ _ _).mpr ⟨h.holding j f hh n, fun ho => hj (Owner.shim.inj ho)⟩
  · rw [hshims] at hp ⊢
    split at hp
    · cases hp
    · next hj =>
      rw [if_neg hj]
      exact h.placed j hp
  · rw [hshims]
    split
    · exact htells
    · exact h.tells j

lemma granted (hL : L.Lawful) (h : Inv L s) {locks : T} (hp : (s.shims i).point = .setting n)
    (hf : (s.shims i).file = some f) (hl : L.setlk (s.files f) (wholeFile i) = some locks) :
    Inv L ((s.relock f locks).goto i .announcing) := by
  have hcompatible := (h.compatible f).setlk hL hl
  have hown : ∀ m, L.holds locks (.shim i) .write m :=
    fun m => (hL.granted _ _ _ hl _ _ _).mpr (.inl ⟨rfl, rfl, Span.mem_whole m⟩)
  have hquiet : (s.shims i).point.holds = false := by rw [hp]; rfl
  have hfiles : ∀ g, ((s.relock f locks).goto i .announcing).files g =
      if g = f then locks else s.files g := by
    intro g
    simp only [State.relock, State.goto, Function.update_apply]
  have hshims : ∀ j, ((s.relock f locks).goto i .announcing).shims j =
      if j = i then { s.shims i with point := .announcing } else s.shims j := by
    intro j
    simp only [State.relock, State.goto, Function.update_apply]
  have hself : Holds ((s.relock f locks).goto i .announcing) i f := by
    rw [Holds, hshims, if_pos rfl]
    exact ⟨hf, rfl⟩
  refine ⟨fun g => ?_, fun g j k m hk => ?_, fun j g hh m => ?_, fun j hj => ?_, fun j => ?_⟩
  · rw [hfiles]
    split
    · exact hcompatible
    · exact h.compatible g
  · rw [hfiles] at hk
    split at hk
    · next hg =>
      subst hg
      obtain rfl : j = i := Owner.shim.inj (hcompatible m _ _ k (hown m) hk)
      rcases (hL.granted _ _ _ hl _ _ _).mp hk with ⟨-, hwrite, -⟩ | ⟨-, hout⟩
      · exact ⟨hself, hwrite⟩
      · exact absurd ⟨rfl, Span.mem_whole m⟩ hout
    · next hg =>
      obtain ⟨hh, hwrite⟩ := h.owned g j k m hk
      have hj : j ≠ i := fun hj => not_holds_of_point hquiet (hj ▸ hh)
      rw [Holds, hshims, if_neg hj]
      exact ⟨hh, hwrite⟩
  · rw [Holds, hshims] at hh
    rw [hfiles]
    by_cases hj : j = i
    · rw [if_pos hj] at hh
      obtain rfl := Option.some.inj (hf.symm.trans hh.1)
      rw [if_pos rfl, hj]
      exact hown m
    · rw [if_neg hj] at hh
      have hold := h.holding j g hh m
      split
      · next hg =>
        -- the file was free of other locks
        subst hg
        exact absurd ⟨fun ho => hj (Owner.shim.inj ho), .inl rfl, m, Span.mem_whole m, hold⟩
          (hL.free hl (.shim j) .write)
      · exact hold
  · rw [hshims] at hj ⊢
    split at hj
    · next hji =>
      rw [if_pos hji]
      exact ⟨f, hf⟩
    · next hji =>
      rw [if_neg hji]
      exact h.placed j hj
  · rw [hshims]
    split
    · refine Shim.tells_silent ((h.tells i).silent ?_ ?_) (by simp) (by simp)
      · rw [hp]
        rfl
      · rw [hp]
        simp
    · exact h.tells j

lemma acts (hL : L.Lawful) (h : Inv L s) (ha : Acts L pid s i a t) : Inv L t := by
  cases ha with
  | @goes _ p hg =>
    refine h.moved (fun _ => rfl) (hg.enters.1.trans hg.leaves.1.symm) ?_
    have hwait : ∀ q : Point, q.holds = false → q ≠ .waiting := by
      rintro q hq rfl
      cases hq
    exact Shim.tells_silent ((h.tells i).silent hg.leaves.2 (hwait _ hg.leaves.1))
      (hwait _ hg.enters.1) hg.refuses
  | opened file hp =>
    have hsilent : (s.shims i).stdout = [] :=
      (h.tells i).silent (by rw [hp]; rfl) (by rw [hp]; simp)
    refine h.moved (fun hh => by cases hh) (by rw [hp]; rfl) ?_
    exact Shim.tells_silent hsilent (by simp) (by simp)
  | granted hp hf hl => exact h.granted hL hp hf hl
  | announced hp =>
    have hsilent : (s.shims i).stdout = [] :=
      (h.tells i).silent (by rw [hp]; rfl) (by rw [hp]; simp)
    have hsay : (s.say i .ok).goto i .waiting = { s with
        shims := Function.update s.shims i
          { s.shims i with stdout := [.ok], point := .waiting } } := by
      simp [State.say, State.goto, hsilent]
    rw [hsay]
    refine h.moved (fun _ => rfl) (by rw [hp]; rfl) ?_
    rfl
  | @finished line hp =>
    have hsilent : (s.shims i).stdout = [] :=
      (h.tells i).silent (by rw [hp]; rfl) (by rw [hp]; simp)
    refine h.exited hL rfl (.inr ⟨line, ?_, fun c hc => (Option.some.inj hc).symm⟩)
    rw [hsilent]
    rfl
  | @ended _ status halive _ hstatus =>
    have hsay : s = { s with
        shims := Function.update s.shims i { s.shims i with stdout := (s.shims i).stdout } } := by
      simp
    refine h.exited hL hsay ?_
    by_cases hw : (s.shims i).point = .waiting
    · have hok : (s.shims i).stdout = [.ok] := by
        have htells := h.tells i
        unfold Shim.Tells at htells
        rwa [hw] at htells
      refine .inr ⟨.ok, hok, fun c hc => ?_⟩
      rcases hstatus hw with hs | hs
      · cases hs.symm.trans hc
      · exact (Option.some.inj (hs.symm.trans hc)).symm
    · exact .inl ((h.tells i).silent halive hw)

lemma relock (h : Inv L s) {locks : T} (hc : L.Compatible locks)
    (hkeep : ∀ i k n, L.holds locks (.shim i) k n ↔ L.holds (s.files f) (.shim i) k n) :
    Inv L (s.relock f locks) := by
  have hfiles : ∀ g, (s.relock f locks).files g = if g = f then locks else s.files g := by
    intro g
    simp only [State.relock, Function.update_apply]
  refine ⟨fun g => ?_, fun g i k n hk => ?_, fun i g hh n => ?_, h.placed, h.tells⟩
  · rw [hfiles]
    split
    · exact hc
    · exact h.compatible g
  · rw [hfiles] at hk
    split at hk
    · next hg =>
      subst hg
      exact h.owned g i k n ((hkeep i k n).mp hk)
    · exact h.owned g i k n hk
  · have hold := h.holding i g hh n
    rw [hfiles]
    split
    · next hg =>
      subst hg
      exact (hkeep i .write n).mpr hold
    · exact hold

lemma step {l : Label F} (hL : L.Lawful) (h : Inv L s) (hs : Lock.step L pid s l = some t) :
    Inv L t := by
  have hother : ∀ i n : ℕ, Owner.shim i ≠ .other n := fun i n ho => by cases ho
  cases l with
  | shim i a => exact h.acts hL (act_acts hL hs)
  | locks n file kind span =>
    obtain ⟨locks, hl, rfl⟩ := Option.map_eq_some_iff.mp hs
    exact h.relock ((h.compatible file).setlk hL hl) fun i => hL.kept_of_granted hl (hother i n)
  | unlocks n file span =>
    obtain rfl := Option.some.inj hs
    exact h.relock ((h.compatible file).unlock hL _ _) fun i => hL.kept_of_unlocked (hother i n) span
  | closes n file =>
    obtain rfl := Option.some.inj hs
    exact h.relock ((h.compatible file).close hL _) fun i => hL.kept_of_closed (hother i n)

end Inv

namespace Acts

lemma others (h : Acts L pid s i a t) (hj : j ≠ i) : t.shims j = s.shims j := by
  cases h with
  | goes | opened | granted | announced | finished | ended =>
    simp [State.goto, State.relock, State.say, State.exit, Function.update_of_ne hj]

lemma alive (h : Acts L pid s i a t) : (s.shims i).point.alive = true := by
  cases h with
  | goes hg => exact hg.leaves.2
  | opened file hp => rw [hp]; rfl
  | granted hp => rw [hp]; rfl
  | announced hp => rw [hp]; rfl
  | finished hp => rw [hp]; rfl
  | ended halive => exact halive

lemma prints (h : Acts L pid s i a t) :
    ∃ new, (t.shims i).stdout = (s.shims i).stdout ++ new ∧ new.length ≤ 1 := by
  cases h with
  | announced => exact ⟨[.ok], by simp [State.goto, State.say], le_refl _⟩
  | @finished line => exact ⟨[line], by simp [State.goto, State.say, State.exit], le_refl _⟩
  | goes | opened | granted | ended =>
    exact ⟨[], by simp [State.goto, State.relock, State.exit], Nat.zero_le _⟩

lemma exits (h : Acts L pid s i a t) (hdead : (t.shims i).point.alive = false) :
    (∃ line, (s.shims i).point = .finishing line ∧
        (t.shims i).stdout = (s.shims i).stdout ++ [line]) ∨
      (t.shims i).stdout = (s.shims i).stdout ∧
        (a = .killed ∨ a = .released ∨ a = .writes false) := by
  cases h with
  | @goes _ p hg =>
    have halive := hg.enters.2
    simp only [State.goto, Function.update_self] at hdead
    exact Bool.noConfusion (hdead.symm.trans halive)
  | opened | granted | announced =>
    simp only [State.goto, Function.update_self] at hdead
    cases hdead
  | @finished line hp => exact .inl ⟨line, hp, by simp [State.goto, State.say, State.exit]⟩
  | ended halive hend => exact .inr ⟨by simp [State.goto, State.exit], hend⟩

lemma frame (hL : L.Lawful) (h : Acts L pid s i a t) (ho : o ≠ .shim i) :
    L.holds (t.files f) o k n ↔ L.holds (s.files f) o k n := by
  have hclose : ∀ u : State F T, ∀ status,
      L.holds ((u.exit L i status).files f) o k n ↔ L.holds (u.files f) o k n :=
    fun u status => hL.kept_of_closed ho k n
  cases h with
  | goes | opened | announced => rfl
  | finished | ended => exact hclose _ _
  | @granted n file locks hp hf hl =>
    simp only [State.goto, State.relock, Function.update_apply]
    split
    · next hfile =>
      subst hfile
      exact hL.kept_of_granted hl ho k _
    · rfl

lemma spends (h : Acts L pid s i a t) :
    (t.shims i).point.budget + a.isSetlk.toNat ≤ (s.shims i).point.budget := by
  cases h with
  | goes hg =>
    have hb := hg.budget
    simpa [State.goto] using hb
  | opened file hp =>
    rw [hp]
    simp [Point.budget, attempts, Action.isSetlk]
  | granted hp =>
    rw [hp]
    simp [State.goto, Point.budget, Action.isSetlk]
  | announced | finished =>
    simp [State.goto, State.say, State.exit, Point.budget, Action.isSetlk]
  | ended halive hend =>
    rcases hend with rfl | rfl | rfl <;>
    simp [State.goto, State.exit, Point.budget, Action.isSetlk]

lemma names {k : ℤ} (h : Acts L pid s i a t)
    (hk : (t.shims i).point = .finishing (.held k) ∨ .held k ∈ (t.shims i).stdout) :
    ((s.shims i).point = .finishing (.held k) ∨ .held k ∈ (s.shims i).stdout) ∨
      k = 0 ∨ Blocks L pid s i k := by
  cases h with
  | goes hg =>
    simp only [State.goto, Function.update_self] at hk
    exact hk.elim (fun hp => .inr (hg.named k hp)) fun hs => .inl (.inr hs)
  | opened file hp =>
    simp only [Function.update_self] at hk
    exact hk.elim (fun hp => by cases hp) fun hs => .inl (.inr hs)
  | granted =>
    simp only [State.goto, State.relock, Function.update_self] at hk
    exact hk.elim (fun hp => by cases hp) fun hs => .inl (.inr hs)
  | announced =>
    simp only [State.goto, State.say, Function.update_self, List.mem_append, List.mem_singleton] at hk
    rcases hk with hp | hs | hs
    · cases hp
    · exact .inl (.inr hs)
    · cases hs
  | finished hp =>
    simp only [State.goto, State.say, State.exit, Function.update_self, List.mem_append,
      List.mem_singleton] at hk
    rcases hk with hp | hs | hs
    · cases hp
    · exact .inl (.inr hs)
    · exact .inl (.inl (hp.trans (congrArg _ hs.symm)))
  | ended =>
    simp only [State.goto, State.exit, Function.update_self] at hk
    exact hk.elim (fun hp => by cases hp) fun hs => .inl (.inr hs)

end Acts

def Label.setlkOf (i : ℕ) : Label F → Bool
  | .shim j a => j == i && a.isSetlk
  | _ => false

abbrev Runs (L : Fcntl Owner T) (pid : Owner → ℤ) (s : State F T) (labels : List (Label F))
    (t : State F T) : Prop :=
  Run (fun s l t => step L pid s l = some t) s labels t

/-- What the shims do to each other and to other processes. -/
structure Exclusion (L : Fcntl Owner T) (pid : Owner → ℤ) (s₀ : State F T)
    (labels : List (Label F)) (s : State F T) : Prop where
  alone : ∀ i j f, Holds s i f → Holds s j f → i = j
  whole : ∀ i f, Holds s i f → ∀ o k n, L.holds (s.files f) o k n ↔ o = .shim i ∧ k = .write
  announced : ∀ i, .ok ∈ (s.shims i).stdout → (s.shims i).point.alive = true → ∃ f, Holds s i f
  brief : ∀ i, (s.shims i).stdout.length ≤ 1
  status : ∀ i, ∀ line ∈ (s.shims i).stdout, ∀ c, (s.shims i).point = .exited (some c) →
    c = line.status
  named : ∀ i k, .held k ∈ (s.shims i).stdout → k = 0 ∨
    ∃ before u, before <+: labels ∧ Runs L pid s₀ before u ∧ Blocks L pid u i k
  patient : ∀ i, labels.countP (Label.setlkOf i) ≤ attempts
  harmless : ∀ i a t, step L pid s (.shim i a) = some t → ∀ f o k n, o ≠ .shim i →
    (L.holds (t.files f) o k n ↔ L.holds (s.files f) o k n)

variable {s₀ : State F T} {l : Label F}

lemma others_shims (h : step L pid s l = some t) (hl : ∀ i a, l ≠ .shim i a) : t.shims = s.shims := by
  cases l with
  | shim i a => exact absurd rfl (hl i a)
  | locks =>
    obtain ⟨locks, -, rfl⟩ := Option.map_eq_some_iff.mp h
    rfl
  | unlocks | closes =>
    obtain rfl := Option.some.inj h
    rfl

omit [DecidableEq F] in
lemma Start.inv (h : Start L s) : Inv L s := by
  refine ⟨h.compatible, fun f i k n hk => ?_, fun i f hh => ?_, fun i hp => ?_, fun i => ?_⟩
  · obtain ⟨m, hm⟩ := h.others f _ k n hk
    cases hm
  · have hp := hh.2
    rw [(h.shims i).1] at hp
    cases hp
  · rw [(h.shims i).1] at hp
    cases hp
  · obtain ⟨hp, hs, -⟩ := h.shims i
    exact Shim.tells_silent hs (by rw [hp]; simp) (by rw [hp]; simp)

lemma run_named (hL : L.Lawful) (hstart : Start L s₀) (h : Runs L pid s₀ labels s) : ∀ i k,
    (s.shims i).point = .finishing (.held k) ∨ .held k ∈ (s.shims i).stdout → k = 0 ∨
      ∃ before u, before <+: labels ∧ Runs L pid s₀ before u ∧ Blocks L pid u i k := by
  have hinv := Run.history (I := fun labels s => Runs L pid s₀ labels s ∧ ∀ i k,
    (s.shims i).point = .finishing (.held k) ∨ .held k ∈ (s.shims i).stdout → k = 0 ∨
      ∃ before u, before <+: labels ∧ Runs L pid s₀ before u ∧ Blocks L pid u i k) ?_ h
    ⟨.nil _, fun i k hk => ?_⟩
  · exact hinv.2
  · rintro labels s l t ⟨hrun, hi⟩ hs
    have hold : ∀ i k, (s.shims i).point = .finishing (.held k) ∨ .held k ∈ (s.shims i).stdout →
        k = 0 ∨ ∃ before u, before <+: labels ++ [l] ∧ Runs L pid s₀ before u ∧ Blocks L pid u i k := by
      intro i k hk
      refine (hi i k hk).imp_right ?_
      rintro ⟨before, u, hb, hu, hblocks⟩
      exact ⟨before, u, List.IsPrefix.trans hb (List.prefix_append ..), hu, hblocks⟩
    refine ⟨hrun.snoc hs, fun i k hk => ?_⟩
    by_cases hl : ∃ a, l = .shim i a
    · obtain ⟨a, rfl⟩ := hl
      rcases (act_acts hL hs).names hk with hk | rfl | hblocks
      · exact hold i k hk
      · exact .inl rfl
      · exact .inr ⟨labels, s, List.prefix_append .., hrun, hblocks⟩
    · have hsame : t.shims i = s.shims i := by
        by_cases hj : ∃ j a, l = .shim j a
        · obtain ⟨j, a, rfl⟩ := hj
          exact (act_acts hL hs).others fun hij => hl ⟨a, by rw [hij]⟩
        · rw [others_shims hs fun j a ha => hj ⟨j, a, ha⟩]
      exact hold i k (hsame ▸ hk)
  · obtain ⟨hp, hs, -⟩ := hstart.shims i
    rw [hp, hs] at hk
    rcases hk with hk | hk
    · cases hk
    · cases hk

lemma run_patient (hL : L.Lawful) (hstart : Start L s₀) (h : Runs L pid s₀ labels s) (i : ℕ) :
    labels.countP (Label.setlkOf i) + (s.shims i).point.budget ≤ attempts := by
  refine Run.history (I := fun labels s =>
    labels.countP (Label.setlkOf i) + (s.shims i).point.budget ≤ attempts) ?_ h ?_
  · intro labels s l t hi hs
    rw [List.countP_append, List.countP_singleton]
    by_cases hl : ∃ a, l = .shim i a
    · obtain ⟨a, rfl⟩ := hl
      have hspends := (act_acts hL hs).spends
      have hcount : Label.setlkOf i (.shim i a : Label F) = a.isSetlk := by simp [Label.setlkOf]
      rw [hcount]
      cases ha : a.isSetlk <;> simp [ha] at hspends ⊢ <;> omega
    · have hcount : Label.setlkOf i l = false := by
        cases l with
        | shim j a =>
          have hj : j ≠ i := fun hj => hl ⟨a, by rw [hj]⟩
          simp [Label.setlkOf, hj]
        | _ => rfl
      have hsame : t.shims i = s.shims i := by
        by_cases hj : ∃ j a, l = .shim j a
        · obtain ⟨j, a, rfl⟩ := hj
          exact (act_acts hL hs).others fun hij => hl ⟨a, by rw [hij]⟩
        · rw [others_shims hs fun j a ha => hj ⟨j, a, ha⟩]
      rw [hcount, hsame]
      simpa using hi
  · rw [(hstart.shims i).1]
    exact le_refl _

omit [DecidableEq F] in
lemma Inv.only (h : Inv L s) (hh : Holds s i f) (o : Owner) (k : Kind) (n : ℕ) :
    L.holds (s.files f) o k n ↔ o = .shim i ∧ k = .write := by
  constructor
  · intro hk
    obtain rfl := h.compatible f n _ o k (h.holding i f hh n) hk
    exact ⟨rfl, (h.owned f i k n hk).2⟩
  · rintro ⟨rfl, rfl⟩
    exact h.holding i f hh n

omit [DecidableEq F] in
lemma Inv.alone (h : Inv L s) (hi : Holds s i f) (hj : Holds s j f) : i = j :=
  Owner.shim.inj (h.compatible f 0 _ _ .write (h.holding j f hj 0) (h.holding i f hi 0))

omit [DecidableEq F] in
lemma Inv.announced (h : Inv L s) (hok : .ok ∈ (s.shims i).stdout)
    (halive : (s.shims i).point.alive = true) : ∃ f, Holds s i f := by
  have hp : (s.shims i).point = .waiting := by
    by_contra hw
    rw [(h.tells i).silent halive hw] at hok
    cases hok
  have hholds : (s.shims i).point.holds = true := by
    rw [hp]
    rfl
  obtain ⟨f, hf⟩ := h.placed i hholds
  exact ⟨f, hf, hholds⟩

/-- At any time, whatever the shims and other processes did. -/
theorem lock_exclusion (L : Fcntl Owner T) (hL : L.Lawful) (pid : Owner → ℤ) (s₀ s : State F T)
    (labels : List (Label F)) (hstart : Start L s₀) (h : Runs L pid s₀ labels s) :
    Exclusion L pid s₀ labels s := by
  have hinv : Inv L s := h.invariant (fun _ _ _ hi hs => hi.step hL hs) hstart.inv
  refine ⟨fun i j f hi hj => hinv.alone hi hj, fun i f hh => hinv.only hh,
    fun i hok halive => hinv.announced hok halive, fun i => ?_, fun i line hline c hc => ?_,
    fun i k hk => run_named hL hstart h i k (.inr hk), fun i => ?_,
    fun i a t hs f o k n ho => (act_acts hL hs).frame hL ho⟩
  · have htells := hinv.tells i
    unfold Shim.Tells at htells
    split at htells
    · simp [htells]
    · rcases htells with hs | ⟨line, hs, -⟩ <;> simp [hs]
    · simp [htells.1]
    · simp [htells]
  · have htells := hinv.tells i
    unfold Shim.Tells at htells
    rw [hc] at htells
    rcases htells with hs | ⟨said, hs, hstatus⟩
    · rw [hs] at hline
      cases hline
    · rw [hs] at hline
      obtain rfl := List.mem_singleton.mp hline
      exact hstatus c rfl
  · exact Nat.le_trans (Nat.le_add_right _ _) (run_patient hL hstart h i)

def twoShims : State ℕ (Locks Owner) where
  files := fun _ => []
  shims := fun _ => ⟨["lock"], none, .starting, []⟩

def contested : List (Label ℕ) :=
  [.shim 0 .begins, .shim 1 .begins, .shim 0 (.opens (.ok 7)), .shim 1 (.opens (.ok 7)),
    .shim 0 (.setlk none), .shim 1 (.setlk (some .interrupted)), .shim 1 (.setlk none),
    .shim 1 (.getlk false), .shim 0 (.writes true), .shim 1 (.writes true)]

def shimPid : Owner → ℤ
  | .shim i => 100 + i
  | .other _ => -1

lemma twoShims_start : Start (Locks.fcntl Owner) twoShims :=
  ⟨fun _ => Locks.compatible_nil, fun _ _ _ _ h => absurd h.choose_spec.1 List.not_mem_nil,
    fun _ => ⟨rfl, rfl, rfl⟩⟩

theorem lock_exclusion_contested :
    ∃ s, exec (step (Locks.fcntl Owner) shimPid) twoShims contested = some s ∧
      (∃ f, Holds s 0 f) ∧ .held 100 ∈ (s.shims 1).stdout ∧
        ∃ before u, before <+: contested ∧ Runs (Locks.fcntl Owner) shimPid twoShims before u ∧
          Blocks (Locks.fcntl Owner) shimPid u 1 100 := by
  have hk : (exec (step (Locks.fcntl Owner) shimPid) twoShims contested).any (fun s =>
      (s.shims 0).point.alive && (s.shims 0).stdout.contains .ok &&
        (s.shims 1).stdout.contains (.held 100)) = true := by
    decide +kernel
  obtain ⟨s, hs, hp⟩ := Option.any_eq_true .. |>.mp hk
  simp only [Bool.and_eq_true, List.contains_iff_mem] at hp
  have hex := lock_exclusion (Locks.fcntl Owner) Locks.fcntl_lawful shimPid twoShims s contested
    twoShims_start (exec_run hs)
  refine ⟨s, hs, hex.announced 0 hp.1.2 hp.1.1, hp.2, ?_⟩
  exact (hex.named 1 100 hp.2).resolve_left (by decide)

end Forcola.Native.Lock
