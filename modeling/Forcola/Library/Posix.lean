import Mathlib.Data.Nat.Notation
import Mathlib.Data.List.Basic

/-! The user and group identity of a process, and the calls that replace it. -/

namespace Forcola.Posix

structure Ids where
  real : ℕ
  effective : ℕ
  saved : ℕ
deriving DecidableEq, Repr

structure Process where
  uid : Ids
  gid : Ids
  groups : List ℕ
deriving DecidableEq, Repr

inductive Setter
  | setgroups (groups : List ℕ)
  | setgid (gid : ℕ)
  | setuid (uid : ℕ)
deriving DecidableEq, Repr

/-- `refuses` are the errors a call may have besides the missing privilege, such as a limit. -/
structure Kernel (ε : Type) where
  privileged : Process → Setter → Bool
  refuses : Process → Setter → Option ε
  eperm : ε

variable {ε : Type} {k : Kernel ε} {p p' : Process} {id : ℕ}

/-- With the privilege all three ids are set, without it only the effective one. -/
def Ids.set (privileged : Bool) (ids : Ids) (id : ℕ) : Option Ids :=
  if privileged then some ⟨id, id, id⟩
  else if id = ids.real ∨ id = ids.saved then some { ids with effective := id }
  else none

lemma Ids.set_effective {privileged : Bool} {ids ids' : Ids} (h : ids.set privileged id = some ids') :
    ids'.effective = id := by
  rw [Ids.set] at h
  split at h
  · obtain rfl := Option.some.inj h
    rfl
  · split at h
    · obtain rfl := Option.some.inj h
      rfl
    · cases h

def permitted (k : Kernel ε) (p : Process) : Setter → Option Process
  | .setgroups groups =>
    if k.privileged p (.setgroups groups) then some { p with groups := groups } else none
  | .setgid gid =>
    (p.gid.set (k.privileged p (.setgid gid)) gid).map fun ids => { p with gid := ids }
  | .setuid uid =>
    (p.uid.set (k.privileged p (.setuid uid)) uid).map fun ids => { p with uid := ids }

def Setter.call (k : Kernel ε) (p : Process) (c : Setter) : Except ε Process :=
  match k.refuses p c with
  | some e => .error e
  | none =>
    match permitted k p c with
    | some p' => .ok p'
    | none => .error k.eperm

def run (k : Kernel ε) (p : Process) : List Setter → List Setter × Except ε Process
  | [] => ([], .ok p)
  | c :: rest =>
    match c.call k p with
    | .error e => ([c], .error e)
    | .ok p' => (c :: (run k p' rest).1, (run k p' rest).2)

def Process.exec (p : Process) : Process :=
  { p with uid := { p.uid with saved := p.uid.effective }
           gid := { p.gid with saved := p.gid.effective } }

lemma call_permitted {c : Setter} (h : c.call k p = .ok p') : permitted k p c = some p' := by
  rw [Setter.call] at h
  split at h
  · cases h
  · split at h
    · next hp =>
      rw [hp, Except.ok.inj h]
    · cases h

lemma call_setgroups {groups : List ℕ} (h : (Setter.setgroups groups).call k p = .ok p') :
    p' = { p with groups := groups } := by
  have hp := call_permitted h
  rw [permitted] at hp
  split at hp
  · exact (Option.some.inj hp).symm
  · cases hp

lemma call_setgid (h : (Setter.setgid id).call k p = .ok p') :
    ∃ ids, ids.effective = id ∧ p' = { p with gid := ids } := by
  obtain ⟨ids, hset, rfl⟩ := Option.map_eq_some_iff.mp (call_permitted h)
  exact ⟨ids, Ids.set_effective hset, rfl⟩

lemma call_setuid (h : (Setter.setuid id).call k p = .ok p') :
    ∃ ids, ids.effective = id ∧ p' = { p with uid := ids } := by
  obtain ⟨ids, hset, rfl⟩ := Option.map_eq_some_iff.mp (call_permitted h)
  exact ⟨ids, Ids.set_effective hset, rfl⟩

lemma run_calls (k : Kernel ε) (p : Process) (calls : List Setter) :
    (run k p calls).1 <+: calls := by
  induction calls generalizing p with
  | nil => exact List.prefix_rfl
  | cons c rest ih =>
    rw [run]
    split
    · exact ⟨rest, rfl⟩
    · exact List.cons_prefix_cons.mpr ⟨rfl, ih _⟩

lemma run_cons {c : Setter} {rest : List Setter} (h : (run k p (c :: rest)).2 = .ok p') :
    ∃ q, c.call k p = .ok q ∧ (run k q rest).2 = .ok p' := by
  rw [run] at h
  split at h
  · cases h
  · next q hq => exact ⟨q, hq, h⟩

lemma run_append {first second : List Setter} (h : (run k p (first ++ second)).2 = .ok p') :
    ∃ q, (run k p first).2 = .ok q ∧ (run k q second).2 = .ok p' := by
  induction first generalizing p with
  | nil => exact ⟨p, rfl, h⟩
  | cons c rest ih =>
    obtain ⟨q, hcall, hrest⟩ := run_cons h
    obtain ⟨r, hr, hsecond⟩ := ih hrest
    refine ⟨r, ?_, hsecond⟩
    simp only [run, hcall, hr]

def Kernel.root (eperm : ε) : Kernel ε :=
  ⟨fun _ _ => true, fun _ _ => none, eperm⟩

lemma run_root (eperm : ε) (p : Process) (calls : List Setter) :
    ∃ p', (run (.root eperm) p calls).2 = .ok p' := by
  induction calls generalizing p with
  | nil => exact ⟨p, rfl⟩
  | cons c rest ih =>
    have hcall : ∃ q, c.call (.root eperm) p = .ok q := by
      cases c <;> exact ⟨_, rfl⟩
    obtain ⟨q, hq⟩ := hcall
    obtain ⟨p', hp'⟩ := ih q
    refine ⟨p', ?_⟩
    simp only [run, hq, hp']

end Forcola.Posix
