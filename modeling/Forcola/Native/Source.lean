import Forcola.Library.Table
import Forcola.Native.Identity

/-! The operating system as the tracker sees it, and the log of what it answered. -/

namespace Forcola.Native

open Forcola.Library

inductive Platform
  | linux
  | macos
deriving DecidableEq, Repr

/-- `trait Source`; the state `σ` lets every answer depend on everything asked before. -/
structure Source (σ : Type) where
  read : ℕ → σ → Io (Option ProcessRecord) × σ
  children : ℕ → σ → Io (List ℕ) × σ
  groupMembers : ℕ → σ → Io (List ℕ) × σ
  signal : ℤ → ℕ → σ → Io Unit × σ
  reap : ℕ → σ → Io Unit × σ
  now : Instant → σ → Instant × σ

/-- What the compiled tracker also depends on: the target platform and the unspecified,
possibly changing iteration order of std hash maps. -/
structure Host (σ : Type) extends Source σ where
  platform : Platform
  order : {α : Type} → List α → σ → List α × σ
  order_perm : ∀ {α : Type} (l : List α) (s : σ), (order l s).1.Perm l

def Host.empty : Host Unit where
  read _ _ := (.ok none, ())
  children _ _ := (.ok [], ())
  groupMembers _ _ := (.ok [], ())
  signal _ _ _ := (.ok (), ())
  reap _ _ := (.ok (), ())
  now reference _ := (reference, ())
  platform := .linux
  order l s := (l, s)
  order_perm l _ := .refl l

inductive Call
  | read (pid : ℕ) (answer : Io (Option ProcessRecord))
  | children (pid : ℕ) (answer : Io (List ℕ))
  | groupMembers (pgid : ℕ) (answer : Io (List ℕ))
  | signal (target : ℤ) (signal : ℕ) (answer : Io Unit)
  | reap (pid : ℕ) (answer : Io Unit)
  | now (reference answer : Instant)

structure Held where
  processes : List ProcessRecord
  groups : List ProcessIdentity

def Held.Records (held : Held) (id : ProcessIdentity) : Prop :=
  id ∈ held.groups ∨ ∃ record ∈ held.processes, record.identity = id

inductive Failure
  | inventory (error : IoError)
  | incompleteScans
  | processLimit
  | groupLimit
  | rootLost
  | lateAdoption
  | identityRead
  | invalidPid
  | signal
  | reap
  | shortened
  | deadline
  | supervisor
deriving DecidableEq, Repr

/-- Log entries, newest first in a log. No branch of the tracker reads the log. -/
inductive Event
  | call (call : Call) (held : Held)
  | failed (why : Failure)
  | scanned (incomplete live : Bool)
  | advanced

inductive Mark
  | scanned (incomplete live : Bool)
  | advanced
deriving DecidableEq, Repr

def Event.mark? : Event → Option Mark
  | .scanned incomplete live => some (.scanned incomplete live)
  | .advanced => some .advanced
  | _ => none

def marks (log : List Event) : List Mark :=
  log.filterMap Event.mark?

end Forcola.Native
