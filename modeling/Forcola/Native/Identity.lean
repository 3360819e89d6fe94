import Mathlib.Algebra.Order.Ring.Int

/-! Process identities and the operating-system errors the tracker distinguishes. -/

namespace Forcola.Native

/-- Linux ticks are relative to a boot, so the boot id is part of the value. -/
inductive StartTime
  | linux (bootId : String) (ticks : ℕ)
  | macos (seconds microseconds : ℕ)
deriving DecidableEq, Repr

structure ProcessIdentity where
  pid : ℕ
  pgid : ℕ
  startTime : StartTime
deriving DecidableEq, Repr

structure ProcessRecord where
  identity : ProcessIdentity
  ppid : ℕ
  exited : Bool
deriving DecidableEq, Repr

namespace ProcessIdentity

def sameProcess (a b : ProcessIdentity) : Bool :=
  a.pid == b.pid && a.startTime == b.startTime

lemma sameProcess_iff {a b : ProcessIdentity} :
    a.sameProcess b = true ↔ a.pid = b.pid ∧ a.startTime = b.startTime := by
  simp [sameProcess]

@[simp] lemma sameProcess_self (a : ProcessIdentity) : a.sameProcess a = true := by
  simp [sameProcess]

end ProcessIdentity

inductive ErrorKind
  | invalidData
  | unsupported
  | other
deriving DecidableEq, Repr

/-- The error numbers the tracker names; std gives every other number some kind. -/
inductive Errno
  | eperm
  | esrch
  | enoent
  | other (code : ℕ) (kind : ErrorKind)
deriving DecidableEq, Repr

inductive IoError
  | os (errno : Errno)
  | custom (kind : ErrorKind)
deriving DecidableEq, Repr

namespace IoError

def rawOsError : IoError → Option Errno
  | .os errno => some errno
  | .custom _ => none

def kind : IoError → ErrorKind
  | .os (.other _ kind) => kind
  | .os _ => .other
  | .custom kind => kind

def disappeared (error : IoError) : Bool :=
  error.rawOsError == some .esrch || error.rawOsError == some .enoent

/-- Invalid metadata and inventory bounds are safety failures, not transient reads. -/
def unsafeInventory (error : IoError) : Bool :=
  error.kind == .invalidData || error.kind == .unsupported

lemma not_unsafe_of_disappeared {error : IoError} (h : error.disappeared = true) :
    error.unsafeInventory = false := by
  cases error with
  | os errno => cases errno <;> simp_all [disappeared, rawOsError, unsafeInventory, kind]
  | custom kind => simp [disappeared, rawOsError] at h

end IoError

abbrev Io (α : Type) := Except IoError α

abbrev Instant := ℕ

abbrev Duration := ℕ

def millis (n : ℕ) : Duration := n * 1000000

end Forcola.Native
