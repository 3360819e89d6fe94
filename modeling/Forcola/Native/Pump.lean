import Mathlib.Data.Nat.Notation

/-! Read-budget accounting and the output pumps it gates. -/

namespace Forcola.Native

abbrev Bytes := List UInt8

def u64Max : ℕ := 18446744073709551615

inductive Pipe
  | stdout
  | stderr
deriving DecidableEq, Repr

structure Credit where
  available : ℕ
  uncorked : Bool
  cancelled : Bool
deriving DecidableEq, Repr

inductive Permit
  | read (cap : ℕ)
  | uncork
  | cancel
deriving DecidableEq, Repr

namespace Credit

def new : Credit := ⟨0, false, false⟩

def grant (c : Credit) (n : ℕ) : Credit :=
  { c with available := min (c.available + n) u64Max }

def uncork (c : Credit) : Credit :=
  { c with uncorked := true }

def cancel (c : Credit) : Credit :=
  { c with cancelled := true }

def awaitPermit (c : Credit) (max : ℕ) : Option Permit :=
  if c.cancelled then some .cancel
  else if c.uncorked then some .uncork
  else if 0 < c.available then some (.read (min c.available max))
  else none

def consume (c : Credit) (n : ℕ) : Credit :=
  { c with available := c.available - n }

def opened (c : Credit) : Bool :=
  c.cancelled || c.uncorked

end Credit

def fromBeBytes (bytes : Bytes) : ℕ :=
  bytes.foldl (fun n b => n * 256 + b.toNat) 0

def parseGrant (payload : Bytes) : Option ℕ :=
  if payload.length = 8 then some (fromBeBytes payload) else none

/-- Where a pump thread is: before `await_permit`, in `pipe.read`, before the locked frame
write with the bytes it read, before `done.send`, or gone. -/
inductive PumpPoint
  | awaiting
  | reading (cap : ℕ) (gated : Bool)
  | writing (bytes : Bytes)
  | closing
  | closed
deriving DecidableEq, Repr

structure Pump where
  tag : Pipe
  credit : Option Credit
  point : PumpPoint
deriving DecidableEq, Repr

inductive ReadAnswer
  | data (bytes : Bytes)
  | eof
  | interrupted
  | failed
deriving DecidableEq, Repr

inductive PumpAction
  | permit
  | read (answer : ReadAnswer)
  | write (ok : Bool)
  | done
deriving DecidableEq, Repr

namespace Pump

def bufferSize : ℕ := 8192

def new (tag : Pipe) (gated : Bool) : Pump where
  tag := tag
  credit := if gated then some Credit.new else none
  point := .awaiting

def onCredit (f : Credit → Credit) (p : Pump) : Pump :=
  { p with credit := p.credit.map f }

/-- `pump_eager` without a budget, `pump_gated` with one. -/
def permit (p : Pump) : Option Pump :=
  match p.credit with
  | none => some { p with point := .reading bufferSize false }
  | some credit =>
    (credit.awaitPermit bufferSize).map fun
      | .cancel => { p with point := .closing }
      | .uncork => { p with point := .reading bufferSize false }
      | .read cap => { p with point := .reading cap true }

def step (p : Pump) (action : PumpAction) : Option Pump :=
  match p.point, action with
  | .awaiting, .permit => p.permit
  | .reading cap gated, .read answer =>
    match answer with
    | .eof | .failed => some { p with point := .closing }
    | .interrupted => some { p with point := .awaiting }
    | .data bytes =>
      if bytes = [] ∨ cap < bytes.length then none
      else
        let p := if gated then p.onCredit (·.consume bytes.length) else p
        some { p with point := .writing bytes }
  | .writing _, .write ok => some { p with point := if ok then .awaiting else .closing }
  | .closing, .done => some { p with point := .closed }
  | _, _ => none

end Pump

end Forcola.Native
