import Forcola.Beam.Shim

/-! The guard process of an advisory lock. -/

namespace Forcola.Beam.Lock

open Shim (ReasonCode)
open Shim.SpawnError (reasonCode)

abbrev Pid := ℕ

def releaseTimeout : ℕ := 5000

/-- `signal` is the reason of the port's EXIT signal. -/
inductive ShimExit
  | status (status : ℕ)
  | signal (reason : String)
  | unknown
deriving DecidableEq, Repr

inductive Error
  | held (osPid : Option ℕ)
  | opening (reason : ReasonCode)
  | locking (reason : ReasonCode)
  | shimExited (reason : ShimExit)
  | shimStartFailed
  | invalidPath
  | invalidReply
  | timeout
deriving DecidableEq, Repr

inductive Released
  | ok
  | timeout
deriving DecidableEq, Repr

inductive PortMessage
  | eol (line : String)
  | noeol (chunk : String)
  | exitStatus (status : ℕ)
  | exit (reason : String)
deriving DecidableEq, Repr

/-- What a receive of the guard takes: a message, or its `after` clause. -/
inductive Input
  | port (message : PortMessage)
  | release (caller : Pid)
  | ownerDown
  | expire
deriving DecidableEq, Repr

/-- In the receive of `await_answer`, of `hold` or of `release_port`, or ended. -/
inductive Phase
  | answering (deadline : Instant) (chunks : String)
  | holding
  | releasing (caller : Pid)
  | ended
deriving DecidableEq, Repr

/-- What the guard sends, `reply` and `lost` to the owner, and what it does to its port. -/
inductive Effect
  | reply (answer : Except Error ℕ)
  | lost (reason : ShimExit)
  | released (caller : Pid) (result : Released)
  | release
  | close

/-- `reads` counts the clock readings; the log is newest first. -/
structure Guard where
  osPid : ℕ
  phase : Phase
  reads : ℕ
  log : List Effect

variable (clock : ℕ → Instant)

namespace Guard

def add (g : Guard) (e : Effect) : Guard :=
  { g with log := e :: g.log }

def finish (g : Guard) : Guard :=
  { g with phase := .ended }

def reply (g : Guard) (answer : Except Error ℕ) : Guard :=
  g.add (.reply answer)

end Guard

def digit (c : Char) : Option ℕ :=
  if '0' ≤ c ∧ c ≤ '9' then some (c.toNat - '0'.toNat) else none

def parseDigits : ℕ → List Char → Option ℕ
  | n, [] => some n
  | n, c :: rest => (digit c).bind fun d => parseDigits (10 * n + d) rest

def parsePid (text : String) : Option ℕ :=
  let digits := match text.toList with
    | '+' :: rest => rest
    | chars => chars
  if digits = [] then none else (parseDigits 0 digits).filter (0 < ·)

def afterPrefix (start line : String) : Option String :=
  if start.toList <+: line.toList then some (String.ofList (line.toList.drop start.length))
  else none

def parseAnswer (osPid : ℕ) (line : String) : Except Error ℕ :=
  if line = "ok" then .ok osPid
  else
    match afterPrefix "held " line with
    | some pid => .error (.held (parsePid pid))
    | none =>
      if line = "error usage" then .error .invalidPath
      else
        match afterPrefix "error open " line with
        | some name => .error (.opening (reasonCode name))
        | none =>
          match afterPrefix "error lock " line with
          | some name => .error (.locking (reasonCode name))
          | none => .error .invalidReply

def answer (g : Guard) (line : String) : Guard :=
  match parseAnswer g.osPid line with
  | .ok osPid => { g.reply (.ok osPid) with phase := .holding }
  | .error error => (g.reply (.error error)).finish

def awaitAnswer (g : Guard) (deadline : Instant) (chunks : String) : Guard :=
  { g with reads := g.reads + 1, phase := .answering deadline chunks }

def guardInit (osPid timeoutMs reads : ℕ) : Guard :=
  awaitAnswer { osPid := osPid, phase := .ended, reads := reads + 1, log := [] }
    (clock reads + timeoutMs) ""

def openFailed (osPid : ℕ) (error : Error) : Guard :=
  { osPid := osPid, phase := .ended, reads := 0, log := [.reply (.error error)] }

def remaining (g : Guard) : Option ℤ :=
  match g.phase with
  | .answering deadline _ => some (max (deadline - clock (g.reads - 1)) 0)
  | .releasing _ => some releaseTimeout
  | .holding | .ended => none

/-- `none` for a message the receive does not match, which stays in the mailbox. -/
def step (g : Guard) (input : Input) : Option Guard :=
  match g.phase, input with
  | .answering _ chunks, .port (.eol line) => some (answer g (chunks ++ line))
  | .answering deadline chunks, .port (.noeol chunk) =>
    some (awaitAnswer g deadline (chunks ++ chunk))
  | .answering _ _, .port (.exitStatus status) =>
    some (g.reply (.error (.shimExited (.status status)))).finish
  | .answering _ _, .port (.exit reason) =>
    some (g.reply (.error (.shimExited (.signal reason)))).finish
  | .answering _ _, .ownerDown => some g.finish
  | .answering _ _, .expire => some ((g.add .close).reply (.error .timeout)).finish
  | .holding, .release caller => some { g.add .release with phase := .releasing caller }
  | .holding, .ownerDown => some g.finish
  | .holding, .port (.exitStatus status) => some (g.add (.lost (.status status))).finish
  | .holding, .port (.exit reason) => some (g.add (.lost (.signal reason))).finish
  | .holding, .port _ => some g
  | .releasing caller, .port (.exitStatus _) => some (g.add (.released caller .ok)).finish
  | .releasing caller, .port (.exit _) => some (g.add (.released caller .ok)).finish
  | .releasing caller, .expire =>
    some ((g.add .close).add (.released caller .timeout)).finish
  | _, _ => none

end Forcola.Beam.Lock
