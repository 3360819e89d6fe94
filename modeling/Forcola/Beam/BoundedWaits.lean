import Forcola.Beam.Daemon
import Forcola.Beam.DuplexSteps
import Forcola.Beam.Lock
import Forcola.Beam.RunDeadlines
import Forcola.Beam.StreamSteps
import Forcola.Library.TimedReceive

/-! The timeouts of the library's receives: legal ones, and none that ends early. -/

namespace Forcola.Beam

open Library.TimedReceive

namespace Shim

def cleanupMargin : ℕ := 5000

def cgroupDrainProbe : ℕ := 500

structure Graces where
  killGrace : ℕ
  interruptGrace : Option ℕ
  cgroup : Bool
deriving DecidableEq, Repr

structure Graces.Admitted (g : Graces) : Prop where
  kill : g.killGrace ≤ 4294967295
  interrupt : ∀ grace ∈ g.interruptGrace, 0 < grace ∧ grace ≤ 4294967295

def cgroupDrain (g : Graces) : ℕ :=
  if g.cgroup then g.killGrace + cgroupDrainProbe else 0

def cleanupTimeout (g : Graces) : ℕ :=
  g.killGrace + g.interruptGrace.getD 0 + cgroupDrain g + cleanupMargin

end Shim

open Shim (Graces cleanupTimeout)

inductive Loop (S : Type)
  | waiting (s : S)
  | gaveUp (s : S)
  | answered (s : S)

def Loop.state {S : Type} : Loop S → S
  | .waiting s | .gaveUp s | .answered s => s

def Loop.GaveUp {S : Type} (l : Loop S) : Prop := ∃ s, l = .gaveUp s

/-- A loop of `do_await_exit/2`: its wait, with what it waits for and its deadline, and what a
receive and an `after` clause make of it. -/
structure Draining (S P M : Type) where
  waits : S → Option (P × Instant)
  reads : S → ℕ
  again : (ℕ → Instant) → S → P → Instant → S
  hears : (ℕ → Instant) → S → P → Instant → M → S
  ends : M → Bool

namespace Draining

variable {S P M : Type} (D : Draining S P M) (clock : ℕ → Instant)

def awaits (s : S) : Loop S :=
  if (D.waits s).isSome then .waiting s else .gaveUp s

def step (l : Loop S) (m : Option M) : Option (Loop S) :=
  match l with
  | .waiting s =>
    match D.waits s, m with
    | some (purpose, deadline), some m =>
      let t := D.hears clock s purpose deadline m
      some (if D.ends m then .answered t else D.awaits t)
    | some (purpose, deadline), none => some (D.awaits (D.again clock s purpose deadline))
    | none, _ => none
  | _ => none

def wait (l : Loop S) : Option (ℕ × ℤ) :=
  match l with
  | .waiting s =>
    match D.waits s with
    | some (_, deadline) =>
      some (D.reads s, min (deadline - clock (D.reads s - 1)) longestWait)
    | none => none
  | _ => none

def system (first : (ℕ → Instant) → S) : System (Loop S) (Option M) where
  process clock := ⟨D.step clock, (· = none), D.wait clock⟩
  start clock := D.awaits (first clock)
  reads l := D.reads l.state

def Due (due : Instant) : Loop S → Prop
  | .waiting s => ∃ purpose, D.waits s = some (purpose, due) ∧ 0 < due - clock (D.reads s - 1)
  | .gaveUp s => due ≤ clock (D.reads s)
  | .answered _ => True

structure Punctual : Prop where
  again : ∀ clock, Monotone clock → ∀ s purpose due,
    D.Due clock due (D.awaits (D.again clock s purpose due))
  hears : ∀ clock s purpose due m, D.ends m = false →
    ∃ u, D.hears clock s purpose due m = D.again clock u purpose due

variable {D clock} {due : Instant}

lemma Punctual.step (hD : D.Punctual) (hclock : Monotone clock) {l t : Loop S} {m : Option M}
    (h : D.Due clock due l) (hstep : D.step clock l m = some t) : D.Due clock due t := by
  cases l with
  | gaveUp s => cases hstep
  | answered s => cases hstep
  | waiting s =>
    obtain ⟨purpose, hp, -⟩ := h
    cases m with
    | none =>
      simp only [Draining.step, hp] at hstep
      obtain rfl := Option.some.inj hstep
      exact hD.again clock hclock s purpose due
    | some m =>
      simp only [Draining.step, hp] at hstep
      obtain rfl := Option.some.inj hstep
      split
      · trivial
      · next hm =>
        obtain ⟨u, hu⟩ := hD.hears clock s purpose due m (by simpa using hm)
        rw [hu]
        exact hD.again clock hclock u purpose due

lemma Punctual.bounded (hD : D.Punctual) {first : (ℕ → Instant) → S} {due : (ℕ → Instant) → Instant}
    (hfirst : ∀ clock, Monotone clock → D.Due clock (due clock) (D.awaits (first clock))) :
    (D.system first).Legal longestWait ∧
      (D.system first).Patient Loop.GaveUp fun clock _ => due clock := by
  constructor
  · apply System.Legal.of_invariant fun clock l => D.Due clock (due clock) l
    · exact hfirst
    · rintro clock hclock l m t hl ⟨hstep, -⟩
      exact hD.step hclock hl hstep
    · intro clock _ l hl n wait hwait
      cases l with
      | gaveUp t => cases hwait
      | answered t => cases hwait
      | waiting t =>
        obtain ⟨purpose, hp, hahead⟩ := hl
        simp only [system, Draining.wait, hp] at hwait
        obtain ⟨-, rfl⟩ := Prod.mk.inj (Option.some.inj hwait)
        exact remaining_legal (by decide) hahead
  · apply System.Patient.of_invariant fun clock l => D.Due clock (due clock) l
    · exact hfirst
    · rintro clock hclock l m t hl ⟨hstep, -⟩
      exact hD.step hclock hl hstep
    · rintro clock - l hl ⟨t, rfl⟩
      exact hl

end Draining

namespace Tracking

def confirmWindow : ℕ := 500

def margin : ℕ := 5000

inductive Exchange
  | waiting
  | killing
  | answered
  | timedOut
deriving DecidableEq, Repr

inductive ExchangeLabel
  | down
  | expire
deriving DecidableEq, Repr

def request (timeoutMs : ℕ) : System Exchange ExchangeLabel where
  process _ :=
    { step := fun s l =>
        match s, l with
        | .waiting, .down => some .answered
        | .waiting, .expire => some .killing
        | .killing, .down => some .timedOut
        | _, _ => none
      expires := (· = .expire)
      waiting := fun s => if s = .waiting then some (1, timeoutMs) else none }
  start _ := .waiting
  reads _ := 1

def check (timeoutMs : ℕ) : System Exchange ExchangeLabel := request timeoutMs

def stop (killGrace : ℕ) (interruptGrace : Option ℕ) : System Exchange ExchangeLabel :=
  request (interruptGrace.getD 0 + killGrace + confirmWindow + margin)

end Tracking

def Lock.acquire (osPid timeoutMs : ℕ) : System Lock.Guard Lock.Input where
  process clock :=
    { step := Lock.step
      expires := (· = .expire)
      waiting := fun g => (Lock.remaining clock g).map fun wait => (g.reads, wait) }
  start clock := Lock.guardInit clock osPid timeoutMs 0
  reads := Lock.Guard.reads

/-- The guard is in the receive of `await_answer`, or answered the owner after its timeout. -/
def Lock.TimedOut (g : Lock.Guard) : Prop :=
  .reply (.error .timeout) ∈ g.log

namespace Duplex

def inputRetry : ℕ := 10

inductive KillPhase
  | sending
  | sleeping
  | awaiting
  | settled (timedOut : Bool)
deriving DecidableEq, Repr

/-- `settle/1` with its deadline and the clock readings made. -/
structure Settlement where
  session : State
  deadline : ℤ
  reads : ℕ
  phase : KillPhase

/-- `expire` ends the sleep between two attempts as well as the receive. -/
inductive SettleLabel
  | send (answer : KillAnswer)
  | message (event : PortEvent)
  | expire
deriving DecidableEq, Repr

variable (cfg : Options) (clock : ℕ → ℤ)

def doAwaitExit (s : Settlement) : Settlement :=
  if s.deadline - clock s.reads ≤ 0 then
    { s with
      session := conclude cfg s.session .timeout, reads := s.reads + 1, phase := .settled true }
  else { s with reads := s.reads + 1, phase := .awaiting }

def sendKill (s : Settlement) (answer : KillAnswer) : Settlement :=
  match answer with
  | .busy =>
    if clock s.reads < s.deadline then { s with reads := s.reads + 1, phase := .sleeping }
    else
      { s with
        session := settle cfg s.session .busy, reads := s.reads + 1, phase := .settled true }
  | .badarg => { s with session := settle cfg s.session .badarg, phase := .settled false }
  | answer => doAwaitExit cfg clock { s with session := settle cfg s.session answer }

def settleStep (s : Settlement) (l : SettleLabel) : Option Settlement :=
  match s.phase, l with
  | .sending, .send answer => some (sendKill cfg clock s answer)
  | .sleeping, .expire => some { s with phase := .sending }
  | .awaiting, .message event =>
    let session := awaitExit cfg (s.session.hear (.awaited event)) event
    match session.phase with
    | .awaiting => some (doAwaitExit cfg clock { s with session := session })
    | _ => some { s with session := session, phase := .settled false }
  | .awaiting, .expire => some (doAwaitExit cfg clock s)
  | _, _ => none

def settling (g : Graces) (session : State) : System Settlement SettleLabel where
  process clock :=
    { step := settleStep cfg clock
      expires := (· = .expire)
      waiting := fun s =>
        match s.phase with
        | .sleeping => some (s.reads, inputRetry)
        | .awaiting => some (s.reads, min (s.deadline - clock (s.reads - 1)) longestWait)
        | _ => none }
  start clock := ⟨session, clock 0 + cleanupTimeout g, 1, .sending⟩
  reads := Settlement.reads

def TimedOut (s : Settlement) : Prop := s.phase = .settled true

end Duplex

namespace Stream

variable (cfg : Options) (clock : ℕ → Instant)

def ends : Message → Bool
  | .data .exit _ | .data .error _ | .exitStatus => true
  | .data _ _ => false

def draining : Draining State Purpose Message where
  waits s :=
    match s.phase with
    | .awaiting purpose deadline => some (purpose, deadline)
    | _ => none
  reads := State.reads
  again := doAwaitExit cfg
  hears := awaitMessage cfg
  ends := ends

def shutdown (s : State) (purpose : Purpose) : System (Loop State) (Option Message) :=
  (draining cfg).system fun clock => killAndConfirm cfg clock s purpose

def receivingStep (l : Loop State) (m : Option Message) : Option (Loop State) :=
  match l with
  | .waiting s =>
    match s.phase, m with
    | .receiving _, some m => some (.answered (handleMessage cfg clock s m))
    | .receiving wait, none =>
      if longestWait < wait then some (.waiting (receiveNext clock s))
      else some (.gaveUp (timeoutError cfg clock s))
    | _, _ => none
  | _ => none

def receivingWait (l : Loop State) : Option (ℕ × ℤ) :=
  match l with
  | .waiting s =>
    match s.phase with
    | .receiving wait => some (s.reads, min (max wait 0) longestWait)
    | _ => none
  | _ => none

def receiving (s : State) : System (Loop State) (Option Message) where
  process clock := ⟨receivingStep cfg clock, (· = none), receivingWait⟩
  start clock := .waiting (receiveNext clock s)
  reads l := l.state.reads

def sooner (s : State) : Instant :=
  match s.idleDeadline with
  | some idleDeadline => min s.deadline idleDeadline
  | none => s.deadline

end Stream

namespace Daemon

variable (cfg : Options)

def ends : Message → Bool
  | .data .exit _ | .data .error _ | .exitStatus _ => true
  | .data _ _ => false

def draining : Draining State StopReason Message where
  waits s :=
    match s.phase with
    | .awaiting reason deadline => some (reason, deadline)
    | _ => none
  reads := State.reads
  again := doAwaitExit cfg
  hears := awaitMessage cfg
  ends := ends

def closing (s : State) (reason : StopReason) : System (Loop State) (Option Message) :=
  (draining cfg).system fun clock => shutdown cfg clock s reason

end Daemon

namespace Run

variable (cfg : Options)

def collectStep (clock : ℕ → Instant) (l : Loop Acc) (m : Option Message) : Option (Loop Acc) :=
  match l with
  | .waiting a =>
    match collect cfg clock a with
    | .returns _ a => some (.gaveUp a)
    | .receives a _ =>
      match receive cfg clock a m with
      | .collecting a => some (.waiting a)
      | .returned _ a => some (.answered a)
  | _ => none

def collectWait (clock : ℕ → Instant) (l : Loop Acc) : Option (ℕ × ℤ) :=
  match l with
  | .waiting a =>
    match collect cfg clock a with
    | .receives a remaining => some (a.reads, remaining)
    | .returns _ _ => none
  | _ => none

def collecting (timeoutMs : ℕ) (deadline : Option Instant) :
    System (Loop Acc) (Option Message) where
  process clock := ⟨collectStep cfg clock, (· = none), collectWait cfg clock⟩
  start clock := .waiting (execute cfg clock timeoutMs deadline 0)
  reads l := l.state.reads

def wholeDeadline (clock : ℕ → Instant) (timeoutMs : ℕ) (deadline : Option Instant) : Instant :=
  deadline.getD (clock 0 + timeoutMs)

end Run

namespace Tracking

lemma request_patient (timeoutMs : ℕ) :
    (request timeoutMs).Patient (· = .timedOut) fun clock _ => clock 0 + timeoutMs := by
  apply System.Patient.of_invariant fun clock s =>
    s = .killing ∨ s = .timedOut → clock 0 + timeoutMs ≤ clock 1
  · rintro clock - (h | h) <;> cases h
  · rintro clock - s l t hs ⟨hstep, htimer⟩ ht
    cases s with
    | waiting =>
      cases l with
      | down =>
        obtain rfl := Option.some.inj hstep
        rcases ht with h | h <;> cases h
      | expire => exact htimer rfl 0 timeoutMs rfl
    | killing => exact hs (.inl rfl)
    | answered => cases l <;> cases hstep
    | timedOut => cases l <;> cases hstep
  · intro clock _ s hs h
    exact hs (.inr h)

lemma request_legal_iff (timeoutMs : ℕ) :
    (request timeoutMs).Legal longestWait ↔ (timeoutMs : ℤ) ≤ longestWait := by
  constructor
  · intro h
    have hclock : Monotone fun _ : ℕ => (0 : ℤ) := monotone_const
    exact h.start hclock rfl
  · intro h clock _ s _ n wait hwait
    change (if s = .waiting then some (1, (timeoutMs : ℤ)) else none) = some (n, wait) at hwait
    split at hwait
    · obtain ⟨-, rfl⟩ := Prod.mk.inj (Option.some.inj hwait)
      exact ⟨Int.natCast_nonneg _, h⟩
    · cases hwait

end Tracking

namespace Lock

structure Due (clock : ℕ → ℤ) (timeoutMs : ℕ) (g : Guard) : Prop where
  reads : 0 < g.reads
  deadline : ∀ deadline chunks, g.phase = .answering deadline chunks →
    deadline = clock 0 + timeoutMs
  patient : TimedOut g → clock 0 + timeoutMs ≤ clock g.reads

lemma parseAnswer_ne_timeout (osPid : ℕ) (line : String) :
    parseAnswer osPid line ≠ .error .timeout := by
  rw [parseAnswer]
  repeat' split
  all_goals nofun

lemma answer_timedOut {g : Guard} {line : String} (h : TimedOut (answer g line)) : TimedOut g := by
  have hparse := parseAnswer_ne_timeout g.osPid line
  rw [answer] at h
  split at h
  · rcases List.mem_cons.mp h with h | h
    · cases h
    · exact h
  · next error heq =>
    rcases List.mem_cons.mp h with h | h
    · obtain rfl : Error.timeout = error := Except.error.inj (Effect.reply.inj h)
      exact absurd heq hparse
    · exact h

lemma Due.step {clock : ℕ → ℤ} (hclock : Monotone clock) {timeoutMs : ℕ} {g t : Guard}
    {input : Input} (h : Due clock timeoutMs g) (hstep : step g input = some t)
    (htimer : input = .expire → ∀ n wait,
      (remaining clock g).map (fun wait => (g.reads, wait)) = some (n + 1, wait) →
        clock n + wait ≤ clock (n + 1)) : Due clock timeoutMs t := by
  have hkeep : ∀ (e : Effect), e ≠ .reply (.error .timeout) →
      .reply (.error .timeout) ∈ e :: g.log → TimedOut g := by
    intro e hne hmem
    rcases List.mem_cons.mp hmem with hmem | hmem
    · exact absurd hmem.symm hne
    · exact hmem
  have hended : ∀ (e : Effect), e ≠ .reply (.error .timeout) →
      Due clock timeoutMs (g.add e).finish := by
    intro e hne
    exact ⟨h.reads, nofun, fun hm => h.patient (hkeep e hne hm)⟩
  rw [Lock.step.eq_def] at hstep
  split at hstep
  · next deadline chunks line hp =>
    obtain rfl := Option.some.inj hstep
    have hreads : (answer g (chunks ++ line)).reads = g.reads := by
      rw [answer]
      split <;> rfl
    refine ⟨by rw [hreads]; exact h.reads, ?_, ?_⟩
    · intro d c hphase
      rw [answer] at hphase
      split at hphase <;> cases hphase
    · intro ht
      rw [hreads]
      exact h.patient (answer_timedOut ht)
  · next deadline chunks chunk hp =>
    obtain rfl := Option.some.inj hstep
    refine ⟨Nat.succ_pos _, ?_, fun ht => (h.patient ht).trans (hclock (Nat.le_succ _))⟩
    intro d c hphase
    obtain ⟨rfl, -⟩ := Phase.answering.inj hphase
    exact h.deadline deadline chunks hp
  · obtain rfl := Option.some.inj hstep
    exact hended _ nofun
  · obtain rfl := Option.some.inj hstep
    exact hended _ nofun
  · obtain rfl := Option.some.inj hstep
    exact ⟨h.reads, nofun, h.patient⟩
  · next deadline chunks hp =>
    obtain rfl := Option.some.inj hstep
    refine ⟨h.reads, nofun, fun _ => ?_⟩
    obtain ⟨n, hn⟩ := Nat.exists_eq_succ_of_ne_zero h.reads.ne'
    have hwait := htimer rfl n (max (deadline - clock n) 0) (by simp [remaining, hp, hn])
    change clock 0 + timeoutMs ≤ clock g.reads
    rw [hn, ← h.deadline deadline chunks hp]
    have hmax := le_max_left (deadline - clock n) 0
    exact le_trans (Int.le_add_of_sub_left_le hmax) hwait
  · obtain rfl := Option.some.inj hstep
    exact ⟨h.reads, nofun, fun hm => h.patient (hkeep .release nofun hm)⟩
  · obtain rfl := Option.some.inj hstep
    exact ⟨h.reads, nofun, h.patient⟩
  · obtain rfl := Option.some.inj hstep
    exact hended _ nofun
  · obtain rfl := Option.some.inj hstep
    exact hended _ nofun
  · obtain rfl := Option.some.inj hstep
    exact h
  · obtain rfl := Option.some.inj hstep
    exact hended _ nofun
  · obtain rfl := Option.some.inj hstep
    exact hended _ nofun
  · obtain rfl := Option.some.inj hstep
    refine ⟨h.reads, nofun, fun hm => h.patient ?_⟩
    rcases List.mem_cons.mp hm with hm | hm
    · cases hm
    · exact hkeep .close nofun hm
  · cases hstep

lemma guardInit_due (clock : ℕ → ℤ) (osPid timeoutMs : ℕ) :
    Due clock timeoutMs (guardInit clock osPid timeoutMs 0) := by
  refine ⟨Nat.succ_pos _, ?_, nofun⟩
  intro deadline chunks hp
  exact (Phase.answering.inj hp).1.symm

lemma acquire_patient (osPid timeoutMs : ℕ) :
    (acquire osPid timeoutMs).Patient TimedOut fun clock _ => clock 0 + timeoutMs := by
  apply System.Patient.of_invariant fun clock g => Due clock timeoutMs g
  · intro clock _
    exact guardInit_due clock osPid timeoutMs
  · rintro clock hclock g input t hg ⟨hstep, htimer⟩
    exact hg.step hclock hstep htimer
  · intro clock _ g hg
    exact hg.patient

lemma acquire_legal_iff (osPid timeoutMs : ℕ) :
    (acquire osPid timeoutMs).Legal longestWait ↔ (timeoutMs : ℤ) ≤ longestWait := by
  constructor
  · intro h
    have hclock : Monotone fun _ : ℕ => (0 : ℤ) := monotone_const
    have hstart : max (0 + (timeoutMs : ℤ) - 0) 0 ≤ longestWait := h.start hclock rfl
    refine le_trans ?_ hstart
    rw [Int.zero_add, Int.sub_zero]
    exact le_max_left _ _
  · intro h
    apply System.Legal.of_invariant fun clock g => Due clock timeoutMs g
    · intro clock _
      exact guardInit_due clock osPid timeoutMs
    · rintro clock hclock g input t hg ⟨hstep, htimer⟩
      exact hg.step hclock hstep htimer
    · intro clock hclock g hg n wait hwait
      obtain ⟨w, hw, hpair⟩ := Option.map_eq_some_iff.mp hwait
      obtain ⟨-, rfl⟩ := Prod.mk.inj hpair
      rw [remaining.eq_def] at hw
      split at hw
      · next deadline chunks hp =>
        obtain rfl := Option.some.inj hw
        refine ⟨le_max_right _ _, max_le ?_ (by decide)⟩
        rw [hg.deadline deadline chunks hp]
        have hlater := hclock (Nat.zero_le (g.reads - 1))
        exact le_trans (Int.sub_left_le_of_le_add (Int.add_le_add_right hlater _)) h
      · obtain rfl := Option.some.inj hw
        exact ⟨by decide, by decide⟩
      · cases hw
      · cases hw

end Lock

namespace Duplex

structure Due (clock : ℕ → ℤ) (due : ℤ) (s : Settlement) : Prop where
  deadline : s.deadline = due
  ahead : s.phase = .awaiting → 0 < s.deadline - clock (s.reads - 1)
  patient : TimedOut s → due ≤ clock s.reads

variable {cfg : Options} {clock : ℕ → ℤ} {due : ℤ}

lemma doAwaitExit_due (hclock : Monotone clock) {s : Settlement} (hd : s.deadline = due) :
    Due clock due (doAwaitExit cfg clock s) := by
  rw [doAwaitExit]
  split
  · next hpast =>
    refine ⟨hd, nofun, fun _ => ?_⟩
    rw [hd] at hpast
    exact (Int.le_of_sub_nonpos hpast).trans (hclock (Nat.le_succ _))
  · next hahead => exact ⟨hd, fun _ => not_le.mp hahead, nofun⟩

lemma sendKill_due (hclock : Monotone clock) {s : Settlement} (hd : s.deadline = due)
    (answer : KillAnswer) : Due clock due (sendKill cfg clock s answer) := by
  cases answer with
  | busy =>
    rw [sendKill]
    split
    · exact ⟨hd, nofun, nofun⟩
    · next hpast =>
      refine ⟨hd, nofun, fun _ => ?_⟩
      rw [← hd]
      exact (not_lt.mp hpast).trans (hclock (Nat.le_succ _))
  | badarg => exact ⟨hd, nofun, nofun⟩
  | accepted => exact doAwaitExit_due hclock hd
  | closed => exact doAwaitExit_due hclock hd

lemma settleStep_due (hclock : Monotone clock) {s t : Settlement} {l : SettleLabel}
    (h : Due clock due s) (hstep : settleStep cfg clock s l = some t) : Due clock due t := by
  rw [settleStep.eq_def] at hstep
  split at hstep
  · obtain rfl := Option.some.inj hstep
    exact sendKill_due hclock h.deadline _
  · obtain rfl := Option.some.inj hstep
    exact ⟨h.deadline, nofun, nofun⟩
  · dsimp only at hstep
    split at hstep
    · obtain rfl := Option.some.inj hstep
      exact doAwaitExit_due hclock h.deadline
    · obtain rfl := Option.some.inj hstep
      exact ⟨h.deadline, nofun, nofun⟩
  · obtain rfl := Option.some.inj hstep
    exact doAwaitExit_due hclock h.deadline
  · cases hstep

lemma settling_bounded (cfg : Options) (g : Graces) (session : State) :
    (settling cfg g session).Legal longestWait ∧
      (settling cfg g session).Patient TimedOut fun clock _ => clock 0 + cleanupTimeout g := by
  have hstart : ∀ clock : ℕ → ℤ, Due clock (clock 0 + cleanupTimeout g)
      ⟨session, clock 0 + cleanupTimeout g, 1, .sending⟩ := fun _ => ⟨rfl, nofun, nofun⟩
  constructor
  · apply System.Legal.of_invariant fun clock s => Due clock (clock 0 + cleanupTimeout g) s
    · exact fun clock _ => hstart clock
    · rintro clock hclock s l t hs ⟨hstep, -⟩
      exact settleStep_due hclock hs hstep
    · intro clock _ s hs n wait hwait
      change (match s.phase with
        | .sleeping => some (s.reads, (inputRetry : ℤ))
        | .awaiting => some (s.reads, min (s.deadline - clock (s.reads - 1)) longestWait)
        | _ => none) = some (n, wait) at hwait
      split at hwait
      · obtain ⟨-, rfl⟩ := Prod.mk.inj (Option.some.inj hwait)
        exact ⟨by decide, by decide⟩
      · next hp =>
        obtain ⟨-, rfl⟩ := Prod.mk.inj (Option.some.inj hwait)
        exact remaining_legal (by decide) (hs.ahead hp)
      · cases hwait
  · apply System.Patient.of_invariant fun clock s => Due clock (clock 0 + cleanupTimeout g) s
    · exact fun clock _ => hstart clock
    · rintro clock hclock s l t hs ⟨hstep, -⟩
      exact settleStep_due hclock hs hstep
    · exact fun clock _ s hs => hs.patient

end Duplex

namespace Stream

variable {cfg : Options} {clock : ℕ → Instant} {due : Instant} {s : State}

lemma keeps_reads : Keeper.Keeps fun s t : State => t.reads = s.reads where
  refl _ := rfl
  trans h k := k.trans h
  setTracking _ _ := rfl
  setIdentity _ _ := rfl
  tell _ _ := rfl
  spawned _ _ := rfl

lemma finishTracking_reads (s : State) (scope : Shim.Scope) (confirmation : Confirmation)
    (contained : Option Bool) (truncated : Bool) :
    (s.finishTracking cfg scope confirmation contained truncated).reads = s.reads :=
  keeps_reads.tracking s _ _

lemma conclude_timeout (s : State) (purpose : Purpose) :
    (conclude cfg s purpose .timeout).reads = s.reads ∧
      ∀ purpose' deadline, (conclude cfg s purpose .timeout).phase ≠ .awaiting purpose' deadline := by
  have hreads := @finishTracking_reads cfg s .unknown .timeout none false
  cases purpose with
  | idle => exact ⟨hreads, nofun⟩
  | limit lines limit => exact ⟨hreads, nofun⟩
  | cleanup => exact ⟨hreads, nofun⟩

lemma punctual (cfg : Options) : (draining cfg).Punctual := by
  constructor
  · intro clock hclock s purpose due
    change (draining cfg).Due clock due ((draining cfg).awaits (doAwaitExit cfg clock s purpose due))
    rw [doAwaitExit]
    dsimp only
    split
    · next hpast =>
      obtain ⟨hreads, hphase⟩ := @conclude_timeout cfg (s.now clock).2 purpose
      have hnone : (draining cfg).waits (conclude cfg (s.now clock).2 purpose .timeout) = none := by
        dsimp only [draining]
        split
        · next hp => exact absurd hp (hphase _ _)
        · rfl
      rw [Draining.awaits, hnone]
      change due ≤ clock (conclude cfg (s.now clock).2 purpose .timeout).reads
      rw [hreads]
      exact (Int.le_of_sub_nonpos hpast).trans (hclock (Nat.le_succ _))
    · next hahead => exact ⟨purpose, rfl, not_le.mp hahead⟩
  · intro clock s purpose due m h
    cases m with
    | exitStatus => cases h
    | data tag payload =>
      cases tag with
      | exit => cases h
      | error => cases h
      | spawned | tracked | stdout | stderr | other => exact ⟨_, rfl⟩

lemma shutdown_bounded (cfg : Options) (s : State) (purpose : Purpose) :
    (shutdown cfg s purpose).Legal longestWait ∧
      (shutdown cfg s purpose).Patient Loop.GaveUp
        fun clock _ => clock s.reads + cfg.cleanupTimeout :=
  (punctual cfg).bounded fun clock hclock => (punctual cfg).again clock hclock _ purpose _

def Receiving (clock : ℕ → Instant) (due : Instant) : Loop State → Prop
  | .waiting s => 0 < s.reads ∧ s.phase = .receiving (due - clock (s.reads - 1)) ∧ sooner s = due
  | .gaveUp s => due ≤ clock s.reads
  | .answered _ => True

lemma receiveNext_receiving (clock : ℕ → Instant) (s : State) :
    Receiving clock (sooner s) (.waiting (receiveNext clock s)) := by
  refine ⟨Nat.succ_pos _, ?_, rfl⟩
  change (receiveNext clock s).phase = .receiving (sooner s - clock s.reads)
  cases hidle : s.idleDeadline with
  | none => simp only [receiveNext, sooner, State.now, hidle]
  | some idleDeadline =>
    simp only [receiveNext, sooner, State.now, hidle]
    rcases le_total s.deadline idleDeadline with h | h
    · rw [min_eq_left h, min_eq_left (Int.sub_le_sub_right h _)]
    · rw [min_eq_right h, min_eq_right (Int.sub_le_sub_right h _)]

lemma timeoutError_reads (s : State) : s.reads ≤ (timeoutError cfg clock s).reads := by
  have hkill : ∀ purpose, s.reads ≤ (killAndConfirm cfg clock (s.add .timeout) purpose).reads := by
    intro purpose
    rw [killAndConfirm, doAwaitExit]
    dsimp only
    split
    · rw [(conclude_timeout _ purpose).1]
      exact Nat.le_add_right s.reads 2
    · exact Nat.le_add_right s.reads 2
  have hbackstop : s.reads ≤ (timeoutError.backstop cfg (s.add .timeout)).reads :=
    (finishTracking_reads (s.add .timeout) .unknown .timeout none false).ge
  rw [timeoutError]
  split
  · split
    · exact hkill _
    · exact hbackstop
  · exact hbackstop

lemma receiving_step (hclock : Monotone clock) {s₀ : State} {l t : Loop State} {m : Option Message}
    (h : Receiving clock due l)
    (hstep : ((receiving cfg s₀).process clock).Timed clock l m t) : Receiving clock due t := by
  obtain ⟨hstep, htimer⟩ := hstep
  cases l with
  | gaveUp s => cases hstep
  | answered s => cases hstep
  | waiting s =>
    obtain ⟨hreads, hp, hs⟩ := h
    obtain ⟨n, hn⟩ := Nat.exists_eq_succ_of_ne_zero hreads.ne'
    cases m with
    | some m =>
      simp only [receiving, receivingStep, hp] at hstep
      obtain rfl := Option.some.inj hstep
      trivial
    | none =>
      simp only [receiving, receivingStep, hp] at hstep
      split at hstep
      · obtain rfl := Option.some.inj hstep
        rw [← hs]
        exact receiveNext_receiving clock s
      · next hshort =>
        obtain rfl := Option.some.inj hstep
        have hwait : ((receiving cfg s₀).process clock).waiting (.waiting s) =
            some (n + 1, min (max (due - clock (s.reads - 1)) 0) longestWait) := by
          simp only [receiving, receivingWait, hp]
          rw [hn]
        have hpast := htimer rfl n _ hwait
        have hfull : due - clock (s.reads - 1) ≤
            min (max (due - clock (s.reads - 1)) 0) longestWait :=
          le_min (le_max_left _ _) (not_lt.mp hshort)
        have hpred : s.reads - 1 = n := by omega
        rw [hpred] at hfull hpast
        have hdue : due ≤ clock (n + 1) := (Int.le_add_of_sub_left_le hfull).trans hpast
        refine hdue.trans (hclock ?_)
        rw [← Nat.succ_eq_add_one, ← hn]
        exact timeoutError_reads s

lemma receiving_bounded (cfg : Options) (s : State) :
    (receiving cfg s).Legal longestWait ∧
      (receiving cfg s).Patient Loop.GaveUp fun _ _ => sooner s := by
  constructor
  · intro clock _ l _ n wait hwait
    cases l with
    | gaveUp t => cases hwait
    | answered t => cases hwait
    | waiting t =>
      change receivingWait (.waiting t) = some (n, wait) at hwait
      rw [receivingWait] at hwait
      split at hwait
      · obtain ⟨-, rfl⟩ := Prod.mk.inj (Option.some.inj hwait)
        exact clamp_legal (by decide) _
      · cases hwait
  · apply System.Patient.of_invariant fun clock l => Receiving clock (sooner s) l
    · exact fun clock _ => receiveNext_receiving clock s
    · intro clock hclock l m t hl hstep
      exact receiving_step hclock hl hstep
    · rintro clock - l hl ⟨t, rfl⟩
      exact hl

lemma Waits.deadline {t : State} {purpose : Purpose} (h : Waits cfg purpose s t) :
    t.deadline = s.deadline := by
  cases h with
  | waiting deadline h _ _ => exact h.deadline
  | @concluded u result h _ =>
    refine Eq.trans ?_ h.deadline
    cases purpose with
    | idle =>
      obtain ⟨_, -, -, -, -, hd⟩ := @conclude_idle cfg u result
      exact hd.deadline
    | limit lines limit =>
      obtain ⟨_, -, -, -, hd⟩ := @conclude_limit cfg u lines limit result
      exact hd.deadline
    | cleanup => exact (conclude_cleanup u result).1.deadline

lemma Turn.deadline {t : State} {l : Label} (h : Turn cfg s l t) : t.deadline = s.deadline := by
  cases h with
  | asks _ _ h _ _ => exact h.deadline
  | halts => rfl
  | raises => rfl
  | leaves _ _ h => exact h.deadline
  | abandons => rfl
  | rewaits _ h _ _ => exact h.deadline
  | idles _ _ _ h => exact h.deadline
  | stops _ _ _ _ _ _ _ _ h => exact h.deadline
  | notes _ _ h _ => exact h.deadline
  | takes _ _ h => exact h.deadline
  | exceeds _ _ h =>
    obtain ⟨u, _, _, hu, -, -, hw⟩ := h.overrun
    exact hw.deadline.trans hu
  | exits _ _ h _ => exact h.deadline
  | fails _ _ _ _ h => exact h.deadline
  | awaits _ _ h => exact h.deadline
  | @reports purpose _ _ payload =>
    exact Waits.deadline (.concluded (.exit _) (.refl s) rfl : Waits cfg purpose s _)

lemma run_deadline {labels : List Label} {t : State}
    (h : Library.Transition.Run (fun s l t => step cfg clock s l = some t) s labels t) :
    t.deadline = s.deadline := by
  apply h.invariant (I := fun t => t.deadline = s.deadline)
  · intro u l v hu hstep
    exact (step_turn hstep).deadline.trans hu
  · rfl

end Stream

namespace Daemon

lemma keeps_reads : Keeper.Keeps fun s t : State => t.reads = s.reads where
  refl _ := rfl
  trans h k := k.trans h
  setTracking _ _ := rfl
  setIdentity _ _ := rfl
  tell _ _ := rfl
  spawned _ _ := rfl

lemma punctual (cfg : Options) : (draining cfg).Punctual := by
  constructor
  · intro clock hclock s reason due
    change (draining cfg).Due clock due ((draining cfg).awaits (doAwaitExit cfg clock s reason due))
    rw [doAwaitExit]
    dsimp only
    split
    · next hpast =>
      have hreads : (finishCleanup cfg (s.now clock).2 reason (.lost .timeout)).reads =
          s.reads + 1 := keeps_reads.tracking (s.now clock).2 _ _
      change due ≤ clock (finishCleanup cfg (s.now clock).2 reason (.lost .timeout)).reads
      rw [hreads]
      exact (Int.le_of_sub_nonpos hpast).trans (hclock (Nat.le_succ _))
    · next hahead => exact ⟨reason, rfl, not_le.mp hahead⟩
  · intro clock s reason due m h
    cases m with
    | exitStatus status => cases h
    | data tag payload =>
      cases tag with
      | exit => cases h
      | error => cases h
      | spawned | tracked | stdout | stderr | other => exact ⟨_, rfl⟩

lemma closing_bounded (cfg : Options) (s : State) (reason : StopReason) (he : s.exit = none) :
    (closing cfg s reason).Legal longestWait ∧
      (closing cfg s reason).Patient Loop.GaveUp
        fun clock _ => clock s.reads + cfg.cleanupTimeout := by
  refine (punctual cfg).bounded fun clock hclock => ?_
  rw [shutdown, he]
  exact (punctual cfg).again clock hclock _ reason _

end Daemon

namespace Run

variable {cfg : Options} {clock : ℕ → Instant} {whole : Instant} {a b : Acc}

structure Enduring (cfg : Options) (whole : Instant) (a : Acc) : Prop where
  timeoutAt : a.timeoutAt = whole
  backstop : ∃ from_, (from_ = whole ∨ ∃ reason, .cancelled reason from_ ∈ a.log) ∧
    a.backstop = from_ + cfg.cleanupMs
  timeout : ∀ at_, .cancelled .timeout at_ ∈ a.log → whole ≤ at_

namespace Enduring

lemma quiet (h : Enduring cfg whole a) (effects : List Effect)
    (htimeout : b.timeoutAt = a.timeoutAt) (hbackstop : b.backstop = a.backstop)
    (hlog : b.log = effects ++ a.log)
    (heffects : ∀ reason at_, .cancelled reason at_ ∉ effects) : Enduring cfg whole b := by
  refine ⟨htimeout.trans h.timeoutAt, ?_, ?_⟩
  · obtain ⟨from_, hfrom, heq⟩ := h.backstop
    refine ⟨from_, hfrom.imp_right ?_, hbackstop.trans heq⟩
    rintro ⟨reason, hmem⟩
    exact ⟨reason, hlog ▸ List.mem_append_right _ hmem⟩
  · intro at_ hmem
    rw [hlog] at hmem
    rcases List.mem_append.mp hmem with hmem | hmem
    · exact absurd hmem (heffects _ _)
    · exact h.timeout at_ hmem

lemma cancel (h : Enduring cfg whole a) {reason : Reason}
    (hreason : reason = .timeout → whole ≤ clock a.reads) :
    Enduring cfg whole (Run.cancel cfg clock a reason) := by
  refine ⟨h.timeoutAt, ?_, ?_⟩
  · change ∃ from_, _ ∧ min a.backstop (clock a.reads + cfg.cleanupMs) = from_ + cfg.cleanupMs
    rcases min_choice a.backstop (clock a.reads + cfg.cleanupMs) with hmin | hmin
    · obtain ⟨from_, hfrom, heq⟩ := h.backstop
      refine ⟨from_, hfrom.imp_right ?_, hmin.trans heq⟩
      rintro ⟨reason, hmem⟩
      exact ⟨reason, List.mem_cons_of_mem _ (List.mem_cons_of_mem _ hmem)⟩
    · exact ⟨clock a.reads, .inr ⟨reason, List.mem_cons_self⟩, hmin⟩
  · intro at_ hmem
    rcases List.mem_cons.mp hmem with hmem | hmem
    · obtain ⟨rfl, rfl⟩ := Effect.cancelled.inj hmem
      exact hreason rfl
    · rcases List.mem_cons.mp hmem with hmem | hmem
      · cases hmem
      · exact h.timeout at_ hmem

lemma tracking (h : Enduring cfg whole a) (t : Tracking) (event : Option TrackingEvent) :
    Enduring cfg whole ({ a with tracking := t }.tell cfg event) := by
  rcases @tell_cases cfg { a with tracking := t } event with heq | ⟨e, heq⟩
  · rw [heq]
    exact h.quiet [] rfl rfl rfl (by simp)
  · rw [heq]
    exact h.quiet [.tell e] rfl rfl rfl (by simp)

lemma checkDeadlines (h : Enduring cfg whole a) (hclock : Monotone clock) :
    Enduring cfg whole (Run.checkDeadlines cfg clock a) := by
  have hreads : ∀ n, Enduring cfg whole { a with reads := n } :=
    fun n => h.quiet [] rfl rfl rfl (by simp)
  rw [Run.checkDeadlines]
  split
  · dsimp only
    split
    · next hpast =>
      refine (hreads (a.reads + 1)).cancel fun _ => ?_
      rw [← h.timeoutAt]
      exact le_trans hpast (hclock (Nat.le_succ a.reads))
    · split
      · split
        · exact (hreads (a.reads + 1 + 1)).cancel fun h => by cases h
        · exact hreads _
      · exact hreads _
  · exact h

lemma output (h : Enduring cfg whole a) (pipe : Native.Pipe) (payload : Native.Bytes)
    (queue : Option ℕ) : Enduring cfg whole (Run.output cfg clock a pipe payload queue) := by
  cases hr : a.reason with
  | some reason =>
    have hout : Run.output cfg clock a pipe payload queue =
        { a.add (.received pipe payload (queueFull cfg queue)) with truncated := true } := by
      simp [Run.output, Acc.add, hr]
    rw [hout]
    exact h.quiet [.received pipe payload _] rfl rfl rfl (by simp)
  | none =>
    obtain ⟨b, hs, heq⟩ := @output_open cfg clock _ pipe payload queue hr
    have hb : Enduring cfg whole b := by
      refine h.quiet ((if observes cfg a payload && !queueFull cfg queue then
        [.observe (destination cfg pipe) (head cfg a payload)] else []) ++
          [.received pipe payload (queueFull cfg queue)]) hs.timeoutAt hs.backstop ?_ ?_
      · rw [hs.log, List.append_assoc]
        rfl
      · cases (observes cfg a payload && !queueFull cfg queue) <;> simp
    have ht : Enduring cfg whole { b with truncated := true } := hb.quiet [] rfl rfl rfl (by simp)
    rw [heq]
    split
    · exact ht.cancel fun h => by cases h
    · split
      · exact ht.cancel fun h => by cases h
      · split
        · exact hb.quiet [.send (.credit pipe payload.length)] rfl rfl rfl (by simp)
        · exact hb

lemma receive (h : Enduring cfg whole a) (message : Option Message) :
    Enduring cfg whole (Run.receive cfg clock a message).acc := by
  cases message with
  | none => exact h
  | some m =>
    cases m with
    | exitStatus status => exact h.tracking _ _
    | data tag payload queue =>
      cases tag with
      | stdout => exact h.output .stdout payload queue
      | stderr => exact h.output .stderr payload queue
      | spawned =>
        obtain ⟨identity, heq⟩ := spawned_frame cfg a payload
        have hreceive : Run.receive cfg clock a (some (.data .spawned payload queue)) =
            .collecting { a with identity := identity } := congrArg State.collecting heq
        rw [hreceive]
        exact h.quiet [] rfl rfl rfl (by simp)
      | tracked => exact h.tracking _ _
      | exit =>
        change Enduring cfg whole (finish cfg a payload).2
        rw [finish.eq_def]
        split
        · rw [finishReport]
          split
          · exact h.tracking _ _
          · exact h.tracking _ _
        · exact h.tracking _ _
      | error =>
        change Enduring cfg whole (spawnError cfg a payload).2
        rw [spawnError]
        dsimp only
        split <;> exact h.tracking _ _
      | other => exact h

end Enduring

def Due (cfg : Options) (clock : ℕ → Instant) (whole : Instant) (l : Loop Acc) : Prop :=
  Enduring cfg whole l.state ∧ (l.GaveUp → l.state.backstop ≤ clock l.state.reads)

lemma collectStep_due (hclock : Monotone clock) {l t : Loop Acc} {m : Option Message}
    (h : Due cfg clock whole l) (hstep : collectStep cfg clock l m = some t) :
    Due cfg clock whole t := by
  cases l with
  | gaveUp a => cases hstep
  | answered a => cases hstep
  | waiting a =>
    have hd : Enduring cfg whole (checkDeadlines cfg clock a) := h.1.checkDeadlines hclock
    have hw : Enduring cfg whole (waiting cfg clock a) := hd.quiet [] rfl rfl rfl (by simp)
    rcases step_cases cfg clock a m with ⟨hpast, hcollect, -⟩ | ⟨-, hcollect, -⟩
    · simp only [collectStep, hcollect] at hstep
      obtain rfl := Option.some.inj hstep
      refine ⟨hw.tracking _ _, fun _ => ?_⟩
      change (failure cfg (waiting cfg clock a) .backstop
        ((checkDeadlines cfg clock a).reason.getD .timeout)).2.backstop ≤ _
      have hframe : ∀ (t : Tracking) (event : Option TrackingEvent) (c : Acc),
          ({ c with tracking := t }.tell cfg event).backstop = c.backstop ∧
            ({ c with tracking := t }.tell cfg event).reads = c.reads := by
        intro t event c
        rcases @tell_cases cfg { c with tracking := t } event with heq | ⟨e, heq⟩
        · rw [heq]
          exact ⟨rfl, rfl⟩
        · rw [heq]
          exact ⟨rfl, rfl⟩
      obtain ⟨hback, hreads⟩ := hframe _ _ (waiting cfg clock a)
      refine (le_of_eq hback).trans (hpast.trans (hclock ?_))
      exact le_trans (Nat.le_succ _) (le_of_eq hreads.symm)
    · simp only [collectStep, hcollect] at hstep
      have hr : Enduring cfg whole (Run.receive cfg clock (waiting cfg clock a) m).acc := hw.receive m
      split at hstep
      · next b hb =>
        rw [hb] at hr
        obtain rfl := Option.some.inj hstep
        exact ⟨hr, fun ⟨_, h⟩ => by cases h⟩
      · next o b hb =>
        rw [hb] at hr
        obtain rfl := Option.some.inj hstep
        exact ⟨hr, fun ⟨_, h⟩ => by cases h⟩

lemma execute_due (cfg : Options) (clock : ℕ → Instant) (timeoutMs : ℕ)
    (deadline : Option Instant) :
    Due cfg clock (wholeDeadline clock timeoutMs deadline)
      (.waiting (execute cfg clock timeoutMs deadline 0)) := by
  refine ⟨⟨rfl, ⟨_, .inl rfl, rfl⟩, fun at_ hin => ?_⟩, fun ⟨_, h⟩ => by cases h⟩
  simp only [Loop.state, execute] at hin
  split at hin <;> simp at hin

lemma collecting_due (cfg : Options) (timeoutMs : ℕ) (deadline : Option Instant)
    {clock : ℕ → Instant} (hclock : Monotone clock) {l : Loop Acc}
    (h : (collecting cfg timeoutMs deadline).Reaches clock l) :
    Due cfg clock (wholeDeadline clock timeoutMs deadline) l := by
  apply h.invariant (execute_due cfg clock timeoutMs deadline)
  rintro l m t hl ⟨hstep, -⟩
  exact collectStep_due hclock hl hstep

lemma collecting_legal (cfg : Options) (timeoutMs : ℕ) (deadline : Option Instant) :
    (collecting cfg timeoutMs deadline).Legal longestWait := by
  intro clock _ l _ n wait hwait
  cases l with
  | gaveUp a => cases hwait
  | answered a => cases hwait
  | waiting a =>
    change collectWait cfg clock (.waiting a) = some (n, wait) at hwait
    rcases step_cases cfg clock a none with ⟨-, hcollect, -⟩ | ⟨-, hcollect, -⟩
    · simp only [collectWait, hcollect] at hwait
      cases hwait
    · simp only [collectWait, hcollect] at hwait
      obtain ⟨-, rfl⟩ := Prod.mk.inj (Option.some.inj hwait)
      exact clamp_legal (by decide) _

end Run

structure WaitOptions where
  graces : Graces
  checkMs : ℕ
  lockMs : ℕ

/-- Every receive has a timeout the runtime takes, and a timeout is reported only after the whole
budget. -/
structure WaitsBounded (o : WaitOptions) : Prop where
  check : (Tracking.check o.checkMs).Legal longestWait ∧
    (Tracking.check o.checkMs).Patient (· = .timedOut) fun clock _ => clock 0 + o.checkMs
  stop : (Tracking.stop o.graces.killGrace o.graces.interruptGrace).Legal longestWait ∧
    (Tracking.stop o.graces.killGrace o.graces.interruptGrace).Patient (· = .timedOut)
      fun clock _ => clock 0 + ((o.graces.interruptGrace.getD 0 + o.graces.killGrace +
        Tracking.confirmWindow + Tracking.margin : ℕ) : ℤ)
  acquire : ∀ osPid, (Lock.acquire osPid o.lockMs).Legal longestWait ∧
    (Lock.acquire osPid o.lockMs).Patient Lock.TimedOut fun clock _ => clock 0 + o.lockMs
  duplex : ∀ cfg session, (Duplex.settling cfg o.graces session).Legal longestWait ∧
    (Duplex.settling cfg o.graces session).Patient Duplex.TimedOut
      fun clock _ => clock 0 + cleanupTimeout o.graces
  stream : ∀ cfg s purpose, cfg.cleanupTimeout = cleanupTimeout o.graces →
    (Stream.shutdown cfg s purpose).Legal longestWait ∧
    (Stream.shutdown cfg s purpose).Patient Loop.GaveUp
      fun clock _ => clock s.reads + cleanupTimeout o.graces
  daemon : ∀ cfg s reason, cfg.cleanupTimeout = cleanupTimeout o.graces → s.exit = none →
    (Daemon.closing cfg s reason).Legal longestWait ∧
    (Daemon.closing cfg s reason).Patient Loop.GaveUp
      fun clock _ => clock s.reads + cleanupTimeout o.graces
  collect : ∀ cfg timeoutMs deadline, cfg.cleanupMs = cleanupTimeout o.graces →
    (Run.collecting cfg timeoutMs deadline).Legal longestWait ∧
    (Run.collecting cfg timeoutMs deadline).Patient Loop.GaveUp fun _ l => l.state.backstop
  /-- The budget of `collect/2` counts from the end of the run or from the KILL it sent. -/
  backstop : ∀ cfg timeoutMs deadline, cfg.cleanupMs = cleanupTimeout o.graces →
    ∀ clock, Monotone clock → ∀ l, (Run.collecting cfg timeoutMs deadline).Reaches clock l →
      Run.Enduring cfg (Run.wholeDeadline clock timeoutMs deadline) l.state
  receiveNext : ∀ cfg s, (Stream.receiving cfg s).Legal longestWait ∧
    (Stream.receiving cfg s).Patient Loop.GaveUp fun _ _ => Stream.sooner s
  /-- The budget of `receive_next/1` is the run's timeout and its cleanup. -/
  deadline : ∀ cfg clock timeoutMs reads labels s, cfg.cleanupTimeout = cleanupTimeout o.graces →
    Library.Transition.Run (fun s l t => Stream.step cfg clock s l = some t)
      (Stream.start cfg clock timeoutMs reads) labels s →
        s.deadline = clock reads + timeoutMs + cleanupTimeout o.graces

/-- The waits of every function are legal and patient exactly as long as the three that are not cut
fit the runtime's limit. -/
theorem waits_bounded (o : WaitOptions) :
    WaitsBounded o ↔
      (o.checkMs : ℤ) ≤ longestWait ∧
      ((o.graces.interruptGrace.getD 0 + o.graces.killGrace + Tracking.confirmWindow +
        Tracking.margin : ℕ) : ℤ) ≤ longestWait ∧
      (o.lockMs : ℤ) ≤ longestWait := by
  constructor
  · intro h
    exact ⟨(Tracking.request_legal_iff _).mp h.check.1, (Tracking.request_legal_iff _).mp h.stop.1,
      (Lock.acquire_legal_iff 1 _).mp (h.acquire 1).1⟩
  · rintro ⟨hcheck, hstop, hlock⟩
    constructor
    · exact ⟨(Tracking.request_legal_iff _).mpr hcheck, Tracking.request_patient _⟩
    · exact ⟨(Tracking.request_legal_iff _).mpr hstop, Tracking.request_patient _⟩
    · exact fun osPid => ⟨(Lock.acquire_legal_iff osPid _).mpr hlock, Lock.acquire_patient osPid _⟩
    · exact fun cfg session => Duplex.settling_bounded cfg o.graces session
    · intro cfg s purpose hbudget
      rw [← hbudget]
      exact Stream.shutdown_bounded cfg s purpose
    · intro cfg s reason hbudget he
      rw [← hbudget]
      exact Daemon.closing_bounded cfg s reason he
    · intro cfg timeoutMs deadline _
      refine ⟨Run.collecting_legal cfg timeoutMs deadline, ?_⟩
      intro clock hclock l hl
      exact (Run.collecting_due cfg timeoutMs deadline hclock hl).2
    · intro cfg timeoutMs deadline _ clock hclock l hl
      exact (Run.collecting_due cfg timeoutMs deadline hclock hl).1
    · exact fun cfg s => Stream.receiving_bounded cfg s
    · intro cfg clock timeoutMs reads labels s hbudget hrun
      rw [← hbudget]
      exact Stream.run_deadline hrun

/-- The longest graces the validators admit, with a check and a lock that wait as long. -/
theorem waits_unbounded :
    Graces.Admitted ⟨4294967295, some 4294967295, true⟩ ∧
      ¬WaitsBounded ⟨⟨4294967295, some 4294967295, true⟩, 4294967295, 4294967295⟩ ∧
      ¬WaitsBounded ⟨⟨5000, none, false⟩, 4294967296, 5000⟩ ∧
      ¬WaitsBounded ⟨⟨5000, none, false⟩, 5000, 4294967296⟩ := by
  refine ⟨⟨by decide, fun grace h => ?_⟩, fun h => ?_, fun h => ?_, fun h => ?_⟩
  · obtain rfl := Option.mem_some_iff.mp h
    exact ⟨by decide, by decide⟩
  · exact absurd ((Tracking.request_legal_iff _).mp h.stop.1) (by decide)
  · exact absurd ((Tracking.request_legal_iff _).mp h.check.1) (by decide)
  · exact absurd ((Lock.acquire_legal_iff 1 _).mp (h.acquire 1).1) (by decide)

end Forcola.Beam
