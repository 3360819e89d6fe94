import Forcola.Beam.DuplexSession
import Forcola.Beam.RunSession
import Forcola.Beam.StreamSession

/-! The read credit of the three gated clients: a bounded run, a stream with backpressure and a
pull session. -/

namespace Forcola.Beam

open Library Transition
open Native (Bytes Pipe)
open Native.Supervisor (carried)
open Session (heardBytes granted)
open Shim (Tag Command)

namespace Stream

variable {cfg : Options} {clock : ℕ → Instant} {s t : State} {l : Label} {window : ℕ}

def Live (s : State) : Prop :=
  s.exit = none ∧ (s.phase = .ready ∨ ∃ wait, s.phase = .receiving wait)

lemma Live.going (h : Live s) : ¬Quitting s := by
  obtain ⟨he, hp⟩ := h
  rintro (hx | ha | ⟨purpose, deadline, ha⟩)
  · exact hx he
  · rcases hp with hp | ⟨wait, hp⟩ <;> cases hp.symm.trans ha
  · rcases hp with hp | ⟨wait, hp⟩ <;> cases hp.symm.trans ha

lemma Decides.dead {exit : Exit} {final : List Bytes} (h : Decides s t exit final) : ¬Live t :=
  fun hl => by cases hl.1.symm.trans h.exit

lemma Live.back (hs : step cfg clock s l = some t) (hl : Live t) : Live s := by
  have hgoing := hl.going
  cases step_turn hs with
  | asks hp he => exact ⟨he, .inl hp⟩
  | halts hp he => exact absurd (.inl (by simp [he])) hgoing
  | raises hp e he => exact absurd (.inl (by simp [he])) hgoing
  | abandons hp exit he => exact absurd (.inr (.inl rfl)) hgoing
  | leaves hp he h => exact absurd h.quitting hgoing
  | rewaits hp h => exact ⟨h.exit.symm.trans hl.1, .inr ⟨_, hp⟩⟩
  | idles hp hw hi h => exact absurd h.quitting hgoing
  | stops hp hw hi e hlim ht hn ho h => exact absurd hl h.dead
  | notes hp hm h => exact ⟨h.exit.symm.trans hl.1, .inr ⟨_, hp⟩⟩
  | takes hp hm h => exact ⟨h.exit.symm.trans hl.1, .inr ⟨_, hp⟩⟩
  | exceeds hp hm h =>
    obtain ⟨u, lines, limit, -, -, -, hw⟩ := h.overrun
    exact absurd hw.quitting hgoing
  | exits hp exit h => exact absurd hl h.dead
  | fails hp hm e he h => exact absurd hl h.dead
  | awaits hp hm h => exact absurd h.quitting hgoing
  | reports hp payload =>
    exact absurd (@Waits.quitting cfg _ _ _ (.concluded _ (.refl s) rfl)) hgoing

lemma heardBytes_stdout (payload : Bytes) :
    heardBytes (client cfg clock) .stdout (.message (.data .stdout payload)) = payload :=
  List.append_nil payload

lemma heardBytes_other (hl : ∀ payload, l ≠ .message (.data .stdout payload)) :
    heardBytes (client cfg clock) .stdout l = [] := by
  cases l with
  | pull | expire | halt => rfl
  | message message =>
    cases message with
    | exitStatus => rfl
    | data tag payload =>
      cases tag with
      | stdout => exact absurd rfl (hl payload)
      | _ => rfl

lemma keeps (hw : cfg.window = some window) (hfits : window ≤ Native.u64Max) :
    Session.Keeps (client cfg clock) .stdout window Live State.outstanding := by
  constructor
  · intro s l t hs hl
    have hback := hl.back hs
    refine ⟨hback, fun hbound => ?_⟩
    by_cases hout : ∃ payload, l = .message (.data .stdout payload)
    · obtain ⟨payload, rfl⟩ := hout
      have ht : t = handleMessage cfg clock s (.data .stdout payload) := by
        change step cfg clock s _ = some t at hs
        rw [Stream.step.eq_def] at hs
        rcases hback.2 with hp | ⟨wait, hp⟩
        · rw [hp] at hs
          cases hs
        · rw [hp] at hs
          exact (Option.some.inj hs).symm
      rw [heardBytes_stdout]
      rcases @handleStdout_speaks cfg clock s payload with h | h
      · rw [← ht] at h
        have hspent := h.outstanding (by rw [hw]; rfl)
        have hgranted : granted .stdout (commands t) = granted .stdout (commands s) := by
          rw [h.commands]
        exact ⟨by omega, 0, hgranted, by omega, fun _ => by omega⟩
      · exact absurd (ht ▸ h.quitting) hl.going
    · rw [heardBytes_other fun payload heq => hout ⟨payload, heq⟩, List.length_nil]
      cases step_speaks hs with
      | mute h =>
        have hsame := h.outstanding
        have hgranted : granted .stdout (commands t) = granted .stdout (commands s) := by
          rw [h.commands]
        exact ⟨by omega, 0, hgranted, by omega, fun _ => by omega⟩
      | grants hp he hwin ho hlog hc =>
        obtain rfl := Option.some.inj (hw.symm.trans hwin)
        refine ⟨ho.le, window - s.outstanding, ?_, by omega, fun _ => by omega⟩
        change granted .stdout (commands t) = _
        rw [hc, Session.granted_append]
        split
        · rw [Session.granted_credit .stdout (by omega)]
          rfl
        · next hfull =>
          rw [Nat.sub_eq_zero_of_le (Nat.le_of_not_lt hfull)]
          rfl
      | accounts hp hlabel => exact absurd ⟨_, hlabel⟩ hout
      | kills hq => exact absurd hq hl.going
  · intro s l t hs hl
    cases step_speaks hs with
    | mute h => exact congrArg _ h.commands
    | grants hp he hwin ho hlog hc hpull =>
      subst hpull
      refine absurd ?_ hl
      cases step_turn hs with
      | asks _ _ h wait hphase => exact ⟨h.exit.trans he, .inr ⟨wait, hphase⟩⟩
      | halts _ hx | raises _ _ hx => cases he.symm.trans hx
      | awaits hphase => cases hp.symm.trans hphase
    | accounts hp hlabel ho hlog hc => exact congrArg _ hc
    | kills hq hlog hc =>
      change granted .stdout (commands t) = _
      rw [hc, Session.granted_append]
      rfl

lemma opens (timeoutMs reads : ℕ) :
    Session.Opens (client cfg clock) .stdout window Live State.outstanding
      (start cfg clock timeoutMs reads) := by
  refine ⟨⟨rfl, .inl rfl⟩, Nat.zero_le _, ?_⟩
  change granted .stdout (commands (start cfg clock timeoutMs reads)) = 0
  cases hmax : cfg.maxStderrBytes with
  | none => simp [commands, start, hmax, Effect.command?, granted, Session.inFrame]; rfl
  | some n => simp [commands, start, hmax, Effect.command?, granted, Session.inFrame]; rfl

end Stream

/-- The pumps a session starts: a pty has one pipe only. -/
def Duplex.pumps (cfg : Duplex.Options) : Option (Pipe × Bool) :=
  if cfg.pty then none else some (.stderr, true)

def pumps : Option (Pipe × Bool) := some (.stderr, true)

lemma pumps_piped (pipe : Pipe) : Session.Piped pumps pipe := by
  constructor
  · rfl
  · cases pipe <;> rfl

lemma Duplex.pumps_piped {cfg : Duplex.Options} {pipe : Pipe} (h : Duplex.Gated cfg pipe) :
    Session.Piped (Duplex.pumps cfg) pipe := by
  rw [Duplex.pumps]
  split
  · next hpty =>
    refine ⟨rfl, ?_⟩
    cases pipe with
    | stdout => rfl
    | stderr => exact absurd ⟨rfl, hpty⟩ h
  · exact Forcola.Beam.pumps_piped pipe

variable {σ : Type}

/-- Read credit is conserved between each of the three clients and the shim it started, in every
order of their steps. -/
theorem credit_conserved (shim : Native.Supervisor.Config) (H : Native.Host σ)
    (began : Native.Instant) (tracker : Option (Native.Tracker σ)) :
    (∀ (cfg : Run.Options) (clock : ℕ → Instant) (timeoutMs : ℕ) (deadline : Option Instant)
        (reads : ℕ) (pipe : Pipe) labels s, cfg.strict = true →
      Session.Runs (Run.client cfg clock) shim H
        (.begin (.collecting (Run.execute cfg clock timeoutMs deadline reads))
          (Native.Supervisor.begin began true pumps tracker)) labels s →
      Session.Balanced (Run.client cfg clock) shim H pipe Run.window Run.Live
        (fun _ => Run.window) labels s) ∧
    (∀ (cfg : Stream.Options) (clock : ℕ → Instant) (timeoutMs reads window : ℕ) labels s,
      cfg.window = some window → window ≤ Native.u64Max →
      Session.Runs (Stream.client cfg clock) shim H
        (.begin (Stream.start cfg clock timeoutMs reads)
          (Native.Supervisor.begin began true pumps tracker)) labels s →
      Session.Balanced (Stream.client cfg clock) shim H .stdout window Stream.Live
        Stream.State.outstanding labels s) ∧
    ∀ (cfg : Duplex.Options) (pipe : Pipe) labels s, cfg.delivery = .pull →
      cfg.maxPendingBytes ≤ Native.u64Max → Duplex.Gated cfg pipe →
      Session.Runs (Duplex.client cfg) shim H
        (.begin (Duplex.opened cfg)
          (Native.Supervisor.begin began true (Duplex.pumps cfg) tracker)) labels s →
      Session.Balanced (Duplex.client cfg) shim H pipe cfg.maxPendingBytes Duplex.Running
        (fun s => s.1.outstanding pipe) labels s := by
  refine ⟨?_, ?_, ?_⟩
  · intro cfg clock timeoutMs deadline reads pipe labels s hstrict h
    exact h.balanced (Run.keeps hstrict pipe) (Run.opens hstrict pipe timeoutMs deadline reads)
      (by decide) (pumps_piped pipe)
  · intro cfg clock timeoutMs reads window labels s hw hfits h
    exact h.balanced (Stream.keeps hw hfits) (Stream.opens timeoutMs reads) hfits
      (pumps_piped .stdout)
  · intro cfg pipe labels s hd hfits hg h
    exact h.balanced (Duplex.keeps hd hfits hg) (Duplex.opens cfg pipe) hfits
      (Duplex.pumps_piped hg)

def oneByte (bytes : ℕ) : List Native.Supervisor.Label :=
  [.send (.credit (Shim.encodeCredit bytes)), .receive ⟨[], [], []⟩, .pump .stdout .permit,
    .pump .stdout (.read (.data [97])), .pump .stdout (.write true)]

def gatedShim : Native.Supervisor.Config := ⟨0, none, false, true⟩

def gatedStream : Stream.Options where
  json _ := none
  timeoutMs := 1000
  cleanupTimeout := 0
  idleTimeout := none
  window := some 8
  maxLineBytes := none
  maxStderrBytes := some 16
  mergeStderr := false
  identityEnabled := false
  spawnObserver := false
  structuredSpawnErrors := false
  trackDescendants := false
  trackObserver := false

def strictRun : Run.Options := { plainRun with strict := true }

instance (s : Stream.State) : Decidable (Stream.Live s) :=
  match hp : s.phase with
  | .ready => decidable_of_iff (s.exit = none) (by simp [Stream.Live, hp])
  | .receiving wait => decidable_of_iff (s.exit = none) (by simp [Stream.Live, hp])
  | .awaiting _ _ | .halted | .raised _ | .abandoned => isFalse (by simp [Stream.Live, hp])

instance : DecidablePred Run.Live
  | .collecting a => decidable_of_iff (a.reason = none) (by simp [Run.Live])
  | .returned _ _ => isFalse fun ⟨_, h, _⟩ => by cases h

instance (cfg : Duplex.Options) : DecidablePred (@Duplex.Running cfg) := fun s =>
  match hp : s.1.phase with
  | .running => isTrue hp
  | .stopping | .awaiting | .closing _ | .published | .stopped | .killed =>
    isFalse (by simp [Duplex.Running, hp])

lemma Session.budget_of_eq {C σ : Type} {pipe : Pipe} {s : Session.State C σ} {n : ℕ}
    (h : (s.right.selected pipe).bind Native.Pump.credit = some ⟨n, false, false⟩) :
    Session.Budget pipe s ⟨n, false, false⟩ := by
  obtain ⟨p, hp, hc⟩ := Option.bind_eq_some_iff.mp h
  exact ⟨⟨p, hp, hc⟩, rfl, rfl⟩

/-- The byte is on its way back: the pump has one byte of credit less, the client none. -/
theorem credit_conserved_one_byte :
    (∃ s, exec (Session.step (Duplex.client (Duplex.smallOptions .pull)) gatedShim .empty)
        (.begin (Duplex.opened (Duplex.smallOptions .pull))
          (Native.Supervisor.begin 0 true pumps none))
        (.left (Duplex.recv 0) :: (oneByte 8).map .right) = some s ∧
      Duplex.Running s.left ∧ Session.Budget .stdout s ⟨7, false, false⟩ ∧
      s.left.1.outstanding .stdout =
        7 + Session.unprocessed (Duplex.client (Duplex.smallOptions .pull)) .stdout s + 1) ∧
    (∃ s, exec (Session.step (Stream.client gatedStream fun _ => 0) gatedShim .empty)
        (.begin (Stream.start gatedStream (fun _ => 0) 1000 0)
          (Native.Supervisor.begin 0 true pumps none))
        (.left .pull :: (.send (.stderrCredit (Shim.encodeCredit 17)) :: .receive ⟨[], [], []⟩ ::
          oneByte 8).map .right) = some s ∧
      Stream.Live s.left ∧ Session.Budget .stdout s ⟨7, false, false⟩ ∧
      s.left.outstanding ≤ 8 ∧ s.left.outstanding =
        7 + Session.unprocessed (Stream.client gatedStream fun _ => 0) .stdout s + 1) ∧
    ∃ s, exec (Session.step (Run.client strictRun fun _ => 0) gatedShim .empty)
        (.begin (.collecting (Run.execute strictRun (fun _ => 0) 1000 none 0))
          (Native.Supervisor.begin 0 true pumps none))
        ((oneByte Run.window).map .right) = some s ∧
      Run.Live s.left ∧ Session.Budget .stdout s ⟨Run.window - 1, false, false⟩ ∧
      1 ≤ Native.Supervisor.credits .stdout s.right.taken ∧ Run.window = Run.window - 1 +
        Session.unprocessed (Run.client strictRun fun _ => 0) .stdout s + 1 := by
  obtain ⟨hrun, hstream, hduplex⟩ := credit_conserved gatedShim .empty 0 none
  refine ⟨?_, ?_, ?_⟩
  · have hk : (exec (Session.step (Duplex.client (Duplex.smallOptions .pull)) gatedShim .empty)
        (.begin (Duplex.opened (Duplex.smallOptions .pull))
          (Native.Supervisor.begin 0 true pumps none))
        (.left (Duplex.recv 0) :: (oneByte 8).map .right)).any (fun s =>
          decide (Duplex.Running s.left ∧ (s.right.selected .stdout).bind Native.Pump.credit =
            some ⟨7, false, false⟩)) = true := by
      decide +kernel
    obtain ⟨s, hs, hp⟩ := Option.any_eq_true .. |>.mp hk
    obtain ⟨hlive, hcredit⟩ := of_decide_eq_true hp
    have hbudget := Session.budget_of_eq hcredit
    exact ⟨s, hs, hlive, hbudget, (hduplex (Duplex.smallOptions .pull) .stdout _ s rfl (by decide)
      (fun h => by cases h.1) (exec_run hs)).balance hlive _ hbudget⟩
  · have hk : (exec (Session.step (Stream.client gatedStream fun _ => 0) gatedShim .empty)
        (.begin (Stream.start gatedStream (fun _ => 0) 1000 0)
          (Native.Supervisor.begin 0 true pumps none))
        (.left .pull :: (.send (.stderrCredit (Shim.encodeCredit 17)) :: .receive ⟨[], [], []⟩ ::
          oneByte 8).map .right)).any (fun s =>
          decide (Stream.Live s.left ∧ (s.right.selected .stdout).bind Native.Pump.credit =
            some ⟨7, false, false⟩)) = true := by
      decide +kernel
    obtain ⟨s, hs, hp⟩ := Option.any_eq_true .. |>.mp hk
    obtain ⟨hlive, hcredit⟩ := of_decide_eq_true hp
    have hbudget := Session.budget_of_eq hcredit
    have hbalanced := hstream gatedStream (fun _ => 0) 1000 0 8 _ s rfl (by decide) (exec_run hs)
    exact ⟨s, hs, hlive, hbudget, hbalanced.window hlive, hbalanced.balance hlive _ hbudget⟩
  · have hk : (exec (Session.step (Run.client strictRun fun _ => 0) gatedShim .empty)
        (.begin (.collecting (Run.execute strictRun (fun _ => 0) 1000 none 0))
          (Native.Supervisor.begin 0 true pumps none))
        ((oneByte Run.window).map .right)).any (fun s =>
          decide (Run.Live s.left ∧ (s.right.selected .stdout).bind Native.Pump.credit =
            some ⟨Run.window - 1, false, false⟩)) = true := by
      decide +kernel
    obtain ⟨s, hs, hp⟩ := Option.any_eq_true .. |>.mp hk
    obtain ⟨hlive, hcredit⟩ := of_decide_eq_true hp
    have hbudget := Session.budget_of_eq hcredit
    have hbalanced := hrun strictRun (fun _ => 0) 1000 none 0 .stdout _ s rfl (exec_run hs)
    exact ⟨s, hs, hlive, hbudget, hbalanced.forwarded _ hbudget, hbalanced.balance hlive _ hbudget⟩

end Forcola.Beam
