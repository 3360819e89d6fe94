import Forcola.Beam.CreditBalance
import Forcola.Beam.RunDeadlines

/-! A bounded run as the client of its port. -/

namespace Forcola.Beam.Run

open Native (Bytes Pipe)
open Shim (Tag Command)
open Session (granted)

def Effect.command? : Effect → Option Command
  | .send command => some command
  | _ => none

def commands (s : State) : List Command :=
  s.acc.log.reverse.filterMap Effect.command?

def data? : Option Message → Option (Tag × Bytes)
  | some (.data tag payload _) => some (tag, payload)
  | _ => none

/-- An iteration that returns at its backstop takes no message from the port, and nothing is left
to do once the collector returned. -/
def next (cfg : Options) (clock : ℕ → Instant) : State → Option Message → Option State
  | .collecting a, message =>
    match collect cfg clock a, message with
    | .returns outcome a, none => some (.returned outcome a)
    | .returns _ _, some _ => none
    | .receives a _, message => some (receive cfg clock a message)
  | .returned _ _, _ => none

variable {cfg : Options} {clock : ℕ → Instant} {s t : State} {message : Option Message}

lemma next_step (h : next cfg clock s message = some t) :
    ∃ a, s = .collecting a ∧ step cfg clock s message = t := by
  cases s with
  | returned o a => cases h
  | collecting a =>
    refine ⟨a, rfl, ?_⟩
    rw [next.eq_def] at h
    rw [step.eq_def]
    dsimp only at h ⊢
    cases hc : collect cfg clock a with
    | returns o b =>
      rw [hc] at h
      cases message with
      | none => exact Option.some.inj h
      | some m => cases h
    | receives b remaining =>
      rw [hc] at h
      exact Option.some.inj h

lemma next_grows (h : next cfg clock s message = some t) : commands s <+: commands t := by
  obtain ⟨a, rfl, rfl⟩ := next_step h
  have hlog : a.log <:+ (step cfg clock (.collecting a) message).acc.log :=
    ((checkDeadlines_onward a).trans (step_onward a message)).log
  exact (List.reverse_prefix.mpr hlog).filterMap Effect.command?

def client (cfg : Options) (clock : ℕ → Instant) : Session.Client State (Option Message) where
  step := next cfg clock
  hears := data?
  commands := commands
  grows := next_grows

def grants (credits : List (Pipe × ℕ)) : List Command :=
  credits.map fun x => .credit x.1 x.2

lemma grants_append (xs ys : List (Pipe × ℕ)) : grants (xs ++ ys) = grants xs ++ grants ys :=
  List.map_append

lemma granted_log (pipe : Pipe) (log : List Effect) :
    granted pipe (log.reverse.filterMap Effect.command?) = granted pipe (grants (credits log)) := by
  induction log with
  | nil => rfl
  | cons e log ih =>
    rw [List.reverse_cons, List.filterMap_append, Session.granted_append, ih]
    cases e with
    | send command =>
      cases command with
      | credit q bytes =>
        rw [credits, grants_append, Session.granted_append]
        rfl
      | _ => cases pipe <;> rfl
    | _ => cases pipe <;> rfl

def Live (s : State) : Prop :=
  ∃ a, s = .collecting a ∧ a.reason = none

lemma Live.back (h : next cfg clock s message = some t) (hl : Live t) : Live s := by
  obtain ⟨a, rfl, rfl⟩ := next_step h
  obtain ⟨b, hb, hnone⟩ := hl
  refine ⟨a, rfl, Option.eq_none_iff_forall_ne_some.mpr fun reason hr => ?_⟩
  have hstays := (@step_quiet cfg clock a message).1 reason hr
  rw [hb] at hstays
  cases hnone.symm.trans hstays

lemma granted_live (pipe : Pipe) (h : next cfg clock s message = some t) (hl : Live t) :
    granted pipe (commands t) =
      granted pipe (commands s) + granted pipe (grants (earned cfg none message)) := by
  obtain ⟨a, rfl, rfl⟩ := next_step h
  obtain ⟨b, hb, hnone⟩ := hl
  have hearned := (@step_quiet cfg clock a message).2.1 b hb
  rw [hnone] at hearned
  rw [commands, granted_log, hb, commands, granted_log]
  change granted pipe (grants (credits b.log)) = granted pipe (grants (credits a.log)) + _
  rw [hearned, grants_append, Session.granted_append]

lemma granted_stopped (pipe : Pipe) (h : next cfg clock s message = some t) (hl : ¬Live t) :
    granted pipe (commands t) = granted pipe (commands s) := by
  obtain ⟨a, rfl, rfl⟩ := next_step h
  have hcredits : credits (step cfg clock (.collecting a) message).acc.log = credits a.log := by
    cases ht : step cfg clock (.collecting a) message with
    | returned o b => exact (@step_quiet cfg clock a message).2.2 o b ht
    | collecting b =>
      have hearned := (@step_quiet cfg clock a message).2.1 b ht
      cases hr : b.reason with
      | none => exact absurd ⟨b, ht, hr⟩ hl
      | some reason =>
        have hnothing : earned cfg (some reason) message = [] := by
          rw [earned.eq_def]
          split <;> simp
        rw [hr, hnothing, List.append_nil] at hearned
        exact hearned
  rw [commands, granted_log, hcredits, commands, granted_log]
  rfl

lemma earned_heard (hstrict : cfg.strict = true) (message : Option Message) :
    (∃ q payload, (data? message).bind Session.chunk? = some (q, payload) ∧
        earned cfg none message = [(q, payload.length)]) ∨
      (data? message).bind Session.chunk? = none ∧ earned cfg none message = [] := by
  cases message with
  | none => exact .inr ⟨rfl, rfl⟩
  | some m =>
    cases m with
    | exitStatus status => exact .inr ⟨rfl, rfl⟩
    | data tag payload queue =>
      cases tag with
      | stdout => exact .inl ⟨.stdout, payload, rfl, by simp [earned, hstrict]⟩
      | stderr => exact .inl ⟨.stderr, payload, rfl, by simp [earned, hstrict]⟩
      | _ => exact .inr ⟨rfl, rfl⟩

lemma granted_earned (hstrict : cfg.strict = true) (pipe : Pipe) (message : Option Message) :
    granted pipe (grants (earned cfg none message)) ≤
        (Session.heardBytes (client cfg clock) pipe message).length ∧
      ((Session.heardBytes (client cfg clock) pipe message).length ≤ Native.u64Max →
        granted pipe (grants (earned cfg none message)) =
          (Session.heardBytes (client cfg clock) pipe message).length) := by
  rcases earned_heard hstrict message with ⟨q, payload, hdata, hearned⟩ | ⟨hdata, hearned⟩
  · rw [hearned, Session.heardBytes_chunk (K := client cfg clock) hdata]
    split
    · next hq =>
      subst hq
      exact ⟨Session.granted_credit_le q payload.length, fun hfits => Session.granted_credit q hfits⟩
    · next hq =>
      have hnone : granted pipe (grants [(q, payload.length)]) = 0 := Session.granted_other hq _
      exact ⟨hnone.le, fun _ => hnone⟩
  · rw [hearned, Session.heardBytes_silent (K := client cfg clock) hdata]
    exact ⟨le_refl _, fun _ => rfl⟩

lemma keeps (hstrict : cfg.strict = true) (pipe : Pipe) :
    Session.Keeps (client cfg clock) pipe window Live fun _ => window := by
  constructor
  · intro s l t hs hl
    refine ⟨hl.back hs, fun _ => ⟨le_refl _, _, granted_live pipe hs hl, ?_⟩⟩
    obtain ⟨hle, hexact⟩ := @granted_earned cfg clock hstrict pipe l
    refine ⟨Nat.add_le_add_left hle _, fun hfits => ?_⟩
    rw [hexact (hfits.trans (by decide))]
  · intro s l t hs hl
    exact granted_stopped pipe hs hl

lemma opens (hstrict : cfg.strict = true) (pipe : Pipe) (timeoutMs : ℕ) (deadline : Option Instant)
    (reads : ℕ) : Session.Opens (client cfg clock) pipe window Live (fun _ => window)
      (.collecting (execute cfg clock timeoutMs deadline reads)) := by
  refine ⟨⟨_, rfl, rfl⟩, le_refl _, ?_⟩
  have hlog : (execute cfg clock timeoutMs deadline reads).log =
      [.send (.credit .stderr window), .send (.credit .stdout window), .send .eof] := by
    rw [execute]
    exact if_pos hstrict
  change granted pipe (commands _) = window
  rw [commands, State.acc, hlog]
  cases pipe <;> decide

end Forcola.Beam.Run
