import Forcola.Beam.Session
import Forcola.Native.Forwarding

/-! Read credit between a client and the shim: what the client has not had back is at the shim, on
the way to it, or on the way back. -/

namespace Forcola.Beam.Session

open Library Transition
open Native (Bytes Pipe Pump Credit)
open Native.Supervisor (InFrame Config carried outputs received credits Metered Within)
open Shim (Tag Command)

variable {C L σ : Type}

def heardBytes (K : Client C L) (pipe : Pipe) (l : L) : Bytes :=
  carried pipe ((K.hears l).bind chunk?).toList

/-- A client that is `live` until it cancels, halts or ends, and its account of one pipe. A chunk
beyond the budget leaves it empty, which is what the inequality allows for. -/
structure Keeps (K : Client C L) (pipe : Pipe) (window : ℕ) (live : C → Prop)
    (outstanding : C → ℕ) : Prop where
  moves : ∀ {c : C} {l : L} {d : C}, K.step c l = some d → live d → live c ∧
    (outstanding c ≤ window → outstanding d ≤ window ∧
      ∃ grant, granted pipe (K.commands d) = granted pipe (K.commands c) + grant ∧
        outstanding c + grant ≤ outstanding d + (heardBytes K pipe l).length ∧
        ((heardBytes K pipe l).length ≤ outstanding c →
          outstanding d + (heardBytes K pipe l).length = outstanding c + grant))
  quits : ∀ {c : C} {l : L} {d : C}, K.step c l = some d → ¬live d →
    granted pipe (K.commands d) = granted pipe (K.commands c)

structure Opens (K : Client C L) (pipe : Pipe) (window : ℕ) (live : C → Prop)
    (outstanding : C → ℕ) (c : C) : Prop where
  live : live c
  bounded : outstanding c ≤ window
  granted : Session.granted pipe (K.commands c) = outstanding c

variable (K : Client C L) (cfg : Config) (H : Native.Host σ)

/-- The credit of a pipe in frames the supervisor has not taken: in its queue, or not yet there. -/
def unprocessed (pipe : Pipe) (s : State C σ) : ℕ :=
  credits pipe (s.right.queue.filterMap Native.Supervisor.Event.frame?) +
    credits pipe (((K.commands s.left).filterMap inFrame).drop s.toRight)

def Budget (pipe : Pipe) (s : State C σ) (c : Credit) : Prop :=
  (∃ p, s.right.selected pipe = some p ∧ p.credit = some c) ∧
    c.uncorked = false ∧ c.cancelled = false

/-- Where the credit of a pipe is, as long as the client is live and the pump is gated. -/
structure Balanced (pipe : Pipe) (window : ℕ) (live : C → Prop) (outstanding : C → ℕ)
    (labels : List (Label L)) (s : State C σ) : Prop where
  balance : live s.left → ∀ c, Budget pipe s c →
    outstanding s.left + (carried pipe (heard K labels)).length =
      c.available + unprocessed K pipe s + (received pipe (shimLabels labels)).length
  handled : (carried pipe (heard K labels)).length ≤ (received pipe (shimLabels labels)).length
  window : live s.left → outstanding s.left ≤ window
  forwarded : ∀ c, Budget pipe s c →
    (received pipe (shimLabels labels)).length ≤ credits pipe s.right.taken
  consumed : ∀ c, Budget pipe s c → ∀ answer n,
    Native.Supervisor.step cfg H s.right (.pump pipe (.read answer)) = some n →
      answer.payload.length ≤ c.available
  unclipped : live s.left → ∀ c, Budget pipe s c → ∀ l t,
    Session.step K cfg H s (.left l) = some t → live t.left →
      (heardBytes K pipe l).length ≤ outstanding s.left

variable {K cfg H} {c : C} {pipe : Pipe} {window : ℕ} {live : C → Prop} {outstanding : C → ℕ}
  {s t : State C σ} {labels : List (Label L)} {began : Native.Instant}
  {stderr : Option (Pipe × Bool)} {tracker : Option (Native.Tracker σ)}

lemma heardBytes_chunk {l : L} {q : Pipe} {bytes : Bytes}
    (h : (K.hears l).bind chunk? = some (q, bytes)) :
    heardBytes K pipe l = if q = pipe then bytes else [] := by
  rw [heardBytes, h]
  exact Native.Supervisor.carried_snoc pipe [] (q, bytes)

lemma heardBytes_silent {l : L} (h : (K.hears l).bind chunk? = none) : heardBytes K pipe l = [] := by
  rw [heardBytes, h]
  rfl

lemma heard_left (labels : List (Label L)) (l : L) :
    carried pipe (heard K (labels ++ [.left l])) =
      carried pipe (heard K labels) ++ heardBytes K pipe l := by
  have hlabels : clientLabels (labels ++ [.left l]) = clientLabels labels ++ [l] := by
    rw [clientLabels, Link.filterMap_snoc]
    rfl
  rw [heardBytes, ← Native.Supervisor.carried_append, heard, heard, hlabels,
    List.filterMap_filterMap, List.filterMap_filterMap, Link.filterMap_snoc]

lemma heard_right (labels : List (Label L)) (l : Native.Supervisor.Label) :
    heard K (labels ++ [.right l]) = heard K labels := by
  rw [heard, heard, clientLabels, clientLabels, Link.filterMap_snoc]
  simp [Link.Label.left?]

structure Granted (K : Client C L) (pipe : Pipe) (window : ℕ) (live : C → Prop)
    (outstanding : C → ℕ) (labels : List (Label L)) (s : State C σ) : Prop where
  bounded : live s.left → outstanding s.left ≤ window
  kept : live s.left → granted pipe (K.commands s.left) ≤
    outstanding s.left + (carried pipe (heard K labels)).length
  grants : granted pipe (K.commands s.left) ≤ window + (carried pipe (heard K labels)).length

lemma step_right {l : Native.Supervisor.Label} (h : step K cfg H s (.right l) = some t) :
    Native.Supervisor.step cfg H s.right l = some t.right ∧ t.left = s.left := by
  obtain ⟨k, -, hs⟩ := Option.bind_eq_some_iff.mp (step_link h).1
  obtain ⟨d, hd, rfl⟩ := Option.map_eq_some_iff.mp hs
  exact ⟨hd, rfl⟩

lemma Granted.step {l : Label L} (hk : Keeps K pipe window live outstanding)
    (h : Granted K pipe window live outstanding labels s)
    (hs : Session.step K cfg H s l = some t) :
    Granted K pipe window live outstanding (labels ++ [l]) t := by
  cases l with
  | right l =>
    obtain ⟨-, heq⟩ := step_right hs
    exact ⟨heq ▸ h.bounded, by rw [heq, heard_right]; exact h.kept,
      by rw [heq, heard_right]; exact h.grants⟩
  | left l =>
    obtain ⟨hstep, -⟩ := step_left hs
    have hlen : (carried pipe (heard K (labels ++ [.left l]))).length =
        (carried pipe (heard K labels)).length + (heardBytes K pipe l).length := by
      rw [heard_left, List.length_append]
    by_cases hl : live t.left
    · obtain ⟨hlive, hmove⟩ := hk.moves hstep hl
      obtain ⟨hbound, grant, hgrant, hle, -⟩ := hmove (h.bounded hlive)
      have hkept := h.kept hlive
      have hgrants := h.grants
      refine ⟨fun _ => hbound, fun _ => ?_, ?_⟩
      · omega
      · omega
    · have hgrant := hk.quits hstep hl
      have hgrants := h.grants
      refine ⟨fun ht => absurd ht hl, fun ht => absurd ht hl, ?_⟩
      omega

lemma Opens.granted_zero (h : Opens K pipe window live outstanding c)
    (n : Native.Supervisor.State σ) :
    Granted K pipe window live outstanding [] (.begin c n) := by
  have hgranted : Session.granted pipe (K.commands c) = outstanding c := h.granted
  refine ⟨fun _ => h.bounded, fun _ => ?_, ?_⟩
  · exact hgranted.le.trans (Nat.le_add_right _ _)
  · exact (hgranted.le.trans h.bounded).trans (Nat.le_add_right _ _)

lemma Runs.grants (hk : Keeps K pipe window live outstanding)
    (ho : Opens K pipe window live outstanding c) {n : Native.Supervisor.State σ}
    (h : Runs K cfg H (.begin c n) labels s) :
    Granted K pipe window live outstanding labels s :=
  Run.history (fun _ _ _ _ hi hs => hi.step hk hs) h (ho.granted_zero n)

structure Piped (stderr : Option (Pipe × Bool)) (pipe : Pipe) : Prop where
  apart : Native.Supervisor.route stderr .stderr = .stderr
  gated : Native.Supervisor.budgets true stderr pipe = some true

lemma Runs.selected (hp : Piped stderr pipe)
    (h : Runs K cfg H (.begin c (Native.Supervisor.begin began true stderr tracker)) labels s) :
    ∃ p, s.right.selected pipe = some p := by
  have hgated : Native.Supervisor.Gated (Native.Supervisor.budgets true stderr) s.right :=
    h.shim.invariant (fun _ _ _ hi hs => hi.step hs)
      (Native.Supervisor.begin_gated began true stderr tracker)
  exact hgated.selected hp.gated

lemma Runs.heard_le (hp : Piped stderr pipe)
    (h : Runs K cfg H (.begin c (Native.Supervisor.begin began true stderr tracker)) labels s) :
    (carried pipe (Session.heard K labels)).length ≤
      (received pipe (shimLabels labels)).length := by
  obtain ⟨p, hsel⟩ := h.selected hp
  obtain ⟨-, hahead⟩ := (Native.Supervisor.run_sends h.shim).apart hp.apart hsel
  obtain ⟨rest, hrest⟩ := h.heard_prefix
  have hsent := (List.IsPrefix.trans (List.prefix_append _ _) hahead).length_le
  rw [← hrest, Native.Supervisor.carried_append, List.length_append] at hsent
  omega

lemma Runs.metered (hk : Keeps K pipe window live outstanding)
    (ho : Opens K pipe window live outstanding c) (hw : window ≤ Native.u64Max)
    (hp : Piped stderr pipe)
    (h : Runs K cfg H (.begin c (Native.Supervisor.begin began true stderr tracker)) labels s) :
    Metered pipe (shimLabels labels) s.right := by
  refine Session.metered (Native.Supervisor.begin_metered pipe _ _ _ _) (fun labels s h => ?_) h
  have htaken : credits pipe s.right.taken ≤ granted pipe (K.commands s.left) :=
    h.granted_le rfl pipe
  have hgrants := (h.grants hk ho).grants
  have hheard := h.heard_le hp
  rw [Within]
  omega

lemma uncorked_step {s s' : Native.Supervisor.State σ} {l : Native.Supervisor.Label} {p : Pump}
    {b : Credit} (hs : Native.Supervisor.step cfg H s l = some s') (hp : s'.selected pipe = some p)
    (hb : p.credit = some b) (hu : b.uncorked = false) :
    ∃ q d, s.selected pipe = some q ∧ q.credit = some d ∧ d.uncorked = false := by
  by_cases hl : ∃ q action, l = .pump q action
  · obtain ⟨q, action, rfl⟩ := hl
    obtain ⟨r, r', hpumped, hstep⟩ := Native.Supervisor.pumpStep_step hs
    rw [hpumped.after] at hp
    split at hp
    · next heq =>
      subst heq
      obtain rfl := Option.some.inj hp
      obtain ⟨d, hd, hdu⟩ := Native.Pump.step_uncorked hstep hb
      exact ⟨r, d, hpumped.selected, hd, hdu.symm.trans hu⟩
    · exact ⟨p, b, hp, hb, hu⟩
  · obtain ⟨⟨more, htops, -⟩, -⟩ :=
      Native.Supervisor.step_settles (fun q action he => hl ⟨q, action, he⟩) hs
    obtain ⟨f, hf, hsel⟩ := htops pipe
    rw [hsel] at hp
    obtain ⟨q, hq, rfl⟩ := Option.map_eq_some_iff.mp hp
    obtain ⟨d, hd, rfl⟩ := Option.map_eq_some_iff.mp hb
    refine ⟨q, d, hq, hd, ?_⟩
    by_contra hne
    exact Bool.noConfusion (hu.symm.trans ((hf d).uncorked (Bool.eq_true_of_not_eq_false hne)))

def Corked (pipe : Pipe) (s : Native.Supervisor.State σ) : Prop :=
  ∃ p b, s.selected pipe = some p ∧ p.credit = some b ∧ b.uncorked = false

lemma Corked.back {s s' : Native.Supervisor.State σ} {l : Native.Supervisor.Label}
    (h : Corked pipe s') (hs : Native.Supervisor.step cfg H s l = some s') : Corked pipe s := by
  obtain ⟨p, b, hp, hb, hu⟩ := h
  exact uncorked_step hs hp hb hu

lemma Metered.le {labels : List Native.Supervisor.Label} {s : Native.Supervisor.State σ}
    (h : Metered pipe labels s) (hc : Corked pipe s) :
    (received pipe labels).length ≤ credits pipe s.taken := by
  obtain ⟨p, b, hp, hb, hu⟩ := hc
  have hsum := (h p b hp hb hu).1
  omega

lemma Runs.processed {n : Native.Supervisor.State σ} (h : Runs K cfg H (.begin c n) labels s)
    (hn : n.inbox = []) : granted pipe (K.commands s.left) =
      credits pipe s.right.taken + unprocessed K pipe s := by
  have hall : credits pipe s.right.inbox =
      credits pipe (((K.commands s.left).filterMap inFrame).take s.toRight) :=
    Native.Supervisor.credits_perm (h.inbox hn)
  have hsplit := Native.Supervisor.credits_append pipe
    (((K.commands s.left).filterMap inFrame).take s.toRight)
    (((K.commands s.left).filterMap inFrame).drop s.toRight)
  rw [List.take_append_drop] at hsplit
  rw [Native.Supervisor.State.inbox, Native.Supervisor.credits_append] at hall
  rw [granted, unprocessed]
  omega

lemma Pump.read_covered {p p' : Pump} {b : Credit} {answer : Native.ReadAnswer}
    (hs : p.step (.read answer) = some p')
    (hc : Native.Covered b p.point) : answer.payload.length ≤ b.available := by
  rw [Native.Pump.step.eq_def] at hs
  split at hs
  · next heq => cases heq
  · next cap gated answer' hpoint heq =>
    cases heq
    obtain ⟨-, hcap⟩ := hc cap gated hpoint
    cases answer with
    | data bytes =>
      dsimp only at hs
      split at hs
      · cases hs
      · next hfits =>
        have hlen : bytes.length ≤ cap := not_lt.mp fun hlt => hfits (.inr hlt)
        exact hlen.trans hcap
    | eof | interrupted | failed => exact Nat.zero_le _
  · next heq => cases heq
  · next heq => cases heq
  · cases hs

structure Exact (K : Client C L) (pipe : Pipe) (live : C → Prop) (outstanding : C → ℕ)
    (labels : List (Label L)) (s : State C σ) : Prop where
  account : live s.left → Corked pipe s.right → granted pipe (K.commands s.left) =
    outstanding s.left + (carried pipe (heard K labels)).length

section Joined

variable (hk : Keeps K pipe window live outstanding)
  (ho : Opens K pipe window live outstanding c) (hw : window ≤ Native.u64Max)
  (hp : Piped stderr pipe)

include hk ho hw hp

lemma Runs.exact
    (h : Runs K cfg H (.begin c (Native.Supervisor.begin began true stderr tracker)) labels s) :
    Exact K pipe live outstanding labels s := by
  refine (Run.history (I := fun labels s =>
    Runs K cfg H (.begin c (Native.Supervisor.begin began true stderr tracker)) labels s ∧
      Exact K pipe live outstanding labels s) ?_ h ⟨.nil _, ⟨fun _ _ => ?_⟩⟩).2
  · rintro labels s l t ⟨hrun, hexact⟩ hs
    have hrun' := hrun.snoc hs
    refine ⟨hrun', ⟨fun hl hc => ?_⟩⟩
    cases l with
    | right l =>
      obtain ⟨hstep, heq⟩ := step_right hs
      rw [heq, heard_right]
      exact hexact.account (heq ▸ hl) (hc.back hstep)
    | left l =>
      obtain ⟨hstep, hright⟩ := step_left hs
      have hcorked : Corked pipe s.right := hright ▸ hc
      obtain ⟨hlive, hmove⟩ := hk.moves hstep hl
      obtain ⟨-, grant, hgrant, -, hexactly⟩ := hmove ((hrun.grants hk ho).bounded hlive)
      have haccount := hexact.account hlive hcorked
      -- the chunk was read before, so it is paid for
      have hread := hrun'.heard_le hp
      have htaken : credits pipe s.right.taken ≤ granted pipe (K.commands s.left) :=
        hrun.granted_le rfl pipe
      have hmetered := Metered.le (hrun.metered hk ho hw hp) hcorked
      have hlabels : shimLabels (labels ++ [.left l]) = shimLabels labels := by
        rw [shimLabels, Link.filterMap_snoc]
        exact List.append_nil _
      rw [hlabels, heard_left, List.length_append] at hread
      have hpaid := hexactly (by omega)
      rw [heard_left, List.length_append]
      omega
  · exact ho.granted

theorem Runs.balanced
    (h : Runs K cfg H (.begin c (Native.Supervisor.begin began true stderr tracker)) labels s) :
    Balanced K cfg H pipe window live outstanding labels s := by
  have hmetered : Metered pipe (shimLabels labels) s.right := h.metered hk ho hw hp
  have hcorked : ∀ b, Budget pipe s b → Corked pipe s.right := by
    rintro b ⟨⟨p, hsel, hb⟩, hu, -⟩
    exact ⟨p, b, hsel, hb, hu⟩
  have hexact : Exact K pipe live outstanding labels s := h.exact hk ho hw hp
  refine ⟨fun hl b hb => ?_, h.heard_le hp, (h.grants hk ho).bounded, fun b hb => ?_, ?_, ?_⟩
  · have haccount := hexact.account hl (hcorked b hb)
    have hsplit : granted pipe (K.commands s.left) =
        credits pipe s.right.taken + unprocessed K pipe s := h.processed rfl
    obtain ⟨⟨p, hsel, hcredit⟩, hu, -⟩ := hb
    have hsum := (hmetered p b hsel hcredit hu).1
    omega
  · exact Metered.le hmetered (hcorked b hb)
  · rintro b ⟨⟨p, hsel, hcredit⟩, hu, -⟩ answer n hs
    obtain ⟨q, q', hpumped, hstep⟩ := Native.Supervisor.pumpStep_step hs
    obtain rfl := Option.some.inj (hsel.symm.trans hpumped.selected)
    exact Pump.read_covered hstep (hmetered p b hsel hcredit hu).2
  · intro hl b hb l t hs ht
    have hread := (h.snoc hs).heard_le hp
    have htaken : credits pipe s.right.taken ≤ granted pipe (K.commands s.left) :=
      h.granted_le rfl pipe
    have hmet := Metered.le hmetered (hcorked b hb)
    have haccount := hexact.account hl (hcorked b hb)
    have hlabels : shimLabels (labels ++ [.left l]) = shimLabels labels := by
      rw [shimLabels, Link.filterMap_snoc]
      exact List.append_nil _
    rw [hlabels, heard_left, List.length_append] at hread
    omega

end Joined

end Forcola.Beam.Session
