import Forcola.Native.ReadBudget

/-! What of a pipe has reached the wire, and when nothing more of it will. -/

namespace Forcola.Native

def Pump.buffered (p : Pump) : Bytes :=
  match p.point with
  | .writing bytes => bytes
  | _ => []

lemma Pump.step_gated {p p' : Pump} {action : PumpAction} (h : p.step action = some p') :
    p'.credit.isSome = p.credit.isSome := by
  rw [Pump.step.eq_def] at h
  split at h
  · rw [Pump.permit] at h
    split at h
    · obtain rfl := Option.some.inj h
      rfl
    · obtain ⟨permit, -, rfl⟩ := Option.map_eq_some_iff.mp h
      cases permit <;> rfl
  · next cap gated answer _ =>
    cases answer with
    | data bytes =>
      dsimp only at h
      split at h
      · cases h
      · obtain rfl := Option.some.inj h
        cases gated with
        | false => rfl
        | true => exact Option.isSome_map
    | eof | interrupted | failed =>
      obtain rfl := Option.some.inj h
      rfl
  · obtain rfl := Option.some.inj h
    rfl
  · obtain rfl := Option.some.inj h
    rfl
  · cases h

lemma Pump.parked {p : Pump} (h : p.permit = none) :
    ∃ c, p.credit = some c ∧ c.cancelled = false ∧ c.uncorked = false ∧ c.available = 0 := by
  rw [Pump.permit] at h
  split at h
  · cases h
  · next c hc =>
    refine ⟨c, hc, ?_⟩
    rw [Option.map_eq_none_iff, Credit.awaitPermit] at h
    split at h
    · cases h
    · next hcancelled =>
      split at h
      · cases h
      · next huncorked =>
        split at h
        · cases h
        · next hempty =>
          refine ⟨?_, ?_, Nat.eq_zero_of_not_pos hempty⟩
          · exact Bool.eq_false_of_not_eq_true hcancelled
          · exact Bool.eq_false_of_not_eq_true huncorked

namespace Supervisor

open Forcola.Library.Transition

variable {σ : Type} {cfg : Config} {H : Host σ} {s s' : State σ} {pipe : Pipe}
  {stderr : Option (Pipe × Bool)} {labels : List Label} {l : Label}

def Ahead (pipe : Pipe) (labels : List Label) (sent : Bytes) (p : Pump) : Prop :=
  sent ++ p.buffered <+: received pipe labels

def Forwards (stderr : Option (Pipe × Bool)) (labels : List Label) (s : State σ) : Prop :=
  ∃ chunks, outputs s.wire = chunks.map (Prod.map (route stderr) id) ∧
    ∀ pipe p, s.selected pipe = some p → Accounted pipe labels (carried pipe chunks) p ∧
      Ahead pipe labels (carried pipe chunks) p

lemma received_starts (pipe : Pipe) (labels more : List Label) :
    received pipe labels <+: received pipe (labels ++ more) := by
  rw [received, received, answers, answers, List.filterMap_append, List.flatMap_append]
  exact List.prefix_append _ _

lemma Ahead.grows {sent : Bytes} {p : Pump} (h : Ahead pipe labels sent p) (more : List Label) :
    Ahead pipe (labels ++ more) sent p :=
  List.IsPrefix.trans h (received_starts pipe labels more)

lemma Ahead.pump {sent : Bytes} {p p' : Pump} {action : PumpAction} {cancelled : Bool}
    (h : Ahead pipe labels sent p) (ha : Accounted pipe labels sent p)
    (hm : Moves cancelled p.point action p'.point) :
    Ahead pipe (labels ++ [.pump pipe action])
      (sent ++ carried pipe (chunk pipe p.point action)) p' := by
  rw [Accounted] at ha
  rw [Ahead, Pump.buffered.eq_def] at h ⊢
  have hgrow := received_starts pipe labels [.pump pipe action]
  generalize p.point = pt at h ha hm
  generalize p'.point = pt' at hm
  cases hm with
  | @data cap gated bytes =>
    have hflow : Flowing pipe labels sent [] := ha
    rw [received_pump, hflow.bytes]
    simp [chunk, carried, PumpAction.bytes, ReadAnswer.payload]
  | @written bytes =>
    have hsent : sent ++ bytes <+: received pipe labels := h
    simpa [chunk, carried] using hsent.trans hgrow
  | @unwritten bytes =>
    have hsent : sent ++ bytes <+: received pipe labels := h
    simpa [chunk, carried] using ((List.prefix_append sent bytes).trans hsent).trans hgrow
  | permit | cancel | eof | interrupted | failed | done =>
    simpa [chunk, carried] using h.trans hgrow

lemma Forwards.quiet (h : Forwards stderr labels s) (hq : Quiet s s')
    (hl : ∀ pipe, l.answer pipe = none) : Forwards stderr (labels ++ [l]) s' := by
  obtain ⟨chunks, hc, ha⟩ := h
  obtain ⟨newer, hw, hn⟩ := hq.wire
  refine ⟨chunks, ?_, fun q r' hr' => ?_⟩
  · rw [hw, outputs_append hn, hc]
  · obtain ⟨f, hf, hs⟩ := hq.adjusted q
    obtain ⟨r, hr, rfl⟩ := Option.map_eq_some_iff.mp (hs.symm.trans hr')
    obtain ⟨hacc, hahead⟩ := ha q r hr
    exact ⟨hacc.adjusted (hl q) hf, hahead.grows [l]⟩

lemma Forwards.pump {action : PumpAction} (h : Forwards stderr labels s)
    (hc : Carried stderr labels s) (hs : pumpStep s pipe action = some s') :
    Forwards stderr (labels ++ [.pump pipe action]) s' := by
  obtain ⟨p, p', hp⟩ := pumpStep_pumped hs
  obtain ⟨chunks, hchunks, ha⟩ := h
  refine ⟨chunks ++ chunk pipe p.point action, ?_, fun q r hr => ?_⟩
  · rw [hp.outputs, hchunks, List.map_append, chunk_route, hc.tag pipe p hp.selected]
  · rw [hp.after] at hr
    rw [carried_append]
    split at hr
    · next hq =>
      obtain rfl := Option.some.inj hr
      subst hq
      obtain ⟨hacc, hahead⟩ := ha q p hp.selected
      exact ⟨hacc.pump hp.cancelled hp.moves, hahead.pump hacc hp.moves⟩
    · next hq =>
      have hl : Label.answer q (.pump pipe action) = none := by
        cases action <;> simp [Label.answer, Ne.symm hq]
      obtain ⟨hacc, hahead⟩ := ha q r hr
      have hadj := @Accounted.adjusted q labels _ r _ hacc hl id fun _ hc => hc
      rw [onCredit_id] at hadj
      rw [carried_other hq, List.append_nil]
      exact ⟨hadj, hahead.grows _⟩

lemma Forwards.step (h : Forwards stderr labels s) (hc : Carried stderr labels s) (ho : Ordered s)
    (hs : step cfg H s l = some s') : Forwards stderr (labels ++ [l]) s' := by
  by_cases hl : ∃ pipe action, l = .pump pipe action
  · obtain ⟨pipe, action, rfl⟩ := hl
    exact h.pump hc hs
  · refine h.quiet (step_quiet ho (fun pipe action he => hl ⟨pipe, action, he⟩) hs) fun pipe => ?_
    cases l with
    | pump pipe action => exact absurd ⟨pipe, action, rfl⟩ hl
    | _ => rfl

lemma Pumped.exits {action : PumpAction} {p p' : Pump} {r : ExitReport}
    (h : Pumped s s' pipe action p p') (hr : .exit r ∈ s'.wire) : Frame.exit r ∈ s.wire := by
  obtain ⟨s₁, rfl, rfl⟩ := h.pump
  have hset : (s.setPump pipe p').wire = s.wire := by cases pipe <;> rfl
  rw [pumpOut.eq_def, ← hset] at *
  split at hr
  · exact (List.mem_cons.mp hr).resolve_left Frame.noConfusion
  · exact hr
  · exact hr

/-- No output follows an EXIT that does not report truncated output. -/
def Sealed (s : State σ) : Prop :=
  ∀ newer older r, s.wire = newer ++ .exit r :: older → r.outputTruncated = false →
    ∀ f ∈ newer, f.output? = none

lemma Sealed.step (h : Sealed s) (ho : Ordered s) (hs : step cfg H s l = some s') : Sealed s' := by
  intro newer older r hw hr
  by_cases hl : ∃ pipe action, l = .pump pipe action
  · obtain ⟨pipe, action, rfl⟩ := hl
    obtain ⟨p, p', hp⟩ := pumpStep_pumped hs
    have hmem : Frame.exit r ∈ s'.wire := hw ▸ List.mem_append_right _ List.mem_cons_self
    have hframes : Frame.exit r ∈ s.frames := List.mem_append_left _ (hp.exits hmem)
    exact absurd (State.all_closed (ho.complete r hframes hr).1 hp.selected) hp.not_closed
  · obtain ⟨-, newer', hw', hn'⟩ := step_quiet ho (fun pipe action he => hl ⟨pipe, action, he⟩) hs
    rw [hw'] at hw
    rcases List.append_eq_append_iff.mp hw with ⟨mid, rfl, hmid⟩ | ⟨mid, rfl, hmid⟩
    · intro f hf
      rcases List.mem_append.mp hf with hf | hf
      · exact hn' f hf
      · exact h mid older r hmid hr f hf
    · exact fun f hf => hn' f (List.mem_append_left _ hf)

def Gated (gated : Pipe → Option Bool) (s : State σ) : Prop :=
  ∀ pipe, (s.selected pipe).map (·.credit.isSome) = gated pipe

lemma Gated.step {gated : Pipe → Option Bool} (h : Gated gated s)
    (hs : step cfg H s l = some s') : Gated gated s' := by
  intro pipe
  by_cases hl : ∃ q action, l = .pump q action
  · obtain ⟨q, action, rfl⟩ := hl
    obtain ⟨r, r', hp, hstep⟩ := pumpStep_step hs
    rw [hp.after]
    split
    · next hq =>
      subst hq
      rw [← h pipe, hp.selected, Option.map_some, Option.map_some, Pump.step_gated hstep]
    · exact h pipe
  · obtain ⟨⟨more, htops, -⟩, -⟩ := step_settles (fun q action he => hl ⟨q, action, he⟩) hs
    obtain ⟨f, -, hsel'⟩ := htops pipe
    rw [hsel', ← h pipe, Option.map_map]
    congr 1
    funext p
    exact Option.isSome_map

lemma Gated.budget {gated : Pipe → Option Bool} (h : Gated gated s) {p : Pump}
    (hg : gated pipe = some true) (hp : s.selected pipe = some p) : ∃ c, p.credit = some c := by
  have hsome := h pipe
  rw [hp, hg, Option.map_some] at hsome
  exact Option.isSome_iff_exists.mp (Option.some.inj hsome)

lemma Gated.selected {gated : Pipe → Option Bool} (h : Gated gated s) {b : Bool}
    (hg : gated pipe = some b) : ∃ p, s.selected pipe = some p := by
  have hsome := h pipe
  rw [hg] at hsome
  obtain ⟨p, hp, -⟩ := Option.map_eq_some_iff.mp hsome
  exact ⟨p, hp⟩

def budgets (gated : Bool) (stderr : Option (Pipe × Bool)) : Pipe → Option Bool
  | .stdout => some gated
  | .stderr => stderr.map (·.2)

lemma begin_gated (clock : Instant) (gated : Bool) (stderr : Option (Pipe × Bool))
    (tracker : Option (Tracker σ)) :
    Gated (budgets gated stderr) (begin clock gated stderr tracker) := by
  intro pipe
  cases pipe with
  | stdout => cases gated <;> rfl
  | stderr =>
    cases stderr with
    | none => rfl
    | some stderr =>
      obtain ⟨tag, gated'⟩ := stderr
      cases gated' <;> rfl

structure Sends (stderr : Option (Pipe × Bool)) (labels : List Label) (s : State σ) : Prop where
  ordered : Ordered s
  carried : Carried stderr labels s
  forwards : Forwards stderr labels s
  sealed : Sealed s
  unwritten : s.connected = true → ∀ pipe, .pump pipe (.write false) ∉ labels

lemma unwritten_step (h : s.connected = true → .pump pipe (.write false) ∉ labels)
    (hs : step cfg H s l = some s') (hc : s'.connected = true) :
    .pump pipe (.write false) ∉ labels ++ [l] := by
  have hc := connected_step hs hc
  intro hmem
  rcases List.mem_append.mp hmem with hmem | hmem
  · exact h hc hmem
  · obtain rfl := List.mem_singleton.mp hmem
    simp only [step, pumpStep, hc, and_self, if_true] at hs
    cases hsel : s.selected pipe <;> simp [hsel] at hs

lemma run_sends {clock : Instant} {gated : Bool} {tracker : Option (Tracker σ)}
    (h : Run (fun s l s' => step cfg H s l = some s') (begin clock gated stderr tracker) labels s) :
    Sends stderr labels s := by
  have hstep : ∀ (labels : List Label) (s : State σ) (l : Label) (s' : State σ),
      Sends stderr labels s → step cfg H s l = some s' → Sends stderr (labels ++ [l]) s' :=
    fun _ _ _ _ hi hs => ⟨hi.ordered.step hs, hi.carried.step hi.ordered hs,
      hi.forwards.step hi.carried hi.ordered hs, hi.sealed.step hi.ordered hs,
      fun hc pipe => unwritten_step (fun hc => hi.unwritten hc pipe) hs hc⟩
  refine h.history hstep ⟨begin_ordered .., begin_carried .., ⟨[], rfl, fun pipe p hp => ?_⟩, ?_, ?_⟩
  · obtain ⟨g, rfl⟩ := begin_selected hp
    exact ⟨⟨fun a ha => absurd ha List.not_mem_nil, rfl⟩, List.nil_prefix⟩
  · intro newer older r hw
    exact absurd hw (by simp [begin, start])
  · exact fun _ _ => List.not_mem_nil

lemma Sends.apart (h : Sends stderr labels s) (hr : route stderr .stderr = .stderr) {p : Pump}
    (hp : s.selected pipe = some p) :
    Accounted pipe labels (Supervisor.carried pipe (outputs s.wire)) p ∧
      Ahead pipe labels (Supervisor.carried pipe (outputs s.wire)) p := by
  obtain ⟨chunks, hc, ha⟩ := h.forwards
  rw [hc, route_id hr, List.map_id]
  exact ha pipe p hp

structure Reads (text : Bytes) (pipe : Pipe) (labels : List Label) : Prop where
  bytes : received pipe labels <+: text
  unfailed : .failed ∉ answers pipe labels
  eof : .eof ∈ answers pipe labels → received pipe labels = text

lemma Sends.complete (h : Sends stderr labels s) (hr : route stderr .stderr = .stderr) {p : Pump}
    (hp : s.selected pipe = some p) (hdone : p.point = .closed) (hcan : p.cancelled = false)
    (hcon : s.connected = true) {text : Bytes} (ht : Reads text pipe labels) :
    Supervisor.carried pipe (outputs s.wire) = text := by
  have hacc := (h.apart hr hp).1
  rw [Accounted, hdone] at hacc
  cases hacc with
  | ended he ha hn hb =>
    obtain ⟨as, heof, -⟩ := Ended.exhausted ⟨_, _, he, ha, hn⟩ ht.unfailed
    rw [← hb]
    exact ht.eof (heof ▸ List.mem_append_right _ List.mem_cons_self)
  | unwritten he => exact absurd he (h.unwritten hcon pipe)
  | cancelled he => exact absurd (hcan.symm.trans he) Bool.false_ne_true

end Supervisor

end Forcola.Native
