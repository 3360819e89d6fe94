import Forcola.Beam.ExitCodec
import Forcola.Beam.RunSession
import Forcola.Native.GroupKill

/-! A result that is not reported as truncated is what the shim read from the child. -/

namespace Forcola

open Library Transition
open Native (Bytes Pipe)

namespace Native.Supervisor

variable {σ : Type} {labels : List Label} {s s' : State σ}
  {stderr : Option (Pipe × Bool)} {newer older : List Frame} {r : ExitReport} {pipe : Pipe}

lemma Sends.finished (h : Sends stderr labels s) (hr : r.outputTruncated = false)
    (hw : .exit r ∈ s.wire) : s.finished = s.pumps ∧ s.cancelled = false :=
  h.ordered.complete r (List.mem_append_left _ hw) hr

lemma Sends.behind (h : Sends stderr labels s) (hw : s.wire = newer ++ .exit r :: older)
    (hr : r.outputTruncated = false) :
    ∃ chunks, outputs s.wire = chunks.map (Prod.map (route stderr) id) ∧
      outputs older = outputs s.wire ∧ chunks.map Prod.fst = writes labels ∧
      (∀ chunk ∈ chunks, (s.selected chunk.1).isSome = true) ∧
      ∀ pipe p, s.selected pipe = some p → Stopped pipe labels (Supervisor.carried pipe chunks) false := by
  obtain ⟨chunks, hout, hsome, horder, hacc⟩ := h.carried.chunks
  obtain ⟨hall, hcan⟩ := h.finished hr (hw ▸ List.mem_append_right _ List.mem_cons_self)
  refine ⟨chunks, hout, ?_, horder, hsome, fun pipe p hp => ?_⟩
  · have hwire := congrArg outputs hw
    rw [outputs_append (h.sealed newer older r hw hr), outputs_cons] at hwire
    rw [hwire]
    exact (List.append_nil _).symm
  · have ha := hacc pipe p hp
    rwa [Accounted, State.all_closed hall hp, State.not_cancelled hcan hp] at ha

lemma Sends.resting (h : Sends stderr labels s) (hr : r.outputTruncated = false)
    (hw : .exit r ∈ s.wire) {action : PumpAction} :
    pumpStep s pipe action ≠ some s' := by
  intro hs
  obtain ⟨hall, -⟩ := h.finished hr hw
  obtain ⟨p, p', hp⟩ := pumpStep_pumped hs
  exact hp.not_closed (State.all_closed hall hp.selected)

end Native.Supervisor

namespace Beam

open Native.Supervisor (Ended Frame Exhausted answers carried received outputs route writes)
open Shim (Tag)

namespace Session

variable {C L σ : Type} {K : Client C L} {cfg : Native.Supervisor.Config} {H : Native.Host σ}
  {c : C} {s t : State C σ} {labels : List (Label L)} {began : Native.Instant} {gated : Bool}
  {stderr : Option (Pipe × Bool)} {tracker : Option (Native.Tracker σ)}
  {write : ExitCodec.Report → Bytes}

def spells (write : ExitCodec.Report → Bytes) : Frame → Tag × Bytes → Prop
  | .exit r, data => data.2 = write r
  | .output _ _, _ | .tracked _, _ => True

def Spelled (write : ExitCodec.Report → Bytes) (K : Client C L) (labels : List (Label L))
    (s : State C σ) : Prop :=
  List.Forall₂ (spells write) (s.right.wire.reverse.take s.toLeft)
    ((clientLabels labels).filterMap K.port.takes)

/-- The chunks on the wire, each with the pipe it was read from: in the order of the pumps' writes,
and of each pipe all its reads returned until they ended. -/
structure Whole (stderr : Option (Pipe × Bool)) (labels : List (Label L)) (s : State C σ)
    (chunks : List (Pipe × Bytes)) : Prop where
  wire : outputs s.right.wire = chunks.map (Prod.map (route stderr) id)
  order : chunks.map Prod.fst = writes (shimLabels labels)
  sources : ∀ chunk ∈ chunks, (s.right.selected chunk.1).isSome = true
  ended : ∀ pipe p, s.right.selected pipe = some p → Ended pipe (shimLabels labels) ∧
    carried pipe chunks = received pipe (shimLabels labels)
  exhausted : ∀ pipe p, s.right.selected pipe = some p → .failed ∉ answers pipe (shimLabels labels) →
    Exhausted pipe (shimLabels labels)

lemma Runs.unwritten
    (h : Runs K cfg H (.begin c (Native.Supervisor.begin began gated stderr tracker)) labels s)
    {k : ℕ} (hk : k < s.toLeft) {r : Native.Supervisor.ExitReport}
    (hexit : s.right.wire.reverse[k]? = some (.exit r)) (hr : r.outputTruncated = false)
    (pipe : Pipe) : .pump pipe (.write false) ∉ shimLabels labels := by
  have hinv := Run.history (I := fun labels s =>
    Runs K cfg H (.begin c (Native.Supervisor.begin began gated stderr tracker)) labels s ∧
      ∀ k r, k < s.toLeft → s.right.wire.reverse[k]? = some (.exit r) →
        r.outputTruncated = false → ∀ pipe, .pump pipe (.write false) ∉ shimLabels labels) ?_ h
    ⟨.nil _, fun k r hk => absurd hk (Nat.not_lt_zero k)⟩
  · exact hinv.2 k r hk hexit hr pipe
  · rintro labels s l t ⟨hrun, hi⟩ hs
    refine ⟨hrun.snoc hs, fun k r hk hexit hr pipe => ?_⟩
    obtain ⟨hlink, hallowed⟩ := step_link hs
    cases l with
    | left l =>
      obtain ⟨-, hright⟩ := step_left hs
      have hsends := Native.Supervisor.run_sends hrun.shim
      have hlabels : shimLabels (labels ++ [.left l]) = shimLabels labels := by
        rw [shimLabels, Link.filterMap_snoc]
        exact List.append_nil _
      rw [hlabels]
      exact hsends.unwritten hallowed pipe
    | right l =>
      obtain ⟨n, hn, hstep⟩ := Option.bind_eq_some_iff.mp hlink
      obtain ⟨d, hd, rfl⟩ := Option.map_eq_some_iff.mp hstep
      have htaken : k < s.toLeft := hk
      have hgrows : s.right.wire.reverse <+: d.wire.reverse :=
        List.reverse_prefix.mpr (Native.Supervisor.wire_step hd)
      have hle : k < s.right.wire.reverse.length :=
        Nat.lt_of_lt_of_le htaken hrun.linked.toLeft.le
      have hold : s.right.wire.reverse[k]? = some (.exit r) := by
        obtain ⟨more, hmore⟩ := hgrows
        have hnew : d.wire.reverse[k]? = some (.exit r) := hexit
        rwa [← hmore, List.getElem?_append_left hle] at hnew
      have hmem : Frame.exit r ∈ s.right.wire :=
        List.mem_reverse.mp (List.mem_of_getElem? hold)
      rw [shimLabels, Link.filterMap_snoc]
      intro hin
      rcases List.mem_append.mp hin with hin | hin
      · exact hi k r htaken hold hr pipe hin
      · obtain rfl := List.mem_singleton.mp hin
        exact (Native.Supervisor.run_sends hrun.shim).resting hr hmem hd

lemma forall₂_getElem {α β : Type} {R : α → β → Prop} {xs : List α} {ys : List β} {k : ℕ} {y : β}
    (h : List.Forall₂ R xs ys) (hy : ys[k]? = some y) : ∃ x, xs[k]? = some x ∧ R x y := by
  induction h generalizing k with
  | nil => cases hy
  | cons hxy _ ih =>
    cases k with
    | zero =>
      obtain rfl := Option.some.inj hy
      exact ⟨_, rfl, hxy⟩
    | succ k => exact ih hy

lemma Runs.exited {before after : List (Tag × Bytes)} {payload : Bytes}
    (h : Runs K cfg H (.begin c n) labels s) (hspelled : Spelled write K labels s)
    (hexit : (clientLabels labels).filterMap K.port.takes = before ++ (.exit, payload) :: after) :
    ∃ k r, k < s.toLeft ∧ s.right.wire.reverse[k]? = some (.exit r) ∧
      payload = write r ∧
      before.filterMap chunk? = (s.right.wire.reverse.take k).filterMap Frame.output? := by
  have hnext : ((clientLabels labels).filterMap K.port.takes)[before.length]? =
      some (.exit, payload) := by
    rw [hexit, List.getElem?_append_right (Nat.le_refl _), Nat.sub_self, List.getElem?_cons_zero]
  obtain ⟨f, hf, hcarries⟩ := forall₂_getElem h.linked.toLeft.fits hnext
  obtain ⟨g, hg, htext⟩ := forall₂_getElem hspelled hnext
  obtain rfl : f = g := Option.some.inj (hf.symm.trans hg)
  rw [List.getElem?_take] at hg
  split at hg
  · next hlt =>
    cases f with
    | tracked id => cases hcarries
    | output pipe bytes =>
      have htag := congrArg Prod.fst (eq_of_beq hcarries)
      cases pipe <;> cases htag
    | exit r =>
      refine ⟨before.length, r, hlt, hg, htext, ?_⟩
      have htake := List.forall₂_take before.length h.linked.toLeft.fits
      have hfront : ((labels.filterMap Link.Label.left?).filterMap K.port.takes).take
          before.length = before := by
        rw [show (labels.filterMap Link.Label.left?).filterMap K.port.takes = _ from hexit,
          List.take_left]
      rw [hfront, List.take_take, Nat.min_eq_left (Nat.le_of_lt hlt)] at htake
      exact carried_chunks htake
  · cases hg

lemma Runs.whole {before after : List (Tag × Bytes)} {payload : Bytes}
    (h : Runs K cfg H (.begin c (Native.Supervisor.begin began gated stderr tracker)) labels s)
    (hspelled : Spelled write K labels s)
    (hexit : (clientLabels labels).filterMap K.port.takes = before ++ (.exit, payload) :: after) :
    ∃ r, .exit r ∈ s.right.wire ∧ payload = write r ∧ (r.outputTruncated = false →
      ∃ chunks, before.filterMap chunk? = chunks.map (Prod.map (route stderr) id) ∧
        Whole stderr labels s chunks) := by
  obtain ⟨k, r, hk, hwire, htext, hheard⟩ := h.exited hspelled hexit
  refine ⟨r, List.mem_reverse.mp (List.mem_of_getElem? hwire), htext, fun hr => ?_⟩
  have hsends := Native.Supervisor.run_sends h.shim
  obtain ⟨chunks, hout, holder, horder, hsome, hstopped⟩ := hsends.behind (reverse_split hwire) hr
  have hended : ∀ pipe p, s.right.selected pipe = some p → Ended pipe (shimLabels labels) ∧
      carried pipe chunks = received pipe (shimLabels labels) := by
    intro pipe p hp
    cases hstopped pipe p hp with
    | ended he ha hn hb => exact ⟨⟨_, _, he, ha, hn⟩, hb.symm⟩
    | unwritten he => exact absurd he (h.unwritten hk hwire hr pipe)
    | cancelled he => cases he
  refine ⟨chunks, ?_, hout, horder, hsome, hended, fun pipe p hp => (hended pipe p hp).1.exhausted⟩
  rw [hheard, ← outputs_reverse, holder, hout]

end Session

namespace Run

open Session (chunk? Spelled Whole shimLabels clientLabels)

variable {cfg : Options} {clock : ℕ → Instant} {s t : State} {a b : Acc} {message : Option Message}
  {o : Outcome} {res : Result}

def Effect.output? : Effect → Option (Pipe × Bytes)
  | .received pipe payload _ => some (pipe, payload)
  | _ => none

def outputFrames (log : List Effect) : List (Pipe × Bytes) :=
  log.reverse.filterMap Effect.output?

def gathered (cfg : Options) (tag : Pipe → Pipe) (pipe : Pipe) (chunks : List (Pipe × Bytes)) : Bytes :=
  (chunks.filter fun c => destination cfg (tag c.1) = pipe).flatMap (·.2)

lemma handled_cons (e : Effect) (log : List Effect) :
    outputFrames (e :: log) = outputFrames log ++ e.output?.toList := by
  rw [outputFrames, List.reverse_cons, Link.filterMap_snoc]
  rfl

lemma gathered_append (tag : Pipe → Pipe) (pipe : Pipe) (xs ys : List (Pipe × Bytes)) :
    gathered cfg tag pipe (xs ++ ys) = gathered cfg tag pipe xs ++ gathered cfg tag pipe ys := by
  rw [gathered, List.filter_append, List.flatMap_append]
  rfl

lemma gathered_route (route : Pipe → Pipe) (pipe : Pipe) (chunks : List (Pipe × Bytes)) :
    gathered cfg id pipe (chunks.map (Prod.map route id)) = gathered cfg route pipe chunks := by
  rw [gathered, List.filter_map, List.flatMap_map]
  rfl

lemma gathered_apart {tag : Pipe → Pipe} (htag : ∀ q, destination cfg (tag q) = q) (pipe : Pipe)
    (chunks : List (Pipe × Bytes)) : gathered cfg tag pipe chunks = carried pipe chunks := by
  rw [gathered, carried]
  congr 2
  funext c
  rw [htag]

lemma channel_received (pipe : Pipe) (log : List Effect) :
    channel cfg pipe (received log) = gathered cfg id pipe (outputFrames log) := by
  induction log with
  | nil => rfl
  | cons e log ih =>
    rw [handled_cons, gathered_append, ← ih]
    cases e with
    | received q payload full =>
      rw [received, channel_append, channel_ofFrame, Effect.output?, Option.toList_some]
      congr 1
      by_cases h : destination cfg q = pipe <;> simp [gathered, h]
    | _ => exact (List.append_nil _).symm

lemma finishTracking_handled (a : Acc) (t : Tracking) (event : Option TrackingEvent) :
    outputFrames ({ a with tracking := t }.tell cfg event).log = outputFrames a.log := by
  rcases @tell_cases cfg { a with tracking := t } event with heq | ⟨e, heq⟩
  · rw [heq]
  · rw [heq, Acc.add, handled_cons]
    exact List.append_nil _

lemma cancel_handled (a : Acc) (reason : Reason) :
    outputFrames (cancel cfg clock a reason).log = outputFrames a.log := by
  simp [cancel, Acc.now, Acc.add, handled_cons, Effect.output?]

lemma checkDeadlines_handled (a : Acc) :
    outputFrames (checkDeadlines cfg clock a).log = outputFrames a.log := by
  rcases checkDeadlines_cases cfg clock a with ⟨n, -, heq⟩ | ⟨n, reason, -, -, -, heq⟩
  · rw [heq]
  · rw [heq, cancel_handled]

lemma output_handled (a : Acc) (pipe : Pipe) (payload : Bytes) (queue : Option ℕ) :
    outputFrames (output cfg clock a pipe payload queue).log = outputFrames a.log ++ [(pipe, payload)] := by
  cases hr : a.reason with
  | some reason =>
    have hout : output cfg clock a pipe payload queue =
        { a.add (.received pipe payload (queueFull cfg queue)) with truncated := true } := by
      simp [output, Acc.add, hr]
    rw [hout]
    exact handled_cons _ _
  | none =>
    obtain ⟨b, hs, heq⟩ := @output_open cfg clock _ pipe payload queue hr
    have hb : outputFrames b.log = outputFrames a.log ++ [(pipe, payload)] := by
      rw [hs.log]
      split
      · rw [List.singleton_append, handled_cons, handled_cons]
        exact List.append_nil _
      · exact handled_cons _ _
    rw [heq]
    split
    · rw [cancel_handled]
      exact hb
    · split
      · rw [cancel_handled]
        exact hb
      · split
        · rw [grant, Acc.add, handled_cons, hb]
          exact List.append_nil _
        · exact hb

lemma spawnError_handled (a : Acc) (payload : Bytes) :
    outputFrames (spawnError cfg a payload).2.log = outputFrames a.log := by
  rw [spawnError]
  dsimp only
  split <;> exact finishTracking_handled a _ _

lemma finish_handled (a : Acc) (payload : Bytes) :
    outputFrames (finish cfg a payload).2.log = outputFrames a.log := by
  rw [finish.eq_def]
  split
  · rw [finishReport]
    split <;> exact finishTracking_handled a _ _
  · exact finishTracking_handled a _ _

lemma receive_handled (a : Acc) (message : Option Message) :
    outputFrames (receive cfg clock a message).acc.log =
      outputFrames a.log ++ ((data? message).bind chunk?).toList := by
  have hsame : outputFrames a.log = outputFrames a.log ++ [] := (List.append_nil _).symm
  cases message with
  | none => exact hsame
  | some m =>
    cases m with
    | exitStatus status => exact (finishTracking_handled a _ _).trans hsame
    | data tag payload queue =>
      cases tag with
      | stdout => exact output_handled a .stdout payload queue
      | stderr => exact output_handled a .stderr payload queue
      | spawned =>
        obtain ⟨identity, heq⟩ := spawned_frame cfg a payload
        have h : receive cfg clock a (some (.data .spawned payload queue)) =
            .collecting { a with identity := identity } := congrArg State.collecting heq
        rw [h]
        exact hsame
      | tracked => exact (finishTracking_handled a _ _).trans hsame
      | exit => exact (finish_handled a payload).trans hsame
      | error => exact (spawnError_handled a payload).trans hsame
      | other => exact hsame

lemma next_handled (h : next cfg clock s message = some t) :
    outputFrames t.acc.log = outputFrames s.acc.log ++ ((data? message).bind chunk?).toList := by
  cases s with
  | returned o a => cases h
  | collecting a =>
    rw [next.eq_def] at h
    dsimp only at h
    rw [collect] at h
    dsimp only at h
    split at h
    · next o b hc =>
      split at hc
      · cases hc
        obtain rfl := Option.some.inj h
        exact (finishTracking_handled _ _ _).trans
          ((checkDeadlines_handled a).trans (List.append_nil _).symm)
      · cases hc
    · cases h
    · next b remaining hc =>
      split at hc
      · cases hc
      · cases hc
        obtain rfl := Option.some.inj h
        rw [receive_handled]
        exact congrArg (· ++ _) (checkDeadlines_handled a)

variable {messages : List (Option Message)}

lemma run_handled (h : Run (fun s m t => next cfg clock s m = some t) s messages t) :
    outputFrames t.acc.log = outputFrames s.acc.log ++ (messages.filterMap data?).filterMap chunk? := by
  induction h with
  | nil => exact (List.append_nil _).symm
  | @cons s u t m messages hs _ ih =>
    have hsplit : ((m :: messages).filterMap data?).filterMap chunk? =
        ((data? m).bind chunk?).toList ++ (messages.filterMap data?).filterMap chunk? := by
      rw [List.filterMap_filterMap, List.filterMap_filterMap, List.filterMap_cons]
      cases (data? m).bind chunk? <;> simp
    rw [ih, next_handled hs, List.append_assoc, hsplit]

lemma run_last (h : Run (fun s m t => next cfg clock s m = some t) s messages t)
    (hs : s = .collecting a) (ht : t = .returned o b) :
    ∃ before message u, messages = before ++ [message] ∧
      Run (fun s m t => next cfg clock s m = some t) s before u ∧
      next cfg clock u message = some t := by
  induction h generalizing a with
  | nil s => cases hs.symm.trans ht
  | @cons s u t m messages hst hrun ih =>
    cases u with
    | collecting c =>
      obtain ⟨before, message, v, rfl, hbefore, hlast⟩ := ih rfl ht
      exact ⟨m :: before, message, v, rfl, .cons hst hbefore, hlast⟩
    | returned o' c =>
      cases hrun with
      | nil => exact ⟨[], m, s, rfl, .nil s, hst⟩
      | cons hnone _ => cases hnone

lemma evidence_open (termination : Termination) :
    (evidence a termination).outputTruncated ≠ some false := by
  simp only [evidence]
  split <;> simp

lemma malformed_open {report : Json} (hres : (malformed cfg a report).1.result = some res) :
    res.evidence.outputTruncated ≠ some false := by
  rw [malformed] at hres
  cases hr : a.reason <;> rw [hr] at hres <;> obtain rfl := Option.some.inj hres <;>
    cases rawStatus report with
    | none => exact evidence_open .malformedExit
    | some status => cases status <;> exact evidence_open .malformedExit

def Result.outcome (r : Result) : Outcome :=
  match r.evidence.reason with
  | some reason => .stopped reason r
  | none => .ok r

lemma finishReport_open {report : Json} (hres : (finishReport cfg a report).1.result = some res)
    (hwhole : res.evidence.outputTruncated = some false) :
    res.evidence = reportEvidence a report ∧ (finishReport cfg a report).1 = res.outcome := by
  rw [finishReport] at hres ⊢
  split at hres
  · next hvalid =>
    rw [if_pos hvalid]
    dsimp only at hres ⊢
    rw [Result.outcome]
    cases hev : (reportEvidence a report).reason <;> rw [hev] at hres <;>
      obtain rfl := Option.some.inj hres
    · exact ⟨rfl, by rw [result, hev]⟩
    · exact ⟨rfl, by rw [result, hev]⟩
  · exact absurd hwhole (malformed_open hres)

lemma shimExited_open {status : ℕ} (hres : (shimExited cfg a status).1.result = some res) :
    res.evidence.outputTruncated ≠ some false := by
  rw [shimExited] at hres
  cases hr : a.reason <;> rw [hr] at hres <;> obtain rfl := Option.some.inj hres <;>
  exact evidence_open (.transport status)

lemma spawnError_open {payload : Bytes} (hres : (spawnError cfg a payload).1.result = some res) :
    res.evidence.outputTruncated ≠ some false := by
  rw [spawnError] at hres
  dsimp only at hres
  split at hres
  · cases hr : a.reason <;> rw [hr] at hres <;> obtain rfl := Option.some.inj hres <;>
    exact evidence_open (.spawn _)
  · cases hres

lemma receive_whole (h : receive cfg clock a message = .returned o b) (hres : o.result = some res)
    (hwhole : res.evidence.outputTruncated = some false) :
    ∃ payload queue fields, message = some (.data .exit payload queue) ∧
      cfg.json payload = some (.object fields) ∧ b.reason = a.reason ∧ o = res.outcome ∧
      res.evidence = reportEvidence a (.object fields) := by
  cases message with
  | none => cases h
  | some m =>
    cases m with
    | exitStatus status =>
      cases h
      exact absurd hwhole (shimExited_open hres)
    | data tag payload queue =>
      cases tag with
      | exit =>
        cases h
        have hquiet := (@finish_quiet cfg a payload).1
        rw [finish.eq_def] at hres
        split at hres
        · next fields hj =>
          obtain ⟨hev, hout⟩ := finishReport_open hres hwhole
          have hfinish : finish cfg a payload = finishReport cfg a (.object fields) := by
            rw [finish, hj]
          exact ⟨payload, queue, fields, rfl, hj, hquiet, (congrArg Prod.fst hfinish).trans hout, hev⟩
        · exact absurd hwhole (malformed_open hres)
      | error =>
        cases h
        exact absurd hwhole (spawnError_open hres)
      | _ => cases h

lemma next_whole (h : next cfg clock s message = some (.returned o b)) (hres : o.result = some res)
    (hwhole : res.evidence.outputTruncated = some false) :
    ∃ payload queue fields a, message = some (.data .exit payload queue) ∧
      cfg.json payload = some (.object fields) ∧ b.reason = a.reason ∧ o = res.outcome ∧
      res.evidence = reportEvidence a (.object fields) := by
  cases s with
  | returned o a => cases h
  | collecting a =>
    rw [next.eq_def] at h
    dsimp only at h
    rw [collect] at h
    dsimp only at h
    split at h
    · next hc =>
      split at hc
      · cases hc
        cases Option.some.inj h
        obtain rfl := Option.some.inj hres
        exact absurd hwhole (evidence_open .backstop)
      · cases hc
    · cases h
    · next c remaining hc =>
      obtain ⟨payload, queue, fields, hm, hj, hreason, hout, hev⟩ :=
        receive_whole (Option.some.inj h) hres hwhole
      exact ⟨payload, queue, fields, c, hm, hj, hreason, hout, hev⟩

def Result.captured (r : Result) : Pipe → Bytes
  | .stdout => r.stdout
  | .stderr => r.stderr

/-- What a result says of the child is what the report said, and its reason is the one the
collector itself stopped for, or else the report's timeout. -/
structure Reports (stopped : Option Reason) (evidence : Evidence) (report : ExitCodec.Report) :
    Prop where
  termination : evidence.termination = .exit
  status : evidence.childStatus = report.status.map .int
  signal : evidence.childSignal = report.signal.map .int
  contained : evidence.contained = some report.contained
  reason : evidence.reason = (stopped <|> if report.timedOut then some .timeout else none)
  whole : report.outputTruncated = false

lemma reports_json {report : ExitCodec.Report}
    (hwhole : (reportEvidence a (ExitCodec.json report)).outputTruncated = some false) :
    Reports a.reason (reportEvidence a (ExitCodec.json report)) report := by
  obtain ⟨htimed, -, hcontained, houtput⟩ := ExitCodec.get_flags report
  refine ⟨rfl, ExitCodec.get_status report, ExitCodec.get_signal report, ?_, ?_, ?_⟩
  · rw [reportEvidence, hcontained]
    rfl
  · have hrep : (ExitCodec.json report).isTrue "timed_out" = report.timedOut :=
      ExitCodec.isTrue_bool htimed
    rw [reportEvidence, hrep]
  · simp only [reportEvidence, truncation, flag, houtput, Shim.contained] at hwhole
    split at hwhole
    · cases hwhole
    · exact Option.some.inj hwhole

lemma taken_chunks (messages : List (Option Message)) :
    (messages.filterMap (client cfg clock).port.takes).filterMap chunk? =
      (messages.filterMap data?).filterMap chunk? := by
  rw [List.filterMap_filterMap, List.filterMap_filterMap]
  exact List.filterMap_congr fun m _ => Session.chunk_supervised (data? m)

variable {σ : Type}

/-- A result that is not reported as truncated: the report it is made of, and the chunks of the
wire in its order, which are the bytes read from the child's pipes up to their end, each under the
name it was asked for. -/
theorem run_whole (cfg : Options) (clock : ℕ → Instant) (timeoutMs : ℕ) (deadline : Option Instant)
    (reads : ℕ) (shimCfg : Native.Supervisor.Config) (H : Native.Host σ) (began : Native.Instant)
    (gated : Bool) (stderr : Option (Pipe × Bool)) (tracker : Option (Native.Tracker σ))
    (labels : List (Session.Label (Option Message))) (s : Session.State State σ)
    (write : ExitCodec.Report → Bytes) (hwrite : ExitCodec.Writes write)
    (hjson : cfg.json = decodeJson)
    (h : Session.Runs (client cfg clock) shimCfg H
      (.begin (.collecting (execute cfg clock timeoutMs deadline reads))
        (Native.Supervisor.begin began gated stderr tracker)) labels s)
    (hspelled : Spelled write (client cfg clock) labels s) (o : Outcome) (a : Acc) (r : Result)
    (hreturned : s.left = .returned o a) (hresult : o.result = some r)
    (hwhole : r.evidence.outputTruncated = some false) :
    ∃ report chunks, .exit report ∈ s.right.wire ∧
      Reports (cancellation a.log) r.evidence report ∧ o = r.outcome ∧
      Whole stderr labels s chunks ∧
      (∀ pipe, r.captured pipe = gathered cfg (route stderr) pipe chunks) ∧
      ((∀ q, destination cfg (route stderr q) = q) → ∀ pipe p, s.right.selected pipe = some p →
        r.captured pipe = Native.Supervisor.received pipe (shimLabels labels)) := by
  obtain ⟨before, message, u, hmessages, hbefore, hlast⟩ := run_last h.client rfl hreturned
  rw [hreturned] at hlast
  obtain ⟨payload, queue, fields, b, rfl, hfields, hstopped, hout, hev⟩ :=
    next_whole hlast hresult hwhole
  -- what was taken from the port
  have htaken : (clientLabels labels).filterMap (client cfg clock).port.takes =
      before.filterMap (client cfg clock).port.takes ++ (.exit, payload) :: [] := by
    rw [hmessages, List.filterMap_append]
    rfl
  obtain ⟨report, hmem, hpayload, hcomplete⟩ := h.whole hspelled htaken
  have hreport : .object fields = ExitCodec.json report := by
    rw [hjson, hpayload, hwrite] at hfields
    exact (Option.some.inj hfields).symm
  rw [hreport] at hev
  -- what of it was kept
  have hsound : Sound cfg (.returned o a) := by
    rw [← hreturned]
    refine h.client.invariant (I := Sound cfg) (fun s m t hs hn => ?_)
      (execute_sound timeoutMs deadline reads)
    obtain ⟨c, -, rfl⟩ := next_step hn
    exact step_sound hs
  obtain ⟨hcollects, hends⟩ := hsound
  have hreports : Reports (cancellation a.log) r.evidence report := by
    rw [hev] at hwhole ⊢
    rw [← hcollects.reason, hstopped]
    exact reports_json hwhole
  obtain ⟨chunks, hchunks, hall⟩ := hcomplete hreports.whole
  have hhandled : outputFrames a.log = chunks.map (Prod.map (route stderr) id) := by
    have hlog := run_handled h.client
    have hopen : outputFrames (execute cfg clock timeoutMs deadline reads).log = [] := by
      rw [execute]
      dsimp only
      split <;> rfl
    rw [hreturned, hmessages, List.filterMap_append, List.filterMap_append] at hlog
    rw [← hchunks, taken_chunks]
    exact hlog.trans (by rw [State.acc, hopen, List.nil_append]; exact List.append_nil _)
  have hcaptured : ∀ pipe, r.captured pipe = gathered cfg (route stderr) pipe chunks := by
    intro pipe
    have hkept := hcollects.captured pipe
    rw [← hcollects.whole (hends.whole r hresult hwhole), channel_received, hhandled,
      gathered_route] at hkept
    obtain ⟨hout, herr⟩ := hends.output r hresult
    cases pipe with
    | stdout => exact hout.trans hkept
    | stderr => exact herr.trans hkept
  refine ⟨report, chunks, hmem, hreports, hout, hall, hcaptured, fun htag pipe p hp => ?_⟩
  rw [hcaptured, gathered_apart htag, (hall.ended pipe p hp).2]

def readingRun : Options := { plainRun with json := decodeJson, trackDescendants := false }

def shortRun : List Native.Supervisor.Label :=
  [.pump .stdout .permit, .pump .stdout (.read (.data [104, 105])), .pump .stdout (.write true),
    .childExits (some ⟨some 0, none⟩), .receive ⟨[], [false, true], []⟩,
    .finish ⟨0, [], [false, true]⟩, .pump .stdout .permit, .pump .stdout (.read .eof),
    .pump .stdout .done, .pump .stderr .permit, .pump .stderr (.read .eof), .pump .stderr .done,
    .drain, .drain, .drain, .report true]

def shortReport : ExitCodec.Report := ⟨some 0, none, false, true, true, false, none, none⟩

def State.whole : State → Bool
  | .returned o _ => o.result.any fun r => decide (r.evidence.outputTruncated = some false)
  | .collecting _ => false

def shortStart : Session.State State ℕ :=
  .begin (.collecting (execute readingRun (fun _ => 0) 1000 none 0))
    (Native.Supervisor.begin 0 false (some (.stderr, false)) none)

theorem run_whole_short : ∃ s o a r,
    exec (Session.step (client readingRun fun _ => 0) Native.Supervisor.quietConfig
      (Native.Supervisor.quietMachine 1000)) shortStart (shortRun.map .right ++
        [.left (some (.data .stdout [104, 105] none)),
          .left (some (.data .exit (ExitCodec.compact shortReport) none))]) = some s ∧
      s.left = .returned o a ∧ o.result = some r ∧
      r.captured .stdout = Native.Supervisor.received .stdout shortRun := by
  have hk : (exec (Session.step (client readingRun fun _ => 0) Native.Supervisor.quietConfig
      (Native.Supervisor.quietMachine 1000)) shortStart (shortRun.map .right ++
        [.left (some (.data .stdout [104, 105] none)),
          .left (some (.data .exit (ExitCodec.compact shortReport) none))])).any (fun s =>
      s.left.whole && decide (s.toLeft = 2 ∧
        s.right.wire = [.exit shortReport, .output .stdout [104, 105]])) = true := by
    decide +kernel
  obtain ⟨s, hs, hp⟩ := Option.any_eq_true .. |>.mp hk
  obtain ⟨hleft, hright⟩ := Bool.and_eq_true_iff.mp hp
  obtain ⟨htaken, hwire⟩ := of_decide_eq_true hright
  cases hstate : s.left with
  | collecting a =>
    rw [hstate] at hleft
    cases hleft
  | returned o a =>
    rw [hstate] at hleft
    obtain ⟨r, hr, hwhole⟩ := (Option.any_eq_true ..).mp hleft
    have hspelled : Spelled ExitCodec.compact (client readingRun fun _ => 0) (shortRun.map .right ++
        [.left (some (.data .stdout [104, 105] none)),
          .left (some (.data .exit (ExitCodec.compact shortReport) none))]) s := by
      rw [Spelled, htaken, hwire]
      exact .cons trivial (.cons rfl .nil)
    obtain ⟨report, chunks, -, -, -, -, -, hapart⟩ := run_whole readingRun (fun _ => 0) 1000 none 0
      Native.Supervisor.quietConfig (Native.Supervisor.quietMachine 1000) 0 false
      (some (.stderr, false)) none _ s ExitCodec.compact ExitCodec.compact_writes rfl (exec_run hs) hspelled o a r hstate hr
      (of_decide_eq_true hwhole)
    refine ⟨s, o, a, r, hs, hstate, hr, ?_⟩
    exact hapart (fun q => by cases q <;> rfl) .stdout s.right.stdout rfl

end Run

end Beam

end Forcola
