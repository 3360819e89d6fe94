import Forcola.Beam.GroupHistory
import Forcola.Beam.RunDeadlines

/-! The tracked groups of a collected run. -/

namespace Forcola.Beam.Run

open Library
open Native (Bytes Pipe)
open Shim (Scope)

def Effect.told : Effect → Option TrackingEvent
  | .tell event => some event
  | _ => none

instance : Chronicler Acc where
  told a := a.log.reverse.filterMap Effect.told
  tracking_setTracking _ _ := rfl
  told_setTracking _ _ := rfl
  tracking_tell _ _ := rfl
  told_tell _ _ := by simp [Keeper.tell, Acc.add, Effect.told]
  tracking_spawned _ _ := ⟨rfl, rfl⟩
  told_spawned _ _ := ⟨rfl, rfl⟩

def Acc.diary (a : Acc) : Diary :=
  Keeper.diary a

/-- The messages a run receives; an iteration that is past its backstop receives none. -/
def handled (cfg : Options) (clock : ℕ → Instant) : State → List (Option Message) → List Message
  | _, [] => []
  | .returned _ _, _ => []
  | .collecting a, message :: messages =>
    (match collect cfg clock a with
      | .receives _ _ => message.toList
      | .returns _ _ => []) ++ handled cfg clock (step cfg clock (.collecting a) message) messages

def Message.tracked? (cfg : Options) : Message → Option (Option Json)
  | .data .tracked payload _ => some (cfg.json payload)
  | _ => none

def heard (cfg : Options) (messages : List Message) : List (Option Json) :=
  messages.filterMap (Message.tracked? cfg)

def Chronicled (cfg : Options) (messages : List Message) : State → Prop
  | .collecting a => Open cfg.trackObserver (heard cfg messages) a.diary ∧
      ∀ payload queue, .data .exit payload queue ∉ messages
  | .returned o a => Closed cfg.trackObserver (heard cfg messages) a.diary ∧
      (∀ res, o.result = some res → res.trackedGroups = leaders (heard cfg messages) ∧
        res.trackedGroupsTruncated = a.tracking.truncated ∧
        res.evidence.trackedGroupsTruncated = a.tracking.truncated) ∧
      ∀ payload queue fields, .data .exit payload queue ∈ messages →
        cfg.json payload = some (.object fields) → validExit (.object fields) = true →
          Explained (heard cfg messages) (.object fields) a.tracking

variable {cfg : Options} {clock : ℕ → Instant} {a b : Acc} {message : Option Message}
  {messages : List Message} {payload : Bytes}

lemma diary_quiet {effects : List Effect} (htracking : b.tracking = a.tracking)
    (hlog : b.log = effects ++ a.log) (h : ∀ e ∈ effects, e.told = none) :
    b.diary = a.diary := by
  have htold : effects.reverse.filterMap Effect.told = [] := by
    apply List.filterMap_eq_nil_iff.mpr
    exact fun e he => h e (List.mem_reverse.mp he)
  simp [Acc.diary, Keeper.diary, Keeper.tracking, Chronicler.told, htracking, hlog, htold]

lemma tracked_diary (a : Acc) (payload : Bytes) :
    (tracked cfg a payload).diary = a.diary.record cfg.trackObserver (cfg.json payload) :=
  Keeper.recordTracked_diary a _

lemma finishTracking_diary (a : Acc) (scope : Scope) (confirmation : Confirmation)
    (contained : Option Bool) (truncated : Bool) :
    (a.finishTracking cfg scope confirmation contained truncated).diary =
      a.diary.finish cfg.trackObserver scope confirmation contained truncated :=
  Keeper.finishTracking_diary a _ _ _ _

lemma cancel_diary (a : Acc) (reason : Reason) : (cancel cfg clock a reason).diary = a.diary :=
  @diary_quiet _ _ [_, _] rfl rfl (by simp [Effect.told])

lemma output_diary (a : Acc) (pipe : Pipe) (payload : Bytes) (queue : Option ℕ) :
    (output cfg clock a pipe payload queue).diary = a.diary := by
  cases hr : a.reason with
  | some reason =>
    have hout : output cfg clock a pipe payload queue =
        { a.add (.received pipe payload (queueFull cfg queue)) with truncated := true } := by
      simp [output, Acc.add, hr]
    rw [hout]
    exact @diary_quiet _ _ [_] rfl rfl (by simp [Effect.told])
  | none =>
    obtain ⟨b, hs, heq⟩ := @output_open cfg clock _ pipe payload queue hr
    have hb : b.diary = a.diary := by
      apply @diary_quiet _ _ ((if observes cfg a payload && !queueFull cfg queue then
        [.observe (destination cfg pipe) (head cfg a payload)] else []) ++
          [.received pipe payload (queueFull cfg queue)]) hs.tracking
      · rw [hs.log, List.append_assoc]
        rfl
      · intro e he
        split at he <;> simp at he <;> rcases he with rfl | rfl <;> rfl
    have hcut : ({ b with truncated := true } : Acc).diary = b.diary := rfl
    rw [heq]
    split
    · rw [cancel_diary, hcut, hb]
    · split
      · rw [cancel_diary, hcut, hb]
      · split
        · rw [← hb]
          exact @diary_quiet _ _ [_] rfl rfl (by simp [Effect.told])
        · exact hb

lemma checkDeadlines_diary (a : Acc) : (checkDeadlines cfg clock a).diary = a.diary := by
  rcases checkDeadlines_cases cfg clock a with ⟨n, -, heq⟩ | ⟨n, reason, -, -, -, heq⟩
  · rw [heq]
    rfl
  · rw [heq, cancel_diary]
    rfl

lemma waiting_diary (a : Acc) : (waiting cfg clock a).diary = a.diary :=
  checkDeadlines_diary a

lemma spawned_diary (a : Acc) (payload : Bytes) : (spawned cfg a payload).diary = a.diary := by
  obtain ⟨identity, heq⟩ := spawned_frame cfg a payload
  rw [heq]
  rfl

def Yields (a : Acc) (o : Outcome) (truncated : Bool) : Prop :=
  ∀ res, o.result = some res →
    ∃ status ev, res = result a status ev ∧ ev.trackedGroupsTruncated = truncated

lemma yields_stopped {status : Status} {ev : Evidence} {truncated : Bool}
    (h : ev.trackedGroupsTruncated = truncated) (reason : Option Reason) {o : Result → Outcome}
    (ho : ∀ res, (o res).result = some res) :
    Yields a (match reason with
      | some reason => .stopped reason (result a status ev)
      | none => o (result a status ev)) truncated := by
  intro res hres
  cases reason with
  | some reason => exact ⟨status, ev, (Option.some.inj hres).symm, h⟩
  | none =>
    rw [ho] at hres
    exact ⟨status, ev, (Option.some.inj hres).symm, h⟩

lemma returned_chronicled (h : Open cfg.trackObserver (heard cfg messages) a.diary) {o : Outcome}
    {truncated : Bool} (ho : Yields a o (a.tracking.truncated || truncated)) (scope : Scope)
    (confirmation : Confirmation) (contained : Option Bool)
    (hreport : ∀ payload queue fields, .data .exit payload queue ∈ messages →
      cfg.json payload = some (.object fields) → validExit (.object fields) = true →
        truncated = (a.tracking.truncated || a.tracking.groups.isEmpty ||
          (Json.object fields).isTrue "tracked_groups_truncated")) :
    Chronicled cfg messages
      (.returned o (a.finishTracking cfg scope confirmation contained truncated)) := by
  obtain ⟨hclosed, htruncated⟩ := h.finish scope confirmation contained truncated
  have hdiary := @finishTracking_diary cfg a scope confirmation contained truncated
  have htracking := congrArg Diary.tracking hdiary
  rw [Chronicled, hdiary]
  refine ⟨hclosed, fun res hres => ?_, fun payload queue fields hin hjson hvalid => ?_⟩
  · obtain ⟨status, ev, rfl, hev⟩ := ho res hres
    have hflag : ev.trackedGroupsTruncated =
        (a.finishTracking cfg scope confirmation contained truncated).tracking.truncated :=
      hev.trans (htruncated.symm.trans (congrArg Tracking.truncated htracking.symm))
    exact ⟨h.recorded.observed, hflag, hflag⟩
  · have hexplained := h.explained (.object fields) scope confirmation contained
    rw [hreport payload queue fields hin hjson hvalid]
    rw [← finishTracking_diary] at hexplained
    exact hexplained

lemma evidence_truncated (a : Acc) (termination : Termination) :
    (evidence a termination).trackedGroupsTruncated = (a.tracking.truncated || false) :=
  (Bool.or_false _).symm

lemma unreported {truncated : Bool} (h : ∀ payload queue, .data .exit payload queue ∉ messages)
    (payload : Bytes) (queue : Option ℕ) (fields : List (String × Json))
    (hin : .data .exit payload queue ∈ messages) :
    cfg.json payload = some (.object fields) → validExit (.object fields) = true →
      truncated = (a.tracking.truncated || a.tracking.groups.isEmpty ||
        (Json.object fields).isTrue "tracked_groups_truncated") :=
  absurd hin (h payload queue)

lemma failure_chronicled (h : Chronicled cfg messages (.collecting a)) (termination : Termination)
    (reason : Reason) : Chronicled cfg messages (returns (failure cfg a termination reason)) := by
  obtain ⟨hopen, hexit⟩ := h
  apply returned_chronicled hopen _ _ _ _ (unreported hexit)
  intro res hres
  exact ⟨.unconfirmed, _, (Option.some.inj hres).symm, evidence_truncated a termination⟩

lemma shimExited_chronicled (h : Chronicled cfg messages (.collecting a)) (status : ℕ) :
    Chronicled cfg messages (returns (shimExited cfg a status)) := by
  obtain ⟨hopen, hexit⟩ := h
  apply returned_chronicled hopen _ _ _ _ (unreported hexit)
  exact yields_stopped (o := .shimExited) (evidence_truncated a _) a.reason fun _ => rfl

lemma spawnError_chronicled (h : Chronicled cfg messages (.collecting a)) (payload : Bytes) :
    Chronicled cfg messages (returns (spawnError cfg a payload)) := by
  obtain ⟨hopen, hexit⟩ := h
  rw [spawnError]
  dsimp only
  generalize Shim.decodeError (cfg.json payload) cfg.structuredSpawnErrors = reason
  split
  · refine returned_chronicled hopen ?_ _ _ _ (unreported hexit)
    exact yields_stopped (o := .spawnPartial reason) (evidence_truncated a (.spawn reason))
      a.reason fun _ => rfl
  · refine returned_chronicled hopen (fun res hres => ?_) _ _ _ (unreported hexit)
    have hnone : (none : Option Result) = some res := hres
    cases hnone

lemma malformed_result (a : Acc) (report : Json) : ∃ ev : Evidence,
    ev.trackedGroupsTruncated = (a.tracking.enabled &&
      (a.tracking.truncated || report.isTrue "tracked_groups_truncated")) ∧
    malformed cfg a report = (match a.reason with
      | some reason => .stopped reason (result a .unconfirmed ev)
      | none => .invalidExit (result a .unconfirmed ev),
      a.finishTracking cfg .unknown .unconfirmed (Shim.contained (report.get "contained"))
        (a.tracking.enabled &&
          (a.tracking.truncated || report.isTrue "tracked_groups_truncated"))) := by
  refine ⟨_, ?_, rfl⟩
  split <;> rfl

lemma malformed_chronicled (h : Open cfg.trackObserver (heard cfg messages) a.diary) (report : Json)
    (hinvalid : ∀ payload queue fields, .data .exit payload queue ∈ messages →
      cfg.json payload = some (.object fields) → validExit (.object fields) = false) :
    Chronicled cfg messages (returns (malformed cfg a report)) := by
  have henabled : a.tracking.enabled = true := h.recorded.enabled
  obtain ⟨ev, hev, heq⟩ := @malformed_result cfg a report
  rw [heq]
  refine returned_chronicled h ?_ _ _ _ fun payload queue fields hin hjson hvalid => ?_
  · apply yields_stopped (o := .invalidExit) _ a.reason fun _ => rfl
    rw [hev, henabled, Bool.true_and, ← Bool.or_assoc, Bool.or_self]
  · cases (hinvalid payload queue fields hin hjson).symm.trans hvalid

lemma finish_chronicled (h : Chronicled cfg messages (.collecting a)) (payload : Bytes)
    (queue : Option ℕ) :
    Chronicled cfg (messages ++ [.data .exit payload queue]) (returns (finish cfg a payload)) := by
  obtain ⟨hopen, hexit⟩ := h
  have hheard : heard cfg (messages ++ [.data .exit payload queue]) = heard cfg messages := by
    simp [heard, Message.tracked?]
  have honly : ∀ payload' queue', .data .exit payload' queue' ∈
      messages ++ [.data .exit payload queue] → payload' = payload := by
    intro payload' queue' hin
    rcases List.mem_append.mp hin with hin | hin
    · exact absurd hin (hexit payload' queue')
    · cases List.mem_singleton.mp hin
      rfl
  rw [← hheard] at hopen
  rw [finish.eq_def]
  split
  · next fields hjson =>
    rw [finishReport]
    split
    · next hvalid =>
      have henabled : a.tracking.enabled = true := hopen.recorded.enabled
      have hflag : (reportEvidence a (.object fields)).trackedGroupsTruncated =
          (a.tracking.truncated || a.tracking.groups.isEmpty ||
            (Json.object fields).isTrue "tracked_groups_truncated") := by
        rw [reportEvidence, henabled]
        rfl
      refine returned_chronicled hopen ?_ _ _ _ fun payload' queue' fields' hin hjson' _ => ?_
      · apply yields_stopped (o := .ok) _ (reportEvidence a (.object fields)).reason fun _ => rfl
        rw [hflag, ← Bool.or_assoc, ← Bool.or_assoc, Bool.or_self]
      · obtain rfl := honly payload' queue' hin
        cases hjson.symm.trans hjson'
        exact hflag
    · next hinvalid =>
      apply malformed_chronicled hopen
      intro payload' queue' fields' hin hjson'
      obtain rfl := honly payload' queue' hin
      cases hjson.symm.trans hjson'
      simpa using hinvalid
  · next hjson =>
    apply malformed_chronicled hopen
    intro payload' queue' fields' hin hjson'
    obtain rfl := honly payload' queue' hin
    exact absurd hjson' (hjson fields')

lemma Chronicled.aside (h : Chronicled cfg messages (.collecting a)) {m : Message}
    (hexit : ∀ payload queue, m ≠ .data .exit payload queue)
    (htracked : ∀ payload queue, m ≠ .data .tracked payload queue) :
    Chronicled cfg (messages ++ [m]) (.collecting a) := by
  obtain ⟨hopen, hnone⟩ := h
  have hheard : heard cfg (messages ++ [m]) = heard cfg messages := by
    have hquiet : heard cfg [m] = [] := by
      apply List.filterMap_eq_nil_iff.mpr
      intro m' hm'
      obtain rfl := List.mem_singleton.mp hm'
      rw [Message.tracked?.eq_def]
      split
      · next payload queue => exact absurd rfl (htracked payload queue)
      · rfl
    have happend : heard cfg (messages ++ [m]) = heard cfg messages ++ heard cfg [m] :=
      List.filterMap_append
    rw [happend, hquiet, List.append_nil]
  refine ⟨hheard ▸ hopen, fun payload queue hin => ?_⟩
  rcases List.mem_append.mp hin with hin | hin
  · exact hnone payload queue hin
  · exact hexit payload queue (List.mem_singleton.mp hin).symm

lemma Chronicled.diary (h : Chronicled cfg messages (.collecting a)) (hb : b.diary = a.diary) :
    Chronicled cfg messages (.collecting b) :=
  ⟨hb ▸ h.1, h.2⟩

lemma receive_chronicled (h : Chronicled cfg messages (.collecting a)) (message : Option Message) :
    Chronicled cfg (messages ++ message.toList) (receive cfg clock a message) := by
  cases message with
  | none =>
    rw [Option.toList_none, List.append_nil]
    exact h
  | some m =>
    cases m with
    | exitStatus status =>
      exact shimExited_chronicled (h.aside (by simp) (by simp)) status
    | data tag payload queue =>
      cases tag with
      | stdout => exact (h.aside (by simp) (by simp)).diary (output_diary a _ _ _)
      | stderr => exact (h.aside (by simp) (by simp)).diary (output_diary a _ _ _)
      | spawned => exact (h.aside (by simp) (by simp)).diary (spawned_diary a _)
      | other => exact h.aside (by simp) (by simp)
      | error => exact spawnError_chronicled (h.aside (by simp) (by simp)) payload
      | exit => exact finish_chronicled h payload queue
      | tracked =>
        obtain ⟨hopen, hexit⟩ := h
        refine ⟨?_, fun payload' queue' hin => ?_⟩
        · have hheard : heard cfg (messages ++ [.data .tracked payload queue]) =
              heard cfg messages ++ [cfg.json payload] := List.filterMap_append
          rw [tracked_diary]
          rw [Option.toList_some, hheard]
          exact hopen.record (cfg.json payload)
        · rcases List.mem_append.mp hin with hin | hin
          · exact hexit payload' queue' hin
          · cases List.mem_singleton.mp hin

lemma run_chronicled {s : State} (h : Chronicled cfg messages s) (more : List (Option Message)) :
    Chronicled cfg (messages ++ handled cfg clock s more) (run cfg clock s more) := by
  induction more generalizing messages s with
  | nil =>
    rw [handled, List.append_nil]
    exact h
  | cons message more ih =>
    cases s with
    | returned o a =>
      have hrun : run cfg clock (.returned o a) (message :: more) =
          run cfg clock (.returned o a) more := rfl
      have hk := ih h
      have hnone : handled cfg clock (.returned o a) more = [] := by
        cases more <;> rfl
      rw [hnone] at hk
      rw [hrun]
      exact hk
    | collecting a =>
      have hw : Chronicled cfg messages (.collecting (waiting cfg clock a)) :=
        h.diary (waiting_diary a)
      have hrun : run cfg clock (.collecting a) (message :: more) =
          run cfg clock (step cfg clock (.collecting a) message) more := rfl
      rw [handled, hrun, ← List.append_assoc]
      apply ih
      rcases step_cases cfg clock a message with ⟨-, hcollect, heq⟩ | ⟨-, hcollect, heq⟩
      · rw [hcollect, heq, List.append_nil]
        exact failure_chronicled hw _ _
      · rw [hcollect, heq]
        exact receive_chronicled hw message

lemma execute_chronicled (htrack : cfg.trackDescendants = true) (timeoutMs : ℕ)
    (deadline : Option Instant) (reads : ℕ) :
    Chronicled cfg [] (.collecting (execute cfg clock timeoutMs deadline reads)) := by
  have hdiary : (execute cfg clock timeoutMs deadline reads).diary = ⟨Tracking.new true, []⟩ := by
    rw [execute, htrack]
    split <;> rfl
  refine ⟨?_, by simp⟩
  rw [hdiary]
  exact Open.new _

end Forcola.Beam.Run
