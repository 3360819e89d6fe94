import Forcola.Beam.DuplexErasure
import Forcola.Beam.ExitCodec
import Forcola.Library.Publication

/-! What every client keeps, tells and publishes of the groups it was sent. -/

namespace Forcola.Beam

open Library
open Native (Bytes ProcessIdentity)

namespace Duplex

def storeTracked (count : ℕ) (identity : ProcessIdentity) :
    List (Publication.Write ProcessIdentity) :=
  [.entry count identity, .count count]

/-- What `record_tracked/2` writes into the session's table, payload by payload. -/
def groupWrites (t : Tracking) : List (Option Json) → List (Publication.Write ProcessIdentity)
  | [] => []
  | p :: ps =>
    (match t.record p with
      | (recorded, some identity) => storeTracked recorded.seen.card identity
      | (_, none) => []) ++ groupWrites (t.record p).1 ps

/-- `stored_groups/1`, with the count read after `moment` writes and the entries later. -/
def poll (payloads : List (Option Json)) (moment : ℕ) (later : ℕ → ℕ) :
    Option (List ProcessIdentity) :=
  Publication.read (Publication.after (groupWrites (.new true) payloads) .empty) moment later

lemma groupWrites_publish {payloads : List (Option Json)} {t : Tracking} (h : Noted payloads t)
    (more : List (Option Json)) : groupWrites t more =
      Publication.publish (leaders payloads).length
        ((leaders (payloads ++ more)).drop (leaders payloads).length) := by
  induction more generalizing payloads t with
  | nil =>
    rw [List.append_nil, List.drop_length]
    rfl
  | cons p more ih =>
    have hrest := ih (h.record p)
    have hassoc : payloads ++ [p] ++ more = payloads ++ p :: more := by simp
    have hcard := (h.record p).card
    have hleaders := h.leaders_record p
    rw [hassoc] at hrest
    obtain ⟨tail, htail⟩ := leaders_prefix (payloads ++ [p]) more
    rw [hassoc] at htail
    rw [groupWrites, hrest, ← htail, List.drop_left]
    cases hrecord : t.record p with
    | mk recorded event =>
      rw [hrecord] at hcard hleaders
      cases event with
      | none =>
        rw [hleaders, Option.toList_none, List.append_nil, List.drop_left]
        rfl
      | some identity =>
        have hlen : (leaders payloads ++ [identity]).length = (leaders payloads).length + 1 := by simp
        rw [hleaders, Option.toList_some] at hcard ⊢
        rw [hlen] at hcard ⊢
        have hstore : storeTracked recorded.seen.card identity =
            storeTracked ((leaders payloads).length + 1) identity := congrArg (storeTracked · _) hcard
        rw [List.append_assoc, List.drop_left, List.singleton_append, Publication.publish]
        exact congrArg (· ++ _) hstore

lemma poll_prefix (payloads : List (Option Json)) {moment : ℕ} {later : ℕ → ℕ}
    (h : ∀ i, moment ≤ later i) :
    poll payloads moment later = some ((leaders payloads).take (moment / 2)) := by
  have hwrites := groupWrites_publish (Open.new true).recorded payloads
  rw [leaders_nil, List.nil_append, List.length_nil, List.drop_zero] at hwrites
  have hnew : (⟨Tracking.new true, []⟩ : Diary).tracking = Tracking.new true := rfl
  rw [hnew] at hwrites
  rw [poll, hwrites]
  exact Publication.read_prefix h

end Duplex

namespace Daemon

variable {cfg : Options} {clock : ℕ → Instant} {s t : State} {labels more : List Label}

lemma Chronicled.recorded (h : Chronicled cfg labels s) : Noted (heard cfg labels) s.tracking := by
  by_cases hpast : s.past
  · exact (h.past hpast).recorded
  · exact (h.going hpast).1.recorded

lemma run_truncated (hs : Chronicled cfg labels s)
    (h : Transition.Run (fun s l t => step cfg clock s l = some t) s more t)
    (ht : s.tracking.truncated = true) : t.tracking.truncated = true := by
  have hk := h.history_from (I := Chronicled cfg) (fun _ _ _ _ hs hst => step_chronicled hs hst) hs
  have hrecorded := hk.recorded
  by_cases hpast : s.past
  · cases h with
    | nil => exact ht
    | cons hst _ => cases (step_stopped hpast _).symm.trans hst
  · have hheard : heard cfg (labels ++ more) = heard cfg labels ++ heard cfg more :=
      List.filterMap_append
    rw [hheard] at hrecorded
    exact (hs.going hpast).1.truncated hrecorded ht

end Daemon

namespace Stream

variable {cfg : Options} {clock : ℕ → Instant} {s t : State} {labels more : List Label}

lemma Chronicled.recorded (h : Chronicled cfg labels s) : Noted (heard cfg labels) s.tracking := by
  by_cases hpast : s.past
  · exact (h.past hpast).recorded
  · exact (h.going hpast).1.recorded

lemma run_past (hs : Chronicled cfg labels s) (hpast : s.past)
    (h : Transition.Run (fun s l t => step cfg clock s l = some t) s more t) :
    t.tracking = s.tracking := by
  induction h generalizing labels with
  | nil => rfl
  | cons hst _ ih =>
    obtain ⟨hdiary, -, ht, -⟩ := step_over hst hpast (hs.settled hpast)
    exact (ih (step_chronicled hs hst) ht).trans (congrArg Diary.tracking hdiary)

lemma run_truncated (hs : Chronicled cfg labels s)
    (h : Transition.Run (fun s l t => step cfg clock s l = some t) s more t)
    (ht : s.tracking.truncated = true) : t.tracking.truncated = true := by
  have hk := h.history_from (I := Chronicled cfg) (fun _ _ _ _ hs hst => step_chronicled hs hst) hs
  have hrecorded := hk.recorded
  by_cases hpast : s.past
  · rw [run_past hs hpast h]
    exact ht
  · have hheard : heard cfg (labels ++ more) = heard cfg labels ++ heard cfg more :=
      List.filterMap_append
    rw [hheard] at hrecorded
    exact (hs.going hpast).1.truncated hrecorded ht

end Stream

namespace Run

variable {cfg : Options} {clock : ℕ → Instant} {s : State} {messages : List Message}

def State.tracking : State → Tracking
  | .collecting a | .returned _ a => a.tracking

lemma Chronicled.recorded (h : Chronicled cfg messages s) :
    Noted (heard cfg messages) s.tracking := by
  cases s with
  | collecting a => exact h.1.recorded
  | returned o a => exact h.1.recorded

lemma run_returned (o : Outcome) (a : Acc) (more : List (Option Message)) :
    run cfg clock (.returned o a) more = .returned o a := by
  induction more with
  | nil => rfl
  | cons message more ih => exact ih

lemma run_truncated (hs : Chronicled cfg messages s) (more : List (Option Message))
    (ht : s.tracking.truncated = true) : (run cfg clock s more).tracking.truncated = true := by
  cases s with
  | returned o a =>
    rw [run_returned]
    exact ht
  | collecting a =>
    have hrecorded := (@run_chronicled cfg clock messages _ hs more).recorded
    have hheard : ∀ more, heard cfg (messages ++ more) = heard cfg messages ++ heard cfg more :=
      fun _ => List.filterMap_append
    rw [hheard] at hrecorded
    exact hs.1.truncated hrecorded ht

end Run

namespace Duplex

variable {cfg : Options} {s t : State} {labels more : List Label}

lemma step_finished {l : Label} (hs : Chronicled cfg labels s) (hover : s.tracking.finished = true)
    (h : step cfg s l = some t) (ho : Orderly s l) : t.tracking = s.tracking := by
  have hclosed := hs.past hover
  cases step_marks hs.recorded.enabled h with
  | quiet hl k => exact congrArg Diary.tracking k.diary
  | records payload hl k =>
    exact absurd hl (ho (hs.decided hover (step_frame h hl)) payload).1
  | ends truncated k =>
    obtain ⟨scope, confirmation, contained, hdiary⟩ := k.diary
    rw [hclosed.finish] at hdiary
    exact congrArg Diary.tracking hdiary

lemma run_finished (hs : Chronicled cfg labels s) (hover : s.tracking.finished = true)
    (h : Transition.Run (fun s l t => step cfg s l = some t ∧ Orderly s l) s more t) :
    t.tracking = s.tracking := by
  induction h generalizing labels with
  | nil => rfl
  | cons hst _ ih =>
    have htracking := step_finished hs hover hst.1 hst.2
    rw [← htracking]
    apply ih (step_chronicled hs hst.1 hst.2)
    rw [htracking]
    exact hover

lemma run_truncated (hs : Chronicled cfg labels s)
    (h : Transition.Run (fun s l t => step cfg s l = some t ∧ Orderly s l) s more t)
    (ht : s.tracking.truncated = true) : t.tracking.truncated = true := by
  have hk := h.history_from (I := Chronicled cfg)
    (fun _ _ _ _ hs hst => step_chronicled hs hst.1 hst.2) hs
  have hrecorded := hk.recorded
  cases hover : s.tracking.finished with
  | true =>
    rw [run_finished hs hover h]
    exact ht
  | false =>
    have hheard : heard cfg (labels ++ more) = heard cfg labels ++ heard cfg more :=
      List.filterMap_append
    rw [hheard] at hrecorded
    exact (hs.going hover).1.truncated hrecorded ht

end Duplex

lemma mem_leaders {payloads : List (Option Json)} {identity : ProcessIdentity}
    (h : identity ∈ leaders payloads) :
    identity.pid = identity.pgid ∧ ∃ p ∈ payloads, Shim.decodeIdentity p = some identity := by
  have hin := FirstSeen.mem_distinct.mp (List.mem_of_mem_take h)
  obtain ⟨p, hp, hleader⟩ := List.mem_filterMap.mp hin
  rw [leader, Option.filter_eq_some_iff] at hleader
  exact ⟨of_decide_eq_true hleader.2, p, hp, hleader.1⟩

/-- In every mode the history, the observer's mail and what the client reports are the distinct
leaders it was sent, and the confirmation does not depend on them. -/
theorem groups_observed :
    (∀ payloads, (leaders payloads).length ≤ Tracking.limit ∧ (leaders payloads).Nodup ∧
      ∀ identity ∈ leaders payloads, identity.pid = identity.pgid ∧
        ∃ p ∈ payloads, Shim.decodeIdentity p = some identity) ∧
    (∀ (cfg : Run.Options) (clock : ℕ → Instant) (timeoutMs : ℕ) (deadline : Option Instant)
      (reads : ℕ) (messages : List (Option Run.Message)), cfg.trackDescendants = true →
      let start := Run.State.collecting (Run.execute cfg clock timeoutMs deadline reads)
      Run.Chronicled cfg (Run.handled cfg clock start messages)
          (Run.run cfg clock start messages) ∧
        (∀ more, (Run.run cfg clock start messages).tracking.truncated = true →
          (Run.run cfg clock (Run.run cfg clock start messages) more).tracking.truncated = true) ∧
        ∀ messages', List.Forall₂ Run.Message.Twin messages messages' →
          Run.State.Twin (Run.run cfg clock start messages) (Run.run cfg clock start messages')) ∧
    (∀ (cfg : Stream.Options) (clock : ℕ → Instant) (timeoutMs reads : ℕ)
      (labels : List Stream.Label) (s : Stream.State), cfg.trackDescendants = true →
      Transition.Run (fun s l t => Stream.step cfg clock s l = some t)
        (Stream.start cfg clock timeoutMs reads) labels s →
      Stream.Chronicled cfg labels s ∧
        (∀ more t, Transition.Run (fun s l t => Stream.step cfg clock s l = some t) s more t →
          s.tracking.truncated = true → t.tracking.truncated = true) ∧
        ∀ labels' s', List.Forall₂ Stream.Label.Twin labels labels' →
          Transition.Run (fun s l t => Stream.step cfg clock s l = some t)
            (Stream.start cfg clock timeoutMs reads) labels' s' → Stream.Twin s s') ∧
    (∀ (cfg : Daemon.Options) (clock : ℕ → Instant) (labels : List Daemon.Label)
      (s : Daemon.State), cfg.trackDescendants = true →
      Transition.Run (fun s l t => Daemon.step cfg clock s l = some t) (Daemon.start cfg) labels s →
      Daemon.Chronicled cfg labels s ∧
        (∀ more t, Transition.Run (fun s l t => Daemon.step cfg clock s l = some t) s more t →
          s.tracking.truncated = true → t.tracking.truncated = true) ∧
        ∀ labels' s', List.Forall₂ Daemon.Label.Twin labels labels' →
          Transition.Run (fun s l t => Daemon.step cfg clock s l = some t) (Daemon.start cfg)
            labels' s' → Daemon.Twin s s') ∧
    ∀ (cfg : Duplex.Options) (labels : List Duplex.Label) (s : Duplex.State),
      cfg.trackDescendants = true →
      Transition.Run (fun s l t => Duplex.step cfg s l = some t ∧ Duplex.Orderly s l)
        (Duplex.init cfg) labels s →
      Duplex.Chronicled cfg labels s ∧
        (∀ more t, Transition.Run (fun s l t => Duplex.step cfg s l = some t ∧ Duplex.Orderly s l)
          s more t → s.tracking.truncated = true → t.tracking.truncated = true) ∧
        (∀ moment later, (∀ i, moment ≤ later i) →
          Duplex.poll (Duplex.heard cfg labels) moment later =
            some ((leaders (Duplex.heard cfg labels)).take (moment / 2))) ∧
        ∀ labels' s', labels.map Duplex.Label.erase = labels'.map Duplex.Label.erase →
          Transition.Run (fun s l t => Duplex.step cfg s l = some t) (Duplex.init cfg) labels' s' →
            s.erase = s'.erase := by
  refine ⟨fun payloads => ?_, fun cfg clock timeoutMs deadline reads messages htrack => ?_,
    fun cfg clock timeoutMs reads labels s htrack h => ?_,
    fun cfg clock labels s htrack h => ?_, fun cfg labels s htrack h => ?_⟩
  · obtain ⟨hlength, hnodup⟩ := @leaders_length payloads
    exact ⟨hlength, hnodup, fun _ => mem_leaders⟩
  · have hstart := @Run.execute_chronicled cfg clock htrack timeoutMs deadline reads
    have hrun := @Run.run_chronicled cfg clock [] _ hstart messages
    refine ⟨hrun, fun more => Run.run_truncated hrun more, fun messages' hm => ?_⟩
    exact Run.run_twin hm ⟨rfl, rfl, rfl, rfl, rfl, rfl, rfl, rfl, rfl, rfl, .refl _⟩
  · have hrun := Stream.run_chronicled htrack h
    refine ⟨hrun, fun more t hmore => Stream.run_truncated hrun hmore, fun labels' s' hl h' => ?_⟩
    exact Stream.run_twin h h' hl ⟨rfl, rfl, rfl, rfl, rfl, rfl, rfl, rfl, rfl, rfl, .refl _⟩
  · have hrun := Daemon.run_chronicled htrack h
    refine ⟨hrun, fun more t hmore => Daemon.run_truncated hrun hmore, fun labels' s' hl h' => ?_⟩
    exact Daemon.run_twin h h' hl ⟨rfl, rfl, rfl, rfl, .refl _⟩
  · have hrun := Duplex.run_chronicled htrack h
    refine ⟨hrun, fun more t hmore => Duplex.run_truncated hrun hmore,
      fun moment later => Duplex.poll_prefix _, fun labels' s' hl h' => ?_⟩
    exact Duplex.run_alike (h.mono fun _ _ _ hst => hst.1) h' hl

def leaderId (n : ℕ) : ProcessIdentity := ⟨n, n, .linux "boot" 1⟩

open JsonText in
def leaderPayload (n : ℕ) : Bytes :=
  Native.ProcStat.encode (objectText .lower [("pid".toList, intText n), ("pgid".toList, intText n),
    ("start_time".toList, objectText .lower [("kind".toList, quoted .lower "linux".toList),
      ("boot_id".toList, quoted .lower "boot".toList), ("ticks".toList, intText 1)])])

def groupsExit : Bytes :=
  ExitCodec.compact ⟨some 0, none, false, true, false, false, some .treeSampled, some false⟩

def groupFrames : List (Shim.Tag × Bytes) :=
  [(.tracked, leaderPayload 5), (.tracked, leaderPayload 7), (.tracked, leaderPayload 5),
    (.exit, groupsExit)]

def Tracking.holds (t : Tracking) : Bool :=
  t.finished && decide (t.observed = [leaderId 5, leaderId 7])

def trackedRun : Run.Options := { plainRun with json := decodeJson, trackObserver := true }

def trackedStream : Stream.Options :=
  ⟨decodeJson, 1000, 5000, none, none, none, none, false, false, false, false, true, true⟩

def trackedDaemon : Daemon.Options := ⟨decodeJson, 5000, false, false, false, true, true⟩

def trackedDuplex : Duplex.Options :=
  { Duplex.smallOptions .messages with
    json := decodeJson, trackDescendants := true, observer := true }

def runMessages : List (Option Run.Message) :=
  groupFrames.map fun f => some (.data f.1 f.2 none)

def streamLabels : List Stream.Label :=
  .pull :: groupFrames.map fun f => .message (.data f.1 f.2)

def daemonLabels : List Daemon.Label :=
  .ready :: groupFrames.map fun f => .message (.data f.1 f.2)

def duplexLabels : List Duplex.Label :=
  groupFrames.map fun f => .message (.port (.data f.1 f.2)) []

theorem groups_observed_leaders :
    (∃ messages s, Run.Chronicled trackedRun messages s ∧ s.tracking.holds = true) ∧
      (∃ s, Stream.Chronicled trackedStream streamLabels s ∧ s.tracking.holds = true) ∧
      (∃ s, Daemon.Chronicled trackedDaemon daemonLabels s ∧ s.tracking.holds = true) ∧
      ∃ s, Duplex.Chronicled trackedDuplex duplexLabels s ∧ s.tracking.holds = true := by
  obtain ⟨-, hrun, hstream, hdaemon, hduplex⟩ := groups_observed
  have hcollected : (Run.run trackedRun (fun _ => 0)
      (.collecting (Run.execute trackedRun (fun _ => 0) 1000 none 0))
        runMessages).tracking.holds = true := by
    decide +kernel
  have hstreamed : (Transition.exec (Stream.step trackedStream fun _ => 0)
      (Stream.start trackedStream (fun _ => 0) 1000 0) streamLabels).any
        (·.tracking.holds) = true := by
    decide +kernel
  have hserved : (Transition.exec (Daemon.step trackedDaemon fun _ => 0)
      (Daemon.start trackedDaemon) daemonLabels).any (·.tracking.holds) = true := by
    decide +kernel
  have hlinked : (Transition.exec (Transition.guarded (fun s _ => s.exit.isNone = true)
      (Duplex.step trackedDuplex)) (Duplex.init trackedDuplex) duplexLabels).any
        (·.tracking.holds) = true := by
    decide +kernel
  have horderly : ∀ (s : Duplex.State) (l : Duplex.Label), s.exit.isNone = true →
      Duplex.Orderly s l := by
    intro s l hnone hsome
    rw [Option.isNone_iff_eq_none.mp hnone] at hsome
    cases hsome
  refine ⟨?_, ?_, ?_, ?_⟩
  · have hchronicled : ∀ messages s, Run.run trackedRun (fun _ => 0)
        (.collecting (Run.execute trackedRun (fun _ => 0) 1000 none 0)) messages = s →
          ∃ handled, Run.Chronicled trackedRun handled s := by
      rintro messages _ rfl
      exact ⟨_, (hrun trackedRun (fun _ => 0) 1000 none 0 messages rfl).1⟩
    obtain ⟨s, hs⟩ : ∃ s, Run.run trackedRun (fun _ => 0)
        (.collecting (Run.execute trackedRun (fun _ => 0) 1000 none 0)) runMessages = s := ⟨_, rfl⟩
    obtain ⟨messages, hstate⟩ := hchronicled runMessages s hs
    rw [hs] at hcollected
    exact ⟨messages, s, hstate, hcollected⟩
  · obtain ⟨s, hs, hheld⟩ := (Option.any_eq_true ..).mp hstreamed
    exact ⟨s, (hstream trackedStream (fun _ => 0) 1000 0 streamLabels s rfl
      (Transition.exec_run hs)).1, hheld⟩
  · obtain ⟨s, hs, hheld⟩ := (Option.any_eq_true ..).mp hserved
    exact ⟨s, (hdaemon trackedDaemon (fun _ => 0) daemonLabels s rfl
      (Transition.exec_run hs)).1, hheld⟩
  · obtain ⟨s, hs, hheld⟩ := (Option.any_eq_true ..).mp hlinked
    have hsteps : Transition.Run (fun s l t => Duplex.step trackedDuplex s l = some t ∧
        Duplex.Orderly s l) (Duplex.init trackedDuplex) duplexLabels s :=
      (Transition.exec_guarded hs).mono fun s l t h => ⟨h.1, horderly s l h.2⟩
    exact ⟨s, (hduplex trackedDuplex duplexLabels s rfl hsteps).1, hheld⟩

end Forcola.Beam
