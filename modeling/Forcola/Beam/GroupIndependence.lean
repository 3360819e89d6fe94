import Forcola.Beam.DaemonGroups
import Forcola.Beam.RunGroups
import Forcola.Beam.StreamGroups

/-! Two runs that differ in their TRACKED payloads only confirm the same cleanup. -/

namespace Forcola.Beam

open Library
open Native (Bytes Pipe)
open Shim (Scope Tag ExitReport)

def TrackingEvent.confirmation : TrackingEvent → Option Confirmation
  | .tracked _ => none
  | .exit _ confirmation _ _ => some confirmation

/-- Two histories that may hold different groups. -/
structure Diary.Twin (d d' : Diary) : Prop where
  enabled : d'.tracking.enabled = d.tracking.enabled
  finished : d'.tracking.finished = d.tracking.finished
  told : d'.told.filterMap TrackingEvent.confirmation = d.told.filterMap TrackingEvent.confirmation

variable {d d' : Diary} {observer : Bool}

lemma Diary.record_told (d : Diary) (decoded : Option Json) :
    (d.record observer decoded).told.filterMap TrackingEvent.confirmation =
      d.told.filterMap TrackingEvent.confirmation := by
  rw [Diary.record, List.filterMap_append]
  cases observer with
  | false => exact List.append_nil _
  | true => cases (d.tracking.record decoded).2 <;> exact List.append_nil _

namespace Diary.Twin

lemma refl (d : Diary) : d.Twin d :=
  ⟨rfl, rfl, rfl⟩

lemma record (h : d.Twin d') (observer : Bool) (decoded decoded' : Option Json) :
    (d.record observer decoded).Twin (d'.record observer decoded') := by
  obtain ⟨henabled, hfinished⟩ := record_frame d.tracking decoded
  obtain ⟨henabled', hfinished'⟩ := record_frame d'.tracking decoded'
  constructor
  · exact henabled'.trans (h.enabled.trans henabled.symm)
  · exact hfinished'.trans (h.finished.trans hfinished.symm)
  · rw [Diary.record_told, Diary.record_told, h.told]

lemma finish (h : d.Twin d') (observer : Bool) (scope : Scope) (confirmation : Confirmation)
    (contained : Option Bool) (truncated truncated' : Bool) :
    (d.finish observer scope confirmation contained truncated).Twin
      (d'.finish observer scope confirmation contained truncated') := by
  rw [Diary.finish, Diary.finish, Tracking.finish, Tracking.finish, h.enabled, h.finished]
  split
  · refine ⟨h.enabled, h.finished, ?_⟩
    rw [List.filterMap_append, List.filterMap_append, h.told]
  · refine ⟨rfl, rfl, ?_⟩
    rw [List.filterMap_append, List.filterMap_append, h.told]
    cases observer <;> rfl

end Diary.Twin

lemma report_twin {t t' : Tracking} (h : t'.enabled = t.enabled) (decoded : Option Json) :
    t'.report decoded = { t.report decoded with
      trackedGroupsTruncated := (t'.report decoded).trackedGroupsTruncated } := by
  rw [Tracking.report, Tracking.report, h]
  split <;> rfl

namespace Daemon

/-- Labels that are the same but for a TRACKED payload. -/
inductive Label.Twin : Label → Label → Prop
  | same (l : Label) : Label.Twin l l
  | tracked (payload payload' : Bytes) :
      Label.Twin (.message (.data .tracked payload)) (.message (.data .tracked payload'))

structure Twin (s s' : State) : Prop where
  identity : s'.identity = s.identity
  exit : s'.exit = s.exit
  phase : s'.phase = s.phase
  reads : s'.reads = s.reads
  diary : s.diary.Twin s'.diary

variable {cfg : Options} {clock : ℕ → Instant} {s s' t t' : State} {l l' : Label}

namespace Twin

lemma add (h : Twin s s') {e : Effect} (he : e.told = none) : Twin (s.add e) (s'.add e) := by
  refine ⟨h.identity, h.exit, h.phase, h.reads, ?_⟩
  rw [diary_add s he, diary_add s' he]
  exact h.diary

lemma tracking (h : Twin s s') {k k' : Tracking} {event event' : Option TrackingEvent}
    (hd : ({ s with tracking := k }.tell cfg event).diary.Twin
      ({ s' with tracking := k' }.tell cfg event').diary) :
    Twin ({ s with tracking := k }.tell cfg event) ({ s' with tracking := k' }.tell cfg event') := by
  have hframe : ∀ (s : State) (k : Tracking) (event : Option TrackingEvent),
      ({ s with tracking := k }.tell cfg event).identity = s.identity ∧
        ({ s with tracking := k }.tell cfg event).reads = s.reads := by
    intro s k event
    rcases @Keeper.notify_cases _ _ cfg.trackObserver { s with tracking := k } event with
      heq | ⟨e, -, heq⟩
    · rw [State.tell, heq]
      exact ⟨rfl, rfl⟩
    · rw [State.tell, heq]
      exact ⟨rfl, rfl⟩
  obtain ⟨hidentity, hreads⟩ := hframe s k event
  obtain ⟨hidentity', hreads'⟩ := hframe s' k' event'
  obtain ⟨hexit, hphase⟩ := @tell_kept cfg s k event
  obtain ⟨hexit', hphase'⟩ := @tell_kept cfg s' k' event'
  exact ⟨hidentity'.trans (h.identity.trans hidentity.symm), hexit'.trans (h.exit.trans hexit.symm),
    hphase'.trans (h.phase.trans hphase.symm), hreads'.trans (h.reads.trans hreads.symm), hd⟩

lemma finishTracking (h : Twin s s') (scope : Scope) (confirmation : Confirmation)
    (contained : Option Bool) (truncated truncated' : Bool) :
    Twin (s.finishTracking cfg scope confirmation contained truncated)
      (s'.finishTracking cfg scope confirmation contained truncated') := by
  apply h.tracking
  have hd := h.diary.finish cfg.trackObserver scope confirmation contained truncated
    truncated'
  rw [← finishTracking_diary, ← finishTracking_diary] at hd
  exact hd

lemma recordTracked (h : Twin s s') (payload payload' : Bytes) :
    Twin (s.recordTracked cfg payload) (s'.recordTracked cfg payload') := by
  apply h.tracking
  have hd := h.diary.record cfg.trackObserver (cfg.json payload) (cfg.json payload')
  rw [← recordTracked_diary, ← recordTracked_diary] at hd
  exact hd

lemma recordIdentity (h : Twin s s') (payload : Bytes) :
    Twin (s.recordIdentity cfg payload) (s'.recordIdentity cfg payload) :=
  Keeper.recordIdentity_rel _ _ h.identity h
    (fun _ _ _ k => ⟨rfl, k.exit, k.phase, k.reads, k.diary⟩) fun _ _ _ k => k.add rfl

lemma finishCleanup (h : Twin s s') (reason : StopReason) (result result' : Confirmed)
    (hr : result = result' ∨ ∃ report report', result = .exit report ∧ result' = .exit report' ∧
      ∃ truncated, report' = { report with trackedGroupsTruncated := truncated }) :
    Twin (finishCleanup cfg s reason result) (finishCleanup cfg s' reason result') := by
  have hset : ∀ {u u' : State}, Twin u u' →
      Twin { u with phase := .stopped reason } { u' with phase := .stopped reason } :=
    fun k => ⟨k.identity, k.exit, rfl, k.reads, k.diary⟩
  rcases hr with rfl | ⟨report, report', rfl, rfl, truncated, rfl⟩
  · cases result with
    | exit report => exact hset (h.finishTracking _ _ _ _ _)
    | lost confirmation => exact hset (h.finishTracking _ _ _ _ _)
  · exact hset (h.finishTracking _ _ _ _ _)

lemma doAwaitExit (h : Twin s s') (reason : StopReason) (deadline : Instant) :
    Twin (doAwaitExit cfg clock s reason deadline) (doAwaitExit cfg clock s' reason deadline) := by
  have hnow : Twin (s.now clock).2 (s'.now clock).2 :=
    ⟨h.identity, h.exit, h.phase, congrArg (· + 1) h.reads, h.diary⟩
  have htime : (s'.now clock).1 = (s.now clock).1 := congrArg clock h.reads
  rw [Daemon.doAwaitExit, Daemon.doAwaitExit]
  dsimp only
  rw [htime]
  split
  · exact hnow.finishCleanup reason _ _ (.inl rfl)
  · exact ⟨hnow.identity, hnow.exit, rfl, hnow.reads, hnow.diary⟩

lemma shutdown (h : Twin s s') (clock : ℕ → Instant) (reason : StopReason) :
    Twin (shutdown cfg clock s reason) (shutdown cfg clock s' reason) := by
  have hadd := h.add (e := .send .kill) rfl
  have hnow : Twin ((s.add (.send .kill)).now clock).2 ((s'.add (.send .kill)).now clock).2 :=
    ⟨hadd.identity, hadd.exit, hadd.phase, congrArg (· + 1) hadd.reads, hadd.diary⟩
  have htime : ((s'.add (.send .kill)).now clock).1 = ((s.add (.send .kill)).now clock).1 :=
    congrArg clock h.reads
  rw [Daemon.shutdown, Daemon.shutdown, h.exit]
  split
  · dsimp only
    rw [htime]
    exact hnow.doAwaitExit reason _
  · exact h.finishCleanup reason _ _ (.inl rfl)
  · exact h.finishCleanup reason _ _ (.inl rfl)

lemma exiting (h : Twin s s') (exit : Exit) :
    Twin { s with exit := some exit } { s' with exit := some exit } :=
  ⟨h.identity, rfl, h.phase, h.reads, h.diary⟩

lemma report (h : Twin s s') (payload : Bytes) :
    s'.tracking.report (cfg.json payload) = { s.tracking.report (cfg.json payload) with
      trackedGroupsTruncated := (s'.tracking.report (cfg.json payload)).trackedGroupsTruncated } :=
  report_twin h.diary.enabled _

lemma handleExit (h : Twin s s') (payload : Bytes) :
    Twin (handleExit cfg s payload) (handleExit cfg s' payload) := by
  have hreport := @Twin.report cfg _ _ h payload
  rw [Daemon.handleExit, Daemon.handleExit]
  generalize s'.tracking.report (cfg.json payload) = report' at hreport
  generalize report'.trackedGroupsTruncated = truncated at hreport
  rw [hreport]
  exact (h.finishTracking _ _ _ _ _).exiting _

lemma handleFrame (h : Twin s s') (tag : Tag) (payload : Bytes) :
    Twin (handleFrame cfg s tag payload) (handleFrame cfg s' tag payload) := by
  cases tag with
  | stdout => exact h.add rfl
  | stderr => exact h.add rfl
  | spawned => exact h.recordIdentity payload
  | tracked => exact h.recordTracked payload payload
  | exit => exact h.handleExit payload
  | error => exact (h.finishTracking _ _ _ _ _).exiting _
  | other => exact h

lemma proceed (h : Twin s s') (reason : Exit → StopReason) :
    Twin (match s.exit with
        | none => s
        | some exit => Daemon.shutdown cfg clock s (reason exit))
      (match s'.exit with
        | none => s'
        | some exit => Daemon.shutdown cfg clock s' (reason exit)) := by
  rw [h.exit]
  split
  · exact h
  · exact h.shutdown clock _

lemma absorb (h : Twin s s') {m m' : Message} (hm : Label.Twin (.message m) (.message m')) :
    Twin (absorb cfg clock s m) (absorb cfg clock s' m') := by
  cases hm with
  | tracked payload payload' =>
    exact (h.recordTracked payload payload').proceed fun exit => .exitedBeforeReady (stopReason exit)
  | same =>
    cases m with
    | exitStatus status =>
      exact (h.exiting (.shimExited status)).shutdown clock (.exitedBeforeReady (.shimExited status))
    | data tag payload =>
      exact (h.handleFrame tag payload).proceed fun exit => .exitedBeforeReady (stopReason exit)

lemma handleInfo (h : Twin s s') {m m' : Message} (hm : Label.Twin (.message m) (.message m')) :
    Twin (handleInfo cfg clock s m) (handleInfo cfg clock s' m') := by
  cases hm with
  | tracked payload payload' => exact (h.recordTracked payload payload').proceed stopReason
  | same =>
    cases m with
    | exitStatus status =>
      have hlost := @Twin.finishTracking cfg _ _ h .unknown .transportLost none false false
      exact (hlost.exiting (.shimExited status)).shutdown clock (.shimExited status)
    | data tag payload => exact (h.handleFrame tag payload).proceed stopReason

lemma awaitMessage (h : Twin s s') (reason : StopReason) (deadline : Instant) {m m' : Message}
    (hm : Label.Twin (.message m) (.message m')) :
    Twin (awaitMessage cfg clock s reason deadline m)
      (awaitMessage cfg clock s' reason deadline m') := by
  cases hm with
  | tracked payload payload' => exact (h.recordTracked payload payload').doAwaitExit reason deadline
  | same =>
    cases m with
    | exitStatus status =>
      exact h.finishCleanup reason (.lost .transportLost) (.lost .transportLost) (.inl rfl)
    | data tag payload =>
      cases tag with
      | exit =>
        exact h.finishCleanup reason (.exit _) (.exit _) (.inr ⟨_, _, rfl, rfl, _, h.report payload⟩)
      | error => exact h.finishCleanup reason (.lost .notStarted) (.lost .notStarted) (.inl rfl)
      | spawned => exact (h.recordIdentity payload).doAwaitExit reason deadline
      | tracked => exact (h.recordTracked payload payload).doAwaitExit reason deadline
      | stdout => exact h.doAwaitExit reason deadline
      | stderr => exact h.doAwaitExit reason deadline
      | other => exact h.doAwaitExit reason deadline

lemma step_message (h : Twin s s') {m m' : Message} (hm : Label.Twin (.message m) (.message m'))
    (hs : step cfg clock s (.message m) = some t)
    (hs' : step cfg clock s' (.message m') = some t') : Twin t t' := by
  rw [Daemon.step.eq_def] at hs hs'
  rw [h.phase] at hs'
  cases hp : s.phase with
  | starting =>
    rw [hp] at hs hs'
    obtain rfl := Option.some.inj hs
    obtain rfl := Option.some.inj hs'
    exact h.absorb hm
  | running =>
    rw [hp] at hs hs'
    obtain rfl := Option.some.inj hs
    obtain rfl := Option.some.inj hs'
    exact h.handleInfo hm
  | awaiting reason deadline =>
    rw [hp] at hs hs'
    obtain rfl := Option.some.inj hs
    obtain rfl := Option.some.inj hs'
    exact h.awaitMessage reason deadline hm
  | stopped reason =>
    rw [hp] at hs
    cases hs

lemma step (h : Twin s s') (hl : Label.Twin l l') (hs : step cfg clock s l = some t)
    (hs' : step cfg clock s' l' = some t') : Twin t t' := by
  cases hl with
  | tracked payload payload' => exact h.step_message (.tracked payload payload') hs hs'
  | same =>
    cases l with
    | message m => exact h.step_message (.same _) hs hs'
    | ready =>
      rw [Daemon.step.eq_def] at hs hs'
      rw [h.phase] at hs'
      cases hp : s.phase with
      | starting =>
        rw [hp] at hs hs'
        obtain rfl := Option.some.inj hs
        obtain rfl := Option.some.inj hs'
        exact ⟨h.identity, h.exit, rfl, h.reads, h.diary⟩
      | _ =>
        rw [hp] at hs
        cases hs
    | readyTimeout =>
      rw [Daemon.step.eq_def] at hs hs'
      rw [h.phase] at hs'
      cases hp : s.phase with
      | starting =>
        rw [hp] at hs hs'
        obtain rfl := Option.some.inj hs
        obtain rfl := Option.some.inj hs'
        exact h.shutdown clock .readyTimeout
      | _ =>
        rw [hp] at hs
        cases hs
    | stop =>
      rw [Daemon.step.eq_def] at hs hs'
      rw [h.phase] at hs'
      cases hp : s.phase with
      | running =>
        rw [hp] at hs hs'
        obtain rfl := Option.some.inj hs
        obtain rfl := Option.some.inj hs'
        exact h.shutdown clock .shutdown
      | _ =>
        rw [hp] at hs
        cases hs
    | expire =>
      rw [Daemon.step.eq_def] at hs hs'
      rw [h.phase] at hs'
      cases hp : s.phase with
      | awaiting reason deadline =>
        rw [hp] at hs hs'
        obtain rfl := Option.some.inj hs
        obtain rfl := Option.some.inj hs'
        exact h.doAwaitExit reason deadline
      | _ =>
        rw [hp] at hs
        cases hs

end Twin

lemma run_twin {labels labels' : List Label}
    (h : Transition.Run (fun s l t => step cfg clock s l = some t) s labels t)
    (h' : Transition.Run (fun s l t => step cfg clock s l = some t) s' labels' t')
    (hl : List.Forall₂ Label.Twin labels labels') (hs : Twin s s') : Twin t t' :=
  h.related (R := Twin) (Q := Label.Twin) (fun _ _ _ _ _ _ hs hl hst hst' => hs.step hl hst hst') h'
    hl hs

end Daemon

namespace Stream

inductive Label.Twin : Label → Label → Prop
  | same (l : Label) : Label.Twin l l
  | tracked (payload payload' : Bytes) :
      Label.Twin (.message (.data .tracked payload)) (.message (.data .tracked payload'))

def Error.bare (e : Error) : Error :=
  { e with trackedGroups := [], trackedGroupsTruncated := false }

def Exit.bare : Exit → Exit
  | .ok => .ok
  | .error e => .error e.bare

def Phase.bare : Phase → Phase
  | .raised e => .raised e.bare
  | p => p

structure Twin (s s' : State) : Prop where
  identity : s'.identity = s.identity
  buffer : s'.buffer = s.buffer
  stderr : s'.stderr = s.stderr
  stderrBytes : s'.stderrBytes = s.stderrBytes
  deadline : s'.deadline = s.deadline
  idleDeadline : s'.idleDeadline = s.idleDeadline
  exit : s'.exit.map Exit.bare = s.exit.map Exit.bare
  outstanding : s'.outstanding = s.outstanding
  phase : s'.phase.bare = s.phase.bare
  reads : s'.reads = s.reads
  diary : s.diary.Twin s'.diary

variable {cfg : Options} {clock : ℕ → Instant} {s s' t t' : State} {l l' : Label}

namespace Twin

lemma add (h : Twin s s') {e : Effect} (he : e.told = none) : Twin (s.add e) (s'.add e) := by
  have hdiary : (s.add e).diary.Twin (s'.add e).diary := by
    rw [diary_add s he, diary_add s' he]
    exact h.diary
  exact { h with diary := hdiary }

lemma now (h : Twin s s') : (s'.now clock).1 = (s.now clock).1 ∧
    Twin (s.now clock).2 (s'.now clock).2 :=
  ⟨congrArg clock h.reads, { h with reads := congrArg (· + 1) h.reads }⟩

lemma tracking (h : Twin s s') {k k' : Tracking} {event event' : Option TrackingEvent}
    (hd : ({ s with tracking := k }.tell cfg event).diary.Twin
      ({ s' with tracking := k' }.tell cfg event').diary) :
    Twin ({ s with tracking := k }.tell cfg event) ({ s' with tracking := k' }.tell cfg event') := by
  have hframe : ∀ (s : State) (k : Tracking) (event : Option TrackingEvent), ∃ log,
      { s with tracking := k }.tell cfg event = { s with tracking := k, log := log } := by
    intro s k event
    rcases @Keeper.notify_cases _ _ cfg.trackObserver { s with tracking := k } event with
      heq | ⟨e, -, heq⟩
    · exact ⟨s.log, heq⟩
    · exact ⟨_, heq⟩
  obtain ⟨log, heq⟩ := hframe s k event
  obtain ⟨log', heq'⟩ := hframe s' k' event'
  rw [heq, heq'] at hd ⊢
  exact { h with diary := hd }

lemma finishTracking (h : Twin s s') (scope : Scope) (confirmation : Confirmation)
    (contained : Option Bool) (truncated truncated' : Bool) :
    Twin (s.finishTracking cfg scope confirmation contained truncated)
      (s'.finishTracking cfg scope confirmation contained truncated') := by
  apply h.tracking
  have hd := h.diary.finish cfg.trackObserver scope confirmation contained truncated
    truncated'
  rw [← finishTracking_diary, ← finishTracking_diary] at hd
  exact hd

lemma recordTracked (h : Twin s s') (payload payload' : Bytes) :
    Twin (s.recordTracked cfg payload) (s'.recordTracked cfg payload') := by
  apply h.tracking
  have hd := h.diary.record cfg.trackObserver (cfg.json payload) (cfg.json payload')
  rw [← recordTracked_diary, ← recordTracked_diary] at hd
  exact hd

lemma recordIdentity (h : Twin s s') (payload : Bytes) :
    Twin (s.recordIdentity cfg payload) (s'.recordIdentity cfg payload) :=
  Keeper.recordIdentity_rel _ _ h.identity h (fun _ _ _ k => { k with identity := rfl })
    fun _ _ _ k => k.add rfl

lemma resetIdle (h : Twin s s') : Twin (resetIdle cfg clock s) (resetIdle cfg clock s') := by
  rw [Stream.resetIdle, Stream.resetIdle]
  obtain ⟨htime, hnow⟩ := @Twin.now clock _ _ h
  split
  · dsimp only
    rw [htime]
    exact { hnow with idleDeadline := rfl }
  · exact { h with idleDeadline := rfl }

lemma grantCredit (h : Twin s s') : Twin (grantCredit cfg clock s) (grantCredit cfg clock s') := by
  rw [Stream.grantCredit, Stream.grantCredit]
  split
  · exact h
  · next window _ =>
    dsimp only
    rw [h.outstanding]
    split
    · have hadd := h.add (e := .send (.credit .stdout (window - s.outstanding))) rfl
      exact Twin.resetIdle { hadd with outstanding := rfl }
    · exact Twin.resetIdle { h with outstanding := rfl }

lemma accountStdout (h : Twin s s') (bytes : ℕ) :
    Twin (accountStdout cfg s bytes) (accountStdout cfg s' bytes) := by
  rw [Stream.accountStdout, Stream.accountStdout]
  split
  · exact h
  · exact { h with outstanding := congrArg (· - bytes) h.outstanding }

lemma receiveNext (h : Twin s s') : Twin (receiveNext clock s) (receiveNext clock s') := by
  obtain ⟨htime, hnow⟩ := @Twin.now clock _ _ h
  refine { hnow with phase := ?_ }
  rw [Stream.receiveNext, Stream.receiveNext]
  dsimp only
  rw [htime, hnow.deadline, hnow.idleDeadline]

lemma emit (h : Twin s s') (lines : List Bytes) : Twin (emit s lines) (emit s' lines) :=
  { h.add (e := .emitted lines) rfl with phase := rfl }

lemma trackingError (h : Twin s s') : s'.trackingError.bare = s.trackingError.bare := by
  rw [State.trackingError, State.trackingError, h.stderr]
  rfl

lemma cleanupEvidence (h : Twin s s') {result result' : Confirmed}
    (hr : result' = result ∨ ∃ report truncated, result = .exit report ∧
      result' = .exit { report with trackedGroupsTruncated := truncated }) :
    (cleanupEvidence cfg s' result').1.bare = (cleanupEvidence cfg s result).1.bare ∧
      Twin (cleanupEvidence cfg s result).2 (cleanupEvidence cfg s' result').2 := by
  have hexit : ∀ (report : ExitReport) (truncated : Bool),
      (Stream.cleanupEvidence cfg s' (.exit { report with
          trackedGroupsTruncated := truncated })).1.bare =
        (Stream.cleanupEvidence cfg s (.exit report)).1.bare ∧
      Twin (Stream.cleanupEvidence cfg s (.exit report)).2 (Stream.cleanupEvidence cfg s' (.exit
        { report with trackedGroupsTruncated := truncated })).2 := by
    intro report truncated
    have hk := @Twin.finishTracking cfg _ _ h report.scope (Tracking.confirmation report)
      report.contained report.trackedGroupsTruncated truncated
    refine ⟨?_, hk⟩
    exact congrArg (fun stderr : Bytes => ({
      status := some (Tracking.status report)
      stderr := stderr
      scope := report.scope
      confirmation := some (Tracking.confirmation report)
      contained := report.contained } : Error)) hk.stderr
  have hlost : ∀ confirmation : Confirmation,
      (cleanupEvidence.lost cfg s' confirmation).1.bare =
        (cleanupEvidence.lost cfg s confirmation).1.bare ∧
      Twin (cleanupEvidence.lost cfg s confirmation).2
        (cleanupEvidence.lost cfg s' confirmation).2 := by
    intro confirmation
    have hk := @Twin.finishTracking cfg _ _ h .unknown confirmation none false false
    refine ⟨?_, hk⟩
    exact congrArg (fun stderr : Bytes => ({
      status := some .unconfirmed
      stderr := stderr
      confirmation := some confirmation } : Error)) hk.stderr
  rcases hr with rfl | ⟨report, truncated, rfl, rfl⟩
  · cases result' with
    | exit report => exact hexit report report.trackedGroupsTruncated
    | timeout => exact hlost .timeout
    | error => exact hlost .notStarted
    | shimExited => exact hlost .transportLost
  · exact hexit report truncated

lemma exiting (h : Twin s s') (x x' : Exit) (hx : x'.bare = x.bare) :
    Twin { s with exit := some x } { s' with exit := some x' } :=
  { h with exit := congrArg some hx }

lemma drained (h : Twin s s') : Twin { s with buffer := [] } { s' with buffer := [] } :=
  { h with buffer := rfl }

lemma conclude (h : Twin s s') (purpose : Purpose) {result result' : Confirmed}
    (hr : result' = result ∨ ∃ report truncated, result = .exit report ∧
      result' = .exit { report with trackedGroupsTruncated := truncated }) :
    Twin (conclude cfg s purpose result) (conclude cfg s' purpose result') := by
  obtain ⟨herror, hk⟩ := @Twin.cleanupEvidence cfg _ _ h _ _ hr
  cases purpose with
  | idle =>
    exact (hk.exiting (.error { (Stream.cleanupEvidence cfg s result).1 with idleTimedOut := true })
      (.error { (Stream.cleanupEvidence cfg s' result').1 with idleTimedOut := true })
      (congrArg (fun e : Error => Exit.error { e with idleTimedOut := true }) herror)).emit []
  | limit lines limit =>
    exact (hk.drained.exiting
      (.error { (Stream.cleanupEvidence cfg s result).1 with
        limit := some limit, outputTruncated := true })
      (.error { (Stream.cleanupEvidence cfg s' result').1 with
        limit := some limit, outputTruncated := true })
      (congrArg (fun e : Error => Exit.error { e with
        limit := some limit, outputTruncated := true }) herror)).emit lines
  | cleanup => exact { hk with phase := rfl }

lemma doAwaitExit (h : Twin s s') (purpose : Purpose) (deadline : Instant) :
    Twin (doAwaitExit cfg clock s purpose deadline) (doAwaitExit cfg clock s' purpose deadline) := by
  obtain ⟨htime, hnow⟩ := @Twin.now clock _ _ h
  rw [Stream.doAwaitExit, Stream.doAwaitExit]
  dsimp only
  rw [htime]
  split
  · exact hnow.conclude purpose (.inl rfl)
  · exact { hnow with phase := rfl }

lemma killAndConfirm (h : Twin s s') (purpose : Purpose) :
    Twin (killAndConfirm cfg clock s purpose) (killAndConfirm cfg clock s' purpose) := by
  obtain ⟨htime, hnow⟩ := @Twin.now clock _ _ (h.add (e := .send .kill) rfl)
  rw [Stream.killAndConfirm, Stream.killAndConfirm]
  rw [htime]
  exact hnow.doAwaitExit purpose _

lemma report (h : Twin s s') (payload : Bytes) : ∃ truncated,
    s'.tracking.report (cfg.json payload) =
      { s.tracking.report (cfg.json payload) with trackedGroupsTruncated := truncated } :=
  ⟨_, report_twin h.diary.enabled _⟩

lemma awaitMessage (h : Twin s s') (purpose : Purpose) (deadline : Instant) {m m' : Message}
    (hm : Label.Twin (.message m) (.message m')) :
    Twin (awaitMessage cfg clock s purpose deadline m)
      (awaitMessage cfg clock s' purpose deadline m') := by
  cases hm with
  | tracked payload payload' => exact (h.recordTracked payload payload').doAwaitExit purpose deadline
  | same =>
    cases m with
    | exitStatus => exact h.conclude purpose (.inl rfl)
    | data tag payload =>
      cases tag with
      | exit =>
        obtain ⟨truncated, hreport⟩ := @Twin.report cfg _ _ h payload
        exact h.conclude purpose (.inr ⟨_, truncated, rfl, congrArg Confirmed.exit hreport⟩)
      | error => exact h.conclude purpose (.inl rfl)
      | spawned => exact (h.recordIdentity payload).doAwaitExit purpose deadline
      | tracked => exact (h.recordTracked payload payload).doAwaitExit purpose deadline
      | stdout => exact (h.add (e := .discarded .stdout payload) rfl).doAwaitExit purpose deadline
      | stderr => exact (h.add (e := .discarded .stderr payload) rfl).doAwaitExit purpose deadline
      | other => exact h.doAwaitExit purpose deadline

lemma lost (h : Twin s s') (confirmation : Confirmation) {e e' : Error} (he : e'.bare = e.bare) :
    Twin (Stream.emit { s.finishTracking cfg .unknown confirmation none false with
        exit := some (.error e) } [])
      (Stream.emit { s'.finishTracking cfg .unknown confirmation none false with
        exit := some (.error e') } []) := by
  have hk := @Twin.finishTracking cfg _ _ h .unknown confirmation none false false
  exact (hk.exiting (.error e) (.error e') (congrArg Exit.error he)).emit []

lemma timeoutError (h : Twin s s') : Twin (timeoutError cfg clock s) (timeoutError cfg clock s') := by
  have hadd := h.add (e := .timeout) rfl
  have hbackstop : Twin (timeoutError.backstop cfg (s.add .timeout))
      (timeoutError.backstop cfg (s'.add .timeout)) := by
    apply hadd.lost
    have hk := @Twin.finishTracking cfg _ _ hadd .unknown .timeout none false false
    exact congrArg (fun stderr : Bytes => ({
      status := some .unconfirmed
      stderr := stderr
      timedOut := true
      confirmation := some .timeout } : Error)) hk.stderr
  rw [Stream.timeoutError, Stream.timeoutError]
  rw [hadd.idleDeadline, hadd.deadline]
  split
  · split
    · exact hadd.killAndConfirm .idle
    · exact hbackstop
  · exact hbackstop

lemma consumeLines (h : Twin s s') (payload : Bytes) :
    (consumeLines cfg s' payload).1 = (consumeLines cfg s payload).1 ∧
      (consumeLines cfg s' payload).2.1 = (consumeLines cfg s payload).2.1 ∧
      Twin (consumeLines cfg s payload).2.2 (consumeLines cfg s' payload).2.2 := by
  rw [Stream.consumeLines, Stream.consumeLines, h.buffer]
  dsimp only
  split
  · exact ⟨rfl, rfl, { h with buffer := rfl }⟩
  · split
    · exact ⟨rfl, rfl, h⟩
    · split
      · exact ⟨rfl, rfl, h⟩
      · exact ⟨rfl, rfl, { h with buffer := rfl }⟩

lemma deliver {r r' : List Bytes × Option Limit × State} (hlines : r'.1 = r.1)
    (hlimit : r'.2.1 = r.2.1) (h : Twin r.2.2 r'.2.2) :
    Twin (deliver cfg clock r) (deliver cfg clock r') := by
  rw [Stream.deliver, Stream.deliver, hlines, hlimit]
  split
  · exact h.killAndConfirm _
  · exact h.emit _

lemma consumed {r r' : List Bytes × Option Limit × State} (hlines : r'.1 = r.1)
    (hlimit : r'.2.1 = r.2.1) (h : Twin r.2.2 r'.2.2) (exceeded : Prop) [Decidable exceeded]
    (bound : ℕ) :
    Twin (match r.2.1 with
        | some limit => Stream.killAndConfirm cfg clock r.2.2 (.limit r.1 limit)
        | none =>
          if exceeded then
            Stream.killAndConfirm cfg clock r.2.2 (.limit r.1 (.totalStderr bound))
          else Stream.emit r.2.2 r.1)
      (match r'.2.1 with
        | some limit => Stream.killAndConfirm cfg clock r'.2.2 (.limit r'.1 limit)
        | none =>
          if exceeded then
            Stream.killAndConfirm cfg clock r'.2.2 (.limit r'.1 (.totalStderr bound))
          else Stream.emit r'.2.2 r'.1) := by
  rw [hlines, hlimit]
  split
  · exact h.killAndConfirm _
  · split
    · exact h.killAndConfirm _
    · exact h.emit _

lemma consumeStderr (h : Twin s s') (payload : Bytes) :
    Twin (consumeStderr cfg clock s payload) (consumeStderr cfg clock s' payload) := by
  rw [Stream.consumeStderr, Stream.consumeStderr, h.stderrBytes]
  split
  · refine Twin.emit ?_ []
    exact { h with stderr := congrArg (· ++ payload) h.stderr, stderrBytes := rfl }
  · next maxStderr _ =>
    have hk : Twin { s with stderrBytes := s.stderrBytes +
          (payload.take (maxStderr - s.stderrBytes)).length }
        { s' with stderrBytes := s.stderrBytes +
          (payload.take (maxStderr - s.stderrBytes)).length } :=
      { h with stderrBytes := rfl }
    cases cfg.mergeStderr with
    | true =>
      obtain ⟨hlines, hlimit, hlast⟩ :=
        @Twin.consumeLines cfg _ _ hk (payload.take (maxStderr - s.stderrBytes))
      exact consumed hlines hlimit hlast _ _
    | false =>
      have hlast : Twin
          { s with
            stderrBytes := s.stderrBytes + (payload.take (maxStderr - s.stderrBytes)).length
            stderr := s.stderr ++ payload.take (maxStderr - s.stderrBytes) }
          { s' with
            stderrBytes := s.stderrBytes + (payload.take (maxStderr - s.stderrBytes)).length
            stderr := s'.stderr ++ payload.take (maxStderr - s.stderrBytes) } :=
        { hk with stderr := congrArg (· ++ payload.take (maxStderr - s.stderrBytes)) h.stderr }
      simp only [Bool.false_eq_true, if_false]
      split
      · exact hlast.killAndConfirm _
      · exact hlast.emit _

lemma handleExit (h : Twin s s') (payload : Bytes) :
    Twin (handleExit cfg s payload) (handleExit cfg s' payload) := by
  obtain ⟨truncated, hreport⟩ := @Twin.report cfg _ _ h payload
  rw [Stream.handleExit, Stream.handleExit, hreport]
  generalize s.tracking.report (cfg.json payload) = report
  have hk := @Twin.finishTracking cfg _ _ h report.scope (Tracking.confirmation report)
    report.contained report.trackedGroupsTruncated truncated
  have hconfirmation : Tracking.confirmation { report with trackedGroupsTruncated := truncated } =
      Tracking.confirmation report := rfl
  have hstatus : Tracking.status { report with trackedGroupsTruncated := truncated } =
      Tracking.status report := rfl
  dsimp only
  rw [hconfirmation, hstatus, hk.buffer]
  refine Twin.emit ?_ _
  apply hk.drained.exiting
  split
  · rfl
  · exact congrArg (fun stderr : Bytes => Exit.error {
      status := some (Tracking.status report)
      stderr := stderr
      timedOut := report.timedOut
      outputTruncated := report.outputTruncated
      contained := report.contained
      scope := report.scope
      confirmation := some (Tracking.confirmation report) }) hk.stderr

lemma handleMessage (h : Twin s s') {m m' : Message}
    (hm : Label.Twin (.message m) (.message m')) :
    Twin (handleMessage cfg clock s m) (handleMessage cfg clock s' m') := by
  cases hm with
  | tracked payload payload' => exact (h.recordTracked payload payload').receiveNext
  | same =>
    cases m with
    | exitStatus =>
      have hk := @Twin.finishTracking cfg _ _ h .unknown .transportLost none false false
      apply h.lost
      exact congrArg (fun stderr : Bytes => ({
        status := some .unconfirmed
        stderr := stderr
        confirmation := some .transportLost } : Error)) hk.stderr
    | data tag payload =>
      cases tag with
      | stdout =>
        have hreceived := @Twin.resetIdle cfg clock _ _ (h.add (e := .received .stdout payload) rfl)
        obtain ⟨hlines, hlimit, hk⟩ :=
          @Twin.consumeLines cfg _ _ (hreceived.accountStdout payload.length) payload
        exact Twin.deliver hlines hlimit hk
      | stderr =>
        exact ((h.add (e := .received .stderr payload) rfl).resetIdle).consumeStderr payload
      | spawned => exact (h.recordIdentity payload).emit []
      | tracked => exact (h.recordTracked payload payload).receiveNext
      | exit => exact h.handleExit payload
      | error =>
        have hk := @Twin.finishTracking cfg _ _ h .unknown .notStarted none false false
        apply h.lost
        exact congrArg (fun stderr : Bytes => ({
          reason := some (Shim.decodeError (cfg.json payload) cfg.structuredSpawnErrors)
          stderr := stderr
          confirmation := some .notStarted } : Error)) hk.stderr
      | other => exact h.emit []

lemma next (h : Twin s s') : Twin (next cfg clock s) (next cfg clock s') := by
  have hexit := h.exit
  rw [Stream.next, Stream.next]
  cases hs : s.exit with
  | none =>
    rw [hs] at hexit
    rw [Option.map_eq_none_iff.mp hexit]
    exact h.grantCredit.receiveNext
  | some x =>
    rw [hs] at hexit
    obtain ⟨x', hs', hx⟩ := Option.map_eq_some_iff.mp hexit
    rw [hs']
    cases x with
    | ok =>
      cases x' with
      | ok => exact { h with exit := rfl, phase := rfl }
      | error e' => cases hx
    | error e =>
      cases x' with
      | ok => cases hx
      | error e' =>
        exact { h with exit := congrArg some hx, phase := congrArg Phase.raised (Exit.error.inj hx) }

lemma cleanup (h : Twin s s') : Twin (cleanup cfg clock s) (cleanup cfg clock s') := by
  have hexit := h.exit
  rw [Stream.cleanup, Stream.cleanup]
  cases hs : s.exit with
  | none =>
    rw [hs] at hexit
    rw [Option.map_eq_none_iff.mp hexit]
    exact h.killAndConfirm .cleanup
  | some x =>
    rw [hs] at hexit
    obtain ⟨x', hs', hx⟩ := Option.map_eq_some_iff.mp hexit
    rw [hs']
    exact { h with exit := congrArg some hx, phase := rfl }

lemma phase_eq (h : Twin s s') (hp : ∀ e, s.phase ≠ .raised e) : s'.phase = s.phase := by
  have hbare : ∀ p p' : Phase, (∀ e, p ≠ .raised e) → p'.bare = p.bare → p' = p := by
    intro p p' hp hphase
    cases p with
    | raised e => exact absurd rfl (hp e)
    | _ =>
      cases p' with
      | raised e' => cases hphase
      | _ => exact hphase
  exact hbare _ _ hp h.phase

lemma step (h : Twin s s') (hl : Label.Twin l l') (hs : step cfg clock s l = some t)
    (hs' : step cfg clock s' l' = some t') : Twin t t' := by
  have hphase : s'.phase = s.phase := by
    apply h.phase_eq
    intro e hp
    rw [Stream.step.eq_def, hp] at hs
    cases hs
  rw [Stream.step.eq_def] at hs hs'
  rw [hphase] at hs'
  cases hp : s.phase with
  | ready =>
    rw [hp] at hs hs'
    cases hl with
    | tracked payload payload' => cases hs
    | same =>
      cases l with
      | pull =>
        obtain rfl := Option.some.inj hs
        obtain rfl := Option.some.inj hs'
        exact h.next
      | halt =>
        obtain rfl := Option.some.inj hs
        obtain rfl := Option.some.inj hs'
        exact h.cleanup
      | _ => cases hs
  | receiving wait =>
    rw [hp] at hs hs'
    cases hl with
    | tracked payload payload' =>
      obtain rfl := Option.some.inj hs
      obtain rfl := Option.some.inj hs'
      exact h.handleMessage (.tracked payload payload')
    | same =>
      cases l with
      | message m =>
        obtain rfl := Option.some.inj hs
        obtain rfl := Option.some.inj hs'
        exact h.handleMessage (.same _)
      | expire =>
        dsimp only at hs hs'
        split at hs
        · next hlong =>
          rw [if_pos hlong] at hs'
          obtain rfl := Option.some.inj hs
          obtain rfl := Option.some.inj hs'
          exact h.receiveNext
        · next hshort =>
          rw [if_neg hshort] at hs'
          obtain rfl := Option.some.inj hs
          obtain rfl := Option.some.inj hs'
          exact h.timeoutError
      | _ => cases hs
  | awaiting purpose deadline =>
    rw [hp] at hs hs'
    cases hl with
    | tracked payload payload' =>
      obtain rfl := Option.some.inj hs
      obtain rfl := Option.some.inj hs'
      exact h.awaitMessage purpose deadline (.tracked payload payload')
    | same =>
      cases l with
      | message m =>
        obtain rfl := Option.some.inj hs
        obtain rfl := Option.some.inj hs'
        exact h.awaitMessage purpose deadline (.same _)
      | expire =>
        obtain rfl := Option.some.inj hs
        obtain rfl := Option.some.inj hs'
        exact h.doAwaitExit purpose deadline
      | _ => cases hs
  | _ =>
    rw [hp] at hs
    cases hs

end Twin

lemma run_twin {labels labels' : List Label}
    (h : Transition.Run (fun s l t => step cfg clock s l = some t) s labels t)
    (h' : Transition.Run (fun s l t => step cfg clock s l = some t) s' labels' t')
    (hl : List.Forall₂ Label.Twin labels labels') (hs : Twin s s') : Twin t t' :=
  h.related (R := Twin) (Q := Label.Twin) (fun _ _ _ _ _ _ hs hl hst hst' => hs.step hl hst hst') h'
    hl hs

end Stream

namespace Run

inductive Message.Twin : Option Message → Option Message → Prop
  | same (m : Option Message) : Message.Twin m m
  | tracked (payload payload' : Bytes) (queue : Option ℕ) :
      Message.Twin (some (.data .tracked payload queue)) (some (.data .tracked payload' queue))

structure Twin (a a' : Acc) : Prop where
  stdout : a'.stdout = a.stdout
  stderr : a'.stderr = a.stderr
  bytes : a'.bytes = a.bytes
  idleAt : a'.idleAt = a.idleAt
  timeoutAt : a'.timeoutAt = a.timeoutAt
  backstop : a'.backstop = a.backstop
  reason : a'.reason = a.reason
  truncated : a'.truncated = a.truncated
  identity : a'.identity = a.identity
  reads : a'.reads = a.reads
  diary : a.diary.Twin a'.diary

def Evidence.bare (ev : Evidence) : Evidence :=
  { ev with trackedGroupsTruncated := false }

def Result.bare (res : Result) : Result :=
  { res with
    trackedGroups := []
    trackedGroupsTruncated := false
    evidence := res.evidence.bare }

def Outcome.bare : Outcome → Outcome
  | .ok res => .ok res.bare
  | .stopped reason res => .stopped reason res.bare
  | .shimExited res => .shimExited res.bare
  | .invalidExit res => .invalidExit res.bare
  | .spawnPartial reason res => .spawnPartial reason res.bare
  | .spawn reason => .spawn reason

def State.Twin : State → State → Prop
  | .collecting a, .collecting a' => Run.Twin a a'
  | .returned o a, .returned o' a' => o'.bare = o.bare ∧ Run.Twin a a'
  | _, _ => False

variable {cfg : Options} {clock : ℕ → Instant} {a a' : Acc} {s s' : State}

namespace Twin

lemma add (h : Twin a a') {e : Effect} (he : e.told = none) : Twin (a.add e) (a'.add e) := by
  have hdiary : ∀ a : Acc, (a.add e).diary = a.diary := fun a =>
    @diary_quiet _ _ [e] rfl rfl (by simpa using he)
  have hd : (a.add e).diary.Twin (a'.add e).diary := by
    rw [hdiary, hdiary]
    exact h.diary
  exact { h with diary := hd }

lemma now (h : Twin a a') : (a'.now clock).1 = (a.now clock).1 ∧
    Twin (a.now clock).2 (a'.now clock).2 :=
  ⟨congrArg clock h.reads, { h with reads := congrArg (· + 1) h.reads }⟩

lemma tracking (h : Twin a a') {k k' : Tracking} {event event' : Option TrackingEvent}
    (hd : ({ a with tracking := k }.tell cfg event).diary.Twin
      ({ a' with tracking := k' }.tell cfg event').diary) :
    Twin ({ a with tracking := k }.tell cfg event) ({ a' with tracking := k' }.tell cfg event') := by
  have hframe : ∀ (a : Acc) (k : Tracking) (event : Option TrackingEvent), ∃ log,
      { a with tracking := k }.tell cfg event = { a with tracking := k, log := log } := by
    intro a k event
    rcases @tell_cases cfg { a with tracking := k } event with heq | ⟨e, heq⟩
    · exact ⟨a.log, heq⟩
    · exact ⟨_, heq⟩
  obtain ⟨log, heq⟩ := hframe a k event
  obtain ⟨log', heq'⟩ := hframe a' k' event'
  rw [heq, heq'] at hd ⊢
  exact { h with diary := hd }

lemma finishTracking (h : Twin a a') (scope : Scope) (confirmation : Confirmation)
    (contained : Option Bool) (truncated truncated' : Bool) :
    Twin (a.finishTracking cfg scope confirmation contained truncated)
      (a'.finishTracking cfg scope confirmation contained truncated') := by
  apply h.tracking
  have hd := h.diary.finish cfg.trackObserver scope confirmation contained truncated truncated'
  rw [← finishTracking_diary, ← finishTracking_diary] at hd
  exact hd

lemma tracked (h : Twin a a') (payload payload' : Bytes) :
    Twin (tracked cfg a payload) (tracked cfg a' payload') := by
  apply h.tracking
  have hd := h.diary.record cfg.trackObserver (cfg.json payload) (cfg.json payload')
  rw [← tracked_diary, ← tracked_diary] at hd
  exact hd

lemma cancel (h : Twin a a') (reason : Reason) :
    Twin (cancel cfg clock a reason) (cancel cfg clock a' reason) := by
  obtain ⟨htime, hnow⟩ := @Twin.now clock _ _ (h.add (e := .send .kill) rfl)
  rw [Run.cancel, Run.cancel]
  dsimp only
  rw [htime]
  refine Twin.add ?_ rfl
  exact { hnow with
    reason := rfl
    backstop := congrArg (fun b => min b (((a.add (.send .kill)).now clock).1 + cfg.cleanupMs))
      hnow.backstop }

lemma checkDeadlines (h : Twin a a') :
    Twin (checkDeadlines cfg clock a) (checkDeadlines cfg clock a') := by
  obtain ⟨htime, hnow⟩ := @Twin.now clock _ _ h
  obtain ⟨htime', hnow'⟩ := @Twin.now clock _ _ hnow
  rw [Run.checkDeadlines, Run.checkDeadlines, h.reason, h.timeoutAt, h.idleAt]
  dsimp only
  rw [htime]
  split
  · split
    · exact hnow.cancel .timeout
    · split
      · rw [htime']
        split
        · exact hnow'.cancel .idleTimeout
        · exact hnow'
      · exact hnow
  · exact h

lemma nextDeadline (h : Twin a a') : nextDeadline cfg a' = nextDeadline cfg a := by
  rw [Run.nextDeadline, Run.nextDeadline, h.reason, h.idleAt, h.timeoutAt, h.backstop]

lemma spawned (h : Twin a a') (payload : Bytes) :
    Twin (spawned cfg a payload) (spawned cfg a' payload) :=
  Keeper.recordIdentity_rel _ _ h.identity h (fun _ _ _ k => { k with identity := rfl })
    fun _ _ _ k => k

lemma append (h : Twin a a') (pipe : Pipe) (bytes : Bytes) :
    Twin (a.append pipe bytes) (a'.append pipe bytes) := by
  cases pipe with
  | stdout => exact { h with stdout := congrArg (· ++ bytes) h.stdout }
  | stderr => exact { h with stderr := congrArg (· ++ bytes) h.stderr }

lemma notify (h : Twin a a') (pipe : Pipe) (bytes : Bytes) (queue : Option ℕ) :
    (notify cfg a' pipe bytes queue).1 = (notify cfg a pipe bytes queue).1 ∧
      Twin (notify cfg a pipe bytes queue).2 (notify cfg a' pipe bytes queue).2 := by
  rw [Run.notify, Run.notify]
  split
  · split
    · exact ⟨rfl, h⟩
    · exact ⟨rfl, h.add rfl⟩
  · exact ⟨rfl, h⟩

lemma fits (h : Twin a a') (size : ℕ) : fits cfg a' size = fits cfg a size := by
  rw [Run.fits, Run.fits, h.bytes]

lemma head (h : Twin a a') (payload : Bytes) : head cfg a' payload = head cfg a payload := by
  rw [Run.head, Run.head, h.fits]

lemma stored (h : Twin a a') (pipe : Pipe) (payload : Bytes) (full : Bool) :
    Twin (stored cfg clock a pipe payload full) (stored cfg clock a' pipe payload full) := by
  have happend := (h.add (e := .received pipe payload full) rfl).append (destination cfg pipe)
    (Run.head cfg a payload)
  have hbytes : Twin
      { (a.add (.received pipe payload full)).append (destination cfg pipe) (Run.head cfg a payload) with
        bytes := ((a.add (.received pipe payload full)).append (destination cfg pipe)
          (Run.head cfg a payload)).bytes + Run.fits cfg a payload.length }
      { (a'.add (.received pipe payload full)).append (destination cfg pipe) (Run.head cfg a payload) with
        bytes := ((a'.add (.received pipe payload full)).append (destination cfg pipe)
          (Run.head cfg a payload)).bytes + Run.fits cfg a payload.length } :=
    { happend with bytes := congrArg (· + Run.fits cfg a payload.length) happend.bytes }
  obtain ⟨htime, hnow⟩ := @Twin.now clock _ _ hbytes
  rw [Run.stored, Run.stored, h.head, h.fits]
  dsimp only
  split
  · exact { hnow with idleAt := by rw [htime] }
  · exact { hbytes with idleAt := rfl }

lemma output (h : Twin a a') (pipe : Pipe) (payload : Bytes) (queue : Option ℕ) :
    Twin (output cfg clock a pipe payload queue) (output cfg clock a' pipe payload queue) := by
  cases hr : a.reason with
  | some reason =>
    have hcut : ∀ {a : Acc}, a.reason = some reason → Run.output cfg clock a pipe payload queue =
        { a.add (.received pipe payload (queueFull cfg queue)) with truncated := true } := by
      intro a hr
      simp [Run.output, Acc.add, hr]
    rw [hcut hr, hcut (h.reason.trans hr)]
    have hadd := h.add (e := .received pipe payload (queueFull cfg queue)) rfl
    exact { hadd with truncated := rfl }
  | none =>
    obtain ⟨hfull, hk⟩ := @Twin.notify cfg _ _ (@Twin.stored cfg clock _ _ h pipe payload
      (queueFull cfg queue)) (destination cfg pipe) (Run.head cfg a payload) queue
    rw [output_stored hr, output_stored (h.reason.trans hr), h.head, h.fits]
    dsimp only
    rw [hfull]
    have hgrant : ∀ {c c' : Acc}, Twin c c' →
        Twin (if cfg.strict && c.reason.isNone then grant c pipe payload.length else c)
          (if cfg.strict && c'.reason.isNone then grant c' pipe payload.length else c') := by
      intro c c' hc
      rw [hc.reason]
      split
      · exact hc.add rfl
      · exact hc
    apply hgrant
    split
    · refine Twin.cancel ?_ .maxOutputBytes
      exact { hk with truncated := rfl }
    · split
      · refine Twin.cancel ?_ .observerOverflow
        exact { hk with truncated := rfl }
      · exact hk

lemma evidence (h : Twin a a') (termination : Termination) :
    (evidence a' termination).bare = (evidence a termination).bare := by
  rw [Run.evidence, Run.evidence, h.reason, h.truncated]
  rfl

lemma result (h : Twin a a') (status : Status) {ev ev' : Evidence} (hev : ev'.bare = ev.bare) :
    (result a' status ev').bare = (result a status ev).bare := by
  rw [Result.bare, Result.bare, Run.result, Run.result]
  dsimp only
  rw [h.stdout, h.stderr, h.identity, hev]

lemma ends (h : Twin a a') (status : Status) {ev ev' : Evidence} (hev : ev'.bare = ev.bare)
    (reason : Option Reason) {o : Result → Outcome}
    (ho : ∀ res res' : Result, res'.bare = res.bare → (o res').bare = (o res).bare) :
    Outcome.bare (match reason with
      | some reason => .stopped reason (Run.result a' status ev')
      | none => o (Run.result a' status ev')) =
    Outcome.bare (match reason with
      | some reason => .stopped reason (Run.result a status ev)
      | none => o (Run.result a status ev)) := by
  have hres := h.result status hev
  cases reason with
  | some reason => exact congrArg (Outcome.stopped reason) hres
  | none => exact ho _ _ hres

lemma failure (h : Twin a a') (termination : Termination) (reason : Reason) :
    State.Twin (returns (failure cfg a termination reason))
      (returns (failure cfg a' termination reason)) := by
  refine ⟨?_, h.finishTracking _ _ _ _ _⟩
  have hev := congrArg (fun ev : Evidence => { ev with reason := some reason })
    (h.evidence termination)
  exact congrArg (Outcome.stopped reason) (h.result .unconfirmed hev)

lemma shimExited (h : Twin a a') (status : ℕ) :
    State.Twin (returns (shimExited cfg a status)) (returns (shimExited cfg a' status)) := by
  refine ⟨?_, h.finishTracking _ _ _ _ _⟩
  rw [Run.shimExited, Run.shimExited, h.reason]
  exact h.ends .unconfirmed (h.evidence _) a.reason (o := .shimExited)
    fun _ _ hres => congrArg Outcome.shimExited hres

lemma spawnError (h : Twin a a') (payload : Bytes) :
    State.Twin (returns (spawnError cfg a payload)) (returns (spawnError cfg a' payload)) := by
  have hk := @Twin.finishTracking cfg _ _ h .unknown .notStarted none false false
  rw [Run.spawnError, Run.spawnError, h.reason]
  dsimp only
  generalize Shim.decodeError (cfg.json payload) cfg.structuredSpawnErrors = reason
  split
  · refine ⟨?_, hk⟩
    exact h.ends .unconfirmed (h.evidence (.spawn reason)) a.reason (o := .spawnPartial reason)
      fun _ _ hres => congrArg (Outcome.spawnPartial reason) hres
  · exact ⟨rfl, hk⟩

lemma malformed (h : Twin a a') (report : Json) :
    State.Twin (returns (malformed cfg a report)) (returns (malformed cfg a' report)) := by
  refine ⟨?_, h.finishTracking _ _ _ _ _⟩
  rw [Run.malformed, Run.malformed, h.reason]
  refine h.ends .unconfirmed ?_ a.reason (o := .invalidExit)
    fun _ _ hres => congrArg Outcome.invalidExit hres
  have hev := h.evidence .malformedExit
  split
  · next signal _ =>
    exact congrArg (fun ev : Evidence => { ev with
      contained := Shim.contained (report.get "contained")
      childSignal := some (.int signal) }) hev
  · next status _ =>
    exact congrArg (fun ev : Evidence => { ev with
      contained := Shim.contained (report.get "contained")
      childStatus := some (.int status) }) hev
  · exact congrArg (fun ev : Evidence => { ev with
      contained := Shim.contained (report.get "contained") }) hev

lemma reportEvidence (h : Twin a a') (report : Json) :
    (reportEvidence a' report).bare = (reportEvidence a report).bare := by
  have henabled : a'.tracking.enabled = a.tracking.enabled := h.diary.enabled
  rw [Run.reportEvidence, Run.reportEvidence, henabled, h.reason, h.truncated]
  cases a.tracking.enabled <;> rfl

lemma finishReport (h : Twin a a') (report : Json) :
    State.Twin (returns (finishReport cfg a report)) (returns (finishReport cfg a' report)) := by
  have henabled : a'.tracking.enabled = a.tracking.enabled := h.diary.enabled
  have hev := h.reportEvidence report
  obtain ⟨hcleanup, hscope, hcontained, hreason⟩ :
      (Run.reportEvidence a' report).cleanup = (Run.reportEvidence a report).cleanup ∧
      (Run.reportEvidence a' report).scope = (Run.reportEvidence a report).scope ∧
      (Run.reportEvidence a' report).contained = (Run.reportEvidence a report).contained ∧
      (Run.reportEvidence a' report).reason = (Run.reportEvidence a report).reason := by
    have hfields := Evidence.mk.inj hev
    tauto
  rw [Run.finishReport, Run.finishReport]
  split
  · dsimp only
    rw [hreason, henabled, hcleanup, hscope, hcontained]
    refine ⟨?_, h.finishTracking _ _ _ _ _⟩
    exact h.ends _ hev (Run.reportEvidence a report).reason (o := .ok)
      fun _ _ hres => congrArg Outcome.ok hres
  · exact h.malformed report

lemma finish (h : Twin a a') (payload : Bytes) :
    State.Twin (returns (finish cfg a payload)) (returns (finish cfg a' payload)) := by
  rw [Run.finish.eq_def, Run.finish.eq_def]
  split
  · exact h.finishReport _
  · exact h.malformed _

lemma receive (h : Twin a a') {m m' : Option Message} (hm : Message.Twin m m') :
    State.Twin (receive cfg clock a m) (receive cfg clock a' m') := by
  cases hm with
  | tracked payload payload' queue => exact h.tracked payload payload'
  | same =>
    cases m with
    | none => exact h
    | some m =>
      cases m with
      | exitStatus status => exact h.shimExited status
      | data tag payload queue =>
        cases tag with
        | stdout => exact h.output .stdout payload queue
        | stderr => exact h.output .stderr payload queue
        | spawned => exact h.spawned payload
        | tracked => exact h.tracked payload payload
        | exit => exact h.finish payload
        | error => exact h.spawnError payload
        | other => exact h

lemma waiting (h : Twin a a') : Twin (waiting cfg clock a) (waiting cfg clock a') := by
  have hk := @Twin.checkDeadlines cfg clock _ _ h
  exact { hk with reads := congrArg (· + 1 + 1) hk.reads }

end Twin

lemma step_twin (h : State.Twin s s') {m m' : Option Message} (hm : Message.Twin m m') :
    State.Twin (step cfg clock s m) (step cfg clock s' m') := by
  cases s with
  | returned o a =>
    cases s' with
    | returned o' a' => exact h
    | collecting a' => cases h
  | collecting a =>
    cases s' with
    | returned o' a' => cases h
    | collecting a' =>
      have h : Twin a a' := h
      have hk := @Twin.checkDeadlines cfg clock _ _ h
      have hw := @Twin.waiting cfg clock _ _ h
      rcases step_cases cfg clock a m with ⟨hpast, -, heq⟩ | ⟨hbefore, -, heq⟩
      · rcases step_cases cfg clock a' m' with ⟨-, -, heq'⟩ | ⟨hbefore', -, -⟩
        · rw [heq, heq', hk.reason]
          exact hw.failure _ _
        · rw [hk.backstop, hk.reads] at hbefore'
          exact absurd hpast (not_le.mpr hbefore')
      · rcases step_cases cfg clock a' m' with ⟨hpast', -, -⟩ | ⟨-, -, heq'⟩
        · rw [hk.backstop, hk.reads] at hpast'
          exact absurd hpast' (not_le.mpr hbefore)
        · rw [heq, heq']
          exact hw.receive hm

lemma run_twin {messages messages' : List (Option Message)}
    (hm : List.Forall₂ Message.Twin messages messages') (h : State.Twin s s') :
    State.Twin (run cfg clock s messages) (run cfg clock s' messages') := by
  induction hm generalizing s s' with
  | nil => exact h
  | cons hm _ ih => exact ih (step_twin h hm)

end Run

end Forcola.Beam
