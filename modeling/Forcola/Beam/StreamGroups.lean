import Forcola.Beam.GroupHistory
import Forcola.Beam.StreamSteps

/-! The tracked groups of a stream. -/

namespace Forcola.Beam.Stream

open Library
open Native (Bytes Pipe)
open Shim (Scope ExitReport)

def Effect.told : Effect → Option TrackingEvent
  | .tell event => some event
  | _ => none

instance : Chronicler State where
  told s := s.log.reverse.filterMap Effect.told
  tracking_setTracking _ _ := rfl
  told_setTracking _ _ := rfl
  tracking_tell _ _ := rfl
  told_tell _ _ := by simp [Keeper.tell, State.add, Effect.told]
  tracking_spawned _ _ := ⟨rfl, rfl⟩
  told_spawned _ _ := by simp [Keeper.spawned, Keeper.setIdentity, State.add, Effect.told]

def State.diary (s : State) : Diary :=
  Keeper.diary s

def Label.tracked? (cfg : Options) : Label → Option (Option Json)
  | .message (.data .tracked payload) => some (cfg.json payload)
  | _ => none

def heard (cfg : Options) (labels : List Label) : List (Option Json) :=
  labels.filterMap (Label.tracked? cfg)

def State.past (s : State) : Prop :=
  s.exit ≠ none ∨ s.phase = .abandoned

structure Chronicled (cfg : Options) (labels : List Label) (s : State) : Prop where
  going : ¬s.past → Open cfg.trackObserver (heard cfg labels) s.diary ∧
    ∀ payload, .message (.data .exit payload) ∉ labels
  past : s.past → Closed cfg.trackObserver (heard cfg labels) s.diary
  error : ∀ e, s.exit = some (.error e) →
    e.trackedGroups = leaders (heard cfg labels) ∧ e.trackedGroupsTruncated = s.tracking.truncated
  explained : s.past → ∀ payload, .message (.data .exit payload) ∈ labels →
    Explained (heard cfg labels) (Shim.decodeMap (cfg.json payload)) s.tracking
  settled : s.past →
    (∀ wait, s.phase ≠ .receiving wait) ∧ ∀ purpose deadline, s.phase ≠ .awaiting purpose deadline

variable {cfg : Options} {clock : ℕ → Instant} {s t u : State} {l : Label} {labels : List Label}
  {payload : Bytes} {d : Diary}

lemma diary_add (s : State) {e : Effect} (h : e.told = none) : (s.add e).diary = s.diary := by
  simp [State.diary, Keeper.diary, Keeper.tracking, Chronicler.told, State.add, h]

lemma recordTracked_diary (s : State) (payload : Bytes) :
    (s.recordTracked cfg payload).diary =
      s.diary.record cfg.trackObserver (cfg.json payload) :=
  Keeper.recordTracked_diary s _

lemma finishTracking_diary (s : State) (scope : Scope) (confirmation : Confirmation)
    (contained : Option Bool) (truncated : Bool) :
    (s.finishTracking cfg scope confirmation contained truncated).diary =
      s.diary.finish cfg.trackObserver scope confirmation contained truncated :=
  Keeper.finishTracking_diary s _ _ _ _

lemma recordIdentity_diary (s : State) (payload : Bytes) :
    (s.recordIdentity cfg payload).diary = s.diary :=
  Keeper.recordIdentity_diary _ s _

lemma resetIdle_diary (s : State) : (resetIdle cfg clock s).diary = s.diary := by
  rw [resetIdle]
  split <;> rfl

lemma grantCredit_diary (s : State) : (grantCredit cfg clock s).diary = s.diary := by
  rw [grantCredit]
  split
  · rfl
  · rw [resetIdle_diary]
    split
    · exact diary_add s rfl
    · rfl

lemma consumeLines_diary (s : State) (payload : Bytes) :
    (consumeLines cfg s payload).2.2.diary = s.diary := by
  rcases @consumeLines_cases cfg s payload with h | ⟨lines, limit, h⟩
  · rw [h]
    rfl
  · rw [h]

lemma accountStdout_diary (s : State) (bytes : ℕ) : (accountStdout cfg s bytes).diary = s.diary := by
  obtain ⟨outstanding, h⟩ := @accountStdout_frame cfg s bytes
  rw [h]
  rfl

lemma emit_diary (s : State) (lines : List Bytes) : (emit s lines).diary = s.diary :=
  diary_add s rfl

structure Closes (cfg : Options) (d : Diary) (truncated : Bool) (t : State) : Prop where
  diary : ∃ scope confirmation contained,
    t.diary = d.finish cfg.trackObserver scope confirmation contained truncated
  error : ∀ e, t.exit = some (.error e) → e.trackedGroups = d.tracking.observed ∧
    e.trackedGroupsTruncated = (d.tracking.truncated || truncated)
  past : t.past
  phase : t.phase = .ready ∨ t.phase = .abandoned

lemma trackingError_groups (s : State) (scope : Scope) (confirmation : Confirmation)
    (contained : Option Bool) (truncated : Bool) :
    (s.finishTracking cfg scope confirmation contained truncated).trackingError.trackedGroups =
      s.tracking.observed := by
  have hfinish : ∀ t : Tracking,
      (t.finish scope confirmation contained truncated).1.observed = t.observed := by
    intro t
    rw [Tracking.finish]
    split <;> rfl
  have h := congrArg (fun d : Diary => d.tracking.observed)
    (@finishTracking_diary cfg s scope confirmation contained truncated)
  exact h.trans (hfinish _)

lemma trackingError_truncated (s : State) (scope : Scope) (confirmation : Confirmation)
    (contained : Option Bool) :
    (s.finishTracking cfg scope confirmation contained
      false).trackingError.trackedGroupsTruncated = (s.tracking.truncated || false) := by
  have hfinish : ∀ t : Tracking,
      (t.finish scope confirmation contained false).1.truncated = (t.truncated || false) := by
    intro t
    rw [Tracking.finish]
    split
    · exact (Bool.or_false _).symm
    · rfl
  have h := congrArg (fun d : Diary => d.tracking.truncated)
    (@finishTracking_diary cfg s scope confirmation contained false)
  exact h.trans (hfinish _)

def Confirmed.truncated : Confirmed → Bool
  | .exit report => report.trackedGroupsTruncated
  | _ => false

lemma cleanupEvidence_groups (s : State) (result : Confirmed)
    (h : ∀ report, result = .exit report → report.trackedGroupsTruncated =
      (s.tracking.truncated || report.trackedGroupsTruncated)) :
    (cleanupEvidence cfg s result).1.trackedGroups = s.tracking.observed ∧
      (cleanupEvidence cfg s result).1.trackedGroupsTruncated =
        (s.tracking.truncated || result.truncated) ∧
      ∃ scope confirmation contained, (cleanupEvidence cfg s result).2.diary =
        s.diary.finish cfg.trackObserver scope confirmation contained result.truncated := by
  have hlost : ∀ confirmation, (cleanupEvidence.lost cfg s confirmation).1.trackedGroups =
        s.tracking.observed ∧ (cleanupEvidence.lost cfg s confirmation).1.trackedGroupsTruncated =
        (s.tracking.truncated || false) ∧
      ∃ scope confirmation' contained, (cleanupEvidence.lost cfg s confirmation).2.diary =
        s.diary.finish cfg.trackObserver scope confirmation' contained false := fun confirmation =>
    ⟨trackingError_groups s _ _ _ _, trackingError_truncated s _ _ _, _, _, _,
      finishTracking_diary s _ _ _ _⟩
  cases result with
  | exit report =>
    exact ⟨trackingError_groups s _ _ _ _, h report rfl, _, _, _, finishTracking_diary s _ _ _ _⟩
  | timeout => exact hlost .timeout
  | error => exact hlost .notStarted
  | shimExited => exact hlost .transportLost

lemma cleanupEvidence_exit (s : State) (result : Confirmed) :
    (cleanupEvidence cfg s result).2.exit = s.exit :=
  (cleanupEvidence_spec s result).2.1.exit

lemma conclude_closes (s : State) (he : s.exit = none) (purpose : Purpose) (result : Confirmed)
    (h : ∀ report, result = .exit report → report.trackedGroupsTruncated =
      (s.tracking.truncated || report.trackedGroupsTruncated)) :
    Closes cfg s.diary result.truncated (conclude cfg s purpose result) := by
  obtain ⟨hgroups, htruncated, scope, confirmation, contained, hdiary⟩ :=
    @cleanupEvidence_groups cfg s result h
  rw [conclude.eq_def]
  cases purpose with
  | idle =>
    refine ⟨⟨scope, confirmation, contained, ?_⟩, ?_, .inl (Option.some_ne_none _), .inl rfl⟩
    · rw [emit_diary]
      exact hdiary
    · intro e hexit
      obtain rfl := Exit.error.inj (Option.some.inj hexit)
      exact ⟨hgroups, htruncated⟩
  | limit lines limit =>
    refine ⟨⟨scope, confirmation, contained, ?_⟩, ?_, .inl (Option.some_ne_none _), .inl rfl⟩
    · rw [emit_diary]
      exact hdiary
    · intro e hexit
      obtain rfl := Exit.error.inj (Option.some.inj hexit)
      exact ⟨hgroups, htruncated⟩
  | cleanup =>
    refine ⟨⟨scope, confirmation, contained, hdiary⟩, ?_, .inr rfl, .inr rfl⟩
    intro e hexit
    have hnone : (cleanupEvidence cfg s result).2.exit = some (.error e) := hexit
    rw [cleanupEvidence_exit, he] at hnone
    cases hnone

inductive Goes (cfg : Options) (d : Diary) (t : State) : Prop
  | on (hd : t.diary = d) (he : t.exit = none) (hp : t.phase ≠ .abandoned) : Goes cfg d t
  | closes (h : Closes cfg d false t) : Goes cfg d t

lemma doAwaitExit_goes (he : s.exit = none) (purpose : Purpose) (deadline : Instant) :
    Goes cfg s.diary (doAwaitExit cfg clock s purpose deadline) := by
  rw [doAwaitExit]
  dsimp only
  split
  · exact .closes (conclude_closes (s.now clock).2 he purpose .timeout (by simp))
  · exact .on rfl he (by simp)

lemma killAndConfirm_goes (he : s.exit = none) (purpose : Purpose) :
    Goes cfg s.diary (killAndConfirm cfg clock s purpose) := by
  have hdiary : ((s.add (.send .kill)).now clock).2.diary = s.diary := diary_add s rfl
  rw [← hdiary]
  exact doAwaitExit_goes (s := ((s.add (.send .kill)).now clock).2) he purpose _

lemma timeoutError_goes (he : s.exit = none) : Goes cfg s.diary (timeoutError cfg clock s) := by
  have hdiary : (s.add .timeout).diary = s.diary := diary_add s rfl
  rw [← hdiary]
  by_cases h : IdleFirst s
  · rw [timeoutError_idle h]
    exact killAndConfirm_goes (s := s.add .timeout) he .idle
  · rw [timeoutError_backstop h]
    refine .closes ⟨⟨.unknown, .timeout, none, ?_⟩, ?_, .inl (Option.some_ne_none _),
      .inl rfl⟩
    · exact (emit_diary _ _).trans (finishTracking_diary _ _ _ _ _)
    · intro e hexit
      obtain rfl := Exit.error.inj (Option.some.inj hexit)
      exact ⟨trackingError_groups _ _ _ _ _, trackingError_truncated _ _ _ _⟩

lemma emit_goes (he : s.exit = none) (lines : List Bytes) : Goes cfg s.diary (emit s lines) :=
  .on (emit_diary s lines) he (by simp [emit])

lemma receiveNext_goes (he : s.exit = none) : Goes cfg s.diary (receiveNext clock s) := by
  refine .on rfl he ?_
  rw [receiveNext]
  simp

lemma deliver_goes {r : List Bytes × Option Limit × State} (he : r.2.2.exit = none) :
    Goes cfg r.2.2.diary (deliver cfg clock r) := by
  rw [deliver]
  split
  · exact killAndConfirm_goes he _
  · exact emit_goes he _

lemma consumeLines_exit (s : State) (payload : Bytes) :
    (consumeLines cfg s payload).2.2.exit = s.exit := by
  rcases @consumeLines_cases cfg s payload with h | ⟨lines, limit, h⟩
  · rw [h]
  · rw [h]

lemma handleStdout_goes (he : s.exit = none) (payload : Bytes) :
    Goes cfg s.diary (handleMessage cfg clock s (.data .stdout payload)) := by
  have hadd : (s.add (.received .stdout payload)).diary = s.diary := diary_add s rfl
  obtain ⟨outstanding, hout⟩ := @accountStdout_frame cfg
    (resetIdle cfg clock (s.add (.received .stdout payload))) payload.length
  have hexit := (@resetIdle_frame cfg clock
    (s.add (.received .stdout payload))).2.2.2.1
  rw [handleMessage]
  rw [← hadd, ← @resetIdle_diary cfg clock, ← accountStdout_diary,
    ← consumeLines_diary _ payload]
  apply deliver_goes
  rw [consumeLines_exit, hout]
  exact hexit.trans he

lemma consumeStderr_goes (he : s.exit = none) (payload : Bytes) :
    Goes cfg s.diary (consumeStderr cfg clock s payload) := by
  rw [consumeStderr]
  split
  · exact emit_goes (s := { s with stderr := s.stderr ++ payload }) he []
  · next maxStderr _ =>
    dsimp only
    generalize hr : (if cfg.mergeStderr then _ else _ :
      List Bytes × Option Limit × State) = r
    have hdiary : r.2.2.diary = s.diary := by
      rw [← hr]
      split
      · exact consumeLines_diary _ _
      · rfl
    have hexit : r.2.2.exit = none := by
      rw [← hr]
      split
      · rw [consumeLines_exit]
        exact he
      · exact he
    rw [← hdiary]
    split
    · exact killAndConfirm_goes hexit _
    · split
      · exact killAndConfirm_goes hexit _
      · exact emit_goes hexit _

def Label.records (cfg : Options) (l : Label) (d : Diary) : Diary :=
  d.hear cfg.trackObserver (l.tracked? cfg)

inductive Turns (cfg : Options) (s t : State) : Label → Prop
  | exits {payload : Bytes} (h : Closes cfg s.diary
      (s.tracking.report (cfg.json payload)).trackedGroupsTruncated t) :
      Turns cfg s t (.message (.data .exit payload))
  | goes {l : Label} (hl : ∀ payload, l ≠ .message (.data .exit payload))
      (h : Goes cfg (l.records cfg s.diary) t) : Turns cfg s t l

lemma report_flag (henabled : s.tracking.enabled = true) (payload : Bytes) :
    (s.tracking.report (cfg.json payload)).trackedGroupsTruncated =
      (s.tracking.truncated || (s.tracking.report (cfg.json payload)).trackedGroupsTruncated) := by
  rw [report_truncated henabled, ← Bool.or_assoc, ← Bool.or_assoc, Bool.or_self]

lemma recordTracked_exit (s : State) (payload : Bytes) :
    (s.recordTracked cfg payload).exit = s.exit :=
  (Aside.tracking s _ _).exit

lemma handleMessage_turns (he : s.exit = none) (henabled : s.tracking.enabled = true)
    (message : Message) : Turns cfg s (handleMessage cfg clock s message) (.message message) := by
  have hlost : ∀ confirmation (e : Error), e.trackedGroups =
        (s.finishTracking cfg .unknown confirmation none false).trackingError.trackedGroups →
      e.trackedGroupsTruncated = (s.finishTracking cfg .unknown confirmation none
        false).trackingError.trackedGroupsTruncated →
      Closes cfg s.diary false (emit { s.finishTracking cfg .unknown confirmation none false with
        exit := some (.error e) } []) := by
    intro confirmation e hgroups htruncated
    refine ⟨⟨_, _, _, (emit_diary _ _).trans (finishTracking_diary _ _ _ _ _)⟩, ?_,
      .inl (Option.some_ne_none _), .inl rfl⟩
    intro e' hexit
    obtain rfl := Exit.error.inj (Option.some.inj hexit)
    exact ⟨hgroups.trans (trackingError_groups _ _ _ _ _),
      htruncated.trans (trackingError_truncated _ _ _ _)⟩
  cases message with
  | exitStatus => exact .goes (by simp) (.closes (hlost .transportLost _ rfl rfl))
  | data tag payload =>
    cases tag with
    | stdout => exact .goes (by simp) (handleStdout_goes he payload)
    | stderr =>
      have hexit := (@resetIdle_frame cfg clock
        (s.add (.received .stderr payload))).2.2.2.1
      have hdiary : (resetIdle cfg clock (s.add (.received .stderr payload))).diary = s.diary :=
        (resetIdle_diary _).trans (diary_add s rfl)
      have h := @consumeStderr_goes cfg clock _ (hexit.trans he) payload
      rw [hdiary] at h
      exact .goes (by simp) h
    | spawned =>
      have h := @emit_goes cfg (s.recordIdentity cfg payload)
        ((Aside.recordIdentity s payload).exit.trans he) []
      rw [recordIdentity_diary] at h
      exact .goes (by simp) h
    | tracked =>
      have h := @receiveNext_goes cfg clock _
        ((@recordTracked_exit cfg s payload).trans he)
      rw [recordTracked_diary] at h
      exact .goes (by simp) h
    | other => exact .goes (by simp) (emit_goes he [])
    | error => exact .goes (by simp) (.closes (hlost .notStarted _ rfl rfl))
    | exit =>
      refine .exits ⟨⟨_, _, _, (emit_diary _ _).trans (finishTracking_diary _ _ _ _ _)⟩, ?_,
        .inl (Option.some_ne_none _), .inl rfl⟩
      intro e hexit
      have hexit := Option.some.inj hexit
      split at hexit
      · cases hexit
      · obtain rfl := Exit.error.inj hexit
        exact ⟨trackingError_groups _ _ _ _ _, report_flag henabled payload⟩

lemma awaitMessage_turns (he : s.exit = none) (henabled : s.tracking.enabled = true)
    (purpose : Purpose) (deadline : Instant) (message : Message) :
    Turns cfg s (awaitMessage cfg clock s purpose deadline message) (.message message) := by
  cases message with
  | exitStatus =>
    exact .goes (by simp) (.closes (conclude_closes s he purpose .shimExited (by simp)))
  | data tag payload =>
    cases tag with
    | exit =>
      apply Turns.exits
      apply conclude_closes s he purpose (.exit (s.tracking.report (cfg.json payload)))
      intro report hreport
      obtain rfl := Confirmed.exit.inj hreport
      exact report_flag henabled payload
    | error => exact .goes (by simp) (.closes (conclude_closes s he purpose .error (by simp)))
    | spawned =>
      have h := @doAwaitExit_goes cfg clock (s.recordIdentity cfg payload)
        ((Aside.recordIdentity s payload).exit.trans he) purpose deadline
      rw [recordIdentity_diary] at h
      exact .goes (by simp) h
    | tracked =>
      have h := @doAwaitExit_goes cfg clock _
        ((@recordTracked_exit cfg s payload).trans he) purpose deadline
      rw [recordTracked_diary] at h
      exact .goes (by simp) h
    | stdout =>
      have h := @doAwaitExit_goes cfg clock (s.add (.discarded .stdout payload)) he purpose deadline
      rw [diary_add s rfl] at h
      exact .goes (by simp) h
    | stderr =>
      have h := @doAwaitExit_goes cfg clock (s.add (.discarded .stderr payload)) he purpose deadline
      rw [diary_add s rfl] at h
      exact .goes (by simp) h
    | other => exact .goes (by simp) (doAwaitExit_goes he purpose deadline)

lemma grantCredit_exit (s : State) : (grantCredit cfg clock s).exit = s.exit :=
  (grantCredit_aside s).exit

lemma step_turns (h : step cfg clock s l = some t) (he : s.exit = none)
    (henabled : s.tracking.enabled = true) : Turns cfg s t l := by
  rw [step.eq_def] at h
  split at h
  · obtain rfl := Option.some.inj h
    rw [next, he]
    have hnext := @receiveNext_goes cfg clock _
      ((@grantCredit_exit cfg clock s).trans he)
    rw [grantCredit_diary] at hnext
    exact .goes (by simp) hnext
  · obtain rfl := Option.some.inj h
    rw [cleanup, he]
    exact .goes (by simp) (killAndConfirm_goes he .cleanup)
  · obtain rfl := Option.some.inj h
    exact handleMessage_turns he henabled _
  · split at h
    · obtain rfl := Option.some.inj h
      exact .goes (by simp) (receiveNext_goes he)
    · obtain rfl := Option.some.inj h
      exact .goes (by simp) (timeoutError_goes he)
  · obtain rfl := Option.some.inj h
    exact awaitMessage_turns he henabled _ _ _
  · obtain rfl := Option.some.inj h
    exact .goes (by simp) (doAwaitExit_goes he _ _)
  · cases h

lemma step_over (h : step cfg clock s l = some t) (hover : s.past)
    (hsettled : (∀ wait, s.phase ≠ .receiving wait) ∧
      ∀ purpose deadline, s.phase ≠ .awaiting purpose deadline) :
    t.diary = s.diary ∧ t.exit = s.exit ∧ t.past ∧ (∀ message, l ≠ .message message) ∧
      (∀ wait, t.phase ≠ .receiving wait) ∧ ∀ purpose deadline, t.phase ≠ .awaiting purpose deadline := by
  obtain ⟨hreceiving, hawaiting⟩ := hsettled
  rw [step.eq_def] at h
  split at h
  · next hp =>
    obtain rfl := Option.some.inj h
    rcases hover with hover | hover
    · rw [next]
      split
      · next he => exact absurd he hover
      · exact ⟨rfl, rfl, .inl hover, by simp, by simp, by simp⟩
      · exact ⟨rfl, rfl, .inl hover, by simp, by simp, by simp⟩
    · cases hp.symm.trans hover
  · next hp =>
    obtain rfl := Option.some.inj h
    rcases hover with hover | hover
    · rw [cleanup]
      split
      · next he => exact absurd he hover
      · exact ⟨rfl, rfl, .inl hover, by simp, by simp, by simp⟩
    · cases hp.symm.trans hover
  · next hp => exact absurd hp (hreceiving _)
  · next hp => exact absurd hp (hreceiving _)
  · next hp => exact absurd hp (hawaiting _ _)
  · next hp => exact absurd hp (hawaiting _ _)
  · cases h

lemma closes_chronicled {truncated : Bool} (hopen : Open cfg.trackObserver (heard cfg labels) d)
    (h : Closes cfg d truncated t)
    (hreport : ∀ payload, .message (.data .exit payload) ∈ labels →
      truncated = (d.tracking.truncated || d.tracking.groups.isEmpty ||
        (Shim.decodeMap (cfg.json payload)).isTrue "tracked_groups_truncated")) :
    Chronicled cfg labels t := by
  obtain ⟨⟨scope, confirmation, contained, hdiary⟩, herror, hover, hphase⟩ := h
  obtain ⟨hclosed, htruncated⟩ := hopen.finish scope confirmation contained truncated
  have htracking : t.tracking = (d.finish cfg.trackObserver scope confirmation contained
      truncated).tracking := congrArg Diary.tracking hdiary
  constructor
  · exact fun hgoing => absurd hover hgoing
  · intro _
    rw [hdiary]
    exact hclosed
  · intro e he
    obtain ⟨hgroups, hflag⟩ := herror e he
    rw [htracking]
    exact ⟨hgroups.trans hopen.recorded.observed, hflag.trans htruncated.symm⟩
  · intro _ payload hin
    have hexplained := hopen.explained (Shim.decodeMap (cfg.json payload)) scope confirmation contained
    rw [htracking, hreport payload hin]
    exact hexplained
  · intro _
    rcases hphase with hp | hp
    · rw [hp]
      exact ⟨by simp, by simp⟩
    · rw [hp]
      exact ⟨by simp, by simp⟩

lemma step_chronicled (h : Chronicled cfg labels s) (hs : step cfg clock s l = some t) :
    Chronicled cfg (labels ++ [l]) t := by
  by_cases hover : s.past
  · obtain ⟨hdiary, hexit, ht, hl, hsettled⟩ := step_over hs hover (h.settled hover)
    have hheard : heard cfg (labels ++ [l]) = heard cfg labels := by
      cases l with
      | message message => exact absurd rfl (hl message)
      | _ =>
        rw [heard, List.filterMap_append]
        exact List.append_nil _
    have htracking : t.tracking = s.tracking := congrArg Diary.tracking hdiary
    constructor
    · exact fun hgoing => absurd ht hgoing
    · intro _
      rw [hdiary, hheard]
      exact h.past hover
    · intro e he
      rw [htracking, hheard]
      exact h.error e (hexit.symm.trans he)
    · intro _ payload hin
      rw [htracking, hheard]
      rcases List.mem_append.mp hin with hin | hin
      · exact h.explained hover payload hin
      · exact absurd (List.mem_singleton.mp hin).symm (hl _)
    · exact fun _ => hsettled
  · obtain ⟨hopen, hnone⟩ := h.going hover
    have he : s.exit = none := by
      by_contra he
      exact hover (.inl he)
    have henabled : s.tracking.enabled = true := hopen.recorded.enabled
    cases step_turns hs he henabled with
    | @exits payload hcloses =>
      have hrecords := hopen.hear (.message (.data .exit payload))
      apply closes_chronicled hrecords hcloses
      intro payload' hin
      rcases List.mem_append.mp hin with hin | hin
      · exact absurd hin (hnone payload')
      · cases List.mem_singleton.mp hin
        exact report_truncated henabled
    | goes hl hgoes =>
      have hunreported := fun payload (hin : .message (.data .exit payload) ∈ labels ++ [l]) =>
        (List.mem_append.mp hin).elim (hnone payload)
          fun hin => hl payload (List.mem_singleton.mp hin).symm
      have hrecords := hopen.hear l
      cases hgoes with
      | on hdiary he hp =>
        have ht : ¬t.past := fun ht => ht.elim (absurd he) hp
        refine ⟨fun _ => ⟨hdiary ▸ hrecords, hunreported⟩, fun ht' => absurd ht' ht, ?_,
          fun ht' => absurd ht' ht, fun ht' => absurd ht' ht⟩
        intro e hexit
        cases he.symm.trans hexit
      | closes hcloses =>
        apply closes_chronicled hrecords hcloses
        exact fun payload hin => absurd hin (hunreported payload)

lemma start_chronicled (htrack : cfg.trackDescendants = true) (timeoutMs reads : ℕ) :
    Chronicled cfg [] (start cfg clock timeoutMs reads) := by
  have hdiary : (start cfg clock timeoutMs reads).diary = ⟨Tracking.new true, []⟩ := by
    rw [State.diary, start, htrack]
    cases cfg.maxStderrBytes <;> rfl
  have hgoing : ¬(start cfg clock timeoutMs reads).past := by
    rintro (h | h)
    · exact h rfl
    · cases h
  have hnone : (start cfg clock timeoutMs reads).exit = none := rfl
  refine ⟨fun _ => ⟨?_, by simp⟩, fun h => absurd h hgoing, fun e he => ?_,
    fun h => absurd h hgoing, fun h => absurd h hgoing⟩
  · rw [hdiary]
    exact Open.new _
  · cases hnone.symm.trans he

lemma run_chronicled (htrack : cfg.trackDescendants = true) {timeoutMs reads : ℕ}
    (h : Transition.Run (fun s l t => step cfg clock s l = some t)
      (start cfg clock timeoutMs reads) labels t) : Chronicled cfg labels t :=
  h.history (fun _ _ _ _ hs hst => step_chronicled hs hst)
    (start_chronicled htrack timeoutMs reads)

end Forcola.Beam.Stream
