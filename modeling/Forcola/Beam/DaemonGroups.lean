import Forcola.Beam.Daemon
import Forcola.Beam.GroupHistory
import Forcola.Library.Transition

/-! The tracked groups of a daemon. -/

namespace Forcola.Beam.Daemon

open Library
open Native (Bytes Pipe)
open Shim (Scope Tag)

def Effect.told : Effect → Option TrackingEvent
  | .tell event => some event
  | _ => none

instance : Chronicler State where
  told s := s.log.reverse.filterMap Effect.told
  tracking_setTracking _ _ := rfl
  told_setTracking _ _ := rfl
  tracking_tell _ _ := rfl
  told_tell _ _ := by simp [Keeper.tell, State.add, Effect.told]
  tracking_spawned _ _ := ⟨rfl, rfl⟩
  told_spawned _ _ := by simp [Keeper.spawned, Keeper.setIdentity, State.add, Effect.told]

def State.diary (s : State) : Diary :=
  Keeper.diary s

def Label.tracked? (cfg : Options) : Label → Option (Option Json)
  | .message (.data .tracked payload) => some (cfg.json payload)
  | _ => none

def heard (cfg : Options) (labels : List Label) : List (Option Json) :=
  labels.filterMap (Label.tracked? cfg)

def State.past (s : State) : Prop :=
  ∃ reason, s.phase = .stopped reason

structure Chronicled (cfg : Options) (labels : List Label) (s : State) : Prop where
  going : ¬s.past → Open cfg.trackObserver (heard cfg labels) s.diary ∧ s.exit = none ∧
    ∀ payload, .message (.data .exit payload) ∉ labels
  past : s.past → Closed cfg.trackObserver (heard cfg labels) s.diary
  explained : s.past → ∀ payload, .message (.data .exit payload) ∈ labels →
    Explained (heard cfg labels) (Shim.decodeMap (cfg.json payload)) s.tracking

variable {cfg : Options} {clock : ℕ → Instant} {s t u : State} {l : Label} {labels : List Label}
  {payload : Bytes} {d : Diary}

lemma diary_add (s : State) {e : Effect} (h : e.told = none) : (s.add e).diary = s.diary := by
  simp [State.diary, Keeper.diary, Keeper.tracking, Chronicler.told, State.add, h]

lemma recordTracked_diary (s : State) (payload : Bytes) :
    (s.recordTracked cfg payload).diary =
      s.diary.record cfg.trackObserver (cfg.json payload) :=
  Keeper.recordTracked_diary s _

lemma finishTracking_diary (s : State) (scope : Scope) (confirmation : Confirmation)
    (contained : Option Bool) (truncated : Bool) :
    (s.finishTracking cfg scope confirmation contained truncated).diary =
      s.diary.finish cfg.trackObserver scope confirmation contained truncated :=
  Keeper.finishTracking_diary s _ _ _ _

lemma keeps : Keeper.Keeps fun s t : State => t.exit = s.exit ∧ t.phase = s.phase where
  refl _ := ⟨rfl, rfl⟩
  trans h k := ⟨k.1.trans h.1, k.2.trans h.2⟩
  setTracking _ _ := ⟨rfl, rfl⟩
  setIdentity _ _ := ⟨rfl, rfl⟩
  tell _ _ := ⟨rfl, rfl⟩
  spawned _ _ := ⟨rfl, rfl⟩

lemma tell_kept (s : State) (t : Tracking) (event : Option TrackingEvent) :
    ({ s with tracking := t }.tell cfg event).exit = s.exit ∧
      ({ s with tracking := t }.tell cfg event).phase = s.phase :=
  keeps.tracking s t event

lemma recordIdentity_frame (s : State) (payload : Bytes) :
    (s.recordIdentity cfg payload).diary = s.diary ∧
      (s.recordIdentity cfg payload).exit = s.exit ∧
      (s.recordIdentity cfg payload).phase = s.phase :=
  ⟨Keeper.recordIdentity_diary _ s _, keeps.recordIdentity _ s _⟩

def Closes (cfg : Options) (d : Diary) (truncated : Bool) (t : State) : Prop :=
  t.past ∧ ∃ scope confirmation contained,
    t.diary = d.finish cfg.trackObserver scope confirmation contained truncated

def Goes (cfg : Options) (d : Diary) (t : State) : Prop :=
  (t.diary = d ∧ t.exit = none ∧ ¬t.past) ∨ Closes cfg d false t

def Label.records (cfg : Options) (l : Label) (d : Diary) : Diary :=
  d.hear cfg.trackObserver (l.tracked? cfg)

inductive Turns (cfg : Options) (s t : State) : Label → Prop
  | exits {payload : Bytes} (h : Closes cfg s.diary
      (s.tracking.report (cfg.json payload)).trackedGroupsTruncated t) :
      Turns cfg s t (.message (.data .exit payload))
  | goes {l : Label} (hl : ∀ payload, l ≠ .message (.data .exit payload))
      (h : Goes cfg (l.records cfg s.diary) t) : Turns cfg s t l

lemma finishCleanup_lost (s : State) (reason : StopReason) (confirmation : Confirmation) :
    Closes cfg s.diary false (finishCleanup cfg s reason (.lost confirmation)) :=
  ⟨⟨reason, rfl⟩, _, _, _, finishTracking_diary s _ _ _ _⟩

lemma doAwaitExit_goes (he : s.exit = none) (reason : StopReason) (deadline : Instant) :
    Goes cfg s.diary (doAwaitExit cfg clock s reason deadline) := by
  rw [doAwaitExit]
  dsimp only
  split
  · exact .inr (finishCleanup_lost (s.now clock).2 reason .timeout)
  · exact .inl ⟨rfl, he, by simp [State.past]⟩

lemma finishCleanup_again {scope : Scope} {confirmation : Confirmation} {contained : Option Bool}
    {truncated : Bool}
    (hd : s.diary = d.finish cfg.trackObserver scope confirmation contained truncated)
    (reason : StopReason) (lost : Confirmation) :
    Closes cfg d truncated (finishCleanup cfg s reason (.lost lost)) := by
  refine ⟨⟨reason, rfl⟩, scope, confirmation, contained, ?_⟩
  have h := @finishTracking_diary cfg s .unknown lost none false
  rw [hd, Diary.finish_again] at h
  exact h

lemma shutdown_closed (clock : ℕ → Instant) {scope : Scope} {confirmation : Confirmation} {contained : Option Bool}
    {truncated : Bool} {exit : Exit}
    (hd : s.diary = d.finish cfg.trackObserver scope confirmation contained truncated)
    (he : s.exit = some exit) (reason : StopReason) :
    Closes cfg d truncated (shutdown cfg clock s reason) := by
  rw [shutdown, he]
  cases exit with
  | spawnError _ => exact finishCleanup_again hd reason .notStarted
  | exit _ _ => exact finishCleanup_again hd reason .transportLost
  | shimExited _ => exact finishCleanup_again hd reason .transportLost

lemma shutdown_goes (he : s.exit = none) (reason : StopReason) :
    Goes cfg s.diary (shutdown cfg clock s reason) := by
  have hkill : ((s.add (.send .kill)).now clock).2.diary = s.diary := diary_add s rfl
  rw [shutdown, he, ← hkill]
  exact doAwaitExit_goes (s := ((s.add (.send .kill)).now clock).2) he reason _

lemma handleExit_diary (s : State) (payload : Bytes) : ∃ scope confirmation contained,
    (handleExit cfg s payload).diary = s.diary.finish cfg.trackObserver scope confirmation contained
      (s.tracking.report (cfg.json payload)).trackedGroupsTruncated :=
  ⟨_, _, _, finishTracking_diary s _ _ _ _⟩

lemma handleExit_exit (s : State) (payload : Bytes) :
    ∃ exit, (handleExit cfg s payload).exit = some exit :=
  ⟨_, rfl⟩

lemma handleFrame_goes (he : s.exit = none) (hover : ¬s.past) {tag : Tag} (hexit : tag ≠ .exit)
    (herror : tag ≠ .error) (payload : Bytes) :
    (handleFrame cfg s tag payload).diary = (Label.message (.data tag payload)).records cfg s.diary ∧
      (handleFrame cfg s tag payload).exit = none ∧ ¬(handleFrame cfg s tag payload).past := by
  cases tag with
  | stdout => exact ⟨diary_add s rfl, he, hover⟩
  | stderr => exact ⟨diary_add s rfl, he, hover⟩
  | spawned =>
    obtain ⟨hdiary, hexit, hphase⟩ := @recordIdentity_frame cfg s payload
    refine ⟨hdiary, hexit.trans he, ?_⟩
    rw [State.past] at hover ⊢
    rw [← hphase] at hover
    exact hover
  | tracked =>
    obtain ⟨hexit, hphase⟩ := @tell_kept cfg s (s.tracking.record (cfg.json payload)).1
      ((s.tracking.record (cfg.json payload)).2.map .tracked)
    refine ⟨recordTracked_diary s payload, hexit.trans he, ?_⟩
    rw [State.past] at hover ⊢
    rw [← hphase] at hover
    exact hover
  | other => exact ⟨rfl, he, hover⟩
  | exit => exact absurd rfl hexit
  | error => exact absurd rfl herror

lemma spawnError_closes (clock : ℕ → Instant) (s : State) (payload : Bytes) (reason : StopReason) :
    Closes cfg s.diary false (shutdown cfg clock (handleFrame cfg s .error payload) reason) :=
  shutdown_closed clock (s := handleFrame cfg s .error payload) (finishTracking_diary s _ _ _ _) rfl
    reason

lemma absorb_turns (he : s.exit = none) (hover : ¬s.past) (message : Message) :
    Turns cfg s (absorb cfg clock s message) (.message message) := by
  cases message with
  | exitStatus status =>
    refine .goes (by simp) (.inr ?_)
    exact finishCleanup_lost { s with exit := some (.shimExited status) } _ .transportLost
  | data tag payload =>
    by_cases hexit : tag = .exit
    · subst hexit
      obtain ⟨scope, confirmation, contained, hdiary⟩ := @handleExit_diary cfg s payload
      obtain ⟨exit, hsome⟩ := @handleExit_exit cfg s payload
      exact .exits (shutdown_closed clock hdiary hsome _)
    · by_cases herror : tag = .error
      · subst herror
        exact .goes (by simp) (.inr (spawnError_closes clock s payload _))
      · obtain ⟨hdiary, hnone, hgoing⟩ :=
          @handleFrame_goes cfg _ he hover _ hexit herror payload
        refine .goes (by simp [hexit]) (.inl ?_)
        rw [absorb, hnone]
        exact ⟨hdiary, hnone, hgoing⟩

lemma handleInfo_turns (he : s.exit = none) (hover : ¬s.past) (message : Message) :
    Turns cfg s (handleInfo cfg clock s message) (.message message) := by
  cases message with
  | exitStatus status =>
    refine .goes (by simp) (.inr ?_)
    exact shutdown_closed clock (s := { s.finishTracking cfg .unknown .transportLost none false with
      exit := some (.shimExited status) }) (finishTracking_diary s _ _ _ _) rfl _
  | data tag payload =>
    by_cases hexit : tag = .exit
    · subst hexit
      obtain ⟨scope, confirmation, contained, hdiary⟩ := @handleExit_diary cfg s payload
      obtain ⟨exit, hsome⟩ := @handleExit_exit cfg s payload
      exact .exits (shutdown_closed clock hdiary hsome _)
    · by_cases herror : tag = .error
      · subst herror
        exact .goes (by simp) (.inr (spawnError_closes clock s payload _))
      · obtain ⟨hdiary, hnone, hgoing⟩ :=
          @handleFrame_goes cfg _ he hover _ hexit herror payload
        refine .goes (by simp [hexit]) (.inl ?_)
        rw [handleInfo, hnone]
        exact ⟨hdiary, hnone, hgoing⟩

lemma awaitMessage_turns (he : s.exit = none) (reason : StopReason) (deadline : Instant)
    (message : Message) :
    Turns cfg s (awaitMessage cfg clock s reason deadline message) (.message message) := by
  cases message with
  | exitStatus status => exact .goes (by simp) (.inr (finishCleanup_lost s reason .transportLost))
  | data tag payload =>
    cases tag with
    | exit => exact .exits ⟨⟨reason, rfl⟩, _, _, _, finishTracking_diary s _ _ _ _⟩
    | error => exact .goes (by simp) (.inr (finishCleanup_lost s reason .notStarted))
    | spawned =>
      obtain ⟨hdiary, hexit, -⟩ := @recordIdentity_frame cfg s payload
      have h := @doAwaitExit_goes cfg clock _ (hexit.trans he) reason deadline
      rw [hdiary] at h
      exact .goes (by simp) h
    | tracked =>
      have hexit : (s.recordTracked cfg payload).exit = s.exit := (tell_kept s _ _).1
      have h := @doAwaitExit_goes cfg clock _ (hexit.trans he) reason deadline
      rw [recordTracked_diary] at h
      exact .goes (by simp) h
    | stdout => exact .goes (by simp) (doAwaitExit_goes he reason deadline)
    | stderr => exact .goes (by simp) (doAwaitExit_goes he reason deadline)
    | other => exact .goes (by simp) (doAwaitExit_goes he reason deadline)

lemma step_turns (h : step cfg clock s l = some t) (he : s.exit = none) (hover : ¬s.past) :
    Turns cfg s t l := by
  rw [step.eq_def] at h
  split at h
  · obtain rfl := Option.some.inj h
    exact absorb_turns he hover _
  · obtain rfl := Option.some.inj h
    exact .goes (by simp) (.inl ⟨rfl, he, by simp [State.past]⟩)
  · obtain rfl := Option.some.inj h
    exact .goes (by simp) (shutdown_goes he .readyTimeout)
  · obtain rfl := Option.some.inj h
    exact handleInfo_turns he hover _
  · obtain rfl := Option.some.inj h
    exact .goes (by simp) (shutdown_goes he .shutdown)
  · obtain rfl := Option.some.inj h
    exact awaitMessage_turns he _ _ _
  · obtain rfl := Option.some.inj h
    exact .goes (by simp) (doAwaitExit_goes he _ _)
  · cases h

lemma step_stopped (hover : s.past) (l : Label) : step cfg clock s l = none := by
  obtain ⟨reason, hp⟩ := hover
  rw [step.eq_def, hp]

lemma closes_chronicled {truncated : Bool} (hopen : Open cfg.trackObserver (heard cfg labels) d)
    (h : Closes cfg d truncated t)
    (hreport : ∀ payload, .message (.data .exit payload) ∈ labels →
      truncated = (d.tracking.truncated || d.tracking.groups.isEmpty ||
        (Shim.decodeMap (cfg.json payload)).isTrue "tracked_groups_truncated")) :
    Chronicled cfg labels t := by
  obtain ⟨hover, scope, confirmation, contained, hdiary⟩ := h
  obtain ⟨hclosed, -⟩ := hopen.finish scope confirmation contained truncated
  have htracking : t.tracking = (d.finish cfg.trackObserver scope confirmation contained
      truncated).tracking := congrArg Diary.tracking hdiary
  constructor
  · exact fun hgoing => absurd hover hgoing
  · intro _
    rw [hdiary]
    exact hclosed
  · intro _ payload hin
    have hexplained := hopen.explained (Shim.decodeMap (cfg.json payload)) scope confirmation contained
    rw [htracking, hreport payload hin]
    exact hexplained

lemma step_chronicled (h : Chronicled cfg labels s) (hs : step cfg clock s l = some t) :
    Chronicled cfg (labels ++ [l]) t := by
  have hover : ¬s.past := by
    intro hover
    cases (step_stopped hover l).symm.trans hs
  obtain ⟨hopen, he, hnone⟩ := h.going hover
  cases step_turns hs he hover with
  | @exits payload hcloses =>
    have hrecords := hopen.hear (.message (.data .exit payload))
    apply closes_chronicled hrecords hcloses
    intro payload' hin
    rcases List.mem_append.mp hin with hin | hin
    · exact absurd hin (hnone payload')
    · cases List.mem_singleton.mp hin
      exact report_truncated hopen.recorded.enabled
  | goes hl hgoes =>
    have hunreported := fun payload (hin : .message (.data .exit payload) ∈ labels ++ [l]) =>
      (List.mem_append.mp hin).elim (hnone payload)
        fun hin => hl payload (List.mem_singleton.mp hin).symm
    have hrecords := hopen.hear l
    rcases hgoes with ⟨hdiary, hexit, hgoing⟩ | hcloses
    · exact ⟨fun _ => ⟨hdiary ▸ hrecords, hexit, hunreported⟩, fun ht => absurd ht hgoing,
        fun ht => absurd ht hgoing⟩
    · apply closes_chronicled hrecords hcloses
      exact fun payload hin => absurd hin (hunreported payload)

lemma start_chronicled (htrack : cfg.trackDescendants = true) : Chronicled cfg [] (start cfg) := by
  have hdiary : (start cfg).diary = ⟨Tracking.new true, []⟩ := by
    rw [State.diary, start, htrack]
    rfl
  have hgoing : ¬(start cfg).past := by simp [State.past, start]
  refine ⟨fun _ => ⟨?_, rfl, by simp⟩, fun h => absurd h hgoing, fun h => absurd h hgoing⟩
  rw [hdiary]
  exact Open.new _

lemma run_chronicled (htrack : cfg.trackDescendants = true)
    (h : Transition.Run (fun s l t => step cfg clock s l = some t) (start cfg) labels t) :
    Chronicled cfg labels t :=
  h.history (fun _ _ _ _ hs hst => step_chronicled hs hst) (start_chronicled htrack)

end Forcola.Beam.Daemon
