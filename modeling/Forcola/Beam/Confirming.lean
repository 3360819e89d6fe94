import Forcola.Beam.Daemon
import Forcola.Beam.DuplexTerminal
import Forcola.Beam.ExitDecoders
import Forcola.Beam.Stream

/-! Which EXIT payloads can confirm a cleanup, in each of the four modes. -/

namespace Forcola.Beam

open Native (Bytes)
open Shim (ChildStatus ExitReport Scope)

def Missing (value : Option Json) : Prop :=
  value = none ∨ value = some .null

def OneObservation (report : Json) : Prop :=
  (∃ n : ℕ, report.get "status" = some (.int n) ∧ Missing (report.get "signal")) ∨
    ∃ n : ℕ, 0 < n ∧ report.get "signal" = some (.int n) ∧ Missing (report.get "status")

/-- What a payload has to say to confirm a cleanup. -/
structure Vouches (tracked : Bool) (report : Json) : Prop where
  observation : OneObservation report
  flags : ∀ key ∈ Shim.exitFlags, report.absentOrBoolean key = true
  truncation : tracked = true → report.absentOrBoolean "tracked_groups_truncated" = true
  scope : tracked = true →
    report.text "scope" = some "tree_contained" ∨ report.text "scope" = some "tree_sampled"
  confirmed : report.get "confirmed" = some (.bool true) ∨
    tracked = false ∧ report.get "confirmed" = none

def Vouched (tracked : Bool) (decoded : Option Json) : Prop :=
  ∃ fields, decoded = some (.object fields) ∧ Vouches tracked (.object fields)

variable {report : Json} {t : Tracking} {decoded : Option Json}

lemma isTrue_iff {key : String} : report.isTrue key = true ↔ report.get key = some (.bool true) := by
  rw [Json.isTrue]
  split <;> simp_all

lemma observedStatus_one {absent : Option Json → Bool} {status : ChildStatus}
    (habsent : ∀ value, absent value = true → Missing value)
    (h : Shim.observedStatus absent report = some status) : OneObservation report := by
  rw [Shim.observedStatus] at h
  cases hstatus : report.integer "status" 0 with
  | some n =>
    rw [hstatus] at h
    obtain ⟨hmissing, -⟩ := Option.ite_none_right_eq_some.mp h
    exact .inl ⟨n, (integer_get hstatus).1, habsent _ hmissing⟩
  | none =>
    rw [hstatus] at h
    cases hsignal : report.integer "signal" 1 with
    | some n =>
      rw [hsignal] at h
      obtain ⟨hmissing, -⟩ := Option.ite_none_right_eq_some.mp h
      obtain ⟨hget, hpos⟩ := integer_get hsignal
      exact .inr ⟨n, hpos, hget, habsent _ hmissing⟩
    | none =>
      rw [hsignal] at h
      cases h

lemma missing_of_isNone (value : Option Json) (h : value.isNone = true) : Missing value :=
  .inl (Option.isNone_iff_eq_none.mp h)

lemma missing_of_nilOrNull (value : Option Json) (h : Tracking.nilOrNull value = true) :
    Missing value := by
  cases value with
  | none => exact .inl rfl
  | some j =>
    cases j with
    | null => exact .inr rfl
    | _ => cases h

lemma scope_text (h : Tracking.scope report ≠ .unknown) :
    report.text "scope" = some "tree_contained" ∨ report.text "scope" = some "tree_sampled" := by
  rw [Tracking.scope] at h
  split at h
  · next htext => exact .inl htext
  · next htext => exact .inr htext
  · exact absurd rfl h

lemma reportMap_vouches (h : (t.reportMap report).confirmed = true) : Vouches true report := by
  simp only [Tracking.reportMap, Bool.and_eq_true, bne_iff_ne, List.all_cons, List.all_nil,
    Bool.and_true] at h
  obtain ⟨⟨⟨hstatus, hconfirmed, htimed, hcontained, houtput, htruncated⟩, hscope⟩, htrue⟩ := h
  obtain ⟨status, hstatus⟩ := Option.isSome_iff_exists.mp hstatus
  constructor
  · exact observedStatus_one missing_of_nilOrNull hstatus
  · intro key hkey
    simp only [Shim.exitFlags, List.mem_cons, List.not_mem_nil, or_false] at hkey
    rcases hkey with rfl | rfl | rfl | rfl <;> assumption
  · exact fun _ => htruncated
  · exact fun _ => scope_text hscope
  · exact .inl (isTrue_iff.mp htrue)

lemma decodeMap_vouches (h : (Shim.decodeExitReport decoded).confirmed = true) :
    Vouches false (Shim.decodeMap decoded) := by
  simp only [Shim.decodeExitReport, Bool.and_eq_true, Bool.or_eq_true] at h
  obtain ⟨⟨hstatus, hflags⟩, hconfirmed⟩ := h
  obtain ⟨status, hstatus⟩ := Option.isSome_iff_exists.mp hstatus
  constructor
  · exact observedStatus_one missing_of_isNone hstatus
  · exact List.all_eq_true.mp hflags
  · exact fun h => absurd h Bool.false_ne_true
  · exact fun h => absurd h Bool.false_ne_true
  · rcases hconfirmed with h | h
    · exact .inr ⟨rfl, Option.isNone_iff_eq_none.mp h⟩
    · exact .inl (isTrue_iff.mp h)

lemma vouched_of_map {tracked : Bool} (h : Vouches tracked (Shim.decodeMap decoded)) :
    Vouched tracked decoded := by
  rw [Shim.decodeMap.eq_def] at h
  split at h
  · next fields => exact ⟨fields, rfl, h⟩
  · rcases h.observation with ⟨n, hget, -⟩ | ⟨n, -, hget, -⟩ <;> cases hget

lemma report_vouched (h : (t.report decoded).confirmed = true) : Vouched t.enabled decoded := by
  apply vouched_of_map
  rw [Tracking.report] at h
  split at h
  · next henabled =>
    rw [henabled]
    exact reportMap_vouches h
  · next henabled =>
    have hdisabled : t.enabled = false := by simpa using henabled
    rw [hdisabled]
    exact decodeMap_vouches h

lemma confirmation_iff {r : ExitReport} : Tracking.confirmation r = .confirmed ↔ r.confirmed = true := by
  rw [Tracking.confirmation]
  split <;> simp_all

lemma status_child {r : ExitReport} {status : ChildStatus} (h : Tracking.status r = .child status) :
    r.confirmed = true := by
  rw [Tracking.status] at h
  split at h
  · assumption
  · cases h

lemma finish_confirmation {scope scope' : Scope} {confirmation confirmation' : Confirmation}
    {contained contained' : Option Bool} {truncated truncated' : Bool}
    (h : (t.finish scope confirmation contained truncated).2 =
      some (.exit scope' confirmation' contained' truncated')) : confirmation' = confirmation := by
  rw [Tracking.finish] at h
  split at h
  · cases h
  · cases h
    rfl

namespace Run

variable {cfg : Options} {a : Acc}

def Positive (a : Acc) (r : Outcome × Acc) : Prop :=
  (∃ res, r.1.result = some res ∧ (res.evidence.cleanup = .confirmed ∨ res.status ≠ .unconfirmed)) ∨
    ∃ scope contained truncated, .tell (.exit scope .confirmed contained truncated) ∈ r.2.log ∧
      .tell (.exit scope .confirmed contained truncated) ∉ a.log

lemma mem_finishTracking {scope : Scope} {confirmation : Confirmation} {contained : Option Bool}
    {truncated : Bool} {event : TrackingEvent}
    (h : .tell event ∈ (a.finishTracking cfg scope confirmation contained truncated).log) :
    .tell event ∈ a.log ∨
      (a.tracking.finish scope confirmation contained truncated).2 = some event :=
  Keeper.finishTracking_said (fun a : Acc => Effect.tell event ∈ a.log) (fun _ h => h)
    (fun _ _ h => (List.mem_cons.mp h).symm.imp_right fun h => (Effect.tell.inj h).symm) h

lemma flag_true {key : String} (h : flag report key = some true) :
    report.get key = some (.bool true) := by
  rw [flag, Shim.contained.eq_def] at h
  split at h
  · next value heq =>
    rw [heq, Option.some.inj h]
  · cases h

lemma flag_none {key : String} (hflag : report.absentOrBoolean key = true)
    (h : flag report key = none) : report.get key = none := by
  rw [flag, Shim.contained.eq_def] at h
  rw [Json.absentOrBoolean] at hflag
  split at hflag
  · next heq => exact heq
  · next value heq =>
    rw [heq] at h
    cases h
  · cases hflag

lemma untracked_vouches (hvalid : validExit report = true)
    (h : flag report "confirmed" = some true ∨ flag report "confirmed" = none) :
    Vouches false report := by
  rw [validExit, Bool.and_eq_true] at hvalid
  obtain ⟨hstatus, hflags⟩ := hvalid
  obtain ⟨status, hstatus⟩ := Option.isSome_iff_exists.mp hstatus
  have hall : ∀ key ∈ Shim.exitFlags, report.absentOrBoolean key = true :=
    List.all_eq_true.mp hflags
  constructor
  · exact observedStatus_one missing_of_isNone hstatus
  · exact hall
  · exact fun h => absurd h Bool.false_ne_true
  · exact fun h => absurd h Bool.false_ne_true
  · rcases h with h | h
    · exact .inl (flag_true h)
    · exact .inr ⟨rfl, flag_none (hall _ List.mem_cons_self) h⟩

lemma projectStatus_child {raw : Option ChildStatus} {confirmed : Option Bool} {strict : Bool}
    (h : projectStatus raw confirmed strict ≠ .unconfirmed) :
    confirmed = some true ∨ confirmed = none := by
  rw [projectStatus.eq_def] at h
  split at h
  · exact .inl rfl
  · exact .inr rfl
  · exact absurd rfl h

lemma reportEvidence_tracked (henabled : a.tracking.enabled = true)
    (h : (reportEvidence a report).cleanup = .confirmed) : Vouches true report := by
  apply reportMap_vouches (t := a.tracking)
  rw [reportEvidence, henabled] at h
  rw [← confirmation_iff]
  have h : cleanupOf (Tracking.confirmation (a.tracking.reportMap report)) = .confirmed := h
  rw [cleanupOf.eq_def] at h
  split at h
  · assumption
  · cases h

lemma reportEvidence_untracked (hdisabled : a.tracking.enabled = false)
    (h : (reportEvidence a report).cleanup = .confirmed) : flag report "confirmed" = some true := by
  rw [reportEvidence, hdisabled] at h
  simp only [Bool.false_eq_true, if_false] at h
  rw [confirmation.eq_def] at h
  split at h
  · assumption
  · cases h
  · cases h

lemma finishReport_vouches (h : Positive a (finishReport cfg a report)) :
    Vouches a.tracking.enabled report := by
  rw [finishReport] at h
  split at h
  · next hvalid =>
    have hcleanup : (reportEvidence a report).cleanup = .confirmed →
        Vouches a.tracking.enabled report := by
      intro hc
      cases henabled : a.tracking.enabled with
      | true => exact reportEvidence_tracked henabled hc
      | false => exact untracked_vouches hvalid (.inl (reportEvidence_untracked henabled hc))
    rcases h with ⟨res, hres, hpos⟩ | ⟨scope, contained, truncated, hin, hout⟩
    · have hr : res = result a (if a.tracking.enabled then
            projectStatus (rawStatus report)
              (some ((reportEvidence a report).cleanup == .confirmed)) true
          else projectStatus (rawStatus report) (flag report "confirmed") cfg.strict)
          (reportEvidence a report) := by
        dsimp only at hres
        split at hres <;> exact (Option.some.inj hres).symm
      subst hr
      rcases hpos with hpos | hpos
      · exact hcleanup hpos
      · cases henabled : a.tracking.enabled with
        | true =>
          rw [henabled] at hcleanup
          simp only [result, henabled, if_true] at hpos
          rcases projectStatus_child hpos with hc | hc
          · exact hcleanup (by simpa using hc)
          · cases hc
        | false =>
          simp only [result, henabled, Bool.false_eq_true, if_false] at hpos
          exact untracked_vouches hvalid (projectStatus_child hpos)
    · rcases mem_finishTracking hin with hin | hevent
      · exact absurd hin hout
      · have hconf := finish_confirmation hevent
        rw [observerConfirmation.eq_def] at hconf
        split at hconf
        · next hc => exact hcleanup hc
        · cases hconf
  · rcases h with ⟨res, hres, hpos⟩ | ⟨scope, contained, truncated, hin, hout⟩
    · simp only [malformed] at hres
      cases hraw : rawStatus report with
      | none =>
        simp only [hraw] at hres
        split at hres <;> cases hres <;> simp [result, evidence] at hpos
      | some status =>
        cases status <;> simp only [hraw] at hres <;> split at hres <;> cases hres <;>
          simp [result, evidence] at hpos
    · rcases mem_finishTracking hin with hin | hevent
      · exact absurd hin hout
      · cases finish_confirmation hevent

lemma finish_vouched {payload : Bytes} (h : Positive a (finish cfg a payload)) :
    Vouched a.tracking.enabled (cfg.json payload) := by
  apply vouched_of_map
  rw [finish] at h
  split at h
  · next fields hjson =>
    rw [hjson]
    exact finishReport_vouches h
  · next hjson =>
    have hempty : Shim.decodeMap (cfg.json payload) = .object [] := by
      rw [Shim.decodeMap.eq_def]
      split
      · next fields heq => exact absurd heq (hjson fields)
      · rfl
    rw [hempty]
    -- an unreadable payload is finished like an empty report
    apply @finishReport_vouches _ cfg _
    exact h

end Run

namespace Stream

variable {cfg : Options} {clock : ℕ → Instant} {s u : State} {payload : Bytes}

def Exit.Positive : Exit → Prop
  | .ok => True
  | .error e => e.confirmation = some .confirmed ∨ ∃ status, e.status = some (.child status)

def Positive (s u : State) : Prop :=
  (u.exit ≠ s.exit ∧ ∃ exit, u.exit = some exit ∧ exit.Positive) ∨
    ∃ scope contained truncated, .tell (.exit scope .confirmed contained truncated) ∈ u.log ∧
      .tell (.exit scope .confirmed contained truncated) ∉ s.log

lemma mem_finishTracking {scope : Scope} {confirmation : Confirmation} {contained : Option Bool}
    {truncated : Bool} {event : TrackingEvent}
    (h : .tell event ∈ (s.finishTracking cfg scope confirmation contained truncated).log) :
    .tell event ∈ s.log ∨
      (s.tracking.finish scope confirmation contained truncated).2 = some event :=
  Keeper.finishTracking_said (fun s : State => Effect.tell event ∈ s.log) (fun _ h => h)
    (fun _ _ h => (List.mem_cons.mp h).symm.imp_right fun h => (Effect.tell.inj h).symm) h

lemma keeps_exit : Keeper.Keeps fun s t : State => t.exit = s.exit where
  refl _ := rfl
  trans h k := k.trans h
  setTracking _ _ := rfl
  setIdentity _ _ := rfl
  tell _ _ := rfl
  spawned _ _ := rfl

lemma finishTracking_exit (s : State) (scope : Scope) (confirmation : Confirmation)
    (contained : Option Bool) (truncated : Bool) :
    (s.finishTracking cfg scope confirmation contained truncated).exit = s.exit :=
  keeps_exit.tracking s _ _

lemma told_confirmed {scope : Scope} {confirmation : Confirmation} {contained : Option Bool}
    {truncated : Bool} {scope' : Scope} {contained' : Option Bool} {truncated' : Bool}
    (hin : .tell (.exit scope' .confirmed contained' truncated') ∈
      (s.finishTracking cfg scope confirmation contained truncated).log)
    (hout : .tell (.exit scope' .confirmed contained' truncated') ∉ s.log) :
    confirmation = .confirmed := by
  rcases mem_finishTracking hin with hin | hevent
  · exact absurd hin hout
  · exact (finish_confirmation hevent).symm

lemma handleExit_confirmed (h : Positive s (handleExit cfg s payload)) :
    (s.tracking.report (cfg.json payload)).confirmed = true := by
  rw [handleExit] at h
  generalize s.tracking.report (cfg.json payload) = report at h ⊢
  rcases h with ⟨-, exit, hexit, hpos⟩ | ⟨scope, contained, truncated, hin, hout⟩
  · obtain rfl := Option.some.inj hexit
    split at hpos
    · next hstatus => exact status_child hstatus.1
    · rcases hpos with hpos | ⟨status, hpos⟩
      · exact confirmation_iff.mp (Option.some.inj hpos)
      · exact status_child (Option.some.inj hpos)
  · rcases List.mem_cons.mp hin with hin | hin
    · cases hin
    · exact confirmation_iff.mp (told_confirmed hin hout)

lemma conclude_confirmed {purpose : Purpose} {report : ExitReport}
    (h : Positive s (conclude cfg s purpose (.exit report))) : report.confirmed = true := by
  -- both errors carry the confirmation and the status of the report
  have herror : ∀ {e : Error}, e.confirmation = some (Tracking.confirmation report) →
      e.status = some (Tracking.status report) → (Exit.error e).Positive →
      report.confirmed = true := by
    intro e hconfirmation hstatus hpos
    rcases hpos with hpos | ⟨status, hpos⟩
    · exact confirmation_iff.mp (Option.some.inj (hconfirmation.symm.trans hpos))
    · exact status_child (Option.some.inj (hstatus.symm.trans hpos))
  cases purpose with
  | idle =>
    rcases h with ⟨-, exit, hexit, hpos⟩ | ⟨scope, contained, truncated, hin, hout⟩
    · obtain rfl := Option.some.inj hexit
      exact herror rfl rfl hpos
    · rcases List.mem_cons.mp hin with hin | hin
      · cases hin
      · exact confirmation_iff.mp (told_confirmed hin hout)
  | limit lines limit =>
    rcases h with ⟨-, exit, hexit, hpos⟩ | ⟨scope, contained, truncated, hin, hout⟩
    · obtain rfl := Option.some.inj hexit
      exact herror rfl rfl hpos
    · rcases List.mem_cons.mp hin with hin | hin
      · cases hin
      · exact confirmation_iff.mp (told_confirmed hin hout)
  | cleanup =>
    rcases h with ⟨hnew, -⟩ | ⟨scope, contained, truncated, hin, hout⟩
    · exact absurd (finishTracking_exit s _ _ _ _) hnew
    · exact confirmation_iff.mp (told_confirmed hin hout)

lemma step_vouched (hs : step cfg clock s (.message (.data .exit payload)) = some u)
    (h : Positive s u) : Vouched s.tracking.enabled (cfg.json payload) := by
  apply report_vouched
  rw [step.eq_def] at hs
  cases hp : s.phase with
  | receiving wait =>
    rw [hp] at hs
    obtain rfl := Option.some.inj hs
    exact handleExit_confirmed h
  | awaiting purpose deadline =>
    rw [hp] at hs
    obtain rfl := Option.some.inj hs
    exact conclude_confirmed h
  | _ =>
    rw [hp] at hs
    cases hs

end Stream

namespace Daemon

variable {cfg : Options} {clock : ℕ → Instant} {s u : State} {payload : Bytes}

def StopReason.Positive : StopReason → Prop
  | .normal | .exitStatus _ | .exitSignal (some _) => True
  | .exitedBeforeReady reason => reason.Positive
  | _ => False

def Positive (s u : State) : Prop :=
  (u.exit ≠ s.exit ∧ ∃ status timedOut, u.exit = some (.exit (.child status) timedOut)) ∨
    (∃ reason, u.phase = .stopped reason ∧ reason.Positive ∧
      ∀ deadline, s.phase ≠ .awaiting reason deadline) ∨
    ∃ scope contained truncated, .tell (.exit scope .confirmed contained truncated) ∈ u.log ∧
      .tell (.exit scope .confirmed contained truncated) ∉ s.log

lemma tell_frame (s : State) (event : Option TrackingEvent) :
    (s.tell cfg event).exit = s.exit ∧ (s.tell cfg event).tracking = s.tracking := by
  rcases @Keeper.notify_cases _ _ cfg.trackObserver s event with h | ⟨e, -, h⟩
  · rw [State.tell, h]
    exact ⟨rfl, rfl⟩
  · rw [State.tell, h]
    exact ⟨rfl, rfl⟩

lemma finishTracking_exit (s : State) (scope : Scope) (confirmation : Confirmation)
    (contained : Option Bool) (truncated : Bool) :
    (s.finishTracking cfg scope confirmation contained truncated).exit = s.exit :=
  (@tell_frame cfg { s with tracking := _ } _).1

lemma mem_finishTracking {scope : Scope} {confirmation : Confirmation} {contained : Option Bool}
    {truncated : Bool} {event : TrackingEvent}
    (h : .tell event ∈ (s.finishTracking cfg scope confirmation contained truncated).log) :
    .tell event ∈ s.log ∨
      (s.tracking.finish scope confirmation contained truncated).2 = some event :=
  Keeper.finishTracking_said (fun s : State => Effect.tell event ∈ s.log) (fun _ h => h)
    (fun _ _ h => (List.mem_cons.mp h).symm.imp_right fun h => (Effect.tell.inj h).symm) h

lemma told_confirmed {scope : Scope} {confirmation : Confirmation} {contained : Option Bool}
    {truncated : Bool} {scope' : Scope} {contained' : Option Bool} {truncated' : Bool}
    (hin : .tell (.exit scope' .confirmed contained' truncated') ∈
      (s.finishTracking cfg scope confirmation contained truncated).log) :
    .tell (.exit scope' .confirmed contained' truncated') ∈ s.log ∨ confirmation = .confirmed := by
  rcases mem_finishTracking hin with hin | hevent
  · exact .inl hin
  · exact .inr (finish_confirmation hevent).symm

lemma stopReason_positive {exit : Exit} (h : (stopReason exit).Positive) :
    ∃ status timedOut, exit = .exit (.child status) timedOut := by
  rw [stopReason.eq_def] at h
  split at h
  all_goals first | exact ⟨_, _, rfl⟩ | cases h

lemma shutdown_ended {exit : Exit} {reason : StopReason} (hexit : s.exit = some exit) :
    ∃ confirmation, confirmation ≠ .confirmed ∧ shutdown cfg clock s reason =
      { s.finishTracking cfg .unknown confirmation none false with phase := .stopped reason } := by
  rw [shutdown, hexit]
  cases exit with
  | spawnError e => exact ⟨.notStarted, by decide, rfl⟩
  | exit status timedOut => exact ⟨.transportLost, by decide, rfl⟩
  | shimExited status => exact ⟨.transportLost, by decide, rfl⟩

lemma ended_confirmed {reason : StopReason}
    (hreason : reason.Positive →
      ∃ status, Tracking.status (s.tracking.report (cfg.json payload)) = .child status)
    (h : Positive s (shutdown cfg clock (handleExit cfg s payload) reason)) :
    (s.tracking.report (cfg.json payload)).confirmed = true := by
  obtain ⟨confirmation, hconfirmation, hshutdown⟩ :=
    @shutdown_ended cfg clock (handleExit cfg s payload) _ reason rfl
  rw [hshutdown] at h
  rcases h with ⟨-, status, timedOut, hexit⟩ | ⟨reason', hphase, hpos, -⟩ |
    ⟨scope, contained, truncated, hin, hout⟩
  · have hstatus : (handleExit cfg s payload).exit = some (.exit (.child status) timedOut) :=
      (finishTracking_exit _ _ _ _ _).symm.trans hexit
    exact status_child (Exit.exit.inj (Option.some.inj hstatus)).1
  · obtain rfl := Phase.stopped.inj hphase
    obtain ⟨status, hstatus⟩ := hreason hpos
    exact status_child hstatus
  · rcases told_confirmed hin with hin | hconf
    · rcases told_confirmed hin with hin | hconf
      · exact absurd hin hout
      · exact confirmation_iff.mp hconf
    · exact absurd hconf hconfirmation

lemma step_vouched (hs : step cfg clock s (.message (.data .exit payload)) = some u)
    (h : Positive s u) : Vouched s.tracking.enabled (cfg.json payload) := by
  apply report_vouched
  rw [step.eq_def] at hs
  cases hp : s.phase with
  | starting =>
    rw [hp] at hs
    obtain rfl := Option.some.inj hs
    apply @ended_confirmed _ clock _ _ _ _ h
    intro hpos
    obtain ⟨status, timedOut, hexit⟩ := @stopReason_positive (.exit _ _) hpos
    exact ⟨status, (Exit.exit.inj hexit).1⟩
  | running =>
    rw [hp] at hs
    obtain rfl := Option.some.inj hs
    apply @ended_confirmed _ clock _ _ _ _ h
    intro hpos
    obtain ⟨status, timedOut, hexit⟩ := @stopReason_positive (.exit _ _) hpos
    exact ⟨status, (Exit.exit.inj hexit).1⟩
  | awaiting reason deadline =>
    rw [hp] at hs
    obtain rfl := Option.some.inj hs
    rcases h with ⟨hnew, -⟩ | ⟨reason', hphase, -, hnew⟩ | ⟨scope, contained, truncated, hin, hout⟩
    · exact absurd (finishTracking_exit _ _ _ _ _) hnew
    · obtain rfl := Phase.stopped.inj hphase
      exact absurd hp (hnew deadline)
    · rcases told_confirmed hin with hin | hconf
      · exact absurd hin hout
      · exact confirmation_iff.mp hconf
  | stopped reason =>
    rw [hp] at hs
    cases hs

end Daemon

namespace Duplex

variable {cfg : Options} {s t u : State} {payload : Bytes}

/-- What a caller, the owner, an observer or a recipient can take for a confirmed cleanup. -/
def Effect.Positive : Effect → Prop
  | .recvReply _ (.done terminal) | .published terminal | .recipient terminal =>
    terminal.confirmation = .confirmed
  | .owner (.exit (.child _)) => True
  | .observer (.exit _ confirmation _ _) => confirmation = .confirmed
  | _ => False

def Adds (P : Effect → Prop) (s t : State) : Prop :=
  ∀ effect, .did effect ∈ t.log → .did effect ∈ s.log ∨ P effect

def Positive (s u : State) : Prop :=
  (u.exit ≠ s.exit ∧ ∃ ended, u.exit = some ended ∧
      (ended.terminal.confirmation = .confirmed ∨ ∃ status, ended.status = .child status)) ∨
    (u.phase ≠ s.phase ∧ ∃ terminal, u.phase = .closing terminal ∧
      terminal.confirmation = .confirmed) ∨
    ¬Adds (fun effect => ¬effect.Positive) s u

lemma Adds.trans {P : Effect → Prop} (h : Adds P s t) (k : Adds P t u) : Adds P s u := by
  intro effect hin
  rcases k effect hin with hin | hp
  · exact h effect hin
  · exact .inr hp

lemma adds_of_log {P : Effect → Prop} (h : t.log = s.log) : Adds P s t := by
  intro effect hin
  rw [h] at hin
  exact .inl hin

lemma positive_hear {entry : Entry} (hentry : ∀ effect, entry ≠ .did effect)
    (h : Positive s u) : Positive (s.hear entry) u := by
  rcases h with h | h | h
  · exact .inl h
  · exact .inr (.inl h)
  · refine .inr (.inr fun hadds => h (Adds.trans (fun effect hin => ?_) hadds))
    rcases List.mem_append.mp hin with hin | hin
    · exact .inl hin
    · exact absurd (List.mem_singleton.mp hin).symm (hentry effect)

lemma adds_tell {P : Effect → Prop} {effects : List Effect} (h : ∀ e ∈ effects, P e) :
    Adds P s (s.tell effects) := by
  intro effect hin
  rcases List.mem_append.mp hin with hin | hin
  · exact .inl hin
  · obtain ⟨e, he, heq⟩ := List.mem_map.mp hin
    cases heq
    exact .inr (h _ he)

lemma finishTracking_adds {terminal : Terminal} (h : terminal.confirmation ≠ .confirmed) :
    Adds (fun effect => ¬effect.Positive) s (finishTracking cfg s terminal) := by
  rw [finishTracking]
  split
  · apply adds_tell
    intro e he
    obtain ⟨event, hevent, rfl⟩ := List.mem_map.mp he
    cases event with
    | tracked identity => exact id
    | exit scope confirmation contained truncated =>
      have hconf := finish_confirmation (Option.mem_toList.mp hevent)
      exact fun hpos => h (hconf.symm.trans hpos)
  · exact adds_of_log rfl

lemma partials_adds (lines : List Line) :
    ∀ e ∈ lines.map (fun line => Effect.owner (.line line)), ¬e.Positive := by
  intro e he
  obtain ⟨line, -, rfl⟩ := List.mem_map.mp he
  exact id

lemma flushBuffers_adds : Adds (fun effect => ¬effect.Positive) s (flushBuffers cfg s) := by
  rw [flushBuffers]
  split
  · exact adds_of_log rfl
  · exact adds_tell (partials_adds _)

lemma failPending_adds {reply : SendReply} :
    Adds (fun effect => ¬effect.Positive) s (s.failPending reply) := by
  apply adds_tell
  intro e he
  obtain ⟨entry, -, rfl⟩ := List.mem_map.mp he
  exact id

lemma notifyExit_adds {status : ExitStatus} (h : ∀ child, status ≠ .child child) :
    Adds (fun effect => ¬effect.Positive) s (notifyExit cfg s status) := by
  rw [notifyExit]
  split
  · exact adds_of_log rfl
  · apply adds_tell
    intro e he
    obtain rfl := List.mem_singleton.mp he
    cases status with
    | child child => exact absurd rfl (h child)
    | _ => exact id

lemma replyPullWaiter_adds
    (h : ∀ ended, s.exit = some ended → ended.terminal.confirmation ≠ .confirmed) :
    Adds (fun effect => ¬effect.Positive) s (replyPullWaiter cfg s) := by
  rcases replyPullWaiter_cases cfg s with ⟨heq, -⟩ | ⟨waiter, line, queue, -, -, -, heq⟩ |
    ⟨waiter, ended, -, -, -, hended, heq⟩
  · exact adds_of_log (by rw [heq])
  · rw [heq]
    apply adds_tell
    intro e he
    obtain rfl := List.mem_singleton.mp he
    exact id
  · rw [heq]
    apply adds_tell
    intro e he
    obtain rfl := List.mem_singleton.mp he
    exact h ended hended

lemma reportStatus_child {r : ExitReport} {status : ChildStatus}
    (h : reportStatus r = .child status) : r.confirmed = true := by
  rw [reportStatus.eq_def] at h
  split at h
  · assumption
  · cases h

lemma exitTerminal_confirmed {r : ExitReport} {cause : Cause} {tracking : Tracking}
    (h : r.confirmed ≠ true) : (exitTerminal r cause tracking).confirmation ≠ .confirmed := by
  rw [exitTerminal]
  simp [h]

lemma childExited_exit (cfg : Options) (s : State) (payload : Bytes) :
    (childExited cfg s payload).exit = some
      ⟨reportStatus (s.tracking.report (cfg.json payload)),
        exitTerminal (s.tracking.report (cfg.json payload)) .childExit s.tracking⟩ := by
  rw [childExited]
  exact (replyPullWaiter_frame cfg _).2

lemma childExited_phase (cfg : Options) (s : State) (payload : Bytes) :
    (childExited cfg s payload).phase = s.phase := by
  obtain ⟨queue, waiter, log, h⟩ := replyPullWaiter_eq cfg
    (({ notifyExit cfg (flushBuffers cfg (finishTracking cfg s
        (exitTerminal (s.tracking.report (cfg.json payload)) .childExit s.tracking)))
        (reportStatus (s.tracking.report (cfg.json payload))) with
      exit := some ⟨reportStatus (s.tracking.report (cfg.json payload)),
        exitTerminal (s.tracking.report (cfg.json payload)) .childExit s.tracking⟩ }).failPending
        .closed)
  have hflush : ∀ t : State, (flushBuffers cfg t).phase = t.phase := by
    intro t
    rw [flushBuffers]
    split <;> rfl
  rw [childExited, h]
  exact (notifyExit_aside cfg _ _).phase.trans
    ((hflush _).trans (finishTracking_aside cfg s _).phase)

lemma childExited_adds (h : (s.tracking.report (cfg.json payload)).confirmed ≠ true) :
    Adds (fun effect => ¬effect.Positive) s (childExited cfg s payload) := by
  have hterminal := @exitTerminal_confirmed _ (.childExit) s.tracking h
  have hfinish := @finishTracking_adds cfg s _ hterminal
  have hflush : ∀ t, Adds (fun effect => ¬effect.Positive) t (flushBuffers cfg t) :=
    fun t => flushBuffers_adds
  have hnotify : ∀ t, Adds (fun effect => ¬effect.Positive) t
      (notifyExit cfg t (reportStatus (s.tracking.report (cfg.json payload)))) :=
    fun t => notifyExit_adds fun child hchild => h (reportStatus_child hchild)
  rw [childExited]
  refine hfinish.trans ((hflush _).trans ((hnotify _).trans ?_))
  refine Adds.trans failPending_adds (replyPullWaiter_adds ?_)
  intro ended hended
  obtain rfl := Option.some.inj hended
  exact hterminal

lemma afterFrame_exit (s : State) :
    (afterFrame cfg s).exit = s.exit ∧ (afterFrame cfg s).log = s.log := by
  rw [afterFrame]
  split
  · exact ⟨rfl, rfl⟩
  · split
    · exact ⟨rfl, rfl⟩
    · split <;> exact ⟨rfl, rfl⟩

lemma handleData_confirmed
    (h : Positive s (handleData cfg s .exit payload)) :
    (s.tracking.report (cfg.json payload)).confirmed = true := by
  by_contra hr
  obtain ⟨hexit, hlog⟩ := @afterFrame_exit cfg (childExited cfg s payload)
  rcases h with ⟨-, ended, hended, hpos⟩ | ⟨hnew, terminal, hphase, -⟩ | h
  · have hended : (childExited cfg s payload).exit = some ended := hexit.symm.trans hended
    rw [childExited_exit] at hended
    obtain rfl := Option.some.inj hended
    rcases hpos with hpos | ⟨status, hpos⟩
    · exact exitTerminal_confirmed hr hpos
    · exact hr (reportStatus_child hpos)
  · rcases afterFrame_phase cfg (childExited cfg s payload) with hp | hp
    · exact hnew (hp.trans (childExited_phase cfg s payload))
    · cases hphase.symm.trans hp
  · exact h ((childExited_adds hr).trans (adds_of_log hlog))

lemma conclude_confirmed {r : ExitReport} (h : Positive s (conclude cfg s (.exit r))) :
    r.confirmed = true := by
  by_contra hr
  have hterminal := @exitTerminal_confirmed _ s.shutdownCause s.tracking hr
  rcases h with ⟨hnew, -⟩ | ⟨-, terminal, hphase, hpos⟩ | h
  · exact hnew (finishTracking_aside cfg s _).exit
  · have heq : finishOutputEvidence cfg (exitTerminal r s.shutdownCause s.tracking) s = terminal :=
      Phase.closing.inj hphase
    have hconf : terminal.confirmation =
        (exitTerminal r s.shutdownCause s.tracking).confirmation := by
      rw [← heq, finishOutputEvidence]
      split
      · rfl
      · split
        · split <;> rfl
        · rfl
    exact hterminal (hconf.symm.trans hpos)
  · exact h (finishTracking_adds hterminal)

def Takes (payload : Bytes) (label : Label) : Prop :=
  (∃ answers, label = .message (.port (.data .exit payload)) answers) ∨
    label = .await (.data .exit payload) ∨ label = .drain (.data .exit payload)

lemma step_vouched {label : Label} (ht : Takes payload label) (hs : step cfg s label = some u)
    (h : Positive s u) : Vouched s.tracking.enabled (cfg.json payload) := by
  apply report_vouched
  rw [step.eq_def] at hs
  rcases ht with ⟨answers, rfl⟩ | rfl | rfl
  · cases hp : s.phase with
    | running =>
      rw [hp] at hs
      obtain rfl := Option.some.inj hs
      exact handleData_confirmed (s := s.hear (.handled (.port (.data .exit payload))))
        (positive_hear (by simp) h)
    | _ =>
      rw [hp] at hs
      cases hs
  · cases hp : s.phase with
    | awaiting =>
      rw [hp] at hs
      obtain rfl := Option.some.inj hs
      exact conclude_confirmed (s := s.hear (.awaited (.data .exit payload)))
        (positive_hear (by simp) h)
    | _ =>
      rw [hp] at hs
      cases hs
  · cases hp : s.phase with
    | closing terminal =>
      rw [hp] at hs
      obtain rfl := Option.some.inj hs
      -- a drained frame is heard and nothing else
      rcases @positive_hear _ _ (.drained (.data .exit payload)) (by simp) h with
        ⟨hnew, -⟩ | ⟨hnew, -⟩ | hnew
      · exact absurd rfl hnew
      · exact absurd rfl hnew
      · exact absurd (adds_of_log rfl) hnew
    | _ =>
      rw [hp] at hs
      cases hs

end Duplex

def Observes (report : Json) : ChildStatus → Prop
  | .code n => report.get "status" = some (.int n) ∧ report.get "signal" = none
  | .signal n => 0 < n ∧ report.get "signal" = some (.int n) ∧ report.get "status" = none

lemma observedStatus_of {absent : Option Json → Bool} {status : ChildStatus}
    (habsent : absent none = true) (h : Observes report status) :
    Shim.observedStatus absent report = some status := by
  cases status with
  | code n =>
    obtain ⟨hstatus, hsignal⟩ := h
    simp [Shim.observedStatus, Json.integer, hstatus, hsignal, habsent]
  | signal n =>
    obtain ⟨hpos, hsignal, hstatus⟩ := h
    have hle : (1 : ℤ) ≤ n := by exact_mod_cast hpos
    simp [Shim.observedStatus, Json.integer, hstatus, hsignal, habsent, hle]

lemma report_observed {fields : List (String × Json)} {status : ChildStatus}
    (h : Observes (.object fields) status) :
    (t.report (some (.object fields))).status = some status := by
  rw [Tracking.report]
  split
  · exact observedStatus_of rfl h
  · exact observedStatus_of rfl h

lemma Run.finish_observed {cfg : Run.Options} {a : Run.Acc} {payload : Bytes}
    {fields : List (String × Json)} {status : ChildStatus}
    (hjson : cfg.json payload = some (.object fields)) (h : Observes (.object fields) status) :
    ∃ r, (Run.finish cfg a payload).1.result = some r ∧ r.evidence.child = some status := by
  obtain ⟨r, hr, hchild, -⟩ := Run.finishReport_result cfg a (.object fields)
  rw [Run.finish, hjson]
  exact ⟨r, hr, hchild.trans (observedStatus_of rfl h)⟩

lemma Duplex.finishOutputEvidence_status (cfg : Duplex.Options) (terminal : Duplex.Terminal)
    (s : Duplex.State) : (Duplex.finishOutputEvidence cfg terminal s).status = terminal.status := by
  rw [Duplex.finishOutputEvidence]
  split
  · rfl
  · split
    · split <;> rfl
    · rfl

/-- Positive evidence comes only from a payload that vouches for it, in every mode; a child status
or signal that is well formed is kept whatever the rest of the report looks like. -/
theorem confirmation_vouched (payload : Bytes) :
    (∀ cfg a, Run.Positive a (Run.finish cfg a payload) →
      Vouched a.tracking.enabled (cfg.json payload)) ∧
    (∀ cfg clock s u, Stream.step cfg clock s (.message (.data .exit payload)) = some u →
      Stream.Positive s u → Vouched s.tracking.enabled (cfg.json payload)) ∧
    (∀ cfg clock s u, Daemon.step cfg clock s (.message (.data .exit payload)) = some u →
      Daemon.Positive s u → Vouched s.tracking.enabled (cfg.json payload)) ∧
    (∀ cfg s u label, Duplex.Takes payload label → Duplex.step cfg s label = some u →
      Duplex.Positive s u → Vouched s.tracking.enabled (cfg.json payload)) ∧
    ∀ fields status, Observes (.object fields) status →
      (∀ cfg : Run.Options, cfg.json payload = some (.object fields) → ∀ a,
        ∃ r, (Run.finish cfg a payload).1.result = some r ∧ r.evidence.child = some status) ∧
      ∀ cfg : Duplex.Options, cfg.json payload = some (.object fields) → ∀ s : Duplex.State,
        (∃ ended, (Duplex.childExited cfg s payload).exit = some ended ∧
          ended.terminal.status = some status) ∧
        ∃ terminal, (Duplex.conclude cfg s
            (.exit (s.tracking.report (cfg.json payload)))).phase = .closing terminal ∧
          terminal.status = some status := by
  refine ⟨fun cfg a h => Run.finish_vouched h, fun cfg clock s u hs h => Stream.step_vouched hs h,
    fun cfg clock s u hs h => Daemon.step_vouched hs h,
    fun cfg s u label ht hs h => Duplex.step_vouched ht hs h, fun fields status h => ⟨?_, ?_⟩⟩
  · intro cfg hjson a
    exact Run.finish_observed hjson h
  · intro cfg hjson s
    constructor
    · refine ⟨_, Duplex.childExited_exit cfg s payload, ?_⟩
      rw [hjson]
      exact report_observed h
    · refine ⟨_, rfl, ?_⟩
      rw [Duplex.finishOutputEvidence_status, hjson]
      exact report_observed h

def cleanRun : Run.Options :=
  { plainRun with
    json := fun _ => some (.object [("status", .int 0), ("scope", .string "tree_contained"),
      ("confirmed", .bool true)]) }

theorem confirmation_vouched_clean : Vouched true (cleanRun.json []) :=
  (confirmation_vouched []).1 cleanRun (Run.execute cleanRun (fun _ => 0) 1000 none 0)
    (.inl ⟨_, rfl, .inl rfl⟩)

end Forcola.Beam
