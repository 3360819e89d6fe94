import Forcola.Beam.Run

/-! The hand-written readings of an EXIT report, side by side. -/

namespace Forcola.Beam

open Shim (ChildStatus ExitReport)

def isNull : Option Json → Bool
  | some .null => true
  | _ => false

def nullPartner (report : Json) : Bool :=
  match report.integer "status" 0, report.integer "signal" 1 with
  | some _, _ => isNull (report.get "signal")
  | none, some _ => isNull (report.get "status")
  | none, none => false

def scopeAndTruncation (report : Json) : Bool :=
  Tracking.scope report != .unknown && report.absentOrBoolean "tracked_groups_truncated"

namespace Run

def Outcome.result : Outcome → Option Result
  | .ok result | .stopped _ result | .shimExited result | .invalidExit result
  | .spawnPartial _ result => some result
  | .spawn _ => none

def Evidence.child (ev : Evidence) : Option ChildStatus :=
  match ev.childStatus, ev.childSignal with
  | some (.int status), none => some (.code status.toNat)
  | none, some (.int signal) => some (.signal signal.toNat)
  | _, _ => none

end Run

/-- One tracking history and one report, read by the untracked decoder, by the tracked one, by
`Forcola.run/2`, and by the modes that go through `Tracking.report/2`. -/
structure Agree (cfg : Run.Options) (a : Run.Acc) (report : Json) : Prop where
  status : (Shim.decodeExitReport (some report)).status = (a.tracking.reportMap report).status
  valid : scopeAndTruncation report = true →
    (Shim.decodeExitReport (some report)).valid = (a.tracking.reportMap report).valid
  child : ∀ r, (Run.finishReport cfg a report).1.result = some r →
    r.evidence.child = (a.tracking.report (some report)).status
  exit : scopeAndTruncation report = true →
    ∀ r, (Run.finishReport cfg a report).1.result = some r →
      (r.evidence.termination = .exit ↔ (a.tracking.report (some report)).valid = true)
  truncated : ∀ r, (Run.finishReport cfg a report).1.result = some r →
    r.trackedGroupsTruncated = (a.tracking.report (some report)).trackedGroupsTruncated

/-- No explicit `null` stands in for a missing key, and a tracked run that takes the report for
malformed has a history or is told that it is cut. -/
def Harmonious (t : Tracking) (report : Json) : Prop :=
  nullPartner report = false ∧
    (t.enabled = true → Run.validExit report = false →
      t.truncated = true ∨ t.groups ≠ [] ∨ report.isTrue "tracked_groups_truncated" = true)

variable {report : Json} {t : Tracking} {cfg : Run.Options} {a : Run.Acc}

lemma rawStatus_agree :
    Tracking.rawStatus report = Run.rawStatus report ↔ nullPartner report = false := by
  have hnull : ∀ (value : Option Json) (status : ChildStatus),
      ((if Tracking.nilOrNull value then some status else none) =
        if value.isNone then some status else none) ↔ isNull value = false := by
    intro value status
    cases value with
    | none => simp [Tracking.nilOrNull, isNull]
    | some j => cases j <;> simp [Tracking.nilOrNull, isNull]
  rw [Tracking.rawStatus, Run.rawStatus, Shim.observedStatus, Shim.observedStatus, nullPartner]
  cases report.integer "status" 0 with
  | some status => exact hnull _ _
  | none =>
    cases report.integer "signal" 1 with
    | some signal => exact hnull _ _
    | none => simp

lemma integer_get {key : String} {least n : ℕ} (h : report.integer key least = some n) :
    report.get key = some (.int n) ∧ least ≤ n := by
  rw [Json.integer] at h
  split at h
  · next value hget =>
    split at h
    · next hle =>
      obtain rfl := Option.some.inj h
      have hpos : 0 ≤ value := le_trans (Int.natCast_nonneg least) hle
      have hcast : ((value.toNat : ℕ) : ℤ) = value := Int.toNat_of_nonneg hpos
      rw [hget, hcast]
      refine ⟨rfl, ?_⟩
      omega
    · cases h
  · cases h

lemma Run.rawStatus_get {status : ChildStatus} (h : Run.rawStatus report = some status) :
    (∃ n : ℕ, status = .code n ∧ report.get "status" = some (.int n) ∧
        report.get "signal" = none) ∨
      ∃ n : ℕ, status = .signal n ∧ 0 < n ∧ report.get "signal" = some (.int n) ∧
        report.get "status" = none := by
  rw [Run.rawStatus, Shim.observedStatus] at h
  cases hstatus : report.integer "status" 0 with
  | some n =>
    rw [hstatus] at h
    obtain ⟨habsent, hcode⟩ := Option.ite_none_right_eq_some.mp h
    exact .inl ⟨n, (Option.some.inj hcode).symm, (integer_get hstatus).1,
      Option.isNone_iff_eq_none.mp habsent⟩
  | none =>
    rw [hstatus] at h
    cases hsignal : report.integer "signal" 1 with
    | some n =>
      rw [hsignal] at h
      obtain ⟨habsent, hsig⟩ := Option.ite_none_right_eq_some.mp h
      obtain ⟨hget, hpos⟩ := integer_get hsignal
      exact .inr ⟨n, (Option.some.inj hsig).symm, hpos, hget, Option.isNone_iff_eq_none.mp habsent⟩
    | none =>
      rw [hsignal] at h
      cases h

namespace Run

lemma finishReport_result (cfg : Options) (a : Acc) (report : Json) :
    ∃ r, (finishReport cfg a report).1.result = some r ∧
      r.evidence.child = rawStatus report ∧
      (r.evidence.termination = .exit ↔ validExit report = true) ∧
      r.trackedGroupsTruncated =
        (a.tracking.enabled && (a.tracking.truncated ||
          report.isTrue "tracked_groups_truncated" ||
          (validExit report && a.tracking.groups.isEmpty))) := by
  rw [finishReport]
  split
  · next hvalid =>
    refine ⟨result a ?_ (reportEvidence a report), ?_, ?_, ⟨fun _ => hvalid, fun _ => rfl⟩, ?_⟩
    rotate_left
    · dsimp only
      cases (reportEvidence a report).reason <;> rfl
    · obtain ⟨status, hstatus⟩ : ∃ status, rawStatus report = some status := by
        rw [validExit, Bool.and_eq_true] at hvalid
        exact Option.isSome_iff_exists.mp hvalid.1
      rw [hstatus]
      rcases rawStatus_get hstatus with ⟨n, rfl, hget, habsent⟩ | ⟨n, rfl, -, hget, habsent⟩
      all_goals simp [Evidence.child, result, reportEvidence, hget, habsent]
    · simp only [result, reportEvidence, hvalid]
      cases a.tracking.enabled with
      | false => rfl
      | true =>
        simp only [if_true, Tracking.reportMap, Bool.true_and]
        cases a.tracking.truncated <;> cases a.tracking.groups.isEmpty <;> simp
  · next hvalid =>
    have hinvalid : validExit report = false := by simpa using hvalid
    refine ⟨result a ?_ ?_, ?_, ?_, ?_, ?_⟩
    rotate_left 2
    · rw [malformed]
      cases a.reason <;> rfl
    · cases rawStatus report with
      | none => simp [Evidence.child, result, evidence]
      | some status => cases status <;> simp [Evidence.child, result, evidence]
    · rw [hinvalid]
      cases rawStatus report with
      | none => simp [result, evidence]
      | some status => cases status <;> simp [result, evidence]
    · rw [hinvalid]
      cases rawStatus report with
      | none => simp [result]
      | some status => cases status <;> simp [result]

end Run

lemma valid_agree (hstatus : Tracking.rawStatus report = Run.rawStatus report)
    (hfields : scopeAndTruncation report = true) :
    (t.reportMap report).valid = Run.validExit report := by
  rw [scopeAndTruncation, Bool.and_eq_true] at hfields
  obtain ⟨hscope, htruncation⟩ := hfields
  simp only [Tracking.reportMap, Run.validExit, hstatus, hscope, List.all_cons, List.all_nil,
    htruncation, Bool.and_true]
  cases report.absentOrBoolean "confirmed" <;> cases report.absentOrBoolean "timed_out" <;>
    cases report.absentOrBoolean "contained" <;> simp

/-- The readings agree exactly on harmonious reports. -/
theorem decoders_agree (cfg : Run.Options) (a : Run.Acc) (fields : List (String × Json)) :
    Agree cfg a (.object fields) ↔ Harmonious a.tracking (.object fields) := by
  generalize hreport : Json.object fields = report
  have hmap : Shim.decodeMap (some report) = report := by rw [← hreport, Shim.decodeMap]
  obtain ⟨r, hr, hchild, hexit, htruncated⟩ := Run.finishReport_result cfg a report
  have honly : ∀ r', (Run.finishReport cfg a report).1.result = some r' → r' = r := by
    intro r' hr'
    exact (Option.some.inj (hr.symm.trans hr')).symm
  have hshim : (Shim.decodeExitReport (some report)).status = Run.rawStatus report := by
    rw [Shim.decodeExitReport, hmap]
    rfl
  have hshimValid : (Shim.decodeExitReport (some report)).valid = Run.validExit report := by
    rw [Shim.decodeExitReport, hmap]
    rfl
  have huntracked : a.tracking.enabled = false →
      a.tracking.report (some report) = Shim.decodeExitReport (some report) := by
    intro h
    simp [Tracking.report, h]
  have htracked : a.tracking.enabled = true →
      a.tracking.report (some report) = a.tracking.reportMap report := by
    intro h
    simp [Tracking.report, h, hmap]
  constructor
  · intro h
    have hstatus : Tracking.rawStatus report = Run.rawStatus report := h.status.symm.trans hshim
    refine ⟨rawStatus_agree.mp hstatus, fun henabled hinvalid => ?_⟩
    have htr := h.truncated r hr
    rw [htruncated, htracked henabled, hinvalid, henabled] at htr
    simp only [Tracking.reportMap, Bool.true_and, Bool.false_and, Bool.or_false] at htr
    by_cases hempty : a.tracking.groups = []
    · simp only [hempty, List.isEmpty_nil, Bool.or_true, Bool.true_or, Bool.or_eq_true] at htr
      exact htr.imp_right .inr
    · exact .inr (.inl hempty)
  · rintro ⟨hpartner, hhistory⟩
    have hstatus : Tracking.rawStatus report = Run.rawStatus report := rawStatus_agree.mpr hpartner
    have hread : (a.tracking.report (some report)).status = Run.rawStatus report := by
      cases henabled : a.tracking.enabled with
      | false => rw [huntracked henabled, hshim]
      | true => rw [htracked henabled]; exact hstatus
    constructor
    · exact hshim.trans hstatus.symm
    · intro hfields
      exact hshimValid.trans (valid_agree hstatus hfields).symm
    · intro r' hr'
      rw [honly r' hr', hchild, hread]
    · intro hfields r' hr'
      rw [honly r' hr', hexit]
      cases henabled : a.tracking.enabled with
      | false => rw [huntracked henabled, hshimValid]
      | true => rw [htracked henabled, valid_agree hstatus hfields]
    · intro r' hr'
      rw [honly r' hr', htruncated]
      cases henabled : a.tracking.enabled with
      | false =>
        rw [huntracked henabled]
        rfl
      | true =>
        rw [htracked henabled]
        simp only [Tracking.reportMap, Bool.true_and]
        cases hvalid : Run.validExit report with
        | true =>
          cases a.tracking.truncated <;> cases a.tracking.groups.isEmpty <;> simp
        | false =>
          rcases hhistory henabled hvalid with h | h | h
          · simp [h]
          · have hnonempty : a.tracking.groups.isEmpty = false := by simpa using h
            simp [hnonempty]
          · simp [h]

def plainRun : Run.Options where
  json _ := none
  strict := false
  merge := false
  outputObserver := false
  maxOutputBytes := none
  idleTimeout := none
  cleanupMs := 5000
  identityEnabled := false
  structuredSpawnErrors := false
  trackDescendants := true
  trackObserver := false

/-- A report with explicit nulls is valid to a tracked client and malformed to the others. -/
theorem decoders_disagree :
    ¬Agree plainRun (Run.execute plainRun (fun _ => 0) 1000 none 0)
      (.object [("status", .int 0), ("signal", .null), ("confirmed", .bool true)]) := by
  intro h
  have hstatus := h.status
  revert hstatus
  decide

end Forcola.Beam
