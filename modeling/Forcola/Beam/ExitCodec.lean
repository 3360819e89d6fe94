import Forcola.Beam.GroupsReply
import Forcola.Beam.Tracking
import Forcola.Native.Supervisor

/-! EXIT reports on the wire: what the shim writes, and what each decoder makes of it. -/

namespace Forcola.Beam

open Library JsonText
open Native (Bytes)
open Native.ProcStat (encode)
open Shim (ChildStatus)

namespace ExitCodec

abbrev Report := Native.Supervisor.ExitReport

def scopeName : Native.Supervisor.Scope → String
  | .treeContained => "tree_contained"
  | .treeSampled => "tree_sampled"

structure Field where
  key : String
  text : List Char
  value : Json

def intField (key : String) (n : ℤ) : Field := ⟨key, intText n, .int n⟩

def boolField (key : String) (b : Bool) : Field := ⟨key, boolText b, .bool b⟩

def stringField (key s : String) : Field := ⟨key, quoted .lower s.toList, .string s⟩

def fields (r : Report) : List Field :=
  (r.status.map (intField "status")).toList ++ (r.signal.map (intField "signal")).toList ++
    [boolField "timed_out" r.timedOut, boolField "confirmed" r.confirmed,
      boolField "contained" r.contained, boolField "output_truncated" r.outputTruncated] ++
    (r.scope.map fun scope => stringField "scope" (scopeName scope)).toList ++
    (r.trackedGroupsTruncated.map (boolField "tracked_groups_truncated")).toList

def json (r : Report) : Json :=
  .object ((fields r).map fun f => (f.key, f.value))

/-- What is taken of `serde_json::to_vec`: the text of a report stands for its fields. -/
def Writes (write : Report → Bytes) : Prop :=
  ∀ r, decodeJson (write r) = some (json r)

def compact (r : Report) : Bytes :=
  encode (objectText .lower ((fields r).map fun f => (f.key.toList, f.text)))

def Field.Sound (f : Field) : Prop :=
  ReadsItem Json.builder f.text f.value

lemma intField_sound (key : String) (n : ℤ) : (intField key n).Sound :=
  ReadsItem.int n

lemma boolField_sound (key : String) (b : Bool) : (boolField key b).Sound :=
  (Reads.bool b).item

lemma stringField_sound (key s : String) : (stringField key s).Sound :=
  (GroupsReply.reads_string _ s).item

lemma fields_sound (r : Report) : ∀ f ∈ fields r, f.Sound := by
  have hoption : ∀ {α : Type} (o : Option α) (g : α → Field), (∀ a, (g a).Sound) →
      ∀ f ∈ (o.map g).toList, f.Sound := by
    intro α o g hg f hf
    obtain ⟨a, -, rfl⟩ := Option.map_eq_some_iff.mp (Option.mem_toList.mp hf)
    exact hg a
  simp only [fields, List.forall_mem_append, List.forall_mem_cons]
  refine ⟨⟨⟨⟨?_, ?_⟩, ?_⟩, ?_⟩, ?_⟩
  · exact hoption _ _ (intField_sound _)
  · exact hoption _ _ (intField_sound _)
  · exact ⟨boolField_sound _ _, boolField_sound _ _, boolField_sound _ _, boolField_sound _ _,
      fun f hf => absurd hf List.not_mem_nil⟩
  · exact hoption _ _ fun scope => stringField_sound _ _
  · exact hoption _ _ (boolField_sound _)

lemma decodeJson_fields {w : Letters} {fs : List Field} (h : ∀ f ∈ fs, f.Sound) :
    decodeJson (encode (objectText w (fs.map fun f => (f.key.toList, f.text)))) =
      some (.object (fs.map fun f => (f.key, f.value))) := by
  have hmembers : ReadMembers Json.builder (fs.map fun f => (f.key.toList, f.text))
      (fs.map fun f => (f.key.toList, f.value)) := by
    rw [ReadMembers, List.forall₂_map_left_iff, List.forall₂_map_right_iff]
    exact List.forall₂_same.mpr fun f hf => ⟨rfl, h f hf⟩
  have hvalue : Json.builder.object (fs.map fun f => (f.key.toList, f.value)) =
      .object (fs.map fun f => (f.key, f.value)) := by
    simp [Json.builder, Function.comp_def]
  rw [decodeJson, Native.ProcStat.fromUtf8_encode, Option.bind_some,
    (ReadsItem.object hmembers).decode, hvalue]

lemma compact_writes : Writes compact :=
  fun r => decodeJson_fields (fields_sound r)

lemma get_status (r : Report) : (json r).get "status" = r.status.map .int := by
  obtain ⟨_ | status, _ | signal, _, _, _, _, _ | scope, _ | truncated⟩ := r <;> rfl

lemma get_signal (r : Report) : (json r).get "signal" = r.signal.map .int := by
  obtain ⟨_ | status, _ | signal, _, _, _, _, _ | scope, _ | truncated⟩ := r <;> rfl

lemma get_flags (r : Report) : (json r).get "timed_out" = some (.bool r.timedOut) ∧
    (json r).get "confirmed" = some (.bool r.confirmed) ∧
    (json r).get "contained" = some (.bool r.contained) ∧
    (json r).get "output_truncated" = some (.bool r.outputTruncated) := by
  obtain ⟨_ | status, _ | signal, _, _, _, _, _ | scope, _ | truncated⟩ := r <;>
    exact ⟨rfl, rfl, rfl, rfl⟩

lemma get_scope (r : Report) :
    (json r).get "scope" = r.scope.map fun scope => .string (scopeName scope) := by
  obtain ⟨_ | status, _ | signal, _, _, _, _, _ | scope, _ | truncated⟩ := r <;> rfl

lemma get_truncated (r : Report) :
    (json r).get "tracked_groups_truncated" = r.trackedGroupsTruncated.map .bool := by
  obtain ⟨_ | status, _ | signal, _, _, _, _, _ | scope, _ | truncated⟩ := r <;> rfl

def childStatus (r : Report) : Option ChildStatus :=
  match r.status, r.signal with
  | some status, none => if 0 ≤ status then some (.code status.toNat) else none
  | none, some signal => if 1 ≤ signal then some (.signal signal.toNat) else none
  | _, _ => none

def scopeRead : Native.Supervisor.Scope → Shim.Scope
  | .treeContained => .treeContained
  | .treeSampled => .treeSampled

def reading (t : Tracking) (r : Report) : Shim.ExitReport :=
  let known := (childStatus r).isSome
  if t.enabled then
    { valid := known && r.scope.isSome
      status := childStatus r
      confirmed := known && r.scope.isSome && r.confirmed
      scope := (r.scope.map scopeRead).getD .unknown
      timedOut := r.timedOut
      contained := some r.contained
      trackedGroupsTruncated :=
        t.truncated || t.groups.isEmpty || r.trackedGroupsTruncated.getD false
      outputTruncated := r.outputTruncated }
  else
    { valid := known
      status := childStatus r
      confirmed := known && r.confirmed
      scope := if !known then .unknown else if r.contained then .activeCgroup else .processGroup
      timedOut := r.timedOut
      contained := some r.contained
      trackedGroupsTruncated := false
      outputTruncated := r.outputTruncated }

lemma isTrue_bool {j : Json} {key : String} {b : Bool} (h : j.get key = some (.bool b)) :
    j.isTrue key = b := by
  rw [Json.isTrue, h]
  cases b <;> rfl

lemma absentOrBoolean_bool {j : Json} {key : String} {b : Bool}
    (h : j.get key = some (.bool b)) : j.absentOrBoolean key = true := by
  rw [Json.absentOrBoolean, h]

lemma observedStatus_json {absent : Option Json → Bool} (hnone : absent none = true)
    (hint : ∀ n, absent (some (.int n)) = false) (r : Report) :
    Shim.observedStatus absent (json r) = childStatus r := by
  rw [Shim.observedStatus, Json.integer, Json.integer, get_status, get_signal, childStatus]
  cases r.status with
  | none =>
    cases r.signal with
    | none => rfl
    | some signal => by_cases h : 1 ≤ signal <;> simp [h, hnone]
  | some status =>
    cases r.signal with
    | none => by_cases h : 0 ≤ status <;> simp [h, hnone]
    | some signal =>
      by_cases h : 0 ≤ status <;> by_cases h' : 1 ≤ signal <;> simp [h, h', hint]

lemma rawExitStatus_json (r : Report) : Shim.rawExitStatus (json r) = childStatus r :=
  observedStatus_json rfl (fun _ => rfl) r

lemma rawStatus_json (r : Report) : Tracking.rawStatus (json r) = childStatus r :=
  observedStatus_json rfl (fun _ => rfl) r

lemma exitFlags_json (r : Report) : Shim.exitFlags.all (json r).absentOrBoolean = true := by
  obtain ⟨htimed, hconfirmed, hcontained, houtput⟩ := get_flags r
  simp [Shim.exitFlags, absentOrBoolean_bool htimed, absentOrBoolean_bool hconfirmed,
    absentOrBoolean_bool hcontained, absentOrBoolean_bool houtput]

lemma truncated_json (r : Report) :
    (json r).absentOrBoolean "tracked_groups_truncated" = true ∧
      (json r).isTrue "tracked_groups_truncated" = r.trackedGroupsTruncated.getD false := by
  rw [Json.absentOrBoolean, Json.isTrue, get_truncated]
  cases r.trackedGroupsTruncated with
  | none => exact ⟨rfl, rfl⟩
  | some b => cases b <;> exact ⟨rfl, rfl⟩

lemma scope_json (r : Report) :
    Tracking.scope (json r) = (r.scope.map scopeRead).getD .unknown ∧
      (Tracking.scope (json r) != .unknown) = r.scope.isSome := by
  rw [Tracking.scope, Json.text, get_scope]
  cases r.scope with
  | none => exact ⟨rfl, rfl⟩
  | some scope => cases scope <;> exact ⟨rfl, rfl⟩

lemma decodeExitReport_json (r : Report) (t : Tracking) (ht : t.enabled = false) :
    Shim.decodeExitReport (some (json r)) = reading t r := by
  obtain ⟨htimed, hconfirmed, hcontained, houtput⟩ := get_flags r
  have hmap : Shim.decodeMap (some (json r)) = json r := rfl
  rw [Shim.decodeExitReport, hmap, rawExitStatus_json, exitFlags_json, hconfirmed, hcontained,
    isTrue_bool hconfirmed, isTrue_bool htimed, isTrue_bool houtput, reading, ht]
  cases (childStatus r).isSome <;> cases r.contained <;> rfl

lemma reportMap_json (r : Report) (t : Tracking) (ht : t.enabled = true) :
    t.reportMap (json r) = reading t r := by
  obtain ⟨htimed, hconfirmed, hcontained, houtput⟩ := get_flags r
  obtain ⟨htruncated, hgroups⟩ := truncated_json r
  obtain ⟨hscope, hknown⟩ := scope_json r
  have hflags : ["confirmed", "timed_out", "contained", "output_truncated",
      "tracked_groups_truncated"].all (json r).absentOrBoolean = true := by
    simp [absentOrBoolean_bool htimed, absentOrBoolean_bool hconfirmed,
      absentOrBoolean_bool hcontained, absentOrBoolean_bool houtput, htruncated]
  rw [Tracking.reportMap, rawStatus_json, hflags, hknown, hscope, hcontained,
    isTrue_bool hconfirmed, isTrue_bool htimed, isTrue_bool houtput, hgroups, reading, ht,
    Bool.and_true]
  rfl

/-- A report keeps its meaning on the way to the client. -/
theorem exit_round_trip (write : Report → Bytes) (hwrite : Writes write) (t : Tracking)
    (r : Report) : t.report (decodeJson (write r)) = reading t r := by
  rw [hwrite r, Tracking.report]
  cases ht : t.enabled with
  | false => exact decodeExitReport_json r t ht
  | true => exact reportMap_json r t ht

def sampledReport : Report := ⟨none, some 9, true, true, false, false, some .treeSampled, some false⟩

theorem exit_round_trip_sampled :
    ({ Tracking.new true with truncated := true } : Tracking).report
        (decodeJson (compact sampledReport)) =
      { valid := true, status := some (.signal 9), confirmed := true, scope := .treeSampled,
        timedOut := true, contained := some false, trackedGroupsTruncated := true,
        outputTruncated := false } :=
  exit_round_trip compact compact_writes _ sampledReport

end ExitCodec

end Forcola.Beam
