import Forcola.Library.JsonText
import Forcola.Native.GroupsVerdict
import Forcola.Native.ProcStat

/-! The reply line of groups mode, from the report the shim writes to what the caller gets. -/

namespace Forcola.Beam

open Library JsonText
open Native (Bytes IoError)
open Native.ProcStat (encode fromUtf8)
open Native.RecordedGroups (Report State StateReport)
open Shim (ReasonCode)

/-- The numbers that round to an infinite double. -/
def overflows (d : Decimal) : Bool :=
  match d.scale with
  | .ofNat n => 2 ^ 1024 - 2 ^ 970 ≤ d.digits * 10 ^ n
  | .negSucc n => (2 ^ 1024 - 2 ^ 970) * 10 ^ (n + 1) ≤ d.digits

def Json.builder : Builder Json where
  null := .null
  bool := .bool
  int := .int
  float d := if overflows d then none else some (.float (String.ofList d.text))
  string s := .string (String.ofList s)
  array := .array
  object fields := .object (fields.map fun f => (String.ofList f.1, f.2))

def decodeJson (payload : Bytes) : Option Json :=
  (fromUtf8 payload).bind (decode Json.builder)

def optionText (w : Letters) : Option String → List Char
  | none => ['n', 'u', 'l', 'l']
  | some s => quoted w s.toList

def boolText (b : Bool) : List Char :=
  if b then ['t', 'r', 'u', 'e'] else ['f', 'a', 'l', 's', 'e']

def stateText (r : StateReport) : List Char :=
  objectText .lower
    [("state".toList, quoted .lower r.state.toList), ("reason".toList, optionText .lower r.reason)]

def reportText (r : Report) : List Char :=
  objectText .lower [("groups".toList, arrayText (r.groups.map stateText)),
    ("confirmed".toList, boolText r.confirmed)]

def reportLine (write : Report → Bytes) (r : Report) : Bytes :=
  write r ++ [newline]

inductive PortMessage
  | noeol (chunk : Bytes)
  | eol (chunk : Bytes)
  | exitStatus (status : ℕ)
deriving DecidableEq, Repr

/-- A port in line mode hands over its output: a newline ends a line, and a line can come in
any number of pieces. -/
inductive Delivered : Bytes → List PortMessage → Prop
  | nil : Delivered [] []
  | noeol {chunk out messages} : newline ∉ chunk → Delivered out messages →
      Delivered (chunk ++ out) (.noeol chunk :: messages)
  | eol {chunk out messages} : newline ∉ chunk → Delivered out messages →
      Delivered (chunk ++ newline :: out) (.eol chunk :: messages)

namespace GroupsReply

inductive GroupState
  | gone
  | present
  | unknown (reason : ReasonCode)
deriving DecidableEq, Repr

structure Reply where
  states : List GroupState
  confirmed : Bool
deriving DecidableEq, Repr

inductive Error
  | shimExited (status : ℕ)
  | invalidReply
  | invalidRequest (reason : String)
deriving DecidableEq, Repr

def knownReasons : List String :=
  ["foreign_identity", "not_a_group_leader", "invalid_identity"]

def reason (name : String) : ReasonCode :=
  if name ∈ knownReasons then .known name else Shim.SpawnError.reasonCode name

def decodeState (group : Json) : Option GroupState :=
  match group.text "state", group.text "reason" with
  | some "gone", _ => some .gone
  | some "present", _ => some .present
  | some "unknown", some name => if name = "" then none else some (.unknown (reason name))
  | _, _ => none

def decodeStates : List Json → List GroupState → Option (List GroupState)
  | [], states => some states.reverse
  | group :: groups, states =>
    match decodeState group with
    | some state => decodeStates groups (state :: states)
    | none => none

def decodeReply (status : ℕ) (line : Bytes) (count : ℕ) : Except Error Reply :=
  match status with
  | 0 =>
    match decodeJson line with
    | none => .error .invalidReply
    | some report =>
      match report.get "groups", report.get "confirmed" with
      | some (.array groups), some (.bool confirmed) =>
        if groups.length = count then
          match decodeStates groups [] with
          | some states => .ok ⟨states, confirmed⟩
          | none => .error .invalidReply
        else .error .invalidReply
      | _, _ => .error .invalidReply
  | 2 =>
    match (decodeJson line).bind (·.text "error") with
    | some reason => .error (.invalidRequest reason)
    | none => .error .invalidReply
  | status => .error (.shimExited status)

def awaitStatus : List PortMessage → Option ℕ
  | [] => none
  | .exitStatus status :: _ => some status
  | _ :: messages => awaitStatus messages

def awaitLine (partialLine : Bytes) (count : ℕ) : List PortMessage → Option (Except Error Reply)
  | [] => none
  | .noeol chunk :: messages => awaitLine (partialLine ++ chunk) count messages
  | .eol chunk :: messages =>
    (awaitStatus messages).map fun status => decodeReply status (partialLine ++ chunk) count
  | .exitStatus status :: _ => some (.error (.shimExited status))

def groupState (errorReason : IoError → String) : State → GroupState
  | .gone => .gone
  | .led | .leaderless _ => .present
  | .unknown (.inl name) => .unknown (reason name)
  | .unknown (.inr error) => .unknown (reason (errorReason error))

def Named (r : StateReport) : Prop :=
  r.reason ≠ some ""

def reasonJson : Option String → Json
  | none => .null
  | some s => .string s

def stateJson (r : StateReport) : Json :=
  .object [("state", .string r.state), ("reason", reasonJson r.reason)]

def reportJson (r : Report) : Json :=
  .object [("groups", .array (r.groups.map stateJson)), ("confirmed", .bool r.confirmed)]

/-- What is taken of `serde_json`: the text of a report is one line and stands for its fields. -/
structure Writes (write : Report → Bytes) : Prop where
  line : ∀ r, newline ∉ write r
  json : ∀ r, decodeJson (write r) = some (reportJson r)

lemma reads_string (w : Letters) (s : String) :
    Reads Json.builder (quoted w s.toList) (.string s) := by
  have h : Reads Json.builder (quoted w s.toList) (.string (String.ofList s.toList)) :=
    Reads.string s.toList
  rwa [String.ofList_toList] at h

lemma reads_option (w : Letters) (reason : Option String) :
    Reads Json.builder (optionText w reason) (reasonJson reason) := by
  cases reason with
  | none => exact Reads.null
  | some s => exact reads_string w s

lemma reads_pair {w : Letters} {key key' : String} {text text' : List Char} {j j' : Json}
    (h : Reads Json.builder text j) (h' : Reads Json.builder text' j') :
    Reads Json.builder (objectText w [(key.toList, text), (key'.toList, text')])
      (.object [(key, j), (key', j')]) := by
  have hfields : ReadFields Json.builder [(key.toList, text), (key'.toList, text')]
      [(key.toList, j), (key'.toList, j')] :=
    .cons ⟨rfl, h⟩ (.cons ⟨rfl, h'⟩ .nil)
  have hobject := Reads.object (w := w) hfields
  have heq : Json.builder.object [(key.toList, j), (key'.toList, j')] =
      .object [(key, j), (key', j')] := by
    simp [Json.builder]
  rwa [heq] at hobject

lemma reads_state (r : StateReport) : Reads Json.builder (stateText r) (stateJson r) :=
  reads_pair (reads_string _ r.state) (reads_option _ r.reason)

lemma reads_report (r : Report) : Reads Json.builder (reportText r) (reportJson r) := by
  apply reads_pair
  · apply Reads.array
    rw [List.forall₂_map_left_iff, List.forall₂_map_right_iff]
    exact List.forall₂_same.mpr fun state _ => reads_state state
  · exact Reads.bool r.confirmed

lemma decodeJson_report (r : Report) : decodeJson (encode (reportText r)) = some (reportJson r) := by
  rw [decodeJson, Native.ProcStat.fromUtf8_encode, Option.bind_some]
  exact (reads_report r).decode

inductive Entry (group : Json) : GroupState → Prop
  | gone : group.text "state" = some "gone" → Entry group .gone
  | present : group.text "state" = some "present" → Entry group .present
  | unknown {name} : group.text "state" = some "unknown" → group.text "reason" = some name →
      name ≠ "" → Entry group (.unknown (reason name))

lemma decodeState_eq_some {group : Json} {state : GroupState} :
    decodeState group = some state ↔ Entry group state := by
  constructor
  · intro h
    rw [decodeState] at h
    split at h
    · next hs =>
      cases h
      exact .gone hs
    · next hs =>
      cases h
      exact .present hs
    · next name hs hr =>
      split at h
      · cases h
      · next hne =>
        cases h
        exact .unknown hs hr hne
    · cases h
  · intro h
    cases h with
    | gone hs => simp [decodeState, hs]
    | present hs => simp [decodeState, hs]
    | unknown hs hr hne => simp [decodeState, hs, hr, hne]

lemma decodeStates_eq_some {groups : List Json} {before states : List GroupState} :
    decodeStates groups before = some states ↔
      ∃ more, List.Forall₂ Entry groups more ∧ states = before.reverse ++ more := by
  induction groups generalizing before with
  | nil => simp [decodeStates, eq_comm]
  | cons group groups ih =>
    rw [decodeStates]
    constructor
    · intro h
      split at h
      · next state hs =>
        obtain ⟨more, hmore, rfl⟩ := ih.mp h
        refine ⟨state :: more, .cons (decodeState_eq_some.mp hs) hmore, ?_⟩
        rw [List.reverse_cons, List.append_assoc]
        rfl
      · cases h
    · rintro ⟨more, hmore, rfl⟩
      cases hmore with
      | @cons _ state _ more hentry hrest =>
        rw [decodeState_eq_some.mpr hentry]
        refine ih.mpr ⟨more, hrest, ?_⟩
        rw [List.reverse_cons, List.append_assoc]
        rfl

structure Accepted (status : ℕ) (line : Bytes) (count : ℕ) (r : Reply) : Prop where
  status : status = 0
  line : ∃ fields groups, decodeJson line = some (.object fields) ∧
    fields.lookup "groups" = some (.array groups) ∧
    fields.lookup "confirmed" = some (.bool r.confirmed) ∧
    groups.length = count ∧ List.Forall₂ Entry groups r.states

lemma get_object {json j : Json} {key : String} (h : json.get key = some j) :
    ∃ fields, json = .object fields ∧ fields.lookup key = some j := by
  cases json with
  | object fields => exact ⟨fields, rfl, h⟩
  | _ => cases h

lemma decodeReply_eq_ok {status : ℕ} {line : Bytes} {count : ℕ} {r : Reply} :
    decodeReply status line count = .ok r ↔ Accepted status line count r := by
  constructor
  · intro h
    rw [decodeReply.eq_def] at h
    split at h
    · split at h
      · cases h
      · next report hline =>
        split at h
        · next groups confirmed hgroups hconfirmed =>
          split at h
          · next hcount =>
            split at h
            · next states hstates =>
              cases h
              obtain ⟨fields, rfl, hlookup⟩ := get_object hgroups
              obtain ⟨more, hmore, rfl⟩ := decodeStates_eq_some.mp hstates
              exact ⟨rfl, fields, groups, hline, hlookup, hconfirmed, hcount, hmore⟩
            · cases h
          · cases h
        · cases h
    · split at h <;> cases h
    · cases h
  · rintro ⟨rfl, fields, groups, hline, hgroups, hconfirmed, hcount, hstates⟩
    have hdecoded : decodeStates groups [] = some r.states :=
      decodeStates_eq_some.mpr ⟨r.states, hstates, rfl⟩
    simp only [decodeReply, hline, Json.get, hgroups, hconfirmed, hcount, if_true, hdecoded]

lemma newline_encodeChar {c : Char} (h : newline ∈ String.utf8EncodeChar c) : c.toNat = 10 := by
  have hten : newline.toNat = 10 := rfl
  change c.val.toNat = 10
  rw [String.utf8EncodeChar] at h
  generalize c.val.toNat = v at h ⊢
  have hbyte : ∀ n, newline = UInt8.ofNat n → n % 256 = 10 := by
    intro n hn
    rw [← hten, hn]
    exact (UInt8.toNat_ofNat' ..).symm
  split at h
  · have := hbyte _ (List.mem_singleton.mp h)
    omega
  · exfalso
    split at h
    · simp only [List.mem_cons, List.not_mem_nil, or_false] at h
      rcases h with h | h <;> have := hbyte _ h <;> omega
    · split at h
      · simp only [List.mem_cons, List.not_mem_nil, or_false] at h
        rcases h with h | h | h <;> have := hbyte _ h <;> omega
      · simp only [List.mem_cons, List.not_mem_nil, or_false] at h
        rcases h with h | h | h | h <;> have := hbyte _ h <;> omega

lemma newline_encode {text : List Char} (h : Printable text) : newline ∉ encode text := by
  intro hmem
  obtain ⟨c, hc, hbyte⟩ := List.mem_flatMap.mp hmem
  have := h c hc
  have := newline_encodeChar hbyte
  omega

lemma printable_option (w : Letters) (reason : Option String) :
    Printable (optionText w reason) := by
  cases reason with
  | none =>
    intro c hc
    simp only [optionText, List.mem_cons, List.not_mem_nil, or_false] at hc
    rcases hc with rfl | rfl | rfl | rfl <;> decide
  | some s => exact printable_quoted s.toList

lemma printable_bool (b : Bool) : Printable (boolText b) := by
  intro c hc
  cases b with
  | true =>
    simp only [boolText, if_true, List.mem_cons, List.not_mem_nil, or_false] at hc
    rcases hc with rfl | rfl | rfl | rfl <;> decide
  | false =>
    simp only [boolText, Bool.false_eq_true, if_false, List.mem_cons, List.not_mem_nil, or_false] at hc
    rcases hc with rfl | rfl | rfl | rfl | rfl <;> decide

lemma printable_report (r : Report) : Printable (reportText r) := by
  apply printable_objectText
  intro field hfield
  simp only [List.mem_cons, List.not_mem_nil, or_false] at hfield
  rcases hfield with rfl | rfl
  · apply printable_arrayText
    intro text htext
    obtain ⟨state, -, rfl⟩ := List.mem_map.mp htext
    apply printable_objectText
    intro field hfield
    simp only [List.mem_cons, List.not_mem_nil, or_false] at hfield
    rcases hfield with rfl | rfl
    · exact printable_quoted _
    · exact printable_option _ _
  · exact printable_bool _

lemma awaitStatus_delivered {out : Bytes} {messages : List PortMessage}
    (h : Delivered out messages) (status : ℕ) :
    awaitStatus (messages ++ [.exitStatus status]) = some status := by
  induction h with
  | nil => rfl
  | noeol _ _ ih | eol _ _ ih => exact ih

lemma awaitLine_delivered {line out : Bytes} {messages : List PortMessage} (count status : ℕ)
    (hm : Delivered out messages) (hout : out = line ++ [newline]) (hline : newline ∉ line)
    (before : Bytes) :
    awaitLine before count (messages ++ [.exitStatus status]) =
      some (decodeReply status (before ++ line) count) := by
  induction hm generalizing line before with
  | nil => simp at hout
  | @noeol chunk out messages hchunk _ ih =>
    obtain ⟨tail, rfl, hrest⟩ : ∃ tail, line = chunk ++ tail ∧ out = tail ++ [newline] := by
      rcases List.append_eq_append_iff.mp hout with ⟨tail, htail, hrest⟩ | ⟨tail, htail, hrest⟩
      · exact ⟨tail, htail, hrest⟩
      · cases tail with
        | nil => exact ⟨[], by simpa using htail.symm, by simpa using hrest.symm⟩
        | cons b tail =>
          obtain ⟨rfl, -⟩ := List.cons.inj hrest
          exact absurd (htail ▸ List.mem_append_right _ List.mem_cons_self) hchunk
    rw [List.cons_append, awaitLine, ih hrest (fun h => hline (List.mem_append_right _ h)),
      List.append_assoc]
  | @eol chunk out messages hchunk hrest ih =>
    have hsplit : chunk = line ∧ out = [] := by
      rcases List.append_eq_append_iff.mp hout with ⟨tail, rfl, hrest⟩ | ⟨tail, rfl, hrest⟩
      · cases tail with
        | nil => simpa using hrest
        | cons b tail =>
          obtain ⟨rfl, -⟩ := List.cons.inj hrest
          exact absurd (List.mem_append_right _ List.mem_cons_self) hline
      · cases tail with
        | nil => simpa using hrest.symm
        | cons b tail =>
          obtain ⟨rfl, -⟩ := List.cons.inj hrest
          exact absurd (List.mem_append_right _ List.mem_cons_self) hchunk
    obtain ⟨rfl, -⟩ := hsplit
    rw [List.cons_append, awaitLine, awaitStatus_delivered hrest, Option.map_some]

lemma entry_report (errorReason : IoError → String) {state : State}
    (hn : Named (state.report errorReason)) :
    Entry (stateJson (state.report errorReason)) (groupState errorReason state) := by
  cases state with
  | gone => exact .gone rfl
  | led | leaderless _ => exact .present rfl
  | unknown why =>
    cases why with
    | inl name => exact .unknown rfl rfl fun h => hn (congrArg some h)
    | inr error => exact .unknown rfl rfl fun h => hn (congrArg some h)

/-- The report of any states survives the way to the caller, and nothing but a report of the
expected length is taken for one. -/
theorem reply_round_trip :
    (∀ (write : Report → Bytes) (errorReason : IoError → String) (states : List State)
        (messages : List PortMessage), Writes write →
      (∀ state ∈ states, Named (state.report errorReason)) →
      Delivered (reportLine write ⟨states.map (State.report errorReason), states.all State.isGone⟩)
        messages →
      awaitLine [] states.length (messages ++ [.exitStatus 0]) =
        some (.ok ⟨states.map (groupState errorReason), states.all State.isGone⟩)) ∧
    ∀ (status : ℕ) (line : Bytes) (count : ℕ) (r : Reply),
      decodeReply status line count = .ok r ↔ Accepted status line count r := by
  refine ⟨fun write errorReason states messages hwrite hnamed hm => ?_,
    fun _ _ _ _ => decodeReply_eq_ok⟩
  rw [awaitLine_delivered states.length 0 hm rfl (hwrite.line _) [], List.nil_append]
  refine congrArg some (decodeReply_eq_ok.mpr ⟨rfl, _, _, hwrite.json _, rfl, rfl, ?_, ?_⟩)
  · rw [List.length_map, List.length_map]
  · rw [List.map_map, List.forall₂_map_left_iff, List.forall₂_map_right_iff]
    exact List.forall₂_same.mpr fun state hs => entry_report errorReason (hnamed state hs)

lemma compact_writes : Writes fun r => encode (reportText r) :=
  ⟨fun _ => newline_encode (printable_report _), decodeJson_report⟩

/-- Two groups, and the line cut after its first byte. -/
theorem reply_round_trip_pieces :
    ∃ first rest, awaitLine [] 2 ([.noeol first, .eol rest] ++ [.exitStatus 0]) =
      some (.ok ⟨[.gone, .unknown (.known "foreign_identity")], false⟩) := by
  let states : List State := [.gone, .unknown (.inl "foreign_identity")]
  let text := encode (reportText ⟨states.map (State.report fun _ => "other"),
    states.all State.isGone⟩)
  have hline : newline ∉ text := newline_encode (printable_report _)
  have hrest : newline ∉ text.drop 1 := fun h => hline (List.mem_of_mem_drop h)
  have hfirst : newline ∉ text.take 1 := fun h => hline (List.mem_of_mem_take h)
  have hm : Delivered (text.take 1 ++ (text.drop 1 ++ [newline]))
      [.noeol (text.take 1), .eol (text.drop 1)] :=
    .noeol hfirst (.eol hrest .nil)
  rw [← List.append_assoc, List.take_append_drop] at hm
  refine ⟨_, _, reply_round_trip.1 _ (fun _ => "other") states _ compact_writes ?_ hm⟩
  intro state hs
  simp only [states, List.mem_cons, List.not_mem_nil, or_false] at hs
  rcases hs with rfl | rfl <;> simp [Named, State.report]

end GroupsReply

end Forcola.Beam
