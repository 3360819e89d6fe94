import Forcola.Beam.Tracking
import Forcola.Native.RecordedGroups

/-! A process identity on its way from the shim to a client and back. -/

namespace Forcola.Beam

open Native (Platform ProcessIdentity StartTime)
open Native.RecordedGroups

def serializeStartTime : StartTime → Json
  | .linux bootId ticks =>
    .object [("kind", .string "linux"), ("boot_id", .string bootId), ("ticks", .int ticks)]
  | .macos seconds microseconds =>
    .object [("kind", .string "macos"), ("seconds", .int seconds),
      ("microseconds", .int microseconds)]

def serializeIdentity (id : ProcessIdentity) : Json :=
  .object [("pid", .int id.pid), ("pgid", .int id.pgid),
    ("start_time", serializeStartTime id.startTime)]

namespace Tracking

/-- The `ArgumentError`s, with the value their message shows. -/
inductive InvalidArgument
  | identity (id : ProcessIdentity)
  | startTime (startTime : StartTime)
  | tooMany
deriving DecidableEq, Repr

def encodeStartTime (startTime : StartTime) : Except InvalidArgument Json :=
  match startTime with
  | .linux bootId ticks =>
    if bootId = "" then .error (.startTime startTime)
    else .ok (.object [("kind", .string "linux"), ("boot_id", .string bootId), ("ticks", .int ticks)])
  | .macos seconds microseconds =>
    if microseconds < 1000000 then
      .ok (.object [("kind", .string "macos"), ("seconds", .int seconds),
        ("microseconds", .int microseconds)])
    else .error (.startTime startTime)

def encodeIdentity (id : ProcessIdentity) : Except InvalidArgument Json :=
  if 0 < id.pid ∧ 0 < id.pgid then do
    let startTime ← encodeStartTime id.startTime
    .ok (.object [("pid", .int id.pid), ("pgid", .int id.pgid), ("start_time", startTime)])
  else .error (.identity id)

def encodeIdentities (identities : List ProcessIdentity) : Except InvalidArgument (List Json) :=
  if limit < identities.length then .error .tooMany else identities.mapM encodeIdentity

end Tracking

/-- Recorded by a client from a frame, replayed to `forcola_shim groups`. -/
def replay (platform : Platform) (payload : Json) : Option Recorded :=
  match Shim.decodeIdentity (some payload) with
  | some id =>
    match Tracking.encodeIdentity id with
    | .ok value => some (parseIdentity platform value)
    | .error _ => none
  | none => none

def ReportableStart : Platform → StartTime → Prop
  | .linux, .linux bootId ticks => bootId ≠ "" ∧ ticks < 2 ^ 64
  | .macos, .macos seconds microseconds => seconds < 2 ^ 64 ∧ microseconds < 1000000
  | _, _ => False

/-- A group leader's identity as a shim of that platform can report it. -/
structure Reportable (platform : Platform) (id : ProcessIdentity) : Prop where
  leader : id.pid = id.pgid
  positive : 0 < id.pid
  small : id.pid ≤ i32Max
  start : ReportableStart platform id.startTime

inductive StartShape (value : Json) : Platform → StartTime → Prop
  | linux {bootId : String} {ticks : ℕ} (kind : value.get "kind" = some (.string "linux"))
      (hbootId : value.get "boot_id" = some (.string bootId)) (nonempty : bootId ≠ "")
      (hticks : value.get "ticks" = some (.int ticks)) (range : ticks < 2 ^ 64) :
      StartShape value .linux (.linux bootId ticks)
  | macos {seconds microseconds : ℕ} (kind : value.get "kind" = some (.string "macos"))
      (hseconds : value.get "seconds" = some (.int seconds)) (srange : seconds < 2 ^ 64)
      (hmicroseconds : value.get "microseconds" = some (.int microseconds))
      (mrange : microseconds < 1000000) : StartShape value .macos (.macos seconds microseconds)

structure Shape (platform : Platform) (value : Json) (id : ProcessIdentity) : Prop where
  pid : value.get "pid" = some (.int id.pid)
  pgid : value.get "pgid" = some (.int id.pgid)
  leader : id.pid = id.pgid
  positive : 0 < id.pid
  small : id.pid ≤ i32Max
  start : ∃ start, value.get "start_time" = some start ∧ StartShape start platform id.startTime

variable {platform : Platform} {value : Json} {id : ProcessIdentity} {startTime : StartTime} {n : ℕ}

lemma asU64_iff {value : Option Json} :
    value.bind asU64 = some n ↔ value = some (.int n) ∧ n < 2 ^ 64 := by
  constructor
  · intro h
    obtain ⟨j, rfl, hj⟩ := Option.bind_eq_some_iff.mp h
    rw [asU64.eq_def] at hj
    split at hj
    · next k =>
      split at hj
      · next hk =>
        obtain rfl := Option.some.inj hj
        exact ⟨rfl, hk⟩
      · cases hj
    · cases hj
  · rintro ⟨rfl, hn⟩
    exact if_pos hn

lemma asStr_iff {value : Option Json} {text : String} :
    value.bind asStr = some text ↔ value = some (.string text) := by
  constructor
  · intro h
    obtain ⟨j, rfl, hj⟩ := Option.bind_eq_some_iff.mp h
    cases j with
    | string v =>
      obtain rfl := Option.some.inj hj
      rfl
    | _ => cases hj
  · rintro rfl
    rfl

lemma positive_iff {key : String} :
    positive value key = some n ↔ value.get key = some (.int n) ∧ 0 < n ∧ n ≤ i32Max := by
  rw [Native.RecordedGroups.positive, Option.filter_eq_some_iff, asU64_iff]
  simp only [decide_eq_true_eq]
  constructor
  · rintro ⟨⟨hget, -⟩, hrange⟩
    exact ⟨hget, hrange⟩
  · rintro ⟨hget, hpos, hsmall⟩
    have hlt : n < 2 ^ 64 := by
      have hmax : i32Max < 2 ^ 64 := by decide
      omega
    exact ⟨⟨hget, hlt⟩, hpos, hsmall⟩

lemma startShape_of_parse (h : parseStartTime platform value = .ok startTime) :
    StartShape value platform startTime := by
  rw [parseStartTime.eq_def] at h
  split at h
  · next hk =>
    split at h
    · next bootId ticks hb ht =>
      split at h
      · cases h
      · next hne =>
        obtain rfl := Except.ok.inj h
        obtain ⟨hticks, hrange⟩ := asU64_iff.mp ht
        exact .linux (asStr_iff.mp hk) (asStr_iff.mp hb) hne hticks hrange
    · cases h
  · next hk =>
    split at h
    · next seconds microseconds hs hm =>
      obtain rfl := Except.ok.inj h
      obtain ⟨hseconds, hsrange⟩ := asU64_iff.mp hs
      obtain ⟨hu, hmrange⟩ := Option.filter_eq_some_iff.mp hm
      exact .macos (asStr_iff.mp hk) hseconds hsrange (asU64_iff.mp hu).1
        (of_decide_eq_true hmrange)
    · cases h
  all_goals cases h

lemma parse_of_startShape (h : StartShape value platform startTime) :
    parseStartTime platform value = .ok startTime := by
  cases h with
  | linux kind hbootId nonempty hticks range =>
    have ht := asU64_iff.mpr ⟨hticks, range⟩
    simp only [parseStartTime, asStr_iff.mpr kind, asStr_iff.mpr hbootId, ht, if_neg nonempty]
  | macos kind hseconds srange hmicroseconds mrange =>
    have hs := asU64_iff.mpr ⟨hseconds, srange⟩
    have hm := asU64_iff.mpr ⟨hmicroseconds, mrange.trans (by decide)⟩
    simp only [parseStartTime, asStr_iff.mpr kind, hs, hm, Option.filter_some, mrange, decide_true,
      if_true]

lemma parseIdentity_iff : parseIdentity platform value = .group id ↔ Shape platform value id := by
  constructor
  · intro h
    rw [parseIdentity] at h
    split at h
    · next pid pgid hpid hpgid =>
      split at h
      · next start hstart =>
        split at h
        · next st hparse =>
          split at h
          · next hlead =>
            obtain rfl := Recorded.group.inj h
            obtain ⟨hp, hpos, hsmall⟩ := positive_iff.mp hpid
            exact ⟨hp, (positive_iff.mp hpgid).1, hlead, hpos, hsmall, start, hstart,
              startShape_of_parse hparse⟩
          · cases h
        · cases h
      · cases h
    · cases h
  · intro h
    obtain ⟨start, hstart, hshape⟩ := h.start
    have hpid := positive_iff.mpr ⟨h.pid, h.positive, h.small⟩
    have hpgid := positive_iff.mpr ⟨h.pgid, h.leader ▸ h.positive, h.leader ▸ h.small⟩
    simp only [parseIdentity, hpid, hpgid, hstart, parse_of_startShape hshape, if_pos h.leader]

lemma serializeStart_shape (h : ReportableStart platform startTime) :
    StartShape (serializeStartTime startTime) platform startTime := by
  cases startTime with
  | linux bootId ticks =>
    cases platform with
    | linux => exact .linux rfl rfl h.1 rfl h.2
    | macos => exact absurd h id
  | macos seconds microseconds =>
    cases platform with
    | linux => exact absurd h id
    | macos => exact .macos rfl rfl h.1 rfl h.2

lemma serializeIdentity_shape (h : Reportable platform id) :
    Shape platform (serializeIdentity id) id :=
  ⟨rfl, rfl, h.leader, h.positive, h.small, _, rfl, serializeStart_shape h.start⟩

lemma integer_of_get {key : String} {least : ℕ} (h : value.get key = some (.int n))
    (hle : least ≤ n) : value.integer key least = some n := by
  have hcast : (least : ℤ) ≤ n := Int.ofNat_le.mpr hle
  rw [Json.integer, h]
  exact (if_pos hcast).trans (congrArg some (Int.toNat_natCast n))

lemma text_of_get {key text : String} (h : value.get key = some (.string text)) :
    value.text key = some text := by
  rw [Json.text, h]

lemma decodeStart_shape (h : StartShape value platform startTime) :
    Shim.decodeStartTime value = some startTime := by
  cases h with
  | linux kind hbootId nonempty hticks range =>
    simp only [Shim.decodeStartTime, text_of_get kind, text_of_get hbootId,
      integer_of_get hticks (Nat.zero_le _), if_neg nonempty]
  | macos kind hseconds srange hmicroseconds mrange =>
    simp only [Shim.decodeStartTime, text_of_get kind, integer_of_get hseconds (Nat.zero_le _),
      integer_of_get hmicroseconds (Nat.zero_le _), if_pos mrange]

lemma decodeIdentity_shape (h : Shape platform value id) :
    Shim.decodeIdentity (some value) = some id := by
  obtain ⟨start, hstart, hshape⟩ := h.start
  have hpgid : 1 ≤ id.pgid := h.leader ▸ h.positive
  simp only [Shim.decodeIdentity, integer_of_get h.pid h.positive, integer_of_get h.pgid hpgid,
    hstart, decodeStart_shape hshape, Option.map_some]

lemma encodeStart_reportable (h : ReportableStart platform startTime) :
    Tracking.encodeStartTime startTime = .ok (serializeStartTime startTime) := by
  cases startTime with
  | linux bootId ticks =>
    cases platform with
    | linux => exact if_neg h.1
    | macos => exact absurd h id
  | macos seconds microseconds =>
    cases platform with
    | linux => exact absurd h id
    | macos => exact if_pos h.2

lemma encodeIdentity_reportable (h : Reportable platform id) :
    Tracking.encodeIdentity id = .ok (serializeIdentity id) := by
  have hpgid : 0 < id.pgid := h.leader ▸ h.positive
  rw [Tracking.encodeIdentity, if_pos ⟨h.positive, hpgid⟩, encodeStart_reportable h.start]
  rfl

lemma replay_reportable {shim : Platform} (h : Reportable shim id) :
    replay platform (serializeIdentity id) = some (parseIdentity platform (serializeIdentity id)) := by
  rw [replay, decodeIdentity_shape (serializeIdentity_shape h)]
  simp only [encodeIdentity_reportable h]

lemma replay_native (h : Reportable platform id) :
    replay platform (serializeIdentity id) = some (.group id) :=
  (replay_reportable h).trans (congrArg some (parseIdentity_iff.mpr (serializeIdentity_shape h)))

lemma parse_foreign {shim : Platform} (h : ReportableStart shim startTime) (hne : shim ≠ platform) :
    parseStartTime platform (serializeStartTime startTime) = .error "foreign_identity" := by
  cases startTime with
  | linux bootId ticks =>
    cases shim with
    | linux =>
      cases platform with
      | linux => exact absurd rfl hne
      | macos => rfl
    | macos => exact absurd h id
  | macos seconds microseconds =>
    cases shim with
    | linux => exact absurd h id
    | macos =>
      cases platform with
      | linux => rfl
      | macos => exact absurd rfl hne

lemma replay_foreign {shim : Platform} (h : Reportable shim id) (hne : shim ≠ platform) :
    replay platform (serializeIdentity id) = some (.invalid "foreign_identity") := by
  rw [replay_reportable h]
  have hshape := serializeIdentity_shape h
  have hpid := positive_iff.mpr ⟨hshape.pid, h.positive, h.small⟩
  have hpgid := positive_iff.mpr ⟨hshape.pgid, h.leader ▸ h.positive, h.leader ▸ h.small⟩
  have hstart : (serializeIdentity id).get "start_time" =
      some (serializeStartTime id.startTime) := rfl
  simp only [parseIdentity, hpid, hpgid, hstart, parse_foreign h.start hne]

/-- What a shim reports comes back as itself, on another platform as foreign, and nothing else
parses as a group. -/
theorem identity_round_trip (platform : Platform) :
    (∀ id, Reportable platform id → replay platform (serializeIdentity id) = some (.group id)) ∧
      (∀ id id', Reportable platform id → Reportable platform id' → id ≠ id' →
        replay platform (serializeIdentity id) ≠ replay platform (serializeIdentity id')) ∧
      (∀ shim id, shim ≠ platform → Reportable shim id →
        replay platform (serializeIdentity id) = some (.invalid "foreign_identity")) ∧
      ∀ value id, parseIdentity platform value = .group id → Shape platform value id := by
  refine ⟨fun id h => replay_native h, ?_, fun shim id hne h => replay_foreign h hne,
    fun value id => parseIdentity_iff.mp⟩
  intro id id' h h' hne heq
  rw [replay_native h, replay_native h'] at heq
  exact hne (Recorded.group.inj (Option.some.inj heq))

theorem identity_round_trip_largest :
    replay .linux (serializeIdentity ⟨2147483647, 2147483647, .linux "b" 18446744073709551615⟩) =
      some (.group ⟨2147483647, 2147483647, .linux "b" 18446744073709551615⟩) :=
  (identity_round_trip .linux).1 _ ⟨rfl, by decide, by decide, by decide, by decide⟩

end Forcola.Beam
