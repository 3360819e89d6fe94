import Forcola.Beam.Tracking
import Forcola.Library.FirstSeen

/-! A client's tracked-group history, against the TRACKED payloads it was sent. -/

namespace Forcola.Beam

open Library
open Native (Bytes ProcessIdentity)
open Shim (Scope)

def leader (decoded : Option Json) : Option ProcessIdentity :=
  (Shim.decodeIdentity decoded).filter fun identity => identity.pid = identity.pgid

def leaders (payloads : List (Option Json)) : List ProcessIdentity :=
  FirstSeen.kept Tracking.limit (payloads.filterMap leader)

/-- A payload was malformed, or there were too many groups. -/
def Cut (payloads : List (Option Json)) : Prop :=
  (∃ p ∈ payloads, leader p = none) ∨
    FirstSeen.Overflows Tracking.limit (payloads.filterMap leader)

/-- A client's history, and the mail of its `:track_observer`. -/
structure Diary where
  tracking : Tracking
  told : List TrackingEvent

namespace Diary

variable (observer : Bool)

def record (d : Diary) (decoded : Option Json) : Diary :=
  let r := d.tracking.record decoded
  ⟨r.1, d.told ++ if observer then (r.2.map .tracked).toList else []⟩

def finish (d : Diary) (scope : Scope) (confirmation : Confirmation) (contained : Option Bool)
    (truncated : Bool) : Diary :=
  let r := d.tracking.finish scope confirmation contained truncated
  ⟨r.1, d.told ++ if observer then r.2.toList else []⟩

def hear (d : Diary) (payload : Option (Option Json)) : Diary :=
  match payload with
  | some decoded => d.record observer decoded
  | none => d

end Diary

class Chronicler (S : Type) [Keeper S] where
  told : S → List TrackingEvent
  tracking_setTracking : ∀ (s : S) t, Keeper.tracking (Keeper.setTracking s t) = t
  told_setTracking : ∀ (s : S) t, told (Keeper.setTracking s t) = told s
  tracking_tell : ∀ (s : S) event, Keeper.tracking (Keeper.tell s event) = Keeper.tracking s
  told_tell : ∀ (s : S) event, told (Keeper.tell s event) = told s ++ [event]
  tracking_spawned : ∀ (s : S) identity,
    Keeper.tracking (Keeper.setIdentity (Keeper.spawned s identity) identity) = Keeper.tracking s ∧
      Keeper.tracking (Keeper.setIdentity s identity) = Keeper.tracking s
  told_spawned : ∀ (s : S) identity,
    told (Keeper.setIdentity (Keeper.spawned s identity) identity) = told s ∧
      told (Keeper.setIdentity s identity) = told s

def Keeper.diary {S : Type} [Keeper S] [Chronicler S] (s : S) : Diary :=
  ⟨tracking s, Chronicler.told s⟩

structure Noted (payloads : List (Option Json)) (t : Tracking) : Prop where
  enabled : t.enabled = true
  observed : t.observed = leaders payloads
  seen : ∀ identity, identity ∈ t.seen ↔ identity ∈ leaders payloads
  card : t.seen.card = (leaders payloads).length
  cut : Cut payloads → t.truncated = true

structure Open (observer : Bool) (payloads : List (Option Json)) (d : Diary) : Prop where
  recorded : Noted payloads d.tracking
  unfinished : d.tracking.finished = false
  uncut : d.tracking.truncated = true → Cut payloads
  told : d.told = if observer then (leaders payloads).map .tracked else []

structure Closed (observer : Bool) (payloads : List (Option Json)) (d : Diary) : Prop where
  recorded : Noted payloads d.tracking
  finished : d.tracking.finished = true
  told : ∃ scope confirmation contained, d.told =
    if observer then (leaders payloads).map .tracked ++
      [.exit scope confirmation contained d.tracking.truncated] else []

/-- A history closed by an EXIT report, which may say itself that it lacks groups. -/
def Explained (payloads : List (Option Json)) (report : Json) (t : Tracking) : Prop :=
  t.truncated = true ↔
    Cut payloads ∨ report.isTrue "tracked_groups_truncated" = true ∨ leaders payloads = []

section

variable {S : Type} [Keeper S] [Chronicler S] {observer : Bool}

lemma Keeper.diary_notify (s : S) (t : Tracking) (event : Option TrackingEvent) :
    Keeper.diary (Keeper.notify observer (Keeper.setTracking s t) event) =
      ⟨t, (Keeper.diary s).told ++ if observer then event.toList else []⟩ := by
  have hset : Keeper.diary (Keeper.setTracking s t) = ⟨t, (Keeper.diary s).told⟩ := by
    rw [Keeper.diary, Chronicler.tracking_setTracking, Chronicler.told_setTracking, Keeper.diary]
  cases event with
  | none =>
    rw [Keeper.notify, hset]
    simp
  | some event =>
    cases observer with
    | false =>
      rw [Keeper.notify, if_neg Bool.false_ne_true, hset]
      simp
    | true =>
      rw [Keeper.notify, if_pos rfl, Keeper.diary, Chronicler.tracking_tell, Chronicler.told_tell,
        Chronicler.tracking_setTracking, Chronicler.told_setTracking]
      rfl

lemma Keeper.recordTracked_diary (s : S) (decoded : Option Json) :
    Keeper.diary (Keeper.recordTracked observer s decoded) =
      (Keeper.diary s).record observer decoded :=
  Keeper.diary_notify s _ _

lemma Keeper.finishTracking_diary (s : S) (scope : Scope) (confirmation : Confirmation)
    (contained : Option Bool) (truncated : Bool) :
    Keeper.diary (Keeper.finishTracking observer s scope confirmation contained truncated) =
      (Keeper.diary s).finish observer scope confirmation contained truncated :=
  Keeper.diary_notify s _ _

lemma Keeper.recordIdentity_diary (enabled : Bool) (s : S) (decoded : Option Json) :
    Keeper.diary (Keeper.recordIdentity observer enabled s decoded) = Keeper.diary s := by
  rcases @Keeper.recordIdentity_cases S _ observer enabled s decoded with
    h | ⟨identity, h | h⟩
  · rw [h]
  · rw [h, Keeper.diary, (Chronicler.tracking_spawned s identity).2,
      (Chronicler.told_spawned s identity).2, Keeper.diary]
  · rw [h, Keeper.diary, (Chronicler.tracking_spawned s identity).1,
      (Chronicler.told_spawned s identity).1, Keeper.diary]

end

variable {observer : Bool} {payloads : List (Option Json)} {d : Diary} {t : Tracking}
  {p decoded : Option Json}

lemma leaders_nil : leaders [] = [] :=
  FirstSeen.kept_nil

lemma not_cut_nil : ¬Cut [] := by
  rintro (⟨p, hp, -⟩ | h)
  · cases hp
  · exact FirstSeen.overflows_nil h

lemma Cut.append (h : Cut payloads) (more : List (Option Json)) : Cut (payloads ++ more) := by
  rcases h with ⟨p, hp, hnone⟩ | h
  · exact .inl ⟨p, List.mem_append_left _ hp, hnone⟩
  · refine .inr ?_
    rw [List.filterMap_append]
    exact h.append _

lemma leaders_prefix (payloads more : List (Option Json)) :
    leaders payloads <+: leaders (payloads ++ more) := by
  rw [leaders, leaders, List.filterMap_append]
  exact FirstSeen.kept_prefix _ _

lemma leaders_length : (leaders payloads).length ≤ Tracking.limit ∧ (leaders payloads).Nodup :=
  ⟨FirstSeen.length_kept_le, FirstSeen.nodup_kept⟩

lemma leaders_malformed (h : leader p = none) :
    leaders (payloads ++ [p]) = leaders payloads ∧ Cut (payloads ++ [p]) := by
  refine ⟨?_, .inl ⟨p, List.mem_append_right _ List.mem_cons_self, h⟩⟩
  rw [leaders, List.filterMap_append, List.filterMap_cons_none h, List.filterMap_nil,
    List.append_nil]
  rfl

lemma filterMap_leader {identity : ProcessIdentity} (h : leader p = some identity) :
    (payloads ++ [p]).filterMap leader = payloads.filterMap leader ++ [identity] := by
  rw [List.filterMap_append, List.filterMap_cons_some h, List.filterMap_nil]

lemma cut_snoc {identity : ProcessIdentity} (h : leader p = some identity) :
    Cut (payloads ++ [p]) ↔ (∃ q ∈ payloads, leader q = none) ∨
      FirstSeen.Overflows Tracking.limit (payloads.filterMap leader ++ [identity]) := by
  rw [Cut, filterMap_leader h]
  apply or_congr_left
  constructor
  · rintro ⟨q, hq, hnone⟩
    rcases List.mem_append.mp hq with hq | hq
    · exact ⟨q, hq, hnone⟩
    · obtain rfl := List.mem_singleton.mp hq
      cases h.symm.trans hnone
  · rintro ⟨q, hq, hnone⟩
    exact ⟨q, List.mem_append_left _ hq, hnone⟩

lemma record_leader (henabled : t.enabled = true) : t.record p =
    match leader p with
    | some identity => t.recordIdentity identity
    | none => ({ t with truncated := true }, none) := by
  rw [Tracking.record, henabled, leader]
  cases Shim.decodeIdentity p with
  | none => rfl
  | some identity =>
    by_cases h : identity.pid = identity.pgid
    · simp [Option.filter, h]
    · simp [Option.filter, h]

lemma record_cases (h : Noted payloads t) (p : Option Json) :
    ((t.record p).2 = none ∧ leaders (payloads ++ [p]) = leaders payloads ∧
        (t.record p).1 = { t with truncated := true } ∧ Cut (payloads ++ [p])) ∨
      ((t.record p).2 = none ∧ leaders (payloads ++ [p]) = leaders payloads ∧
        (t.record p).1 = t ∧ (Cut (payloads ++ [p]) ↔ Cut payloads)) ∨
      ∃ identity, (t.record p).2 = some identity ∧
        leaders (payloads ++ [p]) = leaders payloads ++ [identity] ∧
        (t.record p).1 = { t with
          groups := identity :: t.groups, seen := insert identity t.seen } ∧
        identity ∉ t.seen ∧ (Cut (payloads ++ [p]) ↔ Cut payloads) := by
  rw [record_leader h.enabled]
  cases hp : leader p with
  | none =>
    obtain ⟨hleaders, hcut⟩ := @leaders_malformed payloads _ hp
    exact .inl ⟨rfl, hleaders, rfl, hcut⟩
  | some identity =>
    have hkept : leaders (payloads ++ [p]) =
        FirstSeen.kept Tracking.limit (payloads.filterMap leader ++ [identity]) := by
      rw [leaders, filterMap_leader hp]
    have hcut := @cut_snoc payloads _ _ hp
    dsimp only
    rw [Tracking.recordIdentity, hkept]
    by_cases hseen : identity ∈ t.seen
    · obtain ⟨hsame, hover⟩ := FirstSeen.kept_seen ((h.seen identity).mp hseen)
      rw [if_pos hseen]
      exact .inr (.inl ⟨rfl, hsame, rfl, hcut.trans (or_congr_right hover)⟩)
    · have hnew : identity ∉ FirstSeen.kept Tracking.limit (payloads.filterMap leader) :=
        fun hin => hseen ((h.seen identity).mpr hin)
      rw [if_neg hseen]
      by_cases hfull : Tracking.limit ≤ t.seen.card
      · rw [h.card] at hfull
        obtain ⟨hsame, hover⟩ := FirstSeen.kept_full hnew hfull
        rw [if_pos (h.card ▸ hfull)]
        exact .inl ⟨rfl, hsame, rfl, hcut.mpr (.inr hover)⟩
      · have hroom : (FirstSeen.kept Tracking.limit (payloads.filterMap leader)).length <
            Tracking.limit := by
          rw [h.card] at hfull
          exact not_le.mp hfull
        obtain ⟨hgrown, hover⟩ := FirstSeen.kept_new hnew hroom
        obtain ⟨-, hbefore⟩ := FirstSeen.kept_of_room hroom
        rw [if_neg hfull]
        refine .inr (.inr ⟨identity, rfl, hgrown, rfl, hseen, hcut.trans ?_⟩)
        rw [Cut]
        apply or_congr_right
        exact iff_of_false hover hbefore

lemma record_frame (t : Tracking) (decoded : Option Json) :
    (t.record decoded).1.enabled = t.enabled ∧ (t.record decoded).1.finished = t.finished := by
  rw [Tracking.record]
  split
  · exact ⟨rfl, rfl⟩
  · split
    · split
      · rw [Tracking.recordIdentity]
        split
        · exact ⟨rfl, rfl⟩
        · split <;> exact ⟨rfl, rfl⟩
      · exact ⟨rfl, rfl⟩
    · exact ⟨rfl, rfl⟩

lemma Noted.record (h : Noted payloads t) (p : Option Json) :
    Noted (payloads ++ [p]) (t.record p).1 := by
  rcases record_cases h p with ⟨-, hleaders, ht, -⟩ | ⟨-, hleaders, ht, hcut⟩ |
    ⟨identity, -, hleaders, ht, hnew, hcut⟩
  · rw [ht]
    constructor
    · exact h.enabled
    · rw [hleaders]
      exact h.observed
    · rw [hleaders]
      exact h.seen
    · rw [hleaders]
      exact h.card
    · exact fun _ => rfl
  · rw [ht]
    constructor
    · exact h.enabled
    · rw [hleaders]
      exact h.observed
    · rw [hleaders]
      exact h.seen
    · rw [hleaders]
      exact h.card
    · exact fun hc => h.cut (hcut.mp hc)
  · rw [ht]
    constructor
    · exact h.enabled
    · rw [hleaders, ← h.observed]
      exact List.reverse_cons
    · intro other
      rw [hleaders, List.mem_append, List.mem_singleton, ← h.seen]
      exact Finset.mem_insert.trans or_comm
    · rw [hleaders, List.length_append, ← h.card]
      exact Finset.card_insert_of_notMem hnew
    · exact fun hc => h.cut (hcut.mp hc)

lemma Noted.leaders_record (h : Noted payloads t) (p : Option Json) :
    leaders (payloads ++ [p]) = leaders payloads ++ (t.record p).2.toList := by
  rcases record_cases h p with ⟨hnone, hleaders, -, -⟩ | ⟨hnone, hleaders, -, -⟩ |
    ⟨identity, hsome, hleaders, -, -, -⟩
  · rw [hnone, hleaders]
    exact (List.append_nil _).symm
  · rw [hnone, hleaders]
    exact (List.append_nil _).symm
  · rw [hsome, hleaders]
    rfl

lemma Open.new (observer : Bool) : Open observer [] ⟨Tracking.new true, []⟩ where
  recorded := {
    enabled := rfl
    observed := leaders_nil.symm
    seen := by simp [leaders_nil, Tracking.new]
    card := by simp [leaders_nil, Tracking.new]
    cut := fun h => absurd h not_cut_nil }
  unfinished := rfl
  uncut := nofun
  told := by simp [leaders_nil]

lemma Open.record (h : Open observer payloads d) (p : Option Json) :
    Open observer (payloads ++ [p]) (d.record observer p) := by
  have hrecorded := h.recorded.record p
  have htold := h.told
  rcases record_cases h.recorded p with ⟨hnone, hleaders, ht, hcut⟩ | ⟨hnone, hleaders, ht, hcut⟩ |
    ⟨identity, hsome, hleaders, ht, -, hcut⟩
  · refine ⟨hrecorded, ?_, fun _ => hcut, ?_⟩
    · rw [Diary.record, ht]
      exact h.unfinished
    · rw [Diary.record, hnone, hleaders, htold]
      cases observer <;> simp
  · refine ⟨hrecorded, ?_, ?_, ?_⟩
    · rw [Diary.record, ht]
      exact h.unfinished
    · rw [Diary.record, ht]
      exact fun htruncated => hcut.mpr (h.uncut htruncated)
    · rw [Diary.record, hnone, hleaders, htold]
      cases observer <;> simp
  · refine ⟨hrecorded, ?_, ?_, ?_⟩
    · rw [Diary.record, ht]
      exact h.unfinished
    · rw [Diary.record, ht]
      exact fun htruncated => hcut.mpr (h.uncut htruncated)
    · rw [Diary.record, hsome, hleaders, htold]
      cases observer <;> simp

lemma Open.hear {L : Type} {payload : L → Option (Option Json)} {labels : List L}
    (h : Open observer (labels.filterMap payload) d) (l : L) :
    Open observer ((labels ++ [l]).filterMap payload) (d.hear observer (payload l)) := by
  rw [List.filterMap_append, Diary.hear.eq_def]
  split
  · next decoded hl =>
    rw [List.filterMap_cons_some hl, List.filterMap_nil]
    exact h.record decoded
  · next hl =>
    rw [List.filterMap_cons_none hl, List.filterMap_nil, List.append_nil]
    exact h

lemma Open.truncated {more : List (Option Json)} (h : Open observer payloads d)
    (k : Noted (payloads ++ more) t) (hd : d.tracking.truncated = true) : t.truncated = true :=
  k.cut ((h.uncut hd).append more)

lemma Open.finish (h : Open observer payloads d) (scope : Scope) (confirmation : Confirmation)
    (contained : Option Bool) (truncated : Bool) :
    Closed observer payloads (d.finish observer scope confirmation contained truncated) ∧
      (d.finish observer scope confirmation contained truncated).tracking.truncated =
        (d.tracking.truncated || truncated) := by
  obtain ⟨henabled, hobserved, hseen, hcard, hcut⟩ := h.recorded
  have hfinish : d.tracking.finish scope confirmation contained truncated =
      ({ d.tracking with finished := true, truncated := d.tracking.truncated || truncated },
        some (.exit scope confirmation contained (d.tracking.truncated || truncated))) := by
    rw [Tracking.finish, if_neg (by rw [henabled, h.unfinished]; decide)]
  rw [Diary.finish, hfinish]
  refine ⟨⟨⟨henabled, hobserved, hseen, hcard, fun hc => ?_⟩, rfl, scope, confirmation, contained,
    ?_⟩, rfl⟩
  · exact Bool.or_eq_true_iff.mpr (.inl (hcut hc))
  · rw [h.told]
    cases observer <;> simp

lemma Diary.finish_over (h : (!d.tracking.enabled || d.tracking.finished) = true) (scope : Scope)
    (confirmation : Confirmation) (contained : Option Bool) (truncated : Bool) :
    d.finish observer scope confirmation contained truncated = d := by
  rw [Diary.finish, Tracking.finish, if_pos h]
  simp

lemma Diary.finish_again (d : Diary) (scope scope' : Scope) (confirmation confirmation' : Confirmation)
    (contained contained' : Option Bool) (truncated truncated' : Bool) :
    (d.finish observer scope confirmation contained truncated).finish observer scope' confirmation'
        contained' truncated' = d.finish observer scope confirmation contained truncated := by
  apply Diary.finish_over
  rw [Diary.finish, Tracking.finish]
  split
  · next h => exact h
  · exact Bool.or_eq_true_iff.mpr (.inr rfl)

lemma Closed.finish (h : Closed observer payloads d) (scope : Scope) (confirmation : Confirmation)
    (contained : Option Bool) (truncated : Bool) :
    d.finish observer scope confirmation contained truncated = d := by
  apply Diary.finish_over
  rw [h.finished, Bool.or_true]

lemma report_truncated (henabled : t.enabled = true) :
    (t.report decoded).trackedGroupsTruncated = (t.truncated || t.groups.isEmpty ||
      (Shim.decodeMap decoded).isTrue "tracked_groups_truncated") := by
  rw [Tracking.report, henabled]
  rfl

lemma Open.groups_isEmpty (h : Open observer payloads d) :
    d.tracking.groups.isEmpty = true ↔ leaders payloads = [] := by
  rw [← h.recorded.observed, Tracking.observed, List.isEmpty_iff, List.reverse_eq_nil_iff]

lemma Open.explained (h : Open observer payloads d) (report : Json) (scope : Scope)
    (confirmation : Confirmation) (contained : Option Bool) :
    Explained payloads report (d.finish observer scope confirmation contained
      (d.tracking.truncated || d.tracking.groups.isEmpty ||
        report.isTrue "tracked_groups_truncated")).tracking := by
  obtain ⟨-, htruncated⟩ := h.finish scope confirmation contained
    (d.tracking.truncated || d.tracking.groups.isEmpty || report.isTrue "tracked_groups_truncated")
  have hcut : d.tracking.truncated = true ↔ Cut payloads := ⟨h.uncut, h.recorded.cut⟩
  rw [Explained, htruncated, ← h.groups_isEmpty, ← hcut]
  simp only [Bool.or_eq_true]
  tauto

end Forcola.Beam
