import Forcola.Beam.Shim
import Mathlib.Data.Finset.Card
import Mathlib.Data.Finset.Insert

/-! The tracked-group history a client keeps, and how it reads a tracked EXIT report. -/

namespace Forcola.Beam

open Native (Bytes ProcessIdentity)
open Shim (ExitReport ChildStatus Scope)

/-- A `:status` a client reports; `unconfirmed` is `{:signal, :unconfirmed}`. -/
inductive Status
  | child (status : ChildStatus)
  | unconfirmed
deriving DecidableEq, Repr

inductive Confirmation
  | confirmed
  | unconfirmed
  | timeout
  | transportLost
  | notStarted
deriving DecidableEq, Repr

inductive TrackingEvent
  | tracked (identity : ProcessIdentity)
  | exit (scope : Scope) (confirmation : Confirmation) (contained : Option Bool) (truncated : Bool)
deriving DecidableEq, Repr

structure Tracking where
  enabled : Bool
  /-- Newest first. -/
  groups : List ProcessIdentity
  seen : Finset ProcessIdentity
  truncated : Bool
  finished : Bool

namespace Tracking

def limit : ℕ := 4096

def new (enabled : Bool) : Tracking := ⟨enabled, [], ∅, false, false⟩

def observed (t : Tracking) : List ProcessIdentity :=
  t.groups.reverse

def recordIdentity (t : Tracking) (identity : ProcessIdentity) :
    Tracking × Option ProcessIdentity :=
  if identity ∈ t.seen then (t, none)
  else if limit ≤ t.seen.card then ({ t with truncated := true }, none)
  else ({ t with groups := identity :: t.groups, seen := insert identity t.seen }, some identity)

def record (t : Tracking) (decoded : Option Json) : Tracking × Option ProcessIdentity :=
  if !t.enabled then (t, none)
  else match Shim.decodeIdentity decoded with
    | some identity =>
      if identity.pid = identity.pgid then t.recordIdentity identity
      else ({ t with truncated := true }, none)
    | none => ({ t with truncated := true }, none)

def nilOrNull : Option Json → Bool
  | none | some .null => true
  | _ => false

def rawStatus : Json → Option ChildStatus :=
  Shim.observedStatus nilOrNull

def scope (report : Json) : Scope :=
  match report.text "scope" with
  | some "tree_contained" => .treeContained
  | some "tree_sampled" => .treeSampled
  | _ => .unknown

def reportMap (t : Tracking) (report : Json) : ExitReport :=
  let status := rawStatus report
  let scope := scope report
  let validFlags :=
    ["confirmed", "timed_out", "contained", "output_truncated", "tracked_groups_truncated"].all
      report.absentOrBoolean
  let valid := status.isSome && validFlags && scope != .unknown
  { valid := valid
    status := status
    confirmed := valid && report.isTrue "confirmed"
    scope := scope
    timedOut := report.isTrue "timed_out"
    contained := Shim.contained (report.get "contained")
    trackedGroupsTruncated :=
      t.truncated || t.groups.isEmpty || report.isTrue "tracked_groups_truncated"
    outputTruncated := report.isTrue "output_truncated" }

def report (t : Tracking) (decoded : Option Json) : ExitReport :=
  if t.enabled then t.reportMap (Shim.decodeMap decoded) else Shim.decodeExitReport decoded

def status (report : ExitReport) : Status :=
  match report.confirmed, report.status with
  | true, some status => .child status
  | _, _ => .unconfirmed

def confirmation (report : ExitReport) : Confirmation :=
  if report.confirmed then .confirmed else .unconfirmed

def finish (t : Tracking) (scope : Scope) (confirmation : Confirmation) (contained : Option Bool)
    (truncated : Bool) : Tracking × Option TrackingEvent :=
  if !t.enabled || t.finished then (t, none)
  else ({ t with finished := true, truncated := t.truncated || truncated },
    some (.exit scope confirmation contained (t.truncated || truncated)))

end Tracking

/-- A client with a group history and the identity of its root; `tell` and `spawned` send its
observers a message. -/
class Keeper (S : Type) where
  tracking : S → Tracking
  setTracking : S → Tracking → S
  identity : S → Option ProcessIdentity
  setIdentity : S → ProcessIdentity → S
  tell : S → TrackingEvent → S
  spawned : S → ProcessIdentity → S

namespace Keeper

variable {S : Type} [Keeper S] (observer : Bool)

def notify (s : S) (event : Option TrackingEvent) : S :=
  match event with
  | some event => if observer then tell s event else s
  | none => s

def finishTracking (s : S) (scope : Scope) (confirmation : Confirmation) (contained : Option Bool)
    (truncated : Bool) : S :=
  let r := (tracking s).finish scope confirmation contained truncated
  notify observer (setTracking s r.1) r.2

def recordTracked (s : S) (decoded : Option Json) : S :=
  let r := (tracking s).record decoded
  notify observer (setTracking s r.1) (r.2.map .tracked)

def recordIdentity (enabled : Bool) (s : S) (decoded : Option Json) : S :=
  if enabled && (identity s).isNone then
    match Shim.decodeIdentity decoded with
    | some identity =>
      let s := if observer then spawned s identity else s
      setIdentity s identity
    | none => s
  else s

variable {observer}

lemma notify_cases (s : S) (event : Option TrackingEvent) :
    notify observer s event = s ∨ ∃ e, event = some e ∧ notify observer s event = tell s e := by
  rw [notify.eq_def]
  split
  · next e =>
    split
    · exact .inr ⟨e, rfl, rfl⟩
    · exact .inl rfl
  · exact .inl rfl

lemma finishTracking_said (said : S → Prop) {event : TrackingEvent} {s : S} {scope : Scope}
    {confirmation : Confirmation} {contained : Option Bool} {truncated : Bool}
    (hset : ∀ t, said (setTracking s t) → said s)
    (htell : ∀ u e, said (tell u e) → said u ∨ e = event)
    (h : said (finishTracking observer s scope confirmation contained truncated)) :
    said s ∨ ((tracking s).finish scope confirmation contained truncated).2 = some event := by
  rw [finishTracking] at h
  rcases @notify_cases _ _ observer
    (setTracking s ((tracking s).finish scope confirmation contained truncated).1)
    ((tracking s).finish scope confirmation contained truncated).2 with heq | ⟨e, he, heq⟩
  · rw [heq] at h
    exact .inl (hset _ h)
  · rw [heq] at h
    rcases htell _ e h with hs | rfl
    · exact .inl (hset _ hs)
    · exact .inr he

lemma recordIdentity_cases (enabled : Bool) (s : S) (decoded : Option Json) :
    recordIdentity observer enabled s decoded = s ∨ ∃ identity,
      recordIdentity observer enabled s decoded = setIdentity s identity ∨
        recordIdentity observer enabled s decoded = setIdentity (spawned s identity) identity := by
  rw [recordIdentity]
  split
  · split
    · next identity _ =>
      cases observer with
      | false => exact .inr ⟨identity, .inl rfl⟩
      | true => exact .inr ⟨identity, .inr rfl⟩
    · exact .inl rfl
  · exact .inl rfl

lemma recordIdentity_rel {R : S → S → Prop} {s s' : S} (enabled : Bool) (decoded : Option Json)
    (hi : identity s' = identity s) (h : R s s')
    (hset : ∀ u u' id, R u u' → R (setIdentity u id) (setIdentity u' id))
    (hspawned : ∀ u u' id, R u u' → R (spawned u id) (spawned u' id)) :
    R (recordIdentity observer enabled s decoded) (recordIdentity observer enabled s' decoded) := by
  rw [recordIdentity, recordIdentity, hi]
  split
  · split
    · next id _ =>
      cases observer with
      | false => exact hset s s' id h
      | true => exact hset _ _ id (hspawned s s' id h)
    · exact h
  · exact h

/-- A relation that no update of a keeper leaves. -/
structure Keeps (R : S → S → Prop) : Prop where
  refl : ∀ s, R s s
  trans : ∀ {s t u}, R s t → R t u → R s u
  setTracking : ∀ s t, R s (Keeper.setTracking s t)
  setIdentity : ∀ s identity, R s (Keeper.setIdentity s identity)
  tell : ∀ s event, R s (Keeper.tell s event)
  spawned : ∀ s identity, R s (Keeper.spawned s identity)

namespace Keeps

variable {R : S → S → Prop}

lemma notify (h : Keeps R) (s : S) (event : Option TrackingEvent) :
    R s (Keeper.notify observer s event) := by
  rcases notify_cases s event with heq | ⟨e, -, heq⟩
  · rw [heq]
    exact h.refl s
  · rw [heq]
    exact h.tell s e

lemma tracking (h : Keeps R) (s : S) (t : Tracking) (event : Option TrackingEvent) :
    R s (Keeper.notify observer (Keeper.setTracking s t) event) :=
  h.trans (h.setTracking s t) (h.notify _ event)

lemma recordIdentity (h : Keeps R) (enabled : Bool) (s : S) (decoded : Option Json) :
    R s (Keeper.recordIdentity observer enabled s decoded) := by
  rcases recordIdentity_cases enabled s decoded with heq | ⟨identity, heq | heq⟩
  · rw [heq]
    exact h.refl s
  · rw [heq]
    exact h.setIdentity s identity
  · rw [heq]
    exact h.trans (h.spawned s identity) (h.setIdentity _ identity)

end Keeps

end Keeper

end Forcola.Beam
