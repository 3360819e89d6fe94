import Forcola.Library.History
import Forcola.Native.TrackingSteps

/-! Every signal and every reap of the tracker is authorized by what it just observed. -/

namespace Forcola.Native.Tracker

open Forcola.Library Forcola.Library.History

variable {σ : Type} {H : Host σ}

/-- A fresh record that entitles the tracker to signal `target` on behalf of `id`. -/
structure Entitles (target : ℤ) (id : ProcessIdentity) (r : ProcessRecord) : Prop where
  pid : r.identity.pid = id.pid
  startTime : r.identity.startTime = id.startTime
  group : target < 0 → r.identity = id ∧ r.identity.pid = r.identity.pgid
  member : 0 < target → r.exited = false

/-- A logged call is allowed by the call before it and by what was retained: a signal follows
a read of its target that confirms a recorded identity, and only adopted zombies are reaped. -/
def Authorized (shim : ProcessIdentity) (rootPid : ℕ) (adoptOrphans : Bool) :
    Event → List Event → Prop
  | .call (.signal target signal _) held, past => signal ≠ 0 →
      1 ≤ target.natAbs ∧ target.natAbs ≤ i32Max ∧
      ∃ r earlier older id, past = .call (.read target.natAbs (.ok (some r))) earlier :: older ∧
        held.Records id ∧ Entitles target id r
  | .call (.reap pid _) held, _ => adoptOrphans = true ∧
      ∃ r ∈ held.processes, r.identity.pid = pid ∧ r.exited = true ∧ r.ppid = shim.pid ∧
        pid ≠ rootPid
  | _, _ => True

inductive Start
  | withSource (root : ProcessIdentity)
  | empty (rootPid : ℕ)

namespace Start

def rootPid : Start → ℕ
  | .withSource root => root.pid
  | .empty rootPid => rootPid

def tracker (H : Host σ) (source : σ) (shim : ProcessIdentity) : Start → Tracker σ
  | .withSource root => Tracker.withSource H source shim root
  | .empty rootPid => Tracker.empty H source shim rootPid

end Start

variable {shim : ProcessIdentity} {rootPid : ℕ} {adopt : Bool}

structure Safe (shim : ProcessIdentity) (rootPid : ℕ) (adopt : Bool) (t : Tracker σ) : Prop where
  log : Every (Authorized shim rootPid adopt) t.log
  shim : t.shim = shim
  rootPid : t.rootPid = rootPid
  adopt : t.adoptOrphans = adopt

namespace Safe

variable {t t' : Tracker σ}

lemma frame (h : Safe shim rootPid adopt t) (hl : t'.log = t.log) (hs : t'.shim = t.shim)
    (hr : t'.rootPid = t.rootPid) (ha : t'.adoptOrphans = t.adoptOrphans) :
    Safe shim rootPid adopt t' :=
  ⟨hl ▸ h.log, hs.trans h.shim, hr.trans h.rootPid, ha.trans h.adopt⟩

lemma called (h : Safe shim rootPid adopt t) {call : Call} {held : Held} {source : σ}
    (hc : Authorized shim rootPid adopt (.call call held) t.log) :
    Safe shim rootPid adopt (t.called call held source) :=
  ⟨⟨hc, h.log⟩, h.shim, h.rootPid, h.adopt⟩

lemma fail (h : Safe shim rootPid adopt t) (why : Failure) :
    Safe shim rootPid adopt (t.fail why) :=
  ⟨⟨trivial, h.log⟩, h.shim, h.rootPid, h.adopt⟩

lemma scanError (h : Safe shim rootPid adopt t) (e : IoError) :
    Safe shim rootPid adopt (t.scanError e) := by
  rw [Tracker.scanError]
  split
  · exact h.fail _
  · exact h

lemma read (h : Safe shim rootPid adopt t) {pid : ℕ} {a : Io (Option ProcessRecord)}
    (hr : t.read H pid = (a, t')) : Safe shim rootPid adopt t' :=
  read_eq hr ▸ h.called trivial

lemma children (h : Safe shim rootPid adopt t) {pid : ℕ} {a : Io (List ℕ)}
    (hr : t.children H pid = (a, t')) : Safe shim rootPid adopt t' := by
  obtain ⟨-, rfl⟩ := Prod.mk.inj hr
  exact h.called trivial

lemma groupMembers (h : Safe shim rootPid adopt t) {pgid : ℕ} {a : Io (List ℕ)}
    (hr : t.groupMembers H pgid = (a, t')) : Safe shim rootPid adopt t' := by
  obtain ⟨-, rfl⟩ := Prod.mk.inj hr
  exact h.called trivial

lemma reap (h : Safe shim rootPid adopt t) {held : Held} {r : ProcessRecord} {a : Io Unit}
    (hr : t.reap H held r.identity.pid = (a, t')) (hm : r ∈ held.processes)
    (ha : t.adoptOrphans = true) (hroot : r.identity.pid ≠ t.rootPid)
    (hp : r.ppid = t.shim.pid) (he : r.exited = true) : Safe shim rootPid adopt t' := by
  rw [reap_frame hr]
  refine h.called ⟨h.adopt ▸ ha, r, hm, rfl, he, ?_, ?_⟩
  · rw [hp, h.shim]
  · rw [← h.rootPid]
    exact hroot

lemma natAbs_signalTarget (id : ProcessIdentity) (group : Bool) :
    (signalTarget id group).natAbs = id.pid := by
  cases group <;> simp [signalTarget]

lemma signal (h : Safe shim rootPid adopt t) {id : ProcessIdentity} {group : Bool} {s : ℕ}
    {r : ProcessRecord} {t1 : Tracker σ} {a : Io Unit} (hid : t.held.Records id)
    (hr : t.read H id.pid = (.ok (some r), t1)) (hv : Verified id group r)
    (hpos : 0 < id.pid) (hmax : id.pid ≤ i32Max)
    (hs : t1.signal H (signalTarget id group) s = (a, t')) : Safe shim rootPid adopt t' := by
  have hrec : t1.held.Records id := (read_eq hr ▸ Passed.called ..: Passed t t1).records hid
  rw [signal_eq hs]
  refine (h.read hr).called fun _ => ?_
  rw [natAbs_signalTarget]
  refine ⟨hpos, hmax, r, t.held, t.log, id, by rw [read_eq hr]; rfl, hrec, ?_⟩
  obtain ⟨hpid, hstart⟩ := ProcessIdentity.sameProcess_iff.mp hv.same
  refine ⟨hpid, hstart, fun hneg => ?_, fun hp => ?_⟩
  · cases group with
    | false =>
      simp [signalTarget] at hneg
      omega
    | true =>
      obtain ⟨rfl, hl⟩ := hv.leader rfl
      exact ⟨rfl, hl⟩
  · cases group with
    | false => exact hv.alive rfl
    | true =>
      simp [signalTarget] at hp
      omega

lemma sendChecked (h : Safe shim rootPid adopt t) {id : ProcessIdentity} {group : Bool} {s : ℕ}
    (hid : t.held.Records id) : Safe shim rootPid adopt (t.sendChecked H id group s).2 := by
  have hc := sendChecked_cases (H := H) t id group s
  generalize t.sendChecked H id group s = out at hc
  cases hc with
  | unreadable hr | invalid hr => exact (h.read hr).fail _
  | refused hr | verified hr => exact h.read hr
  | sent hr hv _ hpos hmax hs | noMembers hr hv _ hpos hmax hs =>
    exact h.signal hid hr hv hpos hmax hs
  | unsent hr hv _ hpos hmax hs => exact (h.signal hid hr hv hpos hmax hs).fail _

end Safe

lemma Safe.scanEffect {s s' : Tracker σ × Bool} (h : Safe shim rootPid adopt s.1)
    (he : ScanEffect H s s') : Safe shim rootPid adopt s'.1 := by
  cases he with
  | order | unresolved | pruneGroups | pruneMembers | keep | record => exact h.frame rfl rfl rfl rfl
  | looked hr => exact h.read hr
  | lookFailed hr => exact (h.read hr).scanError _
  | listed hr | listGone hr => exact h.children hr
  | listFailed hr => exact (h.children hr).scanError _
  | grouped hr => exact h.groupMembers hr
  | groupFailed hr => exact (h.groupMembers hr).scanError _
  | drop id =>
    rw [dropStale]
    split
    · exact h.frame rfl rfl rfl rfl
    · exact h
  | failed why => exact h.fail why
  | reaped held r hr hm ha hroot hp hx => exact (h.reap hr hm ha hroot hp hx).frame rfl rfl rfl rfl
  | reapFailed held r hr hm ha hroot hp hx => exact (h.reap hr hm ha hroot hp hx).fail _

lemma Safe.effect {s s' : Tracker σ × Bool} (h : Safe shim rootPid adopt s.1)
    (he : Effect H s s') : Safe shim rootPid adopt s'.1 := by
  cases he with
  | scan he => exact h.scanEffect he
  | setMembers | setGroup | take => exact h.frame rfl rfl rfl rfl
  | asked hr => exact now_eq hr ▸ h.called trivial
  | checked id group s hid => exact h.sendChecked hid
  | begin =>
    rw [beginCleanup]
    split
    · exact h
    · exact h.frame rfl rfl rfl rfl
  | advanced => exact ⟨⟨trivial, h.log⟩, h.shim, h.rootPid, h.adopt⟩

lemma Safe.concludeScan {t : Tracker σ} (h : Safe shim rootPid adopt t) (i : Bool) :
    Safe shim rootPid adopt (t.concludeScan i) := by
  have hc : Safe shim rootPid adopt (t.countScan i) :=
    ⟨⟨trivial, h.log⟩, h.shim, h.rootPid, h.adopt⟩
  rw [Tracker.concludeScan]
  split
  · exact hc.fail _
  · exact hc

lemma Start.safe (start : Start) (source : σ) (shim : ProcessIdentity) :
    Safe shim start.rootPid (H.platform == .linux) (start.tracker H source shim) := by
  cases start <;> exact ⟨trivial, rfl, rfl, rfl⟩

/-- Whatever the source answers and whatever operations run, in any order, the log of calls
is authorized call by call. -/
theorem run_authorized (H : Host σ) (source : σ) (shim : ProcessIdentity) (start : Start)
    (ops : List Op) :
    Every (Authorized shim start.rootPid (H.platform == .linux))
      (run H (start.tracker H source shim) ops).log :=
  (run_invariant (I := fun s => Safe shim start.rootPid (H.platform == .linux) s.1)
    (fun _ _ h he => h.effect he) (fun _ i h => h.concludeScan i) ops _
    (start.safe source shim)).log

end Forcola.Native.Tracker
