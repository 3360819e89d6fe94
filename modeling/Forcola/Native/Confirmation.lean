import Forcola.Native.SignalSafety
import Mathlib.Data.List.Infix

/-! A confirmed cleanup has nothing in its whole history that could contradict it. -/

namespace Forcola.Native

open Forcola.Library.History

namespace Event

def Tolerable (platform : Platform) : Event → Prop
  | .failed _ => False
  | .call (.read _ (.error e)) _ => e.unsafeInventory = false
  | .call (.children _ (.error e)) _ => e.unsafeInventory = false
  | .call (.groupMembers _ (.error e)) _ => e.unsafeInventory = false
  | .call (.signal target _ (.error e)) _ =>
    platform = .macos ∧ target < 0 ∧ e.rawOsError = some .eperm
  | .call (.reap _ (.error _)) _ => False
  | _ => True

def FailedRead : Event → Prop
  | .call (.read _ (.error _)) _ => True
  | .call (.children _ (.error e)) _ => e.disappeared = false
  | .call (.groupMembers _ (.error _)) _ => True
  | _ => False

def scan? : Event → Option (Bool × Bool)
  | .scanned incomplete live => some (incomplete, live)
  | _ => none

end Event

def scans (log : List Event) : List (Bool × Bool) :=
  log.filterMap Event.scan?

def sinceScan (log : List Event) : List Event :=
  log.takeWhile fun e => e.scan?.isNone

def incompleteStreak (l : List (Bool × Bool)) : ℕ :=
  (l.takeWhile (·.1)).length

def Answered (log : List Event) : Prop :=
  ∀ e ∈ sinceScan log, ¬ e.FailedRead

/-- Nothing in the log ever reached a failure: no failing branch, no unsafe inventory error,
no signal error but the macOS group fallback, no reap error, never three incomplete scans in
a row; and a scan counted as complete had every read answered. -/
structure Undisturbed (platform : Platform) (log : List Event) : Prop where
  events : ∀ e ∈ log, e.Tolerable platform
  scans : ¬ [true, true, true] <:+: (scans log).map Prod.fst
  complete : Every (fun e past => ∀ live, e = .scanned false live → Answered past) log

namespace Tracker

variable {σ : Type} {H : Host σ} {t t' : Tracker σ} {i i' : Bool}

structure Certain (platform : Platform) (s : Tracker σ × Bool) : Prop where
  streak : s.1.incompleteScans = min (incompleteStreak (scans s.1.log)) 255
  short : s.1.uncertain = false → incompleteStreak (scans s.1.log) < 3
  undisturbed : s.1.uncertain = false → Undisturbed platform s.1.log
  answered : s.1.uncertain = false → s.2 = false → Answered s.1.log

namespace Certain

variable {platform : Platform}

lemma frame (h : Certain platform (t, i)) (hl : t'.log = t.log)
    (hu : t'.uncertain = t.uncertain) (hi : t'.incompleteScans = t.incompleteScans) :
    Certain platform (t', i) := by
  refine ⟨?_, ?_, ?_, ?_⟩ <;> dsimp only <;> rw [hl]
  · rw [hi]
    exact h.streak
  · rw [hu]
    exact h.short
  · rw [hu]
    exact h.undisturbed
  · rw [hu]
    exact h.answered

lemma uncertain (h : Certain platform (t, i)) (hs : scans t'.log = scans t.log)
    (hi : t'.incompleteScans = t.incompleteScans) (hu : t'.uncertain = true) :
    Certain platform (t', i') := by
  refine ⟨?_, fun ht => ?_, fun ht => ?_, fun ht => ?_⟩
  · dsimp only
    rw [hi, hs]
    exact h.streak
  all_goals
    dsimp only at ht
    rw [hu] at ht
    exact Bool.noConfusion ht

lemma add (h : Certain platform (t, i)) {e : Event} (hl : t'.log = e :: t.log)
    (hs : e.scan? = none) (hi : t'.incompleteScans = t.incompleteScans)
    (hu : t'.uncertain = t.uncertain) (he : e.Tolerable platform)
    (hf : i' = false → i = false ∧ ¬ e.FailedRead) : Certain platform (t', i') := by
  have hscans : scans t'.log = scans t.log := by simp [scans, hl, hs]
  refine ⟨?_, fun ht => ?_, fun ht => ?_, fun ht hi' => ?_⟩
  · dsimp only
    rw [hi, hscans]
    exact h.streak
  · dsimp only at ht ⊢
    rw [hscans]
    exact h.short (hu ▸ ht)
  · have hold := h.undisturbed (hu ▸ ht)
    dsimp only
    refine ⟨fun e' he' => ?_, hscans ▸ hold.scans, ?_⟩
    · rw [hl, List.mem_cons] at he'
      rcases he' with rfl | he'
      · exact he
      · exact hold.events e' he'
    · rw [hl]
      refine ⟨fun live hlive => ?_, hold.complete⟩
      subst hlive
      exact absurd hs (by simp [Event.scan?])
  · obtain ⟨rfl, hread⟩ := hf hi'
    intro e' he'
    dsimp only at he'
    rw [hl, sinceScan, List.takeWhile_cons_of_pos (by rw [hs]; rfl), List.mem_cons] at he'
    rcases he' with rfl | he'
    · exact hread
    · exact h.answered (hu ▸ ht) rfl e' he'

lemma called (h : Certain platform (t, i)) {call : Call} {held : Held} {source : σ}
    (hc : (Event.call call held).Tolerable platform)
    (hf : ¬ (Event.call call held).FailedRead) :
    Certain platform (t.called call held source, i) :=
  h.add rfl rfl rfl rfl hc fun hi => ⟨hi, hf⟩

lemma fail (h : Certain platform (t, i)) (why : Failure) : Certain platform (t.fail why, i) :=
  h.uncertain rfl rfl rfl

lemma calledFail (h : Certain platform (t, i)) (call : Call) (held : Held) (source : σ)
    (why : Failure) : Certain platform ((t.called call held source).fail why, i) :=
  h.uncertain rfl rfl rfl

lemma calledError (h : Certain platform (t, i)) (call : Call) (held : Held) (source : σ)
    (e : IoError) (hc : e.unsafeInventory = false → (Event.call call held).Tolerable platform) :
    Certain platform ((t.called call held source).scanError e, true) := by
  rw [scanError]
  split
  · exact h.uncertain rfl rfl rfl
  · next hu => exact h.add rfl rfl rfl rfl (hc (by simpa using hu)) Bool.noConfusion

lemma concludeScan (h : Certain platform (t, i)) :
    Certain platform (t.concludeScan i, false) := by
  set t1 := t.countScan i with ht1
  have hscans : scans t1.log = (i, !t.live.isEmpty) :: scans t.log := rfl
  have hstreak : t1.incompleteScans = min (incompleteStreak (scans t1.log)) 255 := by
    rw [hscans]
    show (if i then min (t.incompleteScans + 1) 255 else 0) = _
    cases i with
    | true =>
      have := h.streak
      simp only [incompleteStreak, List.takeWhile_cons, if_true, List.length_cons] at this ⊢
      omega
    | false => simp [incompleteStreak]
  show Certain platform (if maxIncompleteScans ≤ t1.incompleteScans then t1.fail _ else t1, false)
  split
  · exact ⟨hstreak, fun hu => Bool.noConfusion hu, fun hu => Bool.noConfusion hu,
      fun hu => Bool.noConfusion hu⟩
  · next hlt =>
    have hshort : incompleteStreak (scans t1.log) < 3 := by
      simp only [maxIncompleteScans] at hlt
      omega
    refine ⟨hstreak, fun _ => hshort, fun hu => ?_, fun _ _ e he => ?_⟩
    · have hold := h.undisturbed hu
      refine ⟨fun e he => ?_, fun hinfix => ?_, fun live hlive => ?_, hold.complete⟩
      · rcases List.mem_cons.mp he with rfl | he
        · exact trivial
        · exact hold.events e he
      · dsimp only at hinfix
        rw [hscans, List.map_cons, List.infix_cons_iff] at hinfix
        rcases hinfix with hpre | hinfix
        · rw [hscans] at hshort
          match hc : scans t.log, hpre with
          | [], hpre => simp at hpre
          | [_], hpre => simp at hpre
          | (a, _) :: (b, _) :: rest, hpre =>
            simp only [List.map_cons, List.cons_prefix_cons] at hpre
            obtain ⟨rfl, rfl, rfl, -⟩ := hpre
            simp only [incompleteStreak, hc, List.takeWhile_cons, if_true, List.length_cons]
              at hshort
            omega
        · exact hold.scans hinfix
      · obtain ⟨rfl, -⟩ := Event.scanned.inj hlive
        exact h.answered hu rfl
    · simp [t1, countScan, sinceScan, Event.scan?] at he

lemma read (h : Certain platform (t, i)) {pid : ℕ} {a : Option ProcessRecord}
    (hr : t.read H pid = (.ok a, t')) : Certain platform (t', i) := by
  rw [read_eq hr]
  exact h.called trivial id

lemma checked (h : Certain H.platform (t, i)) (id : ProcessIdentity) (group : Bool) (s : ℕ) :
    Certain H.platform ((t.sendChecked H id group s).2, i) := by
  have hc := sendChecked_cases (H := H) t id group s
  generalize t.sendChecked H id group s = out at hc
  cases hc with
  | unreadable hr => exact read_eq hr ▸ h.calledFail ..
  | invalid hr => exact (h.read hr).fail _
  | refused hr | verified hr => exact h.read hr
  | sent hr _ _ _ _ hs =>
    rw [signal_eq hs]
    exact (h.read hr).called trivial not_false
  | noMembers hr _ _ hpos _ hs hm hg he =>
    rw [signal_eq hs]
    refine (h.read hr).called ⟨hm, ?_, he⟩ not_false
    subst hg
    simp [signalTarget]
    omega
  | unsent hr _ _ _ _ hs =>
    rw [signal_eq hs]
    exact (h.read hr).calledFail ..

lemma scanEffect {s s' : Tracker σ × Bool} (h : Certain platform s) (he : ScanEffect H s s') :
    Certain platform s' := by
  cases he with
  | order | unresolved | pruneGroups | pruneMembers | keep | record => exact h.frame rfl rfl rfl
  | looked hr => exact h.read hr
  | lookFailed hr => exact read_eq hr ▸ h.calledError _ _ _ _ id
  | listed hr =>
    obtain ⟨ha, rfl⟩ := Prod.mk.inj hr
    exact h.called (by rw [ha]; trivial) (by rw [ha]; exact not_false)
  | listGone hr hd =>
    obtain ⟨ha, rfl⟩ := Prod.mk.inj hr
    refine h.called ?_ ?_
    · rw [ha]
      exact IoError.not_unsafe_of_disappeared hd
    · rw [ha]
      simp [Event.FailedRead, hd]
  | listFailed hr =>
    obtain ⟨ha, rfl⟩ := Prod.mk.inj hr
    exact h.calledError _ _ _ _ (by rw [ha]; exact id)
  | grouped hr =>
    obtain ⟨ha, rfl⟩ := Prod.mk.inj hr
    exact h.called (by rw [ha]; trivial) (by rw [ha]; exact not_false)
  | groupFailed hr =>
    obtain ⟨ha, rfl⟩ := Prod.mk.inj hr
    exact h.calledError _ _ _ _ (by rw [ha]; exact id)
  | drop id =>
    rw [dropStale]
    split
    · exact h.frame rfl rfl rfl
    · exact h
  | failed why => exact h.fail why
  | @reaped t t' i held r hr =>
    have h1 : Certain platform (t', i) := by
      rw [reap_frame hr]
      exact h.called trivial not_false
    exact h1.frame rfl rfl rfl
  | reapFailed held r hr => exact reap_frame hr ▸ h.calledFail ..

lemma effect {s s' : Tracker σ × Bool} (h : Certain H.platform s) (he : Effect H s s') :
    Certain H.platform s' := by
  cases he with
  | scan he => exact h.scanEffect he
  | setMembers | setGroup | take => exact h.frame rfl rfl rfl
  | asked hr =>
    rw [now_eq hr]
    exact h.called trivial not_false
  | checked id group s hid => exact h.checked id group s
  | begin =>
    rw [beginCleanup]
    split
    · exact h
    · exact h.frame rfl rfl rfl
  | advanced => exact h.add rfl rfl rfl rfl trivial fun hi => ⟨hi, not_false⟩

end Certain

lemma Start.certain (start : Start) (source : σ) (shim : ProcessIdentity) :
    Certain H.platform (start.tracker H source shim, false) := by
  have hl : (start.tracker H source shim).log = [] := by cases start <;> rfl
  have hi : (start.tracker H source shim).incompleteScans = 0 := by cases start <;> rfl
  refine ⟨?_, fun _ => ?_, fun _ => ⟨?_, ?_, ?_⟩, fun _ _ => ?_⟩ <;> dsimp only <;> rw [hl]
  · simp [hi, scans, incompleteStreak]
  · simp [scans, incompleteStreak]
  · simp
  · simp [scans]
  · trivial
  · simp [Answered, sinceScan]

lemma run_certain (start : Start) (source : σ) (shim : ProcessIdentity) (ops : List Op) :
    Certain H.platform (run H (start.tracker H source shim) ops, false) :=
  run_invariant (fun _ _ h he => h.effect he) (fun _ _ h => h.concludeScan) ops _
    (start.certain source shim)

end Tracker

end Forcola.Native
