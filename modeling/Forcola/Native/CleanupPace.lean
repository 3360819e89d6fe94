import Forcola.Native.Confirmation

/-! What a finished cleanup saw: the scans its empty-scan counter stands for. -/

namespace Forcola.Native.Tracker

variable {σ : Type} {H : Host σ} {t t₀ : Tracker σ}

lemma live_isEmpty_order (t : Tracker σ) :
    (((t.order H t.processes.values).1.filter fun p => !p.exited).map (·.identity)).isEmpty =
      t.live.isEmpty := by
  have hp : ((t.order H t.processes.values).1.filter fun p => !p.exited).Perm
      (t.processes.values.filter fun p => !p.exited) :=
    (H.order_perm t.processes.values t.source).filter _
  rw [live, Bool.eq_iff_iff, List.isEmpty_iff, List.isEmpty_iff, List.map_eq_nil_iff,
    List.map_eq_nil_iff]
  exact ⟨fun h => (h ▸ hp).nil_eq.symm, fun h => (h ▸ hp).eq_nil⟩

structure Scanned (t t' : Tracker σ) (incomplete : Bool) : Prop where
  marks : marks t'.log = .scanned incomplete (!t'.live.isEmpty) :: marks t.log
  incompleteScans : t'.incompleteScans = 0 ↔ incomplete = false
  cleanup : t'.cleanup = t.cleanup

lemma scan_scanned (t : Tracker σ) : ∃ i, Scanned t (t.scan H) i := by
  obtain ⟨t', i, he, hs⟩ := scan_effects (H := H) t
  obtain ⟨hm, hc⟩ := he.frame
  have hcount : (t'.countScan i).incompleteScans = 0 ↔ i = false := by
    cases i with
    | false => simp [countScan]
    | true => simp [countScan]
  refine ⟨i, ?_⟩
  rw [hs, concludeScan]
  split
  · exact ⟨congrArg (Mark.scanned i (!t'.live.isEmpty) :: ·) hm, hcount, hc⟩
  · exact ⟨congrArg (Mark.scanned i (!t'.live.isEmpty) :: ·) hm, hcount, hc⟩

structure Advanced (t : Tracker σ) (c : Cleanup) (now : Instant) (n : ℕ)
    (r : Progress × Tracker σ) : Prop where
  count : n = if t.live.isEmpty && t.incompleteScans == 0 then min (c.emptyScans + 1) 255 else 0
  marks : marks r.2.log = .advanced :: marks t.log
  cleanup : r.2.cleanup = some { c with emptyScans := n }
  processes : r.2.processes = t.processes
  incompleteScans : r.2.incompleteScans = t.incompleteScans
  done : r.1.done = true ↔ 2 ≤ n ∨ c.deadline ≤ now
  confirmed : r.1.confirmed = true ↔
    r.1.done = true ∧ t.live.isEmpty = true ∧ r.2.uncertain = false
  forced : r.2.uncertain = false → c.deadline ≤ now →
    t.live.isEmpty = true ∧ t.incompleteScans = 0

lemma advance_advanced {c : Cleanup} (hc : t.cleanup = some c) (now : Instant) :
    ∃ n, Advanced t c now n (t.advance H now) := by
  have hlive := live_isEmpty_order (H := H) t
  have hall : ∀ id ∈ ((t.order H t.processes.values).1.filter fun p => !p.exited).map (·.identity),
      (t.order H t.processes.values).2.held.Records id := by
    intro id h
    exact records_of_live (l := (t.order H t.processes.values).1)
      (fun r hr => mem_order.mp hr) h
  rw [advance, hc]
  dsimp only
  generalize ((t.order H t.processes.values).1.filter fun p => !p.exited).map (·.identity) = live
    at hlive hall ⊢
  have hp : Passed t (escalate H c now live (t.order H t.processes.values).2) :=
    (Passed.ordered t _).trans (escalate_effects (i := false) c now live _ hall).2
  generalize escalate H c now live (t.order H t.processes.values).2 = t2 at hp ⊢
  rw [hlive, hp.incompleteScans]
  generalize hn : (if t.live.isEmpty && t.incompleteScans == 0 then min (c.emptyScans + 1) 255
    else 0) = n
  refine ⟨n, ?_⟩
  have hi : (t2.countEmpty { c with emptyScans := n }).incompleteScans = t.incompleteScans :=
    hp.incompleteScans
  rw [hi]
  split
  · exact ⟨hn.symm, congrArg (Mark.advanced :: ·) hp.marks, rfl, hp.processes, hi,
      by simp, by simp [fail], fun hu => Bool.noConfusion hu⟩
  · next hf =>
    refine ⟨hn.symm, congrArg (Mark.advanced :: ·) hp.marks, rfl, hp.processes, hi,
      by simp, by simp [and_assoc], fun _ hd => ?_⟩
    simpa [hd] using hf

/-- Runs in which a scan with no other scan or advance after it precedes each advance.
The flag says that such a scan is there. In a `steady` run, a cleanup that counted an empty
scan advances after every scan. -/
inductive Paced (H : Host σ) (t₀ : Tracker σ) (steady : Bool) : List Op → Bool → Prop
  | nil : Paced H t₀ steady [] false
  | scan {ops fresh} : Paced H t₀ steady ops fresh →
      (steady = true → fresh = true → ∀ c ∈ (run H t₀ ops).cleanup, c.emptyScans = 0) →
      Paced H t₀ steady (ops ++ [.scan]) true
  | advance {ops} (now) : Paced H t₀ steady ops true →
      Paced H t₀ steady (ops ++ [.advance now]) false
  | beginCleanup {ops fresh} (now interrupt term) : Paced H t₀ steady ops fresh →
      Paced H t₀ steady (ops ++ [.beginCleanup now interrupt term]) fresh
  | takeNewGroups {ops fresh} : Paced H t₀ steady ops fresh →
      Paced H t₀ steady (ops ++ [.takeNewGroups]) fresh
  | fail {ops fresh} : Paced H t₀ steady ops fresh → Paced H t₀ steady (ops ++ [.fail]) fresh
  | finishScan {ops fresh} : Paced H t₀ steady ops fresh → steady = false →
      Paced H t₀ steady (ops ++ [.finishScan]) false

/-- The newest advance came after a complete scan that retained no live process; `bare`
are the scans since then. -/
def Quiet (bare : List Mark) (log : List Event) : Prop :=
  .advanced ∉ bare ∧ ∃ rest, marks log = bare ++ .advanced :: .scanned false false :: rest

structure Watched (steady fresh : Bool) (t : Tracker σ) : Prop where
  quiet : ∀ c, t.cleanup = some c → 1 ≤ c.emptyScans →
    ∃ bare, Quiet bare t.log ∧ (steady = true → bare.length ≤ if fresh then 1 else 0)
  fresh : fresh = true → ∃ i rest, marks t.log = .scanned i (!t.live.isEmpty) :: rest ∧
    (t.incompleteScans = 0 ↔ i = false)

namespace Watched

variable {steady fresh : Bool}

lemma frame {t' : Tracker σ} (h : Watched steady fresh t) (hm : marks t'.log = marks t.log)
    (hc : t'.cleanup = t.cleanup) (hi : t'.incompleteScans = t.incompleteScans)
    (hp : t'.processes = t.processes) : Watched steady fresh t' := by
  refine ⟨fun c hc' hn => ?_, fun hf => ?_⟩
  · obtain ⟨bare, ⟨hb, rest, hq⟩, hlen⟩ := h.quiet c (hc ▸ hc') hn
    exact ⟨bare, ⟨hb, rest, hm.trans hq⟩, hlen⟩
  · rw [hm, hi, live, hp]
    exact h.fresh hf

lemma beginCleanup (h : Watched steady fresh t) (now : Instant) (interrupt : Option Duration)
    (term : Duration) : Watched steady fresh (t.beginCleanup now interrupt term) := by
  rw [Tracker.beginCleanup]
  split
  · exact h
  · refine ⟨fun c hc hn => ?_, h.fresh⟩
    obtain rfl := Option.some.inj hc
    exact absurd hn (by simp)

lemma scanned {t' : Tracker σ} {i : Bool} (h : Watched steady fresh t) (hs : Scanned t t' i)
    (hsteady : steady = true → fresh = true → ∀ c ∈ t.cleanup, c.emptyScans = 0) : Watched steady true t' := by
  refine ⟨fun c hc hn => ?_, fun _ => ⟨i, _, hs.marks, hs.incompleteScans⟩⟩
  rw [hs.cleanup] at hc
  obtain ⟨bare, ⟨hb, rest, hm⟩, hlen⟩ := h.quiet c hc hn
  refine ⟨.scanned i (!t'.live.isEmpty) :: bare, ⟨by simpa using hb, rest, ?_⟩, fun hst => ?_⟩
  · rw [hs.marks, hm, List.cons_append]
  · cases fresh with
    | true =>
      have := hsteady hst rfl c hc
      omega
    | false =>
      have := hlen hst
      simpa using this

lemma last {i l : Bool} {rest bare rest' : List Mark} (hb : Mark.advanced ∉ bare)
    (h : Mark.scanned i l :: rest = bare ++ .advanced :: rest') :
    ∃ bare', bare = .scanned i l :: bare' ∧ rest = bare' ++ .advanced :: rest' := by
  cases bare with
  | nil => exact Mark.noConfusion (List.cons.inj h).1
  | cons m bare' =>
    obtain ⟨rfl, hr⟩ := List.cons.inj h
    exact ⟨bare', rfl, hr⟩

lemma idle (h : Watched steady true t) (hl : t.live.isEmpty = true) (hi : t.incompleteScans = 0) :
    ∃ rest, marks t.log = .scanned false false :: rest := by
  obtain ⟨i, rest, hm, hinc⟩ := h.fresh rfl
  rw [hinc.mp hi, hl] at hm
  exact ⟨rest, hm⟩

lemma advanced {c : Cleanup} {now : Instant} {n : ℕ} {r : Progress × Tracker σ}
    (h : Watched steady true t) (ha : Advanced t c now n r) : Watched steady false r.2 := by
  refine ⟨fun c' hc' hn => ?_, fun hf => Bool.noConfusion hf⟩
  rw [ha.cleanup] at hc'
  obtain rfl := Option.some.inj hc'
  dsimp only at hn
  rw [ha.count] at hn
  split at hn
  · next hidle =>
    simp only [Bool.and_eq_true, beq_iff_eq] at hidle
    obtain ⟨rest, hm⟩ := h.idle hidle.1 hidle.2
    exact ⟨[], ⟨List.not_mem_nil, rest, by rw [ha.marks, hm]; rfl⟩, fun _ => Nat.zero_le _⟩
  · exact absurd hn (by omega)

end Watched

lemma Start.watched (start : Start) (source : σ) (shim : ProcessIdentity) (steady : Bool) :
    Watched steady false (start.tracker H source shim) :=
  ⟨fun c hc => absurd hc (by cases start <;> exact Option.some_ne_none c ∘ Eq.symm),
    fun h => Bool.noConfusion h⟩

lemma advance_watched {steady : Bool} (h : Watched steady true t) (now : Instant) :
    Watched steady false (t.advance H now).2 := by
  cases hc : t.cleanup with
  | none =>
    refine ⟨fun c hc' => ?_, fun h => Bool.noConfusion h⟩
    rw [advance, hc] at hc'
    dsimp only at hc'
    rw [hc] at hc'
    cases hc'
  | some c =>
    obtain ⟨n, ha⟩ := advance_advanced (H := H) hc now
    exact h.advanced ha

lemma finishScan_passed (t : Tracker σ) : Passed (t.scan H) (t.finishScan H).2 := by
  simp only [finishScan]
  split
  · exact .ordered ..
  · exact ((Passed.ordered _ _).trans (.fail _ _)).trans (sendKills_passed _ _)

lemma Paced.watched {steady fresh : Bool} {ops : List Op} (h₀ : Watched steady false t₀)
    (h : Paced H t₀ steady ops fresh) : Watched steady fresh (run H t₀ ops) := by
  induction h with
  | nil => exact h₀
  | scan _ hsteady ih =>
    rw [run_append]
    obtain ⟨i, hs⟩ := scan_scanned (H := H) (run H t₀ _)
    exact ih.scanned hs hsteady
  | advance now _ ih =>
    rw [run_append]
    exact advance_watched ih now
  | beginCleanup now interrupt term _ ih =>
    rw [run_append]
    exact ih.beginCleanup now interrupt term
  | takeNewGroups _ ih | fail _ ih =>
    rw [run_append]
    exact ih.frame rfl rfl rfl rfl
  | @finishScan ops fresh _ hs ih =>
    rw [run_append]
    obtain ⟨i, hsc⟩ := scan_scanned (H := H) (run H t₀ ops)
    have hp := finishScan_passed (H := H) (run H t₀ ops)
    have hw := (ih.scanned hsc fun hst => by simp [hs] at hst).frame hp.marks hp.cleanup
      hp.incompleteScans hp.processes
    refine ⟨fun c hc hn => ?_, fun h => Bool.noConfusion h⟩
    obtain ⟨bare, hq, -⟩ := hw.quiet c hc hn
    exact ⟨bare, hq, fun hst => by simp [hs] at hst⟩

lemma advance_processes (t : Tracker σ) (now : Instant) :
    (t.advance H now).2.processes = t.processes := by
  cases hc : t.cleanup with
  | none => simp [advance, hc]
  | some c =>
    obtain ⟨n, ha⟩ := advance_advanced (H := H) hc now
    exact ha.processes

lemma advance_expired (t : Tracker σ) (now at_ : Instant) :
    (t.advance H now).2.expired at_ = t.expired at_ := by
  cases hc : t.cleanup with
  | none => simp [advance, hc]
  | some c =>
    obtain ⟨n, ha⟩ := advance_advanced (H := H) hc now
    simp [expired, ha.cleanup, hc]

lemma finishScan_expired (t : Tracker σ) (at_ : Instant) :
    (t.finishScan H).2.expired at_ = t.expired at_ := by
  obtain ⟨i, hs⟩ := scan_scanned (H := H) t
  rw [expired, (finishScan_passed t).cleanup, hs.cleanup, expired]

structure Settled (platform : Platform) (newest : List Mark) (t : Tracker σ) : Prop where
  undisturbed : Undisturbed platform t.log
  live : t.live = []
  marks : newest <+: marks t.log

def TwiceQuiet (bare : List Mark) (log : List Event) : Prop :=
  .advanced ∉ bare ∧
    [.advanced, .scanned false false] ++ bare ++ [.advanced, .scanned false false] <+: marks log

variable {source : σ} {shim : ProcessIdentity} {start : Start} {ops : List Op}

lemma certain_step (op : Op) (h : t = run H (start.tracker H source shim) ops) :
    Certain H.platform (t.apply H op, false) := by
  have := run_certain (H := H) start source shim (ops ++ [op])
  rwa [run_append, ← h] at this

lemma advance_settled {steady : Bool} {now : Instant}
    (hp : Paced H (start.tracker H source shim) steady ops true)
    (hconf : ((run H (start.tracker H source shim) ops).advance H now).1.confirmed = true) :
    Settled H.platform [.advanced, .scanned false false]
      ((run H (start.tracker H source shim) ops).advance H now).2 := by
  have hw := hp.watched (start.watched source shim steady)
  have hcert := certain_step (.advance now)
    (rfl : run H (start.tracker H source shim) ops = _)
  generalize run H (start.tracker H source shim) ops = t at hw hcert hconf ⊢
  cases hc : t.cleanup with
  | none => simp [advance, hc] at hconf
  | some c =>
    obtain ⟨n, ha⟩ := advance_advanced (H := H) hc now
    obtain ⟨hdone, hlive, hu⟩ := ha.confirmed.mp hconf
    have hinc : t.incompleteScans = 0 := by
      rcases ha.done.mp hdone with hn | hd
      · by_contra hne
        have := ha.count
        simp [hne] at this
        omega
      · exact (ha.forced hu hd).2
    obtain ⟨rest, hm⟩ := hw.idle hlive hinc
    refine ⟨hcert.undisturbed hu, ?_, ?_⟩
    · rw [Tracker.live, ha.processes]
      exact List.isEmpty_iff.mp hlive
    · rw [ha.marks, hm]
      exact ⟨rest, rfl⟩

lemma advance_twiceQuiet {steady : Bool} {now : Instant}
    (hp : Paced H (start.tracker H source shim) steady ops true)
    (hdone : ((run H (start.tracker H source shim) ops).advance H now).1.done = true)
    (hforce : (run H (start.tracker H source shim) ops).expired now = false) :
    ∃ bare, TwiceQuiet bare ((run H (start.tracker H source shim) ops).advance H now).2.log ∧
      (steady = true → bare = []) := by
  have hw := hp.watched (start.watched source shim steady)
  generalize run H (start.tracker H source shim) ops = t at hw hdone hforce ⊢
  cases hc : t.cleanup with
  | none => simp [advance, hc] at hdone
  | some c =>
    obtain ⟨n, ha⟩ := advance_advanced (H := H) hc now
    have hn : 2 ≤ n := by
      rcases ha.done.mp hdone with hn | hd
      · exact hn
      · simp [expired, hc, hd] at hforce
    have hcount := ha.count
    split at hcount
    · next hidle =>
      simp only [Bool.and_eq_true, beq_iff_eq] at hidle
      obtain ⟨rest, hm⟩ := hw.idle hidle.1 hidle.2
      obtain ⟨bare, ⟨hb, rest', hq⟩, hlen⟩ := hw.quiet c hc (by omega)
      obtain ⟨bare', rfl, hr⟩ := Watched.last hb (hm.symm.trans hq)
      refine ⟨bare', ⟨fun h => hb (List.mem_cons_of_mem _ h), rest', ?_⟩, fun hst => ?_⟩
      · rw [ha.marks, hm, hr]
        simp
      · have := hlen hst
        simpa using this
    · omega

lemma finishScan_settled
    (hconf : ((run H (start.tracker H source shim) ops).finishScan H).1 = true) :
    Settled H.platform
      (.scanned false false :: marks (run H (start.tracker H source shim) ops).log)
      ((run H (start.tracker H source shim) ops).finishScan H).2 := by
  have hcert := certain_step .finishScan (rfl : run H (start.tracker H source shim) ops = _)
  generalize run H (start.tracker H source shim) ops = t at hcert hconf ⊢
  obtain ⟨i, hs⟩ := scan_scanned (H := H) t
  have hp := finishScan_passed (H := H) t
  have hr : (t.finishScan H).1 =
      (!(t.finishScan H).2.uncertain && (t.finishScan H).2.incompleteScans == 0) := rfl
  rw [hr, Bool.and_eq_true, beq_iff_eq, Bool.not_eq_true'] at hconf
  obtain ⟨hu, hinc⟩ := hconf
  have hlive : (t.scan H).live.isEmpty = true := by
    by_contra hne
    rw [← live_isEmpty_order (H := H)] at hne
    simp only [finishScan, if_neg hne] at hu
    exact Bool.noConfusion (hu.symm.trans ((sendKills_passed _ _).uncertain rfl))
  have hi : i = false := hs.incompleteScans.mp (hp.incompleteScans ▸ hinc)
  refine ⟨hcert.undisturbed hu, ?_, ?_⟩
  · rw [live, hp.processes]
    exact List.isEmpty_iff.mp hlive
  · rw [hp.marks, hs.marks, hi, hlive]
    exact List.prefix_rfl

end Forcola.Native.Tracker
