import Forcola.Native.Closure
import Forcola.Native.Escalation

/-! The groups a scan records and announces. -/

namespace Forcola.Native

open Forcola.Library

namespace Tracker

variable {σ : Type} {H : Host σ} {t : Tracker σ}

lemma reapAdopted_settings (held : Held) (l : List ProcessRecord) (t : Tracker σ) :
    (reapAdopted H held l t).settings = t.settings ∧
      failures .groupLimit (reapAdopted H held l t).log = failures .groupLimit t.log := by
  induction l generalizing t with
  | nil => exact ⟨rfl, rfl⟩
  | cons r rest ih =>
    rw [reapAdopted]
    split
    · rw [reap]
      generalize (H.reap r.identity.pid t.source).2 = u
      split
      · next h =>
        obtain ⟨-, rfl⟩ := Prod.mk.inj h
        obtain ⟨hs, hf⟩ := ih ((t.called _ held u).fail .reap)
        refine ⟨hs, hf.trans ?_⟩
        rw [failures_fail_ne (by simp), failures_called]
      · next h =>
        obtain ⟨-, rfl⟩ := Prod.mk.inj h
        obtain ⟨hs, hf⟩ := ih ((t.called _ held u).removeProcess r.identity.pid)
        exact ⟨hs, hf.trans (failures_called (u := u))⟩
    · exact ih t

lemma size_recordGroup {id : ProcessIdentity} (h : t.groups.lookup id = none) :
    (t.recordGroup id).groups.size = t.groups.size + 1 := by
  have hn : id ∉ t.groups := by
    rw [← AList.lookup_isSome, h]
    simp
  exact congrArg List.length (AList.entries_insert_of_notMem hn)

structure Recorded (l : List ProcessRecord) (t t' : Tracker σ) (news : List ProcessIdentity) :
    Prop where
  pending : t'.pending = t.pending ++ news
  leaders : ∀ id ∈ news, id ∈ leaders l
  groups : ∀ id, id ∈ t'.groups ↔ id ∈ t.groups ∨ id ∈ news
  size : t'.groups.size = t.groups.size + news.length

lemma recordGroups_news (l : List ProcessRecord) (t : Tracker σ) :
    ∃ news, Recorded l t (recordGroups l t) news := by
  induction l generalizing t with
  | nil => exact ⟨[], by simp [recordGroups], by simp, by simp [recordGroups], by simp [recordGroups]⟩
  | cons r rest ih =>
    have hcons : ∀ id ∈ leaders rest, id ∈ leaders (r :: rest) := by
      intro id h
      obtain ⟨hm, hl⟩ := List.mem_filter.mp h
      exact List.mem_filter.mpr ⟨List.mem_cons_of_mem _ hm, hl⟩
    simp only [recordGroups]
    split
    · next hc =>
      split
      · obtain ⟨news, hp, hn, hg, hs⟩ := ih (t.fail .groupLimit)
        exact ⟨news, hp, fun id h => hcons id (hn id h), hg, hs⟩
      · obtain ⟨news, hp, hn, hg, hs⟩ := ih (t.recordGroup r.identity)
        refine ⟨r.identity :: news, ?_, ?_, ?_, ?_⟩
        · rw [hp]
          simp [recordGroup]
        · intro id h
          rcases List.mem_cons.mp h with rfl | h
          · exact List.mem_filter.mpr ⟨List.mem_cons_self, by simpa using hc.1⟩
          · exact hcons id (hn id h)
        · intro id
          have hins : id ∈ (t.recordGroup r.identity).groups ↔ id = r.identity ∨ id ∈ t.groups :=
            AList.mem_insert _
          rw [hg, hins, List.mem_cons]
          tauto
        · rw [hs, size_recordGroup (by simpa using hc.2), List.length_cons]
          omega
    · obtain ⟨news, hp, hn, hg, hs⟩ := ih t
      exact ⟨news, hp, fun id h => hcons id (hn id h), hg, hs⟩

def found (H : Host σ) (t : Tracker σ) : List ProcessRecord × Tracker σ :=
  let d := (discover H t).1
  let (records, u) := d.order H d.processes.values
  let u := pruneGroups (reapAdopted H d.held records u)
  u.order H u.processes.values

lemma scan_eq_found (t : Tracker σ) : t.scan H =
    (pruneMembers (recordGroups (t.found H).1 (t.found H).2)).concludeScan (discover H t).2 :=
  rfl

def Ample (H : Host σ) (t : Tracker σ) : Prop :=
  ((t.found H).2.groups.keys ++ leaders (t.found H).1).toFinset.card ≤ (t.found H).2.groupLimit

instance (H : Host σ) (t : Tracker σ) : Decidable (t.Ample H) :=
  Nat.decLe _ _

lemma Ample.unlimited (h : t.Ample H) :
    failures .groupLimit (t.scan H).log = failures .groupLimit t.log := by
  have hp := (discover_probed (H := H) t).failures_groupLimit
  rw [scan_eq_found]
  obtain ⟨-, hlog, -⟩ := concludeScan_frame
    (t := pruneMembers (recordGroups (t.found H).1 (t.found H).2)) (discover H t).2 0 .groupLimit
    (by simp)
  rw [hlog]
  have hrec := (recordGroups_recorded (t := (t.found H).2) (t.found H).1 (.inl ⟨_, h, ?_, ?_⟩)).1
  · refine hrec.trans (Eq.trans ?_ hp)
    exact (reapAdopted_settings (H := H) _ _ _).2
  · intro id hid
    exact List.mem_toFinset.mpr (List.mem_append_left _ hid)
  · intro id hid
    exact List.mem_toFinset.mpr (List.mem_append_right _ hid)

def observed (t : Tracker σ) : List ProcessIdentity :=
  leaders t.processes.values

lemma mem_observed {id : ProcessIdentity} :
    id ∈ t.observed ↔ (∃ p r, t.processes.lookup p = some r ∧ r.identity = id) ∧
      id.pid = id.pgid := by
  simp only [observed, leaders, List.mem_filter, List.mem_map, Table.mem_values, decide_eq_true_eq]
  constructor
  · rintro ⟨⟨r, ⟨p, hp⟩, rfl⟩, hl⟩
    exact ⟨⟨p, r, hp, rfl⟩, hl⟩
  · rintro ⟨⟨p, r, hp, rfl⟩, hl⟩
    exact ⟨⟨r, ⟨p, hp⟩, rfl⟩, hl⟩

structure Announces (t t' : Tracker σ) (news : List ProcessIdentity) : Prop where
  pending : t'.pending = t.pending ++ news
  seen : ∀ id ∈ news, id ∈ t'.observed
  groups : ∀ id, id ∈ t'.groups ↔
    (id ∈ t.groups ∧ retainsGroup t'.processes id = true) ∨ id ∈ news
  room : news.length ≤ t'.groups.size
  /-- Within the group limit no leader goes unrecorded. -/
  all : failures .groupLimit t'.log = failures .groupLimit t.log →
    ∀ id ∈ t'.observed, id ∈ t'.groups

lemma scan_announces (t : Tracker σ) : ∃ news, Announces t (t.scan H) news := by
  have hp := discover_probed (H := H) t
  have hscan : t.scan H = ((discover H t).1.prune H).concludeScan (discover H t).2 := rfl
  rw [hscan]
  generalize discover H t = d at hp
  obtain ⟨d, i⟩ := d
  dsimp only at hp ⊢
  obtain ⟨records, records', u, u', -, -, hperm, heq⟩ := prune_eq (H := H) d
  obtain ⟨hset, hfails⟩ := reapAdopted_settings (H := H) d.held records { d with source := u }
  generalize reapAdopted H d.held records { d with source := u } = e at heq hperm hset hfails
  have hpend : e.pending = t.pending :=
    (congrArg (fun v : Tracker Unit => v.pending) hset).trans hp.pending
  have hgroups : e.groups = t.groups :=
    (congrArg (fun v : Tracker Unit => v.groups) hset).trans hp.groups
  generalize hf : ({ e.pruneGroups with source := u' } : Tracker σ) = f at heq
  obtain ⟨news, hpn, hn, hg, hsz⟩ := recordGroups_news records' f
  obtain ⟨hproc, -, -⟩ := recordGroups_frame (t := f) records'
  have hrec := recordGroups_recorded (t := f) records'
  have hframe := concludeScan_frame (t := d.prune H) i 0 .groupLimit (by simp)
  have hfe : f.processes = e.processes := hf ▸ rfl
  have hobs : ∀ id, id ∈ ((d.prune H).concludeScan i).observed ↔ id ∈ leaders records' := by
    intro id
    have hp' : ((d.prune H).concludeScan i).processes = e.processes := by
      rw [hframe.2.2.1, heq]
      exact hproc.trans hfe
    rw [mem_observed, hp', leaders, List.mem_filter, decide_eq_true_eq]
    refine and_congr_left fun _ => ?_
    simp only [List.mem_map, hperm.mem_iff, Table.mem_values]
    constructor
    · rintro ⟨p, r, hl, rfl⟩
      exact ⟨r, ⟨p, hl⟩, rfl⟩
    · rintro ⟨r, ⟨p, hl⟩, rfl⟩
      exact ⟨p, r, hl, rfl⟩
  have hpending : ∀ v : Tracker σ, (v.concludeScan i).pending = v.pending := by
    intro v
    rw [concludeScan]
    split <;> rfl
  have hproc' : ((d.prune H).concludeScan i).processes = e.processes := by
    rw [hframe.2.2.1, heq]
    exact hproc.trans hfe
  have hold : ∀ id, id ∈ f.groups ↔ id ∈ t.groups ∧ retainsGroup e.processes id = true := by
    intro id
    subst hf
    have hmem : ∀ g : Table ProcessIdentity (Option Sequence), id ∈ g ↔ ∃ v, g.lookup id = some v := by
      intro g
      rw [← AList.lookup_isSome, Option.isSome_iff_exists]
    rw [← hgroups, hmem, hmem]
    simp only [pruneGroups, Table.lookup_retain]
    constructor
    · rintro ⟨v, hv, hr⟩
      exact ⟨⟨v, hv⟩, hr⟩
    · rintro ⟨⟨v, hv⟩, hr⟩
      exact ⟨v, hv, hr⟩
  refine ⟨news, ?_, fun id h => (hobs id).mpr (hn id h), ?_, ?_, ?_⟩
  · rw [hpending, heq]
    refine hpn.trans ?_
    rw [← hpend, ← hf]
    rfl
  · intro id
    rw [hproc', hframe.2.2.2, heq, ← hold]
    exact hg id
  · rw [hframe.2.2.2, heq]
    exact (Nat.le_add_left _ _).trans hsz.ge
  · intro hlimit id hm
    rw [hframe.2.2.2, heq]
    have hlog : failures .groupLimit (recordGroups records' f).log =
        failures .groupLimit f.log := by
      have hsame : failures .groupLimit (pruneMembers (recordGroups records' f)).log =
          failures .groupLimit t.log := by
        rw [← heq, ← hframe.2.1]
        exact hlimit
      have hfl : failures .groupLimit f.log = failures .groupLimit d.log := by
        rw [← hf]
        exact hfails
      rw [hfl, hp.failures_groupLimit]
      exact hsame
    exact ((hrec (.inr hlog)).2 id).mpr (.inr ((hobs id).mp hm))

structure Bounded (t₀ t : Tracker σ) : Prop where
  shim : t.shim = t₀.shim
  rootPid : t.rootPid = t₀.rootPid
  adoptOrphans : t.adoptOrphans = t₀.adoptOrphans
  processLimit : t.processLimit = t₀.processLimit
  groupLimit : t.groupLimit = t₀.groupLimit
  groups : t.groups.size ≤ t.groupLimit

namespace Bounded

variable {t₀ : Tracker σ}

lemma frame (h : Bounded t₀ t) (hs : t'.settings = t.settings) : Bounded t₀ t' := by
  have hg : t'.groups = t.groups := congrArg (fun v : Tracker Unit => v.groups) hs
  have hl : t'.groupLimit = t.groupLimit := congrArg (fun v : Tracker Unit => v.groupLimit) hs
  refine ⟨(congrArg (fun v : Tracker Unit => v.shim) hs).trans h.shim,
    (congrArg (fun v : Tracker Unit => v.rootPid) hs).trans h.rootPid,
    (congrArg (fun v : Tracker Unit => v.adoptOrphans) hs).trans h.adoptOrphans,
    (congrArg (fun v : Tracker Unit => v.processLimit) hs).trans h.processLimit,
    hl.trans h.groupLimit, ?_⟩
  rw [hg, hl]
  exact h.groups

lemma scanError (h : Bounded t₀ t) (e : IoError) : Bounded t₀ (t.scanError e) := by
  rw [Tracker.scanError]
  split <;> exact h.frame rfl

lemma scanEffect {s s' : Tracker σ × Bool} (h : Bounded t₀ s.1) (he : ScanEffect H s s') :
    Bounded t₀ s'.1 := by
  cases he with
  | order | unresolved | keep | failed => exact h.frame rfl
  | pruneMembers => exact ⟨h.shim, h.rootPid, h.adoptOrphans, h.processLimit, h.groupLimit, h.groups⟩
  | looked hr =>
    obtain rfl := read_eq hr
    exact h.frame rfl
  | lookFailed hr =>
    obtain rfl := read_eq hr
    apply scanError
    exact h.frame rfl
  | listed hr | listGone hr | grouped hr =>
    obtain ⟨-, rfl⟩ := Prod.mk.inj hr
    exact h.frame rfl
  | listFailed hr | groupFailed hr =>
    obtain ⟨-, rfl⟩ := Prod.mk.inj hr
    apply scanError
    exact h.frame rfl
  | drop id =>
    dsimp only [dropStale]
    split <;> exact h.frame rfl
  | reaped held r hr | reapFailed held r hr =>
    obtain rfl := reap_frame hr
    exact h.frame rfl
  | pruneGroups =>
    refine ⟨h.shim, h.rootPid, h.adoptOrphans, h.processLimit, h.groupLimit, ?_⟩
    exact (List.length_filter_le _ _).trans h.groups
  | record r hr hl hn hroom =>
    refine ⟨h.shim, h.rootPid, h.adoptOrphans, h.processLimit, h.groupLimit, ?_⟩
    rw [size_recordGroup hn]
    exact hroom

lemma effect {s s' : Tracker σ × Bool} (h : Bounded t₀ s.1) (he : Effect H s s') :
    Bounded t₀ s'.1 := by
  cases he with
  | scan he => exact h.scanEffect he
  | asked ha =>
    obtain rfl := now_eq ha
    exact h.frame rfl
  | @checked t i id group signal =>
    have hc := sendChecked_cases (H := H) t id group signal
    generalize t.sendChecked H id group signal = r at hc ⊢
    cases hc with
    | unreadable hr | invalid hr | refused hr | verified hr =>
      obtain rfl := read_eq hr
      exact h.frame rfl
    | sent hr _ _ _ _ hs | noMembers hr _ _ _ _ hs | unsent hr _ _ _ _ hs =>
      obtain rfl := read_eq hr
      obtain rfl := signal_eq hs
      exact h.frame rfl
  | setGroup id s hid =>
    refine ⟨h.shim, h.rootPid, h.adoptOrphans, h.processLimit, h.groupLimit, ?_⟩
    refine le_of_eq_of_le ?_ h.groups
    exact Table.size_insert_of_mem hid
  | setMembers | take | advanced =>
    exact ⟨h.shim, h.rootPid, h.adoptOrphans, h.processLimit, h.groupLimit, h.groups⟩
  | begin now interrupt term =>
    dsimp only [beginCleanup]
    split
    · exact h
    · exact ⟨h.shim, h.rootPid, h.adoptOrphans, h.processLimit, h.groupLimit, h.groups⟩

lemma concludeScan (h : Bounded t₀ t) (i : Bool) : Bounded t₀ (t.concludeScan i) := by
  have hc : Bounded t₀ (t.countScan i) :=
    ⟨h.shim, h.rootPid, h.adoptOrphans, h.processLimit, h.groupLimit, h.groups⟩
  rw [Tracker.concludeScan]
  split
  · exact hc.frame rfl
  · exact hc

end Bounded

lemma Bounded.run {t₀ : Tracker σ} (h : Bounded t₀ t) (ops : List Op) :
    Bounded t₀ (Tracker.run H t ops) :=
  run_invariant (I := fun s => Bounded t₀ s.1) (fun _ _ h he => h.effect he)
    (fun _ i h => h.concludeScan i) ops t h

end Tracker

end Forcola.Native
