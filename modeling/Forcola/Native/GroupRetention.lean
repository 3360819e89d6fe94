import Forcola.Native.Groups

/-! Which groups a scan keeps, and when there are too many of them. -/

namespace Forcola.Native.Tracker

open Forcola.Library

variable {σ : Type} {H : Host σ} {t t' : Tracker σ}

/-- Every recorded group has its leader's pid, and no other recorded group has it. -/
structure Unambiguous (t : Tracker σ) : Prop where
  leader : ∀ id ∈ t.groups, id.pid = id.pgid
  unique : ∀ id ∈ t.groups, ∀ id' ∈ t.groups, id.pgid = id'.pgid → id = id'

def pgids (t : Tracker σ) : Finset ℕ :=
  (t.processes.values.map (·.identity.pgid)).toFinset

lemma mem_pgids {pgid : ℕ} :
    pgid ∈ t.pgids ↔ ∃ p r, t.processes.lookup p = some r ∧ r.identity.pgid = pgid := by
  rw [pgids, List.mem_toFinset, List.mem_map]
  constructor
  · rintro ⟨r, hr, rfl⟩
    obtain ⟨p, hp⟩ := Table.mem_values.mp hr
    exact ⟨p, r, hp, rfl⟩
  · rintro ⟨p, r, hp, rfl⟩
    exact ⟨r, Table.mem_values.mpr ⟨p, hp⟩, rfl⟩

structure Retention (t t' : Tracker σ) : Prop where
  unambiguous : Unambiguous t'
  retained : ∀ id ∈ t'.groups, id.pgid ∈ t'.pgids
  current : ∀ id ∈ t'.groups, ∀ r, t'.processes.lookup id.pid = some r →
    r.identity.startTime = id.startTime
  crowded : failures .groupLimit t'.log ≠ failures .groupLimit t.log →
    t'.groupLimit < t'.pgids.card

structure Vouched (processes : Table ℕ ProcessRecord) (id : ProcessIdentity) : Prop where
  leader : id.pid = id.pgid
  retained : ∃ p r, processes.lookup p = some r ∧ r.identity.pgid = id.pgid
  current : ∀ r, processes.lookup id.pid = some r → r.identity.startTime = id.startTime

lemma retained_of_any {processes : Table ℕ ProcessRecord} {pgid : ℕ}
    (h : processes.values.any (·.identity.pgid == pgid) = true) :
    ∃ p r, processes.lookup p = some r ∧ r.identity.pgid = pgid := by
  obtain ⟨r, hr, heq⟩ := List.any_eq_true.mp h
  obtain ⟨p, hp⟩ := Table.mem_values.mp hr
  exact ⟨p, r, hp, beq_iff_eq.mp heq⟩

lemma Vouched.of_retains {processes : Table ℕ ProcessRecord} {id : ProcessIdentity}
    (hleader : id.pid = id.pgid) (h : retainsGroup processes id = true) : Vouched processes id := by
  rw [retainsGroup] at h
  match hl : processes.lookup id.pid with
  | none =>
    rw [hl] at h
    refine ⟨hleader, retained_of_any h, ?_⟩
    intro r hr
    rw [hl] at hr
    cases hr
  | some r =>
    rw [hl] at h
    simp only [Bool.and_eq_true, Bool.or_eq_true, beq_iff_eq] at h
    obtain ⟨hsame, hkept⟩ := h
    refine ⟨hleader, ?_, ?_⟩
    · rcases hkept with heq | hany
      · exact ⟨_, r, hl, congrArg ProcessIdentity.pgid heq⟩
      · exact retained_of_any hany
    · intro r' hr'
      rw [hl] at hr'
      cases hr'
      exact (ProcessIdentity.sameProcess_iff.mp hsame).2

lemma Vouched.of_observed (hk : Keyed t) {id : ProcessIdentity} (h : id ∈ t.observed) :
    Vouched t.processes id := by
  obtain ⟨⟨p, r, hp, rfl⟩, hleader⟩ := mem_observed.mp h
  refine ⟨hleader, ⟨p, r, hp, rfl⟩, ?_⟩
  intro r' hr'
  rw [hk p r hp, hp] at hr'
  cases hr'
  rfl

lemma Vouched.eq_observed (hk : Keyed t) {id id' : ProcessIdentity} (h : Vouched t.processes id)
    (h' : id' ∈ t.observed) (hpgid : id.pgid = id'.pgid) : id = id' := by
  obtain ⟨⟨p, r, hp, rfl⟩, hleader⟩ := mem_observed.mp h'
  have hpid : id.pid = r.identity.pid := by rw [h.leader, hleader, hpgid]
  have hstart := h.current r (by rw [hpid, hk p r hp, hp])
  cases id
  cases hid : r.identity
  simp only [hid] at hpid hpgid hstart
  rw [hpid, hpgid, hstart]

lemma Vouched.unique (hk : Keyed t') (ht : Unambiguous t) {id id' : ProcessIdentity}
    (h : Vouched t'.processes id) (h' : Vouched t'.processes id')
    (hid : id ∈ t.groups ∨ id ∈ t'.observed) (hid' : id' ∈ t.groups ∨ id' ∈ t'.observed)
    (hpgid : id.pgid = id'.pgid) : id = id' := by
  rcases hid with hold | hnew
  · rcases hid' with hold' | hnew'
    · exact ht.unique id hold id' hold' hpgid
    · exact h.eq_observed hk hnew' hpgid
  · exact (h'.eq_observed hk hnew hpgid.symm).symm

lemma vouched_scan (ht : Unambiguous t) (hk : Keyed (t.scan H)) {id : ProcessIdentity}
    (h : id ∈ (t.scan H).groups) :
    Vouched (t.scan H).processes id ∧ (id ∈ t.groups ∨ id ∈ (t.scan H).observed) := by
  obtain ⟨news, hnews⟩ := scan_announces (H := H) t
  rcases (hnews.groups id).mp h with ⟨hold, hretains⟩ | hnew
  · exact ⟨.of_retains (ht.leader id hold) hretains, .inl hold⟩
  · exact ⟨.of_observed hk (hnews.seen id hnew), .inr (hnews.seen id hnew)⟩

lemma Unambiguous.scan (ht : Unambiguous t) (hk : Keyed (t.scan H)) : Unambiguous (t.scan H) := by
  refine ⟨fun id h => (vouched_scan ht hk h).1.leader, ?_⟩
  intro id h id' h' hpgid
  obtain ⟨hv, hid⟩ := vouched_scan ht hk h
  obtain ⟨hv', hid'⟩ := vouched_scan ht hk h'
  exact hv.unique hk ht hv' hid hid' hpgid

lemma found_processes (t : Tracker σ) : (t.found H).2.processes = (t.scan H).processes := by
  rw [scan_eq_found]
  obtain ⟨-, -, hprocesses, -⟩ := concludeScan_frame
    (t := pruneMembers (recordGroups (t.found H).1 (t.found H).2)) (discover H t).2 0 .groupLimit
    (by simp)
  rw [hprocesses]
  exact (recordGroups_processes (t.found H).1 (t.found H).2).symm

lemma found_values (t : Tracker σ) : (t.found H).1.Perm (t.scan H).processes.values := by
  rw [← found_processes]
  exact H.order_perm _ _

lemma recordGroups_groupLimit (l : List ProcessRecord) (t : Tracker σ) :
    (recordGroups l t).groupLimit = t.groupLimit := by
  induction l generalizing t with
  | nil => rfl
  | cons r rest ih =>
    rw [recordGroups]
    split
    · split
      · exact ih (t.fail .groupLimit)
      · exact ih (t.recordGroup r.identity)
    · exact ih t

lemma scan_groupLimit (t : Tracker σ) : (t.scan H).groupLimit = (t.found H).2.groupLimit := by
  have hconclude (u : Tracker σ) (i : Bool) : (u.concludeScan i).groupLimit = u.groupLimit := by
    rw [concludeScan]
    split <;> rfl
  rw [scan_eq_found, hconclude]
  exact recordGroups_groupLimit (t.found H).1 (t.found H).2

lemma found_groups {id : ProcessIdentity} (hid : id ∈ (t.found H).2.groups) :
    id ∈ t.groups ∧ retainsGroup (t.scan H).processes id = true := by
  have hprobed := (discover_probed (H := H) t).settings
  rw [← found_processes]
  rw [found] at hid ⊢
  generalize (discover H t).1 = d at hprobed hid ⊢
  dsimp only [order, pruneGroups] at hid ⊢
  obtain ⟨hsettings, -⟩ := reapAdopted_settings (H := H) d.held (H.order d.processes.values d.source).1
    { d with source := (H.order d.processes.values d.source).2 }
  generalize reapAdopted H d.held (H.order d.processes.values d.source).1
    { d with source := (H.order d.processes.values d.source).2 } = e at hsettings hid ⊢
  have hgroups : e.groups = t.groups :=
    congrArg (fun v : Tracker Unit => v.groups) (hsettings.trans hprobed)
  obtain ⟨v, hv⟩ := Option.isSome_iff_exists.mp (AList.lookup_isSome.mpr hid)
  obtain ⟨hlookup, hretains⟩ := Table.lookup_retain.mp hv
  refine ⟨?_, hretains⟩
  rw [← hgroups, ← AList.lookup_isSome, hlookup]
  rfl

lemma ample_of_pgids (ht : Unambiguous t) (hk : Keyed (t.scan H))
    (h : (t.scan H).pgids.card ≤ (t.scan H).groupLimit) : t.Ample H := by
  rw [Ample, ← scan_groupLimit]
  apply Nat.le_trans _ h
  have hvouched : ∀ id ∈ (t.found H).2.groups.keys ++ leaders (t.found H).1,
      Vouched (t.scan H).processes id ∧ (id ∈ t.groups ∨ id ∈ (t.scan H).observed) := by
    intro id hid
    rcases List.mem_append.mp hid with hid | hid
    · obtain ⟨hold, hretains⟩ := found_groups (AList.mem_keys.mpr hid)
      exact ⟨.of_retains (ht.leader id hold) hretains, .inl hold⟩
    · have hobserved : id ∈ (t.scan H).observed := by
        obtain ⟨hmem, hleader⟩ := List.mem_filter.mp hid
        refine List.mem_filter.mpr ⟨?_, hleader⟩
        exact ((found_values t).map _).mem_iff.mp hmem
      exact ⟨.of_observed hk hobserved, .inr hobserved⟩
  apply Finset.card_le_card_of_injOn ProcessIdentity.pgid
  · intro id hid
    obtain ⟨hv, -⟩ := hvouched id (List.mem_toFinset.mp hid)
    exact mem_pgids.mpr hv.retained
  · intro id hid id' hid' hpgid
    obtain ⟨hv, hmem⟩ := hvouched id (List.mem_toFinset.mp hid)
    obtain ⟨hv', hmem'⟩ := hvouched id' (List.mem_toFinset.mp hid')
    exact hv.unique hk ht hv' hmem hmem' hpgid

lemma scan_retention (ht : Unambiguous t) (hk : Keyed (t.scan H)) : Retention t (t.scan H) where
  unambiguous := ht.scan hk
  retained id h := mem_pgids.mpr (vouched_scan ht hk h).1.retained
  current id h := (vouched_scan ht hk h).1.current
  crowded hfailed := by
    by_contra hroom
    exact hfailed (ample_of_pgids ht hk (Nat.le_of_not_lt hroom)).unlimited

lemma Unambiguous.steady (ht : Unambiguous t) (h : Steady t t') : Unambiguous t' := by
  refine ⟨fun id hid => ht.leader id ((h.groups id).mp hid), ?_⟩
  intro id hid id' hid' hpgid
  exact ht.unique id ((h.groups id).mp hid) id' ((h.groups id').mp hid') hpgid

lemma Unambiguous.apply (ht : Unambiguous t) (hk : Keyed (t.scan H)) (op : Op) :
    Unambiguous (t.apply H op) := by
  cases op with
  | scan => exact ht.scan hk
  | finishScan => exact (ht.scan hk).steady (.finishScan t)
  | advance now => exact ht.steady (.advance t now)
  | beginCleanup now interrupt term =>
    apply ht.steady
    rw [Tracker.apply, beginCleanup]
    split
    · exact .refl t
    · exact .of_eq rfl rfl
  | takeNewGroups => exact ⟨ht.leader, ht.unique⟩
  | fail => exact ht.steady (.of_eq rfl rfl)

def limited (H : Host σ) (source : σ) (shim root : ProcessIdentity) (groupLimit processLimit : ℕ) :
    Tracker σ :=
  { withSource H source shim root with groupLimit := groupLimit, processLimit := processLimit }

variable {source : σ} {shim root : ProcessIdentity} {groupLimit processLimit : ℕ}

lemma limited_anchored : Anchored (limited H source shim root groupLimit processLimit) :=
  (withSource_anchored source shim root).frame rfl rfl

lemma limited_unambiguous (hroot : root.pid = root.pgid) :
    Unambiguous (limited H source shim root groupLimit processLimit) := by
  have hgroups : ∀ id ∈ (limited H source shim root groupLimit processLimit).groups, id = root := by
    intro id hid
    rcases (AList.mem_insert _).mp hid with heq | hmem
    · exact heq
    · exact absurd hmem (AList.notMem_empty id)
  refine ⟨fun id hid => (hgroups id hid).symm ▸ hroot, ?_⟩
  intro id hid id' hid' _
  rw [hgroups id hid, hgroups id' hid']

lemma run_unambiguous (hH : Reliable H) (ha : Anchored t) (ht : Unambiguous t) (ops : List Op) :
    Unambiguous (run H t ops) := by
  induction ops generalizing t with
  | nil => exact ht
  | cons op ops ih =>
    have hscan : Keyed (t.scan H) := (run_anchored hH ha [.scan]).keyed
    exact ih (run_anchored hH ha [op]) (ht.apply hscan op)

/-- However many groups came and went, a scan keeps at most one leader for each group of a
retained process, and meets the limit only when there are more of these groups. -/
theorem groups_retained (hH : Reliable H) (hroot : root.pid = root.pgid) (source : σ)
    (shim : ProcessIdentity) (groupLimit processLimit : ℕ) (ops : List Op) :
    Retention (run H (limited H source shim root groupLimit processLimit) ops)
      ((run H (limited H source shim root groupLimit processLimit) ops).scan H) := by
  have ha : Anchored (limited H source shim root groupLimit processLimit) := limited_anchored
  have ht := run_unambiguous hH ha (limited_unambiguous hroot) ops
  exact scan_retention ht (run_anchored hH (run_anchored hH ha ops) [.scan]).keyed

/-- The second scan of a tracker with room for one group. -/
theorem groups_retained_family :
    let t := run (family.host .linux) (limited (family.host .linux) () ⟨1, 1, .macos 0 0⟩
      ⟨2, 2, .macos 1 0⟩ 1 8) [.scan, .takeNewGroups]
    Retention t (t.scan (family.host .linux)) ∧
      (t.scan (family.host .linux)).groups.keys = [⟨2, 2, .macos 1 0⟩] :=
  ⟨groups_retained (family.reliable_host .linux) rfl () ⟨1, 1, .macos 0 0⟩ 1 8
    [.scan, .takeNewGroups], by decide +kernel⟩

end Forcola.Native.Tracker
