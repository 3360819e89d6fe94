import Forcola.Native.CleanupPace
import Forcola.Native.GroupRetention

/-! An advance at the deadline kills every retained process it can still verify. -/

namespace Forcola.Native.Tracker

open Forcola.Library

variable {σ : Type} {H : Host σ} {t t' : Tracker σ} {c : Cleanup} {now : Instant}
  {groups live : List ProcessIdentity} {id m : ProcessIdentity} {group : Bool}
  {es fs : List Event}

def Monotonic (H : Host σ) : Prop :=
  ∀ reference u, reference ≤ (H.now reference u).1

/-- A read that allows no signal: it failed, or found no process, another one or an exited
one. -/
def Spares (m : ProcessIdentity) : Io (Option ProcessRecord) → Prop
  | .error _ => True
  | .ok none => True
  | .ok (some r) => r.identity.sameProcess m = false ∨ r.exited = true

def Unread (pid : ℕ) (es : List Event) : Prop :=
  ∀ answer held, .call (.read pid answer) held ∉ es

def Fired (id : ProcessIdentity) (group : Bool) (es : List Event) : Prop :=
  ∃ r, Verified id group r ∧ ∃ later answer held held' earlier,
    es = later ++ .call (.signal (signalTarget id group) SIGKILL answer) held ::
      .call (.read id.pid (.ok (some r))) held' :: earlier

def Spared (m : ProcessIdentity) (es : List Event) : Prop :=
  ∃ answer, Spares m answer ∧ ∃ later held earlier,
    es = later ++ .call (.read m.pid answer) held :: earlier ∧ Unread m.pid later

def GroupFired (groups : List ProcessIdentity) (m : ProcessIdentity) (es : List Event) : Prop :=
  ∃ g ∈ groups, g.pgid = m.pgid ∧ Fired g true es

def Served (groups : List ProcessIdentity) (m : ProcessIdentity) (es : List Event) : Prop :=
  GroupFired groups m es ∨ Fired m false es ∨ Spared m es

lemma Unread.append {pid : ℕ} (h : Unread pid es) (h' : Unread pid fs) : Unread pid (fs ++ es) := by
  intro answer held hmem
  rcases List.mem_append.mp hmem with hmem | hmem
  · exact h' answer held hmem
  · exact h answer held hmem

lemma Fired.within (h : Fired id group es) (later earlier : List Event) :
    Fired id group (later ++ (es ++ earlier)) := by
  obtain ⟨r, hr, l, answer, held, held', e, rfl⟩ := h
  refine ⟨r, hr, later ++ l, answer, held, held', e ++ earlier, ?_⟩
  simp only [List.append_assoc, List.cons_append]

lemma GroupFired.within (h : GroupFired groups m es) (later earlier : List Event) :
    GroupFired groups m (later ++ (es ++ earlier)) := by
  obtain ⟨g, hg, hpgid, hf⟩ := h
  exact ⟨g, hg, hpgid, hf.within later earlier⟩

lemma Spared.within (h : Spared m es) {later : List Event} (hu : Unread m.pid later)
    (earlier : List Event) : Spared m (later ++ (es ++ earlier)) := by
  obtain ⟨answer, hs, l, held, e, rfl, hn⟩ := h
  refine ⟨answer, hs, later ++ l, held, e ++ earlier, ?_, hn.append hu⟩
  simp only [List.append_assoc, List.cons_append]

lemma Served.within (h : Served groups m es) {later : List Event} (hu : Unread m.pid later)
    (earlier : List Event) : Served groups m (later ++ (es ++ earlier)) := by
  rcases h with h | h | h
  · exact .inl (h.within later earlier)
  · exact .inr (.inl (h.within later earlier))
  · exact .inr (.inr (h.within hu earlier))

structure Wrote (pid : ℕ) (t t' : Tracker σ) (es : List Event) : Prop where
  log : t'.log = es ++ t.log
  unread : ∀ other, other ≠ pid → Unread other es

lemma Wrote.trans {t'' : Tracker σ} {pid : ℕ} (h : Wrote pid t t' es) (h' : Wrote pid t' t'' fs) :
    Wrote pid t t'' (fs ++ es) := by
  refine ⟨?_, fun other ho => (h.unread other ho).append (h'.unread other ho)⟩
  rw [h'.log, h.log, List.append_assoc]

lemma Wrote.event {e : Event} (pid : ℕ) (hl : t'.log = e :: t.log)
    (he : ∀ other answer held, Event.call (.read other answer) held ≠ e) :
    Wrote pid t t' [e] := by
  refine ⟨hl, ?_⟩
  intro other _ answer held hmem
  exact he other answer held (List.mem_singleton.mp hmem)

lemma Wrote.of_log (pid : ℕ) (hl : t'.log = t.log) : Wrote pid t t' [] :=
  ⟨hl, fun _ _ _ _ => List.not_mem_nil⟩

lemma Wrote.read (t : Tracker σ) {pid : ℕ} {answer : Io (Option ProcessRecord)}
    (hr : t.read H pid = (answer, t')) : Wrote pid t t' [.call (.read pid answer) t.held] := by
  obtain rfl := read_eq hr
  refine ⟨rfl, ?_⟩
  intro other ho answer' held hmem
  have heq := List.mem_singleton.mp hmem
  injection heq with hcall
  injection hcall with hpid
  exact ho hpid

lemma Wrote.fail (pid : ℕ) (t : Tracker σ) (why : Failure) :
    Wrote pid t (t.fail why) [.failed why] :=
  .event pid rfl (by simp)

lemma Spared.of_read {answer : Io (Option ProcessRecord)} {held : Held}
    (hs : Spares id answer) : Spared id [.call (.read id.pid answer) held] :=
  ⟨answer, hs, [], held, [], rfl, fun _ _ => List.not_mem_nil⟩

lemma unread_failed (pid : ℕ) (why : Failure) : Unread pid [.failed why] := by
  intro answer held hmem
  simp at hmem

lemma sendChecked_kill (t : Tracker σ) (id : ProcessIdentity) (group : Bool) :
    ∃ es, Wrote id.pid t (t.sendChecked H id group SIGKILL).2 es ∧
      (Fired id group es ∨ ((t.sendChecked H id group SIGKILL).1 = false ∧
        (group = false → 0 < id.pid → id.pid ≤ i32Max → Spared id es))) := by
  rw [sendChecked]
  split
  · next error t1 hr =>
    refine ⟨_, (Wrote.read t hr).trans (.fail id.pid t1 .identityRead), .inr ⟨rfl, ?_⟩⟩
    intro _ _ _
    have hspared : Spared id [.call (.read id.pid (.error error)) t.held] := .of_read trivial
    exact hspared.within (unread_failed _ _) []
  · next t1 hr =>
    exact ⟨_, Wrote.read t hr, .inr ⟨rfl, fun _ _ _ => .of_read trivial⟩⟩
  · next r t1 hr =>
    have hread := Wrote.read t hr
    split
    · next hv =>
      refine ⟨_, hread, .inr ⟨rfl, fun hg _ _ => .of_read (.inl ?_)⟩⟩
      simpa [hg] using hv
    · next hv =>
      split
      · next ha =>
        refine ⟨_, hread, .inr ⟨rfl, fun hg _ _ => .of_read (.inr ?_)⟩⟩
        simpa [hg] using ha
      · next ha =>
        have hver : Verified id group r := by
          simp only [Bool.or_eq_true, Bool.not_eq_eq_eq_not, Bool.not_true, Bool.and_eq_true,
            bne_iff_ne, not_or, not_and, Bool.not_eq_false] at hv ha
          refine ⟨hv.1, fun hg => ?_, fun hg => by simpa using ha hg⟩
          have := hv.2 hg
          tauto
        rw [if_neg (by decide)]
        split
        · next hp =>
          refine ⟨_, hread.trans (.fail id.pid t1 .invalidPid), .inr ⟨rfl, fun _ hpos hmax => ?_⟩⟩
          omega
        · have hfired : ∀ answer held later, Fired id group
              (later ++ ([.call (.signal (signalTarget id group) SIGKILL answer) held] ++
                [.call (.read id.pid (.ok (some r))) t.held])) :=
            fun answer held later => ⟨r, hver, later, answer, held, t.held, [], rfl⟩
          have hsignal : ∀ answer t2,
              t1.signal H (signalTarget id group) SIGKILL = (answer, t2) →
              Wrote id.pid t t2
                ([.call (.signal (signalTarget id group) SIGKILL answer) t1.held] ++
                  [.call (.read id.pid (.ok (some r))) t.held]) := by
            intro answer t2 hs
            obtain rfl := signal_eq hs
            exact hread.trans (.event id.pid rfl (by simp))
          dsimp only
          split
          · next t2 hs => exact ⟨_, hsignal _ _ hs, .inl (hfired _ _ [])⟩
          · next error t2 hs =>
            split
            · exact ⟨_, hsignal _ _ hs, .inl (hfired _ _ [])⟩
            · exact ⟨_, (hsignal _ _ hs).trans (.fail id.pid t2 .signal),
                .inl (hfired _ _ [.failed .signal])⟩

lemma nextSignal_forced {target : Instant} (hd : c.deadline ≤ target)
    (previous : Option Sequence) :
    nextSignal c previous target (c.deadline ≤ target) =
      (⟨.kill, target⟩, some SIGKILL, previous.all fun s => s.phase != .kill) := by
  simp [nextSignal, hd]

lemma afterSignal_wrote (pid : ℕ) (t : Tracker σ) (sequence : Sequence) (now : Instant) :
    ∃ es, Wrote pid t (t.afterSignal H c sequence now).2 es ∧ ∀ other, Unread other es := by
  rw [afterSignal]
  refine ⟨_, .event pid rfl (by simp), ?_⟩
  intro other answer held hmem
  simp at hmem

lemma setGroup_wrote (t : Tracker σ) (g : ProcessIdentity) (s : Sequence) :
    Wrote g.pid t (t.setGroup g s) [] :=
  .of_log g.pid rfl

lemma setMembers_wrote (pid : ℕ) (t : Tracker σ) (ids : List ProcessIdentity) (s : Sequence) :
    Wrote pid t (t.setMembers ids s) [] :=
  .of_log pid rfl

lemma failShortened_wrote (pid : ℕ) (t : Tracker σ) (shortened : Bool) :
    ∃ es, Wrote pid t (if shortened then t.fail .shortened else t) es ∧
      ∀ other, Unread other es := by
  split
  · exact ⟨_, .fail pid t .shortened, fun other => unread_failed other .shortened⟩
  · exact ⟨[], .of_log pid rfl, fun _ _ _ => List.not_mem_nil⟩

lemma advanceGroup_kill (hclock : Monotonic H) (hd : c.deadline ≤ now)
    (live : List ProcessIdentity) (g : ProcessIdentity) (previous : Option Sequence)
    (covered : List ℕ) (t : Tracker σ) :
    ∃ es, (advanceGroup H c now live g previous covered t).2.log = es ++ t.log ∧
      ∀ pid ∈ (advanceGroup H c now live g previous covered t).1, pid ∈ covered ∨
        (Fired g true es ∧ ∃ m ∈ live, m.pid = pid ∧ g.pgid = m.pgid) := by
  simp only [advanceGroup]
  split
  · exact ⟨[], rfl, fun _ h => .inl h⟩
  · have hlater := hclock now t.source
    generalize hn : t.now H now = n
    obtain ⟨target, t1⟩ := n
    have htarget : (H.now now t.source).1 = target := congrArg Prod.fst hn
    have hw1 : Wrote g.pid t t1 [.call (.now now target) t.held] := by
      obtain rfl := now_eq hn
      exact .event g.pid rfl (by simp)
    rw [htarget] at hlater
    rw [nextSignal_forced (hd.trans hlater)]
    dsimp only [Option.getD_some]
    obtain ⟨es, hw2, hout⟩ := sendChecked_kill (H := H) t1 g true
    generalize t1.sendChecked H g true SIGKILL = r at hw2 hout ⊢
    obtain ⟨sent, t2⟩ := r
    cases sent with
    | false => exact ⟨_, (hw1.trans hw2).log, fun _ h => .inl h⟩
    | true =>
      have hfired : Fired g true es := hout.resolve_right fun h => Bool.noConfusion h.1
      simp only [Option.isSome_some, if_true] at hw2 ⊢
      obtain ⟨fs, hw3, -⟩ := afterSignal_wrote (H := H) (c := c) g.pid t2 ⟨.kill, target⟩ target
      generalize t2.afterSignal H c ⟨.kill, target⟩ target = r at hw3 ⊢
      obtain ⟨s, t3⟩ := r
      dsimp only at hw3 ⊢
      obtain ⟨gs, hw4, -⟩ := failShortened_wrote g.pid (t3.setGroup g s)
        (previous.all fun s => s.phase != .kill)
      have hw : Wrote g.pid t _ _ := ((hw1.trans hw2).trans hw3).trans
        ((setGroup_wrote t3 g s).trans hw4)
      refine ⟨_, hw.log, ?_⟩
      intro pid hpid
      rcases List.mem_append.mp hpid with hpid | hpid
      · exact .inl hpid
      · obtain ⟨m, hm, rfl⟩ := List.mem_map.mp hpid
        obtain ⟨hm, hpgid⟩ := List.mem_filter.mp hm
        refine .inr ⟨?_, m, hm, rfl, (beq_iff_eq.mp hpgid).symm⟩
        have := hfired.within ((gs ++ []) ++ fs) [.call (.now now target) t.held]
        simpa only [List.append_assoc] using this

lemma advanceGroups_kill (hclock : Monotonic H) (hd : c.deadline ≤ now)
    (live : List ProcessIdentity) (l : List (ProcessIdentity × Option Sequence))
    (covered : List ℕ) (t : Tracker σ) :
    ∃ es, (advanceGroups H c now live l covered t).2.log = es ++ t.log ∧
      ∀ pid ∈ (advanceGroups H c now live l covered t).1, pid ∈ covered ∨
        ∃ m ∈ live, m.pid = pid ∧ GroupFired (l.map Prod.fst) m es := by
  induction l generalizing covered t with
  | nil => exact ⟨[], rfl, fun _ h => .inl h⟩
  | cons entry rest ih =>
    obtain ⟨g, previous⟩ := entry
    simp only [advanceGroups]
    obtain ⟨es, hlog, hcov⟩ := advanceGroup_kill hclock hd live g previous covered t
    generalize advanceGroup H c now live g previous covered t = r at hlog hcov ⊢
    obtain ⟨fs, hlog', hcov'⟩ := ih r.1 r.2
    refine ⟨fs ++ es, by rw [hlog', hlog, List.append_assoc], ?_⟩
    intro pid hpid
    rcases hcov' pid hpid with hpid | ⟨m, hm, rfl, g', hg', hpgid, hf⟩
    · rcases hcov pid hpid with hpid | ⟨hf, m, hm, rfl, hpgid⟩
      · exact .inl hpid
      · refine .inr ⟨m, hm, rfl, g, List.mem_cons_self, hpgid, ?_⟩
        simpa using hf.within fs []
    · exact .inr ⟨m, hm, rfl, g', List.mem_cons_of_mem _ hg', hpgid, hf.within [] es⟩

lemma advanceMember_kill (hclock : Monotonic H) (hd : c.deadline ≤ now) (m : ProcessIdentity)
    (t : Tracker σ) :
    ∃ es, Wrote m.pid t (advanceMember H c now m t) es ∧
      (0 < m.pid → m.pid ≤ i32Max → Fired m false es ∨ Spared m es) := by
  simp only [advanceMember]
  have hlater := hclock now t.source
  generalize hn : t.now H now = n
  obtain ⟨target, t1⟩ := n
  have htarget : (H.now now t.source).1 = target := congrArg Prod.fst hn
  have hw1 : Wrote m.pid t t1 [.call (.now now target) t.held] := by
    obtain rfl := now_eq hn
    exact .event m.pid rfl (by simp)
  rw [htarget] at hlater
  rw [nextSignal_forced (hd.trans hlater)]
  dsimp only
  obtain ⟨es, hw2, hout⟩ := sendChecked_kill (H := H) t1 m false
  have hserved : 0 < m.pid → m.pid ≤ i32Max → ∀ later earlier, Unread m.pid later →
      Fired m false (later ++ (es ++ earlier)) ∨ Spared m (later ++ (es ++ earlier)) := by
    intro hpos hmax later earlier hu
    rcases hout with hf | ⟨-, hs⟩
    · exact .inl (hf.within later earlier)
    · exact .inr ((hs rfl hpos hmax).within hu earlier)
  generalize t1.sendChecked H m false SIGKILL = r at hw2 ⊢
  obtain ⟨sent, t2⟩ := r
  cases sent with
  | false =>
    refine ⟨_, hw1.trans hw2, fun hpos hmax => ?_⟩
    exact hserved hpos hmax [] _ fun _ _ => List.not_mem_nil
  | true =>
    dsimp only at hw2 ⊢
    obtain ⟨fs, hw3, hfs⟩ := afterSignal_wrote (H := H) (c := c) m.pid t2 ⟨.kill, target⟩ target
    generalize t2.afterSignal H c ⟨.kill, target⟩ target = r at hw3 ⊢
    obtain ⟨s, t3⟩ := r
    dsimp only at hw3 ⊢
    obtain ⟨gs, hw4, hgs⟩ := failShortened_wrote m.pid (t3.setMembers [m] s)
      ((t.members.lookup m).all fun s => s.phase != .kill)
    refine ⟨_, ((hw1.trans hw2).trans hw3).trans
      ((setMembers_wrote m.pid t3 [m] s).trans hw4), ?_⟩
    intro hpos hmax
    have := hserved hpos hmax ((gs ++ []) ++ fs) [.call (.now now target) t.held]
      (by simpa only [List.append_nil] using (hfs m.pid).append (hgs m.pid))
    simpa only [List.append_assoc] using this

lemma advanceMembers_kill (hclock : Monotonic H) (hd : c.deadline ≤ now)
    (l : List ProcessIdentity) (hl : (l.map (·.pid)).Nodup) (t : Tracker σ) :
    ∃ es, (advanceMembers H c now l t).log = es ++ t.log ∧
      (∀ pid, pid ∉ l.map (·.pid) → Unread pid es) ∧
      ∀ m ∈ l, 0 < m.pid → m.pid ≤ i32Max → Fired m false es ∨ Spared m es := by
  induction l generalizing t with
  | nil => exact ⟨[], rfl, fun _ _ _ _ => List.not_mem_nil, fun _ h => absurd h List.not_mem_nil⟩
  | cons m rest ih =>
    rw [List.map_cons, List.nodup_cons] at hl
    obtain ⟨es, hw, hm⟩ := advanceMember_kill hclock hd m t
    obtain ⟨fs, hlog, hunread, hrest⟩ := ih hl.2 (advanceMember H c now m t)
    refine ⟨fs ++ es, ?_, ?_, ?_⟩
    · rw [advanceMembers, hlog, hw.log, List.append_assoc]
    · intro pid hpid
      rw [List.map_cons, List.mem_cons, not_or] at hpid
      exact (hw.unread pid hpid.1).append (hunread pid hpid.2)
    · intro m' hm' hpos hmax
      rcases List.mem_cons.mp hm' with rfl | hm'
      · rcases hm hpos hmax with hf | hs
        · left
          simpa using hf.within fs []
        · right
          simpa using hs.within (hunread _ hl.1) []
      · rcases hrest m' hm' hpos hmax with hf | hs
        · exact .inl (hf.within [] es)
        · exact .inr (hs.within (fun _ _ => List.not_mem_nil) es)

lemma GroupFired.mono {groups' : List ProcessIdentity} (h : GroupFired groups m es)
    (hg : ∀ g ∈ groups, g ∈ groups') : GroupFired groups' m es := by
  obtain ⟨g, hmem, hpgid, hf⟩ := h
  exact ⟨g, hg g hmem, hpgid, hf⟩

lemma escalate_kill (hclock : Monotonic H) (hd : c.deadline ≤ now)
    (hl : (live.map (·.pid)).Nodup) (t : Tracker σ) :
    ∃ es, (escalate H c now live t).log = es ++ t.log ∧
      ∀ m ∈ live, 0 < m.pid → m.pid ≤ i32Max → Served t.groups.keys m es := by
  have hkeys : ∀ g ∈ ((t.order H t.groups.pairs).1.map Prod.fst), g ∈ t.groups.keys := by
    intro g hg
    obtain ⟨p, hp, rfl⟩ := List.mem_map.mp hg
    exact Table.mem_keys.mpr ⟨p.2, Table.mem_pairs.mp (mem_order.mp hp)⟩
  simp only [escalate]
  have ho : (t.order H t.groups.pairs).2.log = t.log := rfl
  generalize t.order H t.groups.pairs = o at hkeys ho ⊢
  obtain ⟨es, hlog, hcov⟩ := advanceGroups_kill hclock hd live o.1 [] o.2
  generalize advanceGroups H c now live o.1 [] o.2 = r at hlog hcov ⊢
  have hsub : ((live.filter fun id => !r.1.contains id.pid).map (·.pid)).Nodup :=
    hl.sublist (List.filter_sublist.map _)
  obtain ⟨fs, hlog', -, hserved⟩ := advanceMembers_kill hclock hd _ hsub r.2
  refine ⟨fs ++ es, by rw [hlog', hlog, ho, List.append_assoc], ?_⟩
  intro m hm hpos hmax
  by_cases hpid : m.pid ∈ r.1
  · rcases hcov _ hpid with hnil | ⟨m', hm', heq, hf⟩
    · exact absurd hnil List.not_mem_nil
    · obtain rfl := List.inj_on_of_nodup_map hl hm' hm heq
      left
      simpa using (hf.mono hkeys).within fs []
  · have hrest : m ∈ live.filter fun id => !r.1.contains id.pid :=
      List.mem_filter.mpr ⟨hm, by simpa using hpid⟩
    rcases hserved m hrest hpos hmax with hf | hs
    · exact .inr (.inl (hf.within [] es))
    · exact .inr (.inr (hs.within (fun _ _ => List.not_mem_nil) es))

lemma Keyed.live_nodup (hk : Keyed t) :
    ((((t.order H t.processes.values).1.filter fun p => !p.exited).map (·.identity)).map
      (·.pid)).Nodup := by
  have hvalues : (t.processes.values.map fun p => p.identity.pid).Nodup := by
    rw [Table.map_values hk]
    exact t.processes.keys_nodup
  have hperm : ((t.order H t.processes.values).1.map fun p => p.identity.pid).Nodup :=
    ((H.order_perm t.processes.values t.source).map _).nodup_iff.mpr hvalues
  rw [List.map_map]
  exact hperm.sublist (List.filter_sublist.map _)

lemma mem_live_order : m ∈ ((t.order H t.processes.values).1.filter fun p => !p.exited).map
    (·.identity) ↔ m ∈ t.live := by
  have hp : ((t.order H t.processes.values).1.filter fun p => !p.exited).Perm
      (t.processes.values.filter fun p => !p.exited) :=
    (H.order_perm t.processes.values t.source).filter _
  exact (hp.map _).mem_iff

structure Purged (t : Tracker σ) (r : Progress × Tracker σ) : Prop where
  served : ∃ es, r.2.log = es ++ t.log ∧
    ∀ m ∈ t.live, 0 < m.pid → m.pid ≤ i32Max → Served t.groups.keys m es
  done : r.1.done = true
  uncertain : t.live ≠ [] ∨ 0 < t.incompleteScans → r.2.uncertain = true

lemma advance_purged (hk : Keyed t) (hclock : Monotonic H) (hc : t.cleanup = some c)
    (hd : c.deadline ≤ now) : Purged t (t.advance H now) := by
  obtain ⟨n, ha⟩ := advance_advanced (H := H) hc now
  refine ⟨?_, ha.done.mpr (.inr hd), ?_⟩
  · have hnodup := hk.live_nodup (H := H)
    have hmem : ∀ m, m ∈ ((t.order H t.processes.values).1.filter fun p => !p.exited).map
        (·.identity) ↔ m ∈ t.live := fun m => mem_live_order
    have hkeys : (t.order H t.processes.values).2.groups = t.groups := rfl
    have hlog : (t.order H t.processes.values).2.log = t.log := rfl
    rw [advance, hc]
    dsimp only
    generalize ((t.order H t.processes.values).1.filter fun p => !p.exited).map (·.identity) =
      live at hnodup hmem ⊢
    generalize (t.order H t.processes.values).2 = o at hkeys hlog ⊢
    obtain ⟨es, he, hs⟩ := escalate_kill hclock hd hnodup o
    have hserved : ∀ later, (∀ pid, Unread pid later) → ∀ m ∈ t.live, 0 < m.pid →
        m.pid ≤ i32Max → Served t.groups.keys m (later ++ es) := by
      intro later hl m hm hpos hmax
      rw [← hkeys]
      simpa using (hs m ((hmem m).mpr hm) hpos hmax).within (hl m.pid) []
    rw [hlog] at he
    generalize escalate H c now live o = u at he ⊢
    generalize (if live.isEmpty && u.incompleteScans == 0 then min (c.emptyScans + 1) 255
      else 0) = n
    split
    · refine ⟨[.failed .deadline, .advanced] ++ es, ?_, hserved _ ?_⟩
      · exact congrArg (fun log => .failed .deadline :: .advanced :: log) he
      · intro pid answer held hmem
        simp at hmem
    · refine ⟨[.advanced] ++ es, ?_, hserved _ ?_⟩
      · exact congrArg (.advanced :: ·) he
      · intro pid answer held hmem
        simp at hmem
  · intro hne
    by_contra hu
    obtain ⟨hlive, hscans⟩ := ha.forced (Bool.not_eq_true _ ▸ hu) hd
    rcases hne with hne | hne
    · exact hne (List.isEmpty_iff.mp hlive)
    · omega

def Start.limited (H : Host σ) (start : Start) (source : σ) (shim : ProcessIdentity)
    (groupLimit processLimit : ℕ) : Tracker σ :=
  { start.tracker H source shim with groupLimit := groupLimit, processLimit := processLimit }

lemma Start.anchored (start : Start) (source : σ) (shim : ProcessIdentity)
    (groupLimit processLimit : ℕ) :
    Anchored (start.limited H source shim groupLimit processLimit) := by
  cases start with
  | withSource root => exact (withSource_anchored source shim root).frame rfl rfl
  | empty rootPid =>
    refine ⟨fun pid r hr => ?_, fun e he => absurd he List.not_mem_nil⟩
    have hnone : (∅ : Table ℕ ProcessRecord).lookup pid = none := AList.lookup_empty pid
    exact absurd (hnone.symm.trans hr) (by simp)

/-- Whatever was scanned, signalled and advanced before, an advance at or past the deadline
sends KILL for every process it retains and can still verify. -/
theorem deadline_kills (hH : Reliable H) (hclock : Monotonic H) (start : Start) (source : σ)
    (shim : ProcessIdentity) (groupLimit processLimit : ℕ) (ops : List Op) {t : Tracker σ}
    (ht : t = run H (start.limited H source shim groupLimit processLimit) ops)
    (hc : t.cleanup = some c) (now : Instant) (hnow : c.deadline ≤ now) :
    Purged t (t.advance H now) := by
  subst ht
  have ha : Anchored (start.limited H source shim groupLimit processLimit) := start.anchored ..
  exact advance_purged (run_anchored hH ha ops).keyed hclock hc hnow

/-- Two live processes in the group of the root, at a deadline long past. -/
theorem deadline_kills_family :
    ∃ t, t = run (family.host .linux) familyTracker [.scan, .beginCleanup 0 none 0] ∧
      t.live.length = 2 ∧ Purged t (t.advance (family.host .linux) (millis 900)) := by
  obtain ⟨c, hc, hd⟩ : ∃ c, (run (family.host .linux) familyTracker
      [.scan, .beginCleanup 0 none 0]).cleanup = some c ∧ c.deadline ≤ millis 900 :=
    ⟨⟨none, 0, confirmGrace, 0⟩, by decide +kernel, by decide⟩
  refine ⟨_, rfl, by decide +kernel, ?_⟩
  exact deadline_kills (family.reliable_host .linux) (fun reference _ => Nat.le_refl reference)
    (.withSource ⟨2, 2, .macos 1 0⟩) () ⟨1, 1, .macos 0 0⟩ maxGroups maxProcesses
    [.scan, .beginCleanup 0 none 0] rfl hc (millis 900) hd

end Forcola.Native.Tracker
