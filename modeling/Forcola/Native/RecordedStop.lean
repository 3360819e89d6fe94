import Forcola.Library.History
import Forcola.Native.RecordedGroups

/-! Whom stopping recorded groups may signal. -/

namespace Forcola.Native.RecordedGroups

open Beam (Json)
open Library.History

variable {σ : Type} {os : Os σ} {recorded : List Recorded} {m m' m'' : Request σ}
variable {log : List Event} {entry : ℕ} {expected : ProcessIdentity}

def SeenGone (recorded : List Recorded) (expected : ProcessIdentity) (past : List Event) : Prop :=
  ∃ entry : ℕ, recorded[entry]? = some (.group expected) ∧ .gone entry ∈ past

def Replaced (expected : ProcessIdentity) (e : Event) : Prop :=
  ∃ own r, e = .read own expected.pid (.ok (some r)) ∧
    r.identity.startTime ≠ expected.startTime

/-- Until a group is seen gone, only its own observation finds its leader replaced. -/
def OwnSighting (recorded : List Recorded) (e : Event) (past : List Event) : Prop :=
  ∀ expected, .group expected ∈ recorded → Replaced expected e → SeenGone recorded expected past ∨
    ∃ (entry : ℕ) (pid : ℕ) (answer : Io (Option ProcessRecord)),
      recorded[entry]? = some (.group expected) ∧ e = .read (some entry) pid answer

/-- A group listed more than once and seen gone in one entry stays empty until it is seen gone in
all of them. -/
def StaysGone (recorded : List Recorded) (e : Event) (past : List Event) : Prop :=
  ∀ (entry : ℕ) expected, recorded[entry]? = some (.group expected) → .gone entry ∉ past →
    SeenGone recorded expected past →
      ∀ own pid r, e = .read own pid (.ok (some r)) → r.exited = false →
        r.identity.pgid ≠ expected.pgid

/-- The read just before a signal shows the recorded leader, or the member signalled, alive. -/
def Aimed (expected : ProcessIdentity) (target : ℤ) (past : List Event) : Prop :=
  ∃ own pid r, past.head? = some (.read own pid (.ok (some r))) ∧ r.exited = false ∧
    (target = -(expected.pgid : ℤ) ∧ r.identity = expected ∨
      target = pid ∧ r.identity.pgid = expected.pgid)

def Licensed (recorded : List Recorded) (e : Event) (past : List Event) : Prop :=
  ∀ entry target number answer, e = .kill entry target number answer →
    ∃ expected, recorded[entry]? = some (.group expected) ∧ ¬SeenGone recorded expected past ∧
      (∀ e' ∈ past, ¬Replaced expected e') ∧ Aimed expected target past

def Tame (recorded : List Recorded) (e : Event) (past : List Event) : Prop :=
  OwnSighting recorded e past ∧ StaysGone recorded e past

structure Kept (recorded : List Recorded) (log : List Event) : Prop where
  licensed : Every (Tame recorded) log → Every (Licensed recorded) log
  gone : Every (Tame recorded) log → ∀ expected, .group expected ∈ recorded →
    (∃ e ∈ log, Replaced expected e) → SeenGone recorded expected log

lemma SeenGone.cons {past : List Event} (h : SeenGone recorded expected past) (e : Event) :
    SeenGone recorded expected (e :: past) := by
  obtain ⟨entry, hrec, hgone⟩ := h
  exact ⟨entry, hrec, List.mem_cons_of_mem _ hgone⟩

lemma not_replaced {e : Event} (he : ∀ own pid answer, e ≠ .read own pid answer) :
    ¬Replaced expected e := by
  rintro ⟨own, r, heq, -⟩
  exact he _ _ _ heq

lemma Aimed.not_gone {target : ℤ} (h : Aimed expected target log)
    (htame : Every (Tame recorded) log) (hrec : recorded[entry]? = some (.group expected))
    (hgone : .gone entry ∉ log) : ¬SeenGone recorded expected log := by
  rintro ⟨other, hother, hmem⟩
  obtain ⟨own, pid, r, hhead, hlive, hr⟩ := h
  cases log with
  | nil => cases hhead
  | cons e past =>
    obtain rfl := Option.some.inj hhead
    have hpast : SeenGone recorded expected past :=
      ⟨other, hother, (List.mem_cons.mp hmem).resolve_left nofun⟩
    have hpgid : r.identity.pgid = expected.pgid := by
      rcases hr with ⟨-, hr⟩ | ⟨-, hr⟩
      · rw [hr]
      · exact hr
    exact htame.1.2 entry expected hrec (fun hm => hgone (List.mem_cons_of_mem _ hm)) hpast own pid
      r rfl hlive hpgid

namespace Kept

lemma nil : Kept recorded [] :=
  ⟨fun _ => trivial, fun _ _ _ ⟨_, he, _⟩ => absurd he List.not_mem_nil⟩

lemma read (h : Kept recorded log) (pid : ℕ) (answer : Io (Option ProcessRecord)) :
    Kept recorded (.read none pid answer :: log) := by
  constructor
  · rintro ⟨-, hpast⟩
    exact ⟨by rintro entry target number answer' ⟨⟩, h.licensed hpast⟩
  · rintro ⟨⟨hown, -⟩, hpast⟩ expected hlisted ⟨e, he, hr⟩
    rcases List.mem_cons.mp he with rfl | he
    · rcases hown expected hlisted hr with hg | ⟨entry, pid', answer', -, hread⟩
      · exact hg.cons _
      · cases hread
    · exact (h.gone hpast expected hlisted ⟨e, he, hr⟩).cons _

lemma own_read (h : Kept recorded log) {pid : ℕ} {answer : Io (Option ProcessRecord)}
    (hrec : recorded[entry]? = some (.group expected))
    (hr : ¬Replaced expected (.read (some entry) pid answer)) :
    Kept recorded (.read (some entry) pid answer :: log) := by
  constructor
  · rintro ⟨-, hpast⟩
    exact ⟨by rintro entry target number answer' ⟨⟩, h.licensed hpast⟩
  · rintro ⟨⟨hown, -⟩, hpast⟩ other hlisted ⟨e, he, hother⟩
    rcases List.mem_cons.mp he with rfl | he
    · rcases hown other hlisted hother with hg | ⟨entry', pid', answer', hrec', hread⟩
      · exact hg.cons _
      · cases hread
        cases hrec.symm.trans hrec'
        exact absurd hother hr
    · exact (h.gone hpast other hlisted ⟨e, he, hother⟩).cons _

lemma own_gone (h : Kept recorded log) (pid : ℕ) (answer : Io (Option ProcessRecord)) :
    Kept recorded (.gone entry :: .read (some entry) pid answer :: log) := by
  constructor
  · rintro ⟨-, -, hpast⟩
    refine ⟨by rintro entry target number answer' ⟨⟩, ?_, h.licensed hpast⟩
    rintro entry target number answer' ⟨⟩
  · rintro ⟨-, ⟨hown, -⟩, hpast⟩ expected hlisted ⟨e, he, hr⟩
    rcases List.mem_cons.mp he with rfl | he
    · exact absurd hr (not_replaced nofun)
    · rcases List.mem_cons.mp he with rfl | he
      · rcases hown expected hlisted hr with hg | ⟨entry', pid', answer', hrec, hread⟩
        · exact (hg.cons _).cons _
        · cases hread
          exact ⟨entry, hrec, List.mem_cons_self⟩
      · exact ((h.gone hpast expected hlisted ⟨e, he, hr⟩).cons _).cons _

lemma mark (h : Kept recorded log) (entry : ℕ) : Kept recorded (.gone entry :: log) := by
  constructor
  · rintro ⟨-, hpast⟩
    exact ⟨by rintro entry target number answer ⟨⟩, h.licensed hpast⟩
  · rintro ⟨-, hpast⟩ expected hlisted ⟨e, he, hr⟩
    rcases List.mem_cons.mp he with rfl | he
    · exact absurd hr (not_replaced nofun)
    · exact (h.gone hpast expected hlisted ⟨e, he, hr⟩).cons _

lemma kill (h : Kept recorded log) (hrec : recorded[entry]? = some (.group expected))
    (hgone : .gone entry ∉ log) {target : ℤ} (haim : Aimed expected target log) (number : ℕ)
    (answer : Io Unit) : Kept recorded (.kill entry target number answer :: log) := by
  constructor
  · rintro ⟨-, hpast⟩
    refine ⟨?_, h.licensed hpast⟩
    rintro entry' target' number' answer' ⟨⟩
    have hnot : ¬SeenGone recorded expected log := haim.not_gone hpast hrec hgone
    exact ⟨expected, hrec, hnot, fun e he hr =>
      hnot (h.gone hpast expected (List.mem_of_getElem? hrec) ⟨e, he, hr⟩), haim⟩
  · rintro ⟨-, hpast⟩ expected hlisted ⟨e, he, hr⟩
    rcases List.mem_cons.mp he with rfl | he
    · exact absurd hr (not_replaced nofun)
    · exact (h.gone hpast expected hlisted ⟨e, he, hr⟩).cons _

end Kept

lemma read_head {own : Option ℕ} {pid : ℕ} {answer : Io (Option ProcessRecord)}
    (h : read os m own pid = (answer, m')) : m'.log.head? = some (.read own pid answer) := by
  have hanswer : (os.read pid m.world).1 = answer := congrArg Prod.fst h
  have hlog : (read os m own pid).2.log.head? = m'.log.head? := congrArg (·.2.log.head?) h
  rw [← hlog, ← hanswer]
  rfl

structure Onward (recorded : List Recorded) (m m' : Request σ) : Prop where
  kept : Kept recorded m.log → Kept recorded m'.log
  gone : ∀ j, .gone j ∈ m'.log ↔ .gone j ∈ m.log

namespace Onward

lemma refl (m : Request σ) : Onward recorded m m := ⟨id, fun _ => Iff.rfl⟩

lemma trans (h : Onward recorded m m') (k : Onward recorded m' m'') : Onward recorded m m'' :=
  ⟨fun hm => k.kept (h.kept hm), fun j => (k.gone j).trans (h.gone j)⟩

lemma of_log (h : m'.log = m.log) : Onward recorded m m' := by
  constructor
  · rw [h]
    exact id
  · intro j
    rw [h]

lemma read (m : Request σ) (pid : ℕ) :
    Onward recorded m (RecordedGroups.read os m none pid).2 := by
  constructor
  · intro h
    exact h.read pid _
  · intro j
    simp [RecordedGroups.read]

lemma of_read {pid : ℕ} {answer : Io (Option ProcessRecord)}
    (h : RecordedGroups.read os m none pid = (answer, m')) : Onward recorded m m' := by
  have hread : Onward recorded m (RecordedGroups.read os m none pid).2 := .read m pid
  rwa [h] at hread

lemma procMembers (pgid left : ℕ) (found : List ℕ) (m : Request σ) :
    Onward recorded m (procMembers os pgid left found m).2 := by
  induction left generalizing found m with
  | zero =>
    rw [RecordedGroups.procMembers.eq_def]
    dsimp only
    split <;> exact of_log rfl
  | succ left ih =>
    rw [RecordedGroups.procMembers.eq_def]
    dsimp only
    split
    · exact of_log rfl
    · next entry w _ =>
      have hnext : Onward recorded m { m with world := w } := of_log rfl
      split
      · exact hnext
      · exact hnext.trans (ih _ _)
      · split
        all_goals next hread =>
          first
          | exact hnext.trans ((of_read hread).trans (ih _ _))
          | split
            · exact hnext.trans ((of_read hread).trans (ih _ _))
            · exact hnext.trans (of_read hread)

lemma groupMembers (m : Request σ) (pgid : ℕ) :
    Onward recorded m (groupMembers os m pgid).2 := by
  rw [RecordedGroups.groupMembers]
  split
  · split
    · exact of_log rfl
    · next w _ =>
      have hopen : Onward recorded m { m with world := w } := of_log rfl
      exact hopen.trans (procMembers pgid _ [] _)
  · exact of_log rfl

lemma liveMembers (pgid : ℕ) (pids : List ℕ) (live : List ProcessIdentity) (m : Request σ) :
    Onward recorded m (liveMembers os pgid pids live m).2 := by
  induction pids generalizing live m with
  | nil => exact refl m
  | cons pid rest ih =>
    rw [RecordedGroups.liveMembers]
    split
    · next hread => exact (of_read hread).trans (ih _ _)
    · next hread => exact (of_read hread).trans (ih _ _)
    · next hread => exact of_read hread

lemma members (m : Request σ) (pgid : ℕ) : Onward recorded m (members os m pgid).2 := by
  have hgroup : Onward recorded m (RecordedGroups.groupMembers os m pgid).2 := groupMembers m pgid
  rw [RecordedGroups.members]
  split
  · next hm =>
    rw [hm] at hgroup
    exact hgroup
  · next pids m1 hm =>
    rw [hm] at hgroup
    have hlive : Onward recorded m1 (RecordedGroups.liveMembers os pgid pids [] m1).2 :=
      liveMembers pgid pids [] m1
    split
    all_goals next hl =>
      rw [hl] at hlive
      exact hgroup.trans hlive

lemma kill (hrec : recorded[entry]? = some (.group expected)) (hgone : .gone entry ∉ m.log)
    {target : ℤ} (haim : Aimed expected target m.log) (number : ℕ) :
    Onward recorded m (kill os m entry target number).2 := by
  constructor
  · intro h
    exact h.kill hrec hgone haim number _
  · intro j
    simp [RecordedGroups.kill]

lemma signalMembers (hrec : recorded[entry]? = some (.group expected)) (number : ℕ)
    (live : List ProcessIdentity) (m : Request σ) (hgone : .gone entry ∉ m.log) :
    Onward recorded m (signalMembers os entry expected.pgid number live m) := by
  induction live generalizing m with
  | nil => exact refl m
  | cons member rest ih =>
    rw [RecordedGroups.signalMembers]
    split
    · next current m1 hread =>
      have h1 : Onward recorded m m1 := of_read hread
      have hgone1 : .gone entry ∉ m1.log := fun hg => hgone ((h1.gone entry).mp hg)
      split
      · next hverified =>
        obtain ⟨-, hpgid, hlive, -⟩ := hverified
        have haim : Aimed expected member.pid m1.log :=
          ⟨none, member.pid, current, read_head hread, by simpa using hlive, .inr ⟨rfl, hpgid⟩⟩
        have hkill : Onward recorded m1 (RecordedGroups.kill os m1 entry member.pid number).2 :=
          kill hrec hgone1 haim number
        exact h1.trans (hkill.trans (ih _ fun hg => hgone1 ((hkill.gone entry).mp hg)))
      · exact h1.trans (ih _ hgone1)
    · next m1 _ hread =>
      have h1 : Onward recorded m m1 := of_read hread
      exact h1.trans (ih _ fun hg => hgone ((h1.gone entry).mp hg))

lemma signalLeft (hrec : recorded[entry]? = some (.group expected)) (number : ℕ)
    (m : Request σ) (hgone : .gone entry ∉ m.log) :
    Onward recorded m (signalLeft os m entry expected number) := by
  have hm : Onward recorded m (RecordedGroups.members os m expected.pgid).2 := members m _
  rw [RecordedGroups.signalLeft]
  split
  · next live m1 heq =>
    rw [heq] at hm
    exact hm.trans (signalMembers hrec number live m1 fun hg => hgone ((hm.gone entry).mp hg))
  · next heq =>
    rw [heq] at hm
    exact hm

lemma signal (hrec : recorded[entry]? = some (.group expected)) (number : ℕ) (state : State)
    (m : Request σ) (hgone : .gone entry ∉ m.log) :
    Onward recorded m (signal os m entry expected state number) := by
  cases state with
  | gone => exact refl m
  | unknown why => exact refl m
  | leaderless live => exact signalMembers hrec number live m hgone
  | led =>
    rw [RecordedGroups.signal]
    split
    · next leader m1 hread =>
      have h1 : Onward recorded m m1 := of_read hread
      have hgone1 : .gone entry ∉ m1.log := fun hg => hgone ((h1.gone entry).mp hg)
      split
      · next hverified =>
        have haim : Aimed expected (-(expected.pgid : ℤ)) m1.log :=
          ⟨none, expected.pid, leader, read_head hread, by simpa using hverified.2,
            .inl ⟨rfl, hverified.1⟩⟩
        have hkill : Onward recorded m1 (RecordedGroups.kill os m1 entry (-(expected.pgid : ℤ)) number).2 :=
          kill hrec hgone1 haim number
        split
        · next hk =>
          rw [hk] at hkill
          exact h1.trans hkill
        · next error m2 hk =>
          rw [hk] at hkill
          have hgone2 : .gone entry ∉ m2.log := fun hg => hgone1 ((hkill.gone entry).mp hg)
          exact h1.trans (hkill.trans (signalLeft hrec number m2 hgone2))
      · exact h1.trans (signalLeft hrec number m1 hgone1)
    · next m1 _ hread =>
      have h1 : Onward recorded m m1 := of_read hread
      exact h1.trans (signalLeft hrec number m1 fun hg => hgone ((h1.gone entry).mp hg))

end Onward

lemma observe_kept {rec : Recorded} (hrec : recorded[entry]? = some rec)
    (h : Kept recorded m.log) :
    ((observe os m entry rec).1 ≠ .gone → Kept recorded (observe os m entry rec).2.log) ∧
      Kept recorded (.gone entry :: (observe os m entry rec).2.log) ∧
      ∀ j, .gone j ∈ (observe os m entry rec).2.log ↔ .gone j ∈ m.log := by
  cases rec with
  | invalid reason => exact ⟨fun _ => h, h.mark entry, fun _ => Iff.rfl⟩
  | group expected =>
    rw [observe]
    split
    · exact ⟨fun _ => h, h.mark entry, fun _ => Iff.rfl⟩
    · exact ⟨fun _ => h, h.mark entry, fun _ => Iff.rfl⟩
    · next w _ =>
      -- the log after the own read
      have hown : ∀ {answer m1}, read os { m with world := w } (some entry) expected.pid =
          (answer, m1) → m1.log = .read (some entry) expected.pid answer :: m.log := by
        intro answer m1 hread
        have hanswer : (os.read expected.pid w).1 = answer := congrArg Prod.fst hread
        have hlog : (read os { m with world := w } (some entry) expected.pid).2.log = m1.log :=
          congrArg (·.2.log) hread
        rw [← hlog, ← hanswer]
        rfl
      have hsame : ∀ {answer m1}, read os { m with world := w } (some entry) expected.pid =
          (answer, m1) → ∀ j, .gone j ∈ m1.log ↔ .gone j ∈ m.log := by
        intro answer m1 hread j
        rw [hown hread]
        simp
      have hfinish : ∀ {m1 m2 : Request σ}, Kept recorded m1.log →
          (∀ j, .gone j ∈ m1.log ↔ .gone j ∈ m.log) → Onward recorded m1 m2 → ∀ s : State,
          (s ≠ .gone → Kept recorded m2.log) ∧ Kept recorded (.gone entry :: m2.log) ∧
            ∀ j, .gone j ∈ m2.log ↔ .gone j ∈ m.log := by
        intro m1 m2 hk1 hg1 hon s
        exact ⟨fun _ => hon.kept hk1, (hon.kept hk1).mark entry, fun j => (hon.gone j).trans (hg1 j)⟩
      split
      · next leader m1 hread =>
        split
        · refine ⟨fun hne => absurd rfl hne, ?_, hsame hread⟩
          rw [hown hread]
          exact h.own_gone _ _
        · next hsameProcess =>
          have hk1 : Kept recorded m1.log := by
            rw [hown hread]
            apply h.own_read hrec
            rintro ⟨own, r, heq, hne⟩
            obtain ⟨-, -, hleader⟩ := Event.read.inj heq
            obtain rfl := Option.some.inj (Except.ok.inj hleader)
            apply hne
            have hs : leader.identity.sameProcess expected = true := by simpa using hsameProcess
            exact (ProcessIdentity.sameProcess_iff.mp hs).2
          split
          · exact hfinish hk1 (hsame hread) (.refl m1) _
          · exact hfinish hk1 (hsame hread) (.members m1 _) _
      · next m1 hread =>
        have hk1 : Kept recorded m1.log := by
          rw [hown hread]
          apply h.own_read hrec
          rintro ⟨own, r, heq, -⟩
          obtain ⟨-, -, hnone⟩ := Event.read.inj heq
          cases hnone
        exact hfinish hk1 (hsame hread) (.members m1 _) _
      · next error m1 hread =>
        have hk1 : Kept recorded m1.log := by
          rw [hown hread]
          apply h.own_read hrec
          rintro ⟨own, r, heq, -⟩
          obtain ⟨-, -, hnone⟩ := Event.read.inj heq
          cases hnone
        exact hfinish hk1 (hsame hread) (.refl m1) _

lemma observeEntry_kept {rec : Recorded} (hrec : recorded[entry]? = some rec)
    (h : Kept recorded m.log) :
    Kept recorded (observeEntry os m entry rec).2.log ∧
      ((observeEntry os m entry rec).1 ≠ .gone →
        (.gone entry ∈ (observeEntry os m entry rec).2.log ↔ .gone entry ∈ m.log)) ∧
      ∀ j, j ≠ entry → (.gone j ∈ (observeEntry os m entry rec).2.log ↔ .gone j ∈ m.log) := by
  obtain ⟨hkept, hmark, hsame⟩ := @observe_kept _ os _ _ _ _ hrec h
  rw [observeEntry]
  split
  · next m1 heq =>
    rw [heq] at hmark hsame
    refine ⟨hmark, fun hne => absurd rfl hne, fun j hj => ?_⟩
    rw [List.mem_cons, hsame j]
    simp [hj]
  · next hne =>
    refine ⟨hkept fun hg => hne _ (Prod.ext hg rfl), fun _ => hsame entry, fun j _ => hsame j⟩

def Present (base : ℕ) (states : List State) (log : List Event) : Prop :=
  ∀ (i : ℕ) (s : State), states[i]? = some s → s ≠ .gone → .gone (base + i) ∉ log

lemma refresh_kept (pairs : List (Recorded × State)) (base : ℕ) (m : Request σ)
    (hrec : ∀ (i : ℕ) p, pairs[i]? = some p → recorded[base + i]? = some p.1)
    (hpresent : Present base (pairs.map Prod.snd) m.log) (h : Kept recorded m.log) :
    Kept recorded (refresh os base pairs m).2.log ∧
      Present base (refresh os base pairs m).1 (refresh os base pairs m).2.log ∧
      ∀ j < base, .gone j ∈ (refresh os base pairs m).2.log ↔ .gone j ∈ m.log := by
  induction pairs generalizing base m with
  | nil => exact ⟨h, by rintro i s ⟨⟩, fun _ _ => Iff.rfl⟩
  | cons pair rest ih =>
    obtain ⟨rec, state⟩ := pair
    rw [refresh]
    dsimp only
    generalize hr : refreshEntry os m base rec state = r
    have hhead : Kept recorded r.2.log ∧ (r.1 ≠ .gone → .gone base ∉ r.2.log) ∧
        ∀ j, j ≠ base → (.gone j ∈ r.2.log ↔ .gone j ∈ m.log) := by
      have hstart : state ≠ .gone → .gone base ∉ m.log := hpresent 0 state rfl
      obtain ⟨hk, hg, hother⟩ :=
        @observeEntry_kept _ os _ _ _ _ (hrec 0 _ rfl : recorded[base]? = some rec) h
      rw [refreshEntry.eq_def] at hr
      split at hr
      · subst hr
        exact ⟨h, fun hne => absurd rfl hne, fun _ _ => Iff.rfl⟩
      · next hne =>
        subst hr
        exact ⟨hk, fun hne' hm => hstart hne ((hg hne').mp hm), hother⟩
    obtain ⟨hk, hg, hother⟩ := hhead
    have hrec' : ∀ (i : ℕ) p, rest[i]? = some p → recorded[base + 1 + i]? = some p.1 := by
      intro i p hp
      rw [Nat.add_assoc, Nat.add_comm 1]
      exact hrec (i + 1) p hp
    have hpresent' : Present (base + 1) (rest.map Prod.snd) r.2.log := by
      intro i s hs hne hm
      rw [hother _ (by omega)] at hm
      rw [Nat.add_assoc, Nat.add_comm 1] at hm
      exact hpresent (i + 1) s hs hne hm
    obtain ⟨hk', hp', hother'⟩ := ih (base + 1) r.2 hrec' hpresent' hk
    refine ⟨hk', ?_, ?_⟩
    · intro i s hs hne hm
      cases i with
      | zero =>
        obtain rfl := Option.some.inj hs
        exact hg hne ((hother' base (by omega)).mp hm)
      | succ i =>
        refine hp' i s hs hne ?_
        rwa [Nat.add_assoc, Nat.add_comm 1]
    · intro j hj
      exact (hother' j (by omega)).trans (hother j (by omega))

lemma observeAll_eq (base : ℕ) (rest : List Recorded) (m : Request σ) :
    observeAll os base rest m = refresh os base (rest.map fun r => (r, .led)) m := by
  induction rest generalizing base m with
  | nil => rfl
  | cons recorded rest ih =>
    simp only [observeAll, List.map_cons, refresh, refreshEntry, ih]

lemma signalAll_onward (number : ℕ) (pairs : List (Recorded × State)) (base : ℕ) (m : Request σ)
    (hrec : ∀ (i : ℕ) p, pairs[i]? = some p → recorded[base + i]? = some p.1)
    (hpresent : Present base (pairs.map Prod.snd) m.log) :
    Onward recorded m (signalAll os number base pairs m) := by
  induction pairs generalizing base m with
  | nil => exact .refl m
  | cons pair rest ih =>
    obtain ⟨rec, state⟩ := pair
    have hrec' : ∀ (i : ℕ) p, rest[i]? = some p → recorded[base + 1 + i]? = some p.1 := by
      intro i p hp
      rw [Nat.add_assoc, Nat.add_comm 1]
      exact hrec (i + 1) p hp
    have hrest : ∀ {m' : Request σ}, Onward recorded m m' →
        Present (base + 1) (rest.map Prod.snd) m'.log := by
      intro m' hon i s hs hne hm
      rw [Nat.add_assoc, Nat.add_comm 1, hon.gone] at hm
      exact hpresent (i + 1) s hs hne hm
    cases rec with
    | invalid reason => exact ih _ m hrec' (hrest (.refl m))
    | group expected =>
      rw [signalAll]
      split
      · next hstate =>
        have hne : state ≠ .gone := by
          rintro rfl
          cases hstate
        have hturn : Onward recorded m (signal os m base expected state number) :=
          .signal (hrec 0 _ rfl) number state m (hpresent 0 state rfl hne)
        exact hturn.trans (ih _ _ hrec' (hrest hturn))
      · exact ih _ m hrec' (hrest (.refl m))

lemma zip_recorded (states : List State) (i : ℕ) (p : Recorded × State)
    (h : (recorded.zip states)[i]? = some p) : recorded[0 + i]? = some p.1 := by
  rw [Nat.zero_add]
  exact (List.getElem?_zip_eq_some.mp h).1

lemma Present.zip {states : List State} (h : Present 0 states log) :
    Present 0 ((recorded.zip states).map Prod.snd) log := by
  intro i s hs hne
  obtain ⟨p, hp, rfl⟩ := (List.getElem?_map ..).symm.trans hs |> Option.map_eq_some_iff.mp
  exact h i p.2 (List.getElem?_zip_eq_some.mp hp).2 hne

lemma wait_kept (deadline : Instant) (fuel : ℕ) (states : List State) (m : Request σ)
    (hpresent : Present 0 states m.log) (h : Kept recorded m.log) :
    Kept recorded (wait os recorded deadline fuel states m).2.log ∧
      ∀ states', (wait os recorded deadline fuel states m).1 = some states' →
        Present 0 states' (wait os recorded deadline fuel states m).2.log := by
  induction fuel generalizing states m with
  | zero => exact ⟨h, by rintro states' ⟨⟩⟩
  | succ fuel ih =>
    obtain ⟨hk, hp, -⟩ := @refresh_kept _ os _ (recorded.zip states) 0 m (zip_recorded states)
      hpresent.zip h
    rw [wait]
    dsimp only
    split
    · refine ⟨hk, fun states' hs => ?_⟩
      obtain rfl := Option.some.inj hs
      exact hp
    · split
      · refine ⟨hk, fun states' hs => ?_⟩
        obtain rfl := Option.some.inj hs
        exact hp
      · exact ih _ _ hp hk

lemma stopStages_kept (fuel : ℕ) (l : List (ℕ × Duration)) (states : List State) (m : Request σ)
    (hpresent : Present 0 states m.log) (h : Kept recorded m.log) :
    Kept recorded (stopStages os recorded fuel l states m).2.log := by
  induction l generalizing states m with
  | nil => exact h
  | cons stage rest ih =>
    obtain ⟨number, grace⟩ := stage
    rw [stopStages]
    split
    · exact h
    · have hturns : Onward recorded m (signalAll os number 0 (recorded.zip states) m) :=
        signalAll_onward number _ 0 m (zip_recorded states) hpresent.zip
      have hpresent' : Present 0 states (signalAll os number 0 (recorded.zip states) m).log := by
        intro i s hs hne hm
        exact hpresent i s hs hne ((hturns.gone _).mp hm)
      dsimp only
      generalize signalAll os number 0 (recorded.zip states) m = m1 at hturns hpresent'
      obtain ⟨hk, hp⟩ := wait_kept ((os.now m1.world).1 + grace) fuel states
        { m1 with world := (os.now m1.world).2 } hpresent' (hturns.kept h)
      split
      · next states2 m2 hw =>
        rw [hw] at hk hp
        exact ih states2 m2 (hp states2 rfl) hk
      · next m2 hw =>
        rw [hw] at hk
        exact hk

lemma stop_kept (fuel : ℕ) (interrupt : Option Duration) (term : Duration) (world : σ) :
    Kept recorded (stop os fuel recorded interrupt term ⟨world, []⟩).2.log := by
  have hrec : ∀ (i : ℕ) p, (recorded.map fun r => (r, State.led))[i]? = some p →
      recorded[0 + i]? = some p.1 := by
    intro i p hp
    rw [List.getElem?_map, Option.map_eq_some_iff] at hp
    obtain ⟨r, hr, rfl⟩ := hp
    rwa [Nat.zero_add]
  obtain ⟨hk, hp, -⟩ := @refresh_kept _ os _ (recorded.map fun r => (r, .led)) 0 ⟨world, []⟩
    hrec (fun _ _ _ _ hm => absurd hm (List.not_mem_nil)) .nil
  rw [stop, observeAll_eq]
  exact stopStages_kept fuel _ _ _ hp hk

/-- Stopping signals no group that is gone or replaced, as long as only a group's own observation
ever finds its leader replaced and a group listed more than once stays gone. -/
theorem stop_licensed (os : Os σ) (fuel : ℕ) (groups : List Json) (interrupt : Option Duration)
    (term : Duration) (world : σ)
    (hown : Every (OwnSighting (groups.map (parseIdentity os.platform)))
      (stop os fuel (groups.map (parseIdentity os.platform)) interrupt term ⟨world, []⟩).2.log)
    (hgone : Every (StaysGone (groups.map (parseIdentity os.platform)))
      (stop os fuel (groups.map (parseIdentity os.platform)) interrupt term ⟨world, []⟩).2.log) :
    Every (Licensed (groups.map (parseIdentity os.platform)))
      (stop os fuel (groups.map (parseIdentity os.platform)) interrupt term ⟨world, []⟩).2.log :=
  (stop_kept fuel interrupt term world).licensed (hown.and hgone)

def Lawful (tables : ℕ → List ProcessRecord) : Prop :=
  ∀ n, ∀ r ∈ tables (n + 1),
    (∃ r' ∈ tables n, r'.identity.sameProcess r.identity = true) ∨
      ∀ r' ∈ tables n, r'.identity.pid ≠ r.identity.pid ∧ r'.identity.pgid ≠ r.identity.pid

def evolving (tables : ℕ → List ProcessRecord) : Os ℕ where
  platform := .macos
  read pid n := (.ok ((tables n).find? fun r => r.identity.pid == pid), n + 1)
  nextEntry n := (none, n)
  openProc n := (.ok (), n)
  groupMembers pgid n :=
    (.ok (((tables n).filter fun r => r.identity.pgid == pgid).map (·.identity.pid)), n + 1)
  bootId n := (.error (.custom .unsupported), n)
  bootTime n := (.ok (0, 0), n)
  kill _ _ n := (.ok (), n)
  now n := (n * 1000000000, n)
  sleep _ n := n

def leader (seconds : ℕ) : ProcessRecord := ⟨⟨5, 5, .macos seconds 0⟩, 1, false⟩

def leaderGroup : Json :=
  .object [("pid", .int 5), ("pgid", .int 5),
    ("start_time", .object [("kind", .string "macos"), ("seconds", .int 1),
      ("microseconds", .int 0)])]

lemma leaderGroup_recorded : [leaderGroup].map (parseIdentity .macos) = [.group (leader 1).identity] := by
  decide

def ending : ℕ → List ProcessRecord
  | 0 | 1 => [leader 1]
  | _ => []

lemma ending_log : (stop (evolving ending) 1 [.group (leader 1).identity] none 0 ⟨0, []⟩).2.log =
    [.gone 0, .read (some 0) 5 (.ok none), .kill 0 (-5) SIGTERM (.ok ()),
      .read none 5 (.ok (some (leader 1))), .read (some 0) 5 (.ok (some (leader 1)))] := rfl

theorem stop_licensed_ending :
    Every (Licensed ([leaderGroup].map (parseIdentity .macos)))
      (stop (evolving ending) 1 ([leaderGroup].map (parseIdentity .macos)) none 0 ⟨0, []⟩).2.log := by
  have hrec : [leaderGroup].map (parseIdentity (evolving ending).platform) =
      [.group (leader 1).identity] := leaderGroup_recorded
  apply stop_licensed (evolving ending)
  · have hnone : ∀ e ∈ (stop (evolving ending) 1 [.group (leader 1).identity] none 0 ⟨0, []⟩).2.log,
        ¬Replaced (leader 1).identity e := by
      rw [ending_log]
      rintro e he ⟨own, r, rfl, hne⟩
      simp only [List.mem_cons, List.not_mem_nil, or_false, reduceCtorEq, false_or,
        Event.read.injEq, Except.ok.injEq, Option.some.injEq, and_false] at he
      rcases he with ⟨-, -, rfl⟩ | ⟨-, -, rfl⟩ <;> exact hne rfl
    rw [hrec]
    refine (every_forall.mpr hnone).mono fun e past he expected hlisted hr => ?_
    obtain rfl := Recorded.group.inj (List.mem_singleton.mp hlisted)
    exact absurd hr he
  · rw [hrec]
    refine (every_forall.mpr fun _ _ => trivial).mono fun e past _ entry expected hentry hgone => ?_
    rintro ⟨other, hother, hmem⟩
    have hzero : ∀ {i : ℕ}, [Recorded.group (leader 1).identity][i]? = some (.group expected) →
        i = 0 := by
      intro i hi
      have := (List.getElem?_eq_some_iff.mp hi).1
      simpa using this
    obtain rfl := hzero hentry
    obtain rfl := hzero hother
    exact absurd hmem hgone

def reused : ℕ → List ProcessRecord
  | 0 => [leader 1]
  | 1 => []
  | _ => [leader 2]

/-- The process that took the pid of an ended leader is sent its SIGTERM. -/
theorem stop_signals_replaced :
    Lawful reused ∧ ¬Every (Licensed ([leaderGroup].map (parseIdentity .macos)))
      (stop (evolving reused) 1 ([leaderGroup].map (parseIdentity .macos)) none 0 ⟨0, []⟩).2.log := by
  constructor
  · intro n r hr
    cases n with
    | zero => cases hr
    | succ n =>
      obtain rfl := List.mem_singleton.mp hr
      cases n with
      | zero => exact .inr fun r' hr' => by cases hr'
      | succ n => exact .inl ⟨leader 2, List.mem_cons_self, by decide⟩
  · rw [leaderGroup_recorded]
    have hlog : (stop (evolving reused) 1 [.group (leader 1).identity] none 0 ⟨0, []⟩).2.log =
        [.gone 0, .read (some 0) 5 (.ok (some (leader 2)))] ++ .kill 0 5 SIGTERM (.ok ()) ::
          [.read none 5 (.ok (some (leader 2))), .read none 5 (.ok (some (leader 2))),
            .read none 5 (.ok none), .read (some 0) 5 (.ok (some (leader 1)))] := rfl
    rw [hlog]
    intro h
    obtain ⟨expected, hrec, -, hnever, -⟩ := every_iff.mp h _ _ _ rfl 0 5 SIGTERM (.ok ()) rfl
    obtain rfl := Recorded.group.inj (Option.some.inj hrec)
    exact hnever _ List.mem_cons_self ⟨none, leader 2, rfl, by decide⟩

def returning : ℕ → List ProcessRecord
  | 0 | 1 => []
  | _ => [⟨⟨6, 5, .macos 2 0⟩, 1, false⟩]

theorem stop_signals_gone :
    ¬Every (Licensed ([leaderGroup, leaderGroup].map (parseIdentity .macos)))
      (stop (evolving returning) 1 ([leaderGroup, leaderGroup].map (parseIdentity .macos)) none 0
        ⟨0, []⟩).2.log := by
  intro h
  have hlog : (stop (evolving returning) 1 ([leaderGroup, leaderGroup].map (parseIdentity .macos))
      none 0 ⟨0, []⟩).2.log = (stop (evolving returning) 1
        ([leaderGroup, leaderGroup].map (parseIdentity .macos)) none 0 ⟨0, []⟩).2.log.take 6 ++
      .kill 1 6 SIGTERM (.ok ()) ::
        [.read none 6 (.ok (some ⟨⟨6, 5, .macos 2 0⟩, 1, false⟩)),
          .read none 6 (.ok (some ⟨⟨6, 5, .macos 2 0⟩, 1, false⟩)), .read (some 1) 5 (.ok none),
          .gone 0, .read (some 0) 5 (.ok none)] := rfl
  rw [hlog] at h
  obtain ⟨expected, hrec, hgone, -⟩ := every_iff.mp h _ _ _ rfl 1 6 SIGTERM (.ok ()) rfl
  exact hgone ⟨0, hrec, by simp⟩

end Forcola.Native.RecordedGroups
