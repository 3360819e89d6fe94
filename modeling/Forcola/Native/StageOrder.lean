import Forcola.Library.History
import Forcola.Library.Transition
import Forcola.Native.Closure
import Forcola.Native.Escalation

/-! The order of the signals that one process is reached by. -/

namespace Forcola.Native

open Forcola.Library Forcola.Library.History Forcola.Library.Transition

def Phase.stage : Phase → ℕ
  | .interrupt => 1
  | .terminate => 2
  | .kill => 3

def stageOf (s : Option Sequence) : ℕ :=
  s.elim 0 fun s => s.phase.stage

def severity (signal : ℕ) : ℕ :=
  if signal = SIGINT then 1 else if signal = SIGTERM then 2 else if signal = SIGKILL then 3 else 0

@[simp] lemma severity_signal (p : Phase) : severity p.signal = p.stage := by
  cases p <;> rfl

lemma stage_advance (p : Phase) : p.stage ≤ p.advance.stage := by
  cases p <;> decide

lemma Due.stage {c : Cleanup} {previous : Option Sequence} {target : Instant} {phase : Phase}
    {shortened : Bool} (h : Due c previous target phase shortened) :
    stageOf previous ≤ phase.stage := by
  cases h with
  | forced =>
    cases previous with
    | none => exact Nat.zero_le _
    | some s => cases hs : s.phase <;> simp [stageOf, hs, Phase.stage]
  | first h =>
    subst h
    exact Nat.zero_le _
  | next h =>
    subst h
    exact stage_advance _

namespace Event

/-- A signal was sent to the process or to its group while it was retained alive. -/
def Reached (m : ProcessIdentity) (signal : ℕ) : Event → Prop
  | .call (.signal target s (.ok ())) held => s = signal ∧
      (target = m.pid ∨ target = -(m.pgid : ℤ)) ∧
      ∃ r ∈ held.processes, r.identity = m ∧ r.exited = false
  | _ => False

def Alive (m : ProcessIdentity) : Event → Prop
  | .call (.read pid (.ok a)) _ => pid = m.pid → ∃ r, a = some r ∧ r.identity = m ∧ r.exited = false
  | _ => True

end Event

def Since (m : ProcessIdentity) (signal : ℕ) (log : List Event) : Prop :=
  ∃ newer e past, log = newer ++ e :: past ∧ e.Reached m signal ∧ ∀ e' ∈ newer, e'.Alive m

def Rising (m : ProcessIdentity) (log : List Event) : Prop :=
  Every (fun e past => ∀ before after, e.Reached m after → Since m before past →
    severity before ≤ severity after) log

variable {m : ProcessIdentity} {log : List Event} {e : Event} {signal : ℕ}

lemma since_cons : Since m signal (e :: log) ↔
    e.Reached m signal ∨ (e.Alive m ∧ Since m signal log) := by
  constructor
  · rintro ⟨newer, e', past, h, hr, ha⟩
    cases newer with
    | nil =>
      obtain ⟨rfl, -⟩ := List.cons.inj h
      exact .inl hr
    | cons d newer =>
      obtain ⟨rfl, rfl⟩ := List.cons.inj h
      exact .inr ⟨ha _ List.mem_cons_self, newer, e', past, rfl, hr,
        fun e' he' => ha e' (List.mem_cons_of_mem _ he')⟩
  · rintro (h | ⟨ha, newer, e', past, rfl, hr, hn⟩)
    · exact ⟨[], e, log, rfl, h, by simp⟩
    · refine ⟨e :: newer, e', past, rfl, hr, ?_⟩
      intro d hd
      rcases List.mem_cons.mp hd with rfl | hd
      · exact ha
      · exact hn d hd

namespace Tracker

variable {σ : Type} {H : Host σ} {t t' t1 : Tracker σ}

def Living (t : Tracker σ) (m : ProcessIdentity) : Prop :=
  ∃ r, t.processes.lookup m.pid = some r ∧ r.identity = m ∧ r.exited = false

structure Steadfast (m : ProcessIdentity) (t : Tracker σ) : Prop where
  covers : ∀ signal, Since m signal t.log →
    t.Living m ∧ severity signal ≤ stageOf (t.members.lookup m)
  rising : Rising m t.log

namespace Steadfast

lemma frame (h : Steadfast m t) (hl : t'.log = t.log) (hp : t'.processes = t.processes)
    (hm : t'.members = t.members) : Steadfast m t' := by
  refine ⟨fun signal hs => ?_, by rw [hl]; exact h.rising⟩
  rw [hl] at hs
  rw [Living, hp, hm]
  exact h.covers signal hs

lemma add (h : Steadfast m t) (hl : t'.log = e :: t.log) (hn : ∀ signal, ¬e.Reached m signal)
    (hp : e.Alive m → ∀ signal, Since m signal t.log → t.Living m → t'.Living m)
    (hm : t'.members = t.members) : Steadfast m t' := by
  refine ⟨fun signal hs => ?_, ?_⟩
  · rw [hl, since_cons] at hs
    rcases hs with hr | ⟨ha, hs⟩
    · exact absurd hr (hn signal)
    · obtain ⟨hw, hle⟩ := h.covers signal hs
      exact ⟨hp ha signal hs hw, by rw [hm]; exact hle⟩
  · rw [hl]
    exact ⟨fun _ after hr => absurd hr (hn after), h.rising⟩

lemma fail (h : Steadfast m t) (why : Failure) : Steadfast m (t.fail why) :=
  h.add rfl (fun _ hr => hr) (fun _ _ _ hw => hw) rfl

lemma failShortened (h : Steadfast m t) (b : Bool) : Steadfast m (t.failShortened b) := by
  rw [Tracker.failShortened]
  split
  · exact h.fail _
  · exact h

lemma scanError (h : Steadfast m t) (error : IoError) : Steadfast m (t.scanError error) := by
  rw [Tracker.scanError]
  split
  · exact h.fail _
  · exact h

lemma read (h : Steadfast m t) {pid : ℕ} {a : Io (Option ProcessRecord)}
    (hr : t.read H pid = (a, t')) : Steadfast m t' := by
  obtain rfl := read_eq hr
  exact h.add rfl (fun _ hr => hr) (fun _ _ _ hw => hw) rfl

lemma asked (h : Steadfast m t) {now target : Instant} (ha : t.now H now = (target, t')) :
    Steadfast m t' := by
  obtain rfl := now_eq ha
  exact h.add rfl (fun _ hr => hr) (fun _ _ _ hw => hw) rfl

end Steadfast

lemma Last.since {a : Option ProcessRecord} (hlast : t.Last (.read m.pid (.ok a)))
    (hs : Since m signal t.log) : ∃ r, a = some r ∧ r.identity = m ∧ r.exited = false := by
  obtain ⟨held, hl⟩ := hlast
  obtain ⟨past, hpast⟩ : ∃ past, t.log = .call (.read m.pid (.ok a)) held :: past := by
    cases hlog : t.log with
    | nil => simp [hlog] at hl
    | cons e past => exact ⟨past, by simpa [hlog] using hl⟩
  rw [hpast, since_cons] at hs
  rcases hs with hr | ⟨ha, -⟩
  · exact absurd hr id
  · exact ha rfl

lemma Steadfast.scanEffect {s s' : Tracker σ × Bool} (h : Steadfast m s.1) (he : ScanEffect H s s')
    (hreap : ∀ pid, reaps pid s'.1.log = reaps pid s.1.log) : Steadfast m s'.1 := by
  cases he with
  | order | unresolved | pruneGroups | record => exact h.frame rfl rfl rfl
  | looked hr => exact h.read hr
  | lookFailed hr => exact (h.read hr).scanError _
  | listed hr | listGone hr | grouped hr =>
    obtain ⟨-, rfl⟩ := Prod.mk.inj hr
    exact h.add rfl (fun _ hr => hr) (fun _ _ _ hw => hw) rfl
  | listFailed hr | groupFailed hr =>
    obtain ⟨-, rfl⟩ := Prod.mk.inj hr
    apply scanError
    exact h.add rfl (fun _ hr => hr) (fun _ _ _ hw => hw) rfl
  | @keep t i pid r hlast =>
    refine ⟨fun signal hs => ?_, h.rising⟩
    have hs : Since m signal t.log := hs
    obtain ⟨⟨r', hw, hid, hex⟩, hle⟩ := h.covers signal hs
    refine ⟨?_, hle⟩
    by_cases hp : m.pid = pid
    · subst hp
      obtain ⟨r'', heq, hid'', hex''⟩ := hlast.since hs
      obtain rfl := Option.some.inj heq
      exact ⟨r, by rw [lookup_keepProcess, if_pos rfl], hid'', hex''⟩
    · exact ⟨r', by rw [lookup_keepProcess, if_neg hp]; exact hw, hid, hex⟩
  | @drop t i id a hlast hall =>
    have hlog : (t.dropStale id).log = t.log ∧ (t.dropStale id).members = t.members := by
      rw [dropStale]
      split <;> exact ⟨rfl, rfl⟩
    refine ⟨fun signal hs => ?_, by rw [hlog.1]; exact h.rising⟩
    rw [hlog.1] at hs
    obtain ⟨⟨r', hw, hid, hex⟩, hle⟩ := h.covers signal hs
    refine ⟨⟨r', lookup_dropStale.mpr ⟨hw, ?_⟩, hid, hex⟩, by rw [hlog.2]; exact hle⟩
    rintro ⟨hp, hsame⟩
    rw [← hp] at hlast
    obtain ⟨r, rfl, hr, -⟩ := hlast.since hs
    rw [hid] at hsame
    simp [hr, hsame] at hall
  | failed why => exact h.fail why
  | reaped held r hr =>
    have hp := hreap r.identity.pid
    obtain rfl := reap_frame hr
    simp [removeProcess, called, reaps, Event.isReap] at hp
  | reapFailed held r hr =>
    obtain rfl := reap_frame hr
    apply fail
    exact h.add rfl (fun _ hr => hr) (fun _ _ _ hw => hw) rfl
  | @pruneMembers t i =>
    refine ⟨fun signal hs => ?_, h.rising⟩
    obtain ⟨⟨r, hw, hid, hex⟩, hle⟩ := h.covers signal hs
    refine ⟨⟨r, hw, hid, hex⟩, ?_⟩
    have hkeep : (t.pruneMembers).members.lookup m = t.members.lookup m := by
      apply Option.ext
      intro v
      have hret : retainsMember t.processes m = true := by
        simp [retainsMember, hw, hid, hex]
      have hl := Table.lookup_retain (t := t.members) (k := m) (v := v)
        (p := fun id _ => retainsMember t.processes id)
      exact hl.trans (by simp [hret])
    dsimp only
    rw [hkeep]
    exact hle

lemma Steadfast.reapAdopted (held : Held) (l : List ProcessRecord) (h : Steadfast m t)
    (hn : t.Living m → ∀ r ∈ l, r.exited = true → r.identity.pid ≠ m.pid) :
    Steadfast m (Tracker.reapAdopted H held l t) := by
  induction l generalizing t with
  | nil => exact h
  | cons r rest ih =>
    have hrest : t.Living m → ∀ r ∈ rest, r.exited = true → r.identity.pid ≠ m.pid :=
      fun hw r' hr' => hn hw r' (List.mem_cons_of_mem _ hr')
    rw [Tracker.reapAdopted]
    split
    · next hcond =>
      rw [reap]
      generalize (H.reap r.identity.pid t.source).2 = u
      have hcall : Steadfast m (t.called (.reap r.identity.pid (H.reap r.identity.pid t.source).1)
          held u) :=
        h.add rfl (fun _ hr => hr) (fun _ _ _ hw => hw) rfl
      split
      · next heq =>
        obtain ⟨-, rfl⟩ := Prod.mk.inj heq
        exact ih (hcall.fail .reap) hrest
      · next heq =>
        obtain ⟨-, rfl⟩ := Prod.mk.inj heq
        have hex : r.exited = true := by
          simp only [Bool.and_eq_true] at hcond
          exact hcond.2
        have hback : ∀ {v : Tracker σ}, (v.removeProcess r.identity.pid).Living m → v.Living m := by
          rintro v ⟨r', hl, hid⟩
          by_cases hp : m.pid = r.identity.pid
          · have hnone : (v.removeProcess r.identity.pid).processes.lookup m.pid = none :=
              hp ▸ AList.lookup_erase ..
            cases hl.symm.trans hnone
          · exact ⟨r', (AList.lookup_erase_ne hp).symm.trans hl, hid⟩
        refine ih ⟨fun signal hs => ?_, hcall.rising⟩ fun hw => hrest (hback hw)
        obtain ⟨hw, hle⟩ := hcall.covers signal hs
        refine ⟨?_, hle⟩
        obtain ⟨r', hl, hid⟩ := hw
        refine ⟨r', (AList.lookup_erase_ne ?_).trans hl, hid⟩
        exact Ne.symm (hn ⟨r', hl, hid⟩ r List.mem_cons_self hex)
    · exact ih h hrest

end Tracker

end Forcola.Native
