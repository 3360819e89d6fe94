import Forcola.Native.CleanupPace
import Forcola.Native.GroupRetention

/-! The bounds of a scan, whatever the source answers. -/

namespace Forcola.Native.Tracker

open Forcola.Library

variable {σ : Type} {H : Host σ}

inductive Drains (H : Host σ) (limit : ℕ) :
    Scan σ → ℕ → List (ProcessIdentity × Scan σ) → Scan σ → Prop
  | empty {s attempts} : s.queue = [] → Drains H limit s attempts [] s
  | skip {s attempts expected rest worked s'} : s.queue = expected :: rest →
      s.visitedAt expected.pid expected.startTime = true →
      Drains H limit { s with queue := rest } attempts worked s' →
      Drains H limit s attempts worked s'
  | stop {s attempts expected rest} : s.queue = expected :: rest →
      s.visitedAt expected.pid expected.startTime = false → limit * 2 + 1 < attempts + 1 →
      Drains H limit s attempts [] { s with queue := rest, tracker := s.tracker.fail .processLimit }
  | work {s attempts expected rest worked s'} : s.queue = expected :: rest →
      s.visitedAt expected.pid expected.startTime = false → attempts + 1 ≤ limit * 2 + 1 →
      Drains H limit (scanEntry H expected { s with queue := rest }) (attempts + 1) worked s' →
      Drains H limit s attempts ((expected, { s with queue := rest }) :: worked) s'

namespace Drains

variable {limit attempts : ℕ} {s s' : Scan σ} {worked : List (ProcessIdentity × Scan σ)}

lemma visited (queue : List ProcessIdentity)
    (h : Drains H limit
      { s with queue := queue.dropWhile fun e => s.visitedAt e.pid e.startTime } attempts worked s') :
    Drains H limit { s with queue := queue } attempts worked s' := by
  induction queue with
  | nil => exact h
  | cons expected rest ih =>
    rw [List.dropWhile_cons] at h
    cases hv : s.visitedAt expected.pid expected.startTime with
    | true =>
      rw [if_pos hv] at h
      exact .skip rfl hv (ih h)
    | false =>
      rw [if_neg (by rw [hv]; decide)] at h
      exact h

lemma unvisited {expected : ProcessIdentity} {rest : List ProcessIdentity}
    (h : s.queue.dropWhile (fun e => s.visitedAt e.pid e.startTime) = expected :: rest) :
    s.visitedAt expected.pid expected.startTime = false := by
  have hhead := List.head?_dropWhile_not (fun e => s.visitedAt e.pid e.startTime) s.queue
  rw [h] at hhead
  exact hhead

lemma of_scanQueue (budget : ℕ) (s : Scan σ) (h : attempts + budget = limit * 2 + 1) :
    ∃ worked, Drains H limit s attempts worked (scanQueue H budget s) ∧
      worked.length ≤ budget := by
  induction budget generalizing attempts s with
  | zero =>
    rw [scanQueue]
    split
    · next hq =>
      refine ⟨[], visited s.queue ?_, Nat.le_refl _⟩
      rw [hq]
      exact .empty rfl
    · next expected rest hq =>
      refine ⟨[], visited s.queue ?_, Nat.le_refl _⟩
      rw [hq]
      exact .stop rfl (unvisited (s := s) hq) (by omega)
  | succ budget ih =>
    rw [scanQueue]
    split
    · next hq =>
      refine ⟨[], visited s.queue ?_, Nat.zero_le _⟩
      rw [hq]
      exact .empty rfl
    · next expected rest hq =>
      have hsum : attempts + 1 + budget = limit * 2 + 1 := by omega
      obtain ⟨worked, hworked, hle⟩ := ih (scanEntry H expected { s with queue := rest }) hsum
      refine ⟨(expected, { s with queue := rest }) :: worked, visited s.queue ?_, ?_⟩
      · rw [hq]
        exact .work rfl (unvisited (s := s) hq) (by omega) hworked
      · rw [List.length_cons]
        exact Nat.succ_le_succ hle

end Drains

variable {t u u' : Tracker σ} {es : List Event} {id : ProcessIdentity} {pid : ℕ}

def Present (id : ProcessIdentity) : Event → Prop
  | .call (.read pid (.ok (some r))) _ => pid = id.pid ∧ r.identity.sameProcess id = true
  | _ => False

def Missing (id : ProcessIdentity) : Event → Prop
  | .call (.read pid (.ok a)) _ => pid = id.pid ∧ a.all (fun r => !r.identity.sameProcess id) = true
  | _ => False

def Known (t : Tracker σ) (es : List Event) (id : ProcessIdentity) : Prop :=
  (∃ r, t.processes.lookup id.pid = some r ∧ r.identity.sameProcess id = true) ∨
    ∃ e ∈ es, Present id e

def Lost (t : Tracker σ) (es : List Event) (id : ProcessIdentity) : Prop :=
  ∃ later e earlier, es = later ++ e :: earlier ∧ Missing id e ∧ Known t earlier id

def Reappears (t : Tracker σ) (es : List Event) : Prop :=
  ∃ later e earlier id, es = later ++ e :: earlier ∧ Present id e ∧ Lost t earlier id

lemma Known.append (h : Known t es id) (later : List Event) : Known t (later ++ es) id := by
  rcases h with hr | ⟨e, he, hp⟩
  · exact .inl hr
  · exact .inr ⟨e, List.mem_append_right _ he, hp⟩

lemma Lost.append (h : Lost t es id) (more : List Event) : Lost t (more ++ es) id := by
  obtain ⟨later, e, earlier, rfl, hm, hk⟩ := h
  exact ⟨more ++ later, e, earlier, (List.append_assoc _ _ _).symm, hm, hk⟩

lemma Reappears.append (h : Reappears t es) (more : List Event) : Reappears t (more ++ es) := by
  obtain ⟨later, e, earlier, id, rfl, hp, hl⟩ := h
  exact ⟨more ++ later, e, earlier, id, (List.append_assoc _ _ _).symm, hp, hl⟩

def Within (limit : ℕ) : Event → Prop
  | .call _ held => held.processes.length ≤ limit
  | _ => True

structure Fits (t : Tracker σ) (es : List Event) (u : Tracker σ) : Prop where
  log : u.log = es ++ t.log
  shim : u.shim = t.shim
  processLimit : u.processLimit = t.processLimit
  size : u.processes.size ≤ t.processLimit
  events : ∀ e ∈ es, Within t.processLimit e

namespace Fits

lemma add (h : Fits t es u) {e : Event} (hlog : u'.log = e :: u.log) (hshim : u'.shim = u.shim)
    (hlimit : u'.processLimit = u.processLimit) (hprocesses : u'.processes = u.processes)
    (he : Within t.processLimit e) : Fits t (e :: es) u' := by
  refine ⟨?_, hshim.trans h.shim, hlimit.trans h.processLimit, hprocesses ▸ h.size, ?_⟩
  · rw [hlog, h.log]
    rfl
  · intro e' he'
    rcases List.mem_cons.mp he' with rfl | he'
    · exact he
    · exact h.events e' he'

lemma frame (h : Fits t es u) (hlog : u'.log = u.log) (hshim : u'.shim = u.shim)
    (hlimit : u'.processLimit = u.processLimit)
    (hsize : u'.processes.size ≤ t.processLimit) : Fits t es u' :=
  ⟨hlog.trans h.log, hshim.trans h.shim, hlimit.trans h.processLimit, hsize, h.events⟩

lemma held_le (h : Fits t es u) : u.held.processes.length ≤ t.processLimit := by
  have hlength : u.processes.values.length = u.processes.size := List.length_map _
  exact hlength.le.trans h.size

lemma called (h : Fits t es u) (call : Call) (source : σ) :
    Fits t (.call call u.held :: es) (u.called call u.held source) :=
  h.add rfl rfl rfl rfl h.held_le

lemma fail (h : Fits t es u) (why : Failure) : Fits t (.failed why :: es) (u.fail why) :=
  h.add rfl rfl rfl rfl trivial

lemma scanError (h : Fits t es u) (error : IoError) :
    ∃ more, Fits t (more ++ es) (u.scanError error) := by
  rw [Tracker.scanError]
  split
  · exact ⟨[_], h.fail _⟩
  · exact ⟨[], h⟩

lemma keep_known (h : Fits t es u) (hpid : (u.processes.lookup pid).isSome) (r : ProcessRecord) :
    Fits t es (u.keepProcess pid r) := by
  refine h.frame rfl rfl rfl ?_
  exact (Table.size_insert_of_mem (AList.lookup_isSome.mp hpid)).le.trans h.size

lemma keep_room (h : Fits t es u) (hroom : u.processes.size < u.processLimit)
    (r : ProcessRecord) : Fits t es (u.keepProcess pid r) := by
  refine h.frame rfl rfl rfl ?_
  apply (Table.size_insert_le u.processes pid r).trans
  rw [h.processLimit] at hroom
  exact hroom

lemma keep_checked (h : Fits t es u)
    (hcheck : ¬((u.processes.lookup pid).isNone = true ∧ u.processLimit ≤ u.processes.size))
    (r : ProcessRecord) : Fits t es (u.keepProcess pid r) := by
  cases hl : u.processes.lookup pid with
  | none =>
    apply h.keep_room
    rw [hl, not_and] at hcheck
    exact Nat.lt_of_not_le (hcheck rfl)
  | some r' =>
    apply h.keep_known
    rw [hl]
    rfl

lemma removeProcess (h : Fits t es u) (pid : ℕ) : Fits t es (u.removeProcess pid) :=
  h.frame rfl rfl rfl ((Table.size_erase_le u.processes pid).trans h.size)

lemma dropStale (h : Fits t es u) (expected : ProcessIdentity) :
    Fits t es (u.dropStale expected) := by
  rw [Tracker.dropStale]
  split
  · exact h.removeProcess _
  · exact h

end Fits

def Backed (t : Tracker σ) (es : List Event) (u : Tracker σ) (e : ProcessIdentity) : Prop :=
  e.pid = t.shim.pid ∨ Known t es e ∧
    (Lost t es e ∨ ∃ r, u.processes.lookup e.pid = some r ∧ r.identity.sameProcess e = true)

lemma Backed.frame {e : ProcessIdentity} (h : Backed t es u e) (more : List Event)
    (hprocesses : u'.processes = u.processes) : Backed t (more ++ es) u' e := by
  rcases h with hshim | ⟨hknown, hlost | ⟨r, hl, hs⟩⟩
  · exact .inl hshim
  · exact .inr ⟨hknown.append more, .inl (hlost.append more)⟩
  · exact .inr ⟨hknown.append more, .inr ⟨r, hprocesses ▸ hl, hs⟩⟩

structure Sheltered (t : Tracker σ) (es : List Event) (s : Scan σ) : Prop where
  fits : Fits t es s.tracker
  backed : ∀ e ∈ s.queue, Backed t es s.tracker e

namespace Sheltered

variable {s : Scan σ} {r : ProcessRecord} {incomplete : Bool}

lemma frame (h : Sheltered t es s) (more : List Event) (hfits : Fits t (more ++ es) u)
    (hprocesses : u.processes = s.tracker.processes) :
    Sheltered t (more ++ es) { s with tracker := u, incomplete := incomplete } :=
  ⟨hfits, fun e he => (h.backed e he).frame more hprocesses⟩

lemma called (h : Sheltered t es s) (call : Call) (source : σ) :
    Sheltered t (.call call s.tracker.held :: es)
      { s with tracker := s.tracker.called call s.tracker.held source } :=
  h.frame [_] (h.fits.called call source) rfl

lemma scanError (h : Sheltered t es s) (error : IoError) : ∃ more, Sheltered t (more ++ es)
    { s with tracker := s.tracker.scanError error, incomplete := true } := by
  obtain ⟨more, hfits⟩ := h.fits.scanError error
  refine ⟨more, h.frame more hfits ?_⟩
  rw [Tracker.scanError]
  split <;> rfl

lemma keep (h : Sheltered t es s) {held : Held} {source : σ}
    (hfits : Fits t (.call (.read pid (.ok (some r))) held :: es)
      ((s.tracker.called (.read pid (.ok (some r))) held source).keepProcess pid r)) :
    Sheltered t (.call (.read pid (.ok (some r))) held :: es) { s with
      tracker := (s.tracker.called (.read pid (.ok (some r))) held source).keepProcess pid r } := by
  refine ⟨hfits, ?_⟩
  intro e he
  rcases h.backed e he with hshim | ⟨hknown, hcases⟩
  · exact .inl hshim
  · refine .inr ⟨hknown.append [_], ?_⟩
    by_cases hpid : e.pid = pid
    · cases hsame : r.identity.sameProcess e with
      | true => exact .inr ⟨r, by rw [lookup_keepProcess, if_pos hpid], hsame⟩
      | false =>
        refine .inl ⟨[], _, es, rfl, ⟨hpid.symm, ?_⟩, hknown⟩
        rw [Option.all_some, hsame]
        rfl
    · rcases hcases with hlost | ⟨r', hl, hs⟩
      · exact .inl (hlost.append [_])
      · refine .inr ⟨r', ?_, hs⟩
        rw [lookup_keepProcess, if_neg hpid]
        exact hl

lemma drop (h : Sheltered t es s) {expected : ProcessIdentity} {a : Option ProcessRecord}
    (ha : a.all (fun r => !r.identity.sameProcess expected) = true) {held : Held} {source : σ}
    (hfits : Fits t (.call (.read expected.pid (.ok a)) held :: es)
      (s.tracker.called (.read expected.pid (.ok a)) held source)) :
    Sheltered t (.call (.read expected.pid (.ok a)) held :: es) { s with
      tracker := (s.tracker.called (.read expected.pid (.ok a)) held source).dropStale expected } := by
  refine ⟨hfits.dropStale expected, ?_⟩
  intro e he
  rw [dropStale]
  split
  · next hany =>
    rcases h.backed e he with hshim | ⟨hknown, hcases⟩
    · exact .inl hshim
    · refine .inr ⟨hknown.append [_], ?_⟩
      rcases hcases with hlost | ⟨r, hl, hs⟩
      · exact .inl (hlost.append [_])
      · by_cases hpid : e.pid = expected.pid
        · -- the record that goes is the one of this entry too
          have hl' : (s.tracker.called (.read expected.pid (.ok a)) held source).processes.lookup
              expected.pid = some r := hpid ▸ hl
          rw [hl', Option.any_some, ProcessIdentity.sameProcess_iff] at hany
          have hstart : e.startTime = expected.startTime :=
            (ProcessIdentity.sameProcess_iff.mp hs).2.symm.trans hany.2
          refine .inl ⟨[], _, es, rfl, ⟨hpid.symm, ?_⟩, hknown⟩
          simp only [ProcessIdentity.sameProcess, hpid, hstart] at ha ⊢
          exact ha
        · refine .inr ⟨r, ?_, hs⟩
          exact (AList.lookup_erase_ne hpid).trans hl
  · exact (h.backed e he).frame [_] rfl

end Sheltered

variable {s : Scan σ}

lemma scanChildren_sheltered (hH : Reliable H) (expected : ProcessIdentity) (l : List ℕ)
    (h : Sheltered t es s) : ∃ more, Sheltered t (more ++ es) (scanChildren H expected l s) := by
  induction l generalizing s es with
  | nil => exact ⟨[], h⟩
  | cons pid rest ih =>
    have onward {es' : List Event} {s' : Scan σ} (more : List Event) (hes : es' = more ++ es)
        (h' : Sheltered t es' s') :
        ∃ more, Sheltered t (more ++ es) (scanChildren H expected rest s') := by
      obtain ⟨later, hlater⟩ := ih h'
      rw [hes, ← List.append_assoc] at hlater
      exact ⟨later ++ more, hlater⟩
    rw [scanChildren]
    split
    · exact ih h
    · split
      · next error u hread =>
        obtain rfl := read_eq hread
        obtain ⟨more, hmore⟩ := (h.called _ _).scanError error
        exact onward (more ++ [_]) (List.append_assoc _ [_] _).symm hmore
      · next u hread =>
        obtain rfl := read_eq hread
        exact onward [_] rfl (h.called _ _)
      · next child u hread =>
        have hchild : child.identity.pid = pid := hH _ _ _ (congrArg Prod.fst hread)
        obtain rfl := read_eq hread
        have hcalled := h.called (.read pid (.ok (some child))) (H.read pid s.tracker.source).2
        split
        · exact onward [_] rfl hcalled
        · split
          · exact onward [_] rfl hcalled
          · split
            · exact ⟨[_, _], hcalled.frame [_] (hcalled.fits.fail .processLimit) rfl⟩
            · next hfull =>
              have hkeep := h.keep (hcalled.fits.keep_checked hfull child)
              refine onward [_] rfl ⟨hkeep.fits, ?_⟩
              intro e he
              rcases List.mem_append.mp he with he | he
              · exact hkeep.backed e he
              · have hsame := ProcessIdentity.sameProcess_self child.identity
                rw [List.mem_singleton.mp he]
                refine .inr ⟨.inr ⟨_, List.mem_cons_self, hchild.symm, hsame⟩, .inr ⟨child, ?_, hsame⟩⟩
                rw [hchild]
                exact AList.lookup_insert _

def Guarded (t : Tracker σ) (s : Scan σ) : Prop :=
  ∃ es, s.tracker.log = es ++ t.log ∧ (Reappears t es ∨ Sheltered t es s)

lemma Guarded.of_sheltered (h : Sheltered t es s) : Guarded t s :=
  ⟨es, h.fits.log, .inr h⟩

lemma Guarded.lift {s' : Scan σ} (h : Guarded t s) (hprobed : Probed s.tracker s'.tracker)
    (hstep : ∀ es, Sheltered t es s → Guarded t s') : Guarded t s' := by
  obtain ⟨es, hlog, hr | hs⟩ := h
  · obtain ⟨more, hmore, -⟩ := hprobed.log
    refine ⟨more ++ es, ?_, .inl (hr.append more)⟩
    rw [hmore, hlog, List.append_assoc]
  · exact hstep es hs

lemma Guarded.called (h : Guarded t s) (call : Call) (source : σ)
    (hprobes : (Event.call call s.tracker.held).probes = true) :
    Guarded t { s with tracker := s.tracker.called call s.tracker.held source } :=
  h.lift (.of_event rfl rfl hprobes) fun _ hs => .of_sheltered (hs.called call source)

lemma Guarded.scanError (h : Guarded t s) (error : IoError) :
    Guarded t { s with tracker := s.tracker.scanError error, incomplete := true } :=
  h.lift (.scanError _ _) fun _ hs => .of_sheltered (hs.scanError error).choose_spec

lemma Sheltered.visit (h : Sheltered t es s) {expected : ProcessIdentity}
    (hbacked : Backed t es s.tracker expected) {current : ProcessRecord}
    (hsame : current.identity.sameProcess expected = true) (source : σ) (visited : Table ℕ StartTime) :
    Guarded t { s with
      visited := visited
      tracker :=
        if expected.pid ≠ (s.tracker.called (.read expected.pid (.ok (some current)))
            s.tracker.held source).shim.pid then
          (s.tracker.called (.read expected.pid (.ok (some current)))
            s.tracker.held source).keepProcess expected.pid current
        else s.tracker.called (.read expected.pid (.ok (some current))) s.tracker.held source } := by
  have hcalled := h.called (.read expected.pid (.ok (some current))) source
  split
  · next hshim =>
    rcases hbacked with heq | ⟨-, hlost | ⟨r, hl, -⟩⟩
    · exact absurd (heq.trans (congrArg ProcessIdentity.pid hcalled.fits.shim.symm)) hshim
    · refine ⟨_ :: es, hcalled.fits.log, .inl ?_⟩
      exact ⟨[], _, es, expected, rfl, ⟨rfl, hsame⟩, hlost⟩
    · have hkept := h.keep (hcalled.fits.keep_known (Option.isSome_iff_exists.mpr ⟨r, hl⟩) current)
      exact .of_sheltered ⟨hkept.fits, hkept.backed⟩
  · exact .of_sheltered ⟨hcalled.fits, hcalled.backed⟩

lemma scanEntry_guarded (hH : Reliable H) {expected : ProcessIdentity} (h : Sheltered t es s)
    (hbacked : Backed t es s.tracker expected) : Guarded t (scanEntry H expected s) := by
  rw [scanEntry]
  split
  · next error u hread =>
    obtain rfl := read_eq hread
    obtain ⟨more, hmore⟩ := (h.called _ _).scanError error
    exact .of_sheltered hmore
  · next u hread =>
    obtain rfl := read_eq hread
    exact .of_sheltered (h.drop rfl (h.called _ _).fits)
  · next current u hread =>
    obtain rfl := read_eq hread
    split
    · next hother =>
      have hmissing : (some current).all (fun r => !r.identity.sameProcess expected) = true := hother
      exact .of_sheltered (h.drop hmissing (h.called _ _).fits)
    · next hsame =>
      have hvisit := h.visit hbacked (by simpa using hsame)
        (H.read expected.pid s.tracker.source).2
        (s.visited.insert expected.pid current.identity.startTime)
      dsimp only
      generalize (if expected.pid ≠ (s.tracker.called (.read expected.pid (.ok (some current)))
          s.tracker.held (H.read expected.pid s.tracker.source).2).shim.pid then
          (s.tracker.called (.read expected.pid (.ok (some current)))
            s.tracker.held (H.read expected.pid s.tracker.source).2).keepProcess expected.pid current
        else s.tracker.called (.read expected.pid (.ok (some current))) s.tracker.held
          (H.read expected.pid s.tracker.source).2) = u at hvisit ⊢
      have hlisted := hvisit.called (.children expected.pid (H.children expected.pid u.source).1)
        (H.children expected.pid u.source).2 rfl
      split
      · next error v hchildren =>
        obtain ⟨herror, rfl⟩ := Prod.mk.inj hchildren
        split
        · exact hlisted
        · exact hlisted.scanError error
      · next children v hchildren =>
        obtain ⟨-, rfl⟩ := Prod.mk.inj hchildren
        generalize u.called (.children expected.pid (H.children expected.pid u.source).1) u.held
          (H.children expected.pid u.source).2 = v at hlisted ⊢
        have hread := hlisted.called (.read expected.pid (H.read expected.pid v.source).1)
          (H.read expected.pid v.source).2 rfl
        split
        · next error w hparent =>
          obtain ⟨-, rfl⟩ := Prod.mk.inj hparent
          exact hread.scanError error
        · next w hparent =>
          obtain ⟨-, rfl⟩ := Prod.mk.inj hparent
          exact hread
        · next parent w hparent =>
          obtain ⟨-, rfl⟩ := Prod.mk.inj hparent
          split
          · exact hread.lift (scanChildren_probed _ _ _)
              fun _ hs => .of_sheltered (scanChildren_sheltered hH expected children hs).choose_spec
          · exact hread

lemma Drains.guarded (hH : Reliable H) {limit attempts : ℕ} {s' : Scan σ}
    {worked : List (ProcessIdentity × Scan σ)} (h : Drains H limit s attempts worked s')
    (hs : Guarded t s) : Guarded t s' := by
  have take {es : List Event} {s : Scan σ} {expected : ProcessIdentity}
      {rest : List ProcessIdentity} (hq : s.queue = expected :: rest) (hs : Sheltered t es s) :
      Sheltered t es { s with queue := rest } := by
    exact ⟨hs.fits, fun e he => hs.backed e (hq ▸ List.mem_cons_of_mem _ he)⟩
  induction h with
  | empty => exact hs
  | skip hq _ _ ih => exact ih (hs.lift (.of_log rfl rfl) fun _ hs => .of_sheltered (take hq hs))
  | stop hq =>
    apply hs.lift (.fail _ (by simp))
    intro es hs
    exact .of_sheltered ((take hq hs).frame [_] (hs.fits.fail .processLimit) rfl)
  | @work s attempts expected rest worked s' hq _ _ _ ih =>
    apply ih
    apply hs.lift (scanEntry_probed expected { s with queue := rest })
    intro es hs
    exact scanEntry_guarded hH (take hq hs) (hs.backed expected (hq ▸ List.mem_cons_self))

def Keeps (t u u' : Tracker σ) : Prop :=
  ∃ more, u'.log = more ++ u.log ∧ ∀ es, Fits t es u → Fits t (more ++ es) u'

namespace Keeps

variable {u'' : Tracker σ}

lemma refl (u : Tracker σ) : Keeps t u u :=
  ⟨[], rfl, fun _ h => h⟩

lemma trans (h : Keeps t u u') (h' : Keeps t u' u'') : Keeps t u u'' := by
  obtain ⟨more, hlog, hfits⟩ := h
  obtain ⟨more', hlog', hfits'⟩ := h'
  refine ⟨more' ++ more, ?_, ?_⟩
  · rw [hlog', hlog, List.append_assoc]
  · intro es hs
    rw [List.append_assoc]
    exact hfits' _ (hfits es hs)

lemma frame (hlog : u'.log = u.log) (hshim : u'.shim = u.shim)
    (hlimit : u'.processLimit = u.processLimit) (hprocesses : u'.processes = u.processes) :
    Keeps t u u' :=
  ⟨[], hlog, fun _ h => h.frame hlog hshim hlimit (hprocesses ▸ h.size)⟩

lemma called (u : Tracker σ) (call : Call) (source : σ) : Keeps t u (u.called call u.held source) :=
  ⟨[_], rfl, fun _ h => h.called call source⟩

lemma fail (u : Tracker σ) (why : Failure) : Keeps t u (u.fail why) :=
  ⟨[_], rfl, fun _ h => h.fail why⟩

lemma scanError (u : Tracker σ) (error : IoError) : Keeps t u (u.scanError error) := by
  rw [Tracker.scanError]
  split
  · exact fail u _
  · exact refl u

lemma keepProcess (r : ProcessRecord)
    (hcheck : ¬((u.processes.lookup pid).isNone = true ∧ u.processLimit ≤ u.processes.size)) :
    Keeps t u (u.keepProcess pid r) :=
  ⟨[], rfl, fun _ h => h.keep_checked hcheck r⟩

lemma scanMembers (expected : ProcessIdentity) (l : List ℕ) (unresolved : Bool)
    (s : Tracker σ × Bool) : Keeps t s.1 (Tracker.scanMembers H expected l unresolved s).2.1 := by
  induction l generalizing unresolved s with
  | nil => exact refl _
  | cons pid rest ih =>
    obtain ⟨u, incomplete⟩ := s
    rw [Tracker.scanMembers]
    split
    · next error v hread =>
      obtain rfl := read_eq hread
      exact ((called u _ _).trans (scanError _ error)).trans (ih true _)
    · next v hread =>
      obtain rfl := read_eq hread
      exact (called u _ _).trans (ih unresolved _)
    · next member v hread =>
      obtain rfl := read_eq hread
      split
      · exact (called u _ _).trans (ih unresolved _)
      · split
        · exact (called u _ _).trans (fail _ _)
        · next hfull => exact ((called u _ _).trans (keepProcess member hfull)).trans (ih unresolved _)

lemma scanRootGroup (u : Tracker σ) (incomplete : Bool) :
    Keeps t u (Tracker.scanRootGroup H u incomplete).1 := by
  have hstart : Keeps t u (u.setUnresolved false) := .frame rfl rfl rfl rfl
  simp only [Tracker.scanRootGroup]
  split
  · exact hstart
  · split
    · exact hstart
    · next root _ =>
      split
      · exact hstart
      · have htrue : Keeps t u ((u.setUnresolved false).setUnresolved true) :=
          hstart.trans (.frame rfl rfl rfl rfl)
        generalize (u.setUnresolved false).setUnresolved true = v at htrue ⊢
        split
        · next error w hgroup =>
          obtain ⟨-, rfl⟩ := Prod.mk.inj hgroup
          exact (htrue.trans (called v _ _)).trans (scanError _ error)
        · next members w hgroup =>
          obtain ⟨-, rfl⟩ := Prod.mk.inj hgroup
          have hlisted := htrue.trans (called v
            (.groupMembers root.identity.pgid (H.groupMembers root.identity.pgid v.source).1)
            (H.groupMembers root.identity.pgid v.source).2)
          generalize v.called (.groupMembers root.identity.pgid
            (H.groupMembers root.identity.pgid v.source).1) v.held
            (H.groupMembers root.identity.pgid v.source).2 = w at hlisted ⊢
          split
          · next error x hread =>
            obtain rfl := read_eq hread
            exact (hlisted.trans (called _ _ _)).trans (scanError _ error)
          · next x hread =>
            obtain rfl := read_eq hread
            exact (hlisted.trans (called _ _ _)).trans (fail _ _)
          · next current x hread =>
            obtain rfl := read_eq hread
            have hverified := hlisted.trans (called _ (.read root.identity.pid (.ok (some current)))
              (H.read root.identity.pid w.source).2)
            split
            · have hmembers := hverified.trans
                (scanMembers (H := H) root.identity members false (_, incomplete))
              exact hmembers.trans (.frame rfl rfl rfl rfl)
            · exact hverified.trans (fail _ _)

lemma reapAdopted (held : Held) (hheld : held.processes.length ≤ t.processLimit)
    (l : List ProcessRecord) (u : Tracker σ) : Keeps t u (Tracker.reapAdopted H held l u) := by
  have reaped (u : Tracker σ) (answer : Io Unit) (pid : ℕ) (source : σ) :
      Keeps t u (u.called (.reap pid answer) held source) :=
    ⟨[_], rfl, fun _ h => h.add rfl rfl rfl rfl hheld⟩
  induction l generalizing u with
  | nil => exact refl u
  | cons record rest ih =>
    rw [Tracker.reapAdopted]
    split
    · split
      · next error v hreap =>
        obtain rfl := reap_frame hreap
        exact ((reaped u _ _ _).trans (fail _ _)).trans (ih _)
      · next v hreap =>
        obtain rfl := reap_frame hreap
        refine Keeps.trans ?_ (ih _)
        exact (reaped u _ record.identity.pid _).trans ⟨[], rfl, fun _ h => h.removeProcess _⟩
    · exact ih u

lemma recordGroups (l : List ProcessRecord) (u : Tracker σ) :
    Keeps t u (Tracker.recordGroups l u) := by
  induction l generalizing u with
  | nil => exact refl u
  | cons record rest ih =>
    rw [Tracker.recordGroups]
    split
    · split
      · exact (fail u _).trans (ih _)
      · have hrecorded : Keeps t u (u.recordGroup record.identity) := .frame rfl rfl rfl rfl
        exact hrecorded.trans (ih _)
    · exact ih u

lemma concludeScan (u : Tracker σ) (incomplete : Bool) : Keeps t u (u.concludeScan incomplete) := by
  have hcount : Keeps t u (u.countScan incomplete) := ⟨[_], rfl, fun _ h => h.add rfl rfl rfl rfl trivial⟩
  rw [Tracker.concludeScan]
  split
  · exact hcount.trans (fail _ _)
  · exact hcount

lemma prune (u : Tracker σ) : Keeps t u (u.prune H) := by
  have pruned (limited : Tracker σ) (hheld : u.held.processes.length ≤ limited.processLimit) :
      Keeps limited u (u.prune H) := by
    obtain ⟨records, records', v, v', -, -, -, heq⟩ := prune_eq (H := H) u
    have hbefore : Keeps limited u { u with source := v } := .frame rfl rfl rfl rfl
    have hreaped := hbefore.trans (reapAdopted (H := H) u.held hheld records { u with source := v })
    rw [heq]
    generalize Tracker.reapAdopted H u.held records { u with source := v } = w at hreaped ⊢
    have hgroups : Keeps limited w { w.pruneGroups with source := v' } := .frame rfl rfl rfl rfl
    have hrecorded := hgroups.trans (recordGroups records' { w.pruneGroups with source := v' })
    exact (hreaped.trans hrecorded).trans (.frame rfl rfl rfl rfl)
  by_cases hheld : u.held.processes.length ≤ t.processLimit
  · exact pruned t hheld
  · obtain ⟨more, hlog, -⟩ := pruned { t with processLimit := u.held.processes.length } le_rfl
    exact ⟨more, hlog, fun _ h => absurd h.held_le hheld⟩

end Keeps

def opening (H : Host σ) (t : Tracker σ) : Scan σ :=
  let (records, t) := t.order H t.processes.values
  let anchors := records.map (·.identity)
  ⟨t, false, if t.adoptOrphans then t.shim :: anchors else anchors, ∅⟩

def drained (H : Host σ) (t : Tracker σ) : Scan σ :=
  scanQueue H (t.processLimit * 2 + 1) (opening H t)

lemma scan_eq_drained (t : Tracker σ) :
    t.scan H = ((scanRootGroup H (drained H t).tracker (drained H t).incomplete).1.prune
      H).concludeScan (scanRootGroup H (drained H t).tracker (drained H t).incomplete).2 :=
  rfl

lemma opening_sheltered (hk : Keyed t) (hsize : t.processes.size ≤ t.processLimit) :
    Sheltered t [] (opening H t) := by
  have hanchors : ∀ r ∈ (t.order H t.processes.values).1, Backed t [] t r.identity := by
    intro r hr
    obtain ⟨p, hl⟩ := Table.mem_values.mp ((H.order_perm _ _).mem_iff.mp hr)
    have hretained : ∃ r', t.processes.lookup r.identity.pid = some r' ∧
        r'.identity.sameProcess r.identity = true :=
      ⟨r, by rw [hk p r hl]; exact hl, ProcessIdentity.sameProcess_self _⟩
    exact .inr ⟨.inl hretained, .inr hretained⟩
  refine ⟨⟨rfl, rfl, rfl, hsize, nofun⟩, ?_⟩
  intro e he
  have hmem : e = t.shim ∨ ∃ r ∈ (t.order H t.processes.values).1, r.identity = e := by
    rw [opening] at he
    dsimp only at he
    split at he
    · rcases List.mem_cons.mp he with heq | he
      · exact .inl heq
      · exact .inr (List.mem_map.mp he)
    · exact .inr (List.mem_map.mp he)
  rcases hmem with rfl | ⟨r, hr, rfl⟩
  · exact .inl rfl
  · exact hanchors r hr

lemma scan_fits (hH : Reliable H) (hk : Keyed t) (hsize : t.processes.size ≤ t.processLimit) :
    ∃ es, (t.scan H).log = es ++ t.log ∧ (Reappears t es ∨ Fits t es (t.scan H)) := by
  have hsum : 0 + (t.processLimit * 2 + 1) = t.processLimit * 2 + 1 := Nat.zero_add _
  obtain ⟨worked, hdrains, -⟩ := Drains.of_scanQueue (H := H) _ (opening H t) hsum
  obtain ⟨es, hlog, hcases⟩ := hdrains.guarded hH (.of_sheltered (opening_sheltered hk hsize))
  have hkeeps : Keeps t (drained H t).tracker (t.scan H) := by
    rw [scan_eq_drained]
    exact ((Keeps.scanRootGroup _ _).trans (.prune _)).trans (.concludeScan _ _)
  obtain ⟨more, hmore, hfits⟩ := hkeeps
  refine ⟨more ++ es, ?_, ?_⟩
  · rw [hmore, List.append_assoc, ← hlog]
    rfl
  · rcases hcases with hr | hs
    · exact .inl (hr.append more)
    · exact .inr (hfits es hs.fits)

lemma ScanEffect.marks {s s' : Tracker σ × Bool} (h : ScanEffect H s s') :
    s'.1.uncertain = true ∨ s'.1.uncertain = s.1.uncertain ∧
      ∀ why, failures why s'.1.log = failures why s.1.log := by
  have scanError (t : Tracker σ) (e : IoError) : (t.scanError e).uncertain = true ∨
      (t.scanError e).uncertain = t.uncertain ∧
        ∀ why, failures why (t.scanError e).log = failures why t.log := by
    rw [Tracker.scanError]
    split
    · exact .inl rfl
    · exact .inr ⟨rfl, fun _ => rfl⟩
  cases h with
  | order | keep | unresolved | pruneGroups | record | pruneMembers => exact .inr ⟨rfl, fun _ => rfl⟩
  | looked hr =>
    obtain rfl := read_eq hr
    exact .inr ⟨rfl, fun _ => failures_called⟩
  | lookFailed hr =>
    obtain rfl := read_eq hr
    exact (scanError _ _).imp_right fun h => ⟨h.1, fun why => (h.2 why).trans failures_called⟩
  | listed hr | listGone hr | grouped hr =>
    obtain ⟨-, rfl⟩ := Prod.mk.inj hr
    exact .inr ⟨rfl, fun _ => failures_called⟩
  | listFailed hr | groupFailed hr =>
    obtain ⟨-, rfl⟩ := Prod.mk.inj hr
    exact (scanError _ _).imp_right fun h => ⟨h.1, fun why => (h.2 why).trans failures_called⟩
  | drop id =>
    dsimp only [dropStale]
    split <;> exact .inr ⟨rfl, fun _ => rfl⟩
  | failed => exact .inl rfl
  | @reaped t _ _ held record hr =>
    obtain rfl := reap_frame hr
    exact .inr ⟨rfl, fun _ => failures_called (u := (H.reap record.identity.pid t.source).2)⟩
  | reapFailed held record hr => exact .inl rfl

lemma ScanEffects.uncertain {s s' : Tracker σ × Bool} (h : ScanEffects H s s')
    (hu : s.1.uncertain = true) : s'.1.uncertain = true := by
  induction h with
  | refl => exact hu
  | tail _ he ih =>
    rcases he.marks with hmark | ⟨hsame, -⟩
    · exact hmark
    · exact hsame.trans ih

lemma ScanEffects.failures {s s' : Tracker σ × Bool} (h : ScanEffects H s s') (why : Failure) :
    s'.1.uncertain = true ∨ Native.failures why s'.1.log = Native.failures why s.1.log := by
  induction h with
  | refl => exact .inr rfl
  | tail _ he ih =>
    rcases he.marks with hmark | ⟨hsame, hlog⟩
    · exact .inl hmark
    · exact ih.imp hsame.trans (hlog why).trans

def Looked (u u' : Tracker σ) (pid : ℕ) (answer : Io (Option ProcessRecord)) : Prop :=
  ∃ later held earlier, u'.log = later ++ .call (.read pid answer) held :: earlier ++ u.log

def ChildKept (expected : ProcessIdentity) (s s' : Scan σ) (pid : ℕ) : Prop :=
  ∃ answer, Looked s.tracker s'.tracker pid answer ∧
    ∀ r, answer = .ok (some r) → r.ppid = expected.pid →
      s.visitedAt pid r.identity.startTime = true ∨
        pid ∈ s'.tracker.processes ∧ r.identity ∈ s'.queue

lemma Looked.trans {v : Tracker σ} {answer : Io (Option ProcessRecord)} (h : Looked u u' pid answer)
    (h' : ∃ more, v.log = more ++ u'.log) : Looked u v pid answer := by
  obtain ⟨later, held, earlier, heq⟩ := h
  obtain ⟨more, hmore⟩ := h'
  exact ⟨more ++ later, held, earlier, by rw [hmore, heq]; simp only [List.append_assoc]⟩

lemma Looked.after {v : Tracker σ} {answer : Io (Option ProcessRecord)} (h : Looked u' v pid answer)
    (h' : ∃ more, u'.log = more ++ u.log) : Looked u v pid answer := by
  obtain ⟨later, held, earlier, heq⟩ := h
  obtain ⟨more, hmore⟩ := h'
  refine ⟨later, held, earlier ++ more, ?_⟩
  rw [heq, hmore]
  simp only [List.append_assoc, List.cons_append]

structure Adds (u u' : Tracker σ) : Prop where
  log : ∃ more, u'.log = more ++ u.log
  processes : ∀ p ∈ u.processes, p ∈ u'.processes
  shim : u'.shim = u.shim

namespace Adds

lemma refl (u : Tracker σ) : Adds u u :=
  ⟨⟨[], rfl⟩, fun _ h => h, rfl⟩

lemma trans {u'' : Tracker σ} (h : Adds u u') (h' : Adds u' u'') : Adds u u'' := by
  obtain ⟨more, hmore⟩ := h.log
  obtain ⟨more', hmore'⟩ := h'.log
  refine ⟨⟨more' ++ more, ?_⟩, fun p hp => h'.processes p (h.processes p hp), h'.shim.trans h.shim⟩
  rw [hmore', hmore, List.append_assoc]

lemma called (u : Tracker σ) (call : Call) (source : σ) : Adds u (u.called call u.held source) :=
  ⟨⟨[_], rfl⟩, fun _ h => h, rfl⟩

lemma fail (u : Tracker σ) (why : Failure) : Adds u (u.fail why) :=
  ⟨⟨[_], rfl⟩, fun _ h => h, rfl⟩

lemma scanError (u : Tracker σ) (error : IoError) : Adds u (u.scanError error) := by
  rw [Tracker.scanError]
  split
  · exact fail u _
  · exact refl u

lemma keepProcess (u : Tracker σ) (pid : ℕ) (r : ProcessRecord) : Adds u (u.keepProcess pid r) :=
  ⟨⟨[], rfl⟩, fun _ hp => (AList.mem_insert _).mpr (.inr hp), rfl⟩

end Adds

structure Grows (s s' : Scan σ) : Prop where
  tracker : Adds s.tracker s'.tracker
  queue : ∀ e ∈ s.queue, e ∈ s'.queue
  visited : s'.visited = s.visited

namespace Grows

variable {s' s'' : Scan σ} {queue : List ProcessIdentity} {incomplete : Bool}

lemma refl (s : Scan σ) : Grows s s :=
  ⟨.refl _, fun _ h => h, rfl⟩

lemma trans (h : Grows s s') (h' : Grows s' s'') : Grows s s'' :=
  ⟨h.tracker.trans h'.tracker, fun e he => h'.queue e (h.queue e he), h'.visited.trans h.visited⟩

lemma of_adds (h : Adds s.tracker u) :
    Grows s { s with tracker := u, incomplete := incomplete, queue := s.queue ++ queue } :=
  ⟨h, fun _ he => List.mem_append_left _ he, rfl⟩

lemma frame (h : Adds s.tracker u) : Grows s { s with tracker := u, incomplete := incomplete } :=
  ⟨h, fun _ he => he, rfl⟩

end Grows

lemma ChildKept.later {expected : ProcessIdentity} {s' s'' : Scan σ}
    (h : ChildKept expected s s' pid) (hg : Grows s' s'') : ChildKept expected s s'' pid := by
  obtain ⟨answer, hlooked, hkept⟩ := h
  refine ⟨answer, hlooked.trans hg.tracker.log, ?_⟩
  intro r hr hp
  exact (hkept r hr hp).imp_right fun h => ⟨hg.tracker.processes pid h.1, hg.queue _ h.2⟩

lemma ChildKept.earlier {expected : ProcessIdentity} {s' s'' : Scan σ} (hg : Grows s s')
    (h : ChildKept expected s' s'' pid) : ChildKept expected s s'' pid := by
  obtain ⟨answer, hlooked, hkept⟩ := h
  refine ⟨answer, hlooked.after hg.tracker.log, ?_⟩
  intro r hr hp
  rw [Scan.visitedAt, ← hg.visited]
  exact hkept r hr hp

lemma scanChildren_kept (expected : ProcessIdentity) (l : List ℕ) (s : Scan σ) :
    Grows s (scanChildren H expected l s) ∧
      ((scanChildren H expected l s).tracker.uncertain = true ∨
        ∀ pid ∈ l, pid = s.tracker.shim.pid ∨
          ChildKept expected s (scanChildren H expected l s) pid) := by
  induction l generalizing s with
  | nil => exact ⟨.refl s, .inr fun _ h => (List.not_mem_nil h).elim⟩
  | cons pid rest ih =>
    have onward {s' : Scan σ} (hg : Grows s s')
        (hpid : pid = s.tracker.shim.pid ∨ ChildKept expected s s' pid) :
        Grows s (scanChildren H expected rest s') ∧
          ((scanChildren H expected rest s').tracker.uncertain = true ∨
            ∀ pid' ∈ pid :: rest, pid' = s.tracker.shim.pid ∨
              ChildKept expected s (scanChildren H expected rest s') pid') := by
      obtain ⟨hrest, hkept⟩ := ih s'
      refine ⟨hg.trans hrest, hkept.imp_right fun hkept => ?_⟩
      intro pid' hmem
      rcases List.mem_cons.mp hmem with rfl | hmem
      · exact hpid.imp_right fun h => h.later hrest
      · rw [← hg.tracker.shim]
        exact (hkept pid' hmem).imp_right fun h => h.earlier hg
    rw [scanChildren]
    split
    · next hshim => exact onward (.refl s) (.inl hshim)
    · split
      · next error u hread =>
        obtain rfl := read_eq hread
        have hcalled := Adds.called s.tracker (.read pid (.error error)) (H.read pid s.tracker.source).2
        have herror := Adds.scanError (s.tracker.called (.read pid (.error error)) s.tracker.held
          (H.read pid s.tracker.source).2) error
        refine onward (.frame (hcalled.trans herror)) (.inr ⟨.error error, ?_, fun _ h => by cases h⟩)
        exact Looked.trans ⟨[], _, [], rfl⟩ herror.log
      · next u hread =>
        obtain rfl := read_eq hread
        refine onward (.frame (.called _ _ _)) (.inr ⟨_, ⟨[], _, [], rfl⟩, ?_⟩)
        rintro r ⟨⟩
      · next child u hread =>
        obtain rfl := read_eq hread
        have hcalled := Adds.called s.tracker (.read pid (.ok (some child)))
          (H.read pid s.tracker.source).2
        split
        · next hother =>
          refine onward (.frame hcalled) (.inr ⟨_, ⟨[], _, [], rfl⟩, ?_⟩)
          rintro r ⟨⟩ hparent
          exact absurd hparent hother
        · split
          · next hvisited =>
            refine onward (.frame hcalled) (.inr ⟨_, ⟨[], _, [], rfl⟩, ?_⟩)
            rintro r ⟨⟩ -
            exact .inl hvisited
          · split
            · exact ⟨.frame (hcalled.trans (.fail _ _)), .inl rfl⟩
            · refine onward (.of_adds (hcalled.trans (.keepProcess _ pid child)))
                (.inr ⟨_, ⟨[], _, [], rfl⟩, ?_⟩)
              rintro r ⟨⟩ -
              refine .inr ⟨(AList.mem_insert _).mpr (.inl rfl), ?_⟩
              exact List.mem_append_right _ List.mem_cons_self

inductive Opens (H : Host σ) (expected : ProcessIdentity) (s : Scan σ) : List ℕ → Scan σ → Prop
  | mk {current u children v parent w} : s.tracker.read H expected.pid = (.ok (some current), u) →
      current.identity.sameProcess expected = true →
      (if expected.pid ≠ u.shim.pid then u.keepProcess expected.pid current else u).children H
        expected.pid = (.ok children, v) →
      v.read H expected.pid = (.ok (some parent), w) →
      parent.identity.sameProcess expected = true →
      Opens H expected s children
        ⟨w, s.incomplete, s.queue, s.visited.insert expected.pid current.identity.startTime⟩

lemma Opens.scanEntry {expected : ProcessIdentity} {children : List ℕ} {s' : Scan σ}
    (h : Opens H expected s children s') :
    Tracker.scanEntry H expected s = scanChildren H expected children s' := by
  obtain ⟨hread, hsame, hchildren, hparent, hverified⟩ := h
  rw [Tracker.scanEntry, hread]
  dsimp only
  rw [if_neg (by rw [hsame]; decide), hchildren]
  dsimp only
  rw [hparent]
  dsimp only
  rw [if_pos hverified]

def MemberKept (expected : ProcessIdentity) (u u' : Tracker σ) (pid : ℕ) : Prop :=
  ∃ answer, Looked u u' pid answer ∧ ∀ r, answer = .ok (some r) →
    r.identity.pgid = expected.pgid → pid ∈ u'.processes

lemma scanMembers_kept (expected : ProcessIdentity) (l : List ℕ) (unresolved : Bool)
    (s : Tracker σ × Bool) : Adds s.1 (scanMembers H expected l unresolved s).2.1 ∧
      ((scanMembers H expected l unresolved s).2.1.uncertain = true ∨
        ∀ pid ∈ l, MemberKept expected s.1 (scanMembers H expected l unresolved s).2.1 pid) := by
  induction l generalizing unresolved s with
  | nil => exact ⟨.refl _, .inr fun _ h => (List.not_mem_nil h).elim⟩
  | cons pid rest ih =>
    obtain ⟨u, incomplete⟩ := s
    have onward {s' : Tracker σ × Bool} (unresolved : Bool) (ha : Adds u s'.1)
        (hpid : MemberKept expected u s'.1 pid) :
        Adds u (scanMembers H expected rest unresolved s').2.1 ∧
          ((scanMembers H expected rest unresolved s').2.1.uncertain = true ∨
            ∀ pid' ∈ pid :: rest, MemberKept expected u
              (scanMembers H expected rest unresolved s').2.1 pid') := by
      obtain ⟨hrest, hkept⟩ := ih unresolved s'
      refine ⟨ha.trans hrest, hkept.imp_right fun hkept => ?_⟩
      intro pid' hmem
      rcases List.mem_cons.mp hmem with rfl | hmem
      · obtain ⟨answer, hlooked, hin⟩ := hpid
        exact ⟨answer, hlooked.trans hrest.log, fun r hr hp => hrest.processes _ (hin r hr hp)⟩
      · obtain ⟨answer, hlooked, hin⟩ := hkept pid' hmem
        exact ⟨answer, hlooked.after ha.log, hin⟩
    rw [scanMembers]
    split
    · next error v hread =>
      obtain rfl := read_eq hread
      have herror := Adds.scanError (u.called (.read pid (.error error)) u.held
        (H.read pid u.source).2) error
      refine onward true ((Adds.called u _ _).trans herror) ⟨.error error, ?_, fun _ h => by cases h⟩
      exact Looked.trans ⟨[], _, [], rfl⟩ herror.log
    · next v hread =>
      obtain rfl := read_eq hread
      refine onward unresolved (.called u _ _) ⟨_, ⟨[], _, [], rfl⟩, ?_⟩
      rintro r ⟨⟩
    · next member v hread =>
      obtain rfl := read_eq hread
      have hcalled := Adds.called u (.read pid (.ok (some member))) (H.read pid u.source).2
      split
      · next hother =>
        refine onward unresolved hcalled ⟨_, ⟨[], _, [], rfl⟩, ?_⟩
        rintro r ⟨⟩ hpgid
        exact absurd hpgid hother
      · split
        · exact ⟨hcalled.trans (.fail _ _), .inl rfl⟩
        · refine onward unresolved (hcalled.trans (.keepProcess _ pid member))
            ⟨_, ⟨[], _, [], rfl⟩, ?_⟩
          rintro r ⟨⟩ -
          exact (AList.mem_insert _).mpr (.inl rfl)

inductive OpensGroup (H : Host σ) (u : Tracker σ) :
    ProcessIdentity → List ℕ → Tracker σ → Prop
  | mk {root members v current w} : u.adoptOrphans = false →
      u.processes.lookup u.rootPid = some root → root.exited = true →
      root.identity.pid = root.identity.pgid →
      ((u.setUnresolved false).setUnresolved true).groupMembers H root.identity.pgid =
        (.ok members, v) →
      v.read H root.identity.pid = (.ok (some current), w) → current.identity = root.identity →
      OpensGroup H u root.identity members w

lemma OpensGroup.scanRootGroup {expected : ProcessIdentity} {members : List ℕ} {w : Tracker σ}
    (h : OpensGroup H u expected members w) (incomplete : Bool) :
    (Tracker.scanRootGroup H u incomplete).1 =
      (scanMembers H expected members false (w, incomplete)).2.1.setUnresolved
        (scanMembers H expected members false (w, incomplete)).1 := by
  obtain ⟨hadopt, hroot, hexited, hleader, hlisted, hread, hsame⟩ := h
  simp only [Tracker.scanRootGroup]
  rw [if_neg (by rw [show (u.setUnresolved false).adoptOrphans = _ from hadopt]; decide)]
  rw [show (u.setUnresolved false).processes.lookup (u.setUnresolved false).rootPid = _ from hroot]
  dsimp only
  rw [if_neg (by simp [hexited, hleader]), hlisted]
  dsimp only
  rw [hread]
  dsimp only
  rw [if_pos hsame]

lemma concludeScan_uncertain (i : Bool) (hu : u.uncertain = true) :
    (u.concludeScan i).uncertain = true := by
  rw [concludeScan]
  split
  · rfl
  · exact hu

lemma uncertain_of_discovered
    (hu : (scanRootGroup H (drained H t).tracker (drained H t).incomplete).1.uncertain = true) :
    (t.scan H).uncertain = true := by
  rw [scan_eq_drained]
  apply concludeScan_uncertain
  exact (prune_effects _ false).uncertain hu

lemma uncertain_of_drained (hu : (drained H t).tracker.uncertain = true) :
    (t.scan H).uncertain = true := by
  apply uncertain_of_discovered
  exact (scanRootGroup_effects (H := H) (drained H t).tracker (drained H t).incomplete).uncertain hu

lemma Drains.uncertain {limit attempts : ℕ} {s' : Scan σ} {worked : List (ProcessIdentity × Scan σ)}
    (h : Drains H limit s attempts worked s') (hu : s.tracker.uncertain = true) :
    s'.tracker.uncertain = true := by
  induction h with
  | empty => exact hu
  | skip _ _ _ ih => exact ih hu
  | stop => rfl
  | @work s _ expected rest _ _ _ _ _ _ ih =>
    exact ih ((scanEntry_effects (H := H) expected { s with queue := rest }).uncertain hu)

lemma Drains.worked_uncertain {limit attempts : ℕ} {s' : Scan σ}
    {worked : List (ProcessIdentity × Scan σ)} (h : Drains H limit s attempts worked s')
    {expected : ProcessIdentity} {s₁ : Scan σ} (hmem : (expected, s₁) ∈ worked)
    (hu : (scanEntry H expected s₁).tracker.uncertain = true) : s'.tracker.uncertain = true := by
  induction h with
  | empty | stop => cases hmem
  | skip _ _ _ ih => exact ih hmem
  | work _ _ _ hd ih =>
    rcases List.mem_cons.mp hmem with heq | hmem
    · cases heq
      exact hd.uncertain hu
    · exact ih hmem

lemma Drains.rest {limit attempts : ℕ} {s' : Scan σ} {worked : List (ProcessIdentity × Scan σ)}
    (h : Drains H limit s attempts worked s') : s'.queue = [] ∨ s'.tracker.uncertain = true := by
  induction h with
  | empty hq => exact .inl hq
  | skip _ _ _ ih => exact ih
  | stop => exact .inr rfl
  | work _ _ _ _ ih => exact ih

lemma scan_leaders (t : Tracker σ) : ∀ id ∈ (t.scan H).observed,
    id ∈ (t.scan H).groups ∨ (t.scan H).uncertain = true := by
  intro id hid
  obtain ⟨news, hnews⟩ := scan_announces (H := H) t
  obtain ⟨t', i, heffects, hscan⟩ := scan_effects (H := H) t
  rcases heffects.failures .groupLimit with hu | hsame
  · right
    rw [hscan]
    exact concludeScan_uncertain i hu
  · left
    refine hnews.all ?_ id hid
    rw [hscan, (concludeScan_frame (t := t') i 0 .groupLimit (by simp)).2.1]
    exact hsame

/-- A scan in `t` takes a bounded number of entries from its queue, never holds too many groups,
and drops a child, a group member or a leader only when it ends uncertain. -/
structure ScanBound (H : Host σ) (t : Tracker σ) : Prop where
  ends : ∃ worked, Drains H t.processLimit (opening H t) 0 worked (drained H t) ∧
    worked.length ≤ t.processLimit * 2 + 1 ∧
    ((drained H t).queue = [] ∨ (t.scan H).uncertain = true) ∧
    ∀ expected s children s', (expected, s) ∈ worked → Opens H expected s children s' →
      (t.scan H).uncertain = true ∨ ∀ pid ∈ children, pid = s'.tracker.shim.pid ∨
        ChildKept expected s' (scanEntry H expected s) pid
  members : ∀ expected members w, OpensGroup H (drained H t).tracker expected members w →
    (t.scan H).uncertain = true ∨ ∀ pid ∈ members, MemberKept expected w
      (scanRootGroup H (drained H t).tracker (drained H t).incomplete).1 pid
  leaders : ∀ id ∈ (t.scan H).observed, id ∈ (t.scan H).groups ∨ (t.scan H).uncertain = true
  groups : ∀ s, ScanEffects H (t, false) s → s.1.groups.size ≤ t.groupLimit
  scanned : ∃ t' i, ScanEffects H (t, false) (t', i) ∧ t.scan H = t'.concludeScan i ∧
    (t.scan H).groups.size ≤ t.groupLimit

lemma scan_bound {t₀ : Tracker σ} (hb : Bounded t₀ t) : ScanBound H t where
  ends := by
    have hsum : 0 + (t.processLimit * 2 + 1) = t.processLimit * 2 + 1 := Nat.zero_add _
    obtain ⟨worked, hdrains, hlength⟩ := Drains.of_scanQueue (H := H) _ (opening H t) hsum
    refine ⟨worked, hdrains, hlength, hdrains.rest.imp_right uncertain_of_drained, ?_⟩
    intro expected s children s' hmem hopens
    have hkept := (scanChildren_kept (H := H) expected children s').2
    rw [← hopens.scanEntry] at hkept
    exact hkept.imp_left fun hu => uncertain_of_drained (hdrains.worked_uncertain hmem hu)
  members := by
    intro expected members w hopens
    have hkept := (scanMembers_kept (H := H) expected members false (w, (drained H t).incomplete)).2
    have hroot := hopens.scanRootGroup (drained H t).incomplete
    refine hkept.imp (fun hu => uncertain_of_discovered ?_) fun hkept => ?_
    · rw [hroot]
      exact hu
    · rw [hroot]
      exact hkept
  leaders := scan_leaders t
  groups := by
    intro s hs
    have hsized : Bounded t s.1 := by
      have hself : Bounded t t := ⟨rfl, rfl, rfl, rfl, rfl, hb.groups⟩
      induction hs with
      | refl => exact hself
      | tail _ he ih => exact ih.scanEffect he
    exact hsized.groups.trans hsized.groupLimit.le
  scanned := by
    obtain ⟨t', i, heffects, hscan⟩ := scan_effects (H := H) t
    have hself : Bounded t t := ⟨rfl, rfl, rfl, rfl, rfl, hb.groups⟩
    have hrun := Bounded.run (H := H) hself [.scan]
    exact ⟨t', i, heffects, hscan, hrun.groups.trans hrun.groupLimit.le⟩

/-- No process that this scan lost is found again by it. -/
def Lasting (H : Host σ) (t : Tracker σ) : Prop :=
  ∀ es, (t.scan H).log = es ++ t.log → ¬ Reappears t es

def Calm (H : Host σ) : Tracker σ → List Op → Prop
  | _, [] => True
  | t, op :: ops => (op = .scan ∨ op = .finishScan → Lasting H t) ∧ Calm H (t.apply H op) ops

lemma Lasting.fits (h : Lasting H t) (hH : Reliable H) (hk : Keyed t)
    (hsize : t.processes.size ≤ t.processLimit) :
    ∃ es, (t.scan H).log = es ++ t.log ∧ Fits t es (t.scan H) := by
  obtain ⟨es, hlog, hr | hfits⟩ := scan_fits hH hk hsize
  · exact absurd hr (h es hlog)
  · exact ⟨es, hlog, hfits⟩

lemma apply_size (hH : Reliable H) (hk : Keyed t) (hsize : t.processes.size ≤ t.processLimit)
    (op : Op) (h : op = .scan ∨ op = .finishScan → Lasting H t) :
    (t.apply H op).processes.size ≤ t.processLimit := by
  cases op with
  | scan =>
    obtain ⟨es, -, hfits⟩ := (h (.inl rfl)).fits hH hk hsize
    exact hfits.size
  | finishScan =>
    obtain ⟨es, -, hfits⟩ := (h (.inr rfl)).fits hH hk hsize
    rw [apply, (finishScan_passed (H := H) t).processes]
    exact hfits.size
  | advance now =>
    rw [apply, advance_processes]
    exact hsize
  | beginCleanup now interrupt term =>
    rw [apply, beginCleanup]
    split <;> exact hsize
  | takeNewGroups | fail => exact hsize

lemma run_size {t₀ : Tracker σ} (hH : Reliable H) (ha : Anchored t) (hb : Bounded t₀ t)
    (hsize : t.processes.size ≤ t₀.processLimit) (ops : List Op) (h : Calm H t ops) :
    (run H t ops).processes.size ≤ t₀.processLimit := by
  induction ops generalizing t with
  | nil => exact hsize
  | cons op ops ih =>
    have hb' : Bounded t₀ (t.apply H op) := hb.run [op]
    apply ih (run_anchored hH ha [op]) hb' _ h.2
    rw [← hb.processLimit] at hsize ⊢
    exact apply_size hH ha.keyed hsize op h.1

variable {source : σ} {shim root : ProcessIdentity} {groupLimit processLimit : ℕ}

lemma limited_bounded (hg : 1 ≤ groupLimit) :
    Bounded (limited H source shim root groupLimit processLimit)
      (limited H source shim root groupLimit processLimit) :=
  ⟨rfl, rfl, rfl, rfl, rfl, hg⟩

def reached (H : Host σ) (source : σ) (shim root : ProcessIdentity) (groupLimit processLimit : ℕ)
    (ops : List Op) : Tracker σ :=
  run H (limited H source shim root groupLimit processLimit) ops

/-- Every scan of every run is bounded. As long as no scan of the run finds a process again that
it lost, the retained processes stay within their limit, at every call of a scan and at its end. -/
theorem scan_bounded (hH : Reliable H) (hg : 1 ≤ groupLimit) (hp : 1 ≤ processLimit) (source : σ)
    (shim root : ProcessIdentity) (ops : List Op) :
    (reached H source shim root groupLimit processLimit ops).groupLimit = groupLimit ∧
      (reached H source shim root groupLimit processLimit ops).processLimit = processLimit ∧
      ScanBound H (reached H source shim root groupLimit processLimit ops) ∧
      (Calm H (limited H source shim root groupLimit processLimit) ops →
        Lasting H (reached H source shim root groupLimit processLimit ops) →
        ∃ es, ((reached H source shim root groupLimit processLimit ops).scan H).log =
            es ++ (reached H source shim root groupLimit processLimit ops).log ∧
          (∀ e ∈ es, Within processLimit e) ∧
          ((reached H source shim root groupLimit processLimit ops).scan H).processes.size ≤
            processLimit) := by
  have ha : Anchored (limited H source shim root groupLimit processLimit) := limited_anchored
  have hb : Bounded _ (reached H source shim root groupLimit processLimit ops) :=
    (limited_bounded hg).run ops
  have hlimit : (reached H source shim root groupLimit processLimit ops).processLimit =
      processLimit := hb.processLimit
  refine ⟨hb.groupLimit, hlimit, scan_bound hb, ?_⟩
  intro hcalm hlasting
  have hsize := run_size hH ha (limited_bounded hg) hp ops hcalm
  obtain ⟨es, hlog, hfits⟩ := hlasting.fits hH (run_anchored hH ha ops).keyed
    (hsize.trans hb.processLimit.ge)
  refine ⟨es, hlog, ?_, hfits.size.trans hlimit.le⟩
  intro e he
  have hwithin := hfits.events e he
  rwa [hlimit] at hwithin

def clashes : Event → Event → Bool
  | .call (.read _ (.ok (some r))) _, .call (.read pid (.ok a)) _ =>
    pid == r.identity.pid && a.all fun r' => !r'.identity.sameProcess r.identity
  | _, _ => false

lemma clashes_of_present {e e' : Event} (h : Present id e) (h' : Missing id e') :
    clashes e e' = true := by
  rw [Present.eq_def] at h
  rw [Missing.eq_def] at h'
  split at h
  · next pid r held =>
    split at h'
    · next pid' a held' =>
      obtain ⟨-, hsame⟩ := h
      obtain ⟨rfl, hall⟩ := h'
      obtain ⟨hpid, htime⟩ := ProcessIdentity.sameProcess_iff.mp hsame
      have hid : ∀ r' : ProcessRecord, r'.identity.sameProcess r.identity =
          r'.identity.sameProcess id := by
        intro r'
        rw [ProcessIdentity.sameProcess, ProcessIdentity.sameProcess, hpid, htime]
      simp only [clashes, hid, hpid, beq_self_eq_true, Bool.true_and]
      exact hall
    · cases h'
  · cases h

lemma lasting_of_log (h : ((t.scan H).log.all fun e => (t.scan H).log.all fun e' =>
    !clashes e e') = true) : Lasting H t := by
  rintro es hlog ⟨later, e, earlier, id, rfl, hpresent, before, e', rest, rfl, hmissing, -⟩
  have hmem : e ∈ (t.scan H).log ∧ e' ∈ (t.scan H).log := by
    rw [hlog]
    simp
  have hfree := List.all_eq_true.mp (List.all_eq_true.mp h e hmem.1) e' hmem.2
  rw [clashes_of_present hpresent hmissing] at hfree
  cases hfree

def crampedShim : ProcessIdentity := ⟨1, 1, .macos 0 0⟩

def crampedRoot : ProcessIdentity := ⟨2, 2, .macos 1 0⟩

/-- A tracker with room for one group and one process, in a system with three processes. -/
theorem scan_bounded_family :
    let t := reached (family.host .linux) () crampedShim crampedRoot 1 1 [.scan]
    ScanBound (family.host .linux) t ∧
      (∃ es, (t.scan (family.host .linux)).log = es ++ t.log ∧ (∀ e ∈ es, Within 1 e) ∧
        (t.scan (family.host .linux)).processes.size ≤ 1) ∧
      (t.scan (family.host .linux)).processes.size = 1 := by
  intro t
  have hbounds := scan_bounded (family.reliable_host .linux) (Nat.le_refl 1) (Nat.le_refl 1) ()
    crampedShim crampedRoot [.scan]
  refine ⟨hbounds.2.2.1, hbounds.2.2.2 ⟨fun _ => ?_, trivial⟩ ?_, by decide +kernel⟩
  · exact lasting_of_log (by decide +kernel)
  · exact lasting_of_log (by decide +kernel)

end Forcola.Native.Tracker
