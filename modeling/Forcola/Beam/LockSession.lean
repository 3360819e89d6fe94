import Forcola.Beam.Lock
import Forcola.Library.Transition

/-! A lock with everybody who takes part: its owner, the callers of `release/1`, the guard, the
port and the shim. -/

namespace Forcola.Beam.Lock

open Library.Transition

inductive Mail
  | answer (answer : Except Error ℕ)
  | lost (reason : ShimExit)
  | reply (result : Released)
  | down

/-- What happened, newest first in a list; `none` is an acquire that saw its guard go down. -/
inductive Event
  | acquired (answer : Option (Except Error ℕ))
  | lost (reason : ShimExit)
  | released (caller : Pid) (result : Released) (shimAlive : Bool)

/-- `written` is what the port has told the guard, and `handle` says that acquire returned one.
A process waits while its call of `release/1` has not returned. -/
structure Session where
  guard : Guard
  inbox : List Input
  portOpen : Bool
  shimAlive : Bool
  written : List PortMessage
  ownerAlive : Bool
  acquiring : Bool
  handle : Bool
  waiting : Pid → Bool
  mailbox : Pid → List Mail
  events : List Event

inductive Label
  | write (chunk : String) (endOfLine : Bool)
  | shimExits (status : ℕ)
  | portFails (reason : String)
  | ownerDies
  | killGuard
  | receive
  | expire
  | acquired
  | call (caller : Pid)
  | answer (caller : Pid)

namespace Session

def post (s : Session) (p : Pid) (mail : Mail) : Session :=
  { s with mailbox := fun q => if q = p then s.mailbox q ++ [mail] else s.mailbox q }

def record (s : Session) (e : Event) : Session :=
  { s with events := e :: s.events }

def tell (s : Session) (message : PortMessage) : Session :=
  { s with inbox := s.inbox ++ [.port message], written := s.written ++ [message] }

variable (owner : Pid)

def watches (s : Session) (p : Pid) : Bool :=
  s.waiting p || (p == owner && s.acquiring)

def endGuard (s : Session) : Session :=
  { s with
    portOpen := false
    mailbox := fun p => if s.watches owner p then s.mailbox p ++ [.down] else s.mailbox p }

def perform (s : Session) : Effect → Session
  | .reply answer => s.post owner (.answer answer)
  | .lost reason => (s.post owner (.lost reason)).record (.lost reason)
  | .released caller result => s.post caller (.reply result)
  | .release => s
  | .close => { s with portOpen := false }

end Session

variable (owner : Pid)

def runGuard (s : Session) (input : Input) : Option Session :=
  (step { s.guard with log := [] } input).map fun g =>
    let s := g.log.reverse.foldl (Session.perform owner) { s with guard := { g with log := [] } }
    if g.phase = .ended then s.endGuard owner else s

def takes (s : Session) (input : Input) : Bool :=
  (step s.guard input).isSome

def Mail.endsAcquire : Mail → Bool
  | .answer _ | .down => true
  | _ => false

def Mail.endsRelease : Mail → Bool
  | .reply _ | .down => true
  | _ => false

def Mail.isDown : Mail → Bool
  | .down => true
  | _ => false

namespace Session

def take (s : Session) (p : Pid) (matching : Mail → Bool) : Session :=
  { s with
    mailbox := fun q =>
      if q = p then ((s.mailbox q).eraseP matching).filter (!·.isDown) else s.mailbox q }

def stopWaiting (s : Session) (p : Pid) : Session :=
  { s with waiting := fun q => if q = p then false else s.waiting q }

def startWaiting (s : Session) (p : Pid) : Session :=
  { s with waiting := fun q => if q = p then true else s.waiting q }

end Session

def Session.step (s : Session) : Label → Option Session
  | .write chunk endOfLine =>
    if s.shimAlive && s.portOpen then
      some (s.tell (if endOfLine then .eol chunk else .noeol chunk))
    else none
  | .shimExits status =>
    if s.shimAlive then
      let s := { s with shimAlive := false }
      some (if s.portOpen then
        { (s.tell (.exitStatus status)).tell (.exit "normal") with portOpen := false }
        else s)
    else none
  | .portFails reason =>
    if s.portOpen then some { s.tell (.exit reason) with portOpen := false } else none
  | .ownerDies =>
    if s.ownerAlive then
      some { s.stopWaiting owner with
        ownerAlive := false, acquiring := false, inbox := s.inbox ++ [.ownerDown] }
    else none
  | .killGuard =>
    if s.guard.phase = .ended then none
    else some ({ s with guard := s.guard.finish }.endGuard owner)
  | .receive =>
    match s.inbox.find? (takes s) with
    | some input => runGuard owner { s with inbox := s.inbox.eraseP (takes s) } input
    | none => none
  | .expire =>
    if s.inbox.find? (takes s) = none then runGuard owner s .expire else none
  | .acquired =>
    if s.acquiring then
      match (s.mailbox owner).find? Mail.endsAcquire with
      | some (.answer answer) =>
        some ({ s.take owner Mail.endsAcquire with
          acquiring := false
          handle := match answer with
            | .ok _ => true
            | .error _ => s.handle }.record (.acquired (some answer)))
      | some _ =>
        some ({ s.take owner Mail.endsAcquire with acquiring := false }.record (.acquired none))
      | none => none
    else none
  | .call caller =>
    if s.handle && !s.waiting caller && (caller != owner || s.ownerAlive) then
      if s.guard.phase = .ended then some ((s.startWaiting caller).post caller .down)
      else some { s.startWaiting caller with inbox := s.inbox ++ [.release caller] }
    else none
  | .answer caller =>
    if s.waiting caller then
      match (s.mailbox caller).find? Mail.endsRelease with
      | some (.reply result) =>
        some (((s.take caller Mail.endsRelease).stopWaiting caller).record
          (.released caller result s.shimAlive))
      | some _ =>
        some (((s.take caller Mail.endsRelease).stopWaiting caller).record
          (.released caller .ok s.shimAlive))
      | none => none
    else none

abbrev Steps (s : Session) (labels : List Label) (t : Session) : Prop :=
  Run (fun s l t => s.step owner l = some t) s labels t

def opened (clock : ℕ → Instant) (osPid timeoutMs : ℕ) : Session where
  guard := guardInit clock osPid timeoutMs 0
  inbox := []
  portOpen := true
  shimAlive := true
  written := []
  ownerAlive := true
  acquiring := true
  handle := false
  waiting := fun _ => false
  mailbox := fun _ => []
  events := []

def unopened (osPid : ℕ) (shimAlive : Bool) (error : Error) : Session where
  guard := { openFailed osPid error with log := [] }
  inbox := []
  portOpen := false
  shimAlive := shimAlive
  written := []
  ownerAlive := true
  acquiring := true
  handle := false
  waiting := fun _ => false
  mailbox := fun p => if p = owner then [.answer (.error error), .down] else []
  events := []

inductive Start : Session → Prop
  | opened (clock osPid timeoutMs) : Start (opened clock osPid timeoutMs)
  | unopened (osPid shimAlive error) : Start (unopened owner osPid shimAlive error)

def firstLine : String → List PortMessage → Option String
  | chunks, .eol line :: _ => some (chunks ++ line)
  | chunks, .noeol chunk :: messages => firstLine (chunks ++ chunk) messages
  | _, _ => none

def Input.port? : Input → Option PortMessage
  | .port message => some message
  | _ => none

def PortMessage.closes : PortMessage → Bool
  | .exitStatus _ | .exit _ => true
  | _ => false

def Phase.answers : Phase → Bool
  | .answering _ _ => true
  | _ => false

def Phase.holds : Phase → Bool
  | .holding | .releasing _ => true
  | _ => false

def Mail.grants : Mail → Bool
  | .answer (.ok _) => true
  | _ => false

def Mail.isAnswer : Mail → Bool
  | .answer _ => true
  | _ => false

def Event.isAcquired : Event → Bool
  | .acquired _ => true
  | _ => false

def Event.grants : Event → Bool
  | .acquired (some (.ok _)) => true
  | _ => false

def Event.isLost : Event → Bool
  | .lost _ => true
  | _ => false

def Event.isReleased : Event → Bool
  | .released _ _ _ => true
  | _ => false

def Input.early : Input → Bool
  | .ownerDown | .expire | .port (.exit _) => true
  | _ => false

/-- A step that ends a guard holding the lock while its shim is alive. -/
def Session.early (s : Session) : Label → Prop
  | .killGuard | .expire => s.shimAlive = true ∧ s.guard.phase.holds = true
  | .receive => s.shimAlive = true ∧ s.guard.phase.holds = true ∧
      ∃ input, s.inbox.find? (takes s) = some input ∧ input.early = true
  | _ => False

abbrev Calm (s : Session) (labels : List Label) (t : Session) : Prop :=
  Run (fun s l t => s.step owner l = some t ∧ ¬s.early l) s labels t

inductive Turn (s : Session) : Input → Session → Prop
  | more {deadline chunks chunk g} : s.guard.phase = .answering deadline chunks →
      g.phase = .answering deadline (chunks ++ chunk) →
      Turn s (.port (.noeol chunk)) { s with guard := g }
  | granted {deadline chunks line osPid g} : s.guard.phase = .answering deadline chunks →
      chunks ++ line = "ok" → g.phase = .holding →
      Turn s (.port (.eol line)) ({ s with guard := g }.post owner (.answer (.ok osPid)))
  | refused {input error g} : s.guard.phase.answers = true → g.phase = .ended →
      Turn s input (({ s with guard := g }.post owner (.answer (.error error))).endGuard owner)
  | left {g} : s.guard.phase ≠ .ended → g.phase = .ended →
      Turn s .ownerDown ({ s with guard := g }.endGuard owner)
  | lost {message reason g} : s.guard.phase = .holding → message.closes = true →
      g.phase = .ended →
      Turn s (.port message)
        ((({ s with guard := g }.post owner (.lost reason)).record (.lost reason)).endGuard owner)
  | ignored {message g} : s.guard.phase = .holding → g.phase = .holding →
      Turn s (.port message) { s with guard := g }
  | asked {caller g} : s.guard.phase = .holding → g.phase = .releasing caller →
      Turn s (.release caller) { s with guard := g }
  | released {caller message g} : s.guard.phase = .releasing caller → message.closes = true →
      g.phase = .ended →
      Turn s (.port message) (({ s with guard := g }.post caller (.reply .ok)).endGuard owner)
  | expired {caller g} : s.guard.phase = .releasing caller → g.phase = .ended →
      Turn s .expire (({ s with guard := g }.post caller (.reply .timeout)).endGuard owner)

structure Heard (s : Session) : Prop where
  line : ∀ deadline chunks, s.guard.phase = .answering deadline chunks →
    ∃ handled, s.written = handled ++ s.inbox.filterMap Input.port? ∧
      ∀ more, firstLine "" (handled ++ more) = firstLine chunks more
  exited : ∀ status, .port (.exitStatus status) ∈ s.inbox → s.shimAlive = false

structure Kept (s : Session) : Prop where
  reported : s.guard.phase.holds = true ∨ (∃ p, ∃ m ∈ s.mailbox p, m.grants = true) ∨
    (∃ e ∈ s.events, e.grants = true) → firstLine "" s.written = some "ok"
  quiet : s.guard.phase.answers = true → s.handle = false ∧ ∀ p, s.mailbox p = []
  held : s.guard.phase.holds = true → ∀ p, ∀ m ∈ s.mailbox p, m.grants = true
  serving : s.guard.phase ≠ .ended → ∀ e ∈ s.events, e.isAcquired = true
  pending : s.acquiring = true → s.handle = false ∧ (∀ e ∈ s.events, e.isAcquired = false) ∧
    (s.guard.phase.answers = true ∨ ∃ m ∈ s.mailbox owner, m.endsAcquire = true)
  waiter : ∀ p, s.waiting p = true → s.handle = true
  acquired : s.events.countP Event.isAcquired ≤ 1
  lost : s.events.countP Event.isLost ≤ 1
  order : s.events.Pairwise fun newer older => newer.isLost = true → older.isReleased = false

structure Inv (s : Session) : Prop where
  heard : Heard s
  kept : Kept owner s

section Sessions

variable {owner} {s t u : Session} {labels : List Label} {p q : Pid} {input : Input} {m : Mail}

@[simp] lemma firstLine_nil (chunks : String) : firstLine chunks [] = none := by
  rw [firstLine.eq_def]

lemma firstLine_append {chunks line : String} {messages : List PortMessage}
    (more : List PortMessage) (h : firstLine chunks messages = some line) :
    firstLine chunks (messages ++ more) = some line := by
  induction messages generalizing chunks with
  | nil => cases (firstLine_nil chunks).symm.trans h
  | cons message messages ih =>
    cases message with
    | noeol chunk => exact ih h
    | eol rest => exact h
    | exitStatus | exit => cases h

lemma mem_post (h : m ∈ (s.post q mail).mailbox p) : m ∈ s.mailbox p ∨ m = mail := by
  simp only [Session.post] at h
  split at h
  · exact (List.mem_append.mp h).imp_right List.mem_singleton.mp
  · exact .inl h

lemma mem_endGuard (h : m ∈ (s.endGuard owner).mailbox p) : m ∈ s.mailbox p ∨ m = .down := by
  simp only [Session.endGuard] at h
  split at h
  · exact (List.mem_append.mp h).imp_right List.mem_singleton.mp
  · exact .inl h

lemma mem_take {matching : Mail → Bool} (h : m ∈ (s.take q matching).mailbox p) :
    m ∈ s.mailbox p := by
  simp only [Session.take] at h
  split at h
  · exact List.mem_of_mem_eraseP (List.mem_of_mem_filter h)
  · exact h

lemma parseAnswer_ok {osPid n : ℕ} {line : String} (h : parseAnswer osPid line = .ok n) :
    line = "ok" := by
  rw [parseAnswer] at h
  split at h
  · assumption
  · split at h
    · cases h
    · split at h
      · cases h
      · split at h
        · cases h
        · split at h <;> cases h

lemma runGuard_turn (h : runGuard owner s input = some t) : Turn owner s input t := by
  obtain ⟨g, hg, rfl⟩ := Option.map_eq_some_iff.mp h
  cases hp : s.guard.phase with
  | ended => simp [step, hp] at hg
  | answering deadline chunks =>
    have ha : s.guard.phase.answers = true := by rw [hp, Phase.answers]
    cases input with
    | release => simp [step, hp] at hg
    | ownerDown =>
      simp only [step, hp, Option.some.injEq] at hg
      subst hg
      exact .left (by simp [hp]) rfl
    | expire =>
      simp only [step, hp, Option.some.injEq] at hg
      subst hg
      exact .refused ha rfl
    | port message =>
      cases message with
      | noeol chunk =>
        simp only [step, hp, Option.some.injEq] at hg
        subst hg
        exact .more hp rfl
      | exitStatus | exit =>
        simp only [step, hp, Option.some.injEq] at hg
        subst hg
        exact .refused ha rfl
      | eol line =>
        simp only [step, hp, Option.some.injEq] at hg
        subst hg
        rw [answer]
        split
        · next hok => exact .granted hp (parseAnswer_ok hok) rfl
        · exact .refused ha rfl
  | holding =>
    cases input with
    | expire => simp [step, hp] at hg
    | release caller =>
      simp only [step, hp, Option.some.injEq] at hg
      subst hg
      exact .asked hp rfl
    | ownerDown =>
      simp only [step, hp, Option.some.injEq] at hg
      subst hg
      exact .left (by simp [hp]) rfl
    | port message =>
      cases message with
      | exitStatus | exit =>
        simp only [step, hp, Option.some.injEq] at hg
        subst hg
        exact .lost hp rfl rfl
      | eol | noeol =>
        simp only [step, hp, Option.some.injEq] at hg
        subst hg
        simp only [List.reverse_nil, List.foldl_nil, reduceCtorEq, if_false]
        exact .ignored hp rfl
  | releasing caller =>
    cases input with
    | release | ownerDown => simp [step, hp] at hg
    | expire =>
      simp only [step, hp, Option.some.injEq] at hg
      subst hg
      exact .expired hp rfl
    | port message =>
      cases message with
      | exitStatus | exit =>
        simp only [step, hp, Option.some.injEq] at hg
        subst hg
        exact .released hp rfl rfl
      | eol | noeol => simp [step, hp] at hg

lemma Kept.frame (h : Kept owner s) {more : List PortMessage} (hg : t.guard = s.guard)
    (hm : t.mailbox = s.mailbox) (he : t.events = s.events) (hh : t.handle = s.handle)
    (hw : t.written = s.written ++ more) (ha : t.acquiring = true → s.acquiring = true)
    (hwait : ∀ p, t.waiting p = true → s.waiting p = true) : Kept owner t := by
  constructor
  · rw [hg, hm, he, hw]
    exact fun hr => firstLine_append _ (h.reported hr)
  · rw [hg, hm, hh]
    exact h.quiet
  · rw [hg, hm]
    exact h.held
  · rw [hg, he]
    exact h.serving
  · rw [hg, hm, he, hh]
    exact fun hta => h.pending (ha hta)
  · rw [hh]
    exact fun p hp => h.waiter p (hwait p hp)
  · exact he ▸ h.acquired
  · exact he ▸ h.lost
  · exact he ▸ h.order

lemma Kept.dequeue (h : Kept owner s) {inbox : List Input} :
    Kept owner { s with inbox := inbox } := by
  have hw : s.written = s.written ++ [] := (List.append_nil _).symm
  exact h.frame rfl rfl rfl rfl hw id fun _ => id

lemma Kept.ends (h : Kept owner s) (hs : s.guard.phase ≠ .ended) (ht : t.guard.phase = .ended)
    (hm : ∀ p, ∀ m ∈ t.mailbox p, m ∈ s.mailbox p ∨ m.grants = false)
    (he : t.events = s.events ∨ ∃ reason, t.events = .lost reason :: s.events)
    (hh : t.handle = s.handle) (hw : t.written = s.written) (ha : t.acquiring = s.acquiring)
    (hwait : t.waiting = s.waiting) : Kept owner (t.endGuard owner) := by
  have hquiet : ∀ e ∈ s.events, e.isLost = false ∧ e.isReleased = false := fun e hes => by
    have := h.serving hs e hes
    cases e <;> simp_all [Event.isAcquired, Event.isLost, Event.isReleased]
  constructor
  · rintro (hp | ⟨p, m, hmem, hg⟩ | ⟨e, hmem, hg⟩)
    · simp [Session.endGuard, ht, Phase.holds] at hp
    · refine hw ▸ h.reported ?_
      rcases mem_endGuard hmem with hmem | rfl
      · rcases hm p m hmem with hmem | hn
        · exact .inr (.inl ⟨p, m, hmem, hg⟩)
        · exact absurd (hg.symm.trans hn) (by decide)
      · cases hg
    · refine hw ▸ h.reported (.inr (.inr ?_))
      change e ∈ t.events at hmem
      rcases he with he | ⟨reason, he⟩
      · exact ⟨e, he ▸ hmem, hg⟩
      · rw [he] at hmem
        rcases List.mem_cons.mp hmem with rfl | hmem
        · cases hg
        · exact ⟨e, hmem, hg⟩
  · intro hp
    simp [Session.endGuard, ht, Phase.answers] at hp
  · intro hp
    simp [Session.endGuard, ht, Phase.holds] at hp
  · exact fun hne => absurd ht hne
  · intro hacq
    have hsacq : s.acquiring = true := ha ▸ hacq
    obtain ⟨hhandle, hfresh, -⟩ := h.pending hsacq
    refine ⟨hh.trans hhandle, fun e hmem => ?_, .inr ⟨.down, ?_, rfl⟩⟩
    · change e ∈ t.events at hmem
      rcases he with he | ⟨reason, he⟩
      · exact hfresh e (he ▸ hmem)
      · rw [he] at hmem
        rcases List.mem_cons.mp hmem with rfl | hmem
        · rfl
        · exact hfresh e hmem
    · simp [Session.endGuard, Session.watches, ha, hsacq]
  · intro p hp
    exact hh.trans (h.waiter p (hwait ▸ hp))
  · change t.events.countP _ ≤ 1
    rcases he with he | ⟨reason, he⟩
    · exact he ▸ h.acquired
    · simpa [he, Event.isAcquired] using h.acquired
  · change t.events.countP _ ≤ 1
    rcases he with he | ⟨reason, he⟩
    · exact he ▸ h.lost
    · have hzero : s.events.countP Event.isLost = 0 :=
        List.countP_eq_zero.mpr fun e hes => by simp [(hquiet e hes).1]
      rw [he, List.countP_cons, hzero]
      exact Nat.le_refl 1
  · change t.events.Pairwise _
    rcases he with he | ⟨reason, he⟩
    · exact he ▸ h.order
    · rw [he]
      exact .cons (fun e hes _ => (hquiet e hes).2) h.order

lemma Kept.stays (h : Kept owner s) {g : Guard} (ha : g.phase.answers = s.guard.phase.answers)
    (hh : g.phase.holds = s.guard.phase.holds) (hs : s.guard.phase ≠ .ended) :
    Kept owner { s with guard := g } where
  reported := fun hr => h.reported (hh ▸ hr)
  quiet := fun hg => h.quiet (ha ▸ hg)
  held := fun hg => h.held (hh ▸ hg)
  serving := fun _ => h.serving hs
  pending := fun hacq => (h.pending hacq).imp_right (.imp_right (.imp_left (ha ▸ ·)))
  waiter := h.waiter
  acquired := h.acquired
  lost := h.lost
  order := h.order

lemma Kept.grant (h : Kept owner s) {g : Guard} {osPid : ℕ} (hs : s.guard.phase.answers = true)
    (hg : g.phase = .holding) (hline : firstLine "" s.written = some "ok") :
    Kept owner ({ s with guard := g }.post owner (.answer (.ok osPid))) where
  reported := fun _ => hline
  quiet := fun ha => by simp [Session.post, hg, Phase.answers] at ha
  held := fun _ p m hm => by
    rcases mem_post hm with hm | rfl
    · have hempty : s.mailbox p = [] := (h.quiet hs).2 p
      exact absurd (hempty ▸ hm) List.not_mem_nil
    · rfl
  serving := fun _ => h.serving fun he => by simp [he, Phase.answers] at hs
  pending := fun hacq => by
    obtain ⟨hhandle, hfresh, -⟩ := h.pending hacq
    exact ⟨hhandle, hfresh, .inr ⟨.answer (.ok osPid), by simp [Session.post], rfl⟩⟩
  waiter := h.waiter
  acquired := h.acquired
  lost := h.lost
  order := h.order

lemma Kept.turn (h : Kept owner s)
    (hheard : ∀ deadline chunks line, s.guard.phase = .answering deadline chunks →
      input = .port (.eol line) → firstLine "" s.written = some (chunks ++ line))
    (ht : Turn owner s input t) : Kept owner t := by
  cases ht with
  | more hp hg =>
    exact h.stays (by simp [hp, hg, Phase.answers]) (by simp [hp, hg, Phase.holds]) (by simp [hp])
  | granted hp hok hg =>
    exact h.grant (by simp [hp, Phase.answers]) hg (hok ▸ hheard _ _ _ hp rfl)
  | refused hp hg =>
    exact h.ends (fun he => by simp [he, Phase.answers] at hp) hg
      (fun p m hm => (mem_post hm).imp_right (by rintro rfl; rfl)) (.inl rfl) rfl rfl rfl rfl
  | left hp hg => exact h.ends hp hg (fun p m hm => .inl hm) (.inl rfl) rfl rfl rfl rfl
  | lost hp _ hg =>
    exact h.ends (by simp [hp]) hg (fun p m hm => (mem_post hm).imp_right (by rintro rfl; rfl))
      (.inr ⟨_, rfl⟩) rfl rfl rfl rfl
  | ignored hp hg =>
    exact h.stays (by simp [hp, hg, Phase.answers]) (by simp [hp, hg, Phase.holds]) (by simp [hp])
  | asked hp hg =>
    exact h.stays (by simp [hp, hg, Phase.answers]) (by simp [hp, hg, Phase.holds]) (by simp [hp])
  | released hp _ hg | expired hp hg =>
    exact h.ends (by simp [hp]) hg (fun p m hm => (mem_post hm).imp_right (by rintro rfl; rfl))
      (.inl rfl) rfl rfl rfl rfl

lemma port_first (hp : s.guard.phase.answers = true)
    (hf : s.inbox.find? (takes s) = some input) :
    s.inbox.filterMap Input.port? =
      input.port?.toList ++ (s.inbox.eraseP (takes s)).filterMap Input.port? := by
  have htakes : ∀ message, takes s (.port message) = true := fun message => by
    cases hphase : s.guard.phase <;> simp_all [Phase.answers]
    cases message <;> simp [takes, step, hphase]
  revert hf
  generalize s.inbox = inputs
  intro hf
  induction inputs with
  | nil => cases hf
  | cons i inputs ih =>
    rw [List.find?_cons] at hf
    cases hi : takes s i with
    | true =>
      rw [hi] at hf
      obtain rfl : i = input := Option.some.inj hf
      rw [List.eraseP_cons_of_pos hi, List.filterMap_cons]
      cases i.port? <;> rfl
    | false =>
      rw [hi] at hf
      have hnone : i.port? = none := by
        cases i with
        | port message => exact absurd (hi.symm.trans (htakes message)) (by decide)
        | _ => rfl
      rw [List.eraseP_cons_of_neg (by simp [hi]), List.filterMap_cons_none hnone,
        List.filterMap_cons_none hnone]
      exact ih hf

lemma Heard.receive (h : Heard s) (hf : s.inbox.find? (takes s) = some input)
    (ht : Turn owner { s with inbox := s.inbox.eraseP (takes s) } input t) : Heard t := by
  have hexited : ∀ status, .port (.exitStatus status) ∈ s.inbox.eraseP (takes s) →
      s.shimAlive = false := fun status hm => h.exited status (List.mem_of_mem_eraseP hm)
  cases ht with
  | @more _ _ chunk g hp hg =>
    refine ⟨fun deadline chunks hd => ?_, hexited⟩
    obtain ⟨rfl, rfl⟩ := Phase.answering.inj (hg.symm.trans hd)
    have hphase : s.guard.phase = .answering _ _ := hp
    obtain ⟨handled, hw, hline⟩ := h.line _ _ hphase
    have hports := port_first (by rw [hphase, Phase.answers]) hf
    refine ⟨handled ++ [.noeol chunk], ?_, fun more => ?_⟩
    · rw [List.append_assoc]
      exact hw.trans (congrArg _ hports)
    · rw [List.append_assoc, hline]
      rfl
  | granted hp hok hg =>
    refine ⟨fun deadline chunks hd => ?_, hexited⟩
    cases hg.symm.trans hd
  | refused hp hg | left hp hg | lost hp _ hg | released hp _ hg | expired hp hg =>
    refine ⟨fun deadline chunks hd => ?_, hexited⟩
    cases hg.symm.trans hd
  | ignored hp hg | asked hp hg =>
    refine ⟨fun deadline chunks hd => ?_, hexited⟩
    cases hg.symm.trans hd

lemma Heard.append (h : Heard s) {inputs : List Input} (hg : t.guard = s.guard)
    (hi : t.inbox = s.inbox ++ inputs) (hw : t.written = s.written ++ inputs.filterMap Input.port?)
    (ha : t.shimAlive = true → s.shimAlive = true)
    (hx : ∀ status, .port (.exitStatus status) ∈ inputs → t.shimAlive = false) : Heard t := by
  refine ⟨fun deadline chunks hd => ?_, fun status hm => ?_⟩
  · obtain ⟨handled, hwritten, hline⟩ := h.line deadline chunks (hg ▸ hd)
    refine ⟨handled, ?_, hline⟩
    rw [hw, hwritten, hi, List.filterMap_append, List.append_assoc]
  · rcases List.mem_append.mp (hi ▸ hm) with hm | hm
    · have := h.exited status hm
      cases hs : t.shimAlive with
      | false => rfl
      | true => exact absurd (this.symm.trans (ha hs)) (by decide)
    · exact hx status hm

lemma Heard.ended (h : Heard s) (he : t.guard.phase = .ended ∨ t.guard = s.guard)
    (hi : t.inbox = s.inbox) (hw : t.written = s.written) (ha : t.shimAlive = s.shimAlive) :
    Heard t := by
  refine ⟨fun deadline chunks hd => ?_, fun status hm => ha.trans (h.exited status (hi ▸ hm))⟩
  rcases he with he | he
  · cases he.symm.trans hd
  · rw [hw, hi]
    exact h.line deadline chunks (he ▸ hd)

lemma Heard.eol (h : Heard s) {deadline : Instant} {chunks line : String}
    (hp : s.guard.phase = .answering deadline chunks)
    (hf : s.inbox.find? (takes s) = some (.port (.eol line))) :
    firstLine "" s.written = some (chunks ++ line) := by
  obtain ⟨handled, hw, hline⟩ := h.line deadline chunks hp
  rw [hw, port_first (by rw [hp, Phase.answers]) hf, hline]
  rfl

lemma Kept.take (h : Kept owner s) {matching : Mail → Bool} (hw : s.handle = true) :
    Kept owner (s.take p matching) where
  reported := fun hr => h.reported (hr.imp_right (.imp_left fun ⟨q, m, hm, hg⟩ =>
    ⟨q, m, mem_take hm, hg⟩))
  quiet := fun ha => absurd ((h.quiet ha).1.symm.trans hw) (by decide)
  held := fun hh q m hm => h.held hh q m (mem_take hm)
  serving := h.serving
  pending := fun hacq => absurd ((h.pending hacq).1.symm.trans hw) (by decide)
  waiter := h.waiter
  acquired := h.acquired
  lost := h.lost
  order := h.order

lemma Kept.released (h : Kept owner s) (hw : s.waiting p = true)
    (hm : ∃ m ∈ s.mailbox p, m.endsRelease = true) :
    s.handle = true ∧ s.guard.phase = .ended := by
  refine ⟨h.waiter p hw, ?_⟩
  obtain ⟨m, hm, he⟩ := hm
  cases hp : s.guard.phase with
  | ended => rfl
  | answering =>
    have hempty := (h.quiet (by rw [hp, Phase.answers])).2 p
    exact absurd (hempty ▸ hm) List.not_mem_nil
  | holding | releasing =>
    have hg := h.held (by rw [hp, Phase.holds]) p m hm
    cases m <;> simp_all [Mail.grants, Mail.endsRelease]

lemma Kept.answer (h : Kept owner s) {result : Released} {alive : Bool} (hw : s.waiting p = true)
    (hm : ∃ m ∈ s.mailbox p, m.endsRelease = true) :
    Kept owner (((s.take p Mail.endsRelease).stopWaiting p).record (.released p result alive)) := by
  obtain ⟨hhandle, hended⟩ := h.released hw hm
  have ht : Kept owner (s.take p Mail.endsRelease) := h.take hhandle
  constructor
  · rintro (hp | hmail | ⟨e, he, hg⟩)
    · exact ht.reported (.inl hp)
    · exact ht.reported (.inr (.inl hmail))
    · rcases List.mem_cons.mp he with rfl | he
      · cases hg
      · exact ht.reported (.inr (.inr ⟨e, he, hg⟩))
  · exact ht.quiet
  · exact ht.held
  · exact fun hne => absurd hended hne
  · exact fun hacq => absurd ((h.pending hacq).1.symm.trans hhandle) (by decide)
  · exact fun _ _ => hhandle
  · change List.countP _ (_ :: s.events) ≤ 1
    rw [List.countP_cons]
    exact h.acquired
  · change List.countP _ (_ :: s.events) ≤ 1
    rw [List.countP_cons]
    exact h.lost
  · exact .cons (fun e he hl => by cases hl) h.order

lemma Kept.acquire (h : Kept owner s) {a : Option (Except Error ℕ)} {handle : Bool}
    (hacq : s.acquiring = true) (hm : (s.mailbox owner).find? Mail.endsAcquire = some m)
    (ha : ∀ n, a = some (.ok n) → m.grants = true) :
    Kept owner ({ s.take owner Mail.endsAcquire with
      acquiring := false, handle := handle }.record (.acquired a)) := by
  obtain ⟨hhandle, hfresh, -⟩ := h.pending hacq
  have hmem : m ∈ s.mailbox owner := List.mem_of_find?_eq_some hm
  have hquiet : s.guard.phase.answers = false := by
    cases hp : s.guard.phase.answers with
    | false => rfl
    | true =>
      have hempty := (h.quiet hp).2 owner
      exact absurd (hempty ▸ hmem) List.not_mem_nil
  constructor
  · rintro (hp | ⟨q, m, hm, hg⟩ | ⟨e, he, hg⟩)
    · exact h.reported (.inl hp)
    · exact h.reported (.inr (.inl ⟨q, m, mem_take hm, hg⟩))
    · rcases List.mem_cons.mp he with rfl | he
      · match a with
        | none | some (.error _) => cases hg
        | some (.ok n) => exact h.reported (.inr (.inl ⟨owner, m, hmem, ha n rfl⟩))
      · exact h.reported (.inr (.inr ⟨e, he, hg⟩))
  · exact fun hp => absurd (hquiet.symm.trans hp) (by decide)
  · exact fun hh q m hm => h.held hh q m (mem_take hm)
  · intro hne e he
    rcases List.mem_cons.mp he with rfl | he
    · rfl
    · exact h.serving hne e he
  · exact fun hf => absurd hf Bool.false_ne_true
  · exact fun q hw => absurd (hhandle.symm.trans (h.waiter q hw)) (by decide)
  · have hzero : s.events.countP Event.isAcquired = 0 :=
      List.countP_eq_zero.mpr fun e he => by simp [hfresh e he]
    change List.countP _ (_ :: s.events) ≤ 1
    rw [List.countP_cons, hzero]
    exact Nat.le_refl 1
  · change List.countP _ (_ :: s.events) ≤ 1
    rw [List.countP_cons]
    exact h.lost
  · exact .cons (fun e he hl => by cases hl) h.order

lemma Kept.call (h : Kept owner s) {inbox : List Input} (hh : s.handle = true) :
    Kept owner { s.startWaiting p with inbox := inbox } where
  reported := h.reported
  quiet := h.quiet
  held := h.held
  serving := h.serving
  pending := h.pending
  waiter := fun _ _ => hh
  acquired := h.acquired
  lost := h.lost
  order := h.order

lemma Kept.callEnded (h : Kept owner s) (hh : s.handle = true) (he : s.guard.phase = .ended) :
    Kept owner ((s.startWaiting p).post p .down) where
  reported := by
    rintro (hp | ⟨q, m, hm, hg⟩ | hev)
    · exact h.reported (.inl hp)
    · rcases mem_post hm with hm | rfl
      · exact h.reported (.inr (.inl ⟨q, m, hm, hg⟩))
      · cases hg
    · exact h.reported (.inr (.inr hev))
  quiet := fun ha => by simp [Session.post, Session.startWaiting, he, Phase.answers] at ha
  held := fun ha => by simp [Session.post, Session.startWaiting, he, Phase.holds] at ha
  serving := fun hne => absurd he hne
  pending := fun hacq => absurd ((h.pending hacq).1.symm.trans hh) (by decide)
  waiter := fun _ _ => hh
  acquired := h.acquired
  lost := h.lost
  order := h.order

lemma Inv.receive (h : Inv owner s) (hf : s.inbox.find? (takes s) = some input)
    (ht : runGuard owner { s with inbox := s.inbox.eraseP (takes s) } input = some t) :
    Inv owner t := by
  have hturn := runGuard_turn ht
  refine ⟨h.heard.receive hf hturn, Kept.turn ?_ ?_ hturn⟩
  · exact h.kept.dequeue
  · rintro deadline chunks line hp rfl
    exact h.heard.eol hp hf

lemma Inv.expire (h : Inv owner s) (ht : runGuard owner s .expire = some t) :
    Inv owner t := by
  have hturn := runGuard_turn ht
  refine ⟨?_, h.kept.turn (fun _ _ _ _ he => by cases he) hturn⟩
  cases hturn with
  | refused hp hg | expired hp hg => exact h.heard.ended (.inl hg) rfl rfl rfl

lemma Inv.tell (h : Inv owner s) {inputs : List Input} (hg : t.guard = s.guard)
    (hm : t.mailbox = s.mailbox) (he : t.events = s.events) (hh : t.handle = s.handle)
    (hi : t.inbox = s.inbox ++ inputs) (hw : t.written = s.written ++ inputs.filterMap Input.port?)
    (ha : t.acquiring = true → s.acquiring = true)
    (hwait : ∀ p, t.waiting p = true → s.waiting p = true)
    (hs : t.shimAlive = true → s.shimAlive = true)
    (hx : ∀ status, .port (.exitStatus status) ∈ inputs → t.shimAlive = false) :
    Inv owner t :=
  ⟨h.heard.append hg hi hw hs hx, h.kept.frame hg hm he hh hw ha hwait⟩

lemma step_inv {l : Label} (h : Inv owner s) (hs : s.step owner l = some t) :
    Inv owner t := by
  cases l with
  | write chunk endOfLine =>
    rw [Session.step] at hs
    split at hs
    · cases hs
      exact h.tell rfl rfl rfl rfl rfl rfl id (fun _ => id) id (by split <;> simp)
    · cases hs
  | shimExits status =>
    rw [Session.step] at hs
    split at hs
    · cases hs
      split
      · have hinbox : s.inbox ++ [.port (.exitStatus status)] ++ [.port (.exit "normal")] =
            s.inbox ++ [.port (.exitStatus status), .port (.exit "normal")] :=
          List.append_assoc _ _ _
        exact h.tell rfl rfl rfl rfl hinbox (List.append_assoc _ _ _) id (fun _ => id)
          (fun ha => absurd ha Bool.false_ne_true) fun _ _ => rfl
      · have hinbox : s.inbox = s.inbox ++ [] := (List.append_nil _).symm
        exact h.tell rfl rfl rfl rfl hinbox (List.append_nil _).symm id (fun _ => id)
          (fun ha => absurd ha Bool.false_ne_true) fun _ _ => rfl
    · cases hs
  | portFails reason =>
    rw [Session.step] at hs
    split at hs
    · cases hs
      exact h.tell rfl rfl rfl rfl rfl rfl id (fun _ => id) id (by simp)
    · cases hs
  | ownerDies =>
    rw [Session.step] at hs
    split at hs
    · cases hs
      refine h.tell rfl rfl rfl rfl rfl (List.append_nil _).symm
        (fun ha => absurd ha Bool.false_ne_true) (fun p hp => ?_) id (by simp)
      simp only [Session.stopWaiting] at hp
      split at hp
      · cases hp
      · exact hp
    · cases hs
  | killGuard =>
    rw [Session.step] at hs
    split at hs
    · cases hs
    · next hne =>
      cases hs
      exact ⟨h.heard.ended (.inl rfl) rfl rfl rfl, h.kept.ends hne rfl (fun p m hm => .inl hm)
        (.inl rfl) rfl rfl rfl rfl⟩
  | receive =>
    rw [Session.step] at hs
    split at hs
    · next hf => exact h.receive hf hs
    · cases hs
  | expire =>
    rw [Session.step] at hs
    split at hs
    · exact h.expire hs
    · cases hs
  | acquired =>
    rw [Session.step] at hs
    split at hs
    · next hacq =>
      split at hs
      · next answer hf =>
        cases hs
        refine ⟨h.heard.ended (.inr rfl) rfl rfl rfl, h.kept.acquire hacq hf ?_⟩
        rintro n hn
        rw [Option.some.inj hn, Mail.grants]
      · next hf =>
        cases hs
        exact ⟨h.heard.ended (.inr rfl) rfl rfl rfl, h.kept.acquire hacq hf fun n hn => by cases hn⟩
      · cases hs
    · cases hs
  | call caller =>
    rw [Session.step] at hs
    split at hs
    · next hcall =>
      have hh : s.handle = true := by simp_all
      split at hs
      · next he =>
        cases hs
        exact ⟨h.heard.ended (.inr rfl) rfl rfl rfl, h.kept.callEnded hh he⟩
      · cases hs
        exact ⟨h.heard.append rfl rfl (List.append_nil _).symm id (by simp), h.kept.call hh⟩
    · cases hs
  | answer caller =>
    rw [Session.step] at hs
    split at hs
    · next hw =>
      split at hs
      · next hf =>
        cases hs
        exact ⟨h.heard.ended (.inr rfl) rfl rfl rfl,
          h.kept.answer hw ⟨_, List.mem_of_find?_eq_some hf, rfl⟩⟩
      · next m _ hf =>
        cases hs
        exact ⟨h.heard.ended (.inr rfl) rfl rfl rfl,
          h.kept.answer hw ⟨m, List.mem_of_find?_eq_some hf, List.find?_some hf⟩⟩
      · cases hs
    · cases hs

lemma opened_inv (clock : ℕ → Instant) (osPid timeoutMs : ℕ) :
    Inv owner (opened clock osPid timeoutMs) := by
  constructor
  · refine ⟨fun deadline chunks hd => ⟨[], rfl, fun more => ?_⟩, fun _ hm => by cases hm⟩
    cases hd
    rfl
  · constructor <;> simp [opened, guardInit, awaitAnswer, Phase.holds, Phase.answers]

lemma unopened_ungranted {osPid : ℕ} {shimAlive : Bool} {error : Error} (p : Pid) (m : Mail)
    (hm : m ∈ (unopened owner osPid shimAlive error).mailbox p) : m.grants = false := by
  simp only [unopened] at hm
  split at hm
  · rcases List.mem_pair.mp hm with rfl | rfl <;> rfl
  · cases hm

lemma unopened_inv (osPid : ℕ) (shimAlive : Bool) (error : Error) :
    Inv owner (unopened owner osPid shimAlive error) := by
  constructor
  · exact ⟨fun deadline chunks hd => (by cases hd), fun _ hm => (List.not_mem_nil hm).elim⟩
  · constructor
    · rintro (hp | ⟨p, m, hm, hg⟩ | ⟨e, he, -⟩)
      · cases hp
      · exact absurd (hg.symm.trans (unopened_ungranted p m hm)) (by decide)
      · cases he
    · exact fun hp => absurd hp Bool.false_ne_true
    · exact fun hp => absurd hp Bool.false_ne_true
    · exact fun _ e he => by cases he
    · refine fun _ => ⟨rfl, fun e he => (List.not_mem_nil he).elim, .inr ⟨.down, ?_, rfl⟩⟩
      simp [unopened]
    · exact fun p hp => absurd hp Bool.false_ne_true
    · exact Nat.zero_le 1
    · exact Nat.zero_le 1
    · exact .nil

lemma Start.inv (h : Start owner s) : Inv owner s := by
  cases h with
  | opened clock osPid timeoutMs => exact opened_inv clock osPid timeoutMs
  | unopened osPid shimAlive error => exact unopened_inv osPid shimAlive error

lemma takes_log (log : List Effect) (h : takes s input = true) :
    (step { s.guard with log := log } input).isSome = true := by
  rw [takes, step.eq_def] at h
  rw [step.eq_def]
  cases hp : s.guard.phase <;> cases input with
  | port message => cases message <;> simp_all
  | _ => simp_all

lemma Turn.frame (h : Turn owner s input t) : t.acquiring = s.acquiring ∧ t.inbox = s.inbox := by
  cases h <;> exact ⟨rfl, rfl⟩

lemma acquire_taken (h : Inv owner s) (hacq : s.acquiring = true)
    (hp : s.guard.phase.answers = false) :
    ∃ t a, s.step owner .acquired = some t ∧ .acquired a ∈ t.events := by
  obtain ⟨m, hm, he⟩ := (h.kept.pending hacq).2.2.resolve_left (by simp [hp])
  cases hf : (s.mailbox owner).find? Mail.endsAcquire with
  | none => exact absurd he (List.find?_eq_none.mp hf m hm)
  | some found =>
    simp only [Session.step, hacq, if_true, hf]
    cases found with
    | answer answer => exact ⟨_, some answer, rfl, List.mem_cons_self⟩
    | _ => exact ⟨_, none, rfl, List.mem_cons_self⟩

def Label.serves : Label → Bool
  | .receive | .expire | .acquired => true
  | _ => false

lemma acquire_answered (h : Inv owner s) (hacq : s.acquiring = true) :
    ∃ labels t a, Steps owner s labels t ∧ (∀ l ∈ labels, l.serves = true) ∧
      .acquired a ∈ t.events := by
  induction hn : s.inbox.length using Nat.strongRecOn generalizing s with
  | ind n ih =>
    cases hp : s.guard.phase.answers with
    | false =>
      obtain ⟨t, a, ht, ha⟩ := acquire_taken h hacq hp
      exact ⟨[.acquired], t, a, .single ht, by simp [Label.serves], ha⟩
    | true =>
      cases hf : s.inbox.find? (takes s) with
      | none =>
        obtain ⟨t, ht⟩ : ∃ t, runGuard owner s .expire = some t := by
          have htakes : takes s .expire = true := by
            cases hphase : s.guard.phase <;> simp_all [Phase.answers, takes, step]
          exact Option.isSome_iff_exists.mp (by simpa [runGuard] using takes_log [] htakes)
        have hstep : s.step owner .expire = some t := by rw [Session.step, if_pos hf, ht]
        have hended : t.guard.phase.answers = false := by
          cases runGuard_turn ht with
          | refused _ hg | expired _ hg => simp [Session.endGuard, Session.post, hg, Phase.answers]
        obtain ⟨u, a, hu, ha⟩ :=
          acquire_taken (step_inv h hstep) ((runGuard_turn ht).frame.1.trans hacq) hended
        exact ⟨[.expire, .acquired], u, a, .cons hstep (.single hu), by simp [Label.serves], ha⟩
      | some input =>
        obtain ⟨t, ht⟩ : ∃ t,
            runGuard owner { s with inbox := s.inbox.eraseP (takes s) } input = some t := by
          refine Option.isSome_iff_exists.mp ?_
          simpa [runGuard] using takes_log [] (List.find?_some hf)
        have hstep : s.step owner .receive = some t := by rw [Session.step, hf]; exact ht
        obtain ⟨hta, hti⟩ := (runGuard_turn ht).frame
        have hlen : t.inbox.length < n := by
          have hmem := List.mem_of_find?_eq_some hf
          have := List.length_pos_of_mem hmem
          rw [hti, List.length_eraseP_of_mem hmem (List.find?_some hf)]
          omega
        obtain ⟨labels, u, a, hu, hl, ha⟩ := ih _ hlen (step_inv h hstep) (hta.trans hacq) rfl
        refine ⟨.receive :: labels, u, a, .cons hstep hu, ?_, ha⟩
        exact List.forall_mem_cons.mpr ⟨rfl, hl⟩

structure Sealed (s : Session) : Prop where
  gone : s.handle = true ∨ (∃ p, ∃ m ∈ s.mailbox p, m.grants = true) →
    s.guard.phase = .ended → s.shimAlive = false
  freed : ∀ caller alive, .released caller .ok alive ∈ s.events → alive = false

lemma Sealed.frame (h : Sealed s) (hg : t.guard = s.guard) (hm : t.mailbox = s.mailbox)
    (he : t.events = s.events) (hh : t.handle = s.handle)
    (ha : s.shimAlive = false → t.shimAlive = false) : Sealed t := by
  refine ⟨?_, he ▸ h.freed⟩
  rw [hg, hm, hh]
  exact fun hr hp => ha (h.gone hr hp)

lemma Sealed.ends (h : Sealed s) (hk : Kept owner s)
    (hs : s.shimAlive = false ∨ s.guard.phase.answers = true)
    (hm : ∀ p, ∀ m ∈ t.mailbox p, m ∈ s.mailbox p ∨ m.grants = false)
    (he : ∀ e ∈ t.events, e.isReleased = true → e ∈ s.events) (hh : t.handle = s.handle)
    (ha : t.shimAlive = s.shimAlive) : Sealed (t.endGuard owner) := by
  refine ⟨fun hr _ => ?_, fun caller alive hf => h.freed caller alive (he _ hf rfl)⟩
  refine ha.trans (hs.resolve_right fun hp => ?_)
  obtain ⟨hhandle, hempty⟩ := hk.quiet hp
  rcases hr with hr | ⟨p, m, hmem, hg⟩
  · exact absurd (hhandle.symm.trans (hh.symm.trans hr)) (by decide)
  · have hn : m.grants = false := by
      rcases mem_endGuard hmem with hmem | rfl
      · exact (hm p m hmem).resolve_left (hempty p ▸ List.not_mem_nil)
      · rfl
    exact absurd (hn.symm.trans hg) (by decide)

lemma Sealed.turn (h : Sealed s) (hk : Kept owner s)
    (hcalm : s.guard.phase.holds = true → s.shimAlive = false ∨ input.early = false)
    (hexit : ∀ status, input = .port (.exitStatus status) → s.shimAlive = false)
    (ht : Turn owner s input t) : Sealed t := by
  have hdead : ∀ message, input = .port message → message.closes = true →
      s.guard.phase.holds = true → s.shimAlive = false := by
    rintro message rfl hc hh
    cases message with
    | exitStatus status => exact hexit status rfl
    | exit reason => exact (hcalm hh).resolve_right (by simp [Input.early])
    | eol | noeol => cases hc
  have hpost : ∀ {u : Session} {q : Pid} {mail : Mail}, mail.grants = false →
      u.mailbox = s.mailbox → ∀ p, ∀ m ∈ (u.post q mail).mailbox p,
        m ∈ s.mailbox p ∨ m.grants = false := by
    intro u q mail hmail hu p m hm
    rcases mem_post hm with hm | rfl
    · exact .inl (hu ▸ hm)
    · exact .inr hmail
  cases ht with
  | more hp hg | ignored hp hg | asked hp hg =>
    refine ⟨fun _ he => ?_, h.freed⟩
    cases hg.symm.trans he
  | granted hp hok hg =>
    refine ⟨fun _ he => ?_, h.freed⟩
    cases hg.symm.trans he
  | refused hp hg =>
    exact h.ends hk (.inr hp) (hpost rfl rfl) (fun e he _ => he) rfl rfl
  | left hp hg =>
    refine h.ends hk ?_ (fun p m hm => .inl hm) (fun e he _ => he) rfl rfl
    cases hphase : s.guard.phase with
    | answering => exact .inr rfl
    | ended => exact absurd hphase hp
    | holding | releasing =>
      exact .inl ((hcalm (by rw [hphase, Phase.holds])).resolve_right (by simp [Input.early]))
  | lost hp hc hg =>
    refine h.ends hk (.inl (hdead _ rfl hc (by rw [hp, Phase.holds]))) (hpost rfl rfl)
      (fun e he hr => ?_) rfl rfl
    rcases List.mem_cons.mp he with rfl | he
    · cases hr
    · exact he
  | released hp hc hg =>
    exact h.ends hk (.inl (hdead _ rfl hc (by rw [hp, Phase.holds]))) (hpost rfl rfl)
      (fun e he _ => he) rfl rfl
  | expired hp hg =>
    exact h.ends hk
      (.inl ((hcalm (by rw [hp, Phase.holds])).resolve_right (by simp [Input.early])))
      (hpost rfl rfl) (fun e he _ => he) rfl rfl

lemma Sealed.answer (h : Sealed s) (hk : Kept owner s) {result : Released}
    (hw : s.waiting p = true) (hm : ∃ m ∈ s.mailbox p, m.endsRelease = true) :
    Sealed (((s.take p Mail.endsRelease).stopWaiting p).record
      (.released p result s.shimAlive)) := by
  obtain ⟨hhandle, hended⟩ := hk.released hw hm
  have hdead : s.shimAlive = false := h.gone (.inl hhandle) hended
  refine ⟨fun _ _ => hdead, fun caller alive he => ?_⟩
  rcases List.mem_cons.mp he with he | he
  · obtain ⟨-, -, rfl⟩ := Event.released.inj he
    exact hdead
  · exact h.freed caller alive he

lemma Sealed.acquire (h : Sealed s) {a : Option (Except Error ℕ)} {handle : Bool}
    (hh : handle = true → s.handle = true ∨ ∃ m ∈ s.mailbox owner, m.grants = true) :
    Sealed ({ s.take owner Mail.endsAcquire with
      acquiring := false, handle := handle }.record (.acquired a)) := by
  refine ⟨fun hr he => h.gone ?_ he, fun caller alive he => h.freed caller alive ?_⟩
  · rcases hr with hr | ⟨p, m, hm, hg⟩
    · exact (hh hr).imp_right fun ⟨m, hm, hg⟩ => ⟨owner, m, hm, hg⟩
    · exact .inr ⟨p, m, mem_take hm, hg⟩
  · exact (List.mem_cons.mp he).resolve_left (by simp)

lemma step_sealed {l : Label} (hi : Inv owner s) (h : Sealed s)
    (hs : s.step owner l = some t) (hcalm : ¬s.early l) : Sealed t := by
  cases l with
  | write chunk endOfLine =>
    rw [Session.step] at hs
    split at hs
    · cases hs
      exact h.frame rfl rfl rfl rfl id
    · cases hs
  | shimExits status =>
    rw [Session.step] at hs
    split at hs
    · cases hs
      split <;> exact h.frame rfl rfl rfl rfl fun _ => rfl
    · cases hs
  | portFails reason =>
    rw [Session.step] at hs
    split at hs
    · cases hs
      exact h.frame rfl rfl rfl rfl id
    · cases hs
  | ownerDies =>
    rw [Session.step] at hs
    split at hs
    · cases hs
      exact h.frame rfl rfl rfl rfl id
    · cases hs
  | killGuard =>
    rw [Session.step] at hs
    split at hs
    · cases hs
    · next hne =>
      cases hs
      refine h.ends hi.kept ?_ (fun p m hm => .inl hm) (fun e he _ => he) rfl rfl
      cases ha : s.shimAlive with
      | false => exact .inl rfl
      | true =>
        have hh : s.guard.phase.holds ≠ true := fun hh => hcalm ⟨ha, hh⟩
        right
        cases hp : s.guard.phase with
        | answering => rfl
        | ended => exact absurd hp hne
        | holding | releasing => exact absurd (by rw [hp, Phase.holds]) hh
  | receive =>
    rw [Session.step] at hs
    split at hs
    · next hf =>
      refine Sealed.turn (s := { s with inbox := _ }) ?_ ?_ ?_ ?_ (runGuard_turn hs)
      · exact h.frame rfl rfl rfl rfl id
      · exact hi.kept.dequeue
      · intro hh
        cases ha : s.shimAlive with
        | false => exact .inl rfl
        | true =>
          refine .inr (Bool.eq_false_iff.mpr fun he => hcalm ⟨ha, hh, _, hf, he⟩)
      · rintro status rfl
        exact hi.heard.exited status (List.mem_of_find?_eq_some hf)
    · cases hs
  | expire =>
    rw [Session.step] at hs
    split at hs
    · refine h.turn hi.kept (fun hh => .inl ?_) (fun _ he => by cases he) (runGuard_turn hs)
      exact Bool.eq_false_iff.mpr fun ha => hcalm ⟨ha, hh⟩
    · cases hs
  | acquired =>
    rw [Session.step] at hs
    split at hs
    · split at hs
      · next answer hf =>
        cases hs
        refine h.acquire fun hh => ?_
        split at hh
        · exact .inr ⟨_, List.mem_of_find?_eq_some hf, rfl⟩
        · exact .inl hh
      · cases hs
        exact h.acquire .inl
      · cases hs
    · cases hs
  | call caller =>
    rw [Session.step] at hs
    split at hs
    · next hcall =>
      have hh : s.handle = true := by simp_all
      split at hs
      · next he =>
        cases hs
        exact ⟨fun _ _ => h.gone (.inl hh) he, h.freed⟩
      · cases hs
        exact h.frame rfl rfl rfl rfl id
    · cases hs
  | answer caller =>
    rw [Session.step] at hs
    split at hs
    · next hw =>
      split at hs
      · next hf =>
        cases hs
        exact h.answer hi.kept hw ⟨_, List.mem_of_find?_eq_some hf, rfl⟩
      · next m _ hf =>
        cases hs
        exact h.answer hi.kept hw ⟨m, List.mem_of_find?_eq_some hf, List.find?_some hf⟩
      · cases hs
    · cases hs

lemma Start.sealed (h : Start owner s) : Sealed s := by
  cases h with
  | opened clock osPid timeoutMs =>
    exact ⟨fun _ he => (by cases he), fun _ _ he => (List.not_mem_nil he).elim⟩
  | unopened osPid shimAlive error =>
    refine ⟨fun hr _ => ?_, fun _ _ he => (List.not_mem_nil he).elim⟩
    rcases hr with hr | ⟨p, m, hm, hg⟩
    · cases hr
    · exact absurd hg (by simp [unopened_ungranted p m hm])

def Attended (s : Session) : Prop :=
  s.ownerAlive = true → s.acquiring = true ∨ ∃ a, .acquired a ∈ s.events

lemma Attended.frame (h : Attended s) (ho : t.ownerAlive = s.ownerAlive)
    (ha : t.acquiring = s.acquiring) (he : ∀ e ∈ s.events, e ∈ t.events) : Attended t := by
  intro hown
  rcases h (ho ▸ hown) with hacq | ⟨a, hmem⟩
  · exact .inl (ha.trans hacq)
  · exact .inr ⟨a, he _ hmem⟩

lemma Attended.turn (h : Attended s) (ht : Turn owner s input t) : Attended t := by
  cases ht with
  | lost => exact h.frame rfl rfl fun e he => List.mem_cons_of_mem _ he
  | _ => exact h.frame rfl rfl fun e he => he

lemma step_attended {l : Label} (h : Attended s) (hs : s.step owner l = some t) : Attended t := by
  cases l with
  | ownerDies =>
    rw [Session.step] at hs
    split at hs
    · cases hs
      exact fun ho => absurd ho Bool.false_ne_true
    · cases hs
  | receive =>
    rw [Session.step] at hs
    split at hs
    · exact Attended.turn (s := { s with inbox := s.inbox.eraseP (takes s) }) h (runGuard_turn hs)
    · cases hs
  | expire =>
    rw [Session.step] at hs
    split at hs
    · exact h.turn (runGuard_turn hs)
    · cases hs
  | acquired =>
    rw [Session.step] at hs
    split at hs
    · split at hs
      · cases hs
        exact fun _ => .inr ⟨_, List.mem_cons_self⟩
      · cases hs
        exact fun _ => .inr ⟨_, List.mem_cons_self⟩
      · cases hs
    · cases hs
  | answer caller =>
    rw [Session.step] at hs
    split at hs
    · split at hs
      · cases hs
        exact h.frame rfl rfl fun e he => List.mem_cons_of_mem _ he
      · cases hs
        exact h.frame rfl rfl fun e he => List.mem_cons_of_mem _ he
      · cases hs
    · cases hs
  | shimExits status =>
    rw [Session.step] at hs
    split at hs
    · cases hs
      split <;> exact h.frame rfl rfl fun e he => he
    · cases hs
  | call caller =>
    rw [Session.step] at hs
    split at hs
    · split at hs
      · cases hs
        exact h.frame rfl rfl fun e he => he
      · cases hs
        exact h.frame rfl rfl fun e he => he
    · cases hs
  | write | portFails =>
    rw [Session.step] at hs
    split at hs
    · cases hs
      exact h.frame rfl rfl fun e he => he
    · cases hs
  | killGuard =>
    rw [Session.step] at hs
    split at hs
    · cases hs
    · cases hs
      exact h.frame rfl rfl fun e he => he

lemma Start.attended (h : Start owner s) : Attended s := by
  cases h with
  | opened | unopened => exact fun _ => .inl rfl

lemma Start.calm (h : Start owner s) (hr : Calm owner s labels t) : Sealed t := by
  refine (Run.invariant_of (I := fun s => Inv owner s ∧ Sealed s) ?_ hr
    ⟨h.inv, h.sealed⟩).2
  exact fun s l t hs hcalm ht => ⟨step_inv hs.1 ht, step_sealed hs.1 hs.2 ht hcalm⟩

end Sessions

/-- Of one lock: its acquire is answered once, with the lock only after the shim's `ok`; its loss
is told once and before any release is answered; and as long as the guard does not end before the
shim, a release that says so has freed it. -/
theorem lock_session {owner : Pid} {s t : Session} {labels : List Label} (hstart : Start owner s) :
    (Steps owner s labels t →
      t.events.countP Event.isAcquired ≤ 1 ∧
      (∀ osPid, .acquired (some (.ok osPid)) ∈ t.events → firstLine "" t.written = some "ok") ∧
      (t.ownerAlive = true → t.acquiring = true ∨ ∃ a, .acquired a ∈ t.events) ∧
      (t.acquiring = true → ∃ more u a, Steps owner t more u ∧
        (∀ l ∈ more, l.serves = true) ∧ .acquired a ∈ u.events) ∧
      t.events.countP Event.isLost ≤ 1 ∧
      t.events.Pairwise fun newer older => newer.isLost = true → older.isReleased = false) ∧
    (Calm owner s labels t →
      ∀ caller alive, .released caller .ok alive ∈ t.events → alive = false) := by
  refine ⟨fun hr => ?_, fun hr => (hstart.calm hr).freed⟩
  have hinv : Inv owner t := hr.invariant (fun _ _ _ => step_inv) hstart.inv
  have hattended : Attended t := hr.invariant (fun _ _ _ => step_attended) hstart.attended
  refine ⟨hinv.kept.acquired, fun osPid he => ?_, hattended, acquire_answered hinv,
    hinv.kept.lost, hinv.kept.order⟩
  exact hinv.kept.reported (.inr (.inr ⟨_, he, rfl⟩))

def Event.freesAlive : Event → Bool
  | .released _ .ok alive => alive
  | _ => false

def secondRelease : List Label :=
  [.write "ok" true, .receive, .acquired, .call 1, .receive, .expire, .answer 1, .call 1,
    .answer 1]

lemma secondRelease_frees :
    (exec (Session.step 1) (opened (fun _ => 0) 7 5000) secondRelease).any
      (·.events.any Event.freesAlive) = true := by
  decide +kernel

theorem release_before_exit :
    ¬∀ owner s labels t, Start owner s → Steps owner s labels t →
      ∀ caller alive, .released caller .ok alive ∈ t.events → alive = false := by
  intro hall
  obtain ⟨t, ht, he⟩ := (Option.any_eq_true ..).mp secondRelease_frees
  obtain ⟨e, hmem, he⟩ := List.any_eq_true.mp he
  cases e with
  | released caller result alive =>
    cases result with
    | ok =>
      have hdead := hall 1 _ _ t (.opened _ 7 5000) (exec_run ht) caller alive hmem
      exact absurd (hdead.symm.trans he) (by decide)
    | timeout => cases he
  | acquired | lost => cases he

instance (s : Session) (l : Label) : Decidable (s.early l) :=
  match l with
  | .killGuard | .expire =>
    inferInstanceAs (Decidable (s.shimAlive = true ∧ s.guard.phase.holds = true))
  | .receive =>
    decidable_of_iff (s.shimAlive = true ∧ s.guard.phase.holds = true ∧
      (s.inbox.find? (takes s)).any Input.early = true)
      (and_congr_right fun _ => and_congr_right fun _ => Option.any_eq_true ..)
  | .write _ _ | .shimExits _ | .portFails _ | .ownerDies | .acquired | .call _ | .answer _ =>
    inferInstanceAs (Decidable False)

def Event.frees : Event → Bool
  | .released _ .ok _ => true
  | _ => false

def release : List Label :=
  [.write "ok" true, .receive, .acquired, .call 1, .receive, .shimExits 0, .receive, .answer 1]

/-- A release that is told of the lock's end finds the shim dead. -/
theorem lock_session_released :
    ∃ t caller, Calm 1 (opened (fun _ => 0) 7 5000) release t ∧
      t.events.countP Event.isAcquired ≤ 1 ∧ t.events.countP Event.isLost ≤ 1 ∧
      .released caller .ok false ∈ t.events := by
  have hexec : (exec (guarded (fun s l => ¬s.early l) (Session.step 1))
      (opened (fun _ => 0) 7 5000) release).any (·.events.any Event.frees) = true := by
    decide +kernel
  obtain ⟨t, ht, hfreed⟩ := (Option.any_eq_true ..).mp hexec
  obtain ⟨e, he, hfrees⟩ := List.any_eq_true.mp hfreed
  have hcalm : Calm 1 (opened (fun _ => 0) 7 5000) release t := exec_guarded ht
  have hrun : Steps 1 (opened (fun _ => 0) 7 5000) release t := hcalm.mono fun _ _ _ h => h.1
  obtain ⟨honce, hdead⟩ := lock_session (.opened (fun _ => 0) 7 5000)
  have hanswers := honce hrun
  cases e with
  | released caller result alive =>
    cases result with
    | ok =>
      obtain rfl := hdead hcalm caller alive he
      exact ⟨t, caller, hcalm, hanswers.1, hanswers.2.2.2.2.1, he⟩
    | timeout => cases hfrees
  | acquired | lost => cases hfrees

end Forcola.Beam.Lock
