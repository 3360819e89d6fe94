import Forcola.Beam.LockSession
import Forcola.Library.Text
import Forcola.Native.Lock

/-! Any number of lock sessions with their shims, at the same files. -/

namespace Forcola.Beam.Lock

open Library Transition
open Native.Lock (Line Point Holds Blocks Owner)
open RecordLock (Fcntl)

def pidRead (n : ℤ) : Option ℕ :=
  if 0 < n then some n.toNat else none

lemma digit_isDigit {c : Char} (h : c.isDigit = true) : digit c = some (c.toNat - '0'.toNat) := by
  have hrange : '0' ≤ c ∧ c ≤ '9' := by
    simp only [Char.isDigit, Bool.and_eq_true, decide_eq_true_eq] at h
    exact h
  rw [digit, if_pos hrange]

lemma parseDigits_digits {cs : List Char} (h : ∀ c ∈ cs, c.isDigit = true) (n : ℕ) :
    parseDigits n cs = some (Nat.ofDigitChars 10 cs n) := by
  induction cs generalizing n with
  | nil => simp [parseDigits]
  | cons c cs ih =>
    obtain ⟨hc, hcs⟩ := List.forall_mem_cons.mp h
    rw [parseDigits, digit_isDigit hc, Option.bind_some, ih hcs, Nat.ofDigitChars_cons]

lemma parsePid_digits (n : ℕ) : parsePid n.repr = if 0 < n then some n else none := by
  have hdigits : ∀ c ∈ Nat.toDigits 10 n, c.isDigit = true :=
    fun c hc => Nat.isDigit_of_mem_toDigits (by decide) (by decide) hc
  rw [parsePid, Nat.toList_repr]
  split
  · next rest hrest =>
    have hplus := hdigits '+' (hrest ▸ List.mem_cons_self)
    exact absurd hplus (by decide)
  · rw [if_neg Nat.toDigits_ne_nil, parseDigits_digits hdigits, Nat.ofDigitChars_ten_toDigits,
      Option.filter_some]
    simp only [decide_eq_true_eq]

lemma parsePid_toString (n : ℤ) : parsePid (toString n) = pidRead n := by
  rw [Int.toString_eq_repr, Int.repr_eq_if, pidRead]
  by_cases hle : 0 ≤ n
  · rw [if_pos hle, parsePid_digits]
    by_cases hpos : 0 < n
    · rw [if_pos hpos, if_pos (by omega)]
    · rw [if_neg hpos, if_neg (by omega)]
  · have hlist : ("-" ++ (-n).toNat.repr).toList = '-' :: (-n).toNat.repr.toList := by
      rw [String.toList_append]
      rfl
    rw [if_neg hle, if_neg (by omega), parsePid, hlist]
    rfl

lemma afterPrefix_append (start rest : String) : afterPrefix start (start ++ rest) = some rest := by
  rw [afterPrefix, String.toList_append, if_pos (List.prefix_append _ _), ← String.length_toList,
    List.drop_left, String.ofList_toList]

lemma parseAnswer_other {osPid : ℕ} {line : String} {k : Option ℕ} {c : Char} {cs : List Char}
    (hline : line.toList = c :: cs) (hc : c ≠ 'h') :
    parseAnswer osPid line ≠ .error (.held k) := by
  have hnone : afterPrefix "held " line = none := by
    rw [afterPrefix, hline, if_neg]
    rintro ⟨rest, hrest⟩
    exact hc (List.cons.inj hrest).1.symm
  rw [parseAnswer, hnone]
  split
  · exact fun h => by cases h
  · dsimp only
    split
    · exact fun h => by cases h
    · split
      · exact fun h => by cases h
      · split <;> exact fun h => by cases h

lemma parseAnswer_held {osPid : ℕ} {line : Line} {k : Option ℕ}
    (h : parseAnswer osPid line.text = .error (.held k)) : ∃ n, line = .held n ∧ k = pidRead n := by
  cases line with
  | held n =>
    have hne : "held " ++ toString n ≠ "ok" := by
      intro heq
      have hlist := congrArg String.toList heq
      rw [String.toList_append] at hlist
      exact absurd (List.cons.inj hlist).1 (by decide)
    rw [Line.text, parseAnswer, if_neg hne, afterPrefix_append] at h
    cases h
    exact ⟨n, rfl, parsePid_toString n⟩
  | ok => exact absurd h (parseAnswer_other (c := 'o') rfl (by decide))
  | errorUsage => exact absurd h (parseAnswer_other (c := 'e') rfl (by decide))
  | errorOpen name =>
    exact absurd h (parseAnswer_other (c := 'e') (String.toList_append ..) (by decide))
  | errorLock name =>
    exact absurd h (parseAnswer_other (c := 'e') (String.toList_append ..) (by decide))

lemma text_ok {line : Line} (h : line.text = "ok") : line = .ok := by
  have hother : ∀ start rest : String, start.toList.head? ≠ some 'o' → start.toList ≠ [] →
      start ++ rest ≠ "ok" := by
    intro start rest hhead hne heq
    have hlist := congrArg (fun s => s.toList.head?) heq
    simp only [String.toList_append, List.head?_append_of_ne_nil _ hne] at hlist
    exact hhead hlist
  cases line with
  | ok => rfl
  | errorUsage => exact absurd h (by decide)
  | held n => exact absurd h (hother _ _ (by decide) (by decide))
  | errorOpen name => exact absurd h (hother _ _ (by decide) (by decide))
  | errorLock name => exact absurd h (hother _ _ (by decide) (by decide))

def Named (s : Session) (k : Option ℕ) : Prop :=
  ∃ line osPid, firstLine "" s.written = some line ∧ parseAnswer osPid line = .error (.held k)

structure Sourced (s : Session) : Prop where
  mails : ∀ p k, .answer (.error (.held k)) ∈ s.mailbox p → Named s k
  events : ∀ k, .acquired (some (.error (.held k))) ∈ s.events → Named s k

variable {owner p : Pid} {s t : Session} {input : Input} {m : Mail} {e : Event} {k : Option ℕ}

lemma step_reply {g g' : Guard} (h : step g input = some g') (hlog : g.log = [])
    (hr : .reply (.error (.held k)) ∈ g'.log) : ∃ deadline chunks line,
      g.phase = .answering deadline chunks ∧ input = .port (.eol line) ∧
        parseAnswer g.osPid (chunks ++ line) = .error (.held k) := by
  rw [step.eq_def] at h
  split at h
  · next deadline chunks line hp =>
    refine ⟨deadline, chunks, line, hp, rfl, ?_⟩
    obtain rfl := Option.some.inj h
    rw [answer] at hr
    split at hr
    · simp [Guard.reply, Guard.add, hlog] at hr
    · next error herror =>
      have heq : Error.held k = error := by
        simpa [Guard.reply, Guard.add, Guard.finish, hlog] using hr
      rw [herror, heq]
  all_goals
    first
    | (obtain rfl := Option.some.inj h
       simp [Guard.reply, Guard.add, Guard.finish, awaitAnswer, hlog] at hr)
    | cases h

lemma perform_mail {effects : List Effect}
    (h : m ∈ (effects.foldl (Session.perform owner) s).mailbox p) :
    m ∈ s.mailbox p ∨ (∃ a, .reply a ∈ effects ∧ m = .answer a) ∨ m.isAnswer = false := by
  induction effects generalizing s with
  | nil => exact .inl h
  | cons effect effects ih =>
    rcases ih h with hm | ⟨a, ha, hm⟩ | hm
    · cases effect with
      | reply answer =>
        rcases mem_post hm with hm | hm
        · exact .inl hm
        · exact .inr (.inl ⟨answer, List.mem_cons_self, hm⟩)
      | lost reason =>
        rcases mem_post hm with hm | rfl
        · exact .inl hm
        · exact .inr (.inr rfl)
      | released caller result =>
        rcases mem_post hm with hm | rfl
        · exact .inl hm
        · exact .inr (.inr rfl)
      | release | close => exact .inl hm
    · exact .inr (.inl ⟨a, List.mem_cons_of_mem _ ha, hm⟩)
    · exact .inr (.inr hm)

lemma perform_frame (effects : List Effect) (s : Session) :
    (effects.foldl (Session.perform owner) s).written = s.written ∧
      ∀ e ∈ (effects.foldl (Session.perform owner) s).events, e ∈ s.events ∨ e.isAcquired = false := by
  induction effects generalizing s with
  | nil => exact ⟨rfl, fun e he => .inl he⟩
  | cons effect effects ih =>
    obtain ⟨hwritten, hevents⟩ := ih (s.perform owner effect)
    rw [List.foldl_cons, hwritten]
    refine ⟨by cases effect <;> rfl, fun e he => ?_⟩
    rcases hevents e he with he | he
    · cases effect with
      | lost reason =>
        rcases List.mem_cons.mp he with rfl | he
        · exact .inr rfl
        · exact .inl he
      | _ => exact .inl he
    · exact .inr he

lemma runGuard_frame (h : runGuard owner s input = some t) : t.written = s.written ∧
    (∀ p, ∀ m ∈ t.mailbox p, m ∈ s.mailbox p ∨ m.isAnswer = false ∨
      ∃ g a, step { s.guard with log := [] } input = some g ∧ .reply a ∈ g.log ∧ m = .answer a) ∧
    ∀ e ∈ t.events, e ∈ s.events ∨ e.isAcquired = false := by
  obtain ⟨g, hg, rfl⟩ := Option.map_eq_some_iff.mp h
  have hmails : ∀ p, ∀ m ∈ (g.log.reverse.foldl (Session.perform owner)
      { s with guard := { g with log := [] } }).mailbox p, m ∈ s.mailbox p ∨
        m.isAnswer = false ∨ ∃ g a, step { s.guard with log := [] } input = some g ∧
          .reply a ∈ g.log ∧ m = .answer a := by
    intro p m hm
    rcases perform_mail hm with hm | ⟨a, ha, hm⟩ | hm
    · exact .inl hm
    · exact .inr (.inr ⟨g, a, hg, List.mem_reverse.mp ha, hm⟩)
    · exact .inr (.inl hm)
  obtain ⟨hwritten, hevents⟩ := @perform_frame owner g.log.reverse
    { s with guard := { g with log := [] } }
  dsimp only
  split
  · refine ⟨hwritten, fun p m hm => ?_, hevents⟩
    rcases mem_endGuard hm with hm | rfl
    · exact hmails p m hm
    · exact .inr (.inl rfl)
  · exact ⟨hwritten, hmails, hevents⟩

namespace Sourced

lemma frame (h : Sourced s) {more : List PortMessage} (hw : t.written = s.written ++ more)
    (hm : ∀ p, ∀ m ∈ t.mailbox p, m ∈ s.mailbox p ∨ m.isAnswer = false)
    (he : ∀ e ∈ t.events, e ∈ s.events ∨ e.isAcquired = false ∨
      ∃ p a, .answer a ∈ s.mailbox p ∧ e = .acquired (some a)) : Sourced t := by
  have hnamed : ∀ {k}, Named s k → Named t k := by
    rintro k ⟨line, osPid, hline, hparse⟩
    exact ⟨line, osPid, by rw [hw]; exact firstLine_append more hline, hparse⟩
  refine ⟨fun p k hmail => ?_, fun k hevent => ?_⟩
  · rcases hm p _ hmail with hmail | hmail
    · exact hnamed (h.mails p k hmail)
    · cases hmail
  · rcases he _ hevent with hevent | hevent | ⟨p, a, ha, heq⟩
    · exact hnamed (h.events k hevent)
    · cases hevent
    · cases heq
      exact hnamed (h.mails p k ha)

lemma guard (h : Sourced s) (ht : runGuard owner s input = some t)
    (heol : ∀ deadline chunks line, s.guard.phase = .answering deadline chunks →
      input = .port (.eol line) → firstLine "" s.written = some (chunks ++ line)) : Sourced t := by
  obtain ⟨hwritten, hmails, hevents⟩ := runGuard_frame ht
  have hnamed : ∀ {k}, Named s k → Named t k := by
    rintro k ⟨line, osPid, hline, hparse⟩
    exact ⟨line, osPid, by rw [hwritten]; exact hline, hparse⟩
  refine ⟨fun p k hmail => ?_, fun k hevent => ?_⟩
  · rcases hmails p _ hmail with hmail | hmail | ⟨g, a, hg, hr, heq⟩
    · exact hnamed (h.mails p k hmail)
    · cases hmail
    · cases heq
      obtain ⟨deadline, chunks, line, hp, hinput, hparse⟩ := step_reply hg rfl hr
      exact hnamed ⟨_, _, heol deadline chunks line hp hinput, hparse⟩
  · rcases hevents _ hevent with hevent | hevent
    · exact hnamed (h.events k hevent)
    · cases hevent

lemma step {l : Label} (hi : Inv owner s) (h : Sourced s) (hs : s.step owner l = some t) :
    Sourced t := by
  have hnone : ∀ {u : Session}, u.written = s.written → u.written = s.written ++ [] :=
    fun hw => hw.trans (List.append_nil _).symm
  cases l with
  | write chunk endOfLine =>
    rw [Session.step] at hs
    split at hs
    · cases hs
      exact h.frame rfl (fun p m hm => .inl hm) fun e he => .inl he
    · cases hs
  | shimExits status =>
    rw [Session.step] at hs
    split at hs
    · cases hs
      split
      · exact h.frame (List.append_assoc _ _ _) (fun p m hm => .inl hm) fun e he => .inl he
      · exact h.frame (hnone rfl) (fun p m hm => .inl hm) fun e he => .inl he
    · cases hs
  | portFails reason =>
    rw [Session.step] at hs
    split at hs
    · cases hs
      exact h.frame rfl (fun p m hm => .inl hm) fun e he => .inl he
    · cases hs
  | ownerDies =>
    rw [Session.step] at hs
    split at hs
    · cases hs
      exact h.frame (hnone rfl) (fun p m hm => .inl hm) fun e he => .inl he
    · cases hs
  | killGuard =>
    rw [Session.step] at hs
    split at hs
    · cases hs
    · cases hs
      refine h.frame (hnone rfl) (fun p m hm => ?_) fun e he => .inl he
      rcases mem_endGuard hm with hm | rfl
      · exact .inl hm
      · exact .inr rfl
  | receive =>
    rw [Session.step] at hs
    split at hs
    · next input hf =>
      have hdequeued : Sourced { s with inbox := s.inbox.eraseP (takes s) } :=
        h.frame (hnone rfl) (fun p m hm => .inl hm) fun e he => .inl he
      refine hdequeued.guard hs fun deadline chunks line hp hinput => ?_
      subst hinput
      exact hi.heard.eol hp hf
    · cases hs
  | expire =>
    rw [Session.step] at hs
    split at hs
    · exact h.guard hs fun _ _ _ _ hinput => by cases hinput
    · cases hs
  | acquired =>
    rw [Session.step] at hs
    split at hs
    · split at hs
      · next answer hf =>
        cases hs
        refine h.frame (hnone rfl) (fun p m hm => .inl (mem_take hm)) fun e he => ?_
        rcases List.mem_cons.mp he with rfl | he
        · exact .inr (.inr ⟨owner, answer, List.mem_of_find?_eq_some hf, rfl⟩)
        · exact .inl he
      · cases hs
        refine ⟨fun p k hm => h.mails p k (mem_take hm), fun k hk => ?_⟩
        rcases List.mem_cons.mp hk with hk | hk
        · cases hk
        · exact h.events k hk
      · cases hs
    · cases hs
  | call caller =>
    rw [Session.step] at hs
    split at hs
    · split at hs
      · cases hs
        refine h.frame (hnone rfl) (fun p m hm => ?_) fun e he => .inl he
        rcases mem_post hm with hm | rfl
        · exact .inl hm
        · exact .inr rfl
      · cases hs
        exact h.frame (hnone rfl) (fun p m hm => .inl hm) fun e he => .inl he
    · cases hs
  | answer caller =>
    rw [Session.step] at hs
    split at hs
    · split at hs
      · cases hs
        refine h.frame (hnone rfl) (fun p m hm => .inl (mem_take hm)) fun e he => ?_
        rcases List.mem_cons.mp he with rfl | he
        · exact .inr (.inl rfl)
        · exact .inl he
      · cases hs
        refine h.frame (hnone rfl) (fun p m hm => .inl (mem_take hm)) fun e he => ?_
        rcases List.mem_cons.mp he with rfl | he
        · exact .inr (.inl rfl)
        · exact .inl he
      · cases hs
    · cases hs

end Sourced

/-- Session `i` is served by shim `i`. -/
structure House (F T : Type) where
  shims : Native.Lock.State F T
  sessions : ℕ → Session

inductive HouseLabel (F : Type)
  | shim (i : ℕ) (action : Native.Lock.Action F) (signal : ℕ)
  | session (i : ℕ) (l : Label)
  | others (l : Native.Lock.Label F)

def Phase.isReleasing : Phase → Bool
  | .releasing _ => true
  | _ => false

/-- A shim is released by its guard or by the end of its port, and writes until the port closes. -/
def Session.allows {F : Type} (s : Session) : Native.Lock.Action F → Bool
  | .released => !s.portOpen || s.guard.phase.isReleasing
  | .writes ok => ok || !s.portOpen
  | _ => true

def Session.follow (s : Session) (owner : Pid) (said : List Line) (point : Point) (signal : ℕ) :
    Option Session :=
  (said.foldlM (fun (s : Session) line => s.step owner (.write line.text true)) s).bind fun s =>
    match point with
    | .exited status => s.step owner (.shimExits (status.getD (128 + signal)))
    | _ => some s

def Label.ofShim : Label → Bool
  | .write _ _ | .shimExits _ => true
  | _ => false

variable {F T : Type} [DecidableEq F] (L : Fcntl Owner T) (pid : Owner → ℤ) (owners : ℕ → Pid)

def House.step (h : House F T) : HouseLabel F → Option (House F T)
  | .shim i action signal =>
    if (h.sessions i).allows action then
      (Native.Lock.act L pid h.shims i action).bind fun n =>
        ((h.sessions i).follow (owners i)
          ((n.shims i).stdout.drop (h.shims.shims i).stdout.length)
          (n.shims i).point signal).map fun s =>
            ⟨n, Function.update h.sessions i s⟩
    else none
  | .session i l =>
    if l.ofShim then none
    else ((h.sessions i).step (owners i) l).map fun s =>
      { h with sessions := Function.update h.sessions i s }
  | .others l =>
    match l with
    | .shim _ _ => none
    | l => (Native.Lock.step L pid h.shims l).map fun n => { h with shims := n }

abbrev HouseRuns (h : House F T) (labels : List (HouseLabel F)) (h' : House F T) : Prop :=
  Run (fun h l h' => h.step L pid owners l = some h') h labels h'

structure HouseStart (h : House F T) : Prop where
  shims : Native.Lock.Start L h.shims
  sessions : ∀ i, ∃ clock osPid timeoutMs, h.sessions i = opened clock osPid timeoutMs

structure Relays (s : Session) (x : Native.Lock.Shim F) : Prop where
  lines : ∀ line, .eol line ∈ s.written → ∃ said ∈ x.stdout, line = said.text
  whole : ∀ chunk, .noeol chunk ∉ s.written
  alive : s.shimAlive = x.point.alive

omit [DecidableEq F] in
lemma firstLine_eol {messages : List PortMessage} {line : String}
    (h : ∀ chunk, .noeol chunk ∉ messages) (hf : firstLine "" messages = some line) :
    .eol line ∈ messages := by
  cases messages with
  | nil => cases (firstLine_nil "").symm.trans hf
  | cons message messages =>
    cases message with
    | noeol chunk => exact absurd List.mem_cons_self (h chunk)
    | eol rest =>
      have heq : rest = line := by
        simpa [firstLine] using hf
      exact heq ▸ List.mem_cons_self
    | exitStatus | exit => cases hf

omit [DecidableEq F] in
lemma Relays.said {x : Native.Lock.Shim F} (h : Relays s x) {line : String}
    (hf : firstLine "" s.written = some line) : ∃ said ∈ x.stdout, line = said.text :=
  h.lines line (firstLine_eol h.whole hf)

lemma step_tells {l : Label} (hs : s.step owner l = some t) (hl : l.ofShim = false) :
    t.shimAlive = s.shimAlive ∧
      ∃ more, t.written = s.written ++ more ∧ ∀ m ∈ more, m.closes = true := by
  have hsame : ∀ {u : Session}, u.shimAlive = s.shimAlive → u.written = s.written →
      u.shimAlive = s.shimAlive ∧
        ∃ more, u.written = s.written ++ more ∧ ∀ m ∈ more, m.closes = true :=
    fun ha hw => ⟨ha, [], hw.trans (List.append_nil _).symm, fun m hm => absurd hm List.not_mem_nil⟩
  have hguard : ∀ {u v : Session} {input : Input}, u.shimAlive = s.shimAlive →
      u.written = s.written → runGuard owner u input = some v → v.shimAlive = s.shimAlive ∧
        ∃ more, v.written = s.written ++ more ∧ ∀ m ∈ more, m.closes = true := by
    intro u v input ha hw hv
    have hframe : v.shimAlive = u.shimAlive ∧ v.written = u.written := by
      cases runGuard_turn hv <;> exact ⟨rfl, rfl⟩
    exact hsame (hframe.1.trans ha) (hframe.2.trans hw)
  cases l with
  | write | shimExits => cases hl
  | portFails reason =>
    rw [Session.step] at hs
    split at hs
    · cases hs
      exact ⟨rfl, [.exit reason], rfl, fun m hm => by rw [List.mem_singleton.mp hm]; rfl⟩
    · cases hs
  | ownerDies =>
    rw [Session.step] at hs
    split at hs
    · cases hs
      exact hsame rfl rfl
    · cases hs
  | killGuard =>
    rw [Session.step] at hs
    split at hs
    · cases hs
    · cases hs
      exact hsame rfl rfl
  | receive =>
    rw [Session.step] at hs
    split at hs
    · exact hguard (u := { s with inbox := s.inbox.eraseP (takes s) }) rfl rfl hs
    · cases hs
  | expire =>
    rw [Session.step] at hs
    split at hs
    · exact hguard rfl rfl hs
    · cases hs
  | acquired =>
    rw [Session.step] at hs
    split at hs
    · split at hs
      · cases hs
        exact hsame rfl rfl
      · cases hs
        exact hsame rfl rfl
      · cases hs
    · cases hs
  | call caller =>
    rw [Session.step] at hs
    split at hs
    · split at hs <;>
      · cases hs
        exact hsame rfl rfl
    · cases hs
  | answer caller =>
    rw [Session.step] at hs
    split at hs
    · split at hs
      · cases hs
        exact hsame rfl rfl
      · cases hs
        exact hsame rfl rfl
      · cases hs
    · cases hs

lemma step_write {chunk : String} (h : s.step owner (.write chunk true) = some t) :
    t = s.tell (.eol chunk) := by
  rw [Session.step] at h
  split at h
  · exact (Option.some.inj h).symm
  · cases h

lemma step_exits {status : ℕ} (h : s.step owner (.shimExits status) = some t) :
    t.shimAlive = false ∧ (t.guard = s.guard ∧ t.events = s.events) ∧
      ∃ more, t.written = s.written ++ more ∧ t.inbox = s.inbox ++ more.map .port ∧
        (∀ m ∈ more, m.closes = true) ∧ (s.portOpen = false → more = []) := by
  rw [Session.step] at h
  split at h
  · obtain rfl := Option.some.inj h
    split
    · next hopen =>
      refine ⟨rfl, ⟨rfl, rfl⟩, [.exitStatus status, .exit "normal"], List.append_assoc _ _ _,
        List.append_assoc _ _ _, fun m hm => ?_, fun hclosed => ?_⟩
      · rcases List.mem_pair.mp hm with rfl | rfl <;> rfl
      · exact Bool.noConfusion (hclosed.symm.trans hopen)
    · exact ⟨rfl, ⟨rfl, rfl⟩, [], (List.append_nil _).symm, (List.append_nil _).symm,
        fun m hm => absurd hm List.not_mem_nil, fun _ => rfl⟩
  · cases h

inductive Follows (owner : Pid) (s : Session) : List Line → Point → Session → Prop
  | quiet {point} : point.alive = true → Follows owner s [] point s
  | said {line point u} : point.alive = true → s.step owner (.write line.text true) = some u →
      Follows owner s [line] point u
  | ended {status n t} : s.step owner (.shimExits n) = some t →
      Follows owner s [] (.exited status) t
  | last {line status n u t} : s.step owner (.write line.text true) = some u →
      u.step owner (.shimExits n) = some t → Follows owner s [line] (.exited status) t

lemma follow_follows {said : List Line} {point : Point} {signal : ℕ} (hsaid : said.length ≤ 1)
    (h : s.follow owner said point signal = some t) : Follows owner s said point t := by
  rw [Session.follow] at h
  obtain ⟨u, hu, ht⟩ := Option.bind_eq_some_iff.mp h
  have halive : (∀ status, point ≠ .exited status) → point.alive = true := by
    intro hne
    cases point with
    | exited status => exact absurd rfl (hne status)
    | _ => rfl
  cases said with
  | nil =>
    obtain rfl := Option.some.inj hu
    split at ht
    · exact .ended ht
    · next hne =>
      obtain rfl := Option.some.inj ht
      exact .quiet (halive hne)
  | cons line said =>
    cases said with
    | cons => exact absurd hsaid (by simp)
    | nil =>
      obtain ⟨v, hv, hu⟩ := Option.bind_eq_some_iff.mp hu
      obtain rfl := Option.some.inj hu
      split at ht
      · exact .last hv ht
      · next hne =>
        obtain rfl := Option.some.inj ht
        exact .said (halive hne) hv

structure Linked (L : Fcntl Owner T) (owners : ℕ → Pid) (h : House F T) : Prop where
  inv : ∀ i, Inv (owners i) (h.sessions i)
  sourced : ∀ i, Sourced (h.sessions i)
  relays : ∀ i, Relays (h.sessions i) (h.shims.shims i)
  shims : Native.Lock.Inv L h.shims

variable {L : Fcntl Owner T} {h h' : House F T} {i j : ℕ} {x y : Native.Lock.Shim F}

namespace Relays

omit [DecidableEq F]

lemma write (hr : Relays s x) {line : Line} (hs : s.step owner (.write line.text true) = some t) :
    (∀ l, .eol l ∈ t.written → ∃ said ∈ x.stdout ++ [line], l = said.text) ∧
      (∀ chunk, .noeol chunk ∉ t.written) ∧ t.shimAlive = s.shimAlive := by
  rw [step_write hs]
  refine ⟨fun l hl => ?_, fun chunk hc => ?_, rfl⟩
  · rcases List.mem_append.mp hl with hl | hl
    · obtain ⟨said, hsaid, heq⟩ := hr.lines l hl
      exact ⟨said, List.mem_append_left _ hsaid, heq⟩
    · cases List.mem_singleton.mp hl
      exact ⟨line, List.mem_append_right _ (List.mem_singleton_self line), rfl⟩
  · rcases List.mem_append.mp hc with hc | hc
    · exact hr.whole chunk hc
    · cases List.mem_singleton.mp hc

lemma closing {more : List PortMessage} {lines : List Line}
    (hlines : ∀ l, .eol l ∈ s.written → ∃ said ∈ lines, l = said.text)
    (hwhole : ∀ chunk, .noeol chunk ∉ s.written) (hw : t.written = s.written ++ more)
    (hmore : ∀ m ∈ more, m.closes = true) :
    (∀ l, .eol l ∈ t.written → ∃ said ∈ lines, l = said.text) ∧
      ∀ chunk, .noeol chunk ∉ t.written := by
  rw [hw]
  refine ⟨fun l hl => ?_, fun chunk hc => ?_⟩
  · rcases List.mem_append.mp hl with hl | hl
    · exact hlines l hl
    · cases hmore _ hl
  · rcases List.mem_append.mp hc with hc | hc
    · exact hwhole chunk hc
    · cases hmore _ hc

lemma follows (hr : Relays s x) {new : List Line} (hx : x.point.alive = true)
    (hy : y.stdout = x.stdout ++ new) (hf : Follows owner s new y.point t) : Relays t y := by
  generalize hp : y.point = point at hf
  cases hf with
  | quiet halive =>
    rw [List.append_nil] at hy
    refine ⟨fun l hl => ?_, hr.whole, ?_⟩
    · rw [hy]
      exact hr.lines l hl
    · rw [hr.alive, hp, hx, halive]
  | said halive hw =>
    obtain ⟨hlines, hwhole, hsame⟩ := hr.write hw
    refine ⟨fun l hl => ?_, hwhole, ?_⟩
    · rw [hy]
      exact hlines l hl
    · rw [hsame, hr.alive, hp, hx, halive]
  | ended he =>
    rw [List.append_nil] at hy
    obtain ⟨hdead, -, more, hw, -, hmore, -⟩ := step_exits he
    obtain ⟨hlines, hwhole⟩ := closing hr.lines hr.whole hw hmore
    refine ⟨fun l hl => ?_, hwhole, ?_⟩
    · rw [hy]
      exact hlines l hl
    · rw [hdead, hp]
      rfl
  | last hwrite he =>
    obtain ⟨hlines, hwhole, -⟩ := hr.write hwrite
    obtain ⟨hdead, -, more, hw, -, hmore, -⟩ := step_exits he
    obtain ⟨hlines, hwhole⟩ := closing hlines hwhole hw hmore
    refine ⟨fun l hl => ?_, hwhole, ?_⟩
    · rw [hy]
      exact hlines l hl
    · rw [hdead, hp]
      rfl

end Relays

omit [DecidableEq F] in
lemma Follows.linked {new : List Line} {point : Point} (hi : Inv owner s) (hs : Sourced s)
    (hf : Follows owner s new point t) : Inv owner t ∧ Sourced t := by
  cases hf with
  | quiet => exact ⟨hi, hs⟩
  | said _ hw => exact ⟨step_inv hi hw, hs.step hi hw⟩
  | ended he => exact ⟨step_inv hi he, hs.step hi he⟩
  | last hw he =>
    have hu := step_inv hi hw
    exact ⟨step_inv hu he, (hs.step hi hw).step hu he⟩

lemma step_shim {action : Native.Lock.Action F} {signal : ℕ} {pid : Owner → ℤ} {owners : ℕ → Pid}
    (hL : L.Lawful) (hs : h.step L pid owners (.shim i action signal) = some h') :
    (h.sessions i).allows action = true ∧ Native.Lock.Acts L pid h.shims i action h'.shims ∧
      (∀ j, j ≠ i → h'.sessions j = h.sessions j) ∧
      ∃ new, (h'.shims.shims i).stdout = (h.shims.shims i).stdout ++ new ∧
        Follows (owners i) (h.sessions i) new (h'.shims.shims i).point (h'.sessions i) := by
  rw [House.step] at hs
  split at hs
  · next hallows =>
    obtain ⟨n, hn, hs⟩ := Option.bind_eq_some_iff.mp hs
    obtain ⟨s, hfollow, rfl⟩ := Option.map_eq_some_iff.mp hs
    have hacts := Native.Lock.act_acts hL hn
    obtain ⟨new, hnew, hlength⟩ := hacts.prints
    refine ⟨hallows, hacts, fun j hj => Function.update_of_ne hj _ _, new, hnew, ?_⟩
    dsimp only
    rw [Function.update_self]
    rw [hnew, List.drop_left] at hfollow
    exact follow_follows hlength hfollow
  · cases hs

lemma step_others {l : Native.Lock.Label F} {pid : Owner → ℤ} {owners : ℕ → Pid}
    (hs : h.step L pid owners (.others l) = some h') : ∃ n, Native.Lock.step L pid h.shims l = some n ∧
      (∀ i a, l ≠ .shim i a) ∧ h' = { h with shims := n } := by
  cases l with
  | shim => cases hs
  | locks | unlocks | closes =>
    simp only [House.step] at hs
    obtain ⟨n, hn, rfl⟩ := Option.map_eq_some_iff.mp hs
    exact ⟨n, hn, by simp, rfl⟩

lemma Linked.step {l : HouseLabel F} {pid : Owner → ℤ} {owners : ℕ → Pid} (hL : L.Lawful)
    (hl : Linked L owners h) (hs : h.step L pid owners l = some h') : Linked L owners h' := by
  cases l with
  | shim i action signal =>
    obtain ⟨-, hacts, hsessions, new, hnew, hfollows⟩ := step_shim hL hs
    obtain ⟨hinv, hsourced⟩ := hfollows.linked (hl.inv i) (hl.sourced i)
    have hrelays := (hl.relays i).follows hacts.alive hnew hfollows
    refine ⟨fun j => ?_, fun j => ?_, fun j => ?_, hl.shims.acts hL hacts⟩
    all_goals
      by_cases hj : j = i
      · subst hj
        assumption
    · rw [hsessions j hj]
      exact hl.inv j
    · rw [hsessions j hj]
      exact hl.sourced j
    · rw [hsessions j hj, hacts.others hj]
      exact hl.relays j
  | session i l =>
    rw [House.step] at hs
    split at hs
    · cases hs
    · next hshim =>
      obtain ⟨t, ht, rfl⟩ := Option.map_eq_some_iff.mp hs
      obtain ⟨halive, more, hw, hmore⟩ := step_tells ht (by simpa using hshim)
      have hat : ∀ P : ℕ → Session → Prop, P i t → (∀ j, P j (h.sessions j)) →
          ∀ j, P j (Function.update h.sessions i t j) := by
        intro P hi hall j
        by_cases hj : j = i
        · subst hj
          rwa [Function.update_self]
        · rw [Function.update_of_ne hj]
          exact hall j
      refine ⟨hat (fun j => Inv (owners j)) (step_inv (hl.inv i) ht) hl.inv,
        hat (fun _ => Sourced) ((hl.sourced i).step (hl.inv i) ht) hl.sourced,
        hat (fun j s => Relays s (h.shims.shims j)) ?_ hl.relays, hl.shims⟩
      obtain ⟨hlines, hwhole⟩ :=
        Relays.closing (hl.relays i).lines (hl.relays i).whole hw hmore
      exact ⟨hlines, hwhole, halive.trans (hl.relays i).alive⟩
  | others l =>
    obtain ⟨n, hn, hother, rfl⟩ := step_others hs
    refine ⟨hl.inv, hl.sourced, fun i => ?_, hl.shims.step hL hn⟩
    dsimp only
    rw [Native.Lock.others_shims hn hother]
    exact hl.relays i

/-- The shim is killed, or its port fails. -/
def HouseLabel.spoils (i : ℕ) : HouseLabel F → Bool
  | .shim j .killed _ => j == i
  | .session j (.portFails _) => j == i
  | _ => false

def Phase.isOver : Phase → Bool
  | .releasing _ | .ended => true
  | _ => false

structure Spares (s t : Session) : Prop where
  inbox : ∀ m, .port m ∈ t.inbox → .port m ∈ s.inbox
  phase : s.guard.phase.isOver = true → t.guard.phase.isOver = true
  events : ∀ e ∈ t.events, e ∈ s.events ∨ e.isLost = false ∨
    s.guard.phase = .holding ∧ ∃ m, .port m ∈ s.inbox ∧ m.closes = true

lemma Turn.spares {u : Session} (hguard : u.guard = s.guard) (hevents : u.events = s.events)
    (hinbox : ∀ m, .port m ∈ u.inbox → .port m ∈ s.inbox)
    (hinput : ∀ m, input = .port m → .port m ∈ s.inbox) (h : Turn owner u input t) :
    Spares s t := by
  have hframe := h.frame.2
  refine ⟨fun m hm => hinbox m (hframe ▸ hm), fun hover => ?_, fun e he => ?_⟩
  · rw [← hguard] at hover
    cases h with
    | more hp hg => rw [hp] at hover; cases hover
    | granted hp hok hg => rw [hp] at hover; cases hover
    | refused hp hg =>
      exact congrArg Phase.isOver hg
    | left hp hg => exact congrArg Phase.isOver hg
    | lost hp hc hg => exact congrArg Phase.isOver hg
    | ignored hp hg => rw [hp] at hover; cases hover
    | asked hp hg => exact congrArg Phase.isOver hg
    | released hp hc hg => exact congrArg Phase.isOver hg
    | expired hp hg => exact congrArg Phase.isOver hg
  · rw [← hevents]
    cases h with
    | lost hp hc hg =>
      refine .inr (.inr ⟨hguard ▸ hp, _, hinput _ rfl, hc⟩)
    | _ => exact .inl he

lemma step_spares {l : Label} (hs : s.step owner l = some t) (hl : l.ofShim = false)
    (hfail : ∀ reason, l ≠ .portFails reason) : Spares s t := by
  have hquiet : ∀ {u : Session}, u.guard = s.guard → (∀ m, .port m ∈ u.inbox → .port m ∈ s.inbox) →
      (∀ e ∈ u.events, e ∈ s.events ∨ e.isLost = false) → Spares s u := by
    intro u hg hi he
    exact ⟨hi, fun ho => by rw [hg]; exact ho, fun e hm => (he e hm).imp_right .inl⟩
  cases l with
  | write | shimExits => cases hl
  | portFails reason => exact absurd rfl (hfail reason)
  | ownerDies =>
    rw [Session.step] at hs
    split at hs
    · cases hs
      refine hquiet rfl (fun m hm => ?_) fun e he => .inl he
      rcases List.mem_append.mp hm with hm | hm
      · exact hm
      · cases List.mem_singleton.mp hm
    · cases hs
  | killGuard =>
    rw [Session.step] at hs
    split at hs
    · cases hs
    · cases hs
      exact ⟨fun m hm => hm, fun _ => rfl, fun e he => .inl he⟩
  | receive =>
    rw [Session.step] at hs
    split at hs
    · next input hf =>
      refine Turn.spares (u := { s with inbox := s.inbox.eraseP (takes s) }) rfl rfl
        (fun m hm => List.mem_of_mem_eraseP hm) (fun m hm => ?_) (runGuard_turn hs)
      exact hm ▸ List.mem_of_find?_eq_some hf
    · cases hs
  | expire =>
    rw [Session.step] at hs
    split at hs
    · exact Turn.spares rfl rfl (fun m hm => hm) (fun m hm => by cases hm) (runGuard_turn hs)
    · cases hs
  | acquired =>
    rw [Session.step] at hs
    split at hs
    · split at hs
      · cases hs
        refine hquiet rfl (fun m hm => hm) fun e he => ?_
        exact (List.mem_cons.mp he).elim (fun h => .inr (by rw [h]; rfl)) .inl
      · cases hs
        refine hquiet rfl (fun m hm => hm) fun e he => ?_
        exact (List.mem_cons.mp he).elim (fun h => .inr (by rw [h]; rfl)) .inl
      · cases hs
    · cases hs
  | call caller =>
    rw [Session.step] at hs
    split at hs
    · split at hs
      · cases hs
        exact hquiet rfl (fun m hm => hm) fun e he => .inl he
      · cases hs
        refine hquiet rfl (fun m hm => ?_) fun e he => .inl he
        rcases List.mem_append.mp hm with hm | hm
        · exact hm
        · cases List.mem_singleton.mp hm
    · cases hs
  | answer caller =>
    rw [Session.step] at hs
    split at hs
    · split at hs
      · cases hs
        refine hquiet rfl (fun m hm => hm) fun e he => ?_
        exact (List.mem_cons.mp he).elim (fun h => .inr (by rw [h]; rfl)) .inl
      · cases hs
        refine hquiet rfl (fun m hm => hm) fun e he => ?_
        exact (List.mem_cons.mp he).elim (fun h => .inr (by rw [h]; rfl)) .inl
      · cases hs
    · cases hs

structure Spared (s : Session) (x : Native.Lock.Shim F) : Prop where
  events : ∀ e ∈ s.events, e.isLost = false
  inbox : ∀ m, .port m ∈ s.inbox → m.closes = true →
    x.point.alive = false ∧ (.ok ∉ x.stdout ∨ s.guard.phase.isOver = true)

omit [DecidableEq F] in
lemma Spared.step (h : Spared s x) (hi : Inv owner s) (hr : Relays s x) (hs : Spares s t) :
    Spared t x := by
  have hholding : s.guard.phase = .holding → .ok ∈ x.stdout := by
    intro hp
    obtain ⟨said, hsaid, htext⟩ := hr.said (hi.kept.reported (.inl (by rw [hp]; rfl)))
    rwa [text_ok htext.symm] at hsaid
  refine ⟨fun e he => ?_, fun m hm hc => ?_⟩
  · rcases hs.events e he with he | he | ⟨hp, m, hm, hc⟩
    · exact h.events e he
    · exact he
    · rcases (h.inbox m hm hc).2 with hok | hover
      · exact absurd (hholding hp) hok
      · rw [hp] at hover
        cases hover
  · obtain ⟨hdead, hor⟩ := h.inbox m (hs.inbox m hm) hc
    exact ⟨hdead, hor.imp_right hs.phase⟩

lemma Spared.shim {pid : Owner → ℤ} {u v : Native.Lock.State F T} {action : Native.Lock.Action F}
    {new : List Line} (h : Spared s (u.shims i)) (htells : (u.shims i).Tells)
    (ha : Native.Lock.Acts L pid u i action v) (hkill : action ≠ .killed)
    (hallows : s.allows action = true) (hnew : (v.shims i).stdout = (u.shims i).stdout ++ new)
    (hf : Follows owner s new (v.shims i).point t) : Spared t (v.shims i) := by
  have hopen : ∀ m, .port m ∈ s.inbox → m.closes = false := by
    intro m hm
    by_contra hc
    rw [Bool.not_eq_false] at hc
    exact Bool.noConfusion (ha.alive.symm.trans (h.inbox m hm hc).1)
  have hwrote : ∀ {w : Session} {line : String}, s.step owner (.write line true) = some w →
      w.events = s.events ∧ w.guard = s.guard ∧ ∀ m, .port m ∈ w.inbox → m.closes = false := by
    intro w line hw
    rw [step_write hw]
    refine ⟨rfl, rfl, fun m hm => ?_⟩
    rcases List.mem_append.mp hm with hm | hm
    · exact hopen m hm
    · cases List.mem_singleton.mp hm
      rfl
  generalize hp : (v.shims i).point = point at hf
  cases hf with
  | quiet halive =>
    exact ⟨h.events, fun m hm hc => Bool.noConfusion ((hopen m hm).symm.trans hc)⟩
  | said halive hw =>
    obtain ⟨hevents, -, hinbox⟩ := hwrote hw
    exact ⟨hevents ▸ h.events, fun m hm hc => Bool.noConfusion ((hinbox m hm).symm.trans hc)⟩
  | @last line status n w _ hw he =>
    obtain ⟨hevents, -, -⟩ := hwrote hw
    obtain ⟨-, ⟨-, hevents'⟩, -⟩ := step_exits he
    refine ⟨fun e hm => h.events e (hevents ▸ hevents' ▸ hm), fun m hm hc => ⟨by rw [hp]; rfl, .inl ?_⟩⟩
    -- only a line other than `ok` is a shim's last act
    rcases ha.exits (by rw [hp]; rfl) with ⟨l, hl, hstdout⟩ | ⟨hstdout, -⟩
    · have hsilent := htells
      unfold Native.Lock.Shim.Tells at hsilent
      rw [hl] at hsilent
      rw [hstdout, hsilent.1]
      simpa using fun h => hsilent.2 h.symm
    · rw [hstdout] at hnew
      simp at hnew
  | @ended status n _ he =>
    obtain ⟨-, ⟨hguard, hevents⟩, more, -, hinbox, -, hclosed⟩ := step_exits he
    refine ⟨hevents ▸ h.events, fun m hm hc => ⟨by rw [hp]; rfl, .inr ?_⟩⟩
    rw [hinbox] at hm
    have hshut : s.portOpen = true := by
      by_contra hs
      rw [Bool.not_eq_true] at hs
      rw [hclosed hs] at hm
      exact Bool.noConfusion ((hopen m (by simpa using hm)).symm.trans hc)
    rw [hguard]
    rcases ha.exits (by rw [hp]; rfl) with ⟨l, -, hstdout⟩ | ⟨-, hend⟩
    · rw [hstdout] at hnew
      simp at hnew
    · rcases hend with rfl | rfl | rfl
      · exact absurd rfl hkill
      · have hreleasing : s.guard.phase.isReleasing = true := by
          simpa [Session.allows, hshut] using hallows
        cases hphase : s.guard.phase with
        | releasing => rfl
        | _ =>
          rw [hphase] at hreleasing
          cases hreleasing
      · simp [Session.allows, hshut] at hallows

def HouseLabel.Kills (i : ℕ) (labels : List (HouseLabel F)) : Prop :=
  ∃ l ∈ labels, l.spoils i = true

variable {pid : Owner → ℤ} {owners : ℕ → Pid} {h₀ : House F T} {labels : List (HouseLabel F)}

lemma house_linked (hL : L.Lawful) (hstart : HouseStart L h₀) (hr : HouseRuns L pid owners h₀ labels h) :
    Linked L owners h := by
  apply hr.invariant (I := Linked L owners) (fun _ _ _ hi hs => hi.step hL hs)
  refine ⟨fun i => ?_, fun i => ?_, fun i => ?_, hstart.shims.inv⟩
  all_goals obtain ⟨clock, osPid, timeoutMs, heq⟩ := hstart.sessions i; rw [heq]
  · exact opened_inv clock osPid timeoutMs
  · exact ⟨fun p k hm => (by cases hm), fun k he => (by cases he)⟩
  · refine ⟨fun line hl => (by cases hl), fun chunk hc => (by cases hc), ?_⟩
    rw [(hstart.shims.shims i).1]
    rfl

lemma house_shims {l : HouseLabel F} (hL : L.Lawful) (hs : h.step L pid owners l = some h') (i : ℕ) :
    (∃ a signal, l = .shim i a signal ∧ Native.Lock.Acts L pid h.shims i a h'.shims) ∨
      h'.shims.shims i = h.shims.shims i := by
  cases l with
  | shim j a signal =>
    obtain ⟨-, hacts, -⟩ := step_shim hL hs
    by_cases hj : i = j
    · subst hj
      exact .inl ⟨a, signal, rfl, hacts⟩
    · exact .inr (hacts.others hj)
  | session j l =>
    rw [House.step] at hs
    split at hs
    · cases hs
    · obtain ⟨t, -, rfl⟩ := Option.map_eq_some_iff.mp hs
      exact .inr rfl
  | others l =>
    obtain ⟨n, hn, hother, rfl⟩ := step_others hs
    exact .inr (congrFun (Native.Lock.others_shims hn hother) i)

lemma house_named (hL : L.Lawful) (hstart : HouseStart L h₀)
    (hr : HouseRuns L pid owners h₀ labels h) : ∀ i k,
    (h.shims.shims i).point = .finishing (.held k) ∨ .held k ∈ (h.shims.shims i).stdout → k = 0 ∨
      ∃ before u, before <+: labels ∧ HouseRuns L pid owners h₀ before u ∧ Blocks L pid u.shims i k := by
  have hinv := Run.history (I := fun labels h => HouseRuns L pid owners h₀ labels h ∧ ∀ i k,
    (h.shims.shims i).point = .finishing (.held k) ∨ .held k ∈ (h.shims.shims i).stdout → k = 0 ∨
      ∃ before u, before <+: labels ∧ HouseRuns L pid owners h₀ before u ∧ Blocks L pid u.shims i k) ?_ hr
    ⟨.nil _, fun i k hk => ?_⟩
  · exact hinv.2
  · rintro labels h l h' ⟨hrun, hi⟩ hs
    refine ⟨hrun.snoc hs, fun i k hk => ?_⟩
    have hold : (h.shims.shims i).point = .finishing (.held k) ∨
        .held k ∈ (h.shims.shims i).stdout → k = 0 ∨ ∃ before u, before <+: labels ++ [l] ∧
          HouseRuns L pid owners h₀ before u ∧ Blocks L pid u.shims i k := by
      intro hk
      refine (hi i k hk).imp_right ?_
      rintro ⟨before, u, hb, hu, hblocks⟩
      exact ⟨before, u, List.IsPrefix.trans hb (List.prefix_append ..), hu, hblocks⟩
    rcases house_shims hL hs i with ⟨a, signal, -, hacts⟩ | hsame
    · rcases hacts.names hk with hk | rfl | hblocks
      · exact hold hk
      · exact .inl rfl
      · exact .inr ⟨labels, h, List.prefix_append .., hrun, hblocks⟩
    · exact hold (hsame ▸ hk)
  · obtain ⟨hp, hs, -⟩ := hstart.shims.shims i
    rw [hp, hs] at hk
    rcases hk with hk | hk
    · cases hk
    · cases hk

lemma house_spared (hL : L.Lawful) (hstart : HouseStart L h₀)
    (hr : HouseRuns L pid owners h₀ labels h) (i : ℕ) : HouseLabel.Kills i labels ∨ Spared (h.sessions i) (h.shims.shims i) := by
  have hnil : HouseRuns L pid owners h₀ [] h₀ := .nil _
  have hinv := Run.history (I := fun labels h => Linked L owners h ∧
    (HouseLabel.Kills i labels ∨ Spared (h.sessions i) (h.shims.shims i))) ?_ hr
    ⟨house_linked hL hstart hnil, .inr ?_⟩
  · exact hinv.2
  · rintro labels h l h' ⟨hlinked, hor⟩ hs
    refine ⟨hlinked.step hL hs, ?_⟩
    rcases hor with ⟨l', hl', hspoils⟩ | hspared
    · exact .inl ⟨l', List.mem_append_left _ hl', hspoils⟩
    · by_cases hspoils : l.spoils i = true
      · exact .inl ⟨l, List.mem_append_right _ (List.mem_singleton_self l), hspoils⟩
      right
      cases l with
      | shim j a signal =>
        obtain ⟨hallows, hacts, hsessions, new, hnew, hfollows⟩ := step_shim hL hs
        by_cases hj : i = j
        · subst hj
          refine hspared.shim (hlinked.shims.tells i) hacts (fun hk => hspoils ?_) hallows hnew
            hfollows
          subst hk
          exact beq_self_eq_true i
        · rw [hsessions i hj, hacts.others hj]
          exact hspared
      | session j l =>
        rw [House.step] at hs
        split at hs
        · cases hs
        · next hshim =>
          obtain ⟨t, ht, rfl⟩ := Option.map_eq_some_iff.mp hs
          by_cases hj : i = j
          · subst hj
            dsimp only
            rw [Function.update_self]
            refine hspared.step (hlinked.inv i) (hlinked.relays i)
              (step_spares ht (by simpa using hshim) fun reason hreason => hspoils ?_)
            subst hreason
            exact beq_self_eq_true i
          · dsimp only
            rw [Function.update_of_ne hj]
            exact hspared
      | others l =>
        obtain ⟨n, hn, hother, rfl⟩ := step_others hs
        dsimp only
        rw [Native.Lock.others_shims hn hother]
        exact hspared
  · obtain ⟨clock, osPid, timeoutMs, heq⟩ := hstart.sessions i
    rw [heq]
    exact ⟨fun e he => (by cases he), fun m hm => (by cases hm)⟩

/-- What the callers of `acquire/2` may rely on. -/
structure Sharing (L : Fcntl Owner T) (pid : Owner → ℤ) (owners : ℕ → Pid) (h₀ : House F T)
    (labels : List (HouseLabel F)) (h : House F T) : Prop where
  held : ∀ i, (∃ e ∈ (h.sessions i).events, e.grants = true) → (h.sessions i).shimAlive = true →
    ∃ f, Holds h.shims i f ∧ ∀ o k n, L.holds (h.shims.files f) o k n ↔ o = .shim i ∧ k = .write
  alone : ∀ i j f, Holds h.shims i f → Holds h.shims j f → i = j
  named : ∀ i k : ℕ, .acquired (some (.error (.held (some k)))) ∈ (h.sessions i).events →
    ∃ before u, before <+: labels ∧ HouseRuns L pid owners h₀ before u ∧ Blocks L pid u.shims i k
  lost : ∀ i reason, .lost reason ∈ (h.sessions i).events → HouseLabel.Kills i labels

theorem lock_sharing (L : Fcntl Owner T) (hL : L.Lawful) (pid : Owner → ℤ) (owners : ℕ → Pid)
    (h₀ h : House F T) (labels : List (HouseLabel F)) (hstart : HouseStart L h₀)
    (hr : HouseRuns L pid owners h₀ labels h) : Sharing L pid owners h₀ labels h := by
  have hlinked := house_linked hL hstart hr
  have hinv := hlinked.shims
  refine ⟨fun i hgrants halive => ?_, fun i j f hi hj => ?_, fun i k hk => ?_, fun i reason hl => ?_⟩
  · have hfirst := (hlinked.inv i).kept.reported (.inr (.inr hgrants))
    obtain ⟨said, hsaid, htext⟩ := (hlinked.relays i).said hfirst
    rw [text_ok htext.symm] at hsaid
    obtain ⟨f, hf⟩ := hinv.announced hsaid ((hlinked.relays i).alive.symm.trans halive)
    exact ⟨f, hf, hinv.only hf⟩
  · exact hinv.alone hi hj
  · obtain ⟨line, osPid, hline, hparse⟩ := (hlinked.sourced i).events _ hk
    obtain ⟨said, hsaid, htext⟩ := (hlinked.relays i).said hline
    rw [htext] at hparse
    obtain ⟨n, rfl, hn⟩ := parseAnswer_held hparse
    rw [pidRead] at hn
    split at hn
    · next hpos =>
      have hkn : (k : ℤ) = n := by
        rw [Option.some.inj hn]
        omega
      rw [hkn]
      exact (house_named hL hstart hr i n (.inr hsaid)).resolve_left (by omega)
    · cases hn
  · rcases house_spared hL hstart hr i with hkills | hspared
    · exact hkills
    · cases hspared.events _ hl

def twoSessions : House ℕ (RecordLock.Locks Owner) where
  shims := Native.Lock.twoShims
  sessions i := opened (fun _ => 0) (100 + i) 1000

def disputed : List (HouseLabel ℕ) :=
  [.shim 0 .begins 0, .shim 1 .begins 0, .shim 0 (.opens (.ok 7)) 0, .shim 1 (.opens (.ok 7)) 0,
    .shim 0 (.setlk none) 0, .shim 1 (.setlk none) 0, .shim 1 (.getlk false) 0,
    .shim 0 (.writes true) 0, .shim 1 (.writes true) 0, .session 0 .receive, .session 0 .acquired,
    .session 1 .receive, .session 1 .acquired]

def Event.holder : Event → Option ℕ
  | .acquired (some (.error (.held k))) => k
  | _ => none

lemma Event.holder_some {e : Event} {k : ℕ} (h : e.holder = some k) :
    e = .acquired (some (.error (.held (some k)))) := by
  unfold Event.holder at h
  split at h
  · rw [h]
  · cases h

theorem lock_sharing_disputed : ∃ h,
    exec (House.step (RecordLock.Locks.fcntl Owner) Native.Lock.shimPid id) twoSessions disputed =
      some h ∧ (∃ f, Holds h.shims 0 f) ∧ ∃ before u, before <+: disputed ∧
        HouseRuns (RecordLock.Locks.fcntl Owner) Native.Lock.shimPid id twoSessions before u ∧
          Blocks (RecordLock.Locks.fcntl Owner) Native.Lock.shimPid u.shims 1 100 := by
  have hk : (exec (House.step (RecordLock.Locks.fcntl Owner) Native.Lock.shimPid id) twoSessions
      disputed).any (fun h =>
      (h.sessions 0).events.any Event.grants && (h.sessions 0).shimAlive &&
        (h.sessions 1).events.any fun e => e.holder == some 100) = true := by
    decide +kernel
  obtain ⟨h, hs, hp⟩ := Option.any_eq_true .. |>.mp hk
  simp only [Bool.and_eq_true, List.any_eq_true, beq_iff_eq] at hp
  obtain ⟨⟨⟨e, he, hgrants⟩, halive⟩, e', he', hholder⟩ := hp
  have hshared := lock_sharing (RecordLock.Locks.fcntl Owner) RecordLock.Locks.fcntl_lawful
    Native.Lock.shimPid id twoSessions h disputed
    ⟨Native.Lock.twoShims_start, fun i => ⟨_, _, _, rfl⟩⟩ (exec_run hs)
  obtain ⟨f, hf, -⟩ := hshared.held 0 ⟨e, he, hgrants⟩ halive
  rw [Event.holder_some hholder] at he'
  exact ⟨h, hs, ⟨f, hf⟩, hshared.named 1 100 he'⟩

end Forcola.Beam.Lock
