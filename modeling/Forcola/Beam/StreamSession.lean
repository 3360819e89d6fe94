import Forcola.Beam.Session
import Forcola.Beam.StreamStderr

/-! A stream as the client of its port: what it sends, and what it makes of what it hears. -/

namespace Forcola.Beam.Stream

open Library
open Native (Bytes Pipe)
open Shim (Tag Command)

def Effect.command? : Effect → Option Command
  | .send command => some command
  | _ => none

def commands (s : State) : List Command :=
  s.log.reverse.filterMap Effect.command?

def Label.data? : Label → Option (Tag × Bytes)
  | .message (.data tag payload) => some (tag, payload)
  | _ => none

variable {cfg : Options} {clock : ℕ → Instant} {s t u : State} {l : Label} {labels : List Label}

lemma commands_add (s : State) (e : Effect) :
    commands (s.add e) = commands s ++ e.command?.toList := by
  rw [commands, State.add, List.reverse_cons, List.filterMap_append, commands]
  cases h : e.command? <;> simp [h]

/-- Nothing is sent. -/
abbrev Mute : State → State → Prop :=
  Session.Mute State.outstanding (fun s => s.log.reverse) (List.filterMap Effect.command?)

namespace Mute

lemma log (h : Mute s t) : s.log <:+ t.log :=
  List.reverse_prefix.mp h.grows

lemma commands (h : Mute s t) : commands t = commands s :=
  h.said

lemma add (s : State) {e : Effect} (h : e.command? = none) : Mute s (s.add e) := by
  refine ⟨rfl, List.reverse_prefix.mpr (List.suffix_cons _ _), (commands_add s e).trans ?_⟩
  rw [h, Option.toList_none, List.append_nil]
  rfl

lemma keeps : Keeper.Keeps Mute where
  refl := Session.Mute.refl
  trans := Session.Mute.trans
  setTracking _ _ := .of_eq rfl rfl
  setIdentity _ _ := .of_eq rfl rfl
  tell s _ := Mute.add s rfl
  spawned s _ := Mute.add s rfl

lemma tracking (s : State) (tracking : Tracking) (event : Option TrackingEvent) :
    Mute s ({ s with tracking := tracking }.tell cfg event) :=
  keeps.tracking s _ _

lemma finishTracking (s : State) (scope : Shim.Scope) (confirmation : Confirmation)
    (contained : Option Bool) (truncated : Bool) :
    Mute s (s.finishTracking cfg scope confirmation contained truncated) :=
  keeps.tracking s _ _

lemma recordIdentity (s : State) (payload : Bytes) : Mute s (s.recordIdentity cfg payload) :=
  keeps.recordIdentity _ s _

lemma resetIdle (s : State) : Mute s (resetIdle cfg clock s) := by
  rw [Stream.resetIdle]
  split <;> exact .of_eq rfl rfl

lemma emits (h : Mute s u) {lines : List Bytes} (ho : t.outstanding = u.outstanding)
    (hl : t.log = .emitted lines :: u.log) : Mute s t :=
  h.trans (.trans (Mute.add u (e := .emitted lines) rfl) (.of_eq ho (congrArg List.reverse hl)))

lemma emit (s : State) (lines : List Bytes) : Mute s (emit s lines) :=
  Mute.emits (.refl s) rfl rfl

lemma consumeLines (s : State) (payload : Bytes) : Mute s (consumeLines cfg s payload).2.2 := by
  rcases @consumeLines_cases cfg s payload with h | ⟨lines, limit, h⟩
  · rw [h]
    exact .of_eq rfl rfl
  · rw [h]
    exact .refl s

lemma evidence (s : State) (result : Confirmed) : Mute s (cleanupEvidence cfg s result).2 := by
  cases result <;> exact .tracking s _ _

lemma conclude (s : State) (purpose : Purpose) (result : Confirmed) :
    Mute s (conclude cfg s purpose result) := by
  have hev := @evidence cfg s result
  cases purpose with
  | idle => exact hev.emits rfl rfl
  | limit lines limit => exact hev.emits rfl rfl
  | cleanup => exact hev.trans (.of_eq rfl rfl)

lemma doAwaitExit (s : State) (purpose : Purpose) (deadline : Instant) :
    Mute s (doAwaitExit cfg clock s purpose deadline) := by
  rw [Stream.doAwaitExit]
  dsimp only
  split
  · exact Session.Mute.trans (t := (s.now clock).2) (.of_eq rfl rfl) (Mute.conclude _ _ _)
  · exact .of_eq rfl rfl

lemma awaitMessage (s : State) (purpose : Purpose) (deadline : Instant) (message : Message) :
    Mute s (awaitMessage cfg clock s purpose deadline message) := by
  cases message with
  | exitStatus => exact .conclude _ _ _
  | data tag payload =>
    cases tag with
    | exit => exact .conclude _ _ _
    | error => exact .conclude _ _ _
    | spawned => exact (recordIdentity s payload).trans (Mute.doAwaitExit _ _ _)
    | tracked => exact (tracking s _ _).trans (Mute.doAwaitExit _ _ _)
    | stdout => exact (add s (e := .discarded .stdout payload) rfl).trans (Mute.doAwaitExit _ _ _)
    | stderr => exact (add s (e := .discarded .stderr payload) rfl).trans (Mute.doAwaitExit _ _ _)
    | other => exact .doAwaitExit _ _ _

lemma killAndConfirm (s : State) (purpose : Purpose) :
    Mute (s.add (.send .kill)) (killAndConfirm cfg clock s purpose) := by
  rw [Stream.killAndConfirm]
  exact Session.Mute.trans (t := ((s.add (.send .kill)).now clock).2) (.of_eq rfl rfl)
    (Mute.doAwaitExit _ _ _)

end Mute

def Quitting (s : State) : Prop :=
  s.exit ≠ none ∨ s.phase = .abandoned ∨ ∃ purpose deadline, s.phase = .awaiting purpose deadline

lemma Waits.quitting {purpose : Purpose} (h : Waits cfg purpose s t) : Quitting t := by
  cases h with
  | waiting deadline h hi hp => exact .inr (.inr ⟨_, _, hp⟩)
  | @concluded u result h hi =>
    cases purpose with
    | idle =>
      obtain ⟨e, -, -, -, -, hd⟩ := @conclude_idle cfg u result
      exact .inl (by simp [hd.exit])
    | limit lines limit =>
      obtain ⟨e, -, -, -, hd⟩ := @conclude_limit cfg u lines limit result
      exact .inl (by simp [hd.exit])
    | cleanup => exact .inr (.inl (conclude_cleanup _ _).2)

inductive Speaks (cfg : Options) (s : State) (l : Label) (t : State) : Prop
  | mute (h : Mute s t)
  | grants {window : ℕ} (hp : s.phase = .ready) (he : s.exit = none) (hw : cfg.window = some window)
      (ho : t.outstanding = window) (hlog : s.log <:+ t.log)
      (hc : commands t = commands s ++
        if s.outstanding < window then [.credit .stdout (window - s.outstanding)] else [])
      (hl : l = .pull)
  | accounts {payload : Bytes} {wait : ℤ} (hp : s.phase = .receiving wait)
      (hl : l = .message (.data .stdout payload))
      (ho : cfg.window.isSome = true → t.outstanding = s.outstanding - payload.length)
      (hlog : s.log <:+ t.log) (hc : commands t = commands s)
  | kills (hq : Quitting t) (hlog : s.log <:+ t.log) (hc : commands t = commands s ++ [.kill])

lemma killAndConfirm_speaks (h : Mute s u) (purpose : Purpose) :
    Speaks cfg s l (killAndConfirm cfg clock u purpose) := by
  have hkill := @Mute.killAndConfirm cfg clock u purpose
  refine .kills (killAndConfirm_waits u purpose).quitting
    ((h.log.trans (List.suffix_cons _ _)).trans hkill.log) ?_
  rw [hkill.commands, commands_add, h.commands]
  rfl

structure Accounts (cfg : Options) (s : State) (payload : Bytes) (t : State) : Prop where
  outstanding : cfg.window.isSome = true → t.outstanding = s.outstanding - payload.length
  log : s.log <:+ t.log
  commands : Stream.commands t = Stream.commands s

structure Kills (s t : State) : Prop where
  quitting : Quitting t
  log : s.log <:+ t.log
  commands : Stream.commands t = Stream.commands s ++ [.kill]

lemma handleStdout_speaks (s : State) (payload : Bytes) :
    Accounts cfg s payload (handleMessage cfg clock s (.data .stdout payload)) ∨
      Kills s (handleMessage cfg clock s (.data .stdout payload)) := by
  have hreset : Mute s (resetIdle cfg clock (s.add (.received .stdout payload))) :=
    (Mute.add s (e := .received .stdout payload) rfl).trans (Mute.resetIdle _)
  rw [handleMessage]
  generalize resetIdle cfg clock (s.add (.received .stdout payload)) = r at hreset
  have haccount : (accountStdout cfg r payload.length).log = r.log ∧ (cfg.window.isSome = true →
      (accountStdout cfg r payload.length).outstanding = r.outstanding - payload.length) := by
    rw [accountStdout]
    split
    · next hnone => exact ⟨rfl, fun hsome => by simp [hnone] at hsome⟩
    · exact ⟨rfl, fun _ => rfl⟩
  obtain ⟨halog, hout⟩ := haccount
  generalize accountStdout cfg r payload.length = a at halog hout
  have hlines := @Mute.consumeLines cfg a payload
  have hcommands : commands a = commands s := by
    rw [Stream.commands, halog]
    exact hreset.commands
  have hlog : s.log <:+ (consumeLines cfg a payload).2.2.log := (halog ▸ hreset.log).trans hlines.log
  rw [deliver]
  split
  · next limit _ =>
    right
    generalize hpurpose : Purpose.limit _ _ = purpose
    have hkill := @Mute.killAndConfirm cfg clock (consumeLines cfg a payload).2.2 purpose
    refine ⟨(killAndConfirm_waits _ purpose).quitting,
      (hlog.trans (List.suffix_cons _ _)).trans hkill.log, ?_⟩
    rw [hkill.commands, commands_add, hlines.commands, hcommands]
    rfl
  · left
    have hemit := Mute.emit (consumeLines cfg a payload).2.2 (consumeLines cfg a payload).1
    refine ⟨fun hsome => ?_, hlog.trans hemit.log, ?_⟩
    · rw [hemit.outstanding, hlines.outstanding, hout hsome, hreset.outstanding]
    · rw [hemit.commands, hlines.commands, hcommands]

lemma grantCredit_speaks (hp : s.phase = .ready) (he : s.exit = none) :
    Speaks cfg s .pull (receiveNext clock (grantCredit cfg clock s)) := by
  rw [grantCredit]
  split
  · exact .mute (.of_eq rfl rfl)
  · next window hw =>
    dsimp only
    generalize hr : (if s.outstanding < window then
      s.add (.send (.credit .stdout (window - s.outstanding))) else s) = r
    have hrlog : s.log <:+ r.log ∧ commands r = commands s ++
        if s.outstanding < window then [.credit .stdout (window - s.outstanding)] else [] := by
      rw [← hr]
      split
      · exact ⟨List.suffix_cons _ _, commands_add _ _⟩
      · exact ⟨List.suffix_refl _, (List.append_nil _).symm⟩
    have hset : Mute { r with outstanding := window }
        (receiveNext clock (resetIdle cfg clock { r with outstanding := window })) :=
      (Mute.resetIdle _).trans (.of_eq rfl rfl)
    refine .grants hp he hw hset.outstanding (hrlog.1.trans hset.log) ?_ rfl
    rw [hset.commands]
    exact hrlog.2

lemma handleMessage_speaks {wait : ℤ} (hp : s.phase = .receiving wait) (message : Message) :
    Speaks cfg s (.message message) (handleMessage cfg clock s message) := by
  cases message with
  | exitStatus =>
    exact .mute ((@Mute.finishTracking cfg s .unknown .transportLost none false).emits rfl rfl)
  | data tag payload =>
    cases tag with
    | stdout =>
      rcases @handleStdout_speaks cfg clock s payload with h | h
      · exact .accounts hp rfl h.outstanding h.log h.commands
      · exact .kills h.quitting h.log h.commands
    | stderr =>
      have hreset : Mute s (resetIdle cfg clock (s.add (.received .stderr payload))) :=
        (Mute.add s (e := .received .stderr payload) rfl).trans (Mute.resetIdle _)
      rw [handleMessage]
      generalize resetIdle cfg clock (s.add (.received .stderr payload)) = r at hreset
      rw [consumeStderr]
      split
      · exact .mute (hreset.emits rfl rfl)
      · next maxStderr _ =>
        dsimp only
        generalize hk : (if cfg.mergeStderr then consumeLines cfg _ _ else _) = k
        have hkeep : Mute s k.2.2 := by
          rw [← hk]
          split
          · exact hreset.trans (Session.Mute.trans (t := { r with stderrBytes := r.stderrBytes +
              (payload.take (maxStderr - r.stderrBytes)).length }) (.of_eq rfl rfl)
              (Mute.consumeLines _ _))
          · exact hreset.trans (.of_eq rfl rfl)
        split
        · exact killAndConfirm_speaks hkeep _
        · split
          · exact killAndConfirm_speaks hkeep _
          · exact .mute (hkeep.trans (Mute.emit _ _))
    | spawned => exact .mute ((Mute.recordIdentity s payload).trans (Mute.emit _ _))
    | tracked => exact .mute ((Mute.tracking s _ _).trans (.of_eq rfl rfl))
    | exit =>
      exact .mute ((@Mute.finishTracking cfg s (s.tracking.report (cfg.json payload)).scope
        (Tracking.confirmation (s.tracking.report (cfg.json payload)))
        (s.tracking.report (cfg.json payload)).contained
        (s.tracking.report (cfg.json payload)).trackedGroupsTruncated).emits rfl rfl)
    | error =>
      exact .mute ((@Mute.finishTracking cfg s .unknown .notStarted none false).emits rfl rfl)
    | other => exact .mute (Mute.emit s [])

lemma step_speaks (h : step cfg clock s l = some t) : Speaks cfg s l t := by
  rw [step.eq_def] at h
  split at h
  · next hp =>
    obtain rfl := Option.some.inj h
    rw [next]
    split
    · next he => exact grantCredit_speaks hp he
    · exact .mute (.of_eq rfl rfl)
    · exact .mute (.of_eq rfl rfl)
  · obtain rfl := Option.some.inj h
    rw [cleanup]
    split
    · exact killAndConfirm_speaks (.refl s) _
    · exact .mute (.of_eq rfl rfl)
  · next hp =>
    obtain rfl := Option.some.inj h
    exact handleMessage_speaks hp _
  · split at h
    · obtain rfl := Option.some.inj h
      exact .mute (.of_eq rfl rfl)
    · obtain rfl := Option.some.inj h
      by_cases hi : IdleFirst s
      · rw [timeoutError_idle hi]
        exact killAndConfirm_speaks (Mute.add s rfl) _
      · rw [timeoutError_backstop hi]
        exact .mute (Mute.emits ((Mute.add s (e := .timeout) rfl).trans
          (@Mute.finishTracking cfg _ .unknown .timeout none false)) rfl rfl)
  · obtain rfl := Option.some.inj h
    exact .mute (Mute.awaitMessage s _ _ _)
  · obtain rfl := Option.some.inj h
    exact .mute (Mute.doAwaitExit s _ _)
  · cases h

lemma Speaks.log (h : Speaks cfg s l t) : s.log <:+ t.log := by
  cases h with
  | mute h => exact h.log
  | grants _ _ _ _ hlog => exact hlog
  | accounts _ _ _ hlog => exact hlog
  | kills _ hlog => exact hlog

lemma Speaks.commands (h : Speaks cfg s l t) : commands s <+: commands t := by
  cases h with
  | mute h => rw [h.commands]
  | grants _ _ _ _ _ hc => exact hc ▸ List.prefix_append _ _
  | accounts _ _ _ _ hc => rw [hc]
  | kills _ _ hc => exact hc ▸ List.prefix_append _ _

/-- What a stream takes for output; a nested wait discards what it receives. -/
def heardBy (s : State) (l : Label) : List (Pipe × Bytes) :=
  match s.phase with
  | .receiving _ => (l.data?.bind Session.chunk?).toList
  | _ => []

def Unheard (s t : State) : Prop :=
  ∀ pipe, handled pipe t.log = handled pipe s.log

namespace Unheard

lemma of_log (h : t.log = s.log) : Unheard s t := by
  intro pipe
  rw [h]

lemma trans (h : Unheard s t) (k : Unheard t u) : Unheard s u :=
  fun pipe => (k pipe).trans (h pipe)

lemma aside (h : Aside s t) : Unheard s t := by
  intro pipe
  obtain ⟨es, hes, hlog⟩ := h.log
  rw [hlog]
  exact (@aside_handled 0 s.log es hes pipe).1

lemma emit (s : State) (lines : List Bytes) : Unheard s (emit s lines) :=
  fun _ => rfl

lemma decides {exit : Exit} {final : List Bytes} (h : Decides s t exit final) : Unheard s t := by
  intro pipe
  obtain ⟨es, hes, hlog⟩ := h.log
  rw [hlog]
  exact (@aside_handled 0 s.log es hes pipe).1

lemma waits {purpose : Purpose} (h : Waits cfg purpose s t) : Unheard s t := by
  cases h with
  | waiting deadline h hi hp => exact aside h
  | @concluded u result h hi =>
    refine (aside h).trans ?_
    cases purpose with
    | idle =>
      obtain ⟨e, -, -, -, -, hd⟩ := @conclude_idle cfg u result
      exact decides hd
    | limit lines limit =>
      obtain ⟨e, -, -, -, hd⟩ := @conclude_limit cfg u lines limit result
      exact decides hd
    | cleanup => exact aside (conclude_cleanup u result).1

lemma deliver (h : Unheard s u) (payload : Bytes) :
    Unheard s (deliver cfg clock (consumeLines cfg u payload)) := by
  rcases @consumeLines_cases cfg u payload with hc | ⟨lines, limit, hc⟩
  · rw [hc]
    exact h.trans (fun _ => rfl)
  · rw [hc]
    exact h.trans (waits (killAndConfirm_waits _ _))

lemma consumeStderr (s : State) (payload : Bytes) :
    Unheard s (consumeStderr cfg clock s payload) := by
  rw [Stream.consumeStderr]
  split
  · exact fun _ => rfl
  · next maxStderr _ =>
    dsimp only
    generalize hk : (if cfg.mergeStderr then consumeLines cfg _ _ else _) = k
    have hkeep : Unheard s k.2.2 := by
      rw [← hk]
      split
      · rcases @consumeLines_cases cfg { s with stderrBytes := s.stderrBytes +
          (payload.take (maxStderr - s.stderrBytes)).length }
            (payload.take (maxStderr - s.stderrBytes)) with hc | ⟨lines, limit, hc⟩
        · rw [hc]
          exact of_log rfl
        · rw [hc]
          exact of_log rfl
      · exact of_log rfl
    split
    · exact hkeep.trans (waits (killAndConfirm_waits _ _))
    · split
      · exact hkeep.trans (waits (killAndConfirm_waits _ _))
      · exact hkeep.trans (emit _ _)

end Unheard

lemma handled_add (pipe q : Pipe) (payload : Bytes) (log : List Effect) :
    handled pipe (.received q payload :: log) =
      handled pipe log ++ Native.Supervisor.carried pipe [(q, payload)] := by
  by_cases h : q = pipe <;> simp [handled, Native.Supervisor.carried, h]

lemma handleMessage_hears (s : State) (message : Message) (pipe : Pipe) :
    handled pipe (handleMessage cfg clock s message).log = handled pipe s.log ++
      Native.Supervisor.carried pipe ((Label.message message).data?.bind Session.chunk?).toList := by
  have silent : ∀ {t : State}, Unheard s t →
      handled pipe t.log = handled pipe s.log ++ Native.Supervisor.carried pipe [] := by
    intro t h
    rw [h pipe]
    exact (List.append_nil _).symm
  cases message with
  | exitStatus =>
    obtain ⟨e, -, hd⟩ := @handleExitStatus_decides cfg s
    exact silent (.decides hd)
  | data tag payload =>
    cases tag with
    | stdout =>
      have hreset : Unheard (s.add (.received .stdout payload))
          (resetIdle cfg clock (s.add (.received .stdout payload))) :=
        .of_log (@resetIdle_frame cfg clock _).2.2.2.2
      have haccount : ∀ r : State, Unheard r (accountStdout cfg r payload.length) := by
        intro r
        obtain ⟨outstanding, hout⟩ := @accountStdout_frame cfg r payload.length
        rw [hout]
        exact .of_log rfl
      rw [handleMessage, (hreset.trans (haccount _)).deliver payload pipe]
      exact handled_add ..
    | stderr =>
      have hreset : Unheard (s.add (.received .stderr payload))
          (resetIdle cfg clock (s.add (.received .stderr payload))) :=
        .of_log (@resetIdle_frame cfg clock _).2.2.2.2
      rw [handleMessage, hreset.trans (.consumeStderr _ payload) pipe]
      exact handled_add ..
    | spawned => exact silent ((Unheard.aside (.recordIdentity s payload)).trans (.emit _ _))
    | tracked =>
      obtain ⟨hr, -⟩ := @receiveNext_aside clock (s.recordTracked cfg payload)
      exact silent (.aside (Aside.trans (.tracking s _ _) hr))
    | exit =>
      obtain ⟨exit, hd, -⟩ := @handleExit_decides cfg s payload
      exact silent (.decides hd)
    | error =>
      obtain ⟨e, -, hd⟩ := @handleError_decides cfg s payload
      exact silent (.decides hd)
    | other => exact silent (.emit s [])

lemma step_hears (h : step cfg clock s l = some t) (pipe : Pipe) :
    handled pipe t.log = handled pipe s.log ++ Native.Supervisor.carried pipe (heardBy s l) := by
  have silent : Unheard s t → heardBy s l = [] → handled pipe t.log =
      handled pipe s.log ++ Native.Supervisor.carried pipe (heardBy s l) := by
    intro hu hl
    rw [hl, hu pipe]
    exact (List.append_nil _).symm
  by_cases hm : ∃ wait message, s.phase = .receiving wait ∧ l = .message message
  · obtain ⟨wait, message, hp, rfl⟩ := hm
    rw [Stream.step.eq_def, hp] at h
    obtain rfl := Option.some.inj h
    rw [heardBy, hp]
    exact handleMessage_hears s message pipe
  · have htake : ∀ wait message, s.phase = .receiving wait → l = .message message → False :=
      fun wait message hp hl => hm ⟨wait, message, hp, hl⟩
    cases step_turn h with
    | asks hp he ha wait hw => exact silent (.aside ha) (by rw [heardBy, hp])
    | halts hp | raises hp | abandons hp => exact silent (.of_log rfl) (by rw [heardBy, hp])
    | leaves hp he hw => exact silent (.waits hw) (by rw [heardBy, hp])
    | rewaits hp ha wait' hw => exact silent (.aside ha) (by rw [heardBy, hp]; rfl)
    | idles hp hlong hi hw =>
      exact silent (.trans (t := s.add .timeout) (fun _ => rfl) (.waits hw)) (by rw [heardBy, hp]; rfl)
    | stops hp hlong hi e hl ht hn ho hd =>
      exact silent (.trans (t := s.add .timeout) (fun _ => rfl) (.decides hd)) (by rw [heardBy, hp]; rfl)
    | notes hp | takes hp | exceeds hp | exits hp | fails hp => exact (htake _ _ hp rfl).elim
    | awaits hp hne hw => exact silent (.waits hw) (by rw [heardBy, hp])
    | reports hp payload =>
      exact silent (.waits (.concluded _ (.refl s) rfl)) (by rw [heardBy, hp])

lemma Quitting.step (h : Quitting s) (hw : (∃ wait, s.phase = .receiving wait) → s.exit = none)
    (hs : step cfg clock s l = some t) : Quitting t := by
  have hreceiving : ∀ wait, s.phase ≠ .receiving wait := by
    intro wait hp
    rcases h with he | ha | ⟨purpose, deadline, ha⟩
    · exact he (hw ⟨wait, hp⟩)
    · cases hp.symm.trans ha
    · cases hp.symm.trans ha
  cases step_turn hs with
  | asks hp he =>
    rcases h with hx | ha | ⟨purpose, deadline, ha⟩
    · exact absurd he hx
    · cases hp.symm.trans ha
    · cases hp.symm.trans ha
  | halts hp he => exact .inl (by simp [he])
  | raises hp e he => exact .inl (by simp [he])
  | leaves hp he hw => exact hw.quitting
  | abandons hp exit he => exact .inr (.inl rfl)
  | rewaits hp | idles hp | stops hp | notes hp | takes hp | exceeds hp | exits hp | fails hp =>
    exact absurd hp (hreceiving _)
  | awaits hp hne hw => exact hw.quitting
  | reports hp payload => exact @Waits.quitting cfg _ _ _ (.concluded _ (.refl s) rfl)

structure Mannered (maxStderr : ℕ) (s : State) : Prop where
  killed : .kill ∈ commands s → Quitting s
  granted : Session.granted .stderr (commands s) = maxStderr + 1
  grant : ∀ bytes, .credit .stderr bytes ∈ commands s → bytes = maxStderr + 1

lemma Mannered.step {maxStderr : ℕ} (h : Mannered maxStderr s)
    (hw : (∃ wait, s.phase = .receiving wait) → s.exit = none)
    (hs : step cfg clock s l = some t) : Mannered maxStderr t := by
  have same : commands t = commands s → Mannered maxStderr t := fun hc =>
    ⟨fun hk => (h.killed (hc ▸ hk)).step hw hs, hc ▸ h.granted, hc ▸ h.grant⟩
  have more : ∀ command, commands t = commands s ++ [command] →
      (∀ bytes, command ≠ .credit .stderr bytes) → (command = .kill → Quitting t) →
      Mannered maxStderr t := by
    intro command hc hne hq
    refine ⟨fun hk => ?_, ?_, fun bytes hb => ?_⟩
    · rw [hc] at hk
      rcases List.mem_append.mp hk with hk | hk
      · exact (h.killed hk).step hw hs
      · exact hq (List.mem_singleton.mp hk).symm
    · rw [hc, Session.granted_append, h.granted]
      cases command with
      | credit pipe bytes =>
        cases pipe with
        | stdout => rw [Session.granted_other Pipe.noConfusion]
        | stderr => exact absurd rfl (hne bytes)
      | stdin | eof | kill => rfl
    · rw [hc] at hb
      rcases List.mem_append.mp hb with hb | hb
      · exact h.grant bytes hb
      · exact absurd (List.mem_singleton.mp hb).symm (hne bytes)
  cases step_speaks hs with
  | mute hm => exact same hm.commands
  | @grants window hp he hwin ho hlog hc =>
    split at hc
    · exact more _ hc (by simp) (by simp)
    · exact same (hc.trans (List.append_nil _))
  | accounts hp hl ho hlog hc => exact same hc
  | kills hq hlog hc => exact more _ hc (by simp) (fun _ => hq)

lemma start_mannered {maxStderr : ℕ} (hmax : cfg.maxStderrBytes = some maxStderr)
    (hfits : maxStderr + 1 ≤ Native.u64Max) (timeoutMs reads : ℕ) :
    Mannered maxStderr (start cfg clock timeoutMs reads) := by
  have hc : commands (start cfg clock timeoutMs reads) = [.eof] ++ [.credit .stderr (maxStderr + 1)] := by
    simp [commands, start, hmax, Effect.command?]
  refine ⟨fun hk => ?_, ?_, fun bytes hb => ?_⟩
  · rw [hc] at hk
    simp at hk
  · rw [hc, Session.granted_append, Session.granted_credit .stderr hfits]
    exact Nat.zero_add _
  · rw [hc] at hb
    simpa using hb

lemma heardBy_eq (hq : ¬Quitting s) (hs : step cfg clock s l = some t) :
    heardBy s l = (l.data?.bind Session.chunk?).toList := by
  cases hp : s.phase with
  | receiving wait => rw [heardBy, hp]
  | ready =>
    rw [heardBy, hp]
    cases l with
    | message message =>
      rw [Stream.step.eq_def, hp] at hs
      cases hs
    | pull | expire | halt => rfl
  | awaiting purpose deadline => exact absurd (.inr (.inr ⟨purpose, deadline, hp⟩)) hq
  | abandoned => exact absurd (.inr (.inl hp)) hq
  | halted | raised =>
    rw [Stream.step.eq_def, hp] at hs
    cases hs

structure Listening (labels : List Label) (s : State) : Prop where
  heard : ∀ pipe, handled pipe s.log <+:
    Native.Supervisor.carried pipe ((labels.filterMap Label.data?).filterMap Session.chunk?)
  whole : ¬Quitting s → ∀ pipe, handled pipe s.log =
    Native.Supervisor.carried pipe ((labels.filterMap Label.data?).filterMap Session.chunk?)

lemma Listening.step (h : Listening labels s)
    (hw : (∃ wait, s.phase = .receiving wait) → s.exit = none)
    (hs : step cfg clock s l = some t) : Listening (labels ++ [l]) t := by
  have hgrow : ∀ pipe, Native.Supervisor.carried pipe
      (((labels ++ [l]).filterMap Label.data?).filterMap Session.chunk?) =
      Native.Supervisor.carried pipe ((labels.filterMap Label.data?).filterMap Session.chunk?) ++
        Native.Supervisor.carried pipe (l.data?.bind Session.chunk?).toList := by
    intro pipe
    rw [← Native.Supervisor.carried_append, List.filterMap_filterMap, List.filterMap_filterMap,
      Link.filterMap_snoc]
  have hall : ¬Quitting s → ∀ pipe, handled pipe t.log = Native.Supervisor.carried pipe
      (((labels ++ [l]).filterMap Label.data?).filterMap Session.chunk?) := by
    intro hq pipe
    rw [step_hears hs pipe, heardBy_eq hq hs, h.whole hq pipe, hgrow]
  refine ⟨fun pipe => ?_, fun hq => hall fun hquit => hq (hquit.step hw hs)⟩
  by_cases hq : Quitting s
  · have hnone : heardBy s l = [] := by
      rw [heardBy]
      split
      · next wait hp =>
        rcases hq with he | ha | ⟨purpose, deadline, ha⟩
        · exact absurd (hw ⟨wait, hp⟩) he
        · cases hp.symm.trans ha
        · cases hp.symm.trans ha
      · rfl
    rw [step_hears hs pipe, hnone, hgrow]
    exact (List.append_nil (handled pipe s.log)).symm ▸
      (h.heard pipe).trans (List.prefix_append _ _)
  · rw [hall hq pipe]

lemma start_listening (timeoutMs reads : ℕ) :
    Listening [] (start cfg clock timeoutMs reads) := by
  have hempty : ∀ pipe, handled pipe (start cfg clock timeoutMs reads).log = [] :=
    start_handled timeoutMs reads
  exact ⟨fun pipe => hempty pipe ▸ List.nil_prefix, fun _ pipe => hempty pipe⟩

structure Bounded (cfg : Options) (maxStderr : ℕ) (labels : List Label) (s : State) : Prop where
  framed : Framed cfg s
  capped : Capped cfg maxStderr s
  mannered : Mannered maxStderr s
  listening : Listening labels s

lemma run_bounded {maxStderr : ℕ} (hmax : cfg.maxStderrBytes = some maxStderr)
    (hfits : maxStderr + 1 ≤ Native.u64Max) {timeoutMs reads : ℕ}
    (h : Transition.Run (fun s l t => step cfg clock s l = some t)
      (start cfg clock timeoutMs reads) labels s) : Bounded cfg maxStderr labels s := by
  refine h.history (I := Bounded cfg maxStderr) ?_ ⟨start_framed timeoutMs reads,
    start_capped timeoutMs reads, start_mannered hmax hfits timeoutMs reads,
    start_listening timeoutMs reads⟩
  intro labels s l t hb hs
  have hw : (∃ wait, s.phase = .receiving wait) → s.exit = none :=
    fun hp => hb.capped.waiting (.inl hp)
  exact ⟨hb.framed.step hs, hb.capped.step hmax hb.framed hs, hb.mannered.step hw hs,
    hb.listening.step hw hs⟩

def client (cfg : Options) (clock : ℕ → Instant) : Session.Client State Label where
  step := step cfg clock
  hears := Label.data?
  commands := commands
  grows h := (step_speaks h).commands

end Forcola.Beam.Stream
