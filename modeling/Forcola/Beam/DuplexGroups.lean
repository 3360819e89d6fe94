import Forcola.Beam.DuplexTerminal
import Forcola.Beam.GroupHistory

/-! The tracked groups of a duplex session: its terminals, its table and its observer. -/

namespace Forcola.Beam.Duplex

open Library
open Native (Bytes Pipe ProcessIdentity)
open Shim (Scope Tag)

def Entry.told : Entry → Option TrackingEvent
  | .did (.observer event) => some event
  | _ => none

def Entry.shown : Entry → Option Terminal
  | .did (.recvReply _ (.done terminal)) | .did (.published terminal) | .did (.recipient terminal) =>
    some terminal
  | _ => none

def State.diary (s : State) : Diary :=
  ⟨s.tracking, s.log.filterMap Entry.told⟩

def Label.frame : Label → Option (Tag × Bytes)
  | .message (.port (.data tag payload)) _ | .await (.data tag payload) => some (tag, payload)
  | _ => none

def heard (cfg : Options) (labels : List Label) : List (Option Json) :=
  labels.filterMap fun l =>
    match l.frame with
    | some (.tracked, payload) => some (cfg.json payload)
    | _ => none

def Shows (s : State) (terminal : Terminal) : Prop :=
  (∃ ended, s.exit = some ended ∧ ended.terminal = terminal) ∨ s.phase = .closing terminal ∨
    (∃ caller, s.farewell = some (caller, .done terminal)) ∨
    (∃ table, s.table = some table ∧ table.terminal = some terminal) ∨
    terminal ∈ s.log.filterMap Entry.shown

def Phase.closed : Phase → Bool
  | .closing _ | .published | .stopped => true
  | _ => false

def Phase.listens : Phase → Bool
  | .running | .stopping | .awaiting => true
  | _ => false

/-- No TRACKED and no second EXIT follows the end of the child. -/
def Orderly (s : State) (l : Label) : Prop :=
  s.exit.isSome → ∀ payload, l.frame ≠ some (.tracked, payload) ∧ l.frame ≠ some (.exit, payload)

structure Chronicled (cfg : Options) (labels : List Label) (s : State) : Prop where
  going : s.tracking.finished = false → Open cfg.observer (heard cfg labels) s.diary ∧
    s.exit = none ∧ s.phase.closed = false ∧
    ∀ l ∈ labels, ∀ payload, l.frame ≠ some (.exit, payload)
  past : s.tracking.finished = true → Closed cfg.observer (heard cfg labels) s.diary
  decided : s.tracking.finished = true → s.phase.listens = true → s.exit.isSome
  shown : ∀ terminal, Shows s terminal → s.tracking.finished = true ∧
    terminal.trackedGroups = leaders (heard cfg labels) ∧
    terminal.trackedGroupsTruncated = s.tracking.truncated
  explained : s.tracking.finished = true → ∀ l ∈ labels, ∀ payload,
    l.frame = some (.exit, payload) →
      Explained (heard cfg labels) (Shim.decodeMap (cfg.json payload)) s.tracking
  stored : ∀ table, s.table = some table → table.trackedGroups = leaders (heard cfg labels)

structure Quiet (s t : State) : Prop where
  diary : t.diary = s.diary
  groups : ∀ table, t.table = some table →
    ∃ before, s.table = some before ∧ before.trackedGroups = table.trackedGroups
  exit : t.exit = s.exit
  closed : t.phase.closed = true → s.phase.closed = true
  shows : ∀ terminal, Shows t terminal → Shows s terminal

variable {cfg : Options} {s t u : State} {l : Label} {labels : List Label} {payload : Bytes}

namespace Quiet

lemma refl (s : State) : Quiet s s :=
  ⟨rfl, fun table h => ⟨table, h, rfl⟩, rfl, id, fun _ => id⟩

lemma trans (h : Quiet s t) (k : Quiet t u) : Quiet s u := by
  refine ⟨k.diary.trans h.diary, fun table htable => ?_, k.exit.trans h.exit, h.closed ∘ k.closed,
    fun terminal => h.shows terminal ∘ k.shows terminal⟩
  obtain ⟨between, hbetween, heq⟩ := k.groups table htable
  obtain ⟨before, hbefore, heq'⟩ := h.groups between hbetween
  exact ⟨before, hbefore, heq'.trans heq⟩

lemma log (entries : List Entry) (htracking : t.tracking = s.tracking) (htable : t.table = s.table)
    (hexit : t.exit = s.exit) (hphase : t.phase = s.phase) (hfarewell : t.farewell = s.farewell)
    (hlog : t.log = s.log ++ entries)
    (h : ∀ e ∈ entries, e.told = none ∧ e.shown = none) : Quiet s t := by
  have htold : entries.filterMap Entry.told = [] :=
    List.filterMap_eq_nil_iff.mpr fun e he => (h e he).1
  have hshown : entries.filterMap Entry.shown = [] :=
    List.filterMap_eq_nil_iff.mpr fun e he => (h e he).2
  refine ⟨?_, fun table ht => ⟨table, htable.symm.trans ht, rfl⟩, hexit, ?_, fun terminal => ?_⟩
  · rw [State.diary, State.diary, htracking, hlog, List.filterMap_append, htold, List.append_nil]
  · rw [hphase]
    exact id
  · rw [Shows, Shows, hexit, hphase, hfarewell, htable, hlog, List.filterMap_append, hshown,
      List.append_nil]
    exact id

lemma same (htracking : t.tracking = s.tracking) (htable : t.table = s.table)
    (hexit : t.exit = s.exit) (hphase : t.phase = s.phase) (hfarewell : t.farewell = s.farewell)
    (hlog : t.log = s.log) : Quiet s t :=
  log [] htracking htable hexit hphase hfarewell (by rw [hlog, List.append_nil]) (by simp)

lemma tell (s : State) {effects : List Effect}
    (h : ∀ e ∈ effects, (Entry.did e).told = none ∧ (Entry.did e).shown = none) :
    Quiet s (s.tell effects) := by
  refine log (effects.map .did) rfl rfl rfl rfl rfl rfl fun e he => ?_
  obtain ⟨effect, hin, rfl⟩ := List.mem_map.mp he
  exact h effect hin

lemma goto (s : State) {phase : Phase} (h : phase.closed = false) : Quiet s { s with phase := phase } := by
  refine ⟨rfl, fun table ht => ⟨table, ht, rfl⟩, rfl, ?_, fun terminal hshows => ?_⟩
  · intro hclosed
    cases h.symm.trans hclosed
  · rcases hshows with hshows | hshows | hshows
    · exact .inl hshows
    · have hphase : phase = .closing terminal := hshows
      rw [hphase] at h
      cases h
    · exact .inr (.inr hshows)

lemma stop (s : State) : Quiet s s.stop :=
  goto s rfl

lemma failPending (s : State) (reply : SendReply) : Quiet s (s.failPending reply) := by
  refine trans (tell s fun e he => ?_) (same rfl rfl rfl rfl rfl rfl)
  obtain ⟨entry, -, rfl⟩ := List.mem_map.mp he
  exact ⟨rfl, rfl⟩

lemma enqueueInput (s : State) (caller : Caller) (frame : InputFrame) :
    Quiet s (enqueueInput s caller frame) :=
  same rfl rfl rfl rfl rfl rfl

lemma submitInput (s : State) (caller : Caller) (frame : InputFrame) (answer : PortAnswer) :
    Quiet s (submitInput s caller frame answer) := by
  rw [Duplex.submitInput.eq_def]
  split
  · cases answer with
    | ok => exact tell s (by simp [Entry.told, Entry.shown])
    | closed => exact tell s (by simp [Entry.told, Entry.shown])
    | busy => exact enqueueInput s caller frame
  · exact enqueueInput s caller frame

lemma flushInput (s : State) (pending : List Input) (answers : List PortAnswer) :
    Quiet s (flushInput s pending answers) := by
  induction pending generalizing s answers with
  | nil => exact same rfl rfl rfl rfl rfl rfl
  | cons entry rest ih =>
    cases answers with
    | nil => exact same rfl rfl rfl rfl rfl rfl
    | cons answer answers =>
      cases answer with
      | ok => exact trans (tell s (by simp [Entry.told, Entry.shown])) (ih _ answers)
      | closed =>
        exact trans (t := { s with pending := entry :: rest }) (same rfl rfl rfl rfl rfl rfl)
          (failPending _ .closed)
      | busy => exact same rfl rfl rfl rfl rfl rfl

lemma expireInput (s : State) (ref : Ref) : Quiet s (expireInput s ref) := by
  rw [Duplex.expireInput]
  split
  · exact refl s
  · next entry _ _ =>
    have htold : Quiet s (s.tell [.sendReply entry.caller .busy]) :=
      tell s (by simp [Entry.told, Entry.shown])
    split
    · exact htold.trans (same rfl rfl rfl rfl rfl rfl)
    · exact htold.trans (same rfl rfl rfl rfl rfl rfl)

lemma grantStreamCredit (s : State) (stream : Pipe) : Quiet s (grantStreamCredit cfg s stream) := by
  rw [Duplex.grantStreamCredit]
  split
  · exact refl s
  · split
    · exact trans (tell s (by simp [Entry.told, Entry.shown])) (same rfl rfl rfl rfl rfl rfl)
    · exact refl s

lemma grantPullCredit (s : State) : Quiet s (grantPullCredit cfg s) :=
  trans (grantStreamCredit s .stdout) (grantStreamCredit _ .stderr)

lemma replyPullWaiter (s : State) : Quiet s (replyPullWaiter cfg s) := by
  rw [Duplex.replyPullWaiter.eq_def]
  split
  · exact refl s
  · exact refl s
  · next waiter _ _ =>
    split
    · exact trans (tell s (by simp [Entry.told, Entry.shown])) (same rfl rfl rfl rfl rfl rfl)
    · next ended _ hended =>
      refine trans (t := s.tell [.recvReply waiter.caller (.done ended.terminal)]) ?_
        (same rfl rfl rfl rfl rfl rfl)
      refine ⟨?_, fun table h => ⟨table, h, rfl⟩, rfl, id, fun terminal hshows => ?_⟩
      · simp [State.diary, State.tell, Entry.told]
      · rcases hshows with hshows | hshows | hshows | hshows | hshows
        · exact .inl hshows
        · exact .inr (.inl hshows)
        · exact .inr (.inr (.inl hshows))
        · exact .inr (.inr (.inr (.inl hshows)))
        · rw [State.tell, List.filterMap_append, List.mem_append] at hshows
          rcases hshows with hshows | hshows
          · exact .inr (.inr (.inr (.inr hshows)))
          · have hlast : terminal = ended.terminal := by
              simpa [Entry.shown] using hshows
            exact .inl ⟨ended, hended, hlast.symm⟩
    · exact refl s

lemma emit (s : State) (stream : Pipe) (chunk : Bytes) : Quiet s (emit cfg s stream chunk) := by
  rw [Duplex.emit.eq_def]
  split
  · dsimp only
    split
    · exact same rfl rfl rfl rfl rfl rfl
    · rw [emitPullWithinTotal]
      dsimp only
      split
      · exact same rfl rfl rfl rfl rfl rfl
      · refine trans ?_ (replyPullWaiter _)
        exact same rfl rfl rfl rfl rfl rfl
  · refine trans (tell s fun e he => ?_) (same rfl rfl rfl rfl rfl rfl)
    obtain ⟨line, -, rfl⟩ := List.mem_map.mp he
    exact ⟨rfl, rfl⟩

lemma flushed (s : State) : Quiet s (s.tell (flushedMessages cfg s)) := by
  refine tell s fun e he => ?_
  obtain ⟨line, -, rfl⟩ := List.mem_map.mp he
  exact ⟨rfl, rfl⟩

lemma flushBuffers (s : State) : Quiet s (flushBuffers cfg s) := by
  rw [Duplex.flushBuffers]
  split
  · exact same rfl rfl rfl rfl rfl rfl
  · exact trans (flushed s) (same rfl rfl rfl rfl rfl rfl)

lemma notifyExit (s : State) (status : ExitStatus) : Quiet s (notifyExit cfg s status) := by
  rw [Duplex.notifyExit]
  split
  · exact refl s
  · exact tell s (by simp [Entry.told, Entry.shown])

lemma store (s : State) {f : TerminalTable → TerminalTable}
    (hgroups : ∀ table, (f table).trackedGroups = table.trackedGroups)
    (hterminal : ∀ table, (f table).terminal = table.terminal) : Quiet s (s.store f) := by
  refine ⟨rfl, fun table h => ?_, rfl, id, fun terminal hshows => ?_⟩
  · obtain ⟨before, hbefore, rfl⟩ := Option.map_eq_some_iff.mp h
    exact ⟨before, hbefore, (hgroups before).symm⟩
  · rcases hshows with hshows | hshows | hshows | ⟨table, htable, hshown⟩ | hshows
    · exact .inl hshows
    · exact .inr (.inl hshows)
    · exact .inr (.inr (.inl hshows))
    · obtain ⟨before, hbefore, rfl⟩ := Option.map_eq_some_iff.mp htable
      exact .inr (.inr (.inr (.inl ⟨before, hbefore, (hterminal before).symm.trans hshown⟩)))
    · exact .inr (.inr (.inr (.inr hshows)))

lemma recordIdentity (s : State) (payload : Bytes) : Quiet s (recordIdentity cfg s payload) := by
  rw [Duplex.recordIdentity]
  split
  · split
    · next identity _ =>
      refine trans (store s (f := ({ · with spawnIdentity := some identity }))
        (fun _ => rfl) fun _ => rfl) ?_
      exact trans (tell _ (by simp [Entry.told, Entry.shown])) (same rfl rfl rfl rfl rfl rfl)
    · exact refl s
  · exact refl s

lemma afterFrame (s : State) : Quiet s (afterFrame cfg s) := by
  rw [Duplex.afterFrame]
  split
  · exact stop s
  · split
    · exact refl s
    · split
      · exact refl s
      · exact stop s

lemma hear (s : State) {entry : Entry} (h : entry.told = none ∧ entry.shown = none) :
    Quiet s (s.hear entry) := by
  refine log [entry] rfl rfl rfl rfl rfl rfl fun e he => ?_
  obtain rfl := List.mem_singleton.mp he
  exact h

end Quiet

structure Records (cfg : Options) (s t : State) (payload : Bytes) : Prop where
  diary : t.diary = s.diary.record cfg.observer (cfg.json payload)
  groups : ∀ table, t.table = some table → ∃ before, s.table = some before ∧
    table.trackedGroups =
      before.trackedGroups ++ (s.tracking.record (cfg.json payload)).2.toList
  exit : t.exit = s.exit
  closed : t.phase.closed = true → s.phase.closed = true
  shows : ∀ terminal, Shows t terminal → Shows s terminal

structure Ends (cfg : Options) (s t : State) (truncated : Bool) : Prop where
  diary : ∃ scope confirmation contained,
    t.diary = s.diary.finish cfg.observer scope confirmation contained truncated
  groups : ∀ table, t.table = some table →
    ∃ before, s.table = some before ∧ before.trackedGroups = table.trackedGroups
  shows : ∀ terminal, Shows t terminal → Shows s terminal ∨
    terminal.trackedGroups = s.tracking.observed ∧
      terminal.trackedGroupsTruncated = (s.tracking.truncated || truncated)

lemma Quiet.records (h : Quiet s t) (k : Records cfg t u payload) : Records cfg s u payload := by
  have htracking : t.tracking = s.tracking := congrArg Diary.tracking h.diary
  refine ⟨?_, fun table htable => ?_, k.exit.trans h.exit, h.closed ∘ k.closed,
    fun terminal => h.shows terminal ∘ k.shows terminal⟩
  · rw [k.diary, h.diary]
  · obtain ⟨between, hbetween, heq⟩ := k.groups table htable
    obtain ⟨before, hbefore, heq'⟩ := h.groups between hbetween
    rw [htracking, ← heq'] at heq
    exact ⟨before, hbefore, heq⟩

lemma Records.quiet (h : Records cfg s t payload) (k : Quiet t u) : Records cfg s u payload := by
  refine ⟨k.diary.trans h.diary, fun table htable => ?_, k.exit.trans h.exit, h.closed ∘ k.closed,
    fun terminal => h.shows terminal ∘ k.shows terminal⟩
  obtain ⟨between, hbetween, heq⟩ := k.groups table htable
  obtain ⟨before, hbefore, heq'⟩ := h.groups between hbetween
  exact ⟨before, hbefore, heq.symm.trans heq'⟩

lemma Quiet.ends {truncated : Bool} (h : Quiet s t) (k : Ends cfg t u truncated) :
    Ends cfg s u truncated := by
  have htracking : t.tracking = s.tracking := congrArg Diary.tracking h.diary
  refine ⟨h.diary ▸ k.diary, fun table htable => ?_, fun terminal hshows => ?_⟩
  · obtain ⟨between, hbetween, heq⟩ := k.groups table htable
    obtain ⟨before, hbefore, heq'⟩ := h.groups between hbetween
    exact ⟨before, hbefore, heq'.trans heq⟩
  · rw [← htracking]
    exact (k.shows terminal hshows).imp_left (h.shows terminal)

lemma Ends.quiet {truncated : Bool} (h : Ends cfg s t truncated) (k : Quiet t u) :
    Ends cfg s u truncated := by
  obtain ⟨scope, confirmation, contained, hdiary⟩ := h.diary
  refine ⟨⟨scope, confirmation, contained, k.diary.trans hdiary⟩, fun table htable => ?_,
    fun terminal hshows => h.shows terminal (k.shows terminal hshows)⟩
  obtain ⟨between, hbetween, heq⟩ := k.groups table htable
  obtain ⟨before, hbefore, heq'⟩ := h.groups between hbetween
  exact ⟨before, hbefore, heq'.trans heq⟩

lemma Ends.exit {truncated : Bool} (h : Ends cfg s t truncated) {e : Ended}
    (hgroups : e.terminal.trackedGroups = s.tracking.observed)
    (hflag : e.terminal.trackedGroupsTruncated = (s.tracking.truncated || truncated)) :
    Ends cfg s { t with exit := some e } truncated := by
  refine ⟨h.diary, h.groups, fun terminal hshows => ?_⟩
  rcases hshows with ⟨ended, hended, rfl⟩ | hshows
  · obtain rfl := Option.some.inj hended
    exact .inr ⟨hgroups, hflag⟩
  · exact h.shows terminal (.inr hshows)

lemma Ends.closing {truncated : Bool} (h : Ends cfg s t truncated) {shown : Terminal}
    (hgroups : shown.trackedGroups = s.tracking.observed)
    (hflag : shown.trackedGroupsTruncated = (s.tracking.truncated || truncated)) :
    Ends cfg s { t with phase := .closing shown } truncated := by
  refine ⟨h.diary, h.groups, fun terminal hshows => ?_⟩
  rcases hshows with hshows | hshows | hshows
  · exact h.shows terminal (.inl hshows)
  · obtain rfl := Phase.closing.inj hshows
    exact .inr ⟨hgroups, hflag⟩
  · exact h.shows terminal (.inr (.inr hshows))

lemma told_events (events : List TrackingEvent) :
    ((events.map Effect.observer).map Entry.did).filterMap Entry.told = events ∧
      ((events.map Effect.observer).map Entry.did).filterMap Entry.shown = [] := by
  constructor
  · induction events with
    | nil => rfl
    | cons event events ih => simpa [Entry.told] using ih
  · induction events with
    | nil => rfl
    | cons event events ih => simp [Entry.shown]

lemma finishTracking_ends (s : State) (terminal : Terminal) :
    Ends cfg s (finishTracking cfg s terminal) terminal.trackedGroupsTruncated := by
  rw [finishTracking]
  obtain ⟨htold, hshown⟩ := told_events (s.tracking.finish terminal.scope terminal.confirmation
    terminal.contained terminal.trackedGroupsTruncated).2.toList
  split
  · next hobserver =>
    refine ⟨⟨terminal.scope, terminal.confirmation, terminal.contained, ?_⟩,
      fun table htable => ⟨table, htable, rfl⟩, fun shown hshows => .inl ?_⟩
    · rw [State.diary, State.tell, List.filterMap_append, htold, Diary.finish, hobserver]
      rfl
    · rw [Shows, State.tell, List.filterMap_append, hshown, List.append_nil] at hshows
      exact hshows
  · next hobserver =>
    refine ⟨⟨terminal.scope, terminal.confirmation, terminal.contained, ?_⟩,
      fun table htable => ⟨table, htable, rfl⟩, fun shown hshows => .inl hshows⟩
    rw [State.diary, Diary.finish, if_neg hobserver, List.append_nil]
    rfl

lemma report_word (henabled : s.tracking.enabled = true) (payload : Bytes) :
    (s.tracking.report (cfg.json payload)).trackedGroupsTruncated =
      (s.tracking.truncated || (s.tracking.report (cfg.json payload)).trackedGroupsTruncated) := by
  rw [Beam.report_truncated henabled, ← Bool.or_assoc, ← Bool.or_assoc, Bool.or_self]

lemma childExited_ends (henabled : s.tracking.enabled = true) (payload : Bytes) :
    Ends cfg s (childExited cfg s payload)
      (s.tracking.report (cfg.json payload)).trackedGroupsTruncated := by
  have hfinish := @finishTracking_ends cfg s
    (exitTerminal (s.tracking.report (cfg.json payload)) .childExit s.tracking)
  have hflushed := hfinish.quiet ((@Quiet.flushBuffers cfg _).trans
    (@Quiet.notifyExit cfg _ (reportStatus (s.tracking.report (cfg.json payload)))))
  have hexit := hflushed.exit (e := ⟨reportStatus (s.tracking.report (cfg.json payload)),
    exitTerminal (s.tracking.report (cfg.json payload)) .childExit s.tracking⟩) rfl
      (report_word henabled payload)
  exact hexit.quiet ((Quiet.failPending _ .closed).trans (Quiet.replyPullWaiter _))

lemma spawnFailed_ends (s : State) (payload : Bytes) :
    Ends cfg s (spawnFailed cfg s payload) false := by
  have hnotify := @Quiet.notifyExit cfg s
    (.spawnError (Shim.decodeError (cfg.json payload) cfg.structuredSpawnErrors))
  have hfinish := @finishTracking_ends cfg
    (notifyExit cfg s (.spawnError (Shim.decodeError (cfg.json payload) cfg.structuredSpawnErrors)))
    (spawnErrorTerminal (Shim.decodeError (cfg.json payload) cfg.structuredSpawnErrors))
  have hended := (hnotify.ends hfinish).exit (e := ⟨
    .spawnError (Shim.decodeError (cfg.json payload) cfg.structuredSpawnErrors), withGroups
      (spawnErrorTerminal (Shim.decodeError (cfg.json payload) cfg.structuredSpawnErrors))
      s.tracking⟩) rfl (Bool.or_comm false s.tracking.truncated)
  exact hended.quiet ((Quiet.failPending _ .closed).trans (Quiet.replyPullWaiter _))

lemma handleExitStatus_ends (s : State) : Ends cfg s (handleExitStatus cfg s) false := by
  have hnotify : Quiet s (notifyExit cfg (flushBuffers cfg s) .shimExited) :=
    (Quiet.flushBuffers s).trans (Quiet.notifyExit _ .shimExited)
  have hfinish := @finishTracking_ends cfg
    (notifyExit cfg (flushBuffers cfg s) .shimExited) shimLostTerminal
  have htracking : (notifyExit cfg (flushBuffers cfg s) .shimExited).tracking = s.tracking :=
    congrArg Diary.tracking hnotify.diary
  have hended := (hnotify.ends hfinish).exit (e := ⟨.shimExited, withGroups shimLostTerminal
    (notifyExit cfg (flushBuffers cfg s) .shimExited).tracking⟩)
      (congrArg Tracking.observed htracking)
      ((Bool.or_comm _ _).trans (congrArg (fun t : Tracking => t.truncated || false) htracking))
  have hreply := hended.quiet ((Quiet.failPending _ .closed).trans (@Quiet.replyPullWaiter cfg _))
  rw [handleExitStatus]
  split
  · exact hreply
  · exact hreply.quiet (Quiet.stop _)

lemma finishOutputEvidence_groups (terminal : Terminal) (s : State) :
    (finishOutputEvidence cfg terminal s).trackedGroups = terminal.trackedGroups ∧
      (finishOutputEvidence cfg terminal s).trackedGroupsTruncated =
        terminal.trackedGroupsTruncated := by
  rw [finishOutputEvidence]
  split
  · exact ⟨rfl, rfl⟩
  · split
    · split <;> exact ⟨rfl, rfl⟩
    · exact ⟨rfl, rfl⟩

lemma conclude_closing {s : State} (result : Shutdown)
    (hgroups : (shutdownTerminal result s.shutdownCause s.tracking).trackedGroups =
      s.tracking.observed)
    (hflag : (shutdownTerminal result s.shutdownCause s.tracking).trackedGroupsTruncated =
      (s.tracking.truncated ||
        (shutdownTerminal result s.shutdownCause s.tracking).trackedGroupsTruncated)) :
    Ends cfg s (conclude cfg s result)
      (shutdownTerminal result s.shutdownCause s.tracking).trackedGroupsTruncated := by
  obtain ⟨hshown, hword⟩ := @finishOutputEvidence_groups cfg
    (shutdownTerminal result s.shutdownCause s.tracking) s
  exact (finishTracking_ends s _).closing (hshown.trans hgroups) (hword.trans hflag)

lemma conclude_lost (s : State) {result : Shutdown} (h : ∀ report, result ≠ .exit report) :
    Ends cfg s (conclude cfg s result) s.tracking.truncated := by
  have hlost : ∀ terminal : Terminal, terminal.trackedGroupsTruncated = false →
      (withGroups terminal s.tracking).trackedGroupsTruncated = s.tracking.truncated := by
    intro terminal hterminal
    rw [withGroups, hterminal]
    exact Bool.false_or _
  cases result with
  | exit report => exact absurd rfl (h report)
  | spawnError reason =>
    have hends := @conclude_closing cfg s (.spawnError reason) rfl
    rw [shutdownTerminal, hlost _ rfl] at hends
    exact hends (Bool.or_self _).symm
  | timeout =>
    have hends := @conclude_closing cfg s .timeout rfl
    rw [shutdownTerminal, hlost _ rfl] at hends
    exact hends (Bool.or_self _).symm
  | transportLost =>
    have hends := @conclude_closing cfg s .transportLost rfl
    rw [shutdownTerminal, hlost _ rfl] at hends
    exact hends (Bool.or_self _).symm

lemma conclude_report (henabled : s.tracking.enabled = true) (payload : Bytes) :
    Ends cfg s (conclude cfg s (.exit (s.tracking.report (cfg.json payload))))
      (s.tracking.report (cfg.json payload)).trackedGroupsTruncated :=
  conclude_closing (.exit _) rfl (report_word henabled payload)

def announce (cfg : Options) (s : State) (identity : Option ProcessIdentity) : State :=
  match identity with
  | some identity =>
    (s.store fun table => { table with trackedGroups := table.trackedGroups ++ [identity] }).tell
      ((if cfg.observer then [Effect.observer (.tracked identity)] else []) ++
        [Effect.owner (.tracked identity)])
  | none => s

lemma announce_records (s : State) (payload : Bytes) :
    Records cfg s { announce cfg s (s.tracking.record (cfg.json payload)).2 with
      tracking := (s.tracking.record (cfg.json payload)).1 } payload := by
  cases hidentity : (s.tracking.record (cfg.json payload)).2 with
  | none =>
    refine ⟨?_, fun table h => ⟨table, h, ?_⟩, rfl, id, fun _ => id⟩
    · simp [State.diary, Diary.record, announce, hidentity]
    · rw [hidentity]
      exact (List.append_nil _).symm
  | some identity =>
    have htold : (((if cfg.observer then [Effect.observer (.tracked identity)] else []) ++
        [Effect.owner (.tracked identity)]).map Entry.did).filterMap Entry.told =
          if cfg.observer then [.tracked identity] else [] := by
      cases cfg.observer <;> rfl
    have hshown : (((if cfg.observer then [Effect.observer (.tracked identity)] else []) ++
        [Effect.owner (.tracked identity)]).map Entry.did).filterMap Entry.shown = [] := by
      cases cfg.observer <;> rfl
    refine ⟨?_, fun table h => ?_, rfl, id, fun terminal hshows => ?_⟩
    · rw [Diary.record]
      dsimp only [State.diary]
      rw [hidentity]
      simp only [announce, State.tell, State.store, List.filterMap_append, htold]
      rfl
    · obtain ⟨before, hbefore, rfl⟩ := Option.map_eq_some_iff.mp h
      refine ⟨before, hbefore, ?_⟩
      rw [hidentity]
      rfl
    · rcases hshows with hshows | hshows | hshows | ⟨table, htable, hterminal⟩ | hshows
      · exact .inl hshows
      · exact .inr (.inl hshows)
      · exact .inr (.inr (.inl hshows))
      · obtain ⟨before, hbefore, rfl⟩ := Option.map_eq_some_iff.mp htable
        exact .inr (.inr (.inr (.inl ⟨before, hbefore, hterminal⟩)))
      · simp only [announce, State.tell, State.store, List.filterMap_append, hshown,
          List.append_nil] at hshows
        exact .inr (.inr (.inr (.inr hshows)))

lemma recordTracked_records (s : State) (payload : Bytes) :
    Records cfg s (recordTracked cfg s payload) payload := by
  have h := @announce_records cfg s payload
  rw [recordTracked]
  split
  · exact h.quiet (Quiet.store _ (f := ({ · with trackedGroupsTruncated := true }))
      (fun _ => rfl) fun _ => rfl)
  · exact h

inductive Marks (cfg : Options) (s t : State) (l : Label) : Prop
  | quiet (hl : ∀ payload, l.frame ≠ some (.tracked, payload) ∧ l.frame ≠ some (.exit, payload))
      (h : Quiet s t) : Marks cfg s t l
  | records (payload : Bytes) (hl : l.frame = some (.tracked, payload))
      (h : Records cfg s t payload) : Marks cfg s t l
  | ends (truncated : Bool) (h : Ends cfg s t truncated)
      (hd : t.exit.isSome ∨ t.phase.listens = false)
      (hl : ∀ payload, l.frame ≠ some (.tracked, payload))
      (he : ∀ payload, l.frame = some (.exit, payload) →
        truncated = (s.tracking.report (cfg.json payload)).trackedGroupsTruncated)
      (hw : (∃ payload, l.frame = some (.exit, payload)) ∨ truncated = false ∨
        truncated = s.tracking.truncated ∨
        ∃ ended, s.exit = some ended ∧ truncated = ended.terminal.trackedGroupsTruncated) :
      Marks cfg s t l

lemma Marks.after (h : Quiet s t) (k : Marks cfg t u l) : Marks cfg s u l := by
  have htracking : t.tracking = s.tracking := congrArg Diary.tracking h.diary
  cases k with
  | quiet hl k => exact .quiet hl (h.trans k)
  | records payload hl k => exact .records payload hl (h.records k)
  | ends truncated k hd hl he hw =>
    rw [htracking] at he hw
    rw [h.exit] at hw
    exact .ends truncated (h.ends k) hd hl he hw

lemma Quiet.isSome {e : Ended} (h : Quiet s t) (he : s.exit = some e) :
    t.exit.isSome ∨ t.phase.listens = false :=
  .inl (Option.isSome_iff_exists.mpr ⟨e, h.exit.trans he⟩)

lemma childExited_sets (s : State) (payload : Bytes) :
    ∃ e, (childExited cfg s payload).exit = some e :=
  ⟨_, ((Quiet.failPending _ .closed).trans (Quiet.replyPullWaiter _)).exit⟩

lemma spawnFailed_exit (s : State) (payload : Bytes) :
    ∃ e, (spawnFailed cfg s payload).exit = some e :=
  ⟨_, ((Quiet.failPending _ .closed).trans (Quiet.replyPullWaiter _)).exit⟩

lemma handleExitStatus_exit (s : State) : ∃ e, (handleExitStatus cfg s).exit = some e := by
  rw [handleExitStatus]
  split
  · exact ⟨_, ((Quiet.failPending _ .closed).trans (Quiet.replyPullWaiter _)).exit⟩
  · exact ⟨_, ((Quiet.failPending _ .closed).trans (Quiet.replyPullWaiter _)).exit⟩

lemma handleData_marks (henabled : s.tracking.enabled = true) (tag : Tag) (payload : Bytes)
    (answers : List PortAnswer) :
    Marks cfg s (handleData cfg s tag payload) (.message (.port (.data tag payload)) answers) := by
  rw [handleData]
  cases tag with
  | stdout => exact .quiet (by simp [Label.frame]) ((Quiet.emit s _ _).trans (Quiet.afterFrame _))
  | stderr => exact .quiet (by simp [Label.frame]) ((Quiet.emit s _ _).trans (Quiet.afterFrame _))
  | spawned =>
    exact .quiet (by simp [Label.frame]) ((Quiet.recordIdentity s _).trans (Quiet.afterFrame _))
  | other => exact .quiet (by simp [Label.frame]) (Quiet.afterFrame s)
  | tracked =>
    exact .records payload rfl ((recordTracked_records s payload).quiet (Quiet.afterFrame _))
  | exit =>
    obtain ⟨e, hexit⟩ := @childExited_sets cfg s payload
    refine .ends _ ((childExited_ends henabled payload).quiet (Quiet.afterFrame _))
      ((Quiet.afterFrame _).isSome hexit) (by simp [Label.frame]) (fun payload' h => ?_)
      (.inl ⟨payload, rfl⟩)
    obtain rfl : payload = payload' := by simpa [Label.frame] using h
    rfl
  | error =>
    obtain ⟨e, hexit⟩ := @spawnFailed_exit cfg s payload
    exact .ends _ ((spawnFailed_ends s payload).quiet (Quiet.afterFrame _))
      ((Quiet.afterFrame _).isSome hexit) (by simp [Label.frame]) (by simp [Label.frame])
      (.inr (.inl rfl))

lemma handleRecv_quiet (s : State) (caller : Caller) : Quiet s (handleRecv cfg s caller) := by
  rw [handleRecv.eq_def]
  split
  · exact .tell s (by simp [Entry.told, Entry.shown])
  · exact .tell s (by simp [Entry.told, Entry.shown])
  · split
    · next exit line queue _ =>
      dsimp only
      split
      · refine ⟨rfl, fun table h => ⟨table, h, rfl⟩, rfl, fun h => (by cases h),
          fun terminal hshows => ?_⟩
        rcases hshows with hshows | hshows | ⟨_, hshows⟩ | hshows
        · exact .inl hshows
        · cases hshows
        · cases hshows
        · exact .inr (.inr (.inr hshows))
      · exact Quiet.trans (t := { s with queue := queue }) (.same rfl rfl rfl rfl rfl rfl)
          (.tell _ (by simp [Entry.told, Entry.shown]))
    · next ended _ hended =>
      refine ⟨rfl, fun table h => ⟨table, h, rfl⟩, rfl, fun h => (by cases h),
          fun terminal hshows => ?_⟩
      rcases hshows with hshows | hshows | ⟨_, hshows⟩ | hshows
      · exact .inl hshows
      · cases hshows
      · cases hshows
        exact .inl ⟨ended, hended, rfl⟩
      · exact .inr (.inr (.inr hshows))
    · refine Quiet.trans (t := { s with waiter := _, refs := s.refs + 1 }) ?_ (.grantPullCredit _)
      exact .same rfl rfl rfl rfl rfl rfl

lemma handleCall_quiet (s : State) (caller : Caller) (call : Call) (answer : PortAnswer) :
    Quiet s (handleCall cfg s caller call answer) := by
  rw [handleCall.eq_def]
  split
  · split
    · exact .tell s (by simp [Entry.told, Entry.shown])
    · exact .submitInput s _ _ _
  · split
    · exact .tell s (by simp [Entry.told, Entry.shown])
    · exact Quiet.trans (t := { s with stdinOpen := false }) (.same rfl rfl rfl rfl rfl rfl)
        (.submitInput _ _ _ _)
  · exact handleRecv_quiet s caller

lemma handleRecvTimeout_quiet (s : State) (ref : Ref) : Quiet s (handleRecvTimeout s ref) := by
  rw [handleRecvTimeout]
  split
  · split
    · exact Quiet.trans (.tell s (by simp [Entry.told, Entry.shown]))
        (.same rfl rfl rfl rfl rfl rfl)
    · exact .refl s
  · exact .refl s

lemma handle_marks (henabled : s.tracking.enabled = true) (message : Message)
    (answers : List PortAnswer) :
    Marks cfg s (handle cfg s message answers) (.message message answers) := by
  cases message with
  | call caller call => exact .quiet (by simp [Label.frame]) (handleCall_quiet s _ _ _)
  | port event =>
    cases event with
    | data tag payload => exact handleData_marks henabled tag payload answers
    | exitStatus =>
      obtain ⟨e, hexit⟩ := @handleExitStatus_exit cfg s
      exact .ends _ (handleExitStatus_ends s) ((Quiet.refl _).isSome hexit) (by simp [Label.frame])
        (by simp [Label.frame]) (.inr (.inl rfl))
  | ownerDown =>
    refine .quiet (by simp [Label.frame]) (Quiet.trans ?_ (Quiet.stop _))
    exact .same rfl rfl rfl rfl rfl rfl
  | recvTimeout ref => exact .quiet (by simp [Label.frame]) (handleRecvTimeout_quiet s ref)
  | flushInput =>
    refine .quiet (by simp [Label.frame]) (Quiet.trans ?_ (Quiet.flushInput _ s.pending answers))
    exact .same rfl rfl rfl rfl rfl rfl
  | sendTimeout ref => exact .quiet (by simp [Label.frame]) (Quiet.expireInput s ref)
  | stop => exact .quiet (by simp [Label.frame]) (Quiet.stop s)
  | other => exact .quiet (by simp [Label.frame]) (Quiet.refl s)

lemma awaitExit_marks (henabled : s.tracking.enabled = true) (event : PortEvent) :
    Marks cfg s (awaitExit cfg s event) (.await event) := by
  cases event with
  | exitStatus =>
    exact .ends _ (conclude_lost s (by simp)) (.inr rfl) (by simp [Label.frame])
      (by simp [Label.frame]) (.inr (.inr (.inl rfl)))
  | data tag payload =>
    cases tag with
    | exit =>
      refine .ends _ (conclude_report henabled payload) (.inr rfl) (by simp [Label.frame])
        (fun payload' h => ?_) (.inl ⟨payload, rfl⟩)
      obtain rfl : payload = payload' := by simpa [Label.frame] using h
      rfl
    | error =>
      exact .ends _ (conclude_lost s (by simp)) (.inr rfl) (by simp [Label.frame])
        (by simp [Label.frame]) (.inr (.inr (.inl rfl)))
    | spawned => exact .quiet (by simp [Label.frame]) (Quiet.recordIdentity s payload)
    | tracked => exact .records payload rfl (recordTracked_records s payload)
    | stdout => exact .quiet (by simp [Label.frame]) (Quiet.refl s)
    | stderr => exact .quiet (by simp [Label.frame]) (Quiet.refl s)
    | other => exact .quiet (by simp [Label.frame]) (Quiet.refl s)

lemma terminate_marks (s : State) (kill : KillAnswer) :
    Marks cfg s (terminate cfg s kill) (.terminate kill) := by
  have hflush : Quiet (s.failPending .closed) (flushMessages cfg (s.failPending .closed)) := by
    rw [flushMessages]
    split
    · exact Quiet.flushed _
    · exact .refl _
  have hbefore := (Quiet.failPending s .closed).trans hflush
  rw [terminate]
  refine Marks.after hbefore ?_
  generalize flushMessages cfg (s.failPending .closed) = r
  rw [settle.eq_def]
  split
  · next ended hexit =>
    obtain ⟨hshown, hword⟩ := @finishOutputEvidence_groups cfg
      (withGroups ended.terminal r.tracking) r
    exact .ends _ ((finishTracking_ends r ended.terminal).closing hshown
      (hword.trans (Bool.or_comm _ _))) (.inr rfl) (by simp [Label.frame]) (by simp [Label.frame])
        (.inr (.inr (.inr ⟨ended, hexit, rfl⟩)))
  · exact .quiet (by simp [Label.frame])
      ((Quiet.tell r (by simp [Entry.told, Entry.shown])).trans (Quiet.goto _ rfl))
  · exact .quiet (by simp [Label.frame]) (Quiet.goto r rfl)
  · exact .ends _ (conclude_lost r (by simp)) (.inr rfl) (by simp [Label.frame])
      (by simp [Label.frame]) (.inr (.inr (.inl rfl)))
  · exact .ends _ (conclude_lost r (by simp)) (.inr rfl) (by simp [Label.frame])
      (by simp [Label.frame]) (.inr (.inr (.inl rfl)))

lemma publish_quiet {terminal : Terminal} (hp : s.phase = .closing terminal) :
    Quiet s (publish cfg s terminal) := by
  have htold : ((Effect.published terminal ::
      if cfg.recipient then [.recipient terminal] else []).map Entry.did).filterMap
        Entry.told = [] := by
    cases cfg.recipient <;> rfl
  have hshown : ∀ x ∈ ((Effect.published terminal ::
      if cfg.recipient then [.recipient terminal] else []).map Entry.did).filterMap
        Entry.shown, x = terminal := by
    cases cfg.recipient <;> simp [Entry.shown]
  refine ⟨?_, fun table h => ?_, rfl, fun _ => by rw [hp]; rfl, fun shown hshows => ?_⟩
  · rw [publish, State.diary, State.diary]
    simp only [State.tell, List.filterMap_append, htold, List.append_nil]
    rfl
  · obtain ⟨before, hbefore, rfl⟩ := Option.map_eq_some_iff.mp h
    refine ⟨before, hbefore, ?_⟩
    rw [TerminalTable.insertNew]
    split <;> rfl
  · rcases hshows with hshows | hshows | hshows | ⟨table, htable, hterminal⟩ | hshows
    · exact .inl hshows
    · cases hshows
    · exact .inr (.inr (.inl hshows))
    · obtain ⟨before, hbefore, rfl⟩ := Option.map_eq_some_iff.mp htable
      cases hstored : before.terminal with
      | none =>
        rw [TerminalTable.insertNew, hstored] at hterminal
        obtain rfl := Option.some.inj hterminal
        exact .inr (.inl hp)
      | some stored =>
        rw [TerminalTable.insertNew, hstored] at hterminal
        exact .inr (.inr (.inr (.inl ⟨before, hbefore, hterminal⟩)))
    · have hin : shown ∈ (s.log ++ (Effect.published terminal ::
          if cfg.recipient then [.recipient terminal] else []).map Entry.did).filterMap
            Entry.shown := hshows
      rw [List.filterMap_append, List.mem_append] at hin
      rcases hin with hin | hin
      · exact .inr (.inr (.inr (.inr hin)))
      · rw [hshown shown hin]
        exact .inr (.inl hp)

lemma leave_quiet (hp : s.phase = .published) : Quiet s s.leave := by
  refine ⟨?_, fun table h => ⟨table, h, rfl⟩, rfl, fun _ => by rw [hp]; rfl, fun shown hshows => ?_⟩
  · rw [State.leave, State.diary, State.diary]
    simp only [State.tell, List.filterMap_append]
    cases s.farewell <;> simp [Entry.told]
  · rcases hshows with hshows | hshows | ⟨_, hshows⟩ | hshows | hshows
    · exact .inl hshows
    · cases hshows
    · cases hshows
    · exact .inr (.inr (.inr (.inl hshows)))
    · have hin : shown ∈ (s.log ++ (s.farewell.toList.map fun reply =>
          Effect.recvReply reply.1 reply.2).map Entry.did).filterMap Entry.shown := hshows
      rw [List.filterMap_append, List.mem_append] at hin
      rcases hin with hin | hin
      · exact .inr (.inr (.inr (.inr hin)))
      · cases hfarewell : s.farewell with
        | none =>
          rw [hfarewell] at hin
          cases hin
        | some reply =>
          obtain ⟨caller, reply⟩ := reply
          rw [hfarewell] at hin
          cases reply with
          | done terminal =>
            obtain rfl : shown = terminal := by simpa [Entry.shown] using hin
            exact .inr (.inr (.inl ⟨caller, hfarewell⟩))
          | _ => simp [Entry.shown] at hin

lemma step_marks (henabled : s.tracking.enabled = true) (h : step cfg s l = some t) :
    Marks cfg s t l := by
  rw [step.eq_def] at h
  split at h
  · obtain rfl := Option.some.inj h
    have hgone : ∀ table, ({ s with table := none } : State).table ≠ some table :=
      fun table => (Option.some_ne_none table).symm
    refine .quiet (by simp [Label.frame])
      ⟨rfl, fun table h => absurd h (hgone table), rfl, id, fun terminal hshows => ?_⟩
    rcases hshows with hshows | hshows | hshows | ⟨table, htable, -⟩ | hshows
    · exact .inl hshows
    · exact .inr (.inl hshows)
    · exact .inr (.inr (.inl hshows))
    · exact absurd htable (hgone table)
    · exact .inr (.inr (.inr (.inr hshows)))
  · next message answers _ =>
    obtain rfl := Option.some.inj h
    have hhear : Quiet s (s.hear (.handled message)) := .hear s ⟨rfl, rfl⟩
    exact (handle_marks (s := s.hear (.handled message)) henabled message answers).after hhear
  · next kill _ =>
    obtain rfl := Option.some.inj h
    exact terminate_marks s kill
  · next event _ =>
    obtain rfl := Option.some.inj h
    have hhear : Quiet s (s.hear (.awaited event)) := .hear s ⟨rfl, rfl⟩
    exact (awaitExit_marks (s := s.hear (.awaited event)) henabled event).after hhear
  · obtain rfl := Option.some.inj h
    exact .ends _ (conclude_lost s (by simp)) (.inr rfl) (by simp [Label.frame])
      (by simp [Label.frame]) (.inr (.inr (.inl rfl)))
  · obtain rfl := Option.some.inj h
    exact .quiet (by simp [Label.frame]) (.hear s ⟨rfl, rfl⟩)
  · next hp =>
    obtain rfl := Option.some.inj h
    exact .quiet (by simp [Label.frame]) (publish_quiet hp)
  · next hp =>
    obtain rfl := Option.some.inj h
    exact .quiet (by simp [Label.frame]) (leave_quiet hp)
  · cases h
  · cases h
  · obtain rfl := Option.some.inj h
    exact .quiet (by simp [Label.frame]) (Quiet.goto s rfl)
  · cases h

lemma step_listens (h : step cfg s l = some t) (ht : t.phase.listens = true) :
    s.phase.listens = true := by
  rw [step.eq_def] at h
  split at h
  · obtain rfl := Option.some.inj h
    exact ht
  · next hp => rw [hp]; rfl
  · next hp => rw [hp]; rfl
  · next hp => rw [hp]; rfl
  · next hp => rw [hp]; rfl
  · obtain rfl := Option.some.inj h
    exact ht
  · obtain rfl := Option.some.inj h
    cases ht
  · obtain rfl := Option.some.inj h
    cases ht
  · cases h
  · cases h
  · obtain rfl := Option.some.inj h
    cases ht
  · cases h

lemma step_frame (h : step cfg s l = some t) {frame : Tag × Bytes} (hl : l.frame = some frame) :
    s.phase.listens = true := by
  rw [step.eq_def] at h
  split at h
  · cases hl
  · next hp => rw [hp]; rfl
  · next hp => rw [hp]; rfl
  · next hp => rw [hp]; rfl
  · next hp => rw [hp]; rfl
  · cases hl
  · cases hl
  · cases hl
  · cases h
  · cases h
  · cases hl
  · cases h

lemma heard_snoc (labels : List Label) (l : Label) :
    heard cfg (labels ++ [l]) = heard cfg labels ++ heard cfg [l] :=
  List.filterMap_append

lemma heard_other (labels : List Label) (hl : ∀ payload, l.frame ≠ some (.tracked, payload)) :
    heard cfg (labels ++ [l]) = heard cfg labels := by
  have hquiet : heard cfg [l] = [] := by
    apply List.filterMap_eq_nil_iff.mpr
    intro l' hl'
    obtain rfl := List.mem_singleton.mp hl'
    split
    · next payload heq => exact absurd heq (hl payload)
    · rfl
  rw [heard_snoc, hquiet, List.append_nil]

lemma heard_tracked (labels : List Label) (hl : l.frame = some (.tracked, payload)) :
    heard cfg (labels ++ [l]) = heard cfg labels ++ [cfg.json payload] := by
  have hone : heard cfg [l] = [cfg.json payload] := by
    simp [heard, hl]
  rw [heard_snoc, hone]

namespace Chronicled

lemma recorded (h : Chronicled cfg labels s) : Noted (heard cfg labels) s.tracking := by
  cases hfinished : s.tracking.finished with
  | false => exact (h.going hfinished).1.recorded
  | true => exact (h.past hfinished).recorded

lemma quiet (h : Chronicled cfg labels s) (hs : step cfg s l = some t)
    (hl : ∀ payload, l.frame ≠ some (.tracked, payload) ∧ l.frame ≠ some (.exit, payload))
    (k : Quiet s t) : Chronicled cfg (labels ++ [l]) t := by
  have htracking : t.tracking = s.tracking := congrArg Diary.tracking k.diary
  have hexits : ∀ l' ∈ labels ++ [l], ∀ payload, l'.frame = some (.exit, payload) → l' ∈ labels := by
    intro l' hin payload hframe
    rcases List.mem_append.mp hin with hin | hin
    · exact hin
    · obtain rfl := List.mem_singleton.mp hin
      exact absurd hframe (hl payload).2
  constructor
  · intro hfinished
    rw [htracking] at hfinished
    obtain ⟨hopen, hexit, hclosed, hnone⟩ := h.going hfinished
    rw [heard_other labels fun payload => (hl payload).1, k.diary]
    refine ⟨hopen, k.exit.trans hexit, ?_, fun l' hin payload hframe => ?_⟩
    · exact Bool.eq_false_iff.mpr fun hc => Bool.eq_false_iff.mp hclosed (k.closed hc)
    · exact hnone l' (hexits l' hin payload hframe) payload hframe
  · intro hfinished
    rw [htracking] at hfinished
    rw [heard_other labels fun payload => (hl payload).1, k.diary]
    exact h.past hfinished
  · intro hfinished hlistens
    rw [htracking] at hfinished
    rw [k.exit]
    exact h.decided hfinished (step_listens hs hlistens)
  · intro terminal hshows
    rw [htracking, heard_other labels fun payload => (hl payload).1]
    exact h.shown terminal (k.shows terminal hshows)
  · intro hfinished l' hin payload hframe
    rw [htracking] at hfinished
    rw [htracking, heard_other labels fun payload => (hl payload).1]
    exact h.explained hfinished l' (hexits l' hin payload hframe) payload hframe
  · intro table htable
    obtain ⟨before, hbefore, heq⟩ := k.groups table htable
    rw [heard_other labels fun payload => (hl payload).1, ← heq]
    exact h.stored before hbefore

lemma records (h : Chronicled cfg labels s) (hs : step cfg s l = some t) (ho : Orderly s l)
    (hl : l.frame = some (.tracked, payload)) (k : Records cfg s t payload) :
    Chronicled cfg (labels ++ [l]) t := by
  -- nothing is recorded after the end of the child
  have hfinished : s.tracking.finished = false := by
    apply Bool.eq_false_iff.mpr
    intro hfinished
    exact (ho (h.decided hfinished (step_frame hs hl)) payload).1 hl
  obtain ⟨hopen, hexit, hclosed, hnone⟩ := h.going hfinished
  have hrecord := hopen.record (cfg.json payload)
  have hheard := @heard_tracked cfg _ _ labels hl
  rw [← k.diary, ← hheard] at hrecord
  have hgoing : t.tracking.finished = false := hrecord.unfinished
  have hno : ∀ terminal, ¬Shows t terminal := by
    intro terminal hshows
    cases hfinished.symm.trans (h.shown terminal (k.shows terminal hshows)).1
  constructor
  · refine fun _ => ⟨hrecord, k.exit.trans hexit, ?_, fun l' hin payload' hframe => ?_⟩
    · exact Bool.eq_false_iff.mpr fun hc => Bool.eq_false_iff.mp hclosed (k.closed hc)
    · rcases List.mem_append.mp hin with hin | hin
      · exact hnone l' hin payload' hframe
      · obtain rfl := List.mem_singleton.mp hin
        cases hl.symm.trans hframe
  · intro hover
    cases hgoing.symm.trans hover
  · intro hover
    cases hgoing.symm.trans hover
  · exact fun terminal hshows => absurd hshows (hno terminal)
  · intro hover
    cases hgoing.symm.trans hover
  · intro table htable
    obtain ⟨before, hbefore, heq⟩ := k.groups table htable
    rw [heq, hheard, hopen.recorded.leaders_record, h.stored before hbefore]
    rfl

lemma ends_going (h : Chronicled cfg labels s) (hfinished : s.tracking.finished = false)
    {truncated : Bool} (k : Ends cfg s t truncated)
    (hd : t.exit.isSome ∨ t.phase.listens = false)
    (hl : ∀ payload, l.frame ≠ some (.tracked, payload))
    (he : ∀ payload, l.frame = some (.exit, payload) →
      truncated = (s.tracking.report (cfg.json payload)).trackedGroupsTruncated) :
    Chronicled cfg (labels ++ [l]) t := by
  obtain ⟨hopen, -, -, hnone⟩ := h.going hfinished
  obtain ⟨scope, confirmation, contained, hdiary⟩ := k.diary
  obtain ⟨hclosed, htruncated⟩ := hopen.finish scope confirmation contained truncated
  rw [← hdiary, ← heard_other labels hl] at hclosed
  rw [← hdiary] at htruncated
  have hover : t.tracking.finished = true := hclosed.finished
  constructor
  · intro hgoing
    cases hover.symm.trans hgoing
  · exact fun _ => hclosed
  · intro _ hlistens
    rcases hd with hd | hd
    · exact hd
    · cases hd.symm.trans hlistens
  · intro terminal hshows
    rcases k.shows terminal hshows with hshows | ⟨hgroups, hflag⟩
    · cases hfinished.symm.trans (h.shown terminal hshows).1
    · rw [heard_other labels hl]
      exact ⟨hover, hgroups.trans hopen.recorded.observed, hflag.trans htruncated.symm⟩
  · intro _ l' hin payload hframe
    rcases List.mem_append.mp hin with hin | hin
    · exact absurd hframe (hnone l' hin payload)
    · obtain rfl := List.mem_singleton.mp hin
      have hexplained := hopen.explained (Shim.decodeMap (cfg.json payload)) scope confirmation
        contained
      have hword : truncated = (s.diary.tracking.truncated || s.diary.tracking.groups.isEmpty ||
          (Shim.decodeMap (cfg.json payload)).isTrue "tracked_groups_truncated") :=
        (he payload hframe).trans (Beam.report_truncated hopen.recorded.enabled)
      rw [← hword, ← hdiary] at hexplained
      rw [heard_other labels hl]
      exact hexplained
  · intro table htable
    obtain ⟨before, hbefore, heq⟩ := k.groups table htable
    rw [heard_other labels hl, ← heq]
    exact h.stored before hbefore

lemma ends_over (h : Chronicled cfg labels s) (hfinished : s.tracking.finished = true)
    {truncated : Bool} (k : Ends cfg s t truncated)
    (hd : t.exit.isSome ∨ t.phase.listens = false)
    (hl : ∀ payload, l.frame ≠ some (.tracked, payload) ∧ l.frame ≠ some (.exit, payload))
    (hw : truncated = false ∨ truncated = s.tracking.truncated ∨
      ∃ ended, s.exit = some ended ∧ truncated = ended.terminal.trackedGroupsTruncated) :
    Chronicled cfg (labels ++ [l]) t := by
  have hclosed := h.past hfinished
  obtain ⟨scope, confirmation, contained, hdiary⟩ := k.diary
  rw [hclosed.finish] at hdiary
  have htracking : t.tracking = s.tracking := congrArg Diary.tracking hdiary
  have hword : (s.tracking.truncated || truncated) = s.tracking.truncated := by
    rcases hw with rfl | rfl | ⟨ended, hended, rfl⟩
    · exact Bool.or_false _
    · exact Bool.or_self _
    · obtain ⟨-, -, hflag⟩ := h.shown ended.terminal (.inl ⟨ended, hended, rfl⟩)
      rw [hflag, Bool.or_self]
  have hheard : heard cfg (labels ++ [l]) = heard cfg labels :=
    heard_other labels fun payload => (hl payload).1
  constructor
  · intro hgoing
    rw [htracking] at hgoing
    cases hfinished.symm.trans hgoing
  · intro _
    rw [hdiary, hheard]
    exact hclosed
  · intro _ hlistens
    rcases hd with hd | hd
    · exact hd
    · cases hd.symm.trans hlistens
  · intro terminal hshows
    rw [htracking, hheard]
    rcases k.shows terminal hshows with hshows | ⟨hgroups, hflag⟩
    · exact h.shown terminal hshows
    · exact ⟨hfinished, hgroups.trans hclosed.recorded.observed, hflag.trans hword⟩
  · intro _ l' hin payload hframe
    rw [htracking, hheard]
    rcases List.mem_append.mp hin with hin | hin
    · exact h.explained hfinished l' hin payload hframe
    · obtain rfl := List.mem_singleton.mp hin
      exact absurd hframe (hl payload).2
  · intro table htable
    obtain ⟨before, hbefore, heq⟩ := k.groups table htable
    rw [hheard, ← heq]
    exact h.stored before hbefore

end Chronicled

lemma step_chronicled (h : Chronicled cfg labels s) (hs : step cfg s l = some t)
    (ho : Orderly s l) : Chronicled cfg (labels ++ [l]) t := by
  cases step_marks h.recorded.enabled hs with
  | quiet hl k => exact h.quiet hs hl k
  | records payload hl k => exact h.records hs ho hl k
  | ends truncated k hd hl he hw =>
    cases hfinished : s.tracking.finished with
    | false => exact h.ends_going hfinished k hd hl he
    | true =>
      -- a second EXIT is no longer listened to
      have hexit : ∀ payload, l.frame ≠ some (.exit, payload) := by
        intro payload hframe
        exact (ho (h.decided hfinished (step_frame hs hframe)) payload).2 hframe
      refine h.ends_over hfinished k hd (fun payload => ⟨hl payload, hexit payload⟩) ?_
      rcases hw with ⟨payload, hframe⟩ | hw
      · exact absurd hframe (hexit payload)
      · exact hw

lemma init_chronicled (htrack : cfg.trackDescendants = true) : Chronicled cfg [] (init cfg) := by
  have hdiary : (init cfg).diary = ⟨Tracking.new true, []⟩ := by
    rw [State.diary, init, htrack]
    rfl
  have hgoing : (init cfg).tracking.finished = false := by
    rw [init, htrack]
    rfl
  have hno : ∀ terminal, ¬Shows (init cfg) terminal := by
    rintro terminal (⟨ended, hended, -⟩ | hphase | ⟨caller, hfarewell⟩ | ⟨table, htable, hterminal⟩ | hlog)
    · cases hended
    · cases hphase
    · cases hfarewell
    · obtain rfl := Option.some.inj htable
      cases hterminal
    · cases hlog
  constructor
  · refine fun _ => ⟨?_, rfl, rfl, by simp⟩
    rw [hdiary]
    exact Open.new _
  · intro hover
    cases hgoing.symm.trans hover
  · intro hover
    cases hgoing.symm.trans hover
  · exact fun terminal hshows => absurd hshows (hno terminal)
  · intro hover
    cases hgoing.symm.trans hover
  · intro table htable
    obtain rfl := Option.some.inj htable
    exact leaders_nil.symm

lemma run_chronicled (htrack : cfg.trackDescendants = true)
    (h : Transition.Run (fun s l t => step cfg s l = some t ∧ Orderly s l) (init cfg) labels t) :
    Chronicled cfg labels t :=
  h.history (fun _ _ _ _ hs hst => step_chronicled hs hst.1 hst.2) (init_chronicled htrack)

end Forcola.Beam.Duplex
