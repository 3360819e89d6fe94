import Forcola.Beam.Daemon
import Forcola.Library.Lines
import Forcola.Library.Transition
import Mathlib.Logic.Function.Basic

/-! What a daemon with `output: :logger` logs of the output it handles. -/

namespace Forcola.Beam.Daemon

open Library
open Native (Bytes Pipe)
open Shim (Scope Tag)

def splitLines (data : Bytes) : List Bytes × Bytes :=
  (Lines.lines newline data, Lines.rest newline data)

structure Logger where
  server : State
  buffers : Pipe → Bytes
  logged : List (Pipe × Bytes)
  crashed : Bool

/-- `raise` is a `:ready` function that raises. -/
inductive LoggerLabel
  | server (label : Label)
  | raise
deriving DecidableEq, Repr

variable (cfg : Options) (clock : ℕ → Instant) (stderrFirst : Bool)

namespace Logger

def start : Logger where
  server := Daemon.start cfg
  buffers := fun _ => []
  logged := []
  crashed := false

def emit (s : Logger) (stream : Pipe) (chunk : Bytes) : Logger :=
  let (lines, rest) := splitLines (s.buffers stream ++ chunk)
  { s with
    logged := s.logged ++ lines.map (stream, ·)
    buffers := Function.update s.buffers stream rest }

def route (s : Logger) : Message → Logger
  | .data .stdout payload => s.emit .stdout payload
  | .data .stderr payload => s.emit .stderr payload
  | _ => s

/-- `stderrFirst` is the order in which the two-key map is traversed. -/
def flushBuffers (s : Logger) : Logger :=
  let streams := if stderrFirst then [Pipe.stderr, .stdout] else [.stdout, .stderr]
  { s with
    logged := s.logged ++
      (streams.map fun stream => (stream, s.buffers stream)).filter (·.2 ≠ []) }

/-- A callback that stops the server is followed by `terminate/2`; what ends `init/1` is not. -/
def follow (s : Logger) (label : Label) (server : State) : Logger :=
  match s.server.phase, label with
  | .starting, .message message => { s.route message with server := server }
  | .running, .message message =>
    if server.phase = .running then { s.route message with server := server }
    else flushBuffers stderrFirst { s.route message with server := server }
  | .running, .stop => flushBuffers stderrFirst { s with server := server }
  | _, _ => { s with server := server }

def step (s : Logger) : LoggerLabel → Option Logger
  | .raise =>
    if s.crashed = false ∧ s.server.phase = .starting then some { s with crashed := true } else none
  | .server label =>
    if s.crashed then none
    else (Daemon.step cfg clock s.server label).map (follow stderrFirst s label)

def loggedOf (s : Logger) (p : Pipe) : List Bytes :=
  (s.logged.filter (·.1 = p)).map (·.2)

def Over (s : Logger) : Prop :=
  s.crashed = true ∨ ∃ reason, s.server.phase = .stopped reason

end Logger

def Effect.outputOf (p : Pipe) : Effect → Bytes
  | .output pipe payload => if pipe = p then payload else []
  | _ => []

def State.output (s : State) (p : Pipe) : Bytes :=
  s.log.reverse.flatMap (Effect.outputOf p)

def Message.output (p : Pipe) : Message → Bytes
  | .data .stdout payload => if Pipe.stdout = p then payload else []
  | .data .stderr payload => if Pipe.stderr = p then payload else []
  | _ => []

variable {cfg : Options} {clock : ℕ → Instant} {stderrFirst : Bool} {s t u : State} {p : Pipe}

lemma add_output (s : State) (e : Effect) (p : Pipe) :
    (s.add e).output p = s.output p ++ e.outputOf p := by
  simp [State.output, State.add]

structure Unrouted (s t : State) : Prop where
  phase : t.phase = s.phase
  output : t.output = s.output

namespace Unrouted

lemma refl (s : State) : Unrouted s s := ⟨rfl, rfl⟩

lemma trans (h : Unrouted s t) (k : Unrouted t u) : Unrouted s u :=
  ⟨k.phase.trans h.phase, k.output.trans h.output⟩

lemma add (s : State) {e : Effect} (h : ∀ p, e.outputOf p = []) : Unrouted s (s.add e) := by
  refine ⟨rfl, funext fun p => ?_⟩
  rw [add_output, h, List.append_nil]

lemma keeps : Keeper.Keeps Unrouted where
  refl := refl
  trans := trans
  setTracking _ _ := ⟨rfl, rfl⟩
  setIdentity _ _ := ⟨rfl, rfl⟩
  tell s _ := add s fun _ => rfl
  spawned s _ := add s fun _ => rfl

lemma finishTracking (s : State) (scope : Scope) (confirmation : Confirmation)
    (contained : Option Bool) (truncated : Bool) :
    Unrouted s (s.finishTracking cfg scope confirmation contained truncated) :=
  keeps.tracking s _ _

lemma recordTracked (s : State) (payload : Bytes) : Unrouted s (s.recordTracked cfg payload) :=
  keeps.tracking s _ _

lemma recordIdentity (s : State) (payload : Bytes) : Unrouted s (s.recordIdentity cfg payload) :=
  keeps.recordIdentity _ s _

end Unrouted

structure Leaves (s t : State) : Prop where
  phase : t.phase ≠ .starting ∧ t.phase ≠ .running
  output : t.output = s.output

lemma Unrouted.leaves (h : Unrouted s t) (k : Leaves t u) : Leaves s u :=
  ⟨k.phase, k.output.trans h.output⟩

lemma finishCleanup_leaves (s : State) (reason : StopReason) (result : Confirmed) :
    Leaves s (finishCleanup cfg s reason result) := by
  rw [finishCleanup.eq_def]
  cases result with
  | exit report =>
    exact (Unrouted.finishTracking s _ _ _ _).leaves ⟨by simp, rfl⟩
  | lost confirmation =>
    exact (Unrouted.finishTracking s _ _ _ _).leaves ⟨by simp, rfl⟩

lemma doAwaitExit_leaves (s : State) (reason : StopReason) (deadline : Instant) :
    Leaves s (doAwaitExit cfg clock s reason deadline) := by
  rw [doAwaitExit]
  dsimp only
  split
  · exact (⟨rfl, rfl⟩ : Unrouted s (s.now clock).2).leaves (finishCleanup_leaves _ _ _)
  · exact ⟨by simp, rfl⟩

lemma shutdown_leaves (s : State) (reason : StopReason) :
    Leaves s (shutdown cfg clock s reason) := by
  rw [shutdown.eq_def]
  split
  · have hkill : Unrouted s ((s.add (.send .kill)).now clock).2 :=
      (Unrouted.add s (e := .send .kill) fun _ => rfl).trans ⟨rfl, rfl⟩
    exact hkill.leaves (doAwaitExit_leaves _ _ _)
  · exact finishCleanup_leaves _ _ _
  · exact finishCleanup_leaves _ _ _

structure Routes (s : State) (message : Message) (phase : Phase) (t : State) : Prop where
  output : ∀ p, t.output p = s.output p ++ message.output p
  phase : t.phase = phase ∨ t.phase ≠ .starting ∧ t.phase ≠ .running

lemma handleFrame_routes (s : State) (tag : Tag) (payload : Bytes) :
    Routes s (.data tag payload) s.phase (handleFrame cfg s tag payload) := by
  have quiet : ∀ {t : State}, (∀ p, (Message.data tag payload).output p = []) → Unrouted s t →
      Routes s (.data tag payload) s.phase t := fun hm h =>
    ⟨fun p => by rw [hm, List.append_nil, h.output], .inl h.phase⟩
  cases tag with
  | stdout => exact ⟨add_output s _, .inl rfl⟩
  | stderr => exact ⟨add_output s _, .inl rfl⟩
  | spawned => exact quiet (fun _ => rfl) (.recordIdentity s payload)
  | tracked => exact quiet (fun _ => rfl) (.recordTracked s payload)
  | exit =>
    exact quiet (fun _ => rfl) ((Unrouted.finishTracking s _ _ _ _).trans ⟨rfl, rfl⟩)
  | error =>
    exact quiet (fun _ => rfl) ((Unrouted.finishTracking s _ _ _ _).trans ⟨rfl, rfl⟩)
  | other => exact quiet (fun _ => rfl) (.refl s)

lemma Routes.leaves {message : Message} {phase : Phase} (h : Routes s message phase t)
    (k : Leaves t u) : Routes s message phase u :=
  ⟨fun p => by rw [k.output, h.output], .inr k.phase⟩

lemma absorb_routes (s : State) (message : Message) :
    Routes s message s.phase (absorb cfg clock s message) := by
  cases message with
  | data tag payload =>
    have hr := @handleFrame_routes cfg s tag payload
    simp only [absorb]
    cases (handleFrame cfg s tag payload).exit with
    | none => exact hr
    | some exit => exact hr.leaves (shutdown_leaves _ _)
  | exitStatus status =>
    have hr : Routes s (.exitStatus status) s.phase { s with exit := some (.shimExited status) } :=
      ⟨fun _ => (List.append_nil _).symm, .inl rfl⟩
    exact hr.leaves (@shutdown_leaves cfg clock _ _)

lemma handleInfo_routes (s : State) (message : Message) :
    Routes s message s.phase (handleInfo cfg clock s message) := by
  cases message with
  | data tag payload =>
    have hr := @handleFrame_routes cfg s tag payload
    simp only [handleInfo]
    cases (handleFrame cfg s tag payload).exit with
    | none => exact hr
    | some exit => exact hr.leaves (shutdown_leaves _ _)
  | exitStatus status =>
    have hu : Unrouted s { s.finishTracking cfg .unknown .transportLost none false with
        exit := some (.shimExited status) } :=
      (Unrouted.finishTracking s .unknown .transportLost none false).trans ⟨rfl, rfl⟩
    have hl := hu.leaves (@shutdown_leaves cfg clock _ (.shimExited status))
    exact ⟨fun p => by rw [show Message.output p (.exitStatus status) = [] from rfl,
      List.append_nil]; exact congrFun hl.output p, .inr hl.phase⟩

lemma awaitMessage_leaves (s : State) (reason : StopReason) (deadline : Instant)
    (message : Message) : Leaves s (awaitMessage cfg clock s reason deadline message) := by
  cases message with
  | exitStatus status => exact finishCleanup_leaves s reason (.lost .transportLost)
  | data tag payload =>
    cases tag with
    | exit => exact finishCleanup_leaves s reason (.exit (s.tracking.report (cfg.json payload)))
    | error => exact finishCleanup_leaves s reason (.lost .notStarted)
    | spawned => exact (Unrouted.recordIdentity s payload).leaves (doAwaitExit_leaves _ _ _)
    | tracked => exact (Unrouted.recordTracked s payload).leaves (doAwaitExit_leaves _ _ _)
    | stdout => exact doAwaitExit_leaves _ _ _
    | stderr => exact doAwaitExit_leaves _ _ _
    | other => exact doAwaitExit_leaves _ _ _

inductive Serves (s : State) : Label → State → Prop
  | absorbs {t : State} (message : Message) (hp : s.phase = .starting)
      (h : Routes s message .starting t) : Serves s (.message message) t
  | starts {t : State} (hp : s.phase = .starting) (ht : t.phase = .running)
      (ho : t.output = s.output) : Serves s .ready t
  | fails {t : State} (hp : s.phase = .starting) (h : Leaves s t) : Serves s .readyTimeout t
  | handles {t : State} (message : Message) (hp : s.phase = .running)
      (h : Routes s message .running t) : Serves s (.message message) t
  | stops {t : State} (hp : s.phase = .running) (h : Leaves s t) : Serves s .stop t
  | awaits {l : Label} {t : State} {reason : StopReason} {deadline : Instant}
      (hp : s.phase = .awaiting reason deadline) (hl : l ≠ .ready) (h : Leaves s t) : Serves s l t

lemma step_serves {l : Label} (h : step cfg clock s l = some t) : Serves s l t := by
  rw [step.eq_def] at h
  split at h
  · next message hp =>
    obtain rfl := Option.some.inj h
    exact .absorbs message hp (hp ▸ absorb_routes s message)
  · next hp =>
    obtain rfl := Option.some.inj h
    exact .starts hp rfl rfl
  · next hp =>
    obtain rfl := Option.some.inj h
    exact .fails hp (shutdown_leaves s _)
  · next message hp =>
    obtain rfl := Option.some.inj h
    exact .handles message hp (hp ▸ handleInfo_routes s message)
  · next hp =>
    obtain rfl := Option.some.inj h
    exact .stops hp (shutdown_leaves s _)
  · next hp =>
    obtain rfl := Option.some.inj h
    exact .awaits hp (by simp) (awaitMessage_leaves s _ _ _)
  · next hp =>
    obtain rfl := Option.some.inj h
    exact .awaits hp (by simp) (doAwaitExit_leaves s _ _)
  · cases h

namespace Logger

variable {w v : Logger} {l : LoggerLabel} {labels : List LoggerLabel}

def Split (w : Logger) : Prop :=
  ∀ p, w.loggedOf p = Lines.lines newline (w.server.output p) ∧
    w.buffers p = Lines.rest newline (w.server.output p)

/-- Nothing of the handled output is missing from the log, nor twice in it. -/
def Complete (w : Logger) : Prop :=
  ∀ p, w.loggedOf p = Lines.closed newline (w.server.output p)

lemma loggedOf_emit (w : Logger) (stream p : Pipe) (chunk : Bytes) :
    (w.emit stream chunk).loggedOf p = w.loggedOf p ++
      if stream = p then Lines.lines newline (w.buffers stream ++ chunk) else [] := by
  by_cases h : stream = p
  · simp [loggedOf, emit, splitLines, h, List.filter_map, Function.comp_def]
  · simp [loggedOf, emit, splitLines, h, List.filter_map, Function.comp_def]

lemma emit_split (h : Split w) (stream : Pipe) (chunk : Bytes) {server : State}
    (ho : ∀ p, server.output p = w.server.output p ++ if stream = p then chunk else []) :
    Split { w.emit stream chunk with server := server } := by
  intro p
  obtain ⟨hlogged, hbuffer⟩ := h p
  have hl : ({ w.emit stream chunk with server := server } : Logger).loggedOf p =
      w.loggedOf p ++ if stream = p then Lines.lines newline (w.buffers stream ++ chunk) else [] :=
    loggedOf_emit w stream p chunk
  rw [hl, hlogged]
  change _ = Lines.lines newline (server.output p) ∧
    Function.update w.buffers stream (Lines.rest newline (w.buffers stream ++ chunk)) p =
      Lines.rest newline (server.output p)
  rw [ho]
  by_cases hs : stream = p
  · subst hs
    rw [if_pos rfl, if_pos rfl, Function.update_self, hbuffer]
    exact ⟨(Lines.lines_append _ _).symm, (Lines.rest_append _ _).symm⟩
  · rw [if_neg hs, if_neg hs, List.append_nil, List.append_nil,
      Function.update_of_ne (Ne.symm hs)]
    exact ⟨rfl, hbuffer⟩

lemma route_split (h : Split w) (message : Message) {server : State}
    (ho : ∀ p, server.output p = w.server.output p ++ message.output p) :
    Split { w.route message with server := server } := by
  have quiet : (∀ p, message.output p = []) → Split { w with server := server } := by
    intro hm p
    obtain ⟨hlogged, hbuffer⟩ := h p
    have hp : server.output p = w.server.output p := by rw [ho, hm, List.append_nil]
    exact ⟨hlogged.trans (by rw [hp]), hbuffer.trans (by rw [hp])⟩
  cases message with
  | exitStatus status => exact quiet fun _ => rfl
  | data tag payload =>
    cases tag with
    | stdout => exact emit_split h .stdout payload ho
    | stderr => exact emit_split h .stderr payload ho
    | spawned => exact quiet fun _ => rfl
    | tracked => exact quiet fun _ => rfl
    | exit => exact quiet fun _ => rfl
    | error => exact quiet fun _ => rfl
    | other => exact quiet fun _ => rfl

lemma flushBuffers_complete (h : Split w) : Complete (flushBuffers stderrFirst w) := by
  intro p
  obtain ⟨hlogged, hbuffer⟩ := h p
  have hflush : (flushBuffers stderrFirst w).loggedOf p =
      w.loggedOf p ++ if w.buffers p = [] then [] else [w.buffers p] := by
    cases p <;> cases stderrFirst <;> by_cases ho : w.buffers .stdout = [] <;>
      by_cases he : w.buffers .stderr = [] <;> simp [loggedOf, flushBuffers, ho, he]
  rw [hflush, hlogged, hbuffer]
  rfl

inductive Logs (ready : Prop) (w : Logger) : Prop
  | unready (hr : ¬ready) (hp : w.server.phase ≠ .running) (h : Split w)
  | serving (hr : ready) (hc : w.crashed = false) (hp : w.server.phase = .running) (h : Split w)
  | closed (hr : ready) (hc : w.crashed = false) (hs : w.server.phase ≠ .starting)
      (hp : w.server.phase ≠ .running) (h : Complete w)

lemma Split.silent (h : Split w) {server : State} (ho : server.output = w.server.output) :
    Split { w with server := server } := by
  intro p
  obtain ⟨hlogged, hbuffer⟩ := h p
  exact ⟨hlogged.trans (by rw [ho]), hbuffer.trans (by rw [ho])⟩

lemma Complete.silent (h : Complete w) {server : State} (ho : server.output = w.server.output) :
    Complete { w with server := server } := by
  intro p
  exact (h p).trans (by rw [ho])

lemma step_cases (h : step cfg clock stderrFirst w l = some v) :
    (l = .raise ∧ w.server.phase = .starting ∧ v = { w with crashed := true }) ∨
    ∃ label server, l = .server label ∧ w.crashed = false ∧
      Daemon.step cfg clock w.server label = some server ∧
      v = follow stderrFirst w label server := by
  cases l with
  | raise =>
    rw [step] at h
    split at h
    · next hc => exact .inl ⟨rfl, hc.2, (Option.some.inj h).symm⟩
    · cases h
  | server label =>
    rw [step] at h
    split at h
    · cases h
    · next hc =>
      obtain ⟨server, hserver, rfl⟩ := Option.map_eq_some_iff.mp h
      exact .inr ⟨label, server, rfl, by simpa using hc, hserver, rfl⟩

lemma follow_logs {ready : Prop} (h : Logs ready w) {label : Label} (hl : label ≠ .ready)
    (hc : w.crashed = false) {server : State} (hs : Serves w.server label server) :
    Logs ready (follow stderrFirst w label server) := by
  have leaves : ∀ {v : Logger}, v = { w with server := server } → w.server.phase ≠ .running →
      w.server.phase ≠ .starting ∨ ¬ready → Leaves w.server server → Logs ready v := by
    rintro v rfl hp hready hleaves
    cases h with
    | unready hr _ hsplit => exact .unready hr hleaves.phase.2 (hsplit.silent hleaves.output)
    | serving hr _ hrun _ => exact absurd hrun hp
    | closed hr _ _ _ hcomplete =>
      exact .closed hr hc hleaves.phase.1 hleaves.phase.2 (hcomplete.silent hleaves.output)
  have early : w.server.phase = .starting → ¬ready ∧ Split w := by
    intro hp
    cases h with
    | unready hr _ hsplit => exact ⟨hr, hsplit⟩
    | serving _ _ hrun _ => cases hp.symm.trans hrun
    | closed _ _ hstart _ _ => exact absurd hp hstart
  have running : w.server.phase = .running → ready ∧ Split w := by
    intro hp
    cases h with
    | unready _ hrun _ => exact absurd hp hrun
    | serving hr _ _ hsplit => exact ⟨hr, hsplit⟩
    | closed _ _ _ hrun _ => exact absurd hp hrun
  cases hs with
  | absorbs message hp hroutes =>
    obtain ⟨hr, hsplit⟩ := early hp
    rw [follow.eq_def, hp]
    refine .unready hr ?_ (route_split hsplit message hroutes.output)
    rcases hroutes.phase with hphase | hphase
    · exact fun hrun => by cases hphase.symm.trans hrun
    · exact hphase.2
  | starts hp _ _ => exact absurd rfl hl
  | fails hp hleaves =>
    apply leaves _ (by simp [hp]) (.inr (early hp).1) hleaves
    rw [follow.eq_def, hp]
  | handles message hp hroutes =>
    obtain ⟨hr, hsplit⟩ := running hp
    have hrouted := route_split hsplit message hroutes.output
    have hcrashed : (w.route message).crashed = false := by
      rw [route.eq_def]
      split <;> exact hc
    rw [follow.eq_def, hp]
    dsimp only
    split
    · next hrun => exact .serving hr hcrashed hrun hrouted
    · next hrun =>
      have hphase := hroutes.phase.resolve_left hrun
      exact .closed hr hcrashed hphase.1 hphase.2 (flushBuffers_complete hrouted)
  | stops hp hleaves =>
    obtain ⟨hr, hsplit⟩ := running hp
    rw [follow.eq_def, hp]
    exact .closed hr hc hleaves.phase.1 hleaves.phase.2
      (flushBuffers_complete (hsplit.silent hleaves.output))
  | awaits hp _ hleaves =>
    apply leaves _ (by simp [hp]) (.inl (by simp [hp])) hleaves
    rw [follow.eq_def, hp]

lemma start_logs (cfg : Options) : Logs (.server .ready ∈ ([] : List LoggerLabel)) (start cfg) := by
  refine .unready (by simp) (by simp [start, Daemon.start]) fun p => ⟨rfl, rfl⟩

lemma step_logs (h : Logs (.server .ready ∈ labels) w)
    (hs : step cfg clock stderrFirst w l = some v) : Logs (.server .ready ∈ labels ++ [l]) v := by
  have keep : l ≠ .server .ready → (LoggerLabel.server .ready ∈ labels ++ [l]) =
      (LoggerLabel.server .ready ∈ labels) := by
    intro hl
    rw [List.mem_append, List.mem_singleton]
    exact propext ⟨fun hin => hin.resolve_right (Ne.symm hl), .inl⟩
  rcases step_cases hs with ⟨rfl, hp, rfl⟩ | ⟨label, server, rfl, hc, hserver, rfl⟩
  · rw [keep (by simp)]
    cases h with
    | unready hr hrun hsplit => exact .unready hr hrun hsplit
    | serving _ _ hrun _ => cases hp.symm.trans hrun
    | closed _ _ hstart _ _ => exact absurd hp hstart
  · have hserves := step_serves hserver
    by_cases hl : label = .ready
    · subst hl
      cases hserves with
      | starts hp ht ho =>
        have hsplit : Split w := by
          cases h with
          | unready _ _ hsplit => exact hsplit
          | serving _ _ hrun _ => cases hp.symm.trans hrun
          | closed _ _ hstart _ _ => exact absurd hp hstart
        rw [follow.eq_def, hp]
        exact .serving (by simp) hc ht (hsplit.silent ho)
      | awaits _ hl _ => exact absurd rfl hl
    · rw [keep (by simpa using hl)]
      exact follow_logs h hl hc hserves

lemma run_logs (h : Transition.Run (fun w l v => step cfg clock stderrFirst w l = some v)
    (start cfg) labels w) : Logs (.server .ready ∈ labels) w :=
  Transition.Run.history (I := fun labels w => Logs (.server .ready ∈ labels) w)
    (fun _ _ _ _ hs hst => step_logs hs hst) h (start_logs cfg)

lemma Logs.complete_iff {ready : Prop} (h : Logs ready w) (ho : Over w) :
    Complete w ↔ ready ∨ ∀ p, Lines.rest newline (w.server.output p) = [] := by
  cases h with
  | unready hr _ hsplit =>
    have hone : ∀ p, w.loggedOf p = Lines.closed newline (w.server.output p) ↔
        Lines.rest newline (w.server.output p) = [] := by
      intro p
      rw [(hsplit p).1, Lines.closed]
      by_cases hrest : Lines.rest newline (w.server.output p) = []
      · simp [hrest]
      · simp [hrest]
    rw [Complete, or_iff_right hr]
    exact forall_congr' hone
  | serving _ hc hp _ =>
    rcases ho with hcrashed | ⟨reason, hstopped⟩
    · cases hc.symm.trans hcrashed
    · cases hp.symm.trans hstopped
  | closed hr _ _ _ hcomplete => exact iff_of_true hcomplete (.inl hr)

/-- A daemon that has ended has logged every line and every tail of the output it handled, each
once, exactly if it had become ready or held no tail. -/
theorem daemon_logs (h : Transition.Run (fun w l v => step cfg clock stderrFirst w l = some v)
    (start cfg) labels w) (ho : Over w) :
    (∀ p, w.loggedOf p = Lines.closed newline (w.server.output p)) ↔
      .server .ready ∈ labels ∨ ∀ p, Lines.rest newline (w.server.output p) = [] :=
  (run_logs h).complete_iff ho

def quietDaemon : Options where
  json _ := none
  cleanupTimeout := 1000
  identityEnabled := false
  spawnObserver := false
  structuredSpawnErrors := false
  trackDescendants := false
  trackObserver := false

def lastOutput (last : List LoggerLabel) : List LoggerLabel :=
  .server (.message (.data .stdout [97, newline, 98])) :: last

/-- Ready at once, a daemon logs the tail before it stops. -/
theorem daemon_logs_ready : ∃ w,
    Transition.exec (step quietDaemon (fun _ => 0) false) (start quietDaemon)
      (.server .ready :: lastOutput [.server (.message (.data .exit []))]) = some w ∧
    Over w ∧ w.loggedOf .stdout = [[97], [98]] ∧
    ((∀ p, w.loggedOf p = Lines.closed newline (w.server.output p)) ↔
      .server .ready ∈ LoggerLabel.server .ready :: lastOutput [.server (.message (.data .exit []))] ∨
        ∀ p, Lines.rest newline (w.server.output p) = []) := by
  have hrun : ∃ w, Transition.exec (step quietDaemon (fun _ => 0) false) (start quietDaemon)
      (.server .ready :: lastOutput [.server (.message (.data .exit []))]) = some w ∧ Over w ∧
      w.loggedOf .stdout = [[97], [98]] := ⟨_, rfl, .inr ⟨_, rfl⟩, by decide⟩
  obtain ⟨w, hw, ho, hlogged⟩ := hrun
  exact ⟨w, hw, ho, hlogged, daemon_logs (Transition.exec_run hw) ho⟩

/-- A child that exits before the daemon is ready takes its last line with it. -/
theorem tail_unlogged : ∃ w,
    Transition.exec (step quietDaemon (fun _ => 0) false) (start quietDaemon)
      (lastOutput [.server (.message (.data .exit []))]) = some w ∧
    Over w ∧ w.loggedOf .stdout = [[97]] ∧
    Lines.closed newline (w.server.output .stdout) = [[97], [98]] := by
  exact ⟨_, rfl, .inr ⟨_, rfl⟩, by decide, by decide⟩

end Logger

end Forcola.Beam.Daemon
