import Forcola.Beam.StreamSession
import Forcola.Native.Forwarding
import Forcola.Native.WholeOutput
import Mathlib.Algebra.Order.BigOperators.Group.List

/-! Bounded stderr, from the child's pipe to the consumer of a stream. -/

namespace Forcola.Beam.Stream

open Library
open Native (Bytes Pipe Pump)
open Native.Supervisor (InFrame Config carried outputs received Reads credits Metered Within)
open Session (shimLabels clientLabels)

variable {σ : Type} {cfg : Options} {clock : ℕ → Instant} {timeoutMs reads maxStderr : ℕ}
  {ncfg : Config} {H : Native.Host σ} {began : Native.Instant} {tracker : Option (Native.Tracker σ)}
  {s t u : Session.State State σ} {labels : List (Session.Label Label)} {text : Bytes}

def joined (cfg : Options) (clock : ℕ → Instant) (timeoutMs reads : ℕ) (began : Native.Instant)
    (tracker : Option (Native.Tracker σ)) : Session.State State σ :=
  .begin (start cfg clock timeoutMs reads)
    (Native.Supervisor.begin began true (some (.stderr, true)) tracker)

abbrev Runs (cfg : Options) (clock : ℕ → Instant) (ncfg : Config) (H : Native.Host σ) :
    Session.State State σ → List (Session.Label Label) → Session.State State σ → Prop :=
  Session.Runs (client cfg clock) ncfg H

/-- A run that ended with the limit on stderr, or with the EXIT of a child that nobody stopped. -/
inductive Ended (cfg : Options) (clock : ℕ → Instant) (ncfg : Config) (H : Native.Host σ)
    (maxStderr : ℕ) (s₀ : Session.State State σ) (labels : List (Session.Label Label))
    (s : Session.State State σ) : Prop
  | limited (h : StderrLimited maxStderr s.left)
  | exits {before : List (Session.Label Label)} {u : Session.State State σ} {wait : ℤ}
      {payload : Bytes} (hrun : Runs cfg clock ncfg H s₀ before u)
      (hl : labels = before ++ [.left (.message (.data .exit payload))])
      (hp : u.left.phase = .receiving wait) (hd : u.right.discardOutput = false)
      (hs : Session.step (client cfg clock) ncfg H u (.left (.message (.data .exit payload))) = some s)

structure Retains (cfg : Options) (maxStderr : ℕ) (text : Bytes) (s : State) : Prop where
  admitted : carried .stderr (admitted maxStderr s.log) = text.take maxStderr
  stderr : cfg.mergeStderr = false → s.stderr = text.take maxStderr
  error : cfg.mergeStderr = false → ∀ e, s.exit = some (.error e) → e.stderr = text.take maxStderr
  limited : StderrLimited maxStderr s →
    emittedLines s.log = Lines.lines newline (mixed cfg (Stream.admitted maxStderr s.log))
  exited : ¬StderrLimited maxStderr s →
    emittedLines s.log = Lines.closed newline (mixed cfg (Stream.admitted maxStderr s.log))

structure Known (cfg : Options) (ncfg : Config) (maxStderr : ℕ)
    (labels : List (Session.Label Label)) (s : Session.State State σ) : Prop where
  stream : Bounded cfg maxStderr (clientLabels labels) s.left
  sends : Native.Supervisor.Sends (some (.stderr, true)) (shimLabels labels) s.right
  uncut : Native.Supervisor.Uncut s.right
  gated : Native.Supervisor.Gated (Native.Supervisor.budgets true (some (.stderr, true))) s.right
  corked : Native.Supervisor.Corked ncfg s.right

lemma run_known (hmax : cfg.maxStderrBytes = some maxStderr)
    (hfits : maxStderr + 1 ≤ Native.u64Max) (hst : ncfg.strictOutput = true)
    (h : Runs cfg clock ncfg H (joined cfg clock timeoutMs reads began tracker) labels s) :
    Known cfg ncfg maxStderr labels s := by
  refine ⟨run_bounded hmax hfits h.client, Native.Supervisor.run_sends h.shim,
    Native.Supervisor.run_uncut hst h.shim, ?_, ?_⟩
  · exact h.shim.invariant (fun _ _ _ hi hs => hi.step hs)
      (Native.Supervisor.begin_gated began true (some (.stderr, true)) tracker)
  · exact h.shim.invariant (fun _ _ _ hi hs => hi.step hs)
      (Native.Supervisor.begin_corked began true (some (.stderr, true)) tracker)

lemma credits_le (hmax : cfg.maxStderrBytes = some maxStderr)
    (hfits : maxStderr + 1 ≤ Native.u64Max)
    (h : Runs cfg clock ncfg H (joined cfg clock timeoutMs reads began tracker) labels s) :
    credits .stderr s.right.taken ≤ maxStderr + 1 := by
  have hgranted := (run_bounded hmax hfits h.client).mannered.granted
  exact (h.granted_le rfl .stderr).trans (le_of_eq hgranted)

lemma run_metered (hmax : cfg.maxStderrBytes = some maxStderr)
    (hfits : maxStderr + 1 ≤ Native.u64Max)
    (h : Runs cfg clock ncfg H (joined cfg clock timeoutMs reads began tracker) labels s) :
    Metered .stderr (shimLabels labels) s.right := by
  refine Session.metered (Native.Supervisor.begin_metered .stderr _ _ _ _) (fun labels s h => ?_) h
  have hle := credits_le hmax hfits h
  rw [Within]
  omega

lemma brings_le {frame : InFrame} {frames : List InFrame} (pipe : Pipe) (h : frame ∈ frames) :
    frame.brings pipe ≤ credits pipe frames :=
  List.single_le_sum (fun _ _ => Nat.zero_le _) _ (List.mem_map_of_mem h)

lemma credits_taken (hmax : cfg.maxStderrBytes = some maxStderr)
    (hfits : maxStderr + 1 ≤ Native.u64Max)
    (h : Runs cfg clock ncfg H (joined cfg clock timeoutMs reads began tracker) labels s)
    {payload : Bytes} (hp : .stderrCredit payload ∈ s.right.taken) :
    credits .stderr s.right.taken = maxStderr + 1 := by
  have hin : InFrame.stderrCredit payload ∈ s.right.inbox := List.mem_append_right _ hp
  have hsent := List.mem_of_mem_take ((h.inbox rfl).mem_iff.mp hin)
  obtain ⟨command, hc, hframe⟩ := List.mem_filterMap.mp hsent
  have hgrant := (run_bounded hmax hfits h.client).mannered.grant
  obtain ⟨bytes, rfl⟩ : ∃ bytes, command = .credit .stderr bytes := by
    cases command with
    | credit pipe bytes =>
      cases pipe with
      | stdout => cases hframe
      | stderr => exact ⟨bytes, rfl⟩
    | stdin | eof | kill => cases hframe
  obtain rfl := hgrant bytes hc
  have hbrings : (InFrame.stderrCredit payload).brings .stderr = maxStderr + 1 := by
    have hgranted := Session.granted_credit .stderr hfits
    rw [Session.granted, List.filterMap_cons_some hframe] at hgranted
    simpa [credits] using hgranted
  have hle := credits_le hmax hfits h
  have hge := brings_le .stderr hp
  omega

lemma pump_bound (hmax : cfg.maxStderrBytes = some maxStderr)
    (hfits : maxStderr + 1 ≤ Native.u64Max) (hst : ncfg.strictOutput = true)
    (h : Runs cfg clock ncfg H (joined cfg clock timeoutMs reads began tracker) labels s)
    {p : Pump} (hp : s.right.selected .stderr = some p) :
    (received .stderr (shimLabels labels)).length ≤ maxStderr + 1 ∧
    (carried .stderr (outputs s.right.wire)).length ≤ maxStderr + 1 ∧
    (p.point = .awaiting → p.permit = none → ∀ payload, .stderrCredit payload ∈ s.right.taken →
      (carried .stderr (outputs s.right.wire)).length = maxStderr + 1) := by
  have hk := run_known hmax hfits hst h
  obtain ⟨c, hc⟩ := hk.gated.budget rfl hp
  have hu := hk.corked hst .stderr p c hp hc
  obtain ⟨hsum, -⟩ := run_metered hmax hfits h p c hp hc hu
  obtain ⟨hacc, hahead⟩ := hk.sends.apart rfl hp
  have hcredits := credits_le hmax hfits h
  have hsent := (List.IsPrefix.trans (List.prefix_append _ _) hahead).length_le
  refine ⟨by omega, by omega, fun hpoint hpark payload hpayload => ?_⟩
  obtain ⟨c', hc', -, -, hempty⟩ := Pump.parked hpark
  obtain rfl := Option.some.inj (hc.symm.trans hc')
  rw [Native.Supervisor.Accounted, hpoint] at hacc
  have hall : received .stderr (shimLabels labels) = carried .stderr (outputs s.right.wire) ++ [] :=
    hacc.bytes
  rw [List.append_nil] at hall
  rw [← hall]
  have htaken := credits_taken hmax hfits h hpayload
  omega

lemma carried_starts {pipe : Pipe} {chunks more : List (Pipe × Bytes)} (h : chunks <+: more) :
    carried pipe chunks <+: carried pipe more := by
  obtain ⟨rest, rfl⟩ := h
  rw [Native.Supervisor.carried_append]
  exact List.prefix_append _ _

lemma handled_text (hk : Known cfg ncfg maxStderr labels s)
    (h : Runs cfg clock ncfg H (joined cfg clock timeoutMs reads began tracker) labels s)
    (ht : Reads text .stderr (shimLabels labels)) : handled .stderr s.left.log <+: text := by
  obtain ⟨p, hp⟩ : ∃ p, s.right.selected .stderr = some p := hk.gated.selected rfl
  obtain ⟨-, hahead⟩ := hk.sends.apart rfl hp
  have hsent : carried .stderr (outputs s.right.wire) <+: text :=
    (List.IsPrefix.trans (List.prefix_append _ _) hahead).trans ht.bytes
  exact (hk.stream.listening.heard .stderr).trans ((carried_starts h.heard_prefix).trans hsent)

lemma take_prefix {pre whole : Bytes} (h : pre <+: whole) {n : ℕ} (hn : n ≤ pre.length) :
    pre.take n = whole.take n := by
  obtain ⟨rest, rfl⟩ := h
  rw [List.take_append_of_le_length hn]

lemma limited_retains (hk : Known cfg ncfg maxStderr labels s)
    (h : Runs cfg clock ncfg H (joined cfg clock timeoutMs reads began tracker) labels s)
    (ht : Reads text .stderr (shimLabels labels)) (hl : StderrLimited maxStderr s.left) :
    maxStderr < text.length ∧ Retains cfg maxStderr text s.left := by
  obtain ⟨e, he, hlimit⟩ := hl
  obtain ⟨-, hfull⟩ := hk.stream.capped.limited e maxStderr he hlimit
  have hprefix := handled_text hk h ht
  have htake : (handled .stderr s.left.log).take maxStderr = text.take maxStderr :=
    take_prefix hprefix hfull.lt.le
  have hstderr : cfg.mergeStderr = false → s.left.stderr = text.take maxStderr :=
    fun hm => (hfull.stderr hm).trans htake
  refine ⟨hfull.lt.trans_le hprefix.length_le, (carried_admitted _ _).trans htake, hstderr, ?_, ?_, ?_⟩
  · intro hm e' he'
    rw [hk.stream.capped.saved e' he', hstderr hm]
  · intro _
    simpa using hfull.emitted
  · exact fun hno => absurd ⟨e, he, hlimit⟩ hno

lemma own_exit (hk : Known cfg ncfg maxStderr labels u)
    (h : Runs cfg clock ncfg H (joined cfg clock timeoutMs reads began tracker) labels u) {wait : ℤ}
    (hp : u.left.phase = .receiving wait) (hd : u.right.discardOutput = false)
    {r : Native.Supervisor.ExitReport} (hr : .exit r ∈ u.right.wire) : r.outputTruncated = false := by
  by_contra hcut
  have hframes : Native.Supervisor.Frame.exit r ∈ u.right.frames := List.mem_append_left _ hr
  rcases hk.uncut.reports r hframes (Bool.eq_true_of_not_eq_false hcut) with hg | hkill
  · exact Bool.noConfusion (hd.symm.trans hg)
  · have he := hk.stream.capped.waiting (.inl ⟨wait, hp⟩)
    rcases hk.stream.mannered.killed (h.kill_sent rfl hkill) with hx | ha | ⟨purpose, deadline, ha⟩
    · exact hx he
    · cases hp.symm.trans ha
    · cases hp.symm.trans ha

lemma exit_handled (hk : Known cfg ncfg maxStderr labels u)
    (h : Runs cfg clock ncfg H (joined cfg clock timeoutMs reads began tracker) labels u) {wait : ℤ}
    (hp : u.left.phase = .receiving wait) (hd : u.right.discardOutput = false) {payload : Bytes}
    (hs : Session.step (client cfg clock) ncfg H u (.left (.message (.data .exit payload))) = some s)
    (ht : Reads text .stderr (shimLabels labels)) : handled .stderr u.left.log = text := by
  obtain ⟨newer, older, r, hwire, hheard⟩ := h.closing rfl hs
  have hmem : Native.Supervisor.Frame.exit r ∈ u.right.wire :=
    hwire ▸ List.mem_append_right _ List.mem_cons_self
  have hcut := own_exit hk h hp hd hmem
  obtain ⟨hall, hcan⟩ := hk.sends.ordered.complete r (List.mem_append_left _ hmem) hcut
  obtain ⟨p, hsel⟩ : ∃ p, u.right.selected .stderr = some p := hk.gated.selected rfl
  have hclosed := Native.Supervisor.State.all_closed hall hsel
  have hcon : u.right.connected = true := (Session.step_link hs).2
  have hsent : carried .stderr (outputs u.right.wire) = text :=
    hk.sends.complete rfl hsel hclosed (Native.Supervisor.State.not_cancelled hcan hsel) hcon ht
  have houtputs : outputs u.right.wire = outputs older := by
    rw [hwire, Native.Supervisor.outputs_append (hk.sends.sealed newer older r hwire hcut),
      Native.Supervisor.outputs_cons]
    exact List.append_nil _
  have hgoing : ¬Quitting u.left := by
    rintro (hx | ha | ⟨purpose, deadline, ha⟩)
    · exact hx (hk.stream.capped.waiting (.inl ⟨wait, hp⟩))
    · cases hp.symm.trans ha
    · cases hp.symm.trans ha
  rw [hk.stream.listening.whole hgoing, ← hsent, houtputs, ← hheard]
  rfl

lemma exit_retains (hk : Known cfg ncfg maxStderr labels u)
    (h : Runs cfg clock ncfg H (joined cfg clock timeoutMs reads began tracker) labels u) {wait : ℤ}
    (hp : u.left.phase = .receiving wait) (hd : u.right.discardOutput = false) {payload : Bytes}
    (hs : Session.step (client cfg clock) ncfg H u (.left (.message (.data .exit payload))) = some s)
    (ht : Reads text .stderr (shimLabels labels)) : text.length ≤ maxStderr ∧
      ¬StderrLimited maxStderr s.left ∧ Retains cfg maxStderr text s.left := by
  have he : u.left.exit = none := hk.stream.capped.waiting (.inl ⟨wait, hp⟩)
  have hwhole := hk.stream.capped.going he (by simp [hp])
  obtain ⟨hbuffer, hlines⟩ := (hk.stream.framed.going he (by simp [hp])).1
  have hhandled := exit_handled hk h hp hd hs ht
  have hle : text.length ≤ maxStderr := hhandled ▸ hwhole.le
  have hexit : s.left = handleExit cfg u.left payload := by
    have hleft : step cfg clock u.left _ = some s.left := (Session.step_left hs).1
    rw [Stream.step.eq_def, hp] at hleft
    exact (Option.some.inj hleft).symm
  obtain ⟨exit, hdec, hplain⟩ := @handleExit_decides cfg u.left payload
  have hkeeps := @Preserves.handleExit cfg u.left payload
  rw [← hexit] at hdec hkeeps
  obtain ⟨es, hes, hlog⟩ := hdec.log
  obtain ⟨hsame, hadmits⟩ := @aside_handled maxStderr u.left.log es hes .stderr
  have hadmitted : admitted maxStderr s.left.log = admitted maxStderr u.left.log := by
    rw [hlog]
    exact hadmits
  have hstderr : cfg.mergeStderr = false → s.left.stderr = text.take maxStderr := by
    intro hm
    rw [hkeeps.saves.stderr, hwhole.stderr hm, hhandled, List.take_of_length_le hle]
  have hunlimited : ¬StderrLimited maxStderr s.left := by
    rintro ⟨e, hx, hlimit⟩
    obtain rfl := Option.some.inj (hdec.exit.symm.trans hx)
    rw [(hplain e rfl).1] at hlimit
    cases hlimit
  refine ⟨hle, hunlimited, ?_, hstderr, ?_, fun hl => absurd hl hunlimited, fun _ => ?_⟩
  · rw [hadmitted, carried_admitted, hhandled]
  · intro hm e hx
    rcases hkeeps.error e hx with hold | heq
    · cases he.symm.trans hold
    · rw [heq, hstderr hm]
  · rw [hadmitted, mixed_admitted hwhole.le, Lines.closed, ← hbuffer, ← hlines, hlog]
    have hout := (@aside_output cfg u.left.log es hes).2
    change emittedLines (es ++ u.left.log) ++ _ = _
    rw [hout]
    cases u.left.buffer <;> rfl

/-- Whatever the child writes to stderr and however it is read, sent, queued and pulled: the pump
reads and forwards no more than the one grant, and once that has come in it does not rest before it
has forwarded all of it. A stream ended by its stderr limit or by the EXIT of a child that nobody
stopped has kept the first bytes of stderr up to its bound, and the limit was raised exactly when
there were more. -/
theorem stderr_bounded (cfg : Options) (clock : ℕ → Instant) (timeoutMs reads maxStderr : ℕ)
    (ncfg : Config) (H : Native.Host σ) (began : Native.Instant)
    (tracker : Option (Native.Tracker σ)) (labels : List (Session.Label Label))
    (s : Session.State State σ) (hmax : cfg.maxStderrBytes = some maxStderr)
    (hfits : maxStderr + 1 ≤ Native.u64Max) (hst : ncfg.strictOutput = true)
    (hrun : Runs cfg clock ncfg H (joined cfg clock timeoutMs reads began tracker) labels s) :
    (∀ p, s.right.selected .stderr = some p →
      (received .stderr (shimLabels labels)).length ≤ maxStderr + 1 ∧
      (carried .stderr (outputs s.right.wire)).length ≤ maxStderr + 1 ∧
      (p.point = .awaiting → p.permit = none → ∀ payload, .stderrCredit payload ∈ s.right.taken →
        (carried .stderr (outputs s.right.wire)).length = maxStderr + 1)) ∧
    ∀ text, Reads text .stderr (shimLabels labels) →
      Ended cfg clock ncfg H maxStderr (joined cfg clock timeoutMs reads began tracker) labels s →
      (StderrLimited maxStderr s.left ↔ maxStderr < text.length) ∧
        Retains cfg maxStderr text s.left := by
  refine ⟨fun p hp => pump_bound hmax hfits hst hrun hp, fun text ht hend => ?_⟩
  cases hend with
  | limited hl =>
    obtain ⟨hlt, hkept⟩ := limited_retains (run_known hmax hfits hst hrun) hrun ht hl
    exact ⟨⟨fun _ => hlt, fun _ => hl⟩, hkept⟩
  | @exits before u wait payload hrun hl hp hd hs =>
    have hlabels : shimLabels labels = shimLabels before := by
      rw [hl, shimLabels, Link.filterMap_snoc]
      exact List.append_nil _
    obtain ⟨hle, hno, hkept⟩ :=
      exit_retains (run_known hmax hfits hst hrun) hrun hp hd hs (hlabels ▸ ht)
    exact ⟨⟨fun hlimit => absurd hlimit hno, fun hlt => absurd hle (not_le.mpr hlt)⟩, hkept⟩

def cappedStream : Options where
  json _ := none
  timeoutMs := 1000
  cleanupTimeout := 0
  idleTimeout := none
  window := some 8
  maxLineBytes := some 8
  maxStderrBytes := some 1
  mergeStderr := false
  identityEnabled := false
  spawnObserver := false
  structuredSpawnErrors := false
  trackDescendants := false
  trackObserver := false

def cappedShim : Config := ⟨0, none, false, true⟩

def cappedStart : Session.State State Unit :=
  joined cappedStream (fun _ => 0) 1000 0 0 none

def cappedRun : List (Session.Label Label) :=
  [.right (.send (.stderrCredit (Shim.encodeCredit 2))), .right (.receive ⟨[], [], []⟩),
    .right (.pump .stderr .permit), .right (.pump .stderr (.read (.data [97, 98]))),
    .right (.pump .stderr (.write true)), .left .pull, .left (.message (.data .stderr [97, 98]))]

theorem stderr_bounded_capped : ∃ s,
    Transition.exec (Session.step (client cappedStream fun _ => 0) cappedShim .empty) cappedStart
      cappedRun = some s ∧
    (received .stderr (shimLabels cappedRun)).length = 2 ∧
    (StderrLimited 1 s.left ↔ 1 < [97, 98].length) ∧ s.left.stderr = [97] := by
  have hk : (Transition.exec (Session.step (client cappedStream fun _ => 0) cappedShim .empty)
      cappedStart cappedRun).any (fun s => s.left.exit == some (.error { s.left.trackingError with
        status := some .unconfirmed
        limit := some (.totalStderr 1)
        outputTruncated := true
        confirmation := some .timeout })) = true := by
    decide +kernel
  obtain ⟨s, hs, he⟩ := Option.any_eq_true .. |>.mp hk
  obtain ⟨-, hended⟩ := stderr_bounded cappedStream (fun _ => 0) 1000 0 1 cappedShim .empty 0
    none cappedRun s rfl (by decide) rfl (Transition.exec_run hs)
  obtain ⟨hlimit, hkept⟩ := hended [97, 98] ⟨by decide, by decide, by decide⟩
    (.limited ⟨_, eq_of_beq he, rfl⟩)
  exact ⟨s, hs, by decide, hlimit, hkept.stderr rfl⟩

/-- Before its credit arrives the pump rests with nothing forwarded and no EOF read. -/
theorem stderr_pump_waits : ¬∀ (cfg : Options) (clock : ℕ → Instant) (timeoutMs reads maxStderr : ℕ)
    (ncfg : Config) (H : Native.Host Unit) (began : Native.Instant)
    (tracker : Option (Native.Tracker Unit)) (labels : List (Session.Label Label))
    (s : Session.State State Unit) (p : Pump), cfg.maxStderrBytes = some maxStderr →
    maxStderr + 1 ≤ Native.u64Max → ncfg.strictOutput = true →
    Runs cfg clock ncfg H (joined cfg clock timeoutMs reads began tracker) labels s →
    s.right.selected .stderr = some p → p.point = .awaiting → p.permit = none →
    (carried .stderr (outputs s.right.wire)).length = maxStderr + 1 ∨
      .eof ∈ Native.Supervisor.answers .stderr (shimLabels labels) := by
  intro h
  rcases h cappedStream (fun _ => 0) 1000 0 1 cappedShim .empty 0 none [] cappedStart
    (.new .stderr true) rfl (by decide) rfl (.nil _) rfl rfl rfl with hall | heof
  · exact absurd hall (by decide)
  · exact absurd heof List.not_mem_nil

end Forcola.Beam.Stream
