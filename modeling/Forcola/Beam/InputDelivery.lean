import Forcola.Beam.DuplexInput
import Forcola.Native.ChildInput

/-! Accepted input, from the session's port to the child's stdin. -/

namespace Forcola.Beam.Shim.Command

open Native (Bytes)
open Native.Frame (tagStdin tagEof tagKill tagCredit tagStderrCredit)

def tag : Command → UInt8
  | .stdin _ => tagStdin
  | .eof => tagEof
  | .kill => tagKill
  | .credit .stdout _ => tagCredit
  | .credit .stderr _ => tagStderrCredit

def frame (command : Command) : UInt8 × Bytes :=
  (command.tag, command.payload)

def isInput : Command → Bool
  | .stdin _ | .eof => true
  | .kill | .credit _ _ => false

variable {command : Command}

lemma isInput_of_stdin (h : command.tag = tagStdin) : command.isInput = true := by
  cases command with
  | stdin bytes => rfl
  | eof => rfl
  | kill => exact absurd h (by decide)
  | credit pipe bytes => cases pipe <;> exact absurd h (by simp only [tag]; decide)

lemma eq_of_eof (h : command.tag = tagEof) : command = .eof := by
  cases command with
  | eof => rfl
  | stdin bytes => exact absurd h (by simp only [tag]; decide)
  | kill => exact absurd h (by decide)
  | credit pipe bytes => cases pipe <;> exact absurd h (by simp only [tag]; decide)

lemma short_or_stdin (command : Command) :
    command.payload.length + 1 ≤ 9 ∨ ∃ bytes, command = .stdin bytes := by
  cases command with
  | stdin bytes => exact .inr ⟨bytes, rfl⟩
  | eof => exact .inl (by decide)
  | kill => exact .inl (by decide)
  | credit pipe bytes => exact .inl (by simp [payload, encodeCredit])

end Forcola.Beam.Shim.Command

namespace Forcola.Beam.Duplex

open Library Transition
open Native (Bytes Pipe)
open Native.Frame (maxFrameLen tagStdin tagEof)
open Native.ChildInput (Sound Short Delivers input ended)
open Shim (Command)

def InputFrame.text : InputFrame → Option Bytes
  | .line bytes => some bytes
  | .eof => none

def Entry.wired : Entry → List Command
  | .did (.command command) => [command]
  | _ => []

namespace Log

def wired (log : Log) : List Command := log.flatMap Entry.wired

/-- The frames of the calls that were told `:ok`, in the order in which these were handled. -/
def accepted (log : Log) : List InputFrame :=
  (log.offered.filter fun call => SendReply.ok ∈ log.sendReplies call.1).map (·.2)

def acceptedLines (log : Log) : List Bytes :=
  log.accepted.filterMap InputFrame.text

end Log

variable {cfg : Options} {s t : State}

lemma sent_eq (log : Log) : log.sent = log.wired.filter Command.isInput := by
  induction log with
  | nil => rfl
  | cons entry log ih =>
    have h : entry.sent = entry.wired.filter Command.isInput := by
      cases entry with
      | did effect =>
        cases effect with
        | command command => cases command <;> rfl
        | _ => rfl
      | _ => rfl
    change entry.sent ++ Log.sent log = (entry.wired ++ Log.wired log).filter Command.isInput
    rw [List.filter_append, h, ih]

lemma input_sent (commands : List Command) :
    input (commands.map Command.frame) =
      input ((commands.filter Command.isInput).map Command.frame) := by
  induction commands with
  | nil => rfl
  | cons command commands ih =>
    have hc : ∀ f more, input (f :: more) = input [f] ++ input more := fun f more => by
      rw [← Native.ChildInput.input_append, List.singleton_append]
    rw [List.map_cons, hc, ih]
    cases command with
    | stdin bytes => rw [List.filter_cons_of_pos rfl, List.map_cons, ← hc]
    | eof => rw [List.filter_cons_of_pos rfl, List.map_cons, ← hc]
    | kill => rw [List.filter_cons_of_neg (by decide)]; rfl
    | credit pipe bytes =>
      rw [List.filter_cons_of_neg (by simp [Command.isInput])]
      cases pipe <;> rfl

lemma input_accepted (frames : List InputFrame) :
    input (frames.map fun frame => frame.command.frame) =
      (frames.filterMap InputFrame.text).flatMap (· ++ [newline]) := by
  induction frames with
  | nil => rfl
  | cons frame frames ih =>
    have hc : ∀ f more, input (f :: more) = input [f] ++ input more := fun f more => by
      rw [← Native.ChildInput.input_append, List.singleton_append]
    rw [List.map_cons, hc, ih]
    cases frame with
    | line line =>
      have hl : input [(InputFrame.line line).command.frame] = line ++ [newline] := by
        simp [Command.frame, InputFrame.command, Command.tag, Command.payload]
      rw [hl]
      rfl
    | eof => rfl

lemma wired_input {es : List (Outbox.Event Caller InputFrame)} (hb : Boxed t.feed es)
    (hn : t.log.Distinct) :
    t.log.wired.filter Command.isInput = t.log.accepted.map (·.command) := by
  rw [← sent_eq, sent_eq_filter hb hn, Log.accepted, List.map_map]
  rfl

lemma sound_wired (ht : Tended t.feed) (hk : Command.kill ∉ t.log.wired) :
    Sound (t.log.wired.map Command.frame) where
  tags := by
    rintro f hf
    obtain ⟨command, hm, rfl⟩ := List.mem_map.mp hf
    cases command with
    | stdin bytes => exact .inl rfl
    | eof => exact .inr (.inl rfl)
    | kill => exact absurd hm hk
    | credit pipe bytes =>
      cases pipe with
      | stdout => exact .inr (.inr (.inl rfl))
      | stderr => exact .inr (.inr (.inr rfl))
  sealed := by
    have hs : t.log.sent.Pairwise fun earlier _ => earlier ≠ .eof :=
      (List.pairwise_append.mp ht.sealed).1
    rw [sent_eq, List.pairwise_filter] at hs
    refine List.pairwise_map.mpr (hs.imp fun {a b} h he hi => ?_)
    have ha := Command.eq_of_eof he
    exact h (ha ▸ rfl) (Command.isInput_of_stdin hi) ha

lemma short_wired {es : List (Outbox.Event Caller InputFrame)} (hb : Boxed t.feed es)
    (hn : t.log.Distinct) :
    Short (t.log.wired.map Command.frame) ↔
      ∀ line ∈ t.log.acceptedLines, line.length + 2 ≤ maxFrameLen := by
  have hmem : ∀ bytes, Command.stdin bytes ∈ t.log.wired ↔
      ∃ line ∈ t.log.acceptedLines, bytes = line ++ [newline] := by
    intro bytes
    have hf : Command.stdin bytes ∈ t.log.wired ↔
        Command.stdin bytes ∈ t.log.wired.filter Command.isInput := by
      simp [Command.isInput]
    rw [hf, wired_input hb hn, List.mem_map]
    constructor
    · rintro ⟨frame, hm, he⟩
      cases frame with
      | line line =>
        refine ⟨line, List.mem_filterMap.mpr ⟨_, hm, rfl⟩, ?_⟩
        exact (Command.stdin.inj he).symm
      | eof => cases he
    · rintro ⟨line, hm, rfl⟩
      obtain ⟨frame, hfm, he⟩ := List.mem_filterMap.mp hm
      cases frame with
      | line line' =>
        obtain rfl : line' = line := Option.some.inj he
        exact ⟨.line line', hfm, rfl⟩
      | eof => cases he
  constructor
  · intro h line hm
    have hf : (line ++ [newline]).length + 1 ≤ maxFrameLen :=
      h _ (List.mem_map_of_mem ((hmem (line ++ [newline])).mpr ⟨line, hm, rfl⟩))
    rwa [List.length_append, List.length_singleton] at hf
  · rintro h f hf
    obtain ⟨command, hm, rfl⟩ := List.mem_map.mp hf
    rcases command.short_or_stdin with hs | ⟨bytes, rfl⟩
    · exact hs.trans (by decide)
    · obtain ⟨line, hl, rfl⟩ := (hmem bytes).mp hm
      show (line ++ [newline]).length + 1 ≤ maxFrameLen
      rw [List.length_append, List.length_singleton]
      exact h line hl

lemma ended_wired {es : List (Outbox.Event Caller InputFrame)} (hb : Boxed t.feed es)
    (hn : t.log.Distinct) :
    ended (t.log.wired.map Command.frame) = decide (InputFrame.eof ∈ t.log.accepted) := by
  have hmem : Command.eof ∈ t.log.wired ↔ InputFrame.eof ∈ t.log.accepted := by
    have hf : Command.eof ∈ t.log.wired ↔ Command.eof ∈ t.log.wired.filter Command.isInput := by
      simp [Command.isInput]
    rw [hf, wired_input hb hn, List.mem_map]
    constructor
    · rintro ⟨frame, hm, he⟩
      cases frame with
      | line line => cases he
      | eof => exact hm
    · exact fun hm => ⟨_, hm, rfl⟩
  rw [Bool.eq_iff_iff, decide_eq_true_iff, ← hmem, ended, List.any_eq_true]
  constructor
  · rintro ⟨f, hf, he⟩
    obtain ⟨command, hm, rfl⟩ := List.mem_map.mp hf
    exact Command.eq_of_eof (of_decide_eq_true he) ▸ hm
  · exact fun hm => ⟨_, List.mem_map_of_mem hm, rfl⟩

lemma first_long {frames : List (UInt8 × Bytes)} (h : ¬Short frames) :
    ∃ front bad back, frames = front ++ bad :: back ∧ Short front ∧
      maxFrameLen < bad.2.length + 1 := by
  induction frames with
  | nil => exact absurd (fun f hf => by cases hf) h
  | cons f frames ih =>
    by_cases hf : f.2.length + 1 ≤ maxFrameLen
    · obtain ⟨front, bad, back, rfl, hs, hb⟩ := ih fun hs => h fun g hg => by
        rcases List.mem_cons.mp hg with rfl | hg
        · exact hf
        · exact hs g hg
      refine ⟨f :: front, bad, back, rfl, fun g hg => ?_, hb⟩
      rcases List.mem_cons.mp hg with rfl | hg
      · exact hf
      · exact hs g hg
    · exact ⟨[], f, frames, rfl, fun g hg => (by cases hg), not_le.mp hf⟩

theorem input_fidelity {as : List Label} (h : Steps cfg (init cfg) as t) (hn : t.log.Distinct)
    (hk : Command.kill ∉ t.log.wired) (bounded : Bool) :
    Delivers bounded (t.log.wired.map Command.frame) (t.log.acceptedLines.flatMap (· ++ [newline]))
        (decide (InputFrame.eof ∈ t.log.accepted)) ↔
      ∀ line ∈ t.log.acceptedLines, line.length + 2 ≤ maxFrameLen := by
  obtain ⟨-, ht, ⟨es, hb⟩, -⟩ := run_fed h
  have hsound := sound_wired ht hk
  rw [← short_wired hb hn]
  constructor
  · intro hd
    by_contra hs
    obtain ⟨front, bad, back, hsplit, hfront, hbad⟩ := first_long hs
    rw [hsplit] at hd hsound
    refine Native.ChildInput.not_delivers bounded hfront (fun f hf he => ?_) hbad hd
    -- only a line is that long, and none comes behind an EOF
    have hstdin : bad.1 = tagStdin := by
      have hm : bad ∈ t.log.wired.map Command.frame := by
        rw [hsplit]
        exact List.mem_append_right _ List.mem_cons_self
      obtain ⟨command, -, rfl⟩ := List.mem_map.mp hm
      rcases command.short_or_stdin with hs | ⟨bytes, rfl⟩
      · exact absurd hbad (not_lt.mpr (hs.trans (by decide)))
      · rfl
    exact (List.pairwise_append.mp hsound.sealed).2.2 f hf bad List.mem_cons_self he hstdin
  · intro hs
    have hd := Native.ChildInput.delivers bounded hsound hs
    rw [input_sent, wired_input hb hn, List.map_map, ended_wired hb hn] at hd
    exact input_accepted t.log.accepted ▸ hd

theorem input_fidelity_small : ∃ t,
    exec (step (smallOptions .pull)) (init (smallOptions .pull)) busyInput = some t ∧
      (Delivers true (t.log.wired.map Command.frame) (t.log.acceptedLines.flatMap (· ++ [newline]))
          (decide (InputFrame.eof ∈ t.log.accepted)) ↔
        ∀ line ∈ t.log.acceptedLines, line.length + 2 ≤ maxFrameLen) ∧
      t.log.acceptedLines = [[97], [98]] := by
  have hrun : (exec (step (smallOptions .pull)) (init (smallOptions .pull)) busyInput).any
      (fun t => decide ((t.log.offered.map Prod.fst).Nodup) && decide (Command.kill ∉ t.log.wired) &&
        decide (t.log.acceptedLines = [[97], [98]])) = true := by
    decide +kernel
  obtain ⟨t, ht, hb⟩ := Option.any_eq_true .. |>.mp hrun
  simp only [Bool.and_eq_true, decide_eq_true_eq] at hb
  exact ⟨t, ht, input_fidelity (exec_run ht) hb.1.1 hb.1.2 true, hb.2⟩

lemma lone_line (line : Bytes) : ∃ t,
    Steps (smallOptions .messages) (init (smallOptions .messages))
      [.message (.call 0 (.sendLine line)) [.ok]] t ∧
    t.log.Distinct ∧ t.log.wired = [.stdin (line ++ [newline])] ∧ t.log.acceptedLines = [line] :=
  ⟨_, .single rfl, List.nodup_singleton _, rfl, rfl⟩

def longLine : Bytes := List.replicate (maxFrameLen - 1) 0

/-- The line is accepted, its reader fails, and the shim kills the child. -/
theorem input_fidelity_fails :
    (¬∀ (as : List Label) (t : State),
      Steps (smallOptions .messages) (init (smallOptions .messages)) as t → t.log.Distinct →
      Command.kill ∉ t.log.wired → ∀ bounded,
      Delivers bounded (t.log.wired.map Command.frame)
        (t.log.acceptedLines.flatMap (· ++ [newline])) (decide (InputFrame.eof ∈ t.log.accepted))) ∧
    (∃ u, Native.ChildInput.Steps false Native.ChildInput.start
      [.arrive (Native.ChildInput.encoded [(Command.stdin (longLine ++ [newline])).frame]), .read] u ∧
      u.events = [.stdinError] ∧ u.written = []) ∧
    ∀ (σ : Type) (cfg : Native.Supervisor.Config) (s : Native.Supervisor.State σ)
      (loop : Native.Supervisor.Untracked) (answers : Native.Supervisor.KillAnswers),
      loop.groupCleanupStarted = false →
      (Native.Supervisor.handleUntracked cfg s loop answers .stdinError).acts =
        .killGroup (Native.Supervisor.killGroup cfg answers) :: s.acts := by
  have hlen : longLine.length = maxFrameLen - 1 := List.length_replicate
  let wire := Native.ChildInput.encoded [(Command.stdin (longLine ++ [newline])).frame]
  let s : Native.ChildInput.State := { Native.ChildInput.start with stream := [] ++ wire }
  refine ⟨fun h => ?_, ⟨s.stop .stdinError, .cons (t := s) rfl (.single ?_), rfl, rfl⟩, ?_⟩
  · obtain ⟨t, hr, hn, hw, hl⟩ := lone_line longLine
    have hk : Command.kill ∉ t.log.wired := by simp [hw]
    have hall := (input_fidelity hr hn hk true).mp (h _ t hr hn hk true) longLine (by simp [hl])
    rw [hlen, maxFrameLen] at hall
    omega
  · have hread : Native.Frame.readFrame
        (Native.Frame.writeFrame tagStdin (longLine ++ [newline]) ++ []) = .invalid := by
      apply Native.Frame.readFrame_invalid
      · simp [hlen, maxFrameLen]
      · simp [hlen, maxFrameLen]
    change Native.ChildInput.read s = _
    rw [Native.ChildInput.read, show s.stream =
      Native.Frame.writeFrame tagStdin (longLine ++ [newline]) ++ [] from List.nil_append _, hread]
  · intro σ cfg s loop answers hloop
    simp [Native.Supervisor.handleUntracked, Native.Supervisor.stopGroup, hloop]

end Forcola.Beam.Duplex
