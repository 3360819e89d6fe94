import Forcola.Library.Transition
import Forcola.Native.Frame
import Forcola.Native.SupervisorSteps

/-! The protocol reader, the input queue and the thread that writes the child's stdin. -/

namespace Forcola.Native.ChildInput

open Forcola.Library Transition
open Native.Frame
open Supervisor (InFrame)

/-- Where the reader is: before `read_frame`, in `InputQueue::send`, or returned. -/
inductive Reader
  | reading
  | sending (bytes : Bytes)
  | stopped
deriving DecidableEq

/-- Where the writer is: before `input.recv`, in `write_all` with what is left of it, or gone. -/
inductive Writer
  | receiving
  | writing (bytes : Bytes)
  | gone
deriving DecidableEq

/-- `stream` is what came in and was not read yet, `frames` what `read_frame` returned so far,
`events` what the loop was sent and `written` what the child's stdin took. -/
structure State where
  stream : Bytes
  peerOpen : Bool
  frames : List (UInt8 × Bytes)
  reader : Reader
  sender : Bool
  closed : Bool
  queue : List Bytes
  writer : Writer
  written : Bytes
  events : List Supervisor.Event
deriving DecidableEq

def start : State where
  stream := []
  peerOpen := true
  frames := []
  reader := .reading
  sender := true
  closed := false
  queue := []
  writer := .receiving
  written := []
  events := []

inductive Label
  | arrive (bytes : Bytes)
  | hangUp
  | read
  | enqueue
  | receive
  | write (n : ℕ)
  | writeFails
  | close
deriving DecidableEq

namespace Label

def own : Label → Bool
  | .read | .enqueue | .receive | .write _ => true
  | _ => false

/-- The peer stays, the child keeps reading and no cleanup closes its input. -/
def calm : Label → Bool
  | .hangUp | .writeFails | .close => false
  | _ => true

def arrived : Label → Bytes
  | .arrive bytes => bytes
  | .hangUp | .read | .enqueue | .receive | .write _ | .writeFails | .close => []

end Label

def inFrame (tag : UInt8) (payload : Bytes) : InFrame :=
  if tag = tagCredit then .credit payload
  else if tag = tagStderrCredit then .stderrCredit payload
  else if tag = tagKill then .kill
  else .other tag.toNat

def State.stop (s : State) (event : Supervisor.Event) : State :=
  { s with reader := .stopped, sender := false, events := s.events ++ [event] }

def State.send (s : State) (payload : Bytes) : State :=
  if s.sender && !s.closed then { s with reader := .sending payload }
  else { s with sender := false }

def State.handle (s : State) (tag : UInt8) (payload : Bytes) : State :=
  if tag = tagStdin then s.send payload
  else if tag = tagEof then { s with sender := false }
  else { s with events := s.events ++ [.stdin (inFrame tag payload)] }

def read (s : State) : Option State :=
  match readFrame s.stream with
  | .frame tag payload rest =>
    some (({ s with stream := rest, frames := s.frames ++ [(tag, payload)] }).handle tag payload)
  | .invalid => some (s.stop .stdinError)
  | .short => if s.peerOpen then none else some (s.stop .stdinError)
  | .boundary => if s.peerOpen then none else some (s.stop .stdinClosed)

/-- The bounded queue holds one frame. -/
def enqueue (bounded : Bool) (s : State) (payload : Bytes) : Option State :=
  if s.writer = .gone then some { s with reader := .reading, sender := false }
  else if bounded ∧ s.queue ≠ [] then none
  else some { s with reader := .reading, queue := s.queue ++ [payload] }

def receive (s : State) : Option State :=
  match s.queue with
  | [] => if s.sender then none else some { s with writer := .gone }
  | payload :: rest =>
    if s.closed then some { s with writer := .gone, queue := [] }
    else
      some { s with queue := rest, writer := if payload = [] then .receiving else .writing payload }

def write (s : State) (payload : Bytes) (n : ℕ) : Option State :=
  if n = 0 ∨ payload.length < n then none
  else
    some { s with
      written := s.written ++ payload.take n
      writer := if payload.length = n then .receiving else .writing (payload.drop n) }

def step (bounded : Bool) (s : State) (l : Label) : Option State :=
  match l, s.reader, s.writer with
  | .arrive bytes, _, _ => if s.peerOpen then some { s with stream := s.stream ++ bytes } else none
  | .hangUp, _, _ => some { s with peerOpen := false }
  | .read, .reading, _ => read s
  | .enqueue, .sending payload, _ => enqueue bounded s payload
  | .receive, _, .receiving => receive s
  | .write n, _, .writing payload => write s payload n
  | .writeFails, _, .writing _ => some { s with writer := .gone, queue := [] }
  | .close, _, _ => some { s with closed := true }
  | _, _, _ => none

def Reader.load : Reader → ℕ
  | .reading => 1
  | .sending payload => payload.length + 4
  | .stopped => 0

def Writer.load : Writer → ℕ
  | .receiving => 1
  | .writing payload => payload.length + 2
  | .gone => 0

def State.load (s : State) : ℕ :=
  s.stream.length + s.reader.load + (s.queue.map (·.length + 2)).sum + s.writer.load

abbrev Steps (bounded : Bool) : State → List Label → State → Prop :=
  Run fun s l t => step bounded s l = some t

variable {bounded : Bool} {s t u : State} {l : Label} {as : List Label}

def encoded (frames : List (UInt8 × Bytes)) : Bytes :=
  frames.flatMap fun f => writeFrame f.1 f.2

def input (frames : List (UInt8 × Bytes)) : Bytes :=
  frames.flatMap fun f => if f.1 = tagStdin then f.2 else []

def ended (frames : List (UInt8 × Bytes)) : Bool :=
  frames.any (·.1 = tagEof)

def arrived (as : List Label) : Bytes :=
  as.flatMap Label.arrived

def isGrant : Supervisor.Event → Bool
  | .stdin (.credit _) | .stdin (.stderrCredit _) => true
  | _ => false

def Idle (bounded : Bool) (s : State) : Prop :=
  ∀ l : Label, l.own = true → step bounded s l = none

structure Sound (frames : List (UInt8 × Bytes)) : Prop where
  tags : ∀ f ∈ frames, f.1 = tagStdin ∨ f.1 = tagEof ∨ f.1 = tagCredit ∨ f.1 = tagStderrCredit
  sealed : frames.Pairwise fun earlier later => earlier.1 = tagEof → later.1 ≠ tagStdin

def Short (frames : List (UInt8 × Bytes)) : Prop :=
  ∀ f ∈ frames, f.2.length + 1 ≤ maxFrameLen

/-- Frames are read as they were sent, the loop hears of credit only, and the child's stdin takes
`text`, whose end closes it if `ends` says so. -/
structure Delivers (bounded : Bool) (frames : List (UInt8 × Bytes)) (text : Bytes) (ends : Bool) :
    Prop where
  safe : ∀ as t, Steps bounded start as t → (∀ l ∈ as, l.calm = true) →
    arrived as <+: encoded frames →
    t.frames <+: frames ∧ (∀ e ∈ t.events, isGrant e = true) ∧ t.written <+: text ∧
      (t.writer = .gone → t.written = text ∧ ends = true)
  whole : ∀ as t, Steps bounded start as t → (∀ l ∈ as, l.calm = true) →
    arrived as = encoded frames → Idle bounded t →
    t.frames = frames ∧ t.written = text ∧ (t.writer = .gone ↔ ends = true)
  settles : ∀ as t, Steps bounded start as t →
    ∃ bound, ∀ bs u, Steps bounded t bs u → (∀ l ∈ bs, l.own = true) → bs.length ≤ bound

section Reading

variable (f : UInt8 × Bytes) (frames more : List (UInt8 × Bytes))

@[simp] lemma encoded_nil : encoded [] = [] := rfl

@[simp] lemma encoded_cons : encoded (f :: frames) = writeFrame f.1 f.2 ++ encoded frames := rfl

@[simp] lemma encoded_append : encoded (frames ++ more) = encoded frames ++ encoded more := by
  simp [encoded]

@[simp] lemma input_append : input (frames ++ more) = input frames ++ input more := by
  simp [input]

@[simp] lemma input_single : input [f] = if f.1 = tagStdin then f.2 else [] := by
  simp [input]

@[simp] lemma ended_append : ended (frames ++ more) = (ended frames || ended more) := by
  simp [ended]

@[simp] lemma ended_single : ended [f] = decide (f.1 = tagEof) := by
  simp [ended]

end Reading

lemma load_handle (s : State) (tag : UInt8) (payload : Bytes) (hr : s.reader = .reading) :
    (s.handle tag payload).load ≤ s.load + payload.length + 3 := by
  have hs : (s.send payload).load ≤ s.load + payload.length + 3 := by
    rw [State.send]
    split
    · simp [State.load, Reader.load, hr]
      omega
    · exact Nat.le_add_right_of_le (Nat.le_add_right _ _)
  rw [State.handle]
  split
  · exact hs
  · split <;> exact Nat.le_add_right_of_le (Nat.le_add_right _ _)

lemma readFrame_length {stream : Bytes} {tag : UInt8} {payload rest : Bytes}
    (h : readFrame stream = .frame tag payload rest) :
    stream.length = rest.length + payload.length + 5 := by
  rw [readFrame] at h
  split at h
  · cases h
  · split at h
    · cases h
    · next h4 =>
      dsimp only at h
      generalize fromBeBytes (stream.take 4) = len at h
      split at h
      · cases h
      · split at h
        · cases h
        · split at h
          · cases h
          · next hl =>
            split at h
            · next tag' payload' ht =>
              cases h
              have hp := congrArg List.length ht
              rw [List.length_take, List.length_cons] at hp
              simp only [List.length_drop] at hl hp ⊢
              omega
            · cases h

lemma load_lt (hl : l.own = true) (h : step bounded s l = some t) : t.load < s.load := by
  rw [step.eq_def] at h
  split at h
  · cases hl
  · cases hl
  · next hr =>
    rw [read] at h
    split at h
    · next tag payload rest hf =>
      obtain rfl := Option.some.inj h
      have hn := readFrame_length hf
      refine (load_handle { s with
        stream := rest, frames := s.frames ++ [(tag, payload)] } tag payload hr).trans_lt ?_
      simp only [State.load]
      omega
    · obtain rfl := Option.some.inj h
      simp [State.load, State.stop, Reader.load, hr]
    · split at h
      · cases h
      · obtain rfl := Option.some.inj h
        simp [State.load, State.stop, Reader.load, hr]
    · split at h
      · cases h
      · obtain rfl := Option.some.inj h
        simp [State.load, State.stop, Reader.load, hr]
  · next payload hr =>
    rw [enqueue] at h
    split at h
    · obtain rfl := Option.some.inj h
      simp [State.load, Reader.load, hr]
    · split at h
      · cases h
      · obtain rfl := Option.some.inj h
        simp [State.load, Reader.load, hr]
        omega
  · next hw =>
    rw [receive.eq_def] at h
    split at h
    · split at h
      · cases h
      · obtain rfl := Option.some.inj h
        simp [State.load, Writer.load, hw]
    · next payload rest hq =>
      split at h
      · obtain rfl := Option.some.inj h
        simp only [State.load, Writer.load, hw, hq, List.map_nil, List.map_cons, List.sum_nil,
          List.sum_cons]
        omega
      · obtain rfl := Option.some.inj h
        by_cases hp : payload = []
        · simp [State.load, Writer.load, hw, hq, hp]
        · simp [State.load, Writer.load, hw, hq, hp]
          omega
  · next n payload hw =>
    rw [write] at h
    split at h
    · cases h
    · next hn =>
      obtain rfl := Option.some.inj h
      by_cases he : payload.length = n
      · simp [State.load, Writer.load, hw, he]
      · simp [State.load, Writer.load, hw, he]
        omega
  · cases hl
  · cases hl
  · cases h

theorem settles (h : Steps bounded s as t) (ho : ∀ l ∈ as, l.own = true) :
    as.length + t.load ≤ s.load := by
  induction h with
  | nil => simp
  | @cons s t u l as hst _ ih =>
    have hlt := load_lt (ho l List.mem_cons_self) hst
    have hle := ih fun l hm => ho l (List.mem_cons_of_mem _ hm)
    rw [List.length_cons]
    omega

def Reader.held : Reader → Bytes
  | .sending payload => payload
  | .reading | .stopped => []

def Writer.left : Writer → Bytes
  | .writing payload => payload
  | .receiving | .gone => []

def State.carried (s : State) : Bytes :=
  s.written ++ s.writer.left ++ s.queue.flatten ++ s.reader.held

structure Carrying (frames : List (UInt8 × Bytes)) (s : State) : Prop where
  seen : s.frames <+: frames
  text : s.carried = input s.frames
  sender : s.sender = !ended s.frames
  sending : ∀ payload, s.reader = .sending payload → s.sender = true
  writing : ∀ payload, s.writer = .writing payload → payload ≠ []
  gone : s.writer = .gone → s.sender = false ∧ s.queue = []
  events : ∀ e ∈ s.events, isGrant e = true
  reader : s.reader ≠ .stopped
  peerOpen : s.peerOpen = true
  closed : s.closed = false

variable {frames : List (UInt8 × Bytes)}

lemma Carrying.start (frames : List (UInt8 × Bytes)) : Carrying frames start where
  seen := List.nil_prefix
  text := rfl
  sender := rfl
  sending _ h := by cases h
  writing _ h := by cases h
  gone h := by cases h
  events _ h := by cases h
  reader h := by cases h
  peerOpen := rfl
  closed := rfl

lemma next_frame (hf : Short frames) {done : List (UInt8 × Bytes)} {stream : Bytes}
    (hd : done <+: frames) (hs : encoded done ++ stream <+: encoded frames) :
    (readFrame stream = .boundary ∨ readFrame stream = .short) ∧
        (done ≠ frames → stream.length < (encoded frames).length - (encoded done).length) ∨
      ∃ f rest, readFrame stream = .frame f.1 f.2 rest ∧ done ++ [f] <+: frames ∧
        stream = writeFrame f.1 f.2 ++ rest := by
  obtain ⟨more, rfl⟩ := hd
  rw [encoded_append, List.prefix_append_right_inj] at hs
  cases more with
  | nil =>
    obtain rfl : stream = [] := List.prefix_nil.mp hs
    exact .inl ⟨.inl rfl, fun h => absurd (List.append_nil done).symm h⟩
  | cons f more =>
    have hshort := hf f (List.mem_append_right _ List.mem_cons_self)
    rw [encoded_cons] at hs
    by_cases hl : stream.length < f.2.length + 5
    · have hp : stream <+: writeFrame f.1 f.2 :=
        List.prefix_of_prefix_length_le hs (List.prefix_append _ _) (by simpa using hl.le)
      refine .inl ⟨readFrame_short hshort hp hl, fun _ => ?_⟩
      simp only [encoded_append, encoded_cons, List.length_append, length_writeFrame]
      omega
    · have hp : writeFrame f.1 f.2 <+: stream :=
        List.prefix_of_prefix_length_le (List.prefix_append _ _) hs (by simpa using hl)
      obtain ⟨rest, rfl⟩ := hp
      exact .inr ⟨f, rest, readFrame_writeFrame hshort rest, ⟨more, by simp⟩, rfl⟩

namespace Carrying

variable (hs : Carrying frames s)

include hs

lemma handle (hf : Sound frames) {f : UInt8 × Bytes} {rest : Bytes}
    (hp : s.frames ++ [f] <+: frames) (hr : s.reader = .reading) :
    Carrying frames (({ s with stream := rest, frames := s.frames ++ [f] }).handle f.1 f.2) := by
  have htext : s.written ++ s.writer.left ++ s.queue.flatten = input s.frames := by
    have ht := hs.text
    rwa [State.carried, hr, Reader.held, List.append_nil] at ht
  have hmem : f ∈ frames := hp.subset (List.mem_append_right _ List.mem_cons_self)
  rw [State.handle]
  by_cases hin : f.1 = tagStdin
  · -- nothing for the child comes behind an EOF, so the sender is still there
    have hopen : s.sender = true := by
      rw [hs.sender, Bool.not_eq_true', ended, List.any_eq_false]
      intro g hg he
      have hseal := hf.sealed.sublist hp.sublist
      exact (List.pairwise_append.mp hseal).2.2 g hg f List.mem_cons_self
        (of_decide_eq_true he) hin
    have hsend : (({ s with stream := rest, frames := s.frames ++ [f] } : State).send f.2) =
        { s with stream := rest, frames := s.frames ++ [f], reader := .sending f.2 } := by
      rw [State.send, if_pos]
      rw [Bool.and_eq_true, Bool.not_eq_true']
      exact ⟨hopen, hs.closed⟩
    rw [if_pos hin, hsend]
    refine ⟨hp, ?_, ?_, fun _ _ => hopen, hs.writing, ?_, hs.events, Reader.noConfusion,
      hs.peerOpen, hs.closed⟩
    · simp [State.carried, Reader.held, hin, ← htext]
    · have hne : tagStdin ≠ tagEof := by decide
      simp [hs.sender, hin, hne]
    · intro hg
      have hg' := (hs.gone hg).1
      rw [hopen] at hg'
      cases hg'
  · rw [if_neg hin]
    have kept : ∀ sender, sender = (!ended (s.frames ++ [f])) → ∀ events,
        (∀ e ∈ events, isGrant e = true) → (s.writer = .gone → sender = false) →
        Carrying frames { s with
          stream := rest, frames := s.frames ++ [f], sender := sender, events := events } := by
      intro sender hsender events hev hgone
      refine ⟨hp, ?_, hsender, ?_, hs.writing, fun hg => ⟨hgone hg, (hs.gone hg).2⟩, hev, hs.reader,
        hs.peerOpen, hs.closed⟩
      · simp [State.carried, hr, Reader.held, hin, ← htext]
      · intro payload h
        change s.reader = _ at h
        rw [hr] at h
        cases h
    by_cases he : f.1 = tagEof
    · rw [if_pos he]
      exact kept false (by simp [he]) _ hs.events fun _ => rfl
    · rw [if_neg he]
      refine kept s.sender (by simp [he, hs.sender]) _ ?_ fun hg => (hs.gone hg).1
      intro e hm
      rcases List.mem_append.mp hm with hm | hm
      · exact hs.events e hm
      · obtain rfl := List.mem_singleton.mp hm
        rcases hf.tags f hmem with h | h | h | h
        · exact absurd h hin
        · exact absurd h he
        · simp [inFrame, h, isGrant]
        · have hne : tagStderrCredit ≠ tagCredit := by decide
          simp [inFrame, h, isGrant, hne]

lemma step (hf : Sound frames) (hl : Short frames) (h : step bounded s l = some t)
    (hc : l.calm = true) (ha : encoded s.frames ++ s.stream ++ l.arrived <+: encoded frames) :
    Carrying frames t ∧ encoded t.frames ++ t.stream = encoded s.frames ++ s.stream ++ l.arrived := by
  rw [ChildInput.step.eq_def] at h
  split at h
  · next bytes =>
    rw [if_pos hs.peerOpen] at h
    obtain rfl := Option.some.inj h
    exact ⟨⟨hs.seen, hs.text, hs.sender, hs.sending, hs.writing, hs.gone, hs.events, hs.reader,
      hs.peerOpen, hs.closed⟩, (List.append_assoc ..).symm⟩
  · cases hc
  · next hr =>
    rw [Label.arrived, List.append_nil] at ha ⊢
    rw [read] at h
    rcases next_frame hl hs.seen ha with ⟨hb | hb, -⟩ | ⟨f, rest, hb, hp, hstream⟩
    · rw [hb] at h
      simp [hs.peerOpen] at h
    · rw [hb] at h
      simp [hs.peerOpen] at h
    · rw [hb] at h
      obtain rfl := Option.some.inj h
      refine ⟨hs.handle hf hp hr, ?_⟩
      have hframes : ∀ u : State, (u.handle f.1 f.2).frames = u.frames ∧
          (u.handle f.1 f.2).stream = u.stream := by
        intro u
        rw [State.handle, State.send]
        split
        · split <;> exact ⟨rfl, rfl⟩
        · split <;> exact ⟨rfl, rfl⟩
      rw [(hframes _).1, (hframes _).2, hstream]
      simp
  · next payload hr =>
    rw [Label.arrived, List.append_nil]
    have hopen := hs.sending payload hr
    have htext := hs.text
    rw [State.carried, hr, Reader.held] at htext
    have hw : s.writer ≠ .gone := by
      intro hg
      have hg' := (hs.gone hg).1
      rw [hopen] at hg'
      cases hg'
    rw [enqueue, if_neg hw] at h
    split at h
    · cases h
    · obtain rfl := Option.some.inj h
      refine ⟨⟨hs.seen, ?_, hs.sender, fun _ h => (by cases h), hs.writing, fun hg => absurd hg hw,
        hs.events, Reader.noConfusion, hs.peerOpen, hs.closed⟩, rfl⟩
      simp [State.carried, Reader.held, ← htext]
  · next hw =>
    rw [Label.arrived, List.append_nil]
    have htext := hs.text
    rw [State.carried, hw, Writer.left, List.append_nil] at htext
    rw [receive.eq_def] at h
    split at h
    · next hq =>
      split at h
      · cases h
      · next hsend =>
        obtain rfl := Option.some.inj h
        refine ⟨⟨hs.seen, ?_, hs.sender, hs.sending, fun _ h => (by cases h),
          fun _ => ⟨by simpa using hsend, hq⟩, hs.events, hs.reader, hs.peerOpen, hs.closed⟩, rfl⟩
        simpa [State.carried, Writer.left] using htext
    · next payload rest hq =>
      rw [if_neg (by simp [hs.closed])] at h
      obtain rfl := Option.some.inj h
      rw [hq] at htext
      by_cases hp : payload = []
      · refine ⟨⟨hs.seen, ?_, hs.sender, hs.sending, fun _ h => ?_, fun h => ?_, hs.events,
          hs.reader, hs.peerOpen, hs.closed⟩, rfl⟩
        · simpa [State.carried, Writer.left, hp] using htext
        · simp [hp] at h
        · simp [hp] at h
      · refine ⟨⟨hs.seen, ?_, hs.sender, hs.sending, fun _ h => ?_, fun h => ?_, hs.events,
          hs.reader, hs.peerOpen, hs.closed⟩, rfl⟩
        · simpa [State.carried, Writer.left, hp] using htext
        · simp [hp] at h
          exact h ▸ hp
        · simp [hp] at h
  · next n payload hw =>
    rw [Label.arrived, List.append_nil]
    have htext := hs.text
    rw [State.carried, hw, Writer.left] at htext
    rw [write] at h
    split at h
    · cases h
    · next hn =>
      obtain rfl := Option.some.inj h
      by_cases he : payload.length = n
      · refine ⟨⟨hs.seen, ?_, hs.sender, hs.sending, fun _ h => ?_, fun h => ?_, hs.events,
          hs.reader, hs.peerOpen, hs.closed⟩, rfl⟩
        · subst he
          simpa [State.carried, Writer.left] using htext
        · simp [he] at h
        · simp [he] at h
      · refine ⟨⟨hs.seen, ?_, hs.sender, hs.sending, fun _ h => ?_, fun h => ?_, hs.events,
          hs.reader, hs.peerOpen, hs.closed⟩, rfl⟩
        · simpa [State.carried, Writer.left, he] using htext
        · simp [he] at h
          rw [← h]
          intro hd
          have hlen := congrArg List.length hd
          simp at hlen
          omega
        · simp [he] at h
  · cases hc
  · cases hc
  · cases h

end Carrying

lemma run_carrying (hf : Sound frames) (hl : Short frames) (h : Steps bounded s as t)
    (hs : Carrying frames s) (hc : ∀ l ∈ as, l.calm = true)
    (ha : encoded s.frames ++ s.stream ++ arrived as <+: encoded frames) :
    Carrying frames t ∧
      encoded t.frames ++ t.stream = encoded s.frames ++ s.stream ++ arrived as := by
  induction h with
  | nil => exact ⟨hs, by simp [arrived]⟩
  | @cons s t u l as hst _ ih =>
    have hcons : arrived (l :: as) = l.arrived ++ arrived as := rfl
    rw [hcons, ← List.append_assoc] at ha ⊢
    obtain ⟨ht, he⟩ := hs.step hf hl hst (hc l List.mem_cons_self)
      ((List.prefix_append _ _).trans ha)
    rw [← he] at ha ⊢
    exact ih ht (fun l hm => hc l (List.mem_cons_of_mem _ hm)) ha

lemma Carrying.whole (hs : Carrying frames s) (hl : Short frames)
    (ha : encoded s.frames ++ s.stream = encoded frames) (hi : Idle bounded s) :
    s.frames = frames ∧ s.written = input frames ∧ (s.writer = .gone ↔ ended frames = true) := by
  have hwriter : s.writer.left = [] := by
    cases hw : s.writer with
    | writing payload =>
      have hn := hs.writing payload hw
      have hpos := List.length_pos_of_ne_nil hn
      have hstep := hi (.write payload.length) rfl
      rw [ChildInput.step.eq_def] at hstep
      simp [hw, write] at hstep
      exact absurd hstep hn
    | receiving => rfl
    | gone => rfl
  have hqueue : s.queue = [] := by
    cases hw : s.writer with
    | writing payload =>
      rw [hw] at hwriter
      exact absurd hwriter (hs.writing payload hw)
    | gone => exact (hs.gone hw).2
    | receiving =>
      cases hq : s.queue with
      | nil => rfl
      | cons payload rest =>
        have hstep := hi .receive rfl
        rw [ChildInput.step.eq_def] at hstep
        simp [hw, receive, hq, hs.closed] at hstep
  have hreader : s.reader = .reading := by
    cases hr : s.reader with
    | reading => rfl
    | stopped => exact absurd hr hs.reader
    | sending payload =>
      have hstep := hi .enqueue rfl
      rw [ChildInput.step.eq_def] at hstep
      simp only [hr, enqueue, hqueue] at hstep
      by_cases hg : s.writer = .gone
      · simp [hg] at hstep
      · simp [hg] at hstep
  have hframes : s.frames = frames := by
    have hpre : encoded s.frames ++ s.stream <+: encoded frames :=
      ha ▸ List.prefix_rfl
    rcases next_frame hl hs.seen hpre with ⟨hb, hlt⟩ | ⟨f, rest, hb, -, -⟩
    · by_contra hne
      have hlt := hlt hne
      rw [← ha, List.length_append] at hlt
      omega
    · have hstep := hi .read rfl
      rw [ChildInput.step.eq_def] at hstep
      simp [hreader, read, hb] at hstep
  have htext := hs.text
  rw [State.carried, hwriter, hqueue, hreader, Reader.held] at htext
  refine ⟨hframes, by simpa [hframes] using htext, ?_⟩
  have hsender := hs.sender
  rw [hframes] at hsender
  constructor
  · intro hg
    rw [(hs.gone hg).1] at hsender
    simpa using hsender.symm
  · intro he
    cases hw : s.writer with
    | gone => rfl
    | writing payload =>
      rw [hw] at hwriter
      exact absurd hwriter (hs.writing payload hw)
    | receiving =>
      have hstep := hi .receive rfl
      rw [ChildInput.step.eq_def] at hstep
      simp [hw, receive, hqueue, hsender, he] at hstep

theorem delivers (bounded : Bool) (hf : Sound frames) (hl : Short frames) :
    Delivers bounded frames (input frames) (ended frames) where
  safe as t h hc ha := by
    obtain ⟨ht, -⟩ := run_carrying hf hl h (.start frames) hc ha
    have hpre : ∀ {a b : List (UInt8 × Bytes)}, a <+: b → input a <+: input b := by
      rintro a _ ⟨more, rfl⟩
      exact ⟨input more, by simp⟩
    have hcarried : t.written <+: t.carried := by
      rw [State.carried, List.append_assoc, List.append_assoc]
      exact List.prefix_append _ _
    refine ⟨ht.seen, ht.events, ht.text ▸ hcarried |>.trans (hpre ht.seen), fun hg => ?_⟩
    obtain ⟨hsend, hq⟩ := ht.gone hg
    have hend : ended t.frames = true := by
      have hs := ht.sender
      rw [hsend] at hs
      simpa using hs.symm
    have hr : t.reader.held = [] := by
      cases hr : t.reader with
      | sending payload =>
        have hs := ht.sending payload hr
        rw [hsend] at hs
        cases hs
      | reading => rfl
      | stopped => rfl
    have htext := ht.text
    rw [State.carried, hq, hr, hg, Writer.left] at htext
    -- an EOF was read, so the frames behind it hold no input
    obtain ⟨more, rfl⟩ := ht.seen
    obtain ⟨f, hm, he⟩ := List.any_eq_true.mp hend
    have hmore : input more = [] := by
      rw [input, List.flatMap_eq_nil_iff]
      intro g hg
      have hne := (List.pairwise_append.mp hf.sealed).2.2 f hm g hg (of_decide_eq_true he)
      exact if_neg hne
    refine ⟨by simpa [hmore] using htext, ?_⟩
    rw [ended_append, hend, Bool.true_or]
  whole as t h hc ha hi := by
    obtain ⟨ht, he⟩ := run_carrying hf hl h (.start frames) hc (ha ▸ List.prefix_rfl)
    exact ht.whole hl (he.trans ha) hi
  settles as t _ := ⟨t.load, fun bs u h ho => (Nat.le_add_right _ _).trans (settles h ho)⟩

structure Resting (s : State) : Prop where
  reader : s.reader = .reading
  writer : s.writer = .receiving
  queue : s.queue = []
  sender : s.sender = true
  closed : s.closed = false
  peerOpen : s.peerOpen = true

variable (bounded) in
lemma Resting.serve (hs : Resting s) {f : UInt8 × Bytes} {more : Bytes}
    (hf : f.2.length + 1 ≤ maxFrameLen) (he : f.1 ≠ tagEof)
    (hm : s.stream = writeFrame f.1 f.2 ++ more) :
    ∃ as t, Steps bounded s as t ∧ (∀ l ∈ as, l.own = true) ∧ Resting t ∧ t.stream = more ∧
      t.frames = s.frames ++ [f] := by
  have hread : readFrame s.stream = .frame f.1 f.2 more := hm ▸ readFrame_writeFrame hf more
  let u : State := { s with stream := more, frames := s.frames ++ [f] }
  have h1 : step bounded s .read = some (u.handle f.1 f.2) := by
    simp [step, hs.reader, read, hread, u]
  by_cases hin : f.1 = tagStdin
  · have hu : u.handle f.1 f.2 = { u with reader := .sending f.2 } := by
      simp [State.handle, State.send, hin, u, hs.sender, hs.closed]
    rw [hu] at h1
    have h2 : step bounded { u with reader := .sending f.2 } .enqueue =
        some { u with reader := .reading, queue := [f.2] } := by
      simp [step, enqueue, u, hs.writer, hs.queue]
    have h3 : step bounded { u with reader := .reading, queue := [f.2] } .receive =
        some { u with
          reader := .reading
          queue := []
          writer := if f.2 = [] then .receiving else .writing f.2 } := by
      simp [step, receive, u, hs.writer, hs.closed]
    have hrun : Steps bounded s [.read, .enqueue, .receive] { u with
        reader := .reading
        queue := []
        writer := if f.2 = [] then .receiving else .writing f.2 } :=
      .cons h1 (.cons h2 (.single h3))
    by_cases hp : f.2 = []
    · refine ⟨_, _, hrun, by simp [Label.own], ⟨rfl, ?_, rfl, hs.sender, hs.closed, hs.peerOpen⟩,
        rfl, rfl⟩
      exact if_pos hp
    · rw [if_neg hp] at hrun
      have h4 : step bounded { u with reader := .reading, queue := [], writer := .writing f.2 }
          (.write f.2.length) = some { u with
            reader := .reading, queue := [], writer := .receiving, written := s.written ++ f.2 } := by
        simp [step, write, u, hp]
      refine ⟨_, _, hrun.append (.single h4), by simp [Label.own],
        ⟨rfl, rfl, rfl, hs.sender, hs.closed, hs.peerOpen⟩, rfl, rfl⟩
  · have hu : u.handle f.1 f.2 = { u with events := s.events ++ [.stdin (inFrame f.1 f.2)] } := by
      simp [State.handle, hin, he, u]
    rw [hu] at h1
    exact ⟨_, _, .single h1, by simp [Label.own],
      ⟨hs.reader, hs.writer, hs.queue, hs.sender, hs.closed, hs.peerOpen⟩, rfl, rfl⟩

variable (bounded) in
lemma Resting.serve_all (hs : Resting s) {more : Bytes} (hl : Short frames)
    (he : ∀ f ∈ frames, f.1 ≠ tagEof) (hm : s.stream = encoded frames ++ more) :
    ∃ as t, Steps bounded s as t ∧ (∀ l ∈ as, l.own = true) ∧ Resting t ∧ t.stream = more ∧
      t.frames = s.frames ++ frames := by
  induction frames generalizing s with
  | nil => exact ⟨[], s, .nil s, by simp, hs, by simpa using hm, by simp⟩
  | cons f frames ih =>
    rw [encoded_cons, List.append_assoc] at hm
    obtain ⟨as, t, hr, ho, ht, hmt, hft⟩ :=
      hs.serve bounded (hl f List.mem_cons_self) (he f List.mem_cons_self) hm
    obtain ⟨bs, u, hr', ho', hu, hmu, hfu⟩ :=
      ih ht (fun g hg => hl g (List.mem_cons_of_mem _ hg))
        (fun g hg => he g (List.mem_cons_of_mem _ hg)) hmt
    refine ⟨as ++ bs, u, hr.append hr', ?_, hu, hmu, ?_⟩
    · intro l hm
      rcases List.mem_append.mp hm with hm | hm
      · exact ho l hm
      · exact ho' l hm
    · rw [hfu, hft, List.append_assoc, List.singleton_append]

lemma own_calm (h : ∀ l ∈ as, l.own = true) : (∀ l ∈ as, l.calm = true) ∧ arrived as = [] := by
  have hl : ∀ l : Label, l.own = true → l.calm = true ∧ l.arrived = [] := by
    intro l hl
    cases l with
    | read => exact ⟨rfl, rfl⟩
    | enqueue => exact ⟨rfl, rfl⟩
    | receive => exact ⟨rfl, rfl⟩
    | write n => exact ⟨rfl, rfl⟩
    | _ => cases hl
  exact ⟨fun l hm => (hl l (h l hm)).1, List.flatMap_eq_nil_iff.mpr fun l hm => (hl l (h l hm)).2⟩

lemma meet (bounded : Bool) {front : List (UInt8 × Bytes)} (bad : UInt8 × Bytes)
    (back : List (UInt8 × Bytes)) (hl : Short front) (he : ∀ f ∈ front, f.1 ≠ tagEof) :
    ∃ as t, Steps bounded start as t ∧ (∀ l ∈ as, l.calm = true) ∧
      arrived as = encoded (front ++ bad :: back) ∧ Resting t ∧ t.frames = front ∧
      t.stream = writeFrame bad.1 bad.2 ++ encoded back := by
  let s : State := { start with stream := encoded (front ++ bad :: back) }
  have hstart : step bounded start (.arrive (encoded (front ++ bad :: back))) = some s := rfl
  obtain ⟨as, t, hr, ho, ht, hm, hf⟩ :=
    Resting.serve_all bounded (s := s) ⟨rfl, rfl, rfl, rfl, rfl, rfl⟩ hl he
      (show s.stream = encoded front ++ (writeFrame bad.1 bad.2 ++ encoded back) by simp [s])
  obtain ⟨hc, ha⟩ := own_calm ho
  refine ⟨_, t, .cons hstart hr, ?_, ?_, ht, by simpa [s, start] using hf, hm⟩
  · intro l hm
    rcases List.mem_cons.mp hm with rfl | hm
    · rfl
    · exact hc l hm
  · change _ ++ arrived as = _
    rw [ha, List.append_nil, Label.arrived]

theorem not_delivers (bounded : Bool) {text : Bytes} {ends : Bool} {front : List (UInt8 × Bytes)}
    {bad : UInt8 × Bytes} {back : List (UInt8 × Bytes)} (hl : Short front)
    (he : ∀ f ∈ front, f.1 ≠ tagEof) (hb : maxFrameLen < bad.2.length + 1) :
    ¬Delivers bounded (front ++ bad :: back) text ends := by
  intro hd
  obtain ⟨as, t, hr, hc, ha, ht, hf, hm⟩ := meet bounded bad back hl he
  have hnext : ∀ u, read t = some u → step bounded t .read = some u := by
    intro u hu
    simpa [step, ht.reader] using hu
  have hsafe : ∀ u, read t = some u → u.frames <+: front ++ bad :: back ∧
      ∀ e ∈ u.events, isGrant e = true := by
    intro u hu
    have hs := hd.safe _ u (hr.snoc (hnext u hu)) (by
      intro l hm
      rcases List.mem_append.mp hm with hm | hm
      · exact hc l hm
      · obtain rfl := List.mem_singleton.mp hm
        rfl) (by
      have hsnoc : arrived (as ++ [.read]) = arrived as := by simp [arrived, Label.arrived]
      exact (hsnoc.trans ha) ▸ List.prefix_rfl)
    exact ⟨hs.1, hs.2.1⟩
  -- a reader that waits for more leaves the shim at rest with frames it never read
  have hwait : read t ≠ none := by
    intro hn
    have hi : Idle bounded t := by
      intro l hl
      cases l with
      | read => simpa [step, ht.reader] using hn
      | enqueue => simp [step, ht.reader]
      | receive => simp [step, ht.writer, receive, ht.queue, ht.sender]
      | write n => simp [step, ht.writer]
      | _ => cases hl
    have hwhole := (hd.whole as t hr hc ha hi).1
    rw [hf] at hwhole
    have hlen := congrArg List.length hwhole
    simp at hlen
  cases hres : readFrame t.stream with
  | invalid =>
    have hev := (hsafe _ (by rw [read, hres])).2 .stdinError (by simp [State.stop])
    cases hev
  | frame tag payload rest =>
    have hpre := (hsafe _ (by rw [read, hres])).1
    have hfr : (({ t with stream := rest, frames := t.frames ++ [(tag, payload)] } : State).handle tag
        payload).frames = front ++ [(tag, payload)] := by
      rw [State.handle, State.send, hf]
      split
      · split <;> rfl
      · split <;> rfl
    rw [hfr, List.prefix_append_right_inj] at hpre
    obtain ⟨z, hz⟩ := hpre
    have hbad : (tag, payload) = bad := (List.cons.inj hz).1
    rw [hm, ← hbad] at hres
    exact readFrame_long (hbad ▸ hb) hres
  | short => exact hwait (by simp [read, hres, ht.peerOpen])
  | boundary => exact hwait (by simp [read, hres, ht.peerOpen])

end Forcola.Native.ChildInput
