import Forcola.Library.Pieces
import Forcola.Native.Frame

/-! `read_frame` on a reader that returns the stream in pieces. -/

namespace Forcola.Native.Frame

open Forcola.Library Pieces

structure Message where
  tag : UInt8
  payload : Bytes
deriving DecidableEq, Repr

inductive ReadError
  | lengthZero
  | overCap (len : ℕ)
  | midFrame
  | notFilled
  | os (code : ℕ)
deriving DecidableEq, Repr

namespace ReadError

inductive Kind
  | invalidData
  | unexpectedEof
  | other (code : ℕ)
deriving DecidableEq, Repr

def kind : ReadError → Kind
  | .lengthZero | .overCap _ => .invalidData
  | .midFrame | .notFilled => .unexpectedEof
  | .os code => .other code

end ReadError

/-- A stream, and the sizes of the buffers allocated for frame bodies, newest first. -/
structure Source where
  reader : Reader UInt8 ReadError
  allocated : List ℕ

namespace Source

/-- `None` where the Rust function answers `Ok(false)`. -/
def readExactOrEof (want : ℕ) (s : Source) : Except ReadError (Option Bytes) × Source :=
  let r := fill (fun filled => if filled = [] then .ok none else .error .midFrame) some want s.reader []
  (r.1, { s with reader := r.2 })

def readExact (want : ℕ) (s : Source) : Except ReadError Bytes × Source :=
  let r := fill (fun _ => .error .notFilled) id want s.reader []
  (r.1, { s with reader := r.2 })

def allocate (len : ℕ) (s : Source) : Source :=
  { s with allocated := len :: s.allocated }

/-- The body is not empty, so its head is the tag. -/
def readFrame (s : Source) : Except ReadError (Option Message) × Source :=
  match s.readExactOrEof 4 with
  | (.error e, s) => (.error e, s)
  | (.ok none, s) => (.ok none, s)
  | (.ok (some lenBuf), s) =>
    let len := fromBeBytes lenBuf
    if len = 0 then (.error .lengthZero, s)
    else if maxFrameLen < len then (.error (.overCap len), s)
    else
      match (s.allocate len).readExact len with
      | (.error e, s) => (.error e, s)
      | (.ok body, s) => (.ok (some ⟨body.headD 0, body.tail⟩), s)

def readFrames : ℕ → Source → List (Except ReadError (Option Message))
  | 0, _ => []
  | calls + 1, s => s.readFrame.1 :: readFrames calls s.readFrame.2

end Source

def writeFrames (messages : List Message) : Bytes :=
  messages.flatMap fun m => writeFrame m.tag m.payload

def Message.Fits (m : Message) : Prop := m.payload.length + 1 ≤ maxFrameLen

variable {s : Source} {want : ℕ} {stream : Bytes} {messages : List Message}

lemma readExactOrEof_steady (h : Steady s.reader) (want : ℕ) : ∃ r, Steady r ∧
    ((want ≤ s.reader.items.length ∧ r.items = s.reader.items.drop want ∧
      s.readExactOrEof want = (.ok (some (s.reader.items.take want)), { s with reader := r })) ∨
    (s.reader.items.length < want ∧ r.items = [] ∧ s.readExactOrEof want =
      (if s.reader.items = [] then .ok none else .error .midFrame, { s with reader := r }))) := by
  obtain ⟨r, hr, hcases⟩ := @fill_steady UInt8 (Option Bytes) ReadError s.reader want []
    (fun filled => if filled = [] then .ok none else .error .midFrame) some h (Nat.zero_le _)
  rw [List.nil_append] at hcases
  refine ⟨r, hr, ?_⟩
  rcases hcases with ⟨hle, hitems, heq⟩ | ⟨hlt, hitems, heq⟩
  · exact .inl ⟨hle, hitems, by rw [Source.readExactOrEof, heq]⟩
  · exact .inr ⟨hlt, hitems, by rw [Source.readExactOrEof, heq]⟩

lemma readExact_steady (h : Steady s.reader) (want : ℕ) : ∃ r, Steady r ∧
    ((want ≤ s.reader.items.length ∧ r.items = s.reader.items.drop want ∧
      s.readExact want = (.ok (s.reader.items.take want), { s with reader := r })) ∨
    (s.reader.items.length < want ∧ r.items = [] ∧
      s.readExact want = (.error .notFilled, { s with reader := r }))) := by
  obtain ⟨r, hr, hcases⟩ := @fill_steady UInt8 Bytes ReadError s.reader want []
    (fun _ => .error .notFilled) id h (Nat.zero_le _)
  rw [List.nil_append] at hcases
  refine ⟨r, hr, ?_⟩
  rcases hcases with ⟨hle, hitems, heq⟩ | ⟨hlt, hitems, heq⟩
  · exact .inl ⟨hle, hitems, by rw [Source.readExact, heq]; rfl⟩
  · exact .inr ⟨hlt, hitems, by rw [Source.readExact, heq]⟩

inductive Answers (s : Source) : Read → Except ReadError (Option Message) → Source → Prop
  | boundary {r : Reader UInt8 ReadError} (hr : Steady r) (hi : r.items = []) :
      Answers s .boundary (.ok none) { s with reader := r }
  | frame {r : Reader UInt8 ReadError} {tag : UInt8} {payload rest : Bytes} (hr : Steady r)
      (hi : r.items = rest) : Answers s (.frame tag payload rest) (.ok (some ⟨tag, payload⟩))
        ⟨r, (payload.length + 1) :: s.allocated⟩
  | short {t : Source} {e : ReadError} (he : e.kind = .unexpectedEof) (ht : t.reader.items = []) :
      Answers s .short (.error e) t
  | invalid {r : Reader UInt8 ReadError} {e : ReadError} (he : e.kind = .invalidData)
      (hi : r.items = s.reader.items.drop 4) : Answers s .invalid (.error e) { s with reader := r }

theorem readFrame_answers (h : Steady s.reader) :
    Answers s (readFrame s.reader.items) s.readFrame.1 s.readFrame.2 := by
  obtain ⟨r, hr, ⟨hle, hitems, heq⟩ | ⟨hlt, hitems, heq⟩⟩ := readExactOrEof_steady h 4
  · have hne : s.reader.items ≠ [] := by
      rintro hnil
      rw [hnil] at hle
      exact absurd hle (by decide)
    rw [Source.readFrame, heq, readFrame, if_neg hne, if_neg (not_lt.mpr hle)]
    dsimp only
    generalize hlen : fromBeBytes (s.reader.items.take 4) = len
    by_cases hzero : len = 0
    · rw [if_pos hzero, if_pos hzero]
      exact .invalid rfl hitems
    rw [if_neg hzero, if_neg hzero]
    by_cases hcap : maxFrameLen < len
    · rw [if_pos hcap, if_pos hcap]
      exact .invalid rfl hitems
    rw [if_neg hcap, if_neg hcap]
    obtain ⟨r', hr', ⟨hle', hitems', heq'⟩ | ⟨hlt', hitems', heq'⟩⟩ :=
      @readExact_steady (Source.allocate len { s with reader := r }) hr len
    · have hbody : r.items.length = (s.reader.items.drop 4).length := congrArg List.length hitems
      rw [heq', if_neg (by rw [← hbody]; exact not_lt.mpr hle')]
      change len ≤ r.items.length at hle'
      change r'.items = r.items.drop len at hitems'
      change Answers s _ (.ok (some ⟨(r.items.take len).headD 0, (r.items.take len).tail⟩))
        { reader := r', allocated := len :: s.allocated }
      rw [← hitems]
      have htake : (r.items.take len).length = len := List.length_take_of_le hle'
      cases hbytes : r.items.take len with
      | nil =>
        rw [hbytes] at htake
        exact absurd htake.symm hzero
      | cons tag payload =>
        rw [hbytes, List.length_cons] at htake
        rw [← htake] at hitems' ⊢
        exact .frame hr' hitems'
    · have hbody : r.items.length = (s.reader.items.drop 4).length := congrArg List.length hitems
      rw [heq', if_pos (by rw [← hbody]; exact hlt')]
      exact .short rfl hitems'
  · rw [Source.readFrame, heq, readFrame]
    by_cases hnil : s.reader.items = []
    · rw [if_pos hnil, if_pos hnil]
      exact .boundary hr hitems
    · rw [if_neg hnil, if_neg hnil, if_pos hlt]
      exact .short rfl hitems

lemma readFrame_message {m : Message} {rest : Bytes} (hm : m.Fits) (h : Steady s.reader)
    (hs : s.reader.items = writeFrame m.tag m.payload ++ rest) :
    s.readFrame.1 = .ok (some m) ∧ Steady s.readFrame.2.reader ∧
      s.readFrame.2.reader.items = rest := by
  have hanswers := readFrame_answers h
  rw [hs, readFrame_writeFrame hm] at hanswers
  generalize s.readFrame = answer at hanswers ⊢
  obtain ⟨value, t⟩ := answer
  cases hanswers with
  | frame hr hi => exact ⟨rfl, hr, hi⟩

lemma readFrame_end (h : Steady s.reader) (hs : s.reader.items = []) :
    s.readFrame.1 = .ok none := by
  have hanswers := readFrame_answers h
  rw [hs, show readFrame [] = .boundary from if_pos rfl] at hanswers
  generalize s.readFrame = answer at hanswers ⊢
  obtain ⟨value, t⟩ := answer
  cases hanswers with
  | boundary => rfl

lemma readFrame_inside {m : Message} {n : ℕ} (hm : m.Fits) (h : Steady s.reader)
    (hpos : 0 < n) (hlt : n < (writeFrame m.tag m.payload).length)
    (hs : s.reader.items = (writeFrame m.tag m.payload).take n) :
    ∃ e, e.kind = .unexpectedEof ∧ s.readFrame.1 = .error e := by
  have hlength : s.reader.items.length = n := by
    rw [hs]
    exact List.length_take_of_le (Nat.le_of_lt hlt)
  have hshort : readFrame s.reader.items = .short := by
    rw [length_writeFrame] at hlt
    rcases readFrame_short hm (hs ▸ List.take_prefix _ _) (hlength ▸ hlt) with hb | hshort
    · rw [readFrame, if_neg (List.ne_nil_of_length_pos (hlength ▸ hpos))] at hb
      split at hb
      · cases hb
      · dsimp only at hb
        repeat' split at hb
        all_goals cases hb
    · exact hshort
  have hanswers := readFrame_answers h
  rw [hshort] at hanswers
  generalize s.readFrame = answer at hanswers ⊢
  obtain ⟨value, t⟩ := answer
  cases hanswers with
  | short he ht => exact ⟨_, he, rfl⟩

def delivered (messages : List Message) : List (Except ReadError (Option Message)) :=
  messages.map fun m => .ok (some m)

lemma readFrames_messages {rest : Bytes} (fits : ∀ m ∈ messages, m.Fits) (h : Steady s.reader)
    (hs : s.reader.items = writeFrames messages ++ rest) :
    ∃ t : Source, Steady t.reader ∧ t.reader.items = rest ∧
      ∀ calls, s.readFrames (messages.length + calls) = delivered messages ++ t.readFrames calls := by
  induction messages generalizing s with
  | nil =>
    refine ⟨s, h, hs, ?_⟩
    intro calls
    rw [List.length_nil, Nat.zero_add]
    rfl
  | cons m messages ih =>
    have hcons : s.reader.items = writeFrame m.tag m.payload ++ (writeFrames messages ++ rest) := by
      rw [hs, writeFrames, List.flatMap_cons, List.append_assoc]
      rfl
    obtain ⟨hvalue, hsteady, hitems⟩ := readFrame_message (fits m List.mem_cons_self) h hcons
    obtain ⟨t, ht, hrest, hcalls⟩ :=
      ih (fun m' hm' => fits m' (List.mem_cons_of_mem _ hm')) hsteady hitems
    refine ⟨t, ht, hrest, ?_⟩
    intro calls
    rw [List.length_cons, Nat.add_right_comm, Source.readFrames, hvalue, hcalls]
    rfl

lemma take_writeFrames (messages : List Message) (cut : ℕ) (h : cut ≤ (writeFrames messages).length) :
    ∃ n ≤ messages.length, (cut = (writeFrames (messages.take n)).length ∧
        (writeFrames messages).take cut = writeFrames (messages.take n)) ∨
      ∃ m j, messages[n]? = some m ∧ 0 < j ∧ j < (writeFrame m.tag m.payload).length ∧
        cut = (writeFrames (messages.take n)).length + j ∧
        (writeFrames messages).take cut =
          writeFrames (messages.take n) ++ (writeFrame m.tag m.payload).take j := by
  induction messages generalizing cut with
  | nil =>
    refine ⟨0, Nat.le_refl _, .inl ⟨Nat.le_zero.mp h, ?_⟩⟩
    exact List.take_nil
  | cons m messages ih =>
    have hcons : writeFrames (m :: messages) = writeFrame m.tag m.payload ++ writeFrames messages :=
      List.flatMap_cons
    rcases Nat.lt_or_ge cut (writeFrame m.tag m.payload).length with hlt | hge
    · have htake : (writeFrames (m :: messages)).take cut = (writeFrame m.tag m.payload).take cut := by
        rw [hcons, List.take_append_of_le_length (Nat.le_of_lt hlt)]
      refine ⟨0, Nat.zero_le _, ?_⟩
      rcases Nat.eq_zero_or_pos cut with rfl | hpos
      · exact .inl ⟨rfl, rfl⟩
      · exact .inr ⟨m, cut, rfl, hpos, hlt, (Nat.zero_add _).symm, htake⟩
    · obtain ⟨rest, rfl⟩ := Nat.exists_eq_add_of_le hge
      have htake : (writeFrames (m :: messages)).take ((writeFrame m.tag m.payload).length + rest) =
          writeFrame m.tag m.payload ++ (writeFrames messages).take rest := by
        rw [hcons, List.take_length_add_append]
      have hrest : rest ≤ (writeFrames messages).length := by
        rw [hcons, List.length_append] at h
        omega
      have hnext (n : ℕ) : writeFrames ((m :: messages).take (n + 1)) =
          writeFrame m.tag m.payload ++ writeFrames (messages.take n) := by
        rw [List.take_succ_cons]
        exact List.flatMap_cons
      obtain ⟨n, hn, ⟨hcut, heq⟩ | ⟨m', j, hm', hpos, hj, hcut, heq⟩⟩ := ih rest hrest
      · refine ⟨n + 1, Nat.succ_le_succ hn, .inl ⟨?_, ?_⟩⟩
        · rw [hnext, List.length_append, ← hcut]
        · rw [htake, heq, hnext]
      · refine ⟨n + 1, Nat.succ_le_succ hn, .inr ⟨m', j, hm', hpos, hj, ?_, ?_⟩⟩
        · rw [hnext, List.length_append, hcut, Nat.add_assoc]
        · rw [htake, heq, hnext, List.append_assoc]

lemma readFrame_header (h : Steady s.reader) (hle : 4 ≤ s.reader.items.length)
    (hlen : fromBeBytes (s.reader.items.take 4) = 0 ∨
      maxFrameLen < fromBeBytes (s.reader.items.take 4)) :
    ∃ e r, e.kind = .invalidData ∧ s.readFrame = (.error e, { s with reader := r }) ∧
      r.items = s.reader.items.drop 4 := by
  have hinvalid : readFrame s.reader.items = .invalid := by
    rw [readFrame, if_neg (List.ne_nil_of_length_pos (by omega)), if_neg (not_lt.mpr hle)]
    dsimp only
    rcases hlen with hzero | hcap
    · rw [if_pos hzero]
    · rw [if_neg (by omega), if_pos hcap]
  have hanswers := readFrame_answers h
  rw [hinvalid] at hanswers
  generalize s.readFrame = answer at hanswers ⊢
  obtain ⟨value, t⟩ := answer
  cases hanswers with
  | invalid he hi => exact ⟨_, _, he, rfl, hi⟩

/-- However a stream of frames comes in and wherever it is cut, its reader gets the frames
before the cut, then the end of the stream at a boundary and an error inside a frame. -/
theorem frames_read_back (fits : ∀ m ∈ messages, m.Fits) :
    (∀ s : Source, Steady s.reader → s.reader.items = writeFrames messages →
      s.readFrames (messages.length + 1) = delivered messages ++ [.ok none]) ∧
    (∀ (s : Source) (cut : ℕ), Steady s.reader → cut ≤ (writeFrames messages).length →
      s.reader.items = (writeFrames messages).take cut →
      ∃ n ≤ messages.length,
        cut = (writeFrames (messages.take n)).length ∧
            s.readFrames (n + 1) = delivered (messages.take n) ++ [.ok none] ∨
          n < messages.length ∧ (writeFrames (messages.take n)).length < cut ∧
            cut < (writeFrames (messages.take (n + 1))).length ∧
            ∃ e : ReadError, e.kind = .unexpectedEof ∧
              s.readFrames (n + 1) = delivered (messages.take n) ++ [.error e]) ∧
    ∀ s : Source, Steady s.reader → 4 ≤ s.reader.items.length →
      fromBeBytes (s.reader.items.take 4) = 0 ∨
        maxFrameLen < fromBeBytes (s.reader.items.take 4) →
      ∃ e r, e.kind = .invalidData ∧ s.readFrame = (.error e, { s with reader := r }) ∧
        r.items = s.reader.items.drop 4 := by
  have hboundary (ms : List Message) (hms : ∀ m ∈ ms, m.Fits) (s : Source)
      (hs : Steady s.reader) (hitems : s.reader.items = writeFrames ms) :
      s.readFrames (ms.length + 1) = delivered ms ++ [.ok none] := by
    obtain ⟨t, ht, hrest, hcalls⟩ :=
      @readFrames_messages s ms [] hms hs (hitems.trans (List.append_nil _).symm)
    rw [hcalls, Source.readFrames, readFrame_end ht hrest]
    rfl
  refine ⟨hboundary messages fits, ?_, ?_⟩
  · intro s cut hs hcut hitems
    obtain ⟨n, hn, ⟨hat, htake⟩ | ⟨m, j, hm, hpos, hj, hin, htake⟩⟩ := take_writeFrames messages cut hcut
    · refine ⟨n, hn, .inl ⟨hat, ?_⟩⟩
      have hsub := hboundary (messages.take n) (fun m hm => fits m (List.mem_of_mem_take hm)) s hs
        (hitems.trans htake)
      rwa [List.length_take_of_le hn] at hsub
    · obtain ⟨hlt, hget⟩ := List.getElem?_eq_some_iff.mp hm
      have hnext : writeFrames (messages.take (n + 1)) =
          writeFrames (messages.take n) ++ writeFrame m.tag m.payload := by
        rw [List.take_add_one, hm, writeFrames, List.flatMap_append]
        exact congrArg _ (List.flatMap_singleton _ _)
      obtain ⟨t, ht, hrest, hcalls⟩ := readFrames_messages
        (fun m hm => fits m (List.mem_of_mem_take hm)) hs (hitems.trans htake)
      obtain ⟨e, he, hanswer⟩ :=
        readFrame_inside (fits m (List.mem_of_getElem? hm)) ht hpos hj hrest
      refine ⟨n, hn, .inr ⟨hlt, by omega, ?_, e, he, ?_⟩⟩
      · rw [hnext, List.length_append]
        omega
      · have hcall := hcalls 1
        rw [List.length_take_of_le hn] at hcall
        rw [hcall, Source.readFrames, hanswer]
        rfl
  · intro s hs hle hlen
    exact readFrame_header hs hle hlen

/-- A frame of two bytes read with an interruption, then one cut after its sixth byte. -/
theorem frames_read_back_two :
    (∀ m ∈ [(⟨2, [7]⟩ : Message)], m.Fits) ∧
    (Source.readFrames 2 ⟨⟨writeFrames [⟨2, [7]⟩], [.piece 1, .interrupted, .piece 0]⟩, []⟩ =
      [.ok (some ⟨2, [7]⟩), .ok none]) ∧
    ∃ e : ReadError, e.kind = .unexpectedEof ∧
      Source.readFrames 1 ⟨⟨(writeFrames [⟨2, [7]⟩]).take 5, [.interrupted]⟩, []⟩ = [.error e] := by
  have fits : ∀ m ∈ [(⟨2, [7]⟩ : Message)], m.Fits := by
    intro m hm
    rw [List.mem_singleton.mp hm, Message.Fits]
    decide
  have hread := frames_read_back fits
  refine ⟨fits, hread.1 _ (by intro e he; simp at he) rfl, ?_⟩
  obtain ⟨n, hn, ⟨hat, -⟩ | ⟨hlt, -, -, e, he, hanswer⟩⟩ :=
    hread.2.1 ⟨⟨(writeFrames [⟨2, [7]⟩]).take 5, [.interrupted]⟩, []⟩ 5
      (by intro e he; simp at he) (by decide) rfl
  · have hcases : n = 0 ∨ n = 1 := by
      rw [List.length_singleton] at hn
      omega
    rcases hcases with rfl | rfl <;> exact absurd hat (by decide)
  · have hzero : n = 0 := by
      rw [List.length_singleton] at hlt
      omega
    rw [hzero] at hanswer
    exact ⟨e, he, hanswer⟩

end Forcola.Native.Frame
