import Forcola.Library.BigEndian
import Forcola.Native.Pump

/-! The framing of the protocol streams. -/

namespace Forcola.Native.Frame

open Forcola.Library

def tagStdin : UInt8 := 0x02
def tagEof : UInt8 := 0x03
def tagKill : UInt8 := 0x04
def tagCredit : UInt8 := 0x05
def tagStderrCredit : UInt8 := 0x06

def maxFrameLen : ℕ := 64 * 1024 * 1024

/-- `write_frame`, and what a port opened with `{:packet, 4}` does to a tagged payload. -/
def writeFrame (tag : UInt8) (payload : Bytes) : Bytes :=
  BigEndian.encode 4 (payload.length + 1) ++ tag :: payload

/-- What `read_frame` makes of the bytes it can get: `boundary` and `short` block while the
stream is open and are a clean and an unclean end of it once it is closed. -/
inductive Read
  | frame (tag : UInt8) (payload rest : Bytes)
  | invalid
  | short
  | boundary
deriving DecidableEq

def readFrame (stream : Bytes) : Read :=
  if stream = [] then .boundary
  else if stream.length < 4 then .short
  else
    let len := fromBeBytes (stream.take 4)
    if len = 0 then .invalid
    else if maxFrameLen < len then .invalid
    else if (stream.drop 4).length < len then .short
    else
      match (stream.drop 4).take len with
      | tag :: payload => .frame tag payload ((stream.drop 4).drop len)
      | [] => .invalid

variable {tag t : UInt8} {payload p stream rest : Bytes}

@[simp] lemma length_writeFrame (tag : UInt8) (payload : Bytes) :
    (writeFrame tag payload).length = payload.length + 5 := by
  simp [writeFrame]
  omega

lemma header (h : writeFrame t p <+: stream ∨
    stream <+: writeFrame t p ∧ 4 ≤ stream.length) :
    fromBeBytes (stream.take 4) = (p.length + 1) % 256 ^ 4 := by
  have ht : stream.take 4 = BigEndian.encode 4 (p.length + 1) := by
    rcases h with ⟨rest, rfl⟩ | ⟨⟨rest, h⟩, hl⟩
    · simp [writeFrame]
    · have hs : stream.take 4 = (stream ++ rest).take 4 := by
        rw [List.take_append_of_le_length hl]
      rw [hs, h]
      simp [writeFrame]
  rw [ht]
  exact BigEndian.decode_encode 4 _

theorem readFrame_writeFrame (h : payload.length + 1 ≤ maxFrameLen) (rest : Bytes) :
    readFrame (writeFrame tag payload ++ rest) = .frame tag payload rest := by
  have hlen : (payload.length + 1) % 256 ^ 4 = payload.length + 1 := by
    rw [maxFrameLen] at h
    exact Nat.mod_eq_of_lt (by omega)
  have hh := header (p := payload) (t := tag) (.inl (List.prefix_append _ rest))
  have hd : (writeFrame tag payload ++ rest).drop 4 = tag :: payload ++ rest := by
    simp [writeFrame]
  have hn : writeFrame tag payload ++ rest ≠ [] := by
    apply List.append_ne_nil_of_left_ne_nil
    exact List.ne_nil_of_length_pos (by simp)
  rw [readFrame, if_neg hn, if_neg (by simp; omega)]
  simp only [hh, hd, hlen]
  rw [if_neg (by omega), if_neg (by omega), if_neg (by simp)]
  simp

lemma readFrame_short (h : payload.length + 1 ≤ maxFrameLen)
    (hs : stream <+: writeFrame tag payload) (hl : stream.length < payload.length + 5) :
    readFrame stream = .boundary ∨ readFrame stream = .short := by
  rw [readFrame]
  by_cases hn : stream = []
  · exact .inl (if_pos hn)
  · rw [if_neg hn]
    by_cases h4 : stream.length < 4
    · exact .inr (if_pos h4)
    · have hh := header (.inr ⟨hs, not_lt.mp h4⟩)
      have hlen : (payload.length + 1) % 256 ^ 4 = payload.length + 1 := by
        rw [maxFrameLen] at h
        exact Nat.mod_eq_of_lt (by omega)
      rw [if_neg h4]
      simp only [hh, hlen]
      rw [if_neg (by omega), if_neg (by omega), if_pos (by simp; omega)]
      exact .inr rfl

lemma readFrame_invalid (h : maxFrameLen < payload.length + 1) (h4 : payload.length + 1 < 256 ^ 4)
    (rest : Bytes) : readFrame (writeFrame tag payload ++ rest) = .invalid := by
  have hh := header (p := payload) (t := tag) (.inl (List.prefix_append _ rest))
  have hn : writeFrame tag payload ++ rest ≠ [] := by
    apply List.append_ne_nil_of_left_ne_nil
    exact List.ne_nil_of_length_pos (by simp)
  rw [readFrame, if_neg hn, if_neg (by simp; omega)]
  simp only [hh, Nat.mod_eq_of_lt h4]
  rw [if_neg (by omega), if_pos h]

theorem readFrame_long (h : maxFrameLen < payload.length + 1) {more : Bytes} :
    readFrame (writeFrame tag payload ++ more) ≠ .frame t payload rest := by
  intro hr
  have hh := header (p := payload) (t := tag) (.inl (List.prefix_append _ more))
  rw [readFrame] at hr
  split at hr
  · cases hr
  · split at hr
    · cases hr
    · dsimp only at hr
      rw [hh] at hr
      split at hr
      · cases hr
      · split at hr
        · cases hr
        · next hcap =>
          split at hr
          · cases hr
          · split at hr
            · next tag' payload' ht =>
              have hp : payload' = payload := by
                cases hr
                rfl
              have hle := congrArg List.length ht
              rw [List.length_take, List.length_cons, hp] at hle
              omega
            · cases hr

end Forcola.Native.Frame
