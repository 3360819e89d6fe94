import Mathlib.Algebra.Order.Ring.Nat
import Mathlib.Data.Nat.ModEq
import Mathlib.Tactic.Ring

/-! Numbers as bytes, big end first. -/

namespace Forcola.Library.BigEndian

def encode : ℕ → ℕ → List UInt8
  | 0, _ => []
  | width + 1, n => UInt8.ofNat (n >>> (8 * width)) :: encode width n

def decode (bytes : List UInt8) : ℕ :=
  bytes.foldl (fun n b => n * 256 + b.toNat) 0

@[simp] lemma length_encode (width n : ℕ) : (encode width n).length = width := by
  induction width with
  | zero => rfl
  | succ width ih => simp [encode, ih]

lemma foldl_encode (width n acc : ℕ) :
    (encode width n).foldl (fun n b => n * 256 + b.toNat) acc =
      acc * 256 ^ width + n % 256 ^ width := by
  induction width generalizing acc with
  | zero => simp [encode, Nat.mod_one]
  | succ width ih =>
    have hs : n >>> (8 * width) = n / 256 ^ width := by
      rw [Nat.shiftRight_eq_div_pow, pow_mul, show (2 : ℕ) ^ 8 = 256 from rfl]
    have hm : n % 256 ^ (width + 1) = n % 256 ^ width + 256 ^ width * (n / 256 ^ width % 256) :=
      Nat.mod_pow_succ
    simp only [encode, List.foldl_cons, ih, UInt8.toNat_ofNat', hs, hm]
    ring

theorem decode_encode (width n : ℕ) : decode (encode width n) = n % 256 ^ width := by
  rw [decode, foldl_encode, Nat.zero_mul, Nat.zero_add]

variable {bytes : List UInt8}

lemma foldl_decode (bytes : List UInt8) (acc : ℕ) :
    bytes.foldl (fun n b => n * 256 + b.toNat) acc = acc * 256 ^ bytes.length + decode bytes := by
  induction bytes generalizing acc with
  | nil => simp [decode]
  | cons b bytes ih =>
    have hcons : decode (b :: bytes) = b.toNat * 256 ^ bytes.length + decode bytes := by
      rw [decode, List.foldl_cons, ih, Nat.zero_mul, Nat.zero_add]
    rw [List.foldl_cons, ih, hcons, List.length_cons]
    ring

lemma decode_cons (b : UInt8) (bytes : List UInt8) :
    decode (b :: bytes) = b.toNat * 256 ^ bytes.length + decode bytes := by
  rw [decode, List.foldl_cons, foldl_decode, Nat.zero_mul, Nat.zero_add]

lemma decode_lt (bytes : List UInt8) : decode bytes < 256 ^ bytes.length := by
  induction bytes with
  | nil => exact Nat.one_pos
  | cons b bytes ih =>
    have hb : b.toNat < 256 := b.toNat_lt
    rw [decode_cons, List.length_cons, pow_succ]
    calc b.toNat * 256 ^ bytes.length + decode bytes
        < b.toNat * 256 ^ bytes.length + 256 ^ bytes.length := Nat.add_lt_add_left ih _
      _ = (b.toNat + 1) * 256 ^ bytes.length := by ring
      _ ≤ 256 * 256 ^ bytes.length := Nat.mul_le_mul_right _ hb
      _ = 256 ^ bytes.length * 256 := Nat.mul_comm _ _

lemma encode_add (width k n : ℕ) : encode width (k * 256 ^ width + n) = encode width n := by
  induction width generalizing k with
  | zero => rfl
  | succ width ih =>
    have hshift : (2 : ℕ) ^ (8 * width) = 256 ^ width := pow_mul 2 8 width
    have hhead : (k * 256 ^ (width + 1) + n) >>> (8 * width) = k * 256 + n >>> (8 * width) := by
      rw [Nat.shiftRight_eq_div_pow, Nat.shiftRight_eq_div_pow, hshift]
      have hsplit : k * 256 ^ (width + 1) + n = n + 256 ^ width * (k * 256) := by ring
      rw [hsplit, Nat.add_mul_div_left _ _ (Nat.pow_pos (by decide))]
      exact Nat.add_comm _ _
    have htail : encode width (k * 256 ^ (width + 1) + n) = encode width n := by
      rw [← ih (k * 256)]
      congr 1
      ring
    rw [encode, encode, hhead, htail]
    congr 1
    apply UInt8.toNat_inj.mp
    rw [UInt8.toNat_ofNat', UInt8.toNat_ofNat']
    omega

theorem encode_decode (bytes : List UInt8) : encode bytes.length (decode bytes) = bytes := by
  induction bytes with
  | nil => rfl
  | cons b bytes ih =>
    have hshift : (2 : ℕ) ^ (8 * bytes.length) = 256 ^ bytes.length := pow_mul 2 8 bytes.length
    have hhead : decode (b :: bytes) >>> (8 * bytes.length) = b.toNat := by
      rw [Nat.shiftRight_eq_div_pow, hshift, decode_cons, Nat.add_comm,
        Nat.add_mul_div_right _ _ (Nat.pow_pos (by decide)), Nat.div_eq_of_lt (decode_lt bytes), Nat.zero_add]
    rw [List.length_cons, encode, hhead, decode_cons, encode_add, ih]
    congr 1
    exact UInt8.ofNat_toNat

end Forcola.Library.BigEndian
