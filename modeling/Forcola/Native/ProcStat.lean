import Forcola.Library.Text
import Forcola.Native.Identity
import Forcola.Native.Pump
import Mathlib.Data.Int.Notation
import Mathlib.Data.List.DropRight

/-! The process identity in the text of `/proc/<pid>/stat`. -/

namespace Forcola.Native.ProcStat

open Forcola.Library Text

def isWhitespace (c : Char) : Bool :=
  (9 ≤ c.toNat && c.toNat ≤ 13) || c.toNat == 0x20 || c.toNat == 0x85 || c.toNat == 0xa0 ||
    c.toNat == 0x1680 || (0x2000 ≤ c.toNat && c.toNat ≤ 0x200a) || c.toNat == 0x2028 ||
    c.toNat == 0x2029 || c.toNat == 0x202f || c.toNat == 0x205f || c.toNat == 0x3000

def trim (text : String) : String :=
  .ofList (text.toList.rdropWhile isWhitespace |>.dropWhile isWhitespace)

def splitWhitespace : List Char → List (List Char) :=
  fields isWhitespace

def fromUtf8 (bytes : Bytes) : Option (List Char) :=
  bytes.toByteArray.utf8Decode?.map Array.toList

/-- `str::parse` at an unsigned type of `bound` values: digits after an optional plus sign. -/
def parse (bound : ℕ) : List Char → Option ℕ
  | [] => none
  | '+' :: [] => none
  | '+' :: digits => readDigits bound digits 0
  | digits => readDigits bound digits 0

def invalid : IoError := .custom .invalidData

def okOr {α : Type} (value : Option α) : Io α :=
  match value with
  | some a => .ok a
  | none => .error invalid

def next : List (List Char) → Io (List Char × List (List Char))
  | [] => .error invalid
  | field :: fields => .ok (field, fields)

def closingParen : UInt8 := 0x29

/-- `do_task_stat` leaves the group at `-1` for a released process. -/
def parsePgid (field : List Char) : Io ℕ :=
  if field = ['-', '1'] then .ok 0 else okOr (parse (2 ^ 32) field)

/-- The fields from the third on: the state, the parent, the group and, seventeen fields after
it, the start time. -/
def parseFields (fields : List (List Char)) : Io (ℕ × ℕ × ℕ × Bool) := do
  let (state, fields) ← next fields
  let (ppidField, fields) ← next fields
  let ppid ← okOr (parse (2 ^ 32) ppidField)
  let (pgidField, fields) ← next fields
  let pgid ← parsePgid pgidField
  let ticksField ← okOr fields[16]?
  let ticks ← okOr (parse (2 ^ 64) ticksField)
  if pgid = 0 ∨ state = ['X'] ∨ state = ['x'] then .error (.os .esrch)
  else return (ppid, pgid, ticks, state = ['Z'])

/-- The name before the last `)` can be any bytes; only what follows it must be UTF-8. -/
def parseStat (stat : Bytes) : Io (ℕ × ℕ × ℕ × Bool) := do
  let close ← okOr (lastIdx? (· == closingParen) stat)
  let text ← okOr (fromUtf8 (stat.drop (close + 1)))
  parseFields (splitWhitespace text)

def encode (text : List Char) : Bytes :=
  text.flatMap String.utf8EncodeChar

def decimal (n : ℕ) : List Char :=
  Nat.toDigits 10 n

def signed : ℤ → List Char
  | .ofNat n => decimal n
  | .negSucc n => '-' :: decimal (n + 1)

/-- What `do_task_stat` prints. The name is any bytes and a released process has group `-1`. -/
structure Stat where
  pid : ℕ
  comm : Bytes
  state : Char
  ppid : ℕ
  pgrp : ℤ
  between : List ℤ
  ticks : ℕ
  others : List ℤ
  letter : state.isAlpha = true
  ppid_lt : ppid < 2 ^ 32
  pgrp_ge : -1 ≤ pgrp
  pgrp_lt : pgrp < 2 ^ 32
  between_length : between.length = 16
  ticks_lt : ticks < 2 ^ 64

namespace Stat

def texts (s : Stat) : List (List Char) :=
  [s.state] :: decimal s.ppid :: signed s.pgrp :: s.between.map signed ++
    decimal s.ticks :: s.others.map signed

def line (s : Stat) : Bytes :=
  encode (decimal s.pid) ++ encode [' ', '('] ++ s.comm ++ closingParen ::
    encode (s.texts.flatMap (fun field => ' ' :: field) ++ ['\n'])

/-- The kernel no longer has the process in a group. -/
def Released (s : Stat) : Prop :=
  s.pgrp = 0 ∨ s.pgrp = -1 ∨ s.state = 'X' ∨ s.state = 'x'

end Stat

def Plain (c : Char) : Prop := c.isAlpha = true ∨ c.isDigit = true ∨ c = '-'

variable {c : Char} {text : List Char} {bytes front suffix : Bytes}

lemma Plain.range (h : Plain c) : 0x2d ≤ c.toNat ∧ c.toNat ≤ 0x7a := by
  rcases h with halpha | hdigit | rfl
  · have hcase : c.isUpper = true ∨ c.isLower = true := Bool.or_eq_true_iff.mp halpha
    rcases hcase with hupper | hlower
    · have hrange : 'A'.val ≤ c.val ∧ c.val ≤ 'Z'.val := of_decide_eq_true hupper
      change 65 ≤ c.toNat ∧ c.toNat ≤ 90 at hrange
      omega
    · have hrange : 'a'.val ≤ c.val ∧ c.val ≤ 'z'.val := by
        obtain ⟨hlo, hhi⟩ := Bool.and_eq_true_iff.mp hlower
        exact ⟨of_decide_eq_true hlo, of_decide_eq_true hhi⟩
      change 97 ≤ c.toNat ∧ c.toNat ≤ 122 at hrange
      omega
  · rw [Char.isDigit_iff_toNat] at hdigit
    change 48 ≤ c.toNat ∧ c.toNat ≤ 57 at hdigit
    omega
  · decide

lemma Plain.not_whitespace (h : Plain c) : isWhitespace c = false := by
  have hrange := h.range
  simp only [isWhitespace, Bool.or_eq_false_iff, Bool.and_eq_false_iff, decide_eq_false_iff_not,
    beq_eq_false_iff_ne]
  omega

lemma encode_plain (h : ∀ c ∈ text, c.toNat < 128 ∧ c ≠ ')') :
    closingParen ∉ encode text := by
  intro hb
  obtain ⟨c, hc, hbyte⟩ := List.mem_flatMap.mp hb
  obtain ⟨hlt, hne⟩ := h c hc
  have hsize : c.utf8Size = 1 := by
    rw [Char.utf8Size_eq_one_iff, UInt32.le_iff_toNat_le]
    exact Nat.le_of_lt_succ hlt
  rw [String.utf8EncodeChar_eq_singleton hsize, List.mem_singleton] at hbyte
  apply hne
  have hval : c.val.toNat % 256 = 41 := (congrArg UInt8.toNat hbyte).symm
  have hnat : c.toNat = 41 := by
    rw [← hval]
    exact (Nat.mod_eq_of_lt (Nat.lt_trans hlt (by decide))).symm
  exact Char.toNat_inj.mp hnat

@[simp] lemma fromUtf8_encode (text : List Char) : fromUtf8 (encode text) = some text := by
  rw [fromUtf8]
  change (List.utf8Encode text).utf8Decode?.map Array.toList = some text
  rw [List.utf8Decode?_utf8Encode, Option.map_some]

lemma digit_of_decimal {n : ℕ} (h : c ∈ decimal n) : c.isDigit = true :=
  Nat.isDigit_of_mem_toDigits (by decide) (by decide) h

lemma decimal_ne_nil (n : ℕ) : decimal n ≠ [] :=
  Nat.toDigits_ne_nil

lemma parse_of_ne_plus {bound : ℕ} (h : c ≠ '+') (cs : List Char) :
    parse bound (c :: cs) = readDigits bound (c :: cs) 0 := by
  rw [parse.eq_def]
  split
  · rename_i hnil
    cases hnil
  · rename_i hplus
    cases hplus
    exact absurd rfl h
  · rename_i hplus
    cases hplus
    exact absurd rfl h
  · rfl

lemma parse_decimal {bound n : ℕ} (h : n < bound) : parse bound (decimal n) = some n := by
  have hread : readDigits bound (decimal n) 0 = some n := readDigits_toDigits h
  match hdecimal : decimal n with
  | [] => exact absurd hdecimal (decimal_ne_nil n)
  | c :: cs =>
    have hdigit : c.isDigit = true := digit_of_decimal (hdecimal ▸ List.mem_cons_self)
    rw [parse_of_ne_plus (by rintro rfl; exact absurd hdigit (by decide)), ← hdecimal, hread]

lemma plain_decimal (n : ℕ) : ∀ c ∈ decimal n, Plain c := by
  intro c hc
  exact .inr (.inl (digit_of_decimal hc))

lemma plain_signed (i : ℤ) : ∀ c ∈ signed i, Plain c := by
  intro c hc
  cases i with
  | ofNat n => exact plain_decimal n c hc
  | negSucc n =>
    rcases List.mem_cons.mp hc with rfl | hc
    · exact .inr (.inr rfl)
    · exact plain_decimal (n + 1) c hc

lemma signed_ne_nil (i : ℤ) : signed i ≠ [] := by
  cases i with
  | ofNat n => exact decimal_ne_nil n
  | negSucc n => exact List.cons_ne_nil _ _

namespace Stat

lemma texts_plain (s : Stat) : ∀ field ∈ s.texts, field ≠ [] ∧ ∀ c ∈ field, Plain c := by
  intro field hfield
  rw [texts] at hfield
  simp only [List.cons_append, List.mem_cons, List.mem_append, List.mem_map] at hfield
  rcases hfield with rfl | rfl | rfl | ⟨i, -, rfl⟩ | rfl | ⟨i, -, rfl⟩
  · refine ⟨List.cons_ne_nil _ _, ?_⟩
    intro c hc
    rw [List.mem_singleton.mp hc]
    exact .inl s.letter
  · exact ⟨decimal_ne_nil _, plain_decimal _⟩
  · exact ⟨signed_ne_nil _, plain_signed _⟩
  · exact ⟨signed_ne_nil _, plain_signed _⟩
  · exact ⟨decimal_ne_nil _, plain_decimal _⟩
  · exact ⟨signed_ne_nil _, plain_signed _⟩

lemma closing_notMem (s : Stat) :
    closingParen ∉ encode (s.texts.flatMap (fun field => ' ' :: field) ++ ['\n']) := by
  apply encode_plain
  intro c hc
  rcases List.mem_append.mp hc with hc | hc
  · obtain ⟨field, hfield, hc⟩ := List.mem_flatMap.mp hc
    rcases List.mem_cons.mp hc with rfl | hc
    · decide
    · have hrange := ((s.texts_plain field hfield).2 c hc).range
      refine ⟨by omega, ?_⟩
      rintro rfl
      exact absurd hrange.1 (by decide)
  · rw [List.mem_singleton.mp hc]
    decide

lemma splitWhitespace_line (s : Stat) :
    splitWhitespace (s.texts.flatMap (fun field => ' ' :: field) ++ ['\n']) = s.texts := by
  apply fields_flatMap
  · intro field hfield
    obtain ⟨hne, hplain⟩ := s.texts_plain field hfield
    exact ⟨hne, fun c hc => (hplain c hc).not_whitespace⟩
  · rfl
  · rfl

end Stat

def Numeral (bound : ℕ) (field : List Char) (n : ℕ) : Prop :=
  ∃ digits, (field = digits ∨ field = '+' :: digits) ∧ digits ≠ [] ∧
    (∀ c ∈ digits, c.isDigit = true) ∧ n < bound ∧ n = Nat.ofDigitChars 10 digits 0

def Suffix (stat : Bytes) (fields : List (List Char)) : Prop :=
  ∃ front suffix text, stat = front ++ closingParen :: suffix ∧ closingParen ∉ suffix ∧
    fromUtf8 suffix = some text ∧ splitWhitespace text = fields

structure Reads (fields : List (List Char)) (state : List Char) (ppid pgid ticks : ℕ) : Prop where
  state : fields[0]? = some state
  ppid : ∃ field, fields[1]? = some field ∧ Numeral (2 ^ 32) field ppid
  pgid : ∃ field, fields[2]? = some field ∧
    (field = ['-', '1'] ∧ pgid = 0 ∨ Numeral (2 ^ 32) field pgid)
  ticks : ∃ field, fields[19]? = some field ∧ Numeral (2 ^ 64) field ticks

variable {bound n ppid pgid ticks : ℕ} {field state : List Char} {fields : List (List Char)}
  {stat : Bytes}

lemma numeral_iff_readDigits (h : 0 < bound) (hplus : field.head? ≠ some '+') :
    Numeral bound field n ↔ field ≠ [] ∧ readDigits bound field 0 = some n := by
  rw [readDigits_eq_some h]
  constructor
  · rintro ⟨digits, rfl | rfl, hne, hdigits, hn⟩
    · exact ⟨hne, hdigits, hn⟩
    · exact absurd rfl hplus
  · rintro ⟨hne, hdigits, hn⟩
    exact ⟨field, .inl rfl, hne, hdigits, hn⟩

lemma numeral_plus (h : 0 < bound) :
    Numeral bound ('+' :: field) n ↔ field ≠ [] ∧ readDigits bound field 0 = some n := by
  rw [readDigits_eq_some h]
  constructor
  · rintro ⟨digits, hfield | hfield, hne, hdigits, hn⟩
    · have hplus := hdigits '+' (hfield ▸ List.mem_cons_self)
      exact absurd hplus (by decide)
    · cases hfield
      exact ⟨hne, hdigits, hn⟩
  · rintro ⟨hne, hdigits, hn⟩
    exact ⟨field, .inr rfl, hne, hdigits, hn⟩

theorem parse_eq_some (h : 0 < bound) : parse bound field = some n ↔ Numeral bound field n := by
  match field with
  | [] =>
    have hnone : parse bound [] = none := by simp [parse]
    rw [numeral_iff_readDigits h (by simp), hnone]
    exact ⟨nofun, fun hn => absurd rfl hn.1⟩
  | c :: cs =>
    by_cases hc : c = '+'
    · subst hc
      rw [numeral_plus h]
      cases cs with
      | nil =>
        have hnone : parse bound ['+'] = none := by simp [parse]
        rw [hnone]
        exact ⟨nofun, fun hn => absurd rfl hn.1⟩
      | cons d ds =>
        have hdigits : parse bound ('+' :: d :: ds) = readDigits bound (d :: ds) 0 := by simp [parse]
        rw [hdigits]
        exact ⟨fun hn => ⟨List.cons_ne_nil _ _, hn⟩, fun hn => hn.2⟩
    · rw [numeral_iff_readDigits h (by simpa using hc), parse_of_ne_plus hc]
      exact ⟨fun hn => ⟨List.cons_ne_nil _ _, hn⟩, fun hn => hn.2⟩

lemma okOr_eq_ok {α : Type} {value : Option α} {a : α} : okOr value = .ok a ↔ value = some a := by
  cases value with
  | none => exact ⟨nofun, nofun⟩
  | some b =>
    constructor
    · rintro ⟨⟩
      rfl
    · rintro ⟨⟩
      rfl

lemma parsePgid_eq_ok : parsePgid field = .ok pgid ↔
    field = ['-', '1'] ∧ pgid = 0 ∨ Numeral (2 ^ 32) field pgid := by
  by_cases hminus : field = ['-', '1']
  · have hnone : ¬ Numeral (2 ^ 32) field pgid := by
      rw [hminus, numeral_iff_readDigits (by decide) (by decide)]
      simp [readDigits]
    rw [parsePgid, if_pos hminus, or_iff_left hnone]
    constructor
    · rintro ⟨⟩
      exact ⟨hminus, rfl⟩
    · rintro ⟨-, rfl⟩
      rfl
  · rw [parsePgid, if_neg hminus, okOr_eq_ok, parse_eq_some (by decide)]
    constructor
    · intro hn
      exact .inr hn
    · rintro (⟨heq, -⟩ | hn)
      · exact absurd heq hminus
      · exact hn

lemma parseFields_reads (h : Reads fields state ppid pgid ticks) : parseFields fields =
    if pgid = 0 ∨ state = ['X'] ∨ state = ['x'] then .error (.os .esrch)
    else .ok (ppid, pgid, ticks, state = ['Z']) := by
  obtain ⟨hstate, ⟨ppidField, hppidField, hppid⟩, ⟨pgidField, hpgidField, hpgid⟩,
    ⟨ticksField, hticksField, hticks⟩⟩ := h
  match fields with
  | [] => cases hstate
  | [_] => cases hppidField
  | [_, _] => cases hpgidField
  | _ :: _ :: _ :: fields =>
    cases hstate
    cases hppidField
    cases hpgidField
    change fields[16]? = some ticksField at hticksField
    rw [← parse_eq_some (by decide), ← okOr_eq_ok] at hppid hticks
    rw [← parsePgid_eq_ok] at hpgid
    rw [← okOr_eq_ok] at hticksField
    simp only [parseFields, next, bind, Except.bind]
    rw [hppid, hpgid, hticksField]
    dsimp only
    rw [hticks]
    rfl

lemma okOr_cases {α : Type} (value : Option α) :
    okOr value = .error invalid ∨ ∃ a, okOr value = .ok a := by
  cases value with
  | none => exact .inl rfl
  | some a => exact .inr ⟨a, rfl⟩

lemma parsePgid_cases (field : List Char) :
    parsePgid field = .error invalid ∨ ∃ pgid, parsePgid field = .ok pgid := by
  rw [parsePgid]
  split
  · exact .inr ⟨0, rfl⟩
  · exact okOr_cases _

lemma parseFields_cases (fields : List (List Char)) : parseFields fields = .error invalid ∨
    ∃ state ppid pgid ticks, Reads fields state ppid pgid ticks := by
  match fields with
  | [] => exact .inl rfl
  | [_] => exact .inl rfl
  | [state, ppidField] =>
    left
    simp only [parseFields, next, bind, Except.bind]
    rcases okOr_cases (parse (2 ^ 32) ppidField) with he | ⟨ppid, hppid⟩
    · rw [he]
    · rw [hppid]
  | state :: ppidField :: pgidField :: fields =>
    simp only [parseFields, next, bind, Except.bind]
    rcases okOr_cases (parse (2 ^ 32) ppidField) with he | ⟨ppid, hppid⟩
    · exact .inl (by rw [he])
    rcases parsePgid_cases pgidField with he | ⟨pgid, hpgid⟩
    · exact .inl (by rw [hppid, he])
    rcases okOr_cases fields[16]? with he | ⟨ticksField, hticksField⟩
    · exact .inl (by rw [hppid, hpgid, he])
    rcases okOr_cases (parse (2 ^ 64) ticksField) with he | ⟨ticks, hticks⟩
    · left
      rw [hppid, hpgid, hticksField]
      dsimp only
      rw [he]
    · refine .inr ⟨state, ppid, pgid, ticks, rfl, ?_, ?_, ?_⟩
      · exact ⟨_, rfl, (parse_eq_some (by decide)).mp (okOr_eq_ok.mp hppid)⟩
      · exact ⟨_, rfl, parsePgid_eq_ok.mp hpgid⟩
      · exact ⟨_, okOr_eq_ok.mp hticksField, (parse_eq_some (by decide)).mp (okOr_eq_ok.mp hticks)⟩

lemma parseStat_closed (h : closingParen ∉ suffix) :
    parseStat (front ++ closingParen :: suffix) =
      okOr (fromUtf8 suffix) >>= fun text => parseFields (splitWhitespace text) := by
  have hlast : lastIdx? (· == closingParen) (front ++ closingParen :: suffix) = some front.length := by
    apply lastIdx?_append
    · rfl
    · intro b hb
      rw [beq_eq_false_iff_ne]
      rintro rfl
      exact h hb
  have hdrop : (front ++ closingParen :: suffix).drop (front.length + 1) = suffix := by
    rw [List.drop_append, List.drop_of_length_le (by omega), Nat.add_sub_cancel_left]
    rfl
  rw [parseStat, hlast]
  change okOr (fromUtf8 ((front ++ closingParen :: suffix).drop (front.length + 1))) >>= _ = _
  rw [hdrop]

lemma parseStat_suffix (h : Suffix stat fields) : parseStat stat = parseFields fields := by
  obtain ⟨front, suffix, text, rfl, hclose, htext, rfl⟩ := h
  rw [parseStat_closed hclose, htext]
  rfl

lemma parseStat_unclosed (h : closingParen ∉ stat) : parseStat stat = .error invalid := by
  have hnone : lastIdx? (· == closingParen) stat = none := by
    rw [lastIdx?_eq_none]
    intro b hb
    rw [beq_eq_false_iff_ne]
    rintro rfl
    exact h hb
  rw [parseStat, hnone]
  rfl

lemma parseStat_not_utf8 (h : closingParen ∉ suffix) (hnone : fromUtf8 suffix = none) :
    parseStat (front ++ closingParen :: suffix) = .error invalid := by
  rw [parseStat_closed h, hnone]
  rfl

lemma exists_last (h : closingParen ∈ stat) :
    ∃ front suffix, stat = front ++ closingParen :: suffix ∧ closingParen ∉ suffix := by
  obtain ⟨front, suffix, heq, hnotMem⟩ := List.eq_append_cons_of_mem (List.mem_reverse.mpr h)
  refine ⟨suffix.reverse, front.reverse, ?_, fun hmem => hnotMem (List.mem_reverse.mp hmem)⟩
  rw [← List.reverse_reverse stat, heq, List.reverse_append, List.reverse_cons, List.append_assoc]
  rfl

lemma parseStat_cases (stat : Bytes) : parseStat stat = .error invalid ∨
    ∃ fields state ppid pgid ticks, Suffix stat fields ∧ Reads fields state ppid pgid ticks := by
  by_cases hmem : closingParen ∈ stat
  · obtain ⟨front, suffix, rfl, hsuffix⟩ := exists_last hmem
    match htext : fromUtf8 suffix with
    | none => exact .inl (parseStat_not_utf8 hsuffix htext)
    | some text =>
      have h : Suffix (front ++ closingParen :: suffix) (splitWhitespace text) :=
        ⟨front, suffix, text, rfl, hsuffix, htext, rfl⟩
      rw [parseStat_suffix h]
      rcases parseFields_cases (splitWhitespace text) with he | ⟨state, ppid, pgid, ticks, hreads⟩
      · exact .inl he
      · exact .inr ⟨_, state, ppid, pgid, ticks, h, hreads⟩
  · exact .inl (parseStat_unclosed hmem)

namespace Stat

lemma suffix_line (s : Stat) : Suffix s.line s.texts := by
  exact ⟨_, _, _, rfl, s.closing_notMem, fromUtf8_encode _, s.splitWhitespace_line⟩

lemma reads_texts (s : Stat) : Reads s.texts [s.state] s.ppid s.pgrp.toNat s.ticks := by
  have hticks : s.texts[19]? = some (decimal s.ticks) := by
    change (s.between.map signed ++ decimal s.ticks :: s.others.map signed)[16]? = _
    rw [List.getElem?_append_right (Nat.le_of_eq (by rw [List.length_map, s.between_length])), List.length_map,
      s.between_length]
    rfl
  refine ⟨rfl, ⟨_, rfl, (parse_eq_some (by decide)).mp (parse_decimal s.ppid_lt)⟩,
    ⟨_, rfl, ?_⟩, ⟨_, hticks, (parse_eq_some (by decide)).mp (parse_decimal s.ticks_lt)⟩⟩
  have hlt := s.pgrp_lt
  have hge := s.pgrp_ge
  match hpgrp : s.pgrp with
  | .ofNat n =>
    rw [hpgrp] at hlt
    have hn : n < 2 ^ 32 := by
      change (n : ℤ) < 2 ^ 32 at hlt
      omega
    exact .inr ((parse_eq_some (by decide)).mp (parse_decimal hn))
  | .negSucc n =>
    rw [hpgrp] at hge
    have hn : n = 0 := by omega
    subst hn
    exact .inl ⟨rfl, rfl⟩

lemma released_iff (s : Stat) : s.Released ↔
    s.pgrp.toNat = 0 ∨ [s.state] = ['X'] ∨ [s.state] = ['x'] := by
  have hge := s.pgrp_ge
  rw [List.singleton_inj, List.singleton_inj, Released, ← or_assoc]
  apply or_congr_left
  omega

end Stat

/-- The kernel's line is read back whatever the name, a released process is gone, and no other
line is taken for an identity it does not state. -/
theorem parseStat_line (s : Stat) (stat : Bytes) :
    (¬ s.Released → parseStat s.line = .ok (s.ppid, s.pgrp.toNat, s.ticks, s.state = 'Z')) ∧
    (s.Released → parseStat s.line = .error (.os .esrch)) ∧
    (closingParen ∉ stat → parseStat stat = .error invalid) ∧
    (∀ front suffix, closingParen ∉ suffix → fromUtf8 suffix = none →
      parseStat (front ++ closingParen :: suffix) = .error invalid) ∧
    (∀ fields, Suffix stat fields →
      (∀ field n, fields[1]? = some field → ¬ Numeral (2 ^ 32) field n) ∨
        (∀ field n, fields[2]? = some field → field ≠ ['-', '1'] ∧ ¬ Numeral (2 ^ 32) field n) ∨
        (∀ field n, fields[19]? = some field → ¬ Numeral (2 ^ 64) field n) →
      parseStat stat = .error invalid) ∧
    ∀ ppid pgid ticks exited, parseStat stat = .ok (ppid, pgid, ticks, exited) →
      ∃ fields state, Suffix stat fields ∧ Reads fields state ppid pgid ticks ∧ pgid ≠ 0 ∧
        state ≠ ['X'] ∧ state ≠ ['x'] ∧ exited = decide (state = ['Z']) := by
  refine ⟨?_, ?_, parseStat_unclosed, fun front suffix => parseStat_not_utf8, ?_, ?_⟩
  · intro hs
    rw [parseStat_suffix s.suffix_line, parseFields_reads s.reads_texts, if_neg (s.released_iff.not.mp hs)]
    simp only [List.singleton_inj]
  · intro hs
    rw [parseStat_suffix s.suffix_line, parseFields_reads s.reads_texts, if_pos (s.released_iff.mp hs)]
  · intro fields hsuffix hfault
    rw [parseStat_suffix hsuffix]
    rcases parseFields_cases fields with he | ⟨state, ppid, pgid, ticks, -, ⟨f, hf, hppid⟩,
      ⟨g, hg, hpgid⟩, ⟨k, hk, hticks⟩⟩
    · exact he
    · rcases hfault with hfault | hfault | hfault
      · exact absurd hppid (hfault f ppid hf)
      · obtain ⟨hminus, hnumeral⟩ := hfault g pgid hg
        rcases hpgid with ⟨heq, -⟩ | hpgid
        · exact absurd heq hminus
        · exact absurd hpgid hnumeral
      · exact absurd hticks (hfault k ticks hk)
  · intro ppid pgid ticks exited hok
    rcases parseStat_cases stat with he | ⟨fields, state, ppid', pgid', ticks', hsuffix, hreads⟩
    · rw [he] at hok
      cases hok
    · rw [parseStat_suffix hsuffix, parseFields_reads hreads] at hok
      split at hok
      · cases hok
      · next hgone =>
        cases hok
        rw [not_or, not_or] at hgone
        exact ⟨fields, state, hsuffix, hreads, hgone.1, hgone.2.1, hgone.2.2, rfl⟩

def tricky : Stat where
  pid := 123
  comm := [0x61, 0x29, 0x20, 0xff, 0x28, 0x0a]
  state := 'Z'
  ppid := 1
  pgrp := 123
  between := List.replicate 16 0
  ticks := 98765
  others := [-1]
  letter := by decide
  ppid_lt := by decide
  pgrp_ge := by decide
  pgrp_lt := by decide
  between_length := List.length_replicate
  ticks_lt := by decide

theorem parseStat_line_tricky : parseStat tricky.line = .ok (1, 123, 98765, true) := by
  have hline := (parseStat_line tricky []).1 (by rw [Stat.Released]; decide)
  exact hline

end Forcola.Native.ProcStat
