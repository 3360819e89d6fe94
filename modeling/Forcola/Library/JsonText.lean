import Mathlib.Data.List.DropRight
import Mathlib.Data.List.Forall2
import Mathlib.Data.Int.Notation
import Mathlib.Tactic.Common

/-! JSON texts: a reader that builds values of any kind, and a compact writer. -/

namespace Forcola.Library.JsonText

/-- A number with a fraction or an exponent: its digits times ten to the `scale`. -/
structure Decimal where
  text : List Char
  negative : Bool
  digits : ℕ
  scale : ℤ

/-- What the parts of a text become. A number may be out of range. -/
structure Builder (J : Type) where
  null : J
  bool : Bool → J
  int : ℤ → J
  float : Decimal → Option J
  string : List Char → J
  array : List J → J
  object : List (List Char × J) → J

abbrev Reader (A : Type) := List Char → Option (A × List Char)

def isSpace (c : Char) : Bool :=
  c == ' ' || c == '\t' || c == '\n' || c == '\r'

def skip (cs : List Char) : List Char :=
  cs.dropWhile isSpace

def hexValue (c : Char) : Option ℕ :=
  if 48 ≤ c.toNat ∧ c.toNat < 58 then some (c.toNat - 48)
  else if 97 ≤ c.toNat ∧ c.toNat < 103 then some (c.toNat - 87)
  else if 65 ≤ c.toNat ∧ c.toNat < 71 then some (c.toNat - 55)
  else none

def hex4 : Reader ℕ
  | a :: b :: c :: d :: rest =>
    match hexValue a, hexValue b, hexValue c, hexValue d with
    | some a, some b, some c, some d => some (a * 4096 + b * 256 + c * 16 + d, rest)
    | _, _, _, _ => none
  | _ => none

def escapes : List (Char × Char) :=
  [('"', '"'), ('\\', '\\'), ('/', '/'), ('b', '\x08'), ('f', '\x0c'), ('n', '\n'), ('r', '\r'),
    ('t', '\t')]

def lowSurrogate (high : ℕ) : Reader Char
  | '\\' :: 'u' :: rest =>
    match hex4 rest with
    | some (low, rest) =>
      if 0xdc00 ≤ low ∧ low < 0xe000 then
        some (Char.ofNat (0x10000 + (high - 0xd800) * 0x400 + (low - 0xdc00)), rest)
      else none
    | none => none
  | _ => none

def escape : Reader Char
  | [] => none
  | c :: rest =>
    if c = 'u' then
      match hex4 rest with
      | some (unit, rest) =>
        if 0xd800 ≤ unit ∧ unit < 0xdc00 then lowSurrogate unit rest
        else if 0xdc00 ≤ unit ∧ unit < 0xe000 then none
        else some (Char.ofNat unit, rest)
      | none => none
    else (escapes.lookup c).map fun d => (d, rest)

def stringBody : ℕ → Reader (List Char)
  | 0, _ => none
  | _ + 1, [] => none
  | n + 1, c :: cs =>
    if c = '"' then some ([], cs)
    else if c = '\\' then
      match escape cs with
      | some (d, rest) => (stringBody n rest).map fun r => (d :: r.1, r.2)
      | none => none
    else if c.toNat < 0x20 then none
    else (stringBody n cs).map fun r => (c :: r.1, r.2)

def numeral : Reader (List Char)
  | cs =>
    let digits := cs.takeWhile Char.isDigit
    if digits = [] then none else some (digits, cs.drop digits.length)

def whole : Reader (List Char)
  | '0' :: rest => some (['0'], rest)
  | cs => numeral cs

def fraction : Reader (List Char)
  | '.' :: rest => numeral rest
  | rest => some ([], rest)

def sign : List Char → Bool × List Char
  | '-' :: rest => (true, rest)
  | '+' :: rest => (false, rest)
  | rest => (false, rest)

def signed (negative : Bool) (n : ℕ) : ℤ :=
  if negative then -(n : ℤ) else n

def natural (digits : List Char) : ℕ :=
  Nat.ofDigitChars 10 digits 0

def exponent : Reader (Option ℤ)
  | c :: rest =>
    if c = 'e' ∨ c = 'E' then
      (numeral (sign rest).2).map fun r => (some (signed (sign rest).1 (natural r.1)), r.2)
    else some (none, c :: rest)
  | [] => some (none, [])

variable {J : Type} (B : Builder J)

def unsigned (negative : Bool) (text : List Char) : Reader J := fun cs =>
  match whole cs with
  | none => none
  | some (digits, rest) =>
    match fraction rest with
    | none => none
    | some (decimals, rest) =>
      match exponent rest with
      | none => none
      | some (scale, rest) =>
        if decimals = [] ∧ scale = none then some (B.int (signed negative (natural digits)), rest)
        else
          (B.float ⟨text.take (text.length - rest.length), negative, natural (digits ++ decimals),
            scale.getD 0 - decimals.length⟩).map (·, rest)

def number : Reader J
  | '-' :: rest => unsigned B true ('-' :: rest) rest
  | cs => unsigned B false cs cs

def valueStep (string : Reader (List Char)) (items : Reader (List J))
    (members : Reader (List (List Char × J))) : Reader J := fun cs =>
  match skip cs with
  | '"' :: rest => (string rest).map fun r => (B.string r.1, r.2)
  | '[' :: rest =>
    match skip rest with
    | ']' :: rest => some (B.array [], rest)
    | rest => (items rest).map fun r => (B.array r.1, r.2)
  | '{' :: rest =>
    match skip rest with
    | '}' :: rest => some (B.object [], rest)
    | rest => (members rest).map fun r => (B.object r.1, r.2)
  | 't' :: 'r' :: 'u' :: 'e' :: rest => some (B.bool true, rest)
  | 'f' :: 'a' :: 'l' :: 's' :: 'e' :: rest => some (B.bool false, rest)
  | 'n' :: 'u' :: 'l' :: 'l' :: rest => some (B.null, rest)
  | cs => number B cs

def moreStep {A : Type} (closing : Char) (more : Reader (List A)) (first : A) :
    Reader (List A) := fun cs =>
  match skip cs with
  | [] => none
  | c :: rest =>
    if c = closing then some ([first], rest)
    else if c = ',' then (more rest).map fun r => (first :: r.1, r.2)
    else none

def itemsStep (value : Reader J) (items : Reader (List J)) : Reader (List J) := fun cs =>
  match value cs with
  | some (j, rest) => moreStep ']' items j rest
  | none => none

def membersStep (string : Reader (List Char)) (value : Reader J)
    (members : Reader (List (List Char × J))) : Reader (List (List Char × J)) := fun cs =>
  match skip cs with
  | '"' :: rest =>
    match string rest with
    | some (key, rest) =>
      match skip rest with
      | ':' :: rest =>
        match value rest with
        | some (j, rest) => moreStep '}' members (key, j) rest
        | none => none
      | _ => none
    | none => none
  | _ => none

mutual

def value : ℕ → Reader J
  | 0 => fun _ => none
  | n + 1 => valueStep B (stringBody n) (items n) (members n)

def items : ℕ → Reader (List J)
  | 0 => fun _ => none
  | n + 1 => itemsStep (value n) (items n)

def members : ℕ → Reader (List (List Char × J))
  | 0 => fun _ => none
  | n + 1 => membersStep (stringBody n) (value n) (members n)

end

def decode (cs : List Char) : Option J :=
  match value B (2 * cs.length) cs with
  | some (j, rest) => if skip rest = [] then some j else none
  | none => none

inductive Built (B : Builder J) (string : Reader (List Char)) (items : Reader (List J))
    (members : Reader (List (List Char × J))) (cs : List Char) : J → List Char → Prop
  | string {body s tail} : skip cs = '"' :: body → string body = some (s, tail) →
      Built B string items members cs (B.string s) tail
  | nil {body tail} : skip cs = '[' :: body → skip body = ']' :: tail →
      Built B string items members cs (B.array []) tail
  | array {body l tail} : skip cs = '[' :: body → (∀ more, skip body ≠ ']' :: more) →
      items (skip body) = some (l, tail) → Built B string items members cs (B.array l) tail
  | empty {body tail} : skip cs = '{' :: body → skip body = '}' :: tail →
      Built B string items members cs (B.object []) tail
  | object {body l tail} : skip cs = '{' :: body → (∀ more, skip body ≠ '}' :: more) →
      members (skip body) = some (l, tail) → Built B string items members cs (B.object l) tail
  | true {tail} : skip cs = 't' :: 'r' :: 'u' :: 'e' :: tail →
      Built B string items members cs (B.bool true) tail
  | false {tail} : skip cs = 'f' :: 'a' :: 'l' :: 's' :: 'e' :: tail →
      Built B string items members cs (B.bool false) tail
  | null {tail} : skip cs = 'n' :: 'u' :: 'l' :: 'l' :: tail →
      Built B string items members cs B.null tail
  | number {j tail} : number B (skip cs) = some (j, tail) →
      Built B string items members cs j tail

variable {B} {A : Type} {cs rest : List Char} {j : J} {strings : Reader (List Char)}
  {items' : Reader (List J)} {members' : Reader (List (List Char × J))}

lemma skip_length (cs : List Char) : (skip cs).length ≤ cs.length :=
  (List.dropWhile_sublist isSpace).length_le

lemma hex4_shorter {n : ℕ} (h : hex4 cs = some (n, rest)) : rest.length < cs.length := by
  rw [hex4.eq_def] at h
  split at h
  · split at h
    · obtain ⟨-, rfl⟩ := Prod.mk.inj (Option.some.inj h)
      simp only [List.length_cons]
      omega
    · cases h
  · cases h

lemma lowSurrogate_shorter {high : ℕ} {d : Char} (h : lowSurrogate high cs = some (d, rest)) :
    rest.length < cs.length := by
  rw [lowSurrogate.eq_def] at h
  split at h
  · split at h
    · next hx =>
      have hlt := hex4_shorter hx
      split at h
      · obtain ⟨-, rfl⟩ := Prod.mk.inj (Option.some.inj h)
        simp only [List.length_cons]
        omega
      · cases h
    · cases h
  · cases h

lemma escape_shorter {d : Char} (h : escape cs = some (d, rest)) : rest.length < cs.length := by
  rw [escape.eq_def] at h
  split at h
  · cases h
  · split at h
    · split at h
      · next hx =>
        have hlt := hex4_shorter hx
        rw [List.length_cons]
        split at h
        · have := lowSurrogate_shorter h
          omega
        · split at h
          · cases h
          · cases h
            omega
      · cases h
    · obtain ⟨_, _, heq⟩ := Option.map_eq_some_iff.mp h
      cases heq
      exact Nat.lt_succ_self _

lemma numeral_shorter {ds : List Char} (h : numeral cs = some (ds, rest)) :
    rest.length < cs.length := by
  rw [numeral] at h
  split at h
  · cases h
  · next hne =>
    cases h
    have hpos := List.length_pos_iff.mpr hne
    have hle := (List.takeWhile_sublist (l := cs) Char.isDigit).length_le
    rw [List.length_drop]
    omega

lemma whole_shorter {ds : List Char} (h : whole cs = some (ds, rest)) :
    rest.length < cs.length := by
  rw [whole.eq_def] at h
  split at h
  · cases h
    exact Nat.lt_succ_self _
  · exact numeral_shorter h

lemma fraction_length {ds : List Char} (h : fraction cs = some (ds, rest)) :
    rest.length ≤ cs.length := by
  rw [fraction.eq_def] at h
  split at h
  · have := numeral_shorter h
    rw [List.length_cons]
    omega
  · cases h
    exact Nat.le_refl _

lemma sign_length (cs : List Char) : (sign cs).2.length ≤ cs.length := by
  rw [sign.eq_def]
  split
  · exact Nat.le_succ _
  · exact Nat.le_succ _
  · exact Nat.le_refl _

lemma exponent_length {e : Option ℤ} (h : exponent cs = some (e, rest)) :
    rest.length ≤ cs.length := by
  rw [exponent.eq_def] at h
  split at h
  · next c tail =>
    split at h
    · obtain ⟨⟨ds, after⟩, hr, heq⟩ := Option.map_eq_some_iff.mp h
      obtain ⟨-, rfl⟩ := Prod.mk.inj heq
      have hlt := numeral_shorter hr
      have hle := sign_length tail
      rw [List.length_cons]
      exact Nat.le_of_lt (Nat.lt_succ_of_lt (Nat.lt_of_lt_of_le hlt hle))
    · cases h
      exact Nat.le_refl _
  · cases h
    exact Nat.le_refl _

lemma unsigned_shorter {negative : Bool} {text : List Char}
    (h : unsigned B negative text cs = some (j, rest)) : rest.length < cs.length := by
  rw [unsigned] at h
  split at h
  · cases h
  · next hw =>
    have h1 := whole_shorter hw
    split at h
    · cases h
    · next hf =>
      have h2 := fraction_length hf
      split at h
      · cases h
      · next he =>
        have h3 := exponent_length he
        split at h
        · cases h
          omega
        · obtain ⟨_, _, heq⟩ := Option.map_eq_some_iff.mp h
          cases heq
          omega

lemma number_shorter (h : number B cs = some (j, rest)) : rest.length < cs.length := by
  rw [number.eq_def] at h
  split at h
  · exact Nat.lt_trans (unsigned_shorter h) (Nat.lt_succ_self _)
  · exact unsigned_shorter h

lemma number_cons {c : Char} (hd : c.isDigit = false) (hm : c ≠ '-') (cs : List Char) :
    number B (c :: cs) = none := by
  have hz : c ≠ '0' := by
    rintro rfl
    exact absurd hd (by decide)
  have hw : whole (c :: cs) = none := by
    rw [whole.eq_def]
    split
    · next heq =>
      cases heq
      exact absurd rfl hz
    · simp [numeral, hd]
  rw [number.eq_def]
  split
  · next heq =>
    cases heq
    exact absurd rfl hm
  · rw [unsigned, hw]

lemma valueStep_built (h : valueStep B strings items' members' cs = some (j, rest)) :
    Built B strings items' members' cs j rest := by
  rw [valueStep] at h
  split at h
  · next heq =>
    obtain ⟨r, hr, hj⟩ := Option.map_eq_some_iff.mp h
    cases hj
    exact .string heq hr
  · next heq =>
    split at h
    · next heq' =>
      cases h
      exact .nil heq heq'
    · next hne =>
      obtain ⟨r, hr, hj⟩ := Option.map_eq_some_iff.mp h
      cases hj
      exact .array heq (fun tail ht => hne tail ht) hr
  · next heq =>
    split at h
    · next heq' =>
      cases h
      exact .empty heq heq'
    · next hne =>
      obtain ⟨r, hr, hj⟩ := Option.map_eq_some_iff.mp h
      cases hj
      exact .object heq (fun tail ht => hne tail ht) hr
  · next heq =>
    cases h
    exact .true heq
  · next heq =>
    cases h
    exact .false heq
  · next heq =>
    cases h
    exact .null heq
  · exact .number h

lemma Built.valueStep (h : Built B strings items' members' cs j rest) :
    valueStep B strings items' members' cs = some (j, rest) := by
  rw [JsonText.valueStep]
  cases h with
  | string heq hr => simp only [heq, hr, Option.map_some]
  | nil heq heq' => simp only [heq, heq']
  | array heq hne hr =>
    simp only [heq, hr, Option.map_some]
  | empty heq heq' => simp only [heq, heq']
  | object heq hne hr =>
    simp only [heq, hr, Option.map_some]
  | true heq | false heq | null heq => simp only [heq]
  | number hn =>
    split
    case h_7 => exact hn
    all_goals
      next heq =>
      rw [heq, number_cons (by decide) (by decide)] at hn
      cases hn

def Fuelled (f : ℕ → Reader A) (n : ℕ) : Prop :=
  ∀ cs a rest, f n cs = some (a, rest) → rest.length < cs.length ∧
    ∀ m, 2 * (cs.length - rest.length) ≤ m → f m cs = some (a, rest)

lemma stringBody_fuelled (n : ℕ) : Fuelled stringBody n := by
  induction n with
  | zero =>
    intro cs a rest h
    cases h
  | succ n ih =>
    intro cs a rest h
    cases cs with
    | nil => cases h
    | cons c cs =>
      have hpos : ∀ m, 2 * ((c :: cs).length - rest.length) ≤ m → rest.length ≤ cs.length →
          ∃ m', m = m' + 1 ∧ 2 * (cs.length - rest.length) ≤ m' := by
        intro m hm hle
        rw [List.length_cons] at hm
        exact ⟨m - 1, by omega, by omega⟩
      rw [stringBody] at h
      rw [List.length_cons] at hpos ⊢
      by_cases hquote : c = '"'
      · rw [if_pos hquote] at h
        cases h
        refine ⟨Nat.lt_succ_self _, fun m hm => ?_⟩
        obtain ⟨m', rfl, -⟩ := hpos m hm (Nat.le_refl _)
        rw [stringBody, if_pos hquote]
      · rw [if_neg hquote] at h
        by_cases hslash : c = '\\'
        · rw [if_pos hslash] at h
          split at h
          · next d tail he =>
            have hshort := escape_shorter he
            obtain ⟨r, hr, heq⟩ := Option.map_eq_some_iff.mp h
            cases heq
            obtain ⟨hlt, hmore⟩ := ih _ _ _ hr
            refine ⟨by omega, fun m hm => ?_⟩
            obtain ⟨m', rfl, hm'⟩ := hpos m hm (by omega)
            rw [stringBody, if_neg hquote, if_pos hslash, he]
            dsimp only
            rw [hmore m' (by omega), Option.map_some]
          · cases h
        · rw [if_neg hslash] at h
          split at h
          · cases h
          · next hctl =>
            obtain ⟨r, hr, heq⟩ := Option.map_eq_some_iff.mp h
            cases heq
            obtain ⟨hlt, hmore⟩ := ih _ _ _ hr
            refine ⟨by omega, fun m hm => ?_⟩
            obtain ⟨m', rfl, hm'⟩ := hpos m hm (by omega)
            rw [stringBody, if_neg hquote, if_neg hslash, if_neg hctl, hmore m' hm',
              Option.map_some]

lemma moreStep_end {closing : Char} {more : Reader (List A)} {first : A}
    (h : skip cs = closing :: rest) :
    moreStep closing more first cs = some ([first], rest) := by
  rw [moreStep, h]
  exact if_pos rfl

lemma moreStep_comma {closing : Char} {more : Reader (List A)} {first : A} {body : List Char}
    {l : List A} (hc : closing ≠ ',') (h : skip cs = ',' :: body)
    (hmore : more body = some (l, rest)) :
    moreStep closing more first cs = some (first :: l, rest) := by
  rw [moreStep, h]
  dsimp only
  rw [if_neg (Ne.symm hc), if_pos rfl, hmore, Option.map_some]

lemma moreStep_cases {closing : Char} {more : Reader (List A)} {first : A} {l : List A}
    (h : moreStep closing more first cs = some (l, rest)) :
    (skip cs = closing :: rest ∧ l = [first]) ∨
      ∃ body l', skip cs = ',' :: body ∧ more body = some (l', rest) ∧ l = first :: l' := by
  rw [moreStep] at h
  split at h
  · cases h
  · next c body heq =>
    split at h
    · next hc =>
      cases h
      exact .inl ⟨hc ▸ heq, rfl⟩
    · split at h
      · next hc =>
        obtain ⟨r, hr, hj⟩ := Option.map_eq_some_iff.mp h
        cases hj
        exact .inr ⟨body, r.1, hc ▸ heq, hr, rfl⟩
      · cases h

lemma skip_shorter {c : Char} {body : List Char} (h : skip cs = c :: body) :
    body.length < cs.length := by
  have := skip_length cs
  rw [h, List.length_cons] at this
  exact this

lemma moreStep_fuelled {closing : Char} {more : ℕ → Reader (List A)} {first : A} {l : List A}
    {n : ℕ} (hc : closing ≠ ',') (hf : Fuelled more n)
    (h : moreStep closing (more n) first cs = some (l, rest)) :
    rest.length < cs.length ∧
      ∀ m, 2 * (cs.length - rest.length) ≤ m + 2 →
        moreStep closing (more m) first cs = some (l, rest) := by
  rcases moreStep_cases h with ⟨hs, rfl⟩ | ⟨body, l', hs, hmore, rfl⟩
  · exact ⟨skip_shorter hs, fun m _ => moreStep_end hs⟩
  · have hlt := skip_shorter hs
    obtain ⟨hlt', hfuel⟩ := hf _ _ _ hmore
    refine ⟨by omega, fun m hm => moreStep_comma hc hs (hfuel m (by omega))⟩

variable (B) in
lemma value_fuelled (n : ℕ) : Fuelled (value B) n ∧ Fuelled (items B) n ∧
    Fuelled (members B) n := by
  induction n with
  | zero => exact ⟨fun _ _ _ h => by simp [value] at h, fun _ _ _ h => by simp [items] at h,
      fun _ _ _ h => by simp [members] at h⟩
  | succ n ih =>
    obtain ⟨hvalue, hitems, hmembers⟩ := ih
    have hstring := stringBody_fuelled n
    refine ⟨?_, ?_, ?_⟩
    · intro cs j rest h
      rw [value] at h
      have hsucc : ∀ {body c}, skip cs = c :: body → rest.length ≤ body.length →
          ∀ m, 2 * (cs.length - rest.length) ≤ m →
            ∃ m', m = m' + 1 ∧ 2 * (body.length - rest.length) ≤ m' := by
        intro body c hs hle m hm
        have := skip_shorter hs
        exact ⟨m - 1, by omega, by omega⟩
      cases valueStep_built h with
      | string hs hr =>
        have hlt := skip_shorter hs
        obtain ⟨hlt', hfuel⟩ := hstring _ _ _ hr
        refine ⟨by omega, fun m hm => ?_⟩
        obtain ⟨m', rfl, hm'⟩ := hsucc hs (Nat.le_of_lt hlt') m hm
        exact Built.valueStep (.string hs (hfuel m' hm'))
      | @nil body _ hs hs' =>
        have hlt := skip_shorter hs
        have hlt' := skip_shorter hs'
        refine ⟨by omega, fun m hm => ?_⟩
        obtain ⟨m', rfl, -⟩ := hsucc hs (Nat.le_of_lt hlt') m hm
        exact Built.valueStep (.nil hs hs')
      | @array body _ _ hs hne hr =>
        have hlt := skip_shorter hs
        have hle := skip_length body
        obtain ⟨hlt', hfuel⟩ := hitems _ _ _ hr
        refine ⟨by omega, fun m hm => ?_⟩
        obtain ⟨m', rfl, hm'⟩ := hsucc hs (by omega) m hm
        exact Built.valueStep (.array hs hne (hfuel m' (by omega)))
      | @empty body _ hs hs' =>
        have hlt := skip_shorter hs
        have hlt' := skip_shorter hs'
        refine ⟨by omega, fun m hm => ?_⟩
        obtain ⟨m', rfl, -⟩ := hsucc hs (Nat.le_of_lt hlt') m hm
        exact Built.valueStep (.empty hs hs')
      | @object body _ _ hs hne hr =>
        have hlt := skip_shorter hs
        have hle := skip_length body
        obtain ⟨hlt', hfuel⟩ := hmembers _ _ _ hr
        refine ⟨by omega, fun m hm => ?_⟩
        obtain ⟨m', rfl, hm'⟩ := hsucc hs (by omega) m hm
        exact Built.valueStep (.object hs hne (hfuel m' (by omega)))
      | true hs =>
        have hlt := skip_shorter hs
        simp only [List.length_cons] at hlt
        refine ⟨by omega, fun m hm => ?_⟩
        obtain ⟨m', rfl, -⟩ := hsucc hs (by simp only [List.length_cons]; omega) m hm
        exact Built.valueStep (.true hs)
      | false hs =>
        have hlt := skip_shorter hs
        simp only [List.length_cons] at hlt
        refine ⟨by omega, fun m hm => ?_⟩
        obtain ⟨m', rfl, -⟩ := hsucc hs (by simp only [List.length_cons]; omega) m hm
        exact Built.valueStep (.false hs)
      | null hs =>
        have hlt := skip_shorter hs
        simp only [List.length_cons] at hlt
        refine ⟨by omega, fun m hm => ?_⟩
        obtain ⟨m', rfl, -⟩ := hsucc hs (by simp only [List.length_cons]; omega) m hm
        exact Built.valueStep (.null hs)
      | number hn =>
        have hlt := number_shorter hn
        have hle := skip_length cs
        refine ⟨by omega, fun m hm => ?_⟩
        obtain ⟨m', rfl⟩ : ∃ m', m = m' + 1 := ⟨m - 1, by omega⟩
        exact Built.valueStep (.number hn)
    · intro cs l rest h
      rw [items, itemsStep] at h
      split at h
      · next j tail hv =>
        obtain ⟨hlt, hfuel⟩ := hvalue _ _ _ hv
        obtain ⟨hlt', hfuel'⟩ := moreStep_fuelled (by decide) hitems h
        refine ⟨by omega, fun m hm => ?_⟩
        obtain ⟨m', rfl⟩ : ∃ m', m = m' + 1 := ⟨m - 1, by omega⟩
        rw [items, itemsStep, hfuel m' (by omega)]
        exact hfuel' m' (by omega)
      · cases h
    · intro cs l rest h
      rw [members, membersStep] at h
      split at h
      · next body hs =>
        have hlt := skip_shorter hs
        split at h
        · next key tail hk =>
          obtain ⟨hlt1, hfuel1⟩ := hstring _ _ _ hk
          split at h
          · next tail' hs' =>
            have hlt2 := skip_shorter hs'
            split at h
            · next j more hv =>
              obtain ⟨hlt3, hfuel3⟩ := hvalue _ _ _ hv
              obtain ⟨hlt4, hfuel4⟩ := moreStep_fuelled (by decide) hmembers h
              refine ⟨by omega, fun m hm => ?_⟩
              obtain ⟨m', rfl⟩ : ∃ m', m = m' + 1 := ⟨m - 1, by omega⟩
              simp only [members, membersStep, hs, hfuel1 m' (by omega), hs',
                hfuel3 m' (by omega)]
              exact hfuel4 m' (by omega)
            · cases h
          · cases h
        · cases h
      · cases h

theorem decode_eq_some : decode B cs = some j ↔
    ∃ fuel rest, value B fuel cs = some (j, rest) ∧ skip rest = [] := by
  constructor
  · intro h
    rw [decode] at h
    split at h
    · next j' rest hv =>
      split at h
      · next hs =>
        cases h
        exact ⟨_, rest, hv, hs⟩
      · cases h
    · cases h
  · rintro ⟨fuel, rest, hv, hs⟩
    have henough := ((value_fuelled B fuel).1 _ _ _ hv).2 (2 * cs.length) (by omega)
    rw [decode, henough]
    exact if_pos hs

/-- The letters a writer uses for hexadecimal digits. -/
inductive Letters
  | lower
  | upper

variable (w : Letters)

def hexDigit (n : ℕ) : Char :=
  if n < 10 then Char.ofNat (48 + n)
  else
    match w with
    | .lower => Char.ofNat (87 + n)
    | .upper => Char.ofNat (55 + n)

def shortEscapes : List (Char × Char) :=
  [('"', '"'), ('\\', '\\'), ('\x08', 'b'), ('\x0c', 'f'), ('\n', 'n'), ('\r', 'r'), ('\t', 't')]

def escapeChar (c : Char) : List Char :=
  match shortEscapes.lookup c with
  | some e => ['\\', e]
  | none =>
    if c.toNat < 0x20 then
      ['\\', 'u', '0', '0', hexDigit w (c.toNat / 16), hexDigit w (c.toNat % 16)]
    else [c]

def quoted (s : List Char) : List Char :=
  '"' :: (s.flatMap (escapeChar w) ++ ['"'])

def joined : List (List Char) → List Char
  | [] => []
  | [text] => text
  | text :: texts => text ++ ',' :: joined texts

def arrayText (texts : List (List Char)) : List Char :=
  '[' :: (joined texts ++ [']'])

def fieldText (key text : List Char) : List Char :=
  quoted w key ++ ':' :: text

def objectText (fields : List (List Char × List Char)) : List Char :=
  '{' :: (joined (fields.map fun f => fieldText w f.1 f.2) ++ ['}'])

variable {w}

def Reads (B : Builder J) (text : List Char) (j : J) : Prop :=
  ∀ rest, ∃ fuel, value B fuel (text ++ rest) = some (j, rest)

def Terminated : List Char → Prop
  | [] => True
  | c :: _ => c = ',' ∨ c = ']' ∨ c = '}'

lemma Terminated.cons {c : Char} (h : c = ',' ∨ c = ']' ∨ c = '}') (rest : List Char) :
    Terminated (c :: rest) := h

def ReadsItem (B : Builder J) (text : List Char) (j : J) : Prop :=
  ∀ rest, Terminated rest → ∃ fuel, value B fuel (text ++ rest) = some (j, rest)

lemma Reads.item {text : List Char} (h : Reads B text j) : ReadsItem B text j :=
  fun rest _ => h rest

lemma ReadsItem.decode {text : List Char} (h : ReadsItem B text j) :
    JsonText.decode B text = some j := by
  obtain ⟨fuel, hv⟩ := h [] trivial
  rw [List.append_nil] at hv
  exact decode_eq_some.mpr ⟨fuel, [], hv, rfl⟩

lemma Reads.decode {text : List Char} (h : Reads B text j) : decode B text = some j :=
  h.item.decode

lemma Fuelled.grow {f : ℕ → Reader A} {n m : ℕ} {a : A} (hf : ∀ n, Fuelled f n)
    (h : f n cs = some (a, rest)) (hm : 2 * cs.length ≤ m) : f m cs = some (a, rest) := by
  obtain ⟨-, hfuel⟩ := hf n _ _ _ h
  exact hfuel m (by omega)

lemma skip_cons {c : Char} (h : isSpace c = false) (cs : List Char) :
    skip (c :: cs) = c :: cs :=
  List.dropWhile_cons_of_neg (by simp [h])

lemma Reads.of_built {text : List Char}
    (h : ∀ rest, ∃ n, Built B (stringBody n) (items B n) (members B n) (text ++ rest) j rest) :
    Reads B text j := by
  intro rest
  obtain ⟨n, hb⟩ := h rest
  exact ⟨n + 1, hb.valueStep⟩

lemma Reads.null : Reads B ['n', 'u', 'l', 'l'] B.null :=
  .of_built fun _ => ⟨0, .null (skip_cons (by decide) _)⟩

lemma Reads.bool (b : Bool) :
    Reads B (if b then ['t', 'r', 'u', 'e'] else ['f', 'a', 'l', 's', 'e']) (B.bool b) := by
  cases b with
  | true => exact .of_built fun _ => ⟨0, .true (skip_cons (by decide) _)⟩
  | false => exact .of_built fun _ => ⟨0, .false (skip_cons (by decide) _)⟩

lemma hexValue_hexDigit (w : Letters) : ∀ n < 16, hexValue (hexDigit w n) = some n := by
  cases w <;> decide

lemma shortEscapes_back : ∀ p ∈ shortEscapes, p.2 ≠ 'u' ∧ escapes.lookup p.2 = some p.1 := by
  decide

lemma mem_of_lookup {β : Type} {a : Char} {b : β} {l : List (Char × β)}
    (h : l.lookup a = some b) : (a, b) ∈ l := by
  induction l with
  | nil => cases h
  | cons p l ih =>
    rw [List.lookup_cons] at h
    split at h
    · next heq =>
      cases h
      rw [beq_iff_eq.mp heq]
      exact List.mem_cons_self
    · exact List.mem_cons_of_mem _ (ih h)

lemma escape_lookup {c e : Char} (h : shortEscapes.lookup c = some e) (cs : List Char) :
    escape (e :: cs) = some (c, cs) := by
  obtain ⟨hu, hback⟩ := shortEscapes_back _ (mem_of_lookup h)
  rw [escape, if_neg hu, hback, Option.map_some]

lemma escape_control {c : Char} (h : c.toNat < 0x20) (cs : List Char) :
    escape ('u' :: '0' :: '0' :: hexDigit w (c.toNat / 16) :: hexDigit w (c.toNat % 16) :: cs) =
      some (c, cs) := by
  have hzero : hexValue '0' = some 0 := by decide
  have hhigh := hexValue_hexDigit w (c.toNat / 16) (by omega)
  have hlow := hexValue_hexDigit w (c.toNat % 16) (by omega)
  have hunit : 0 * 4096 + 0 * 256 + c.toNat / 16 * 16 + c.toNat % 16 = c.toNat := by omega
  rw [escape, if_pos rfl]
  simp only [hex4, hzero, hhigh, hlow, hunit]
  rw [if_neg (by omega), if_neg (by omega), Char.ofNat_toNat]

lemma stringBody_escape (n : ℕ) (c : Char) (cs : List Char) :
    stringBody (n + 1) (escapeChar w c ++ cs) =
      (stringBody n cs).map fun r => (c :: r.1, r.2) := by
  rw [escapeChar]
  split
  · next e he =>
    rw [List.cons_append, List.cons_append, List.nil_append, stringBody, if_neg (by decide),
      if_pos rfl, escape_lookup he]
  · next hnone =>
    split
    · next hctl =>
      simp only [List.cons_append, List.nil_append]
      rw [stringBody, if_neg (by decide), if_pos rfl, escape_control hctl]
    · next hctl =>
      have hquote : c ≠ '"' := by
        rintro rfl
        cases hnone
      have hslash : c ≠ '\\' := by
        rintro rfl
        cases hnone
      rw [List.cons_append, List.nil_append, stringBody, if_neg hquote, if_neg hslash,
        if_neg hctl]

lemma stringBody_quoted (s rest : List Char) :
    stringBody (s.length + 1) (s.flatMap (escapeChar w) ++ '"' :: rest) = some (s, rest) := by
  induction s with
  | nil => rfl
  | cons c s ih =>
    rw [List.flatMap_cons, List.append_assoc, List.length_cons, stringBody_escape, ih,
      Option.map_some]

lemma quoted_append (s rest : List Char) :
    quoted w s ++ rest = '"' :: (s.flatMap (escapeChar w) ++ '"' :: rest) := by
  rw [quoted, List.cons_append, List.append_assoc]
  rfl

lemma Reads.string (s : List Char) : Reads B (quoted w s) (B.string s) := by
  apply Reads.of_built
  intro rest
  rw [quoted_append]
  exact ⟨s.length + 1, .string (skip_cons (by decide) _) (stringBody_quoted s rest)⟩

lemma value_closing {c : Char} {body : List Char} (hs : skip cs = c :: body)
    (hc : c = ']' ∨ c = '}') (n : ℕ) : value B n cs = none := by
  cases h : value B n cs with
  | none => rfl
  | some r =>
    obtain ⟨j, rest⟩ := r
    cases n with
    | zero => simp [value] at h
    | succ n =>
      rw [value] at h
      exfalso
      cases valueStep_built h with
      | string hs' _ | nil hs' _ | array hs' _ _ | empty hs' _ | object hs' _ _ | true hs'
      | false hs' | null hs' =>
        rw [hs] at hs'
        rcases hc with rfl | rfl <;> simp at hs'
      | number hn =>
        rw [hs] at hn
        rcases hc with rfl | rfl <;>
          rw [number_cons (by decide) (by decide)] at hn <;> cases hn

lemma ReadsItem.not_closing {text more : List Char} (h : ReadsItem B text j)
    (hm : Terminated more) (body : List Char) (c : Char) (hc : c = ']' ∨ c = '}') :
    skip (text ++ more) ≠ c :: body := by
  intro hs
  obtain ⟨fuel, hv⟩ := h more hm
  rw [value_closing hs hc] at hv
  cases hv

lemma skip_skip (cs : List Char) : skip (skip cs) = skip cs :=
  List.dropWhile_idempotent isSpace cs

lemma value_skip (n : ℕ) (cs : List Char) : value B n (skip cs) = value B n cs := by
  cases n with
  | zero => rfl
  | succ n => rw [value, valueStep, skip_skip, ← valueStep]

lemma items_skip (n : ℕ) (cs : List Char) : items B n (skip cs) = items B n cs := by
  cases n with
  | zero => rfl
  | succ n => rw [items, itemsStep, value_skip, ← itemsStep]

lemma members_skip (n : ℕ) (cs : List Char) : members B n (skip cs) = members B n cs := by
  cases n with
  | zero => rfl
  | succ n => rw [members, membersStep, skip_skip, ← membersStep]

lemma joined_cons {text : List Char} {texts : List (List Char)} (hne : texts ≠ [])
    (rest : List Char) : joined (text :: texts) ++ rest = text ++ ',' :: (joined texts ++ rest) := by
  rw [joined, List.append_assoc, List.cons_append]
  exact hne

lemma items_comma {text more : List Char} {l : List J} (hread : ReadsItem B text j)
    (hl : ∃ fuel, items B fuel more = some (l, rest)) :
    ∃ fuel, items B fuel (text ++ ',' :: more) = some (j :: l, rest) := by
  obtain ⟨fuel, hl⟩ := hl
  obtain ⟨fuel', hv⟩ := hread (',' :: more) (.cons (.inl rfl) _)
  refine ⟨2 * (text ++ ',' :: more).length + 1, ?_⟩
  have hmore : 2 * more.length ≤ 2 * (text ++ ',' :: more).length := by
    rw [List.length_append, List.length_cons]
    omega
  rw [items, itemsStep, Fuelled.grow (fun n => (value_fuelled B n).1) hv (Nat.le_refl _)]
  exact moreStep_comma (by decide) (skip_cons (by decide) _)
    (Fuelled.grow (fun n => (value_fuelled B n).2.1) hl hmore)

lemma items_joined {text : List Char} {texts : List (List Char)} {js : List J}
    (hread : ReadsItem B text j) (h : List.Forall₂ (ReadsItem B) texts js) (rest : List Char) :
    ∃ fuel, items B fuel (joined (text :: texts) ++ ']' :: rest) = some (j :: js, rest) := by
  induction h generalizing text j with
  | nil =>
    obtain ⟨fuel, hv⟩ := hread (']' :: rest) (.cons (.inr (.inl rfl)) _)
    refine ⟨fuel + 1, ?_⟩
    rw [items, itemsStep, joined, hv]
    exact moreStep_end (skip_cons (by decide) _)
  | cons hread' _ ih =>
    rw [joined_cons (List.cons_ne_nil _ _)]
    exact items_comma hread (ih hread')

lemma ReadsItem.array {texts : List (List Char)} {js : List J}
    (h : List.Forall₂ (ReadsItem B) texts js) : Reads B (arrayText texts) (B.array js) := by
  apply Reads.of_built
  intro rest
  have hopen : skip (arrayText texts ++ rest) = '[' :: (joined texts ++ ']' :: rest) := by
    rw [arrayText, List.cons_append, List.append_assoc]
    exact skip_cons (by decide) _
  cases h with
  | nil => exact ⟨0, .nil hopen (skip_cons (by decide) _)⟩
  | @cons text j texts js hread hrest =>
    obtain ⟨fuel, hl⟩ := items_joined hread hrest rest
    rw [← items_skip] at hl
    refine ⟨fuel, .array hopen ?_ hl⟩
    intro more hmore
    obtain ⟨body, hend, hbody⟩ : ∃ body, Terminated body ∧
        joined (text :: texts) ++ ']' :: rest = text ++ body := by
      cases texts with
      | nil => exact ⟨_, .cons (.inr (.inl rfl)) rest, rfl⟩
      | cons text' texts => exact ⟨_, .cons (.inl rfl) _, joined_cons (List.cons_ne_nil _ _) _⟩
    rw [hbody] at hmore
    exact hread.not_closing hend more ']' (.inl rfl) hmore

lemma Reads.array {texts : List (List Char)} {js : List J}
    (h : List.Forall₂ (Reads B) texts js) : Reads B (arrayText texts) (B.array js) :=
  ReadsItem.array (h.imp fun _ _ h => h.item)

lemma members_field {key text tail : List Char} {n : ℕ} {l : List (List Char × J)}
    (hread : ReadsItem B text j) (hend : Terminated tail) (hn : 2 * (fieldText w key text ++ tail).length ≤ n)
    (hmore : moreStep '}' (members B n) (key, j) tail = some (l, rest)) :
    members B (n + 1) (fieldText w key text ++ tail) = some (l, rest) := by
  obtain ⟨fuel, hv⟩ := hread tail hend
  have happ : fieldText w key text ++ tail =
      '"' :: (key.flatMap (escapeChar w) ++ '"' :: ':' :: (text ++ tail)) := by
    rw [fieldText, List.append_assoc, quoted_append, List.cons_append]
  rw [happ] at hn ⊢
  have hkey := Fuelled.grow stringBody_fuelled
    (stringBody_quoted (w := w) key (':' :: (text ++ tail))) (m := n) (by
      rw [List.length_cons] at hn
      omega)
  have hvalue := Fuelled.grow (fun n => (value_fuelled B n).1) hv (m := n) (by
    simp only [List.length_cons, List.length_append] at hn ⊢
    omega)
  rw [members, membersStep, skip_cons (by decide)]
  simp only [hkey]
  rw [skip_cons (by decide)]
  simp only [hvalue]
  exact hmore

lemma members_comma {key text more : List Char} {l : List (List Char × J)}
    (hread : ReadsItem B text j) (hl : ∃ fuel, members B fuel more = some (l, rest)) :
    ∃ fuel, members B fuel (fieldText w key text ++ ',' :: more) = some ((key, j) :: l, rest) := by
  obtain ⟨fuel, hl⟩ := hl
  refine ⟨_, members_field hread (.cons (.inl rfl) _) (Nat.le_refl _) ?_⟩
  have hmore : 2 * more.length ≤ 2 * (fieldText w key text ++ ',' :: more).length := by
    rw [List.length_append, List.length_cons]
    omega
  exact moreStep_comma (by decide) (skip_cons (by decide) _)
    (Fuelled.grow (fun n => (value_fuelled B n).2.2) hl hmore)

abbrev ReadFields (B : Builder J) : List (List Char × List Char) → List (List Char × J) → Prop :=
  List.Forall₂ fun f r => r.1 = f.1 ∧ Reads B f.2 r.2

abbrev ReadMembers (B : Builder J) : List (List Char × List Char) → List (List Char × J) → Prop :=
  List.Forall₂ fun f r => r.1 = f.1 ∧ ReadsItem B f.2 r.2

lemma members_joined {field : List Char × List Char} {fields : List (List Char × List Char)}
    {l : List (List Char × J)} (hread : ReadsItem B field.2 j) (h : ReadMembers B fields l)
    (rest : List Char) :
    ∃ fuel, members B fuel (joined ((field :: fields).map fun f => fieldText w f.1 f.2) ++
      '}' :: rest) = some ((field.1, j) :: l, rest) := by
  induction h generalizing field j with
  | nil =>
    exact ⟨_, members_field hread (.cons (.inr (.inr rfl)) _) (Nat.le_refl _)
      (moreStep_end (skip_cons (by decide) _))⟩
  | @cons field' r _ _ hread' _ ih =>
    obtain ⟨hkey, hread'⟩ := hread'
    obtain ⟨key, j'⟩ := r
    obtain rfl : key = field'.1 := hkey
    rw [List.map_cons, joined_cons (by simp)]
    exact members_comma hread (ih hread')

lemma ReadsItem.object {fields : List (List Char × List Char)} {l : List (List Char × J)}
    (h : ReadMembers B fields l) : Reads B (objectText w fields) (B.object l) := by
  apply Reads.of_built
  intro rest
  have hopen : skip (objectText w fields ++ rest) =
      '{' :: (joined (fields.map fun f => fieldText w f.1 f.2) ++ '}' :: rest) := by
    rw [objectText, List.cons_append, List.append_assoc]
    exact skip_cons (by decide) _
  cases h with
  | nil => exact ⟨0, .empty hopen (skip_cons (by decide) _)⟩
  | @cons field r fields l hread hrest =>
    obtain ⟨hkey, hread⟩ := hread
    obtain ⟨key, j⟩ := r
    obtain rfl : key = field.1 := hkey
    obtain ⟨fuel, hl⟩ := members_joined hread hrest rest
    obtain ⟨body, hbody⟩ : ∃ body, joined ((field :: fields).map fun f => fieldText w f.1 f.2) ++
        '}' :: rest = '"' :: body := by
      rw [List.map_cons]
      cases fields with
      | nil => exact ⟨_, rfl⟩
      | cons field' fields =>
        rw [joined_cons (by simp)]
        exact ⟨_, rfl⟩
    rw [← members_skip] at hl
    refine ⟨fuel, .object hopen ?_ hl⟩
    intro more hmore
    rw [hbody, skip_cons (by decide)] at hmore
    simp at hmore

lemma Reads.object {fields : List (List Char × List Char)} {l : List (List Char × J)}
    (h : ReadFields B fields l) : Reads B (objectText w fields) (B.object l) :=
  ReadsItem.object (h.imp fun _ _ h => ⟨h.1, h.2.item⟩)

def intText (n : ℤ) : List Char :=
  if n < 0 then '-' :: Nat.toDigits 10 n.natAbs else Nat.toDigits 10 n.natAbs

lemma toDigits_head {n : ℕ} (hn : 0 < n) : ∃ c cs, Nat.toDigits 10 n = c :: cs ∧ c ≠ '0' := by
  induction n using Nat.strongRecOn with
  | ind n ih =>
    rw [Nat.toDigits_eq_if (by decide)]
    split
    · next hlt =>
      have hdigit : ∀ m < 10, 0 < m → Nat.digitChar m ≠ '0' := by decide
      exact ⟨_, [], rfl, hdigit n hlt hn⟩
    · next hge =>
      obtain ⟨c, cs, heq, hc⟩ := ih (n / 10) (by omega) (by omega)
      exact ⟨c, cs ++ [Nat.digitChar (n % 10)], by rw [heq, List.cons_append], hc⟩

lemma takeWhile_toDigits {n : ℕ} (hend : Terminated rest) :
    (Nat.toDigits 10 n ++ rest).takeWhile Char.isDigit = Nat.toDigits 10 n := by
  have hdigits : ∀ c ∈ Nat.toDigits 10 n, c.isDigit = true :=
    fun c hc => Nat.isDigit_of_mem_toDigits (by decide) (by decide) hc
  rw [List.takeWhile_append_of_pos hdigits]
  cases rest with
  | nil => exact List.append_nil _
  | cons c rest =>
    have hc : c.isDigit = false := by
      rcases hend with rfl | rfl | rfl <;> decide
    rw [List.takeWhile_cons_of_neg (by simp [hc]), List.append_nil]

lemma whole_toDigits (n : ℕ) (hend : Terminated rest) :
    whole (Nat.toDigits 10 n ++ rest) = some (Nat.toDigits 10 n, rest) := by
  rcases Nat.eq_zero_or_pos n with rfl | hn
  · rfl
  · obtain ⟨c, cs, heq, hc⟩ := toDigits_head hn
    rw [whole.eq_def]
    split
    · next hzero =>
      rw [heq] at hzero
      cases hzero
      exact absurd rfl hc
    · rw [numeral, takeWhile_toDigits hend, if_neg Nat.toDigits_ne_nil, List.drop_left]

lemma unsigned_toDigits (negative : Bool) (text : List Char) (n : ℕ) (hend : Terminated rest) :
    unsigned B negative text (Nat.toDigits 10 n ++ rest) =
      some (B.int (signed negative n), rest) := by
  have hfraction : fraction rest = some ([], rest) := by
    cases rest with
    | nil => rfl
    | cons c rest => rcases hend with rfl | rfl | rfl <;> rfl
  have hexponent : exponent rest = some (none, rest) := by
    cases rest with
    | nil => rfl
    | cons c rest => rcases hend with rfl | rfl | rfl <;> rfl
  rw [unsigned, whole_toDigits n hend]
  dsimp only
  rw [hfraction]
  dsimp only
  rw [hexponent]
  dsimp only
  rw [if_pos ⟨rfl, rfl⟩, natural, Nat.ofDigitChars_ten_toDigits]

lemma ReadsItem.int (n : ℤ) : ReadsItem B (intText n) (B.int n) := by
  intro rest hend
  refine ⟨1, Built.valueStep (.number ?_)⟩
  rw [intText]
  split
  · next hn =>
    have hvalue : signed true n.natAbs = n := by
      rw [signed, if_pos rfl]
      omega
    rw [List.cons_append, skip_cons (by decide), number, unsigned_toDigits true _ _ hend, hvalue]
  · next hn =>
    have hvalue : signed false n.natAbs = n := by
      rw [signed, if_neg (by decide)]
      omega
    obtain ⟨c, cs, heq⟩ := List.exists_cons_of_ne_nil (Nat.toDigits_ne_nil (b := 10) (n := n.natAbs))
    have hdigit : c.isDigit = true :=
      Nat.isDigit_of_mem_toDigits (b := 10) (n := n.natAbs) (by decide) (by decide)
        (heq ▸ List.mem_cons_self)
    have hspace : isSpace c = false := by
      refine Bool.eq_false_iff.mpr fun hs => ?_
      simp only [isSpace, Bool.or_eq_true, beq_iff_eq] at hs
      rcases hs with ((rfl | rfl) | rfl) | rfl <;> exact absurd hdigit (by decide)
    have hskip : skip (Nat.toDigits 10 n.natAbs ++ rest) = Nat.toDigits 10 n.natAbs ++ rest := by
      rw [heq, List.cons_append, skip_cons hspace]
    rw [hskip, number.eq_def]
    split
    · next hminus =>
      rw [heq, List.cons_append] at hminus
      cases hminus
      exact absurd hdigit (by decide)
    · rw [unsigned_toDigits false _ _ hend, hvalue]

def Printable (text : List Char) : Prop :=
  ∀ c ∈ text, 0x20 ≤ c.toNat

lemma Printable.append {text more : List Char} (h : Printable text) (h' : Printable more) :
    Printable (text ++ more) := by
  intro c hc
  exact (List.mem_append.mp hc).elim (h c) (h' c)

lemma Printable.cons {c : Char} {text : List Char} (hc : 0x20 ≤ c.toNat) (h : Printable text) :
    Printable (c :: text) :=
  List.forall_mem_cons.mpr ⟨hc, h⟩

lemma printable_nil : Printable [] := by
  intro c hc
  cases hc

lemma printable_hexDigit (w : Letters) : ∀ n < 16, 0x20 ≤ (hexDigit w n).toNat := by
  cases w <;> decide

lemma printable_shortEscapes : ∀ p ∈ shortEscapes, 0x20 ≤ p.2.toNat := by
  decide

lemma printable_escapeChar (c : Char) : Printable (escapeChar w c) := by
  rw [escapeChar]
  split
  · next e he =>
    exact .cons (by decide) (.cons (printable_shortEscapes _ (mem_of_lookup he)) printable_nil)
  · split
    · next hctl =>
      have hhigh := printable_hexDigit w (c.toNat / 16) (by omega)
      have hlow := printable_hexDigit w (c.toNat % 16) (by omega)
      exact .cons (by decide) (.cons (by decide) (.cons (by decide) (.cons (by decide)
        (.cons hhigh (.cons hlow printable_nil)))))
    · next hctl => exact .cons (Nat.le_of_not_lt hctl) printable_nil

lemma printable_quoted (s : List Char) : Printable (quoted w s) := by
  refine .cons (by decide) (.append ?_ (.cons (by decide) printable_nil))
  intro c hc
  obtain ⟨d, -, hd⟩ := List.mem_flatMap.mp hc
  exact printable_escapeChar d c hd

lemma printable_joined {texts : List (List Char)} (h : ∀ t ∈ texts, Printable t) :
    Printable (joined texts) := by
  induction texts with
  | nil => exact printable_nil
  | cons text texts ih =>
    obtain ⟨htext, htexts⟩ := List.forall_mem_cons.mp h
    cases texts with
    | nil => exact htext
    | cons text' texts => exact htext.append (.cons (by decide) (ih htexts))

lemma printable_arrayText {texts : List (List Char)} (h : ∀ t ∈ texts, Printable t) :
    Printable (arrayText texts) :=
  .cons (by decide) ((printable_joined h).append (.cons (by decide) printable_nil))

lemma printable_objectText {fields : List (List Char × List Char)}
    (h : ∀ f ∈ fields, Printable f.2) : Printable (objectText w fields) := by
  refine .cons (by decide) ((printable_joined ?_).append (.cons (by decide) printable_nil))
  intro t ht
  obtain ⟨f, hf, rfl⟩ := List.mem_map.mp ht
  exact (printable_quoted f.1).append (.cons (by decide) (h f hf))

end Forcola.Library.JsonText
