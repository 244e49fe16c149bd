import Mathlib.Data.Nat.Digits.Lemmas
import Mathlib.Data.List.Basic

/-!
# Python text

Library `Base`. A Python `str` is a sequence of code points, lone surrogates
included; only a text without surrogates has a UTF-8 encoding. Hexadecimal and
decimal spellings follow `bytes.hex`, `bytes.fromhex` and `str(int)`.
-/

namespace Atcap.Base

/-- A Unicode code point, surrogates included. -/
abbrev CodePoint := Fin 0x110000

/-- A Python `str`. -/
abbrev Text := List CodePoint

/-- Equality of texts is lawful. -/
instance lawfulBEq_text : LawfulBEq Text := inferInstance

/-- The order of texts is total. -/
instance transOrd_text : Std.TransOrd Text := inferInstance

/-- A Python `bytes` value. -/
abbrev Bytes := List UInt8

/-- The code point of a character. -/
def codePoint (c : Char) : CodePoint := ⟨c.toNat, by
  have h := c.valid
  simp only [UInt32.isValidChar, Nat.isValidChar] at h
  change c.val.toNat < 0x110000
  omega⟩

/-- The text a string literal spells. -/
def text (s : String) : Text := s.toList.map codePoint

/-- Distinct literals spell distinct texts. -/
theorem text_injective : Function.Injective text := by
  intro a b h
  have hc : Function.Injective codePoint := by
    intro c d hcd
    exact Char.toNat_inj.mp (Fin.mk.inj_iff.mp hcd)
  exact String.toList_inj.mp (List.map_injective_iff.mpr hc h)

/-! ### Surrogates and UTF-8 -/

/-- Code points reserved for UTF-16 surrogates. -/
def isSurrogate (c : CodePoint) : Bool := decide (0xD800 ≤ c.val) && decide (c.val ≤ 0xDFFF)

/-- Whether UTF-8 encodes the text: no lone surrogate occurs in it. -/
def Text.encodable (t : Text) : Bool := t.all (fun c ↦ !isSurrogate c)

/-- A character is never a surrogate. -/
theorem isSurrogate_codePoint (c : Char) : isSurrogate (codePoint c) = false := by
  have h := c.valid
  simp only [UInt32.isValidChar, Nat.isValidChar] at h
  have hv : (codePoint c).val = c.val.toNat := rfl
  simp only [isSurrogate, hv, Bool.and_eq_false_iff, decide_eq_false_iff_not]
  omega

/-- Every literal has a UTF-8 encoding. -/
@[simp] theorem encodable_text (s : String) : Text.encodable (text s) = true := by
  simp [Text.encodable, text, isSurrogate_codePoint]

/-- Encodability of a concatenation. -/
@[simp] theorem encodable_append (a b : Text) :
    Text.encodable (a ++ b) = (Text.encodable a && Text.encodable b) := by
  simp [Text.encodable]

/-- The UTF-8 bytes of one code point. -/
def utf8CodePoint (c : CodePoint) : Bytes :=
  if c.val < 0x80 then [UInt8.ofNat c.val]
  else if c.val < 0x800 then
    [UInt8.ofNat (0xC0 + c.val / 64), UInt8.ofNat (0x80 + c.val % 64)]
  else if c.val < 0x10000 then
    [UInt8.ofNat (0xE0 + c.val / 4096), UInt8.ofNat (0x80 + c.val / 64 % 64),
      UInt8.ofNat (0x80 + c.val % 64)]
  else
    [UInt8.ofNat (0xF0 + c.val / 262144), UInt8.ofNat (0x80 + c.val / 4096 % 64),
      UInt8.ofNat (0x80 + c.val / 64 % 64), UInt8.ofNat (0x80 + c.val % 64)]

/-- UTF-8 bytes of a text, surrogates passed through. -/
def utf8 (t : Text) : Bytes := t.flatMap utf8CodePoint

/-- `str.encode("utf-8")`, undefined on a text with a surrogate. -/
def Text.encode (t : Text) : Option Bytes := if t.encodable then some (utf8 t) else none

/-! ### Hexadecimal -/

/-- Lower-case hexadecimal digit. -/
def hexDigit (n : Nat) : CodePoint :=
  if n % 16 < 10 then ⟨48 + n % 16, by omega⟩ else ⟨87 + n % 16, by omega⟩

/-- `bytes.hex()`: two lower-case digits for each byte. -/
def hex (b : Bytes) : Text := b.flatMap (fun x ↦ [hexDigit (x.toNat / 16), hexDigit x.toNat])

/-- The character class `[0-9a-f]`. -/
def isLowerHex (c : CodePoint) : Bool :=
  (decide (48 ≤ c.val) && decide (c.val ≤ 57)) || (decide (97 ≤ c.val) && decide (c.val ≤ 102))

/-- Full match of `^[0-9a-f]{n}$`. -/
def Text.isLowerHexOf (n : Nat) (t : Text) : Bool := decide (t.length = n) && t.all isLowerHex

/-- A hexadecimal digit is in the class `[0-9a-f]`. -/
theorem isLowerHex_hexDigit (n : Nat) : isLowerHex (hexDigit n) = true := by
  have hn : n % 16 < 16 := Nat.mod_lt _ (by decide)
  unfold hexDigit isLowerHex
  split
  · simp only [Bool.or_eq_true, Bool.and_eq_true, decide_eq_true_eq]; omega
  · simp only [Bool.or_eq_true, Bool.and_eq_true, decide_eq_true_eq]; omega

/-- A hexadecimal digit is not a surrogate. -/
theorem isSurrogate_of_isLowerHex {c : CodePoint} (h : isLowerHex c = true) :
    isSurrogate c = false := by
  simp only [isLowerHex, Bool.or_eq_true, Bool.and_eq_true, decide_eq_true_eq] at h
  simp only [isSurrogate, Bool.and_eq_false_iff, decide_eq_false_iff_not]
  omega

/-- `bytes.hex()` spells each byte with two digits. -/
@[simp] theorem length_hex (b : Bytes) : (hex b).length = 2 * b.length := by
  induction b with
  | nil => rfl
  | cons x xs ih =>
    simp only [hex, List.flatMap_cons, List.length_append, List.length_cons] at ih ⊢
    rw [ih]
    simp only [List.length_nil]
    omega

/-- `bytes.hex()` uses only the class `[0-9a-f]`. -/
theorem all_isLowerHex_hex (b : Bytes) : (hex b).all isLowerHex = true := by
  simp [hex, List.all_eq_true, isLowerHex_hexDigit]

/-- A text of hexadecimal digits has a UTF-8 encoding. -/
theorem encodable_of_all_isLowerHex {t : Text} (h : t.all isLowerHex = true) :
    Text.encodable t = true := by
  rw [Text.encodable, List.all_eq_true]
  intro c hc
  rw [isSurrogate_of_isLowerHex (List.all_eq_true.mp h c hc)]
  rfl

/-- A hexadecimal identifier has a UTF-8 encoding. -/
theorem encodable_of_isLowerHexOf {n : Nat} {t : Text} (h : t.isLowerHexOf n = true) :
    t.encodable = true := by
  rw [Text.isLowerHexOf, Bool.and_eq_true] at h
  exact encodable_of_all_isLowerHex h.2

/-- The hexadecimal spelling of bytes has two lower-case digits for each of them. -/
theorem isLowerHexOf_hex {b : Bytes} {n : Nat} (h : 2 * b.length = n) :
    (hex b).isLowerHexOf n = true := by
  rw [Text.isLowerHexOf, all_isLowerHex_hex, length_hex, h]
  simp

/-- Hexadecimal spellings have a UTF-8 encoding. -/
@[simp] theorem encodable_hex (b : Bytes) : Text.encodable (hex b) = true :=
  encodable_of_all_isLowerHex (all_isLowerHex_hex b)

private theorem hexDigit_inj {m n : Nat} (h : hexDigit m = hexDigit n) : m % 16 = n % 16 := by
  have hval := congrArg Fin.val h
  unfold hexDigit at hval
  split at hval <;> split at hval <;> simp only at hval <;> omega

/-- Distinct bytes have distinct hexadecimal spellings. -/
theorem hex_injective : Function.Injective hex := by
  intro a b h
  induction a generalizing b with
  | nil =>
    cases b with
    | nil => rfl
    | cons y ys => cases h
  | cons x xs ih =>
    cases b with
    | nil => cases h
    | cons y ys =>
      simp only [hex, List.flatMap_cons, List.cons_append, List.nil_append, List.cons.injEq] at h
      obtain ⟨hhigh, hlow, hrest⟩ := h
      have hx := x.toNat_lt
      have hy := y.toNat_lt
      have hdiv := hexDigit_inj hhigh
      have hmod := hexDigit_inj hlow
      have hbyte : x = y := UInt8.toNat.inj (by omega)
      rw [hbyte, ih hrest]

/-- The value of a hexadecimal digit of either case. -/
def hexValue? (c : CodePoint) : Option Nat :=
  if 48 ≤ c.val ∧ c.val ≤ 57 then some (c.val - 48)
  else if 97 ≤ c.val ∧ c.val ≤ 102 then some (c.val - 87)
  else if 65 ≤ c.val ∧ c.val ≤ 70 then some (c.val - 55)
  else none

/-- The value of a written digit. -/
theorem hexValue?_hexDigit (n : Nat) : hexValue? (hexDigit n) = some (n % 16) := by
  have hn : n % 16 < 16 := Nat.mod_lt _ (by decide)
  unfold hexDigit hexValue?
  split
  · next h =>
    rw [if_pos (by simp only; omega)]
    simp only [Option.some.injEq]
    omega
  · next h =>
    rw [if_neg (by simp only; omega), if_pos (by simp only; omega)]
    simp only [Option.some.injEq]
    omega

/-- ASCII white space, skipped by `bytes.fromhex` between two bytes. -/
def isAsciiSpace (c : CodePoint) : Bool :=
  decide (c.val = 32) || (decide (9 ≤ c.val) && decide (c.val ≤ 13))

/-- `bytes.fromhex`, undefined where Python raises `ValueError`. -/
def fromHex : Text → Option Bytes
  | [] => some []
  | [c] => if isAsciiSpace c then some [] else none
  | c :: d :: rest =>
    if isAsciiSpace c then fromHex (d :: rest) else do
      let hi ← hexValue? c
      let lo ← hexValue? d
      let tail ← fromHex rest
      return UInt8.ofNat (16 * hi + lo) :: tail

/-- `bytes.fromhex` undoes `bytes.hex`. -/
theorem fromHex_hex (b : Bytes) : fromHex (hex b) = some b := by
  induction b with
  | nil => rfl
  | cons x rest ih =>
    have hspace : isAsciiSpace (hexDigit (x.toNat / 16)) = false := by
      have hdigit := isLowerHex_hexDigit (x.toNat / 16)
      simp only [isLowerHex, Bool.or_eq_true, Bool.and_eq_true, decide_eq_true_eq] at hdigit
      simp only [isAsciiSpace, Bool.or_eq_false_iff, Bool.and_eq_false_iff,
        decide_eq_false_iff_not]
      omega
    have hcons : hex (x :: rest) = hexDigit (x.toNat / 16) :: hexDigit x.toNat :: hex rest := rfl
    have hx := x.toNat_lt
    have hvalue : 16 * (x.toNat / 16 % 16) + x.toNat % 16 = x.toNat := by omega
    rw [hcons, fromHex, hspace]
    simp only [Bool.false_eq_true, ↓reduceIte, hexValue?_hexDigit, ih, Option.bind_eq_bind,
      Option.bind_some, hvalue, UInt8.ofNat_toNat]
    rfl

/-! ### Decimal -/

/-- Decimal digit. -/
def decimalDigit (n : Nat) : CodePoint := ⟨48 + n % 10, by omega⟩

/-- Decimal spelling of a natural number, without leading zeros. -/
def decimalNat (n : Nat) : Text :=
  if n = 0 then [decimalDigit 0] else ((Nat.digits 10 n).map decimalDigit).reverse

/-- Decimal spelling of an integer. -/
def decimal (n : Int) : Text :=
  if n < 0 then codePoint '-' :: decimalNat n.natAbs else decimalNat n.natAbs

/-- The digits `str(int)` and `int(str)` convert at most; a longer number raises `ValueError`. -/
def maxStrDigits : Nat := 4300

/-- `str(n)`, undefined where Python raises `ValueError`. -/
def str? (n : Int) : Option Text :=
  if (decimalNat n.natAbs).length ≤ maxStrDigits then some (decimal n) else none

private theorem isSurrogate_decimalDigit (n : Nat) : isSurrogate (decimalDigit n) = false := by
  rw [isSurrogate, Bool.and_eq_false_iff, decide_eq_false_iff_not, decide_eq_false_iff_not]
  simp only [decimalDigit]
  omega

/-- The numbers of at most `k` digits are those below the power of ten. -/
theorem length_decimalNat_le_iff {n k : Nat} (hk : 1 ≤ k) :
    (decimalNat n).length ≤ k ↔ n < 10 ^ k := by
  unfold decimalNat
  split
  · next hn =>
    rw [hn]
    exact iff_of_true hk (Nat.pow_pos (by decide))
  · rw [List.length_reverse, List.length_map, Nat.digits_length_le_iff (by decide)]

/-- `str` spells the numbers of few digits, and no others. -/
theorem str?_eq (n : Int) :
    str? n = if n.natAbs < 10 ^ maxStrDigits then some (decimal n) else none := by
  unfold str?
  simp only [length_decimalNat_le_iff (k := maxStrDigits) (n := n.natAbs) (by decide)]

/-- `str` is undefined on a number of too many digits. -/
theorem str?_eq_none_iff {n : Int} : str? n = none ↔ 10 ^ maxStrDigits ≤ n.natAbs := by
  rw [str?_eq]
  split
  · next h => exact iff_of_false nofun (not_le.mpr h)
  · next h => exact iff_of_true rfl (not_lt.mp h)

/-- Decimal spellings have a UTF-8 encoding. -/
@[simp] theorem encodable_decimal (n : Int) : Text.encodable (decimal n) = true := by
  have hnat : ∀ n, Text.encodable (decimalNat n) = true := by
    intro n
    unfold decimalNat Text.encodable
    split
    · simp [isSurrogate_decimalDigit]
    · simp [isSurrogate_decimalDigit]
  unfold decimal
  split
  · change Text.encodable ([codePoint '-'] ++ decimalNat n.natAbs) = true
    rw [encodable_append, hnat]
    rfl
  · exact hnat _

end Atcap.Base
