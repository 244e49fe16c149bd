import Atcap.Base.Text

/-!
# Decoding bytes to text

Library `Base`. `bytes.decode(encoding, "surrogatepass")` for the encodings of JSON texts, and
the detection of the encoding from the first bytes that `json.loads` makes. Decoding is
undefined where Python raises `UnicodeDecodeError`.
-/

namespace Atcap.Base

/-- The code point of a number, if it is one. -/
def codePoint? (n : Nat) : Option CodePoint := if h : n < 0x110000 then some ⟨n, h⟩ else none

/-- The code point of a number below the bound. -/
theorem codePoint?_val (c : CodePoint) : codePoint? c.val = some c := by
  unfold codePoint?
  rw [dif_pos c.isLt]

/-! ### UTF-8 -/

/-- A continuation byte of UTF-8. -/
def isContinuation (b : UInt8) : Bool := decide (0x80 ≤ b.toNat) && decide (b.toNat < 0xC0)

/-- UTF-8 with surrogates passed through: no overlong form, and nothing above `0x10FFFF`. -/
def decodeUtf8 : Bytes → Option Text
  | [] => some []
  | a :: rest =>
    if a.toNat < 0x80 then do
      let c ← codePoint? a.toNat
      let t ← decodeUtf8 rest
      return c :: t
    else
      match rest with
      | [] => none
      | b :: rest =>
        if isContinuation b = false then none
        else if 0xC2 ≤ a.toNat ∧ a.toNat < 0xE0 then do
          let c ← codePoint? ((a.toNat - 0xC0) * 64 + (b.toNat - 0x80))
          let t ← decodeUtf8 rest
          return c :: t
        else
          match rest with
          | [] => none
          | d :: rest =>
            if isContinuation d = false then none
            else if 0xE0 ≤ a.toNat ∧ a.toNat < 0xF0 then
              let n := (a.toNat - 0xE0) * 4096 + (b.toNat - 0x80) * 64 + (d.toNat - 0x80)
              if n < 0x800 then none
              else do
                let c ← codePoint? n
                let t ← decodeUtf8 rest
                return c :: t
            else
              match rest with
              | [] => none
              | e :: rest =>
                let n := (a.toNat - 0xF0) * 262144 + (b.toNat - 0x80) * 4096 +
                  (d.toNat - 0x80) * 64 + (e.toNat - 0x80)
                if isContinuation e = false ∨ a.toNat < 0xF0 ∨ n < 0x10000 then none
                else do
                  let c ← codePoint? n
                  let t ← decodeUtf8 rest
                  return c :: t

private theorem toNat_ofNat {n : Nat} (h : n < 256) : (UInt8.ofNat n).toNat = n := by
  rw [UInt8.toNat_ofNat']
  exact Nat.mod_eq_of_lt h

private theorem isContinuation_ofNat (n : Nat) :
    isContinuation (UInt8.ofNat (0x80 + n % 64)) = true := by
  simp only [isContinuation, toNat_ofNat (show 0x80 + n % 64 < 256 by omega)]
  simp
  omega

/-- Decoding one encoded code point. -/
theorem decodeUtf8_codePoint (c : CodePoint) (rest : Bytes) :
    decodeUtf8 (utf8CodePoint c ++ rest) = (decodeUtf8 rest).map (c :: ·) := by
  have hc := c.isLt
  have hmap : ∀ n, n = c.val → (do
      let c ← codePoint? n
      let t ← decodeUtf8 rest
      return c :: t) = (decodeUtf8 rest).map (c :: ·) := by
    rintro n rfl
    rw [codePoint?_val]
    cases decodeUtf8 rest with
    | none => rfl
    | some t => rfl
  unfold utf8CodePoint
  split
  · next h1 =>
    rw [List.singleton_append, decodeUtf8.eq_def]
    simp only [toNat_ofNat (show c.val < 256 by omega)]
    rw [if_pos h1]
    exact hmap _ rfl
  · next h1 =>
    split
    · next h2 =>
      simp only [List.cons_append, List.nil_append]
      rw [decodeUtf8.eq_def]
      simp only [toNat_ofNat (show 0xC0 + c.val / 64 < 256 by omega),
        toNat_ofNat (show 0x80 + c.val % 64 < 256 by omega), isContinuation_ofNat]
      rw [if_neg (by omega), if_neg (by simp), if_pos (by omega)]
      exact hmap _ (by omega)
    · next h2 =>
      split
      · next h3 =>
        simp only [List.cons_append, List.nil_append]
        rw [decodeUtf8.eq_def]
        simp only [toNat_ofNat (show 0xE0 + c.val / 4096 < 256 by omega),
          toNat_ofNat (show 0x80 + c.val / 64 % 64 < 256 by omega),
          toNat_ofNat (show 0x80 + c.val % 64 < 256 by omega), isContinuation_ofNat]
        rw [if_neg (by omega), if_neg (by simp), if_neg (by omega), if_neg (by simp),
          if_pos (by omega), if_neg (by omega)]
        exact hmap _ (by omega)
      · next h3 =>
        simp only [List.cons_append, List.nil_append]
        rw [decodeUtf8.eq_def]
        simp only [toNat_ofNat (show 0xF0 + c.val / 262144 < 256 by omega),
          toNat_ofNat (show 0x80 + c.val / 4096 % 64 < 256 by omega),
          toNat_ofNat (show 0x80 + c.val / 64 % 64 < 256 by omega),
          toNat_ofNat (show 0x80 + c.val % 64 < 256 by omega), isContinuation_ofNat]
        rw [if_neg (by omega), if_neg (by simp), if_neg (by omega), if_neg (by simp),
          if_neg (by omega), if_neg (by simp; omega)]
        exact hmap _ (by omega)

/-- Decoding undoes encoding. -/
theorem decodeUtf8_utf8 (t : Text) : decodeUtf8 (utf8 t) = some t := by
  induction t with
  | nil => rfl
  | cons c rest ih =>
    rw [utf8, List.flatMap_cons, decodeUtf8_codePoint]
    change (decodeUtf8 (utf8 rest)).map _ = _
    rw [ih]
    rfl

/-- Distinct texts have distinct encodings. -/
theorem utf8_injective : Function.Injective utf8 := by
  intro a b h
  have hd := decodeUtf8_utf8 a
  rw [h, decodeUtf8_utf8] at hd
  exact (Option.some.inj hd).symm

/-! ### UTF-16 and UTF-32 -/

/-- The code units of UTF-16; an odd byte at the end is an error. -/
def units16 (big : Bool) : Bytes → Option (List Nat)
  | [] => some []
  | [_] => none
  | a :: b :: rest => (units16 big rest).map
      ((if big then a.toNat * 256 + b.toNat else b.toNat * 256 + a.toNat) :: ·)

/-- The code points of UTF-16 code units; a surrogate without its partner is passed through. -/
def joinUnits : List Nat → Option Text
  | [] => some []
  | [u] => (codePoint? u).map ([·])
  | u :: v :: rest =>
    if 0xD800 ≤ u ∧ u < 0xDC00 ∧ 0xDC00 ≤ v ∧ v < 0xE000 then do
      let c ← codePoint? (0x10000 + (u - 0xD800) * 0x400 + (v - 0xDC00))
      let t ← joinUnits rest
      return c :: t
    else do
      let c ← codePoint? u
      let t ← joinUnits (v :: rest)
      return c :: t

/-- UTF-16 in one byte order. -/
def decodeUtf16 (big : Bool) (b : Bytes) : Option Text := (units16 big b).bind joinUnits

/-- UTF-32 in one byte order. -/
def decodeUtf32 (big : Bool) : Bytes → Option Text
  | [] => some []
  | a :: b :: c :: d :: rest => do
    let p ← codePoint? (if big then ((a.toNat * 256 + b.toNat) * 256 + c.toNat) * 256 + d.toNat
      else ((d.toNat * 256 + c.toNat) * 256 + b.toNat) * 256 + a.toNat)
    let t ← decodeUtf32 big rest
    return p :: t
  | _ => none

/-! ### Detection -/

/-- `json.loads` on bytes: `detect_encoding`, then `bytes.decode(encoding, "surrogatepass")`. -/
def decodeJson (b : Bytes) : Option Text :=
  if [0x00, 0x00, 0xFE, 0xFF] <+: b then decodeUtf32 true (b.drop 4)
  else if [0xFF, 0xFE, 0x00, 0x00] <+: b then decodeUtf32 false (b.drop 4)
  else if [0xFE, 0xFF] <+: b then decodeUtf16 true (b.drop 2)
  else if [0xFF, 0xFE] <+: b then decodeUtf16 false (b.drop 2)
  else if [0xEF, 0xBB, 0xBF] <+: b then decodeUtf8 (b.drop 3)
  else
    match b with
    | [p, q] =>
      if p = 0 then decodeUtf16 true b
      else if q = 0 then decodeUtf16 false b
      else decodeUtf8 b
    | p :: q :: r :: s :: _ =>
      if p = 0 then (if q ≠ 0 then decodeUtf16 true b else decodeUtf32 true b)
      else if q = 0 then (if r ≠ 0 ∨ s ≠ 0 then decodeUtf16 false b else decodeUtf32 false b)
      else decodeUtf8 b
    | _ => decodeUtf8 b

/-- A text that starts with two ASCII characters is decoded as UTF-8. -/
theorem decodeJson_utf8 {p q : UInt8} {rest : Bytes} (hp : 0 < p.toNat) (hp' : p.toNat < 0x80)
    (hq : 0 < q.toNat) : decodeJson (p :: q :: rest) = decodeUtf8 (p :: q :: rest) := by
  have hpne : ∀ n : UInt8, 0x80 ≤ n.toNat ∨ n.toNat = 0 → n ≠ p := by
    rintro n hn rfl
    omega
  have hp0 : p ≠ 0 := (hpne 0 (.inr rfl)).symm
  have hq0 : q ≠ 0 := by
    rintro rfl
    exact absurd hq (by decide)
  have hno : ∀ (n : UInt8) (l : Bytes), 0x80 ≤ n.toNat ∨ n.toNat = 0 →
      ¬ (n :: l) <+: p :: q :: rest := by
    intro n l hn hpre
    exact hpne n hn (List.cons_prefix_cons.mp hpre).1
  unfold decodeJson
  rw [if_neg (hno _ _ (by decide)), if_neg (hno _ _ (by decide)), if_neg (hno _ _ (by decide)),
    if_neg (hno _ _ (by decide)), if_neg (hno _ _ (by decide))]
  match rest with
  | [] => simp only [hp0, hq0, ↓reduceIte]
  | [r] => rfl
  | r :: s :: _ => simp only [hp0, hq0, ↓reduceIte]

end Atcap.Base
