import Atcap.Base.JsonParser

/-!
# Reading back what was written

Library `Base`. The parser undoes a writer that escapes only what JSON requires and spells
integers in decimal: `loads_write`.
-/

namespace Atcap.Base.Json

/-! ### String literals -/

private theorem hex4?_hexDigit {n : Nat} (h : n < 0x10000) :
    hex4? (hexDigit (n / 4096)) (hexDigit (n / 256)) (hexDigit (n / 16)) (hexDigit n) = some n := by
  simp only [hex4?, hexValue?_hexDigit, Option.bind_eq_bind, Option.bind_some, Option.pure_def,
    Option.some.injEq]
  omega

private theorem scanString_plain {c : CodePoint} {rest : Text} (hq : c.val ≠ 34) (hs : c.val ≠ 92)
    (hc : 0x20 ≤ c.val) :
    scanString 0 (c :: rest) = (scanString 0 rest).map fun r ↦ (c :: r.1, r.2) := by
  rw [scanString.eq_def]
  simp only
  rw [if_neg hq, if_neg (by omega), if_pos hs]

private theorem scanString_short {e c : CodePoint} {rest : Text} (h : unescape? e = some c) :
    scanString 0 (codePoint '\\' :: e :: rest) =
      (scanString 0 rest).map fun r ↦ (c :: r.1, r.2) := by
  have hval : (codePoint '\\').val = 92 := rfl
  rw [scanString.eq_def]
  simp only
  rw [if_neg (by omega), if_neg (by omega), if_neg (by omega)]
  simp only [h, scanString]

private theorem scanString_unit {c : CodePoint} {rest : Text} (h : c.val < 0xD800) :
    scanString 0 (unitEscape c.val ++ rest) =
      (scanString 0 rest).map fun r ↦ (c :: r.1, r.2) := by
  have hval : (codePoint '\\').val = 92 := rfl
  have hu : unescape? (codePoint 'u') = none := rfl
  have htext : unitEscape c.val ++ rest = codePoint '\\' :: codePoint 'u' ::
      hexDigit (c.val / 4096) :: hexDigit (c.val / 256) :: hexDigit (c.val / 16) ::
      hexDigit c.val :: rest := rfl
  rw [htext, scanString, if_neg (by omega), if_neg (by omega), if_neg (by omega)]
  simp only [hu]
  rw [if_neg (by decide)]
  simp only [hex4?_hexDigit (show c.val < 0x10000 by omega), Option.bind_eq_bind,
    Option.bind_some]
  rw [if_neg (by omega)]
  simp only [codePoint?_val, Option.bind_some, scanString]

/-- Scanning one escaped character. -/
theorem scanString_escape (c : CodePoint) (rest : Text) :
    scanString 0 (escape c ++ rest) = (scanString 0 rest).map fun r ↦ (c :: r.1, r.2) := by
  unfold escape
  cases he : shortEscape? c with
  | some e =>
    unfold shortEscape? at he
    split at he <;> cases he <;> next hc =>
      exact scanString_short (congrArg some (Fin.ext hc.symm))
  | none =>
    have hq : c.val ≠ 34 := by
      intro hc
      simp [shortEscape?, hc] at he
    have hs : c.val ≠ 92 := by
      intro hc
      simp [shortEscape?, hc] at he
    by_cases hc : c.val < 0x20
    · simp only [hc, ↓reduceIte]
      exact scanString_unit (by omega)
    · simp only [hc, ↓reduceIte]
      exact scanString_plain hq hs (by omega)

/-- A string literal is read back. -/
theorem scanString_quote (t rest : Text) :
    scanString 0 (t.flatMap escape ++ (text "\"" ++ rest)) = some (t, rest) := by
  induction t with
  | nil => rfl
  | cons c t ih =>
    rw [List.flatMap_cons, List.append_assoc, scanString_escape, ih]
    rfl

/-! ### Integers -/

private theorem isDigit_iff {c : CodePoint} : isDigit c = true ↔ 48 ≤ c.val ∧ c.val ≤ 57 := by
  rw [isDigit, Bool.and_eq_true, decide_eq_true_eq, decide_eq_true_eq]

private theorem isDigit_decimalDigit (n : Nat) : isDigit (decimalDigit n) = true := by
  rw [isDigit_iff]
  simp only [decimalDigit]
  omega

/-- A decimal spelling has only digits. -/
theorem decimalNat_isDigit (n : Nat) : ∀ c ∈ decimalNat n, isDigit c = true := by
  intro c hc
  unfold decimalNat at hc
  split at hc
  · rw [List.mem_singleton.mp hc]
    exact isDigit_decimalDigit 0
  · obtain ⟨d, -, rfl⟩ := List.mem_map.mp (List.mem_reverse.mp hc)
    exact isDigit_decimalDigit d

/-- A decimal spelling has the value it spells. -/
theorem digitsValue_decimalNat (n : Nat) : digitsValue (decimalNat n) = n := by
  unfold decimalNat
  split
  · next h =>
    rw [h]
    rfl
  · have hstep : ∀ ds : List Nat, (∀ d ∈ ds, d < 10) →
        digitsValue (ds.map decimalDigit).reverse = Nat.ofDigits 10 ds := by
      intro ds hds
      rw [digitsValue, List.foldl_reverse, Nat.ofDigits_eq_foldr]
      induction ds with
      | nil => rfl
      | cons d ds ih =>
        rw [List.map_cons, List.foldr_cons, List.foldr_cons,
          ih fun e he ↦ hds e (List.mem_cons_of_mem d he)]
        have hd := hds d List.mem_cons_self
        simp only [decimalDigit, Nat.cast_id]
        omega
    rw [hstep _ fun d hd ↦ Nat.digits_lt_base (by decide) hd]
    exact Nat.ofDigits_digits 10 n

private theorem decimalNat_pos {n : Nat} (h : n ≠ 0) :
    ∃ c rest, decimalNat n = c :: rest ∧ c.val ≠ 48 ∧ isDigit c = true := by
  have hne : Nat.digits 10 n ≠ [] := Nat.digits_ne_nil_iff_ne_zero.mpr h
  have hlast := Nat.getLast_digit_ne_zero 10 h
  have hlt := Nat.digits_lt_base (b := 10) (by decide) (List.getLast_mem hne)
  refine ⟨decimalDigit ((Nat.digits 10 n).getLast hne),
    (((Nat.digits 10 n).dropLast).map decimalDigit).reverse, ?_, ?_, isDigit_decimalDigit _⟩
  · rw [decimalNat, if_neg h]
    conv_lhs => rw [← List.dropLast_append_getLast hne]
    rw [List.map_append, List.reverse_append]
    rfl
  · simp only [decimalDigit]
    omega

/-- What can follow a value inside a document. -/
def Ends (rest : Text) : Prop := ∀ c ∈ rest.head?, c.val = 44 ∨ c.val = 93 ∨ c.val = 125

private theorem spanDigits_append {ds rest : Text} (hds : ∀ c ∈ ds, isDigit c = true)
    (hr : Ends rest) : spanDigits (ds ++ rest) = (ds, rest) := by
  have hrest : rest.takeWhile isDigit = [] ∧ rest.dropWhile isDigit = rest := by
    cases rest with
    | nil => exact ⟨rfl, rfl⟩
    | cons c tail =>
      have hc : isDigit c = false := by
        have hval := hr c rfl
        simp only [isDigit, Bool.and_eq_false_iff, decide_eq_false_iff_not]
        omega
      simp [hc]
  rw [spanDigits, List.takeWhile_append_of_pos hds, List.dropWhile_append_of_pos hds, hrest.1,
    hrest.2, List.append_nil]

private theorem scanInteger_decimalNat {n : Nat} {rest : Text} (hr : Ends rest) :
    scanInteger (decimalNat n ++ rest) = some (decimalNat n, rest) := by
  by_cases h : n = 0
  · subst h
    rfl
  · obtain ⟨c, tail, heq, hc, hd⟩ := decimalNat_pos h
    have hspan := spanDigits_append (decimalNat_isDigit n) hr
    rw [heq, List.cons_append] at hspan
    rw [heq, List.cons_append, scanInteger, if_neg hc, if_pos hd, hspan]

private theorem scanPart_ends {marker : CodePoint → Bool} {sign : Bool} {rest : Text}
    (hm : ∀ c, marker c = true → c.val ≠ 44 ∧ c.val ≠ 93 ∧ c.val ≠ 125) (hr : Ends rest) :
    scanPart marker sign rest = ([], rest) := by
  cases rest with
  | nil => rfl
  | cons c tail =>
    have hc : marker c = false := by
      cases h : marker c with
      | false => rfl
      | true =>
        have hval := hr c rfl
        have hne := hm c h
        omega
    rw [scanPart.eq_def]
    simp only [hc]
    rfl

private theorem spanMinus_decimalNat (n : Nat) (rest : Text) :
    spanMinus (decimalNat n ++ rest) = ([], decimalNat n ++ rest) := by
  by_cases h : n = 0
  · subst h
    rfl
  · obtain ⟨c, tail, heq, -, hd⟩ := decimalNat_pos h
    have hc : c.val ≠ 45 := by
      have := isDigit_iff.mp hd
      omega
    rw [heq, List.cons_append, spanMinus]
    simp only [hc, ↓reduceIte]

/-- An integer is read back. -/
theorem scanNumber_decimal {maxDigits : Nat} {float : Text → BitVec 64} {n : Int} {rest : Text}
    (hr : Ends rest) (hl : (decimalNat n.natAbs).length ≤ maxDigits) :
    scanNumber maxDigits float (decimal n ++ rest) = some (.int n, rest) := by
  have hfraction : scanPart (fun c ↦ decide (c.val = 46)) false rest = ([], rest) :=
    scanPart_ends (fun c hc ↦ by
      have := of_decide_eq_true hc
      omega) hr
  have hexponent : scanPart (fun c ↦ decide (c.val = 101) || decide (c.val = 69)) true rest =
      ([], rest) :=
    scanPart_ends (fun c hc ↦ by
      rw [Bool.or_eq_true, decide_eq_true_eq, decide_eq_true_eq] at hc
      omega) hr
  have hscan : ∀ sign t, spanMinus t = (sign, decimalNat n.natAbs ++ rest) →
      scanNumber maxDigits float t =
        some (.int (if sign = [] then (n.natAbs : Int) else -n.natAbs), rest) := by
    intro sign t hsign
    unfold scanNumber
    simp only [hsign, scanInteger_decimalNat hr, Option.bind_eq_bind, Option.bind_some, hfraction,
      hexponent, and_self, ↓reduceIte, digitsValue_decimalNat]
    rw [if_neg (by omega)]
  unfold decimal
  split
  · next h =>
    rw [hscan [codePoint '-'] _ rfl, if_neg (by decide)]
    simp only [Option.some.injEq, Prod.mk.injEq, and_true, Value.int.injEq]
    omega
  · next h =>
    rw [hscan [] _ (spanMinus_decimalNat _ _), if_pos rfl]
    simp only [Option.some.injEq, Prod.mk.injEq, and_true, Value.int.injEq]
    omega

/-! ### Values -/

/-- Escapes and numbers of the writer are those the decoder reads back. -/
structure Style.ReadBy (s : Style) (d : Decoder) : Prop where
  escape : s.escape = Json.escape
  int : ∀ n t, s.int n = some t → t = decimal n ∧ (decimalNat n.natAbs).length ≤ d.maxDigits
  float : ∀ bits, s.float bits = none

private theorem skipSpace_cons {c : CodePoint} {rest : Text} (h : isSpace c = false) :
    skipSpace (c :: rest) = c :: rest := by
  simp [skipSpace, h]

private theorem decimal_head (n : Int) :
    ∃ c rest, decimal n = c :: rest ∧
      (c.val = 45 ∧ (∃ d ds, rest = d :: ds ∧ isDigit d = true) ∨ isDigit c = true) := by
  have hnat : ∃ c rest, decimalNat n.natAbs = c :: rest ∧ isDigit c = true := by
    by_cases h : n.natAbs = 0
    · exact ⟨decimalDigit 0, [], by rw [h]; rfl, rfl⟩
    · obtain ⟨c, rest, heq, -, hd⟩ := decimalNat_pos h
      exact ⟨c, rest, heq, hd⟩
  obtain ⟨c, rest, heq, hd⟩ := hnat
  unfold decimal
  split
  · exact ⟨codePoint '-', _, rfl, .inl ⟨rfl, c, rest, heq, hd⟩⟩
  · exact ⟨c, rest, heq, .inr hd⟩

private def startsNumber : Text → Bool
  | c :: d :: _ => isDigit c || (decide (c.val = 45) && isDigit d)
  | _ => true

private theorem startsNumber_of_isPrefix {s t : Text} (h : s <+: t)
    (hs : startsNumber s = false) : startsNumber t = false := by
  match s, hs with
  | c :: d :: rest, hs =>
    obtain ⟨tail, rfl⟩ := h
    exact hs

private theorem startsNumber_decimal (n : Int) (rest : Text) :
    startsNumber (decimal n ++ rest) = true := by
  obtain ⟨c, tail, heq, ⟨hc, d, ds, rfl, hd⟩ | hc⟩ := decimal_head n
  · rw [heq, List.cons_append, List.cons_append, startsNumber, hd, decide_eq_true hc,
      Bool.and_true, Bool.or_true]
  · rw [heq, List.cons_append]
    cases tail ++ rest with
    | nil => rfl
    | cons d ds => rw [startsNumber, hc, Bool.true_or]

private theorem scanLiteral_decimal (n : Int) (rest : Text) :
    scanLiteral (decimal n ++ rest) = none := by
  have hliterals : ∀ l ∈ literals, startsNumber l.1 = false := by decide
  rw [scanLiteral, List.findSome?_eq_none_iff]
  intro l hl
  rw [if_neg]
  intro hpre
  have hno := startsNumber_of_isPrefix hpre (hliterals l hl)
  rw [startsNumber_decimal] at hno
  cases hno

private def startsValue : Text → Bool
  | c :: _ => !isSpace c && decide (c.val ≠ 93)
  | [] => false

private theorem decimal_head_val (n : Int) :
    ∃ c rest, decimal n = c :: rest ∧ (c.val = 45 ∨ 48 ≤ c.val ∧ c.val ≤ 57) := by
  obtain ⟨c, rest, heq, ⟨hc, -⟩ | hc⟩ := decimal_head n
  · exact ⟨c, rest, heq, .inl hc⟩
  · exact ⟨c, rest, heq, .inr (isDigit_iff.mp hc)⟩

private theorem startsValue_decimal (n : Int) : startsValue (decimal n) = true := by
  obtain ⟨c, rest, heq, hval⟩ := decimal_head_val n
  rw [heq, startsValue]
  simp only [isSpace, Bool.and_eq_true, Bool.not_eq_true', Bool.or_eq_false_iff,
    decide_eq_false_iff_not, decide_eq_true_eq]
  omega

section RoundTrip

variable {s : Style} {d : Decoder}

private theorem parseElements_last {fuel : Nat} {acc : List Value} {t rest : Text} {v : Value}
    (h : parseValue d fuel t = some (v, text "]" ++ rest)) :
    parseElements d (fuel + 1) acc t = some (.list (acc ++ [v]), rest) := by
  rw [parseElements, h]
  rfl

private theorem parseElements_comma {fuel : Nat} {acc : List Value} {t rest : Text} {v : Value}
    (h : parseValue d fuel t = some (v, text "," ++ rest)) :
    parseElements d (fuel + 1) acc t = parseElements d fuel (acc ++ [v]) (skipSpace rest) := by
  rw [parseElements, h]
  rfl

private theorem parseMembers_last {fuel : Nat} {acc : List (Text × Value)} {key t rest : Text}
    {v : Value} (hkey : key ∉ acc.map Prod.fst)
    (h : parseValue d fuel (skipSpace t) = some (v, text "\x7d" ++ rest)) :
    parseMembers d (fuel + 1) acc (key.flatMap escape ++ (text "\"" ++ (text ":" ++ t))) =
      some (.dict (acc ++ [(key, v)]), rest) := by
  have hcolon : skipSpace (text ":" ++ t) = codePoint ':' :: t := rfl
  have hval : (codePoint ':').val = 58 := rfl
  rw [parseMembers, scanString_quote]
  simp only [Option.bind_eq_bind, Option.bind_some, hcolon, hval, ne_eq, not_true_eq_false,
    ↓reduceIte, h, Decoder.addMember_of_notMem hkey]
  rfl

private theorem parseMembers_comma {fuel : Nat} {acc : List (Text × Value)} {key t rest : Text}
    {v : Value} (hkey : key ∉ acc.map Prod.fst)
    (h : parseValue d fuel (skipSpace t) = some (v, text ",\"" ++ rest)) :
    parseMembers d (fuel + 1) acc (key.flatMap escape ++ (text "\"" ++ (text ":" ++ t))) =
      parseMembers d fuel (acc ++ [(key, v)]) rest := by
  have hcolon : skipSpace (text ":" ++ t) = codePoint ':' :: t := rfl
  have hval : (codePoint ':').val = 58 := rfl
  rw [parseMembers, scanString_quote]
  simp only [Option.bind_eq_bind, Option.bind_some, hcolon, hval, ne_eq, not_true_eq_false,
    ↓reduceIte, h, Decoder.addMember_of_notMem hkey]
  rfl

private theorem parseValue_bracket {fuel : Nat} {t rest : Text} (h : startsValue t = true) :
    parseValue d (fuel + 1) (text "[" ++ (t ++ rest)) = parseElements d fuel [] (t ++ rest) := by
  cases t with
  | nil => cases h
  | cons c tail =>
    rw [startsValue, Bool.and_eq_true, Bool.not_eq_true', decide_eq_true_eq] at h
    change (match skipSpace (c :: tail ++ rest) with
      | e :: tail => if e.val = 93 then some (Value.list [], tail)
        else parseElements d fuel [] (e :: tail)
      | [] => none) = _
    rw [List.cons_append, skipSpace_cons h.1]
    exact if_neg h.2

private theorem ends_text {str : String} {c : Char} {cs : List Char} {rest : Text}
    (hstr : str.toList = c :: cs) (hc : c = ',' ∨ c = ']' ∨ c = '\x7d') :
    Ends (text str ++ rest) := by
  intro e he
  rw [text, hstr] at he
  cases he
  obtain rfl | rfl | rfl := hc <;> decide

private theorem writeElements_cons {x : Value} {xs : List Value} {es : List Text}
    (h : writeElements s (x :: xs) = some es) :
    ∃ e es', write s x = some e ∧ writeElements s xs = some es' ∧ es = e :: es' := by
  simp only [writeElements, Option.bind_eq_bind, Option.bind_eq_some_iff, Option.pure_def,
    Option.some.injEq] at h
  obtain ⟨e, he, es', hes, rfl⟩ := h
  exact ⟨e, es', he, hes, rfl⟩

private theorem startsValue_append {t rest : Text} (h : startsValue t = true) :
    startsValue (t ++ rest) = true := by
  cases t with
  | nil => cases h
  | cons c tail => exact h

private theorem writeMembers_ne_nil {p : Text × Value} {m : List (Text × Value)} {es : List Text}
    (h : writeMembers s (p :: m) = some es) : es ≠ [] := by
  simp only [writeMembers, Option.bind_eq_bind, Option.bind_eq_some_iff, Option.pure_def,
    Option.some.injEq] at h
  obtain ⟨e, -, es', -, rfl⟩ := h
  exact List.cons_ne_nil _ _

private theorem commas_cons {e : Text} {es : List Text} (h : es ≠ []) :
    commas (e :: es) = e ++ text "," ++ commas es := by
  cases es with
  | nil => exact absurd rfl h
  | cons e' es => rfl

private theorem skipSpace_startsValue {t rest : Text} (h : startsValue t = true) :
    skipSpace (t ++ rest) = t ++ rest := by
  cases t with
  | nil => cases h
  | cons c tail =>
    rw [startsValue, Bool.and_eq_true, Bool.not_eq_true'] at h
    exact skipSpace_cons h.1

private theorem notMem_of_nodup {acc m : List (Text × Value)} {k : Text} {v : Value}
    (h : ((acc ++ (k, v) :: m).map Prod.fst).Nodup) : k ∉ acc.map Prod.fst := by
  rw [List.map_append, List.map_cons] at h
  intro hk
  exact (List.nodup_append.mp h).2.2 k hk k List.mem_cons_self rfl

variable (hs : s.ReadBy d)
include hs

private theorem startsValue_write {v : Value} {t : Text} (h : write s v = some t) :
    startsValue t = true := by
  cases v with
  | none => cases h; rfl
  | bool b => cases b <;> cases h <;> rfl
  | int n =>
    rw [(hs.int n t h).1]
    exact startsValue_decimal n
  | float bits => exact absurd (h.symm.trans (hs.float bits)) (by simp)
  | str u => cases h; rfl
  | bytes b => cases h
  | list xs =>
    obtain ⟨es, -, rfl⟩ := Option.map_eq_some_iff.mp h
    rfl
  | dict m =>
    obtain ⟨es, -, rfl⟩ := Option.map_eq_some_iff.mp h
    rfl
  | object id => cases h

private theorem writeMembers_cons {k : Text} {v : Value} {m : List (Text × Value)}
    {es : List Text} (h : writeMembers s ((k, v) :: m) = some es) :
    ∃ e es', write s v = some e ∧ writeMembers s m = some es' ∧
      es = (quote escape k ++ text ":" ++ e) :: es' := by
  simp only [writeMembers, Option.bind_eq_bind, Option.bind_eq_some_iff, Option.pure_def,
    Option.some.injEq, hs.escape] at h
  obtain ⟨e, he, es', hes, rfl⟩ := h
  exact ⟨e, es', he, hes, rfl⟩

private theorem startsValue_commas {xs : List Value} {es : List Text}
    (h : writeElements s xs = some es) (hne : xs ≠ []) : startsValue (commas es) = true := by
  cases xs with
  | nil => exact absurd rfl hne
  | cons x xs =>
    obtain ⟨e, es, he, -, rfl⟩ := writeElements_cons h
    have hstart := startsValue_write hs he
    cases es with
    | nil => exact hstart
    | cons e' es =>
      rw [commas, List.append_assoc]
      exact startsValue_append hstart

private theorem skipSpace_write {v : Value} {t rest : Text} (h : write s v = some t) :
    skipSpace (t ++ rest) = t ++ rest :=
  skipSpace_startsValue (startsValue_write hs h)

mutual

/-- A written value is read back, and what follows it is left. -/
theorem parseValue_write : (v : Value) → ∀ {t rest : Text} {fuel : Nat},
    v.distinctKeys = true → write s v = some t → Ends rest → t.length ≤ fuel →
    parseValue d fuel (t ++ rest) = some (v, rest)
  | v, t, rest, 0, _, hw, _, hf => by
    have hstart := startsValue_write hs hw
    rw [List.eq_nil_of_length_eq_zero (Nat.le_zero.mp hf)] at hstart
    cases hstart
  | .none, _, _, _ + 1, _, hw, _, _ => by
    cases hw
    rfl
  | .bool true, _, _, _ + 1, _, hw, _, _ => by
    cases hw
    rfl
  | .bool false, _, _, _ + 1, _, hw, _, _ => by
    cases hw
    rfl
  | .int n, t, rest, fuel + 1, _, hw, hr, _ => by
    obtain ⟨rfl, hl⟩ := hs.int n t hw
    have hliteral := scanLiteral_decimal n rest
    have hnumber : scanNumber d.maxDigits d.float (decimal n ++ rest) = some (.int n, rest) :=
      scanNumber_decimal hr hl
    obtain ⟨c, tail, heq, hval⟩ := decimal_head_val n
    rw [heq, List.cons_append] at hliteral hnumber ⊢
    rw [parseValue, if_neg (by omega), if_neg (by omega), if_neg (by omega), hliteral]
    exact hnumber
  | .float bits, _, _, _ + 1, _, hw, _, _ => by
    rw [write, hs.float] at hw
    cases hw
  | .str u, _, _, _ + 1, _, hw, _, _ => by
    rw [write, quote, hs.escape] at hw
    cases hw
    rw [List.append_assoc, List.append_assoc]
    change (scanString 0 (u.flatMap escape ++ (text "\"" ++ _))).map _ = _
    rw [scanString_quote]
    rfl
  | .bytes _, _, _, _ + 1, _, hw, _, _ => by cases hw
  | .list [], _, _, _ + 1, _, hw, _, _ => by
    cases hw
    rfl
  | .list (x :: xs), _, rest, fuel + 1, hk, hw, hr, hf => by
    obtain ⟨es, hes, rfl⟩ := Option.map_eq_some_iff.mp hw
    have hstart := startsValue_commas hs hes (List.cons_ne_nil x xs)
    simp only [List.length_append, show (text "[").length = 1 from rfl,
      show (text "]").length = 1 from rfl] at hf
    rw [List.append_assoc, List.append_assoc, parseValue_bracket hstart]
    exact parseElements_write (x :: xs) (Value.distinctKeys_list.mp hk) hes (List.cons_ne_nil x xs)
      (by omega)
  | .dict [], _, _, _ + 1, _, hw, _, _ => by
    cases hw
    rfl
  | .dict (p :: m), _, rest, fuel + 1, hk, hw, hr, hf => by
    obtain ⟨es, hes, rfl⟩ := Option.map_eq_some_iff.mp hw
    rw [Value.distinctKeys_dict] at hk
    obtain ⟨body, hbody, hparse⟩ := parseMembers_write (p :: m) hk.2 hes (List.cons_ne_nil p m)
    rw [hbody] at hf ⊢
    simp only [List.length_append, show (text "\x7b").length = 1 from rfl,
      show (text "\"").length = 1 from rfl] at hf
    rw [List.append_assoc, List.append_assoc, List.append_assoc]
    exact hparse (hk.1 : (([] ++ p :: m).map Prod.fst).Nodup) (by omega)
  | .object _, _, _, _ + 1, _, hw, _, _ => by cases hw

/-- Written elements are read back. -/
theorem parseElements_write : (xs : List Value) →
    ∀ {es : List Text} {rest : Text} {fuel : Nat} {acc : List Value},
    (∀ x ∈ xs, x.distinctKeys = true) → writeElements s xs = some es → xs ≠ [] →
    (commas es).length < fuel →
    parseElements d fuel acc (commas es ++ (text "]" ++ rest)) = some (.list (acc ++ xs), rest)
  | [], _, _, _, _, _, _, hne, _ => absurd rfl hne
  | _ :: _, _, _, 0, _, _, _, _, hf => absurd hf (Nat.not_lt_zero _)
  | [x], _, rest, fuel + 1, acc, hk, hw, _, hf => by
    obtain ⟨e, es, he, hes, rfl⟩ := writeElements_cons hw
    cases hes
    rw [List.forall_mem_cons] at hk
    exact parseElements_last (parseValue_write x hk.1 he (ends_text rfl (by decide))
      (Nat.le_of_lt_succ hf))
  | x :: y :: xs, _, rest, fuel + 1, acc, hk, hw, _, hf => by
    obtain ⟨e, es, he, hes, rfl⟩ := writeElements_cons hw
    obtain ⟨e', es', he', -, rfl⟩ := writeElements_cons hes
    rw [List.forall_mem_cons] at hk
    rw [commas, List.length_append, List.length_append, show (text ",").length = 1 from rfl] at hf
    rw [commas, List.append_assoc, List.append_assoc,
      parseElements_comma (parseValue_write x hk.1 he (ends_text rfl (by decide)) (by omega)),
      skipSpace_startsValue (startsValue_commas hs hes (List.cons_ne_nil y xs)),
      parseElements_write (y :: xs) hk.2 hes (List.cons_ne_nil y xs) (by omega),
      List.append_assoc]
    rfl

/-- Written members are read back. -/
theorem parseMembers_write : (m : List (Text × Value)) → ∀ {es : List Text},
    (∀ p ∈ m, p.2.distinctKeys = true) → writeMembers s m = some es → m ≠ [] →
    ∃ body, commas es = text "\"" ++ body ∧
      ∀ {rest : Text} {fuel : Nat} {acc : List (Text × Value)},
        ((acc ++ m).map Prod.fst).Nodup → body.length < fuel →
        parseMembers d fuel acc (body ++ (text "\x7d" ++ rest)) = some (.dict (acc ++ m), rest)
  | [], _, _, _, hne => absurd rfl hne
  | [(k, v)], _, hk, hw, _ => by
    obtain ⟨e, es, he, hes, rfl⟩ := writeMembers_cons hs hw
    cases hes
    rw [List.forall_mem_cons] at hk
    refine ⟨k.flatMap escape ++ (text "\"" ++ (text ":" ++ e)), ?_, ?_⟩
    · simp only [commas, quote, List.append_assoc]
    · intro rest fuel acc hnodup hf
      cases fuel with
      | zero => exact absurd hf (Nat.not_lt_zero _)
      | succ fuel =>
        simp only [List.length_append] at hf
        have hvalue : parseValue d fuel (e ++ (text "\x7d" ++ rest)) = some (v, _) :=
          parseValue_write v hk.1 he (ends_text rfl (by decide)) (by omega)
        rw [← skipSpace_write hs he] at hvalue
        simp only [List.append_assoc]
        rw [parseMembers_last (notMem_of_nodup hnodup) hvalue]
  | (k, v) :: p :: m, _, hk, hw, _ => by
    obtain ⟨e, es, he, hes, rfl⟩ := writeMembers_cons hs hw
    rw [List.forall_mem_cons] at hk
    obtain ⟨body, hbody, hparse⟩ := parseMembers_write (p :: m) hk.2 hes (List.cons_ne_nil p m)
    refine ⟨k.flatMap escape ++ (text "\"" ++ (text ":" ++ (e ++ (text ",\"" ++ body)))), ?_, ?_⟩
    · rw [commas_cons (writeMembers_ne_nil hes), hbody]
      simp only [quote, List.append_assoc]
      rfl
    · intro rest fuel acc hnodup hf
      cases fuel with
      | zero => exact absurd hf (Nat.not_lt_zero _)
      | succ fuel =>
        simp only [List.length_append, show (text ":").length = 1 from rfl] at hf
        have hvalue : parseValue d fuel (e ++ (text ",\"" ++ (body ++ (text "\x7d" ++ rest)))) =
            some (v, _) := parseValue_write v hk.1 he (ends_text rfl (by decide)) (by omega)
        rw [← skipSpace_write hs he] at hvalue
        simp only [List.append_assoc]
        rw [parseMembers_comma (notMem_of_nodup hnodup) hvalue, hparse (by simpa using hnodup)
          (by omega), List.append_assoc]
        rfl

end

/-- `json.loads` reads back the text of a value. -/
theorem loadsText_write {v : Value} {t : Text} (hk : v.distinctKeys = true)
    (h : write s v = some t) : loadsText d t = some v := by
  have hparse : parseValue d (t.length + 1) (t ++ []) = some (v, []) :=
    parseValue_write hs v hk h (fun c hc ↦ by cases hc) (Nat.le_succ _)
  have hskip : skipSpace (t ++ []) = t ++ [] := skipSpace_write hs h
  rw [List.append_nil] at hparse hskip
  rw [loadsText, hskip, hparse]
  rfl

/-- `json.loads` reads back the UTF-8 bytes of an object. -/
theorem loads_write {m : List (Text × Value)} {t : Text}
    (hk : (Value.dict m).distinctKeys = true) (h : write s (.dict m) = some t) :
    loads d (utf8 t) = some (.dict m) := by
  have hdecode : decodeJson (utf8 t) = decodeUtf8 (utf8 t) := by
    obtain ⟨es, hes, rfl⟩ := Option.map_eq_some_iff.mp h
    cases m with
    | nil =>
      cases hes
      rfl
    | cons p m =>
      rw [Value.distinctKeys_dict] at hk
      obtain ⟨body, hbody, -⟩ := parseMembers_write hs (p :: m) hk.2 hes (List.cons_ne_nil p m)
      rw [hbody]
      exact decodeJson_utf8 (p := 123) (q := 34) (by decide) (by decide) (by decide)
  rw [loads, hdecode, decodeUtf8_utf8]
  exact loadsText_write hs hk h

end RoundTrip

end Atcap.Base.Json
