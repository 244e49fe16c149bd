import Atcap.Base.Encoding
import Atcap.Base.Json

/-!
# Parsing JSON texts

Library `Base`. `json.loads` with its default decoder: strict string literals, lone surrogates
kept, `NaN` and the infinities accepted, a repeated key keeping its first place and its last
value. Parsing is undefined where Python raises. How a number with a fraction or an exponent is
rounded is a parameter, and nesting is not bounded.
-/

namespace Atcap.Base.Json

/-! ### White space and string literals -/

/-- The white space of JSON. -/
def isSpace (c : CodePoint) : Bool :=
  decide (c.val = 32) || decide (c.val = 9) || decide (c.val = 10) || decide (c.val = 13)

/-- Skip white space. -/
def skipSpace (t : Text) : Text := t.dropWhile isSpace

/-- The character a two-character escape stands for. -/
def unescape? (c : CodePoint) : Option CodePoint :=
  match c.val with
  | 34 => some (codePoint '"')
  | 92 => some (codePoint '\\')
  | 47 => some (codePoint '/')
  | 98 => some (codePoint '\x08')
  | 102 => some (codePoint '\x0c')
  | 110 => some (codePoint '\n')
  | 114 => some (codePoint '\r')
  | 116 => some (codePoint '\t')
  | _ => none

/-- The number that four hexadecimal digits spell. -/
def hex4? (a b c d : CodePoint) : Option Nat := do
  let a ← hexValue? a
  let b ← hexValue? b
  let c ← hexValue? c
  let d ← hexValue? d
  return ((a * 16 + b) * 16 + c) * 16 + d

/-- The low surrogate that an escape at the start of the text spells. -/
def lowSurrogate? (t : Text) : Option Nat :=
  match t with
  | x :: y :: a :: b :: c :: d :: _ =>
    if x.val = 92 ∧ y.val = 117 then
      (hex4? a b c d).filter fun n ↦ decide (0xDC00 ≤ n) && decide (n ≤ 0xDFFF)
    else none
  | _ => none

/-- The rest of a string literal after its opening quotation mark, with `n` characters of an
escape still to be skipped. -/
def scanString : (n : Nat) → Text → Option (Text × Text)
  | _, [] => none
  | n + 1, _ :: rest => scanString n rest
  | 0, c :: rest =>
    if c.val = 34 then some ([], rest)
    else if c.val < 0x20 then none
    else if c.val ≠ 92 then (scanString 0 rest).map fun r ↦ (c :: r.1, r.2)
    else
      match rest with
      | [] => none
      | e :: tail =>
        match unescape? e with
        | some d => (scanString 1 rest).map fun r ↦ (d :: r.1, r.2)
        | none =>
          if e.val ≠ 117 then none
          else
            match tail with
            | p :: q :: r :: s :: after => do
              let n ← hex4? p q r s
              match (if 0xD800 ≤ n ∧ n ≤ 0xDBFF then lowSurrogate? after else none) with
              | some low => do
                let d ← codePoint? (0x10000 + (n - 0xD800) * 0x400 + (low - 0xDC00))
                (scanString 11 rest).map fun r ↦ (d :: r.1, r.2)
              | none => do
                let d ← codePoint? n
                (scanString 5 rest).map fun r ↦ (d :: r.1, r.2)
            | _ => none

/-! ### Numbers -/

/-- An ASCII digit. -/
def isDigit (c : CodePoint) : Bool := decide (48 ≤ c.val) && decide (c.val ≤ 57)

/-- The number a run of digits spells. -/
def digitsValue (ds : Text) : Nat := ds.foldl (fun n d ↦ n * 10 + (d.val - 48)) 0

/-- Split a text after its leading digits. -/
def spanDigits (t : Text) : Text × Text := (t.takeWhile isDigit, t.dropWhile isDigit)

/-- `0` or a digit other than zero followed by digits. -/
def scanInteger (t : Text) : Option (Text × Text) :=
  match t with
  | [] => none
  | c :: rest =>
    if c.val = 48 then some ([c], rest)
    else if isDigit c then some (spanDigits t)
    else none

/-- An optional part that starts with a marker; without its digits it is not there. -/
def scanPart (marker : CodePoint → Bool) (sign : Bool) (t : Text) : Text × Text :=
  match t with
  | [] => ([], t)
  | c :: rest =>
    if marker c then
      let signed : Text × Text := match rest with
        | s :: tail => if sign ∧ (s.val = 43 ∨ s.val = 45) then ([s], tail) else ([], rest)
        | [] => ([], rest)
      let digits := spanDigits signed.2
      if digits.1 = [] then ([], t) else (c :: signed.1 ++ digits.1, digits.2)
    else ([], t)

/-- Split a text after its minus sign. -/
def spanMinus (t : Text) : Text × Text :=
  match t with
  | c :: rest => if c.val = 45 then ([c], rest) else ([], t)
  | [] => ([], t)

/-- A number: an integer of at most `maxDigits` digits, or a `float` when it has a fraction or an
exponent. -/
def scanNumber (maxDigits : Nat) (float : Text → BitVec 64) (t : Text) : Option (Value × Text) := do
  let (sign, unsigned) := spanMinus t
  let (integer, rest) ← scanInteger unsigned
  let (fraction, rest) := scanPart (fun c ↦ decide (c.val = 46)) false rest
  let (exponent, rest) := scanPart (fun c ↦ decide (c.val = 101) || decide (c.val = 69)) true rest
  if fraction = [] ∧ exponent = [] then
    if maxDigits < integer.length then none
    else
      let n : Int := digitsValue integer
      some (.int (if sign = [] then n else -n), rest)
  else some (.float (float (sign ++ integer ++ fraction ++ exponent)), rest)

/-- The words of JSON, and the three numbers that are not finite. -/
def literals : List (Text × Value) :=
  [(text "null", .none), (text "true", .bool true), (text "false", .bool false),
    (text "NaN", .float 0x7FF8000000000000#64), (text "Infinity", .float 0x7FF0000000000000#64),
    (text "-Infinity", .float 0xFFF0000000000000#64)]

/-- A literal at the start of the text. -/
def scanLiteral (t : Text) : Option (Value × Text) :=
  literals.findSome? fun l ↦ if l.1 <+: t then some (l.2, t.drop l.1.length) else none

/-! ### Values -/

/-- What a decoder is configured with. -/
structure Decoder where
  maxDigits : Nat
  float : Text → BitVec 64
  /-- Whether an `object_pairs_hook` raises on a repeated name; otherwise the last value stays. -/
  unique : Bool

/-- One more member of an object. -/
def Decoder.addMember (d : Decoder) (members : List (Text × Value)) (key : Text) (v : Value) :
    Option (List (Text × Value)) :=
  if d.unique = true ∧ key ∈ members.map Prod.fst then none
  else some (Value.setMember members key v)

/-- A member with a new name is appended. -/
theorem Decoder.addMember_of_notMem {d : Decoder} {members : List (Text × Value)} {key : Text}
    {v : Value} (h : key ∉ members.map Prod.fst) :
    d.addMember members key v = some (members ++ [(key, v)]) := by
  rw [addMember, if_neg fun hk ↦ h hk.2, Value.setMember_of_notMem h]

/-- Names stay distinct. -/
theorem Decoder.addMember_distinctKeys {d : Decoder} {members members' : List (Text × Value)}
    {key : Text} {v : Value} (hm : (Value.dict members).distinctKeys = true)
    (hv : v.distinctKeys = true) (h : d.addMember members key v = some members') :
    (Value.dict members').distinctKeys = true := by
  unfold addMember at h
  split at h
  · cases h
  · cases h
    exact Value.distinctKeys_setMember hm hv

mutual

/-- One value at the start of the text; `fuel` bounds the steps. -/
def parseValue (d : Decoder) : (fuel : Nat) → Text → Option (Value × Text)
  | 0, _ => none
  | _ + 1, [] => none
  | fuel + 1, c :: rest =>
    if c.val = 34 then (scanString 0 rest).map fun r ↦ (.str r.1, r.2)
    else if c.val = 123 then
      match skipSpace rest with
      | e :: tail =>
        if e.val = 125 then some (.dict [], tail)
        else if e.val = 34 then parseMembers d fuel [] tail
        else none
      | [] => none
    else if c.val = 91 then
      match skipSpace rest with
      | e :: tail =>
        if e.val = 93 then some (.list [], tail) else parseElements d fuel [] (e :: tail)
      | [] => none
    else
      match scanLiteral (c :: rest) with
      | some r => some r
      | none => scanNumber d.maxDigits d.float (c :: rest)

/-- The members of an object from the key after an opening quotation mark on. -/
def parseMembers (d : Decoder) : (fuel : Nat) → List (Text × Value) → Text →
    Option (Value × Text)
  | 0, _, _ => none
  | fuel + 1, members, t => do
    let (key, rest) ← scanString 0 t
    match skipSpace rest with
    | e :: rest =>
      if e.val ≠ 58 then none
      else do
        let (v, rest) ← parseValue d fuel (skipSpace rest)
        let members ← d.addMember members key v
        match skipSpace rest with
        | f :: rest =>
          if f.val = 125 then some (.dict members, rest)
          else if f.val = 44 then
            match skipSpace rest with
            | g :: rest => if g.val = 34 then parseMembers d fuel members rest else none
            | [] => none
          else none
        | [] => none
    | [] => none

/-- The elements of an array from a value on. -/
def parseElements (d : Decoder) : (fuel : Nat) → List Value → Text → Option (Value × Text)
  | 0, _, _ => none
  | fuel + 1, elements, t => do
    let (v, rest) ← parseValue d fuel t
    let elements := elements ++ [v]
    match skipSpace rest with
    | e :: rest =>
      if e.val = 93 then some (.list elements, rest)
      else if e.val = 44 then parseElements d fuel elements (skipSpace rest)
      else none
    | [] => none

end

/-- `json.loads` of a text. Each step consumes a character, so the length bounds the steps. -/
def loadsText (d : Decoder) (t : Text) : Option Value :=
  match parseValue d (t.length + 1) (skipSpace t) with
  | some (v, rest) => if skipSpace rest = [] then some v else none
  | none => none

/-- `json.loads` of bytes. -/
def loads (d : Decoder) (b : Bytes) : Option Value := (decodeJson b).bind (loadsText d)

/-! ### Parsed values -/

private theorem scanLiteral_distinctKeys {t : Text} {r : Value × Text}
    (h : scanLiteral t = some r) : r.1.distinctKeys = true := by
  obtain ⟨l, hl, hr⟩ := List.exists_of_findSome?_eq_some h
  have hliterals : ∀ l ∈ literals, l.2.distinctKeys = true := by decide
  split at hr
  · cases hr
    exact hliterals l hl
  · cases hr

private theorem scanNumber_distinctKeys {maxDigits : Nat} {float : Text → BitVec 64} {t : Text}
    {r : Value × Text} (h : scanNumber maxDigits float t = some r) : r.1.distinctKeys = true := by
  unfold scanNumber at h
  simp only [Option.bind_eq_bind, Option.bind_eq_some_iff] at h
  obtain ⟨_, _, h⟩ := h
  split at h
  · split at h
    · cases h
    · cases h
      rfl
  · cases h
    rfl

private theorem parse_distinctKeys (d : Decoder) (fuel : Nat) :
    (∀ t r, parseValue d fuel t = some r → r.1.distinctKeys = true) ∧
    (∀ m t r, parseMembers d fuel m t = some r → (Value.dict m).distinctKeys = true →
      r.1.distinctKeys = true) ∧
    (∀ xs t r, parseElements d fuel xs t = some r → (Value.list xs).distinctKeys = true →
      r.1.distinctKeys = true) := by
  induction fuel with
  | zero =>
    refine ⟨?_, ?_, ?_⟩
    · intro t r h
      cases h
    · intro m t r h
      cases h
    · intro xs t r h
      cases h
  | succ fuel ih =>
    obtain ⟨ihv, ihm, ihe⟩ := ih
    refine ⟨?_, ?_, ?_⟩
    · intro t r h
      cases t with
      | nil => cases h
      | cons c rest =>
        rw [parseValue] at h
        split at h
        · obtain ⟨s, -, rfl⟩ := Option.map_eq_some_iff.mp h
          rfl
        · split at h
          · split at h
            · split at h
              · cases h
                rfl
              · split at h
                · exact ihm _ _ _ h rfl
                · cases h
            · cases h
          · split at h
            · split at h
              · split at h
                · cases h
                  rfl
                · exact ihe _ _ _ h rfl
              · cases h
            · split at h
              · next hl =>
                cases h
                exact scanLiteral_distinctKeys hl
              · exact scanNumber_distinctKeys h
    · intro m t r h hm
      simp only [parseMembers, Option.bind_eq_bind, Option.bind_eq_some_iff] at h
      obtain ⟨⟨key, rest⟩, -, h⟩ := h
      simp only at h
      split at h
      · split at h
        · cases h
        · obtain ⟨⟨v, rest'⟩, hv, h⟩ := Option.bind_eq_some_iff.mp h
          obtain ⟨m', hm', h⟩ := Option.bind_eq_some_iff.mp h
          have hnew : (Value.dict m').distinctKeys = true :=
            Decoder.addMember_distinctKeys hm (ihv _ _ hv) hm'
          simp only at h
          split at h
          · split at h
            · cases h
              exact hnew
            · split at h
              · split at h
                · split at h
                  · exact ihm _ _ _ h hnew
                  · cases h
                · cases h
              · cases h
          · cases h
      · cases h
    · intro xs t r h hxs
      simp only [parseElements, Option.bind_eq_bind, Option.bind_eq_some_iff] at h
      obtain ⟨⟨v, rest⟩, hv, h⟩ := h
      have hnew : (Value.list (xs ++ [v])).distinctKeys = true := by
        rw [Value.distinctKeys_list, List.forall_mem_append, List.forall_mem_singleton]
        exact ⟨Value.distinctKeys_list.mp hxs, ihv _ _ hv⟩
      simp only at h
      split at h
      · split at h
        · cases h
          exact hnew
        · split at h
          · exact ihe _ _ _ h hnew
          · cases h
      · cases h

/-- The dictionaries of a parsed value have distinct keys. -/
theorem loads_distinctKeys {d : Decoder} {b : Bytes} {v : Value} (h : loads d b = some v) :
    v.distinctKeys = true := by
  obtain ⟨t, -, ht⟩ := Option.bind_eq_some_iff.mp h
  unfold loadsText at ht
  split at ht
  · next hparse =>
    split at ht
    · cases ht
      exact (parse_distinctKeys d _).1 _ _ hparse
    · cases ht
  · cases ht

end Atcap.Base.Json
