import Mathlib.Data.List.DropRight
import Atcap.Base.JsonRoundTrip
import Atcap.Challenge

/-!
# The fields of a challenge token

`_challenge_expiry` of `src/atcap/broker.py` reads the expiry out of a token. A token of
`issue_ca2a_challenge_at` splits at its dots into the four fields it was made of, so its expiry
and its random field are read back and two tokens are equal only if these are.
-/

namespace Atcap

open Base

/-! ### Reading integers -/

/-- The zeros of the decimal digits of Unicode 15; the nine other digits follow each. -/
def decimalZeros : List Nat :=
  [0x30, 0x660, 0x6F0, 0x7C0, 0x966, 0x9E6, 0xA66, 0xAE6, 0xB66, 0xBE6, 0xC66, 0xCE6, 0xD66, 0xDE6,
    0xE50, 0xED0, 0xF20, 0x1040, 0x1090, 0x17E0, 0x1810, 0x1946, 0x19D0, 0x1A80, 0x1A90, 0x1B50,
    0x1BB0, 0x1C40, 0x1C50, 0xA620, 0xA8D0, 0xA900, 0xA9D0, 0xA9F0, 0xAA50, 0xABF0, 0xFF10, 0x104A0,
    0x10D30, 0x11066, 0x110F0, 0x11136, 0x111D0, 0x112F0, 0x11450, 0x114D0, 0x11650, 0x116C0,
    0x11730, 0x118E0, 0x11950, 0x11C50, 0x11D50, 0x11DA0, 0x11F50, 0x16A60, 0x16AC0, 0x16B50,
    0x1D7CE, 0x1D7D8, 0x1D7E2, 0x1D7EC, 0x1D7F6, 0x1E140, 0x1E2F0, 0x1E4D0, 0x1E950, 0x1FBF0]

/-- `str.isspace()` of a code point that is not ASCII. -/
def isWideSpace (c : CodePoint) : Bool :=
  [0x85, 0xA0, 0x1680, 0x2028, 0x2029, 0x202F, 0x205F, 0x3000].contains c.val ||
    (decide (0x2000 ≤ c.val) && decide (c.val ≤ 0x200A))

/-- A code point as `int` reads it: a space or a decimal digit of any script is the ASCII one, and
what else is not ASCII is no part of a number. -/
def toAscii (c : CodePoint) : CodePoint :=
  if c.val < 127 then c
  else if isWideSpace c then codePoint ' '
  else match decimalZeros.find? (fun first ↦ first ≤ c.val ∧ c.val < first + 10) with
    | some first => decimalDigit (c.val - first)
    | none => codePoint '?'

/-- `str.strip()` of an ASCII text. -/
def strip (t : Text) : Text := (t.dropWhile isAsciiSpace).rdropWhile isAsciiSpace

/-- The sign of a number and what follows it. -/
def spanSign (t : Text) : Int × Text :=
  match t with
  | c :: rest =>
    if c = codePoint '-' then (-1, rest) else if c = codePoint '+' then (1, rest) else (1, t)
  | [] => (1, [])

/-- `int(t)`, undefined where Python raises `ValueError`: space around the number is skipped, single
underscores may stand between digits, and there are not too many digits. -/
def int? (t : Text) : Option Int :=
  let (sign, digits) := spanSign (strip (t.map toAscii))
  let groups := digits.splitOn (codePoint '_')
  if groups.all (fun group ↦ !group.isEmpty && group.all Json.isDigit) ∧
      groups.flatten.length ≤ maxStrDigits then
    some (sign * Json.digitsValue groups.flatten)
  else none

/-- An ASCII text is read as it is. -/
theorem map_toAscii {t : Text} (h : ∀ c ∈ t, c.val < 127) : t.map toAscii = t := by
  calc t.map toAscii = t.map id := List.map_congr_left fun c hc ↦ if_pos (h c hc)
    _ = t := List.map_id t

/-- A text without space is not stripped. -/
theorem strip_eq_self {t : Text} (h : ∀ c ∈ t, isAsciiSpace c = false) : strip t = t := by
  have hdrop : t.dropWhile isAsciiSpace = t := by
    cases t with
    | nil => rfl
    | cons c rest => exact List.dropWhile_cons_of_neg (by simp [h c List.mem_cons_self])
  rw [strip, hdrop, List.rdropWhile_eq_self_iff]
  intro hne
  simp [h _ (List.getLast_mem hne)]

private theorem not_digit {c : CodePoint} (h : Json.isDigit c = true) :
    isAsciiSpace c = false ∧ c.val < 127 ∧ c ≠ codePoint '_' ∧ c ≠ codePoint '-' ∧
      c ≠ codePoint '+' ∧ c ≠ codePoint '.' := by
  simp only [Json.isDigit, Bool.and_eq_true, decide_eq_true_eq] at h
  refine ⟨?_, by omega, ?_, ?_, ?_, ?_⟩
  · simp only [isAsciiSpace, Bool.or_eq_false_iff, Bool.and_eq_false_iff, decide_eq_false_iff_not]
    omega
  all_goals
    rintro rfl
    revert h
    decide

private theorem decimalNat_ne_nil (n : Nat) : decimalNat n ≠ [] := by
  unfold decimalNat
  split
  · exact List.cons_ne_nil _ _
  · next h =>
    rw [Ne, List.reverse_eq_nil_iff, List.map_eq_nil_iff, Nat.digits_eq_nil_iff_eq_zero]
    exact h

private theorem groups_decimalNat (n : Nat) :
    (decimalNat n).splitOn (codePoint '_') = [decimalNat n] := by
  apply List.splitOn_eq_singleton
  intro hmem
  exact (not_digit (Json.decimalNat_isDigit n _ hmem)).2.2.1 rfl

private theorem spanSign_decimal (n : Int) :
    spanSign (decimal n) = (if n < 0 then -1 else 1, decimalNat n.natAbs) := by
  unfold decimal
  by_cases hn : n < 0
  · rw [if_pos hn, if_pos hn]
    rfl
  · rw [if_neg hn, if_neg hn]
    cases hd : decimalNat n.natAbs with
    | nil => exact absurd hd (decimalNat_ne_nil _)
    | cons c rest =>
      have hc := not_digit (Json.decimalNat_isDigit n.natAbs c (hd ▸ List.mem_cons_self))
      rw [spanSign, if_neg hc.2.2.2.1, if_neg hc.2.2.2.2.1]

private theorem not_space {n : Int} {c : CodePoint} (h : c ∈ decimal n) :
    isAsciiSpace c = false ∧ c.val < 127 := by
  unfold decimal at h
  split at h
  · rcases List.mem_cons.mp h with rfl | h
    · decide
    · have hdigit := not_digit (Json.decimalNat_isDigit _ c h)
      exact ⟨hdigit.1, hdigit.2.1⟩
  · have hdigit := not_digit (Json.decimalNat_isDigit _ c h)
    exact ⟨hdigit.1, hdigit.2.1⟩

/-- Equal spellings are of equal numbers, however long they are. -/
theorem decimal_injective : Function.Injective decimal := by
  intro n m h
  have hspan := congrArg spanSign h
  rw [spanSign_decimal, spanSign_decimal, Prod.mk.injEq] at hspan
  have hvalue := congrArg Json.digitsValue hspan.2
  rw [Json.digitsValue_decimalNat, Json.digitsValue_decimalNat] at hvalue
  have hsign : n < 0 ↔ m < 0 := by
    constructor
    · intro hn
      by_contra hm
      simp [hn, hm] at hspan
    · intro hm
      by_contra hn
      simp [hn, hm] at hspan
  omega

/-- `int` undoes `str`, and reads no number of too many digits. -/
theorem int?_decimal (n : Int) :
    int? (decimal n) = if n.natAbs < 10 ^ maxStrDigits then some n else none := by
  have hdigits : (decimalNat n.natAbs).all Json.isDigit = true :=
    List.all_eq_true.mpr (Json.decimalNat_isDigit _)
  have hvalue : (if n < 0 then -1 else 1) * (n.natAbs : Int) = n := by
    split
    · omega
    · omega
  have hgroups : ([decimalNat n.natAbs].all fun group ↦
      !group.isEmpty && group.all Json.isDigit) = true := by
    simp [decimalNat_ne_nil, hdigits]
  rw [int?, map_toAscii fun c hc ↦ (not_space hc).2, strip_eq_self fun c hc ↦ (not_space hc).1,
    spanSign_decimal]
  simp only [groups_decimalNat]
  rw [List.flatten_singleton, Json.digitsValue_decimalNat, hvalue]
  simp only [hgroups, true_and, length_decimalNat_le_iff (k := maxStrDigits) (by decide)]

/-! ### The four fields -/

/-- `_challenge_expiry`. -/
def challengeExpiry (token : Text) : Except Exn Int :=
  orRaise ((token.splitOn (codePoint '.'))[1]?.bind int?)
    (.decision .CHALLENGE_INVALID "challenge has no valid expiry")

/-- The code of the authentication of a token. -/
def challengeMac (secret : Bytes) (expiry : Int) (randomHex : Text) : Text :=
  hex (hmacSha256 secret (utf8 (authenticatedPart expiry randomHex)))

private theorem dot_notMem_decimal (n : Int) : codePoint '.' ∉ decimal n := by
  intro hmem
  unfold decimal at hmem
  split at hmem
  · rcases List.mem_cons.mp hmem with h | h
    · revert h
      decide
    · exact (not_digit (Json.decimalNat_isDigit _ _ h)).2.2.2.2.2 rfl
  · exact (not_digit (Json.decimalNat_isDigit _ _ hmem)).2.2.2.2.2 rfl

/-- No dot stands in a hexadecimal spelling. -/
theorem dot_notMem_hex (b : Bytes) : codePoint '.' ∉ hex b := by
  intro hmem
  have hdot := List.all_eq_true.mp (all_isLowerHex_hex b) _ hmem
  revert hdot
  decide

/-- A token splits at its dots into the version, the expiry, the random field and the code of the
three of them. -/
theorem splitOn_challengeToken (secret : Bytes) (expiry : Int) {randomHex : Text}
    (h : codePoint '.' ∉ randomHex) :
    (challengeToken secret expiry randomHex).splitOn (codePoint '.') =
      [text "v1", decimal expiry, randomHex, challengeMac secret expiry randomHex] := by
  have hversion : text "v1." = text "v1" ++ [codePoint '.'] := rfl
  have hdot : text "." = [codePoint '.'] := rfl
  have hjoined : challengeToken secret expiry randomHex = text "v1" ++ codePoint '.' ::
      (decimal expiry ++ codePoint '.' ::
        (randomHex ++ codePoint '.' :: challengeMac secret expiry randomHex)) := by
    simp only [challengeToken, challengeMac, authenticatedPart, hversion, hdot, List.append_assoc,
      List.cons_append, List.nil_append]
  rw [hjoined, List.splitOn_append_cons_self_of_not_mem (by decide),
    List.splitOn_append_cons_self_of_not_mem (dot_notMem_decimal expiry),
    List.splitOn_append_cons_self_of_not_mem h, challengeMac,
    List.splitOn_eq_singleton (dot_notMem_hex _)]

/-- The expiry of a token is read back, unless it has too many digits. -/
theorem challengeExpiry_challengeToken (secret : Bytes) (expiry : Int) {randomHex : Text}
    (h : codePoint '.' ∉ randomHex) :
    challengeExpiry (challengeToken secret expiry randomHex) =
      if expiry.natAbs < 10 ^ maxStrDigits then .ok expiry
      else .error (.decision .CHALLENGE_INVALID "challenge has no valid expiry") := by
  rw [challengeExpiry, splitOn_challengeToken secret expiry h]
  simp only [List.getElem?_cons_succ, List.getElem?_cons_zero, Option.bind_some]
  rw [int?_decimal]
  split
  · rfl
  · rfl

/-- Equal tokens have the same expiry and the same random field. -/
theorem challengeToken_inj {secret secret' : Bytes} {expiry expiry' : Int}
    {randomHex randomHex' : Text} (h : codePoint '.' ∉ randomHex) (h' : codePoint '.' ∉ randomHex')
    (heq : challengeToken secret expiry randomHex = challengeToken secret' expiry' randomHex') :
    expiry = expiry' ∧ randomHex = randomHex' := by
  have hfields := splitOn_challengeToken secret expiry h
  rw [heq, splitOn_challengeToken secret' expiry' h'] at hfields
  simp only [List.cons.injEq] at hfields
  obtain ⟨_, hexpiry, hrandom, _⟩ := hfields
  exact ⟨decimal_injective hexpiry.symm, hrandom.symm⟩

/-! ### The issuer -/

/-- `secrets.token_hex` spells random bytes. -/
def RandomHex (_ : History) : Event Op Op.Reply → Prop
  | ⟨.tokenHex n, reply⟩ => ∃ random : Bytes, random.length = n ∧ reply = hex random
  | _ => True

/-- `issue_ca2a_challenge_at` of a time and a positive TTL draws a random field and returns the
token over it with its expiry, unless the released verifier refuses the token. An expiry of too many
digits is not spelled. -/
theorem issueCa2aChallengeAt_exact {L : Type} {l : L} {h : History} {secret : Bytes}
    {now ttlSeconds : Int} (hnow : 0 ≤ now) (httl : 0 < ttlSeconds) :
    Body.Sat RandomHex (fun _ _ ↦ True) (fun h' r _ ↦ ∃ random : Bytes, random.length = 16 ∧
      if now + ttlSeconds < 10 ^ maxStrDigits then ∃ reply : Except Exn Unit,
        h' = h ++ [⟨.tokenHex 16, hex random⟩, ⟨.lib (.verifyChallenge secret
          (challengeToken secret (now + ttlSeconds) (hex random)) now), reply⟩] ∧
        r = reply.map fun _ ↦
          (challengeToken secret (now + ttlSeconds) (hex random), now + ttlSeconds)
      else h' = h ++ [⟨.tokenHex 16, hex random⟩] ∧ ∃ message, r = .error (.value message))
      (issueCa2aChallengeAt secret now ttlSeconds) h l := by
  have hdigits : 10 ^ maxStrDigits ≤ (now + ttlSeconds).natAbs ↔
      ¬now + ttlSeconds < 10 ^ maxStrDigits := by
    rw [not_lt, ← Int.ofNat_le, Int.natAbs_of_nonneg (by omega)]
    norm_cast
  unfold issueCa2aChallengeAt callLib
  apply Body.Sat.raiseIf
  · intro hle
    omega
  intro _
  apply Body.Sat.raiseIf
  · intro hlt
    omega
  intro _
  apply Body.Sat.perform trivial
  rintro _ ⟨random, hlength, rfl⟩
  apply Body.Sat.raiseIf
  · intro hnone
    refine ⟨random, hlength, ?_⟩
    rw [if_neg (hdigits.mp (str?_eq_none_iff.mp hnone))]
    exact ⟨rfl, _, rfl⟩
  intro hsome
  have hlt : now + ttlSeconds < 10 ^ maxStrDigits :=
    not_not.mp fun hnot ↦ hsome (str?_eq_none_iff.mpr (hdigits.mpr hnot))
  apply Body.Sat.invoke trivial
  · rintro reply e _ rfl
    refine ⟨random, hlength, ?_⟩
    rw [if_pos hlt]
    exact ⟨.error e, by simp, rfl⟩
  · rintro reply u _ rfl
    refine ⟨random, hlength, ?_⟩
    rw [if_pos hlt]
    exact ⟨.ok u, by simp, rfl⟩

/-- Over an expiry of too many digits the issuer draws a random field and raises. -/
theorem issueCa2aChallengeAt_of_long {secret : Bytes} {now ttlSeconds : Int} (hnow : 0 ≤ now)
    (httl : 0 < ttlSeconds) (hlong : 10 ^ maxStrDigits ≤ (now + ttlSeconds).natAbs) :
    (issueCa2aChallengeAt secret now ttlSeconds : Py Unit (Text × Int)).prog =
      .call (.tokenHex 16) fun _ ↦ .done (.error
        (.value "Exceeds the limit (4300 digits) for integer string conversion")) := by
  have hspelled : str? (now + ttlSeconds) = none := str?_eq_none_iff.mpr hlong
  unfold issueCa2aChallengeAt Body.raiseIf raiseIf
  rw [if_neg (not_le.mpr httl), if_neg (not_lt.mpr hnow)]
  simp only [hspelled, if_true]
  rfl

end Atcap
