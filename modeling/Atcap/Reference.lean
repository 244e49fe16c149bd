import Atcap.Receipt

/-!
# A stand-in for the released packages

The behaviour that results assume of `rfc8785` and `joserfc` is consistent: `standIn` has it. Its
canonical JSON is the one of RFC 8785 for every value without floating-point numbers. Its compact
signature spells the parts in hexadecimal, and a signature is the key itself.
-/

namespace Atcap

open Base

namespace StandIn

/-- Split a text at its first full stop. -/
def splitDot (t : Text) : Text × Text :=
  (t.takeWhile fun c ↦ decide (c.val ≠ 46), (t.dropWhile fun c ↦ decide (c.val ≠ 46)).drop 1)

/-- A hexadecimal spelling has no full stop. -/
theorem splitDot_hex (b : Bytes) (rest : Text) :
    splitDot (hex b ++ codePoint '.' :: rest) = (hex b, rest) := by
  have hdot : ∀ c ∈ hex b, decide (c.val ≠ 46) = true := by
    intro c hc
    have hhex := List.all_eq_true.mp (all_isLowerHex_hex b) c hc
    simp only [isLowerHex, Bool.or_eq_true, Bool.and_eq_true, decide_eq_true_eq] at hhex
    simp only [decide_eq_true_eq]
    omega
  rw [splitDot, List.takeWhile_append_of_pos hdot, List.dropWhile_append_of_pos hdot]
  simp [codePoint]

/-- The protected header, the payload and the key, in hexadecimal. -/
def serialize (header : Value) (payload key : Bytes) : Except Exn Text :=
  match Json.canonicalText header with
  | some t => .ok (hex (utf8 t) ++ codePoint '.' :: (hex payload ++ codePoint '.' :: hex key))
  | none => .error (.value "header")

/-- The parts of what `serialize` wrote under the same key. -/
def deserialize (floatOf : Text → BitVec 64) (compact : Text) (key : Bytes) :
    Except Exn (Value × Bytes) := do
  let (header, rest) := splitDot compact
  let (payload, signature) := splitDot rest
  raiseIf (fromHex signature ≠ some key) (.value "signature")
  let header ← orRaise ((fromHex header).bind (Json.loads ⟨4300, floatOf, false⟩)) (.value "header")
  let payload ← orRaise (fromHex payload) (.value "payload")
  return (header, payload)

end StandIn

/-- Packages with the documented behaviour. -/
def standIn : Libraries where
  rfc8785Dumps v := if Json.canonicalizable v then .ok ((Json.canonicalText v).elim [] utf8)
    else .error (.value "no canonical form")
  jwsSerializeCompact := StandIn.serialize
  jwsDeserializeCompact := StandIn.deserialize fun _ ↦ 0#64
  jwkPublic key := key
  floatRepr _ := []
  floatOf _ := 0#64

/-- The stand-in has the behaviour of `rfc8785`. -/
theorem rfc8785_standIn : Rfc8785 standIn where
  rejects v _ hc := ⟨_, if_neg (by rw [hc]; decide)⟩
  accepts v _ hc := ⟨_, if_pos hc⟩
  canonical v t _ hc ht := by
    change (if Json.canonicalizable v then _ else _) = _
    rw [if_pos hc, ht]
    rfl

/-- What the stand-in signed under a header with its members in order is verified to the same
header and payload. -/
theorem deserialize_serialize_dict {m : List (Text × Value)} {compact : Text} {payload key : Bytes}
    (hk : (Value.dict m).distinctKeys = true) (hs : Json.sorted (.dict m) = .dict m)
    (h : standIn.jwsSerializeCompact (.dict m) payload key = .ok compact) :
    standIn.jwsDeserializeCompact compact key = .ok (.dict m, payload) := by
  simp only [standIn, StandIn.serialize] at h
  split at h
  · next t ht =>
    cases h
    have hloads : Json.loads ⟨4300, fun _ ↦ 0#64, false⟩ (utf8 t) = some (.dict m) := by
      rw [← hs]
      exact Json.loads_canonicalText (show 16 ≤ 4300 by decide) hk ht
    simp only [standIn, StandIn.deserialize, StandIn.splitDot_hex, fromHex_hex, bind_eq_ok,
      raiseIf_eq_ok, orRaise_eq_ok, Option.bind_some, hloads]
    exact ⟨(), by simp, _, rfl, _, rfl, rfl⟩
  · cases h

/-- What the stand-in signed is verified to the same header and payload. -/
theorem deserialize_serialize_standIn {keyId compact : Text} {payload key : Bytes}
    (h : standIn.jwsSerializeCompact (protectedHeader keyId) payload key = .ok compact) :
    standIn.jwsDeserializeCompact compact key = .ok (protectedHeader keyId, payload) :=
  deserialize_serialize_dict rfl rfl h

/-- The stand-in signs every payload. -/
theorem exists_serialize_standIn (keyId : Text) (payload key : Bytes) :
    ∃ compact, standIn.jwsSerializeCompact (protectedHeader keyId) payload key = .ok compact :=
  ⟨_, rfl⟩

end Atcap
