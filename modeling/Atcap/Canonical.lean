import Atcap.Base.Sha256
import Atcap.Base.JsonCanonical
import Atcap.Errors

/-!
# Canonical encodings and digests

`src/atcap/canonical.py`. The released packages behind the pure functions of the services,
`rfc8785` and `joserfc`, are parameters of the whole development; what a result relies on
of them is stated there as a hypothesis.
-/

namespace Atcap

open Base

/-- The released packages that the services call as pure functions. -/
structure Libraries where
  /-- `rfc8785.dumps(value)`. -/
  rfc8785Dumps : Value → Except Exn Bytes
  /-- `jws.serialize_compact(protected, payload, key, algorithms=["Ed25519"])`. -/
  jwsSerializeCompact : Value → Bytes → Bytes → Except Exn Text
  /-- `jws.deserialize_compact(compact, key, algorithms=["Ed25519"])`: the protected header and
  the payload. -/
  jwsDeserializeCompact : Text → Bytes → Except Exn (Value × Bytes)
  /-- `OKPKey.import_key(key.as_dict(private=False))`. -/
  jwkPublic : Bytes → Bytes
  /-- `repr(x)` of a finite `float`. -/
  floatRepr : BitVec 64 → Text
  /-- `float(text)` of a decimal spelling. -/
  floatOf : Text → BitVec 64

variable (lib : Libraries)

/-- `canonical_json`: RFC 8785 canonical JSON bytes. -/
def canonicalJson (v : Value) : Except Exn Bytes := lib.rfc8785Dumps v

/-- `json.loads`, with the limit of 4300 digits for an integer. -/
def jsonLoads (b : Bytes) : Option Value := Json.loads ⟨4300, lib.floatOf, false⟩ b

/-- `sha256_hex`: a lower-case SHA-256 digest without an algorithm prefix. -/
def sha256Hex (data : Bytes) : Text := hex (sha256 data)

/-- SHA-256 collides on two byte strings. -/
def Collides (a b : Bytes) : Prop := a ≠ b ∧ sha256 a = sha256 b

/-- `canonical_digest`: the SHA-256 digest of an RFC 8785 value. -/
def canonicalDigest (v : Value) : Except Exn Text := do
  let data ← canonicalJson lib v
  return sha256Hex data

/-- `str.encode("utf-8")`. -/
def encodeUtf8 (t : Text) : Except Exn Bytes :=
  match t.encode with
  | some b => .ok b
  | none => .error .unicodeEncode

/-- `challenge_token_hash`: hash a bearer challenge before persisting it. -/
def challengeTokenHash (token : Text) : Except Exn Text := do
  let data ← encodeUtf8 token
  return sha256Hex data

/-- A digest spells 64 lower-case hexadecimal digits. -/
@[simp] theorem isLowerHexOf_sha256Hex (data : Bytes) :
    Text.isLowerHexOf 64 (sha256Hex data) = true := by
  apply isLowerHexOf_hex
  rw [length_sha256]

/-- A digest has a UTF-8 encoding. -/
@[simp] theorem encodable_sha256Hex (data : Bytes) : Text.encodable (sha256Hex data) = true :=
  encodable_hex _

/-- A digest is not empty. -/
@[simp] theorem truthy_sha256Hex (data : Bytes) : truthy (some (sha256Hex data)) = true := by
  have hl : (sha256Hex data).length = 64 := by
    rw [sha256Hex, length_hex, length_sha256]
  cases h : sha256Hex data with
  | nil => rw [h] at hl; cases hl
  | cons c rest => rfl

/-- A token hash is the digest of the token's UTF-8 bytes. -/
theorem challengeTokenHash_eq_ok {token hash : Text} (h : challengeTokenHash token = .ok hash) :
    Text.encodable token = true ∧ hash = sha256Hex (utf8 token) := by
  unfold challengeTokenHash encodeUtf8 Text.encode at h
  cases he : Text.encodable token with
  | false => simp [he, bind, Except.bind] at h
  | true =>
    simp only [he, ↓reduceIte, bind, Except.bind, pure, Except.pure, Except.ok.injEq] at h
    exact ⟨rfl, h.symm⟩

/-- A token without lone surrogates has a hash. -/
theorem challengeTokenHash_of_encodable {token : Text} (h : token.encodable = true) :
    challengeTokenHash token = .ok (sha256Hex (utf8 token)) := by
  unfold challengeTokenHash encodeUtf8 Text.encode
  rw [h]
  rfl

/-- A canonical digest is the digest of the canonical bytes. -/
theorem canonicalDigest_eq_ok {lib : Libraries} {v : Value} {digest : Text}
    (h : canonicalDigest lib v = .ok digest) :
    ∃ data, canonicalJson lib v = .ok data ∧ digest = sha256Hex data := by
  unfold canonicalDigest at h
  cases hd : canonicalJson lib v with
  | error e => simp [hd, bind, Except.bind] at h
  | ok data =>
    simp only [hd, bind, Except.bind, pure, Except.pure, Except.ok.injEq] at h
    exact ⟨data, rfl, h.symm⟩

/-! ### What the services rely on of `rfc8785` -/

/-- The documented behaviour of `rfc8785.dumps`. A Python dictionary has distinct keys, so nothing
is said about an association list that has not. -/
structure Rfc8785 (lib : Libraries) : Prop where
  /-- A value without a canonical form raises `CanonicalizationError`, a `ValueError`. -/
  rejects : ∀ v, v.distinctKeys = true → Json.canonicalizable v = false →
    ∃ message, lib.rfc8785Dumps v = .error (.value message)
  /-- Every other value has an encoding. -/
  accepts : ∀ v, v.distinctKeys = true → Json.canonicalizable v = true →
    ∃ data, lib.rfc8785Dumps v = .ok data
  /-- Without floating-point numbers it is the UTF-8 encoding of the canonical text. -/
  canonical : ∀ v t, v.distinctKeys = true → Json.canonicalizable v = true →
    Json.canonicalText v = some t → lib.rfc8785Dumps v = .ok (utf8 t)

namespace Rfc8785

variable {lib : Libraries} (law : Rfc8785 lib) {v w : Value} {data : Bytes}
include law

/-- A value is encoded exactly when it has a canonical form. -/
theorem isOk_iff (hk : v.distinctKeys = true) :
    (∃ data, canonicalJson lib v = .ok data) ↔ Json.canonicalizable v = true := by
  constructor
  · rintro ⟨data, hd⟩
    cases hc : Json.canonicalizable v with
    | true => rfl
    | false =>
      obtain ⟨message, he⟩ := law.rejects v hk hc
      rw [canonicalJson, he] at hd
      cases hd
  · exact law.accepts v hk

/-- The encoding of a value without floating-point numbers. -/
theorem canonicalJson_eq_ok (hk : v.distinctKeys = true) (hf : Json.floatFree v = true) :
    canonicalJson lib v = .ok data ↔
      Json.canonicalizable v = true ∧ ∃ t, Json.canonicalText v = some t ∧ data = utf8 t := by
  constructor
  · intro hd
    have hc := (law.isOk_iff hk).mp ⟨data, hd⟩
    obtain ⟨t, ht⟩ := Json.exists_canonicalText hc hf
    rw [canonicalJson, law.canonical v t hk hc ht, Except.ok.injEq] at hd
    exact ⟨hc, t, ht, hd.symm⟩
  · rintro ⟨hc, t, ht, rfl⟩
    exact law.canonical v t hk hc ht

/-- A value with a canonical form has a digest. -/
theorem exists_canonicalDigest (hk : v.distinctKeys = true)
    (hc : Json.canonicalizable v = true) : ∃ digest, canonicalDigest lib v = .ok digest := by
  obtain ⟨data, hdata⟩ := (law.isOk_iff hk).mpr hc
  exact ⟨sha256Hex data, by rw [canonicalDigest, hdata]; rfl⟩

/-- The digest of a canonical text. -/
theorem canonicalDigest_eq (hk : v.distinctKeys = true) (hc : Json.canonicalizable v = true)
    {t : Text} (ht : Json.canonicalText v = some t) :
    canonicalDigest lib v = .ok (sha256Hex (utf8 t)) := by
  rw [canonicalDigest, canonicalJson, law.canonical v t hk hc ht]
  rfl

/-- Values that differ in the order of members only have the same encoding. -/
theorem canonicalJson_congr (hk : v.distinctKeys = true) (hf : Json.floatFree v = true)
    (h : Json.sorted v = Json.sorted w) :
    canonicalJson lib v = .ok data ↔ canonicalJson lib w = .ok data := by
  have hk' : w.distinctKeys = true := by rw [← Json.distinctKeys_sorted, ← h]; simpa using hk
  have hf' : Json.floatFree w = true := by rw [← Json.floatFree_sorted, ← h]; simpa using hf
  rw [law.canonicalJson_eq_ok hk hf, law.canonicalJson_eq_ok hk' hf', Json.canonicalText,
    Json.canonicalText, ← Json.canonicalizable_sorted, h, Json.canonicalizable_sorted]

/-- `json.loads` reads the encoding of an object back. -/
theorem jsonLoads_canonicalJson {m : List (Text × Value)}
    (hk : (Value.dict m).distinctKeys = true) (hf : Json.floatFree (.dict m) = true)
    (h : canonicalJson lib (.dict m) = .ok data) :
    jsonLoads lib data = some (Json.sorted (.dict m)) := by
  obtain ⟨-, t, ht, rfl⟩ := (law.canonicalJson_eq_ok hk hf).mp h
  exact Json.loads_canonicalText (d := ⟨4300, lib.floatOf, false⟩) (show 16 ≤ 4300 by decide) hk ht

/-- Two objects with one digest have the same sorted form, unless SHA-256 collides on their
encodings. -/
theorem sorted_eq_of_digest {m m' : List (Text × Value)} {digest : Text}
    (hk : (Value.dict m).distinctKeys = true) (hf : Json.floatFree (.dict m) = true)
    (hk' : (Value.dict m').distinctKeys = true) (hf' : Json.floatFree (.dict m') = true)
    (h : canonicalDigest lib (.dict m) = .ok digest)
    (h' : canonicalDigest lib (.dict m') = .ok digest) :
    Json.sorted (.dict m) = Json.sorted (.dict m') ∨
      ∃ data data', canonicalJson lib (.dict m) = .ok data ∧
        canonicalJson lib (.dict m') = .ok data' ∧ Collides data data' := by
  obtain ⟨data, hdata, rfl⟩ := canonicalDigest_eq_ok h
  obtain ⟨data', hdata', hdigest⟩ := canonicalDigest_eq_ok h'
  by_cases hsame : data = data'
  · subst hsame
    left
    have hloads := law.jsonLoads_canonicalJson hk hf hdata
    rw [law.jsonLoads_canonicalJson hk' hf' hdata', Option.some.injEq] at hloads
    exact hloads.symm
  · exact .inr ⟨data, data', hdata, hdata', hsame, hex_injective hdigest⟩

end Rfc8785

end Atcap
