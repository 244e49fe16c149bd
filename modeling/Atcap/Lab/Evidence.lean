import Mathlib.Algebra.Group.Action.Defs
import Atcap.Base.JsonSize
import Atcap.Lab.RecordTrace

/-!
# Evidence bundles

`verify_evidence_bundle` of `lab/live_cli.py`: the public files of an experiment are the bytes of
its signed record, and one JWS has one record file.
-/

namespace Atcap

open Base

namespace Lab

open Strict

/-! ### Evidence bundles -/

/-- The fields of `PublicExperimentVerifier`. -/
structure PublicExperimentVerifierFields where
  keyId : ShortText 128
  publicJwk : Ed25519PublicJwk

/-- `_matching_key_id`. -/
def PublicExperimentVerifierFields.check (v : PublicExperimentVerifierFields) : Except Exn Unit :=
  raiseIf (v.publicJwk.kid ≠ v.keyId)
    (.validation "experiment verifier key ID disagrees with its public JWK")

/-- `PublicExperimentVerifier.model_validate`. -/
def PublicExperimentVerifierFields.modelValidate :
    Value → Except Exn (Validated PublicExperimentVerifierFields.check) :=
  model ["schema_version", "key_id", "public_jwk"] fun m ↦ do
    field m (text "schema_version") (literal (text "atcap-runpod-experiment-verifier/v1"))
    let keyId ← field m (text "key_id") (readPattern (isBounded 1 128))
    let publicJwk ← field m (text "public_jwk") Ed25519PublicJwk.modelValidate
    construct PublicExperimentVerifierFields.check { keyId, publicJwk }

/-- `PublicExperimentVerifier.model_dump(mode="json")`. -/
def PublicExperimentVerifierFields.modelDump (v : PublicExperimentVerifierFields) : Value :=
  .dict [(text "schema_version", .str (text "atcap-runpod-experiment-verifier/v1")),
    (text "key_id", .str v.keyId.val), (text "public_jwk", v.publicJwk.modelDump)]

/-- A dumped published verifier of a record is read back. -/
theorem PublicExperimentVerifierFields.restores_modelValidate :
    Restores PublicExperimentVerifierFields.modelValidate fun v ↦ v.val.modelDump := by
  have hl := @restores_literal
  have hp := @restores_readPattern
  have hk := Ed25519PublicJwk.restores_modelValidate
  apply restores_model (by decide)
  · intro v
    rfl
  · intro v
    simp only [List.forall_mem_cons]
    exact ⟨(hl _).plain _ (), (hp _).plain _ _, hk.plain _ _, List.forall_mem_nil _⟩
  · intro m v h
    simp only [List.forall_mem_cons] at h
    obtain ⟨h₁, h₂, h₃, -⟩ := h
    simp only [bind_eq_ok]
    exact ⟨(), (hl _).field h₁, _, (hp _).field h₂, _, hk.field h₃, construct_of_check v.property⟩

/-- `MAX_EXPERIMENT_RECORD_BYTES`. -/
def maxExperimentRecordBytes : Nat := 4194304

/-- `MAX_EXPERIMENT_VERIFIER_BYTES`. -/
def maxExperimentVerifierBytes : Nat := 16384

/-- The three files of an evidence directory, those that can be read as regular files. -/
structure EvidenceDir where
  verifier : Option Bytes
  record : Option Bytes
  jws : Option Bytes

/-- `_read_bounded_regular_file`. -/
def readBoundedRegularFile (limit : Nat) (file : Option Bytes) : Except Exn Bytes := do
  let raw ← orRaise file .other
  raiseIf (limit < raw.length) (.value "evidence file exceeds its verification bound")
  return raw

/-- `bytes.decode("ascii")`. -/
def decodeAscii (raw : Bytes) : Except Exn Text :=
  if raw.all (fun b ↦ decide (b.toNat < 0x80)) then
    orRaise (raw.mapM fun b ↦ codePoint? b.toNat) (.value "UnicodeDecodeError")
  else .error (.value "UnicodeDecodeError")

/-- The body of the `try` statement of `verify_evidence_bundle`. -/
def EvidenceDir.decode (lib : Libraries) (importKey : ImportKey) (dir : EvidenceDir) :
    Except Exn SignedExperimentRecord := do
  let verifierRaw ← readBoundedRegularFile maxExperimentVerifierBytes dir.verifier
  let recordRaw ← readBoundedRegularFile maxExperimentRecordBytes dir.record
  let jwsRaw ← readBoundedRegularFile maxExperimentRecordBytes dir.jws
  let verifierDecoded ← strictJsonObject lib verifierRaw
  let recordDecoded ← strictJsonObject lib recordRaw
  let verifierData ← canonicalJson lib verifierDecoded
  raiseIf (verifierData ≠ verifierRaw) (.value "experiment verifier is not canonical")
  let recordData ← canonicalJson lib recordDecoded
  raiseIf (recordData ≠ recordRaw) (.value "experiment record projection is not canonical")
  raiseIf (jwsRaw.getLast? ≠ some 10 ∨ jwsRaw.count 10 ≠ 1)
    (.value "experiment JWS file has unexpected framing")
  let document ← PublicExperimentVerifierFields.modelValidate verifierDecoded
  let compact ← decodeAscii jwsRaw.dropLast
  let compactJws ← checked isNonempty compact
  let verifier ← ExperimentRecordVerifier.fromPublicJwk importKey document.val.publicJwk
    document.val.keyId.val
  let payload ← verifier.verify lib importKey ⟨compactJws⟩
  let projected ← canonicalJson lib payload.val.modelDump
  raiseIf (projected ≠ recordRaw)
    (.value "record projection does not match the authenticated JWS payload")
  return ⟨compactJws⟩

/-- `verify_evidence_bundle`. -/
def verifyEvidenceBundle (lib : Libraries) (importKey : ImportKey) (dir : EvidenceDir) :
    Except Exn SignedExperimentRecord :=
  (dir.decode lib importKey).mapError fun _ ↦
    .value "experiment evidence bundle verification failed"

/-- An ASCII text is encoded as the bytes it was decoded from. -/
theorem utf8_of_decodeAscii {raw : Bytes} {t : Text} (h : decodeAscii raw = .ok t) :
    utf8 t = raw := by
  unfold decodeAscii at h
  split at h
  · next hascii =>
    rw [orRaise_eq_ok] at h
    rw [List.all_eq_true] at hascii
    induction raw generalizing t with
    | nil =>
      cases h
      rfl
    | cons b raw ih =>
      rw [List.forall_mem_cons, decide_eq_true_eq] at hascii
      simp only [List.mapM_cons, Option.bind_eq_bind, Option.bind_eq_some_iff, Option.pure_def,
        Option.some.injEq] at h
      obtain ⟨c, hc, rest, hrest, rfl⟩ := h
      have hval : c.val = b.toNat := by
        unfold codePoint? at hc
        split at hc
        · cases hc
          rfl
        · cases hc
      have hone : utf8CodePoint c = [b] := by
        rw [utf8CodePoint, if_pos (by omega), hval, UInt8.ofNat_toNat]
      rw [utf8, List.flatMap_cons, hone, List.singleton_append, List.cons.injEq]
      exact ⟨rfl, ih hascii.2 hrest⟩
  · cases h

/-- The bytes of an ASCII text are decoded to it. -/
theorem decodeAscii_utf8 {t : Text} (h : ∀ c ∈ t, c.val < 128) : decodeAscii (utf8 t) = .ok t := by
  have hbytes : ∀ t : Text, (∀ c ∈ t, c.val < 128) →
      (utf8 t).all (fun b ↦ decide (b.toNat < 0x80)) = true ∧
        (utf8 t).mapM (fun b ↦ codePoint? b.toNat) = some t := by
    intro t h
    induction t with
    | nil => exact ⟨rfl, rfl⟩
    | cons c t ih =>
      rw [List.forall_mem_cons] at h
      obtain ⟨hall, hmap⟩ := ih h.2
      have hval : (UInt8.ofNat c.val).toNat = c.val := by
        rw [UInt8.toNat_ofNat']
        omega
      have hone : codePoint? (UInt8.ofNat c.val).toNat = some c := by
        rw [hval, codePoint?, dif_pos c.isLt]
      have hcons : utf8 (c :: t) = UInt8.ofNat c.val :: utf8 t := by
        rw [utf8, List.flatMap_cons, utf8CodePoint, if_pos h.1, List.singleton_append, ← utf8]
      rw [hcons]
      refine ⟨?_, ?_⟩
      · rw [List.all_cons, hall, hval, decide_eq_true h.1]
        rfl
      · simp only [List.mapM_cons, hone, hmap, Option.bind_eq_bind, Option.bind_some,
          Option.pure_def]
  obtain ⟨hall, hmap⟩ := hbytes t h
  rw [decodeAscii, if_pos hall, hmap]
  rfl

/-- The payload of a compact JWS is a part of its text, whichever key verifies it. -/
def PayloadOfText (lib : Libraries) : Prop :=
  ∀ compact key key' header header' payload payload',
    lib.jwsDeserializeCompact compact key = .ok (header, payload) →
    lib.jwsDeserializeCompact compact key' = .ok (header', payload') → payload = payload'

/-- The payload of the stand-in is the second part of its text. -/
theorem payloadOfText_standIn : PayloadOfText standIn := by
  intro compact key key' header header' payload payload' h h'
  simp only [standIn, StandIn.deserialize, bind_eq_ok, raiseIf_eq_ok, orRaise_eq_ok, pure,
    Except.pure, Except.ok.injEq, Prod.mk.injEq] at h h'
  obtain ⟨_, -, _, -, _, hpayload, -, rfl⟩ := h
  obtain ⟨_, -, _, -, _, hpayload', -, rfl⟩ := h'
  rw [hpayload, Option.some.injEq] at hpayload'
  exact hpayload'

/-- What an accepted bundle consists of. -/
theorem verifyEvidenceBundle_ok {lib : Libraries} (law : Rfc8785 lib) {importKey : ImportKey}
    {dir : EvidenceDir} {signed : SignedExperimentRecord}
    (h : verifyEvidenceBundle lib importKey dir = .ok signed) :
    ∃ (r : ExperimentRecordVerifier) (record : Bytes) (header : Value)
      (p : ExperimentRecordPayload),
      dir.record = some record ∧
      dir.jws = some (utf8 signed.compactJws.val ++ [10]) ∧
      (10 : UInt8) ∉ utf8 signed.compactJws.val ∧
      lib.jwsDeserializeCompact signed.compactJws.val r.publicKey = .ok (header, record) ∧
      r.verify lib importKey signed = .ok p ∧
      canonicalJson lib p.val.modelDump = .ok record := by
  rw [verifyEvidenceBundle, mapError_eq_ok] at h
  simp only [EvidenceDir.decode, readBoundedRegularFile, bind_eq_ok, raiseIf_eq_ok, orRaise_eq_ok,
    pure, Except.pure, Except.ok.injEq, not_or, ne_eq, not_not] at h
  obtain ⟨_, -, _, ⟨record, hrecord, _, -, rfl⟩, _, ⟨jws, hjws, _, -, rfl⟩, _, -, _, -, _, -, _, -,
    _, -, _, -, _, hframe, document, -, compact, hcompact, compactJws, hchecked, r, -, p, hverify,
    projected, hprojected, _, rfl, rfl⟩ := h
  have hval : compactJws.val = compact := by
    unfold checked at hchecked
    split at hchecked
    · cases hchecked
      rfl
    · cases hchecked
  have hascii : utf8 compactJws.val = jws.dropLast := by
    rw [hval]
    exact utf8_of_decodeAscii hcompact
  have hsplit : jws = utf8 compactJws.val ++ [10] := by
    rw [hascii]
    exact (List.dropLast_append_getLast? 10 hframe.1).symm
  obtain ⟨header, payload, hsigned, hparse, -⟩ := ExperimentRecordVerifier.verify_eq_ok hverify
  have hdump := parseCanonical_dump law ExperimentRecordFields.mirrors_modelValidate hparse
  rw [hprojected, Except.ok.injEq] at hdump
  subst hdump
  refine ⟨r, projected, header, p, hrecord, by rw [hjws, ← hsplit], ?_, hsigned, hverify,
    hprojected⟩
  -- One newline in the file, and it is the last byte.
  intro hmem
  have hcount := hframe.2
  rw [hsplit, List.count_append, List.count_singleton_self] at hcount
  have hpos : 0 < (utf8 compactJws.val).count 10 := List.count_pos_iff.mpr hmem
  omega

/-- What `finalize` publishes of a record that its verifier accepts is an accepted bundle: the
canonical encodings of the verifier and of the payload, and the compact JWS with one newline. -/
theorem verifyEvidenceBundle_of_published {lib : Libraries} (law : Rfc8785 lib)
    {importKey : ImportKey} {document : Validated PublicExperimentVerifierFields.check}
    {key : Bytes} {signed : SignedExperimentRecord} {p : ExperimentRecordPayload}
    {verifier record : Bytes}
    (hkey : importKey document.val.publicJwk.modelDump = .ok key)
    (hverify : (⟨key, document.val.keyId.val⟩ : ExperimentRecordVerifier).verify lib importKey
      signed = .ok p)
    (hverifier : canonicalJson lib document.val.modelDump = .ok verifier)
    (hrecord : canonicalJson lib p.val.modelDump = .ok record)
    (hascii : ∀ c ∈ signed.compactJws.val, c.val < 128 ∧ c.val ≠ 10)
    (hsize : verifier.length ≤ maxExperimentVerifierBytes ∧
      record.length ≤ maxExperimentRecordBytes ∧
      signed.compactJws.val.length < maxExperimentRecordBytes) :
    verifyEvidenceBundle lib importKey
      ⟨some verifier, some record, some (utf8 signed.compactJws.val ++ [10])⟩ = .ok signed := by
  have hdocument := parseCanonical_of_dump law
    PublicExperimentVerifierFields.restores_modelValidate
    "experiment verifier is not canonical" hverifier
  have hpayload := parseCanonical_of_dump law ExperimentRecordFields.restores_modelValidate
    "experiment record projection is not canonical" hrecord
  simp only [parseCanonical, bind_eq_ok, raiseIf_eq_ok] at hdocument hpayload
  obtain ⟨decoded, hdecoded, data, hdata, _, hsame, hvalidate⟩ := hdocument
  obtain ⟨decoded', hdecoded', data', hdata', _, hsame', -⟩ := hpayload
  have hlow : ∀ c ∈ signed.compactJws.val, c.val < 128 := fun c hc ↦ (hascii c hc).1
  have hnewline : (10 : UInt8) ∉ utf8 signed.compactJws.val := by
    intro hmem
    obtain ⟨c, hc, hbyte⟩ := List.mem_flatMap.mp hmem
    obtain ⟨hlt, hne⟩ := hascii c hc
    rw [utf8CodePoint, if_pos hlt, List.mem_singleton] at hbyte
    have hval := congrArg UInt8.toNat hbyte
    rw [UInt8.toNat_ofNat'] at hval
    change 10 = c.val % 256 at hval
    omega
  have hframe : (utf8 signed.compactJws.val ++ [10]).getLast? = some 10 ∧
      (utf8 signed.compactJws.val ++ [10]).count 10 = 1 := by
    rw [List.getLast?_concat, List.count_append, List.count_eq_zero.mpr hnewline]
    exact ⟨rfl, rfl⟩
  have hlength := length_utf8_of_ascii hlow
  rw [verifyEvidenceBundle, mapError_eq_ok]
  simp only [EvidenceDir.decode, readBoundedRegularFile, bind_eq_ok, raiseIf_eq_ok, orRaise_eq_ok,
    pure, Except.pure, Except.ok.injEq]
  refine ⟨verifier, ⟨verifier, rfl, (), not_lt.mpr hsize.1, rfl⟩, record,
    ⟨record, rfl, (), not_lt.mpr hsize.2.1, rfl⟩, _, ⟨_, rfl, (), not_lt.mpr ?_, rfl⟩, decoded,
    hdecoded, decoded', hdecoded', data, hdata, (), hsame, data', hdata', (), hsame', (), ?_,
    document, hvalidate, signed.compactJws.val, ?_, signed.compactJws, ?_, _, ?_, p, hverify,
    record, hrecord, (), not_not.mpr rfl, rfl⟩
  · rw [List.length_append, List.length_singleton, hlength]
    exact hsize.2.2
  · rw [hframe.1, hframe.2]
    simp
  · rw [List.dropLast_concat]
    exact decodeAscii_utf8 hlow
  · rw [checked, dif_pos signed.compactJws.property]
  · rw [ExperimentRecordVerifier.fromPublicJwk, hkey]
    rfl

/-! ### Sizes of dumps -/

-- A dump is split at its long members, so that its size is computed without them.

private def dumped : Value → List (Text × Value)
  | .dict m => m
  | _ => []

private def AttemptFields.receipted (a : AttemptFields) (jws : NonemptyText) : AttemptFields :=
  { a with receiptJws := jws }

private def CaseFields.emptied (c : CaseFields) (jws : NonemptyText) : CaseFields :=
  { c with brokerReceiptJws := jws, attempts := [] }

private def ExperimentRecordFields.dumpWith (p : ExperimentRecordFields)
    (boundary disclaimer : Text) (cases : List Value) : Value :=
  .dict ((dumped p.modelDump).take 6 ++ (text "trust_boundary", .str boundary) ::
    (text "assurance_disclaimer", .str disclaimer) ::
      (((dumped p.modelDump).drop 8).take 16 ++ [(text "cases", .list cases)]))

private theorem AttemptFields.size_modelDump (a : AttemptFields) (jws : NonemptyText) :
    Json.size a.modelDump + 6 * jws.val.length =
      Json.size (a.receipted jws).modelDump + 6 * a.receiptJws.val.length := by
  have hmember : ∀ jws : NonemptyText, (a.receipted jws).modelDump =
      .dict ((dumped a.modelDump).take 7 ++
        (text "receipt_jws", .str jws.val) :: (dumped a.modelDump).drop 8) := fun _ ↦ rfl
  have hsize : Json.size a.modelDump + Json.size (.str jws.val) =
      Json.size (a.receipted jws).modelDump + Json.size (.str a.receiptJws.val) :=
    Json.size_member hmember a.receiptJws jws
  simp only [Json.size] at hsize
  omega

private theorem CaseFields.size_modelDump (c : CaseFields) (jws : NonemptyText) :
    Json.size c.modelDump + 6 * jws.val.length =
      Json.size (c.emptied jws).modelDump + 6 * c.brokerReceiptJws.val.length +
        (c.attempts.map fun a ↦ Json.size a.val.modelDump + 1).sum := by
  have hreceipt : ∀ jws : NonemptyText, { c with brokerReceiptJws := jws }.modelDump =
      .dict ((dumped c.modelDump).take 2 ++
        (text "broker_receipt_jws", .str jws.val) :: (dumped c.modelDump).drop 3) := fun _ ↦ rfl
  have hattempts : ∀ attempts : List AttemptObservation,
      { c with brokerReceiptJws := jws, attempts := attempts }.modelDump =
        .dict ((dumped { c with brokerReceiptJws := jws }.modelDump).take 10 ++
          (text "attempts", .list (attempts.map fun a ↦ a.val.modelDump)) ::
            (dumped c.modelDump).drop 11) := fun _ ↦ rfl
  have hsize : Json.size c.modelDump + Json.size (.str jws.val) =
      Json.size { c with brokerReceiptJws := jws }.modelDump +
        Json.size (.str c.brokerReceiptJws.val) :=
    Json.size_member hreceipt c.brokerReceiptJws jws
  have hsize' : Json.size { c with brokerReceiptJws := jws }.modelDump + Json.size (.list []) =
      Json.size (c.emptied jws).modelDump +
        Json.size (.list (c.attempts.map fun a ↦ a.val.modelDump)) :=
    Json.size_member hattempts c.attempts []
  rw [Json.size_list, Json.size_list, List.map_map, List.map_nil, List.sum_nil,
    Function.comp_def] at hsize'
  simp only [Json.size] at hsize
  omega

private theorem ExperimentRecordFields.size_dumpWith (p : ExperimentRecordFields)
    (boundary disclaimer : Text) (cases : List Value) :
    Json.size (p.dumpWith boundary disclaimer cases) = Json.size (p.dumpWith [] [] []) +
      6 * boundary.length + 6 * disclaimer.length +
        (cases.map fun v ↦ Json.size v + 1).sum := by
  unfold dumpWith
  generalize (dumped p.modelDump).take 6 = front, ((dumped p.modelDump).drop 8).take 16 = back
  simp only [Json.size_dict, Json.size_list, List.map_append, List.sum_append, List.map_cons,
    List.sum_cons, List.map_nil, List.sum_nil]
  simp only [Json.size, List.length_nil]
  omega

private theorem ExperimentRecordFields.modelDump_eq (p : ExperimentRecordFields) :
    p.modelDump = p.dumpWith trustBoundary assuranceDisclaimer
      (p.cases.map fun c ↦ c.val.modelDump) := rfl

/-! ### Exact projections -/

/-- Projections are byte-exact. The record file of an accepted bundle is the authenticated payload
of its JWS and the canonical encoding of the returned payload, the JWS file is the compact JWS and
one newline, and one JWS has one record file. What a response parser returns has its input as
canonical encoding. -/
theorem projection_exact {lib : Libraries} (law : Rfc8785 lib) (htext : PayloadOfText lib)
    (importKey : ImportKey) :
    (∀ dir signed, verifyEvidenceBundle lib importKey dir = .ok signed →
      ∃ (r : ExperimentRecordVerifier) (record : Bytes) (header : Value)
        (p : ExperimentRecordPayload),
        dir.record = some record ∧
        dir.jws = some (utf8 signed.compactJws.val ++ [10]) ∧
        (10 : UInt8) ∉ utf8 signed.compactJws.val ∧
        lib.jwsDeserializeCompact signed.compactJws.val r.publicKey = .ok (header, record) ∧
        r.verify lib importKey signed = .ok p ∧
        canonicalJson lib p.val.modelDump = .ok record) ∧
    (∀ dir dir' signed signed', verifyEvidenceBundle lib importKey dir = .ok signed →
      verifyEvidenceBundle lib importKey dir' = .ok signed' → dir.jws = dir'.jws →
      dir.record = dir'.record) ∧
    (∀ raw response, parseResponse lib raw = .ok response →
      canonicalJson lib response.modelDump = .ok raw) ∧
    ∀ raw bundle, parseResponseBundle lib raw = .ok bundle →
      canonicalJson lib bundle.modelDump = .ok raw := by
  refine ⟨fun dir signed h ↦ verifyEvidenceBundle_ok law h, ?_, ?_, ?_⟩
  · intro dir dir' signed signed' h h' hjws
    obtain ⟨r, record, header, p, hrecord, hcompact, -, hsigned, -⟩ := verifyEvidenceBundle_ok law h
    obtain ⟨r', record', header', p', hrecord', hcompact', -, hsigned', -⟩ :=
      verifyEvidenceBundle_ok law h'
    rw [hcompact, hcompact', Option.some.injEq, List.append_cancel_right_eq] at hjws
    rw [← utf8_injective hjws] at hsigned'
    rw [hrecord, hrecord', htext _ _ _ _ _ _ _ hsigned hsigned']
  · intro raw response h
    simp only [parseResponse, bind_eq_ok, mapError_eq_ok] at h
    obtain ⟨_, -, h⟩ := h
    exact parseCanonical_dump law WorkerResponse.mirrors_modelValidate h
  · intro raw bundle h
    simp only [parseResponseBundle, bind_eq_ok, mapError_eq_ok] at h
    obtain ⟨_, -, h⟩ := h
    exact parseCanonical_dump law WorkerResponseBundle.mirrors_modelValidate h

namespace Demo

set_option maxRecDepth 100000 in
/-- It is parsed from its canonical bytes. -/
theorem parse_response : parseResponse standIn (encoded response.modelDump) = .ok response := by
  have h : (parseResponse standIn (encoded response.modelDump)).toOption = some response := by
    decide +kernel
  cases hp : parseResponse standIn (encoded response.modelDump) with
  | ok r =>
    rw [hp] at h
    exact congrArg Except.ok (Option.some.inj h)
  | error e =>
    rw [hp] at h
    cases h

private theorem length_compact (header : Value) (payload key : Bytes) :
    (compact header payload key).val.length =
      2 * (encoded header).length + 2 * payload.length + 2 * key.length + 2 := by
  simp only [compact, encoded, List.length_append, List.length_cons, length_hex]
  omega

private theorem length_encoded_le (dump : Value) : (encoded dump).length ≤ Json.size dump := by
  unfold encoded
  cases h : Json.canonicalText dump with
  | none => exact Nat.zero_le _
  | some t => exact Json.length_canonicalText_le h

private theorem compact_ascii {header : Value} {payload key : Bytes} :
    ∀ c ∈ (compact header payload key).val, c.val < 128 ∧ c.val ≠ 10 := by
  have hdigit : ∀ b : Bytes, ∀ c ∈ hex b, c.val < 128 ∧ c.val ≠ 10 := by
    intro b c hc
    have h := List.all_eq_true.mp (all_isLowerHex_hex b) c hc
    simp only [isLowerHex, Bool.or_eq_true, Bool.and_eq_true, decide_eq_true_eq] at h
    omega
  have hdot : (codePoint '.').val < 128 ∧ (codePoint '.').val ≠ 10 := by decide
  intro c hc
  simp only [compact, List.mem_append, List.mem_cons] at hc
  rcases hc with hc | rfl | hc | rfl | hc
  · exact hdigit _ c hc
  · exact hdot
  · exact hdigit _ c hc
  · exact hdot
  · exact hdigit _ c hc

private def blank : NonemptyText := ⟨text "x", by decide⟩

/-- The published verifier of the record. -/
def published : Validated PublicExperimentVerifierFields.check :=
  ⟨{  keyId := ⟨text "3", by decide⟩
      publicJwk := {
        x := ⟨List.replicate 43 (decimalDigit 3), by decide +kernel⟩
        kid := ⟨text "3", by decide⟩ } }, by
    simp [PublicExperimentVerifierFields.check, raiseIf]⟩

-- One evaluation of every size that is not a sum over others.
set_option maxRecDepth 100000 in
private theorem size_parts : (∀ c ∈ table, Json.size (brokerReceipt c.1).modelDump ≤ 6300 ∧
      Json.size ((observation c.1 c.2.1 c.2.2).emptied blank).modelDump ≤ 5000 ∧
      c.2.2.length ≤ 2 ∧
      ∀ r ∈ c.2.2, Json.size r.receipt.modelDump ≤ 4400 ∧
        Json.size (r.fields.receipted blank).modelDump ≤ 4000) ∧
    (∀ keyId ∈ ["1", "2"].map text, Json.size (protectedHeader keyId) ≤ 450) ∧
    Json.size (recordHeader (text "3")) ≤ 450 ∧
    Json.size published.val.modelDump ≤ 16384 ∧
    Json.size (record.dumpWith [] [] []) ≤ 20000 := by
  decide +kernel

private theorem length_signed_le {header dump : Value} {key : Bytes} {m n : Nat}
    (hheader : Json.size header ≤ m) (hdump : Json.size dump ≤ n) (hkey : key.length = 1) :
    (compact header (encoded dump) key).val.length ≤ 2 * m + 2 * n + 4 := by
  have hencoded := length_encoded_le header
  have hpayload := length_encoded_le dump
  rw [length_compact]
  omega

private theorem size_observation_le : ∀ c ∈ table,
    Json.size (observation c.1 c.2.1 c.2.2).modelDump ≤ 220000 := by
  intro c hc
  obtain ⟨hparts, hheader, -⟩ := size_parts
  obtain ⟨hbroker, hrest, hlength, hattempts⟩ := hparts c hc
  have hsize := CaseFields.size_modelDump (observation c.1 c.2.1 c.2.2) blank
  have hreceipt : (observation c.1 c.2.1 c.2.2).brokerReceiptJws.val.length ≤
      2 * 450 + 2 * 6300 + 4 := length_signed_le (hheader _ List.mem_cons_self) hbroker rfl
  have hsum : ((observation c.1 c.2.1 c.2.2).attempts.map fun a ↦
      Json.size a.val.modelDump + 1).sum ≤ 2 * 63000 := by
    have hone : ∀ n ∈ (observation c.1 c.2.1 c.2.2).attempts.map fun a ↦
        Json.size a.val.modelDump + 1, n ≤ 63000 := by
      intro n hn
      obtain ⟨a, ha, rfl⟩ := List.mem_map.mp hn
      obtain ⟨r, hr, rfl⟩ := List.mem_map.mp ha
      obtain ⟨hpayload, hfields⟩ := hattempts r hr
      have hsize := AttemptFields.size_modelDump r.fields blank
      have hreceipt : r.fields.receiptJws.val.length ≤ 2 * 450 + 2 * 4400 + 4 :=
        length_signed_le (hheader _ (List.mem_cons_of_mem _ List.mem_cons_self)) hpayload rfl
      change Json.size r.fields.modelDump + 1 ≤ 63000
      omega
    have hcard := List.sum_le_card_nsmul _ _ hone
    have hcount : (observation c.1 c.2.1 c.2.2).attempts.length = c.2.2.length :=
      List.length_map _
    rw [List.length_map, hcount, smul_eq_mul] at hcard
    exact hcard.trans (Nat.mul_le_mul_right _ hlength)
  omega

private theorem length_texts_le :
    trustBoundary.length ≤ 200 ∧ assuranceDisclaimer.length ≤ 700 := by
  rw [trustBoundary, assuranceDisclaimer, text, text, List.length_map, List.length_map]
  simp only [String.toList_append, List.length_append]
  decide +kernel

set_option maxRecDepth 100000 in
private theorem size_record_le : Json.size record.modelDump ≤ 2000000 := by
  obtain ⟨-, -, -, -, hrest⟩ := size_parts
  have hone : ∀ n ∈ (record.cases.map fun c ↦ c.val.modelDump).map fun v ↦ Json.size v + 1,
      n ≤ 220001 := by
    intro n hn
    obtain ⟨v, hv, rfl⟩ := List.mem_map.mp hn
    obtain ⟨c, hc, rfl⟩ := List.mem_map.mp hv
    obtain ⟨d, -, rfl⟩ := List.mem_map.mp hc
    have hsize := size_observation_le d.val d.property
    change Json.size (observation d.val.1 d.val.2.1 d.val.2.2).modelDump + 1 ≤ 220001
    omega
  have hcard := List.sum_le_card_nsmul _ _ hone
  have hcount : record.cases.length = 7 := rfl
  rw [List.length_map, List.length_map, hcount, smul_eq_mul] at hcard
  obtain ⟨hboundary, hdisclaimer⟩ := length_texts_le
  have hsize := record.size_dumpWith trustBoundary assuranceDisclaimer
    (record.cases.map fun c ↦ c.val.modelDump)
  rw [← ExperimentRecordFields.modelDump_eq] at hsize
  -- The closed numbers are not evaluated.
  generalize Json.size record.modelDump = total at hsize ⊢
  generalize Json.size (record.dumpWith [] [] []) = rest at hsize hrest
  generalize trustBoundary.length = boundary at hsize hboundary
  generalize assuranceDisclaimer.length = disclaimer at hsize hdisclaimer
  generalize ((record.cases.map fun c ↦ c.val.modelDump).map fun v ↦ Json.size v + 1).sum = sum
    at hsize hcard
  omega

/-- The evidence of the record. -/
def evidence : EvidenceDir :=
  ⟨some (encoded published.val.modelDump), some (encoded record.modelDump),
    some (utf8 signed.compactJws.val ++ [10])⟩

set_option maxRecDepth 100000 in
/-- The evidence of the record is accepted. -/
theorem verify_evidence : verifyEvidenceBundle standIn importKey evidence = .ok signed := by
  have hrestores := ExperimentRecordFields.restores_modelValidate
  have hpublishes := PublicExperimentVerifierFields.restores_modelValidate
  have hkey : importKey published.val.publicJwk.modelDump = .ok [3] := rfl
  have hverifier : canonicalJson standIn published.val.modelDump =
      .ok (encoded published.val.modelDump) :=
    canonicalJson_encoded (hpublishes.distinctKeys published) (hpublishes.floatFree published)
      (by decide +kernel)
  have hrecord : canonicalJson standIn record.modelDump = .ok (encoded record.modelDump) :=
    canonicalJson_encoded (hrestores.distinctKeys ⟨record, check_record⟩)
      (hrestores.floatFree ⟨record, check_record⟩)
      (ExperimentRecordPayload.canonicalizable_modelDump ⟨record, check_record⟩ rfl)
  obtain ⟨-, -, hheader, hpublished, -⟩ := size_parts
  have hsigned : signed.compactJws.val.length < maxExperimentRecordBytes :=
    (length_signed_le hheader size_record_le rfl).trans_lt (by decide)
  exact verifyEvidenceBundle_of_published rfc8785_standIn hkey verify_signed hverifier hrecord
    compact_ascii ⟨(length_encoded_le _).trans hpublished,
      (length_encoded_le _).trans (size_record_le.trans (by decide)), hsigned⟩

end Demo

/-- The bundle of the demo record is accepted, so its record file is the payload of its JWS and the
encoding of what is verified; the demo response is parsed from its own bytes. -/
theorem projection_exact_demo :
    verifyEvidenceBundle standIn Demo.importKey Demo.evidence = .ok Demo.signed ∧
    (∃ (r : ExperimentRecordVerifier) (record : Bytes) (header : Value)
      (p : ExperimentRecordPayload),
      Demo.evidence.record = some record ∧
      Demo.evidence.jws = some (utf8 Demo.signed.compactJws.val ++ [10]) ∧
      standIn.jwsDeserializeCompact Demo.signed.compactJws.val r.publicKey =
        .ok (header, record) ∧
      r.verify standIn Demo.importKey Demo.signed = .ok p ∧
      canonicalJson standIn p.val.modelDump = .ok record) ∧
    parseResponse standIn (Demo.encoded Demo.response.modelDump) = .ok Demo.response ∧
    canonicalJson standIn Demo.response.modelDump = .ok (Demo.encoded Demo.response.modelDump) := by
  obtain ⟨hbundle, -, hresponse, -⟩ :=
    projection_exact rfc8785_standIn payloadOfText_standIn Demo.importKey
  obtain ⟨r, record, header, p, hrecord, hjws, -, hsigned, hverify, hdump⟩ :=
    hbundle _ _ Demo.verify_evidence
  exact ⟨Demo.verify_evidence, ⟨r, record, header, p, hrecord, hjws, hsigned, hverify, hdump⟩,
    Demo.parse_response, hresponse _ _ Demo.parse_response⟩

end Lab

end Atcap
