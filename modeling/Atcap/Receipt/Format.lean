import Atcap.Receipt.Verify
import Atcap.Reference

/-!
# The format of receipts

The bytes a verifier accepts under its key are exactly the canonical encodings of valid payloads,
one for each payload, and what the signer makes of a payload is verified to that payload.
-/

namespace Atcap

open Base

/-! ### Payloads and their dumps -/

/-- The keys of a dictionary are distinct. -/
theorem ArtifactHashes.nodup_keys (hashes : ArtifactHashes) :
    (hashes.toList.map Prod.fst).Nodup := by
  rw [List.Nodup, List.pairwise_map]
  refine Std.ExtTreeMap.distinct_keys_toList.imp ?_
  intro a b hne heq
  exact hne (heq ▸ Std.ReflOrd.compare_self)

/-- The members of a dictionary are those it was built from. -/
theorem ArtifactHashes.ofList_perm {members : List (Text × Text)}
    (hn : (members.map Prod.fst).Nodup) :
    members.Perm (Std.ExtTreeMap.ofList members : ArtifactHashes).toList := by
  have hdistinct : members.Pairwise fun a b ↦ ¬ compare a.1 b.1 = .eq := by
    rw [List.Nodup, List.pairwise_map] at hn
    exact hn.imp fun hne heq ↦ hne (Std.LawfulEqOrd.eq_of_compare heq)
  have hget : ∀ p ∈ members, (Std.ExtTreeMap.ofList members : ArtifactHashes)[p.1]? = some p.2 :=
    fun p hp ↦ Std.ExtTreeMap.getElem?_ofList_of_mem Std.ReflOrd.compare_self hdistinct hp
  rw [List.perm_ext_iff_of_nodup hn.of_map (nodup_keys _).of_map]
  rintro ⟨k, t⟩
  rw [Std.ExtTreeMap.mem_toList_iff_getElem?_eq_some]
  constructor
  · intro hmem
    exact hget _ hmem
  · intro h
    by_cases hk : (members.map Prod.fst).contains k
    · rw [List.contains_iff_mem] at hk
      obtain ⟨p, hp, rfl⟩ := List.mem_map.mp hk
      rw [hget p hp, Option.some.injEq] at h
      exact h ▸ hp
    · rw [Std.ExtTreeMap.getElem?_ofList_of_contains_eq_false (by simpa using hk)] at h
      cases h

namespace ReceiptFields

/-- A condition everywhere in a dump. -/
theorem everywhere_modelDump {leaf : Value → Bool} {keys : List Text → Bool} (p : ReceiptFields) :
    p.modelDump.everywhere leaf keys = true ↔
      keys receiptFieldNames = true ∧ keys (p.artifactHashes.toList.map Prod.fst) = true ∧
      (∀ q ∈ (p.dumpMembers .none).dropLast, leaf q.2 = true) ∧
      ∀ q ∈ p.artifactHashes.toList, leaf (.str q.2) = true := by
  rw [modelDump_eq, Value.everywhere_dict, dumpMembers_keys]
  simp only [dumpMembers, List.all_cons, List.all_nil, Value.everywhere_ofText?,
    Value.everywhere_ofInt?, Value.everywhere_ofTexts, Bool.and_eq_true, List.all_eq_true,
    List.dropLast, List.forall_mem_cons, Value.everywhere, Bool.and_true]
  tauto

/-- The dump of a payload has distinct keys. -/
theorem distinctKeys_modelDump (p : ReceiptFields) : p.modelDump.distinctKeys = true := by
  rw [Value.distinctKeys, everywhere_modelDump, decide_eq_true_eq, decide_eq_true_eq]
  exact ⟨receiptFieldNames_nodup, p.artifactHashes.nodup_keys, fun _ _ ↦ rfl, fun _ _ ↦ rfl⟩

/-- Nothing in the dump of a payload is a floating-point number. -/
theorem floatFree_modelDump (p : ReceiptFields) : Json.floatFree p.modelDump = true := by
  rw [Json.floatFree, everywhere_modelDump]
  refine ⟨rfl, rfl, ?_, fun _ _ ↦ rfl⟩
  have htext : ∀ o, Json.floatFree (.ofText? o) = true := by
    intro o
    cases o <;> rfl
  have hint : ∀ o, Json.floatFree (.ofInt? o) = true := by
    intro o
    cases o <;> rfl
  simp only [Json.floatFree, Value.everywhere_ofText?, Value.everywhere_ofInt?] at htext hint
  simp only [dumpMembers, List.dropLast, List.forall_mem_cons, htext, hint, List.not_mem_nil,
    false_implies, implies_true, and_self]

/-- The optional texts of a receipt. -/
def optionalTexts (p : ReceiptFields) : List (Option Text) :=
  [p.credentialId, p.qualifiedScope, p.challengeTokenHash, p.manifestDigest, p.method, p.audience,
    p.argumentsDigest, p.recordId]

/-- The texts have no lone surrogate and the numbers are exact. -/
structure Encodable (p : ReceiptFields) : Prop where
  receiptId : p.receiptId.encodable = true
  decidedAt : Json.exactInt p.decidedAt = true
  texts : ∀ o ∈ p.optionalTexts, ∀ t, o = some t → t.encodable = true
  invocationId : ∀ n, p.invocationId = some n → Json.exactInt n = true
  handlerCountSnapshot : Json.exactInt p.handlerCountSnapshot = true
  artifactHashes : ∀ q ∈ p.artifactHashes.toList, q.1.encodable = true ∧ q.2.encodable = true

/-- The payloads that have a canonical encoding. -/
theorem canonicalizable_modelDump (p : ReceiptFields) :
    Json.canonicalizable p.modelDump = true ↔ p.Encodable := by
  have hservice : p.decidingService.value.encodable = true := by
    cases p.decidingService <;> exact encodable_text _
  have hdecision : p.decision.value.encodable = true := by
    cases p.decision <;> exact encodable_text _
  have hresult : p.businessResult.value.encodable = true := by
    cases p.businessResult <;> exact encodable_text _
  have hnames : ∀ name ∈ receiptFieldNames, name.encodable = true :=
    List.forall_mem_map.mpr fun s _ ↦ encodable_text s
  have hschema : receiptSchemaVersion.encodable = true := encodable_text _
  have htext := @Json.canonicalizable_ofText?
  have hint := @Json.canonicalizable_ofInt?
  simp only [Json.canonicalizable, Value.everywhere_ofText?, Value.everywhere_ofInt?] at htext hint
  rw [Json.canonicalizable, everywhere_modelDump]
  simp only [dumpMembers, List.dropLast, List.forall_mem_cons, htext, hint, List.all_eq_true,
    List.forall_mem_map]
  constructor
  · rintro ⟨-, hkeys, ⟨-, hid, -, -, -, hat, h₁, h₂, h₃, h₄, h₅, h₆, h₇, h₈, hinvocation, hsnapshot,
      -⟩, hvalues⟩
    refine ⟨hid, hat, ?_, hinvocation, hsnapshot, fun q hq ↦ ⟨hkeys q hq, hvalues q hq⟩⟩
    simp only [optionalTexts, List.forall_mem_cons]
    exact ⟨h₁, h₂, h₃, h₄, h₅, h₆, h₇, h₈, List.forall_mem_nil _⟩
  · rintro ⟨hid, hat, htexts, hinvocation, hsnapshot, hhashes⟩
    simp only [optionalTexts, List.forall_mem_cons] at htexts
    obtain ⟨h₁, h₂, h₃, h₄, h₅, h₆, h₇, h₈, -⟩ := htexts
    exact ⟨hnames, fun q hq ↦ (hhashes q hq).1, ⟨hschema, hid, hservice, hdecision,
      Reason.encodable_value _, hat, h₁, h₂, h₃, h₄, h₅, h₆, h₇, h₈, hinvocation, hsnapshot,
      trivial, hresult, List.forall_mem_nil _⟩, fun q hq ↦ (hhashes q hq).2⟩

end ReceiptFields

/-- A validated dictionary is the dump of the payload up to the order of its members. -/
theorem sorted_of_modelValidate {m : List (Text × Value)} {p : DecisionReceiptPayload}
    (hk : (Value.dict m).distinctKeys = true) (hc : Json.canonicalizable (.dict m) = true)
    (h : DecisionReceiptPayload.modelValidate (.dict m) = .ok p) :
    Json.sorted (.dict m) = Json.sorted p.modelDump := by
  obtain ⟨hextra, hashes, hhashes, hmembers⟩ := DecisionReceiptPayload.modelValidate_eq_ok.mp h
  rw [Value.distinctKeys_dict] at hk
  rw [Json.canonicalizable_dict] at hc
  have hperm : m.Perm (p.dumpMembers (.ofTexts hashes)) :=
    perm_of_lookup hk.1 (ReceiptFields.dumpMembers_keys _ _ ▸ receiptFieldNames_nodup) hextra
      hmembers
  have hmem : (text "artifact_hashes", Value.ofTexts hashes) ∈ m :=
    hperm.mem_iff.mpr (by simp [ReceiptFields.dumpMembers])
  have hartifacts :
      Json.sorted (.ofTexts hashes) = Json.sorted (.ofTexts p.artifactHashes.toList) := by
    have hkeys := Value.distinctKeys_dict.mp (hk.2 _ hmem)
    have hencodable := Json.canonicalizable_dict.mp (hc _ hmem).2
    rw [hhashes]
    refine Json.sorted_dict_congr (((ArtifactHashes.ofList_perm ?_).map _).map _) hkeys.1
      fun q hq ↦ (hencodable q hq).1
    simpa [List.map_map, Function.comp_def] using hkeys.1
  rw [ReceiptFields.modelDump_eq]
  refine Json.sorted_dict_congr ((hperm.map _).trans (.of_eq ?_)) hk.1 fun q hq ↦ (hc q hq).1
  simp only [ReceiptFields.dumpMembers, List.map_cons, List.map_nil, hartifacts]

/-- The ordered dump of a payload is validated to the payload. -/
theorem modelValidate_sorted (p : DecisionReceiptPayload) :
    DecisionReceiptPayload.modelValidate (Json.sorted p.modelDump) = .ok p := by
  obtain ⟨hashes, hperm, hhashes⟩ := Json.sorted_ofTexts p.artifactHashes.toList
  have hmap : (p.dumpMembers (.ofTexts p.artifactHashes.toList)).map
      (fun q ↦ (q.1, Json.sorted q.2)) = p.dumpMembers (.ofTexts hashes) := by
    simp only [ReceiptFields.dumpMembers, List.map_cons, List.map_nil, hhashes,
      Json.sorted_ofText?, Json.sorted_ofInt?]
    rfl
  have hsorted := List.perm_insertionSort Json.memberLe (p.dumpMembers (.ofTexts hashes))
  have hnodup : (((p.dumpMembers (.ofTexts hashes)).insertionSort Json.memberLe).map
      Prod.fst).Nodup := by
    rw [(hsorted.map Prod.fst).nodup_iff, ReceiptFields.dumpMembers_keys]
    exact receiptFieldNames_nodup
  rw [ReceiptFields.modelDump_eq, Json.sorted_dict, hmap,
    DecisionReceiptPayload.modelValidate_eq_ok]
  refine ⟨?_, hashes, ?_, ?_⟩
  · intro q hq
    rw [← ReceiptFields.dumpMembers_keys p.toReceiptFields (.ofTexts hashes)]
    exact List.mem_map_of_mem (hsorted.mem_iff.mp hq)
  · have hn : (hashes.map Prod.fst).Nodup :=
      (hperm.map Prod.fst).nodup_iff.mpr p.artifactHashes.nodup_keys
    exact Std.ExtTreeMap.ext_toList (hperm.symm.trans (ArtifactHashes.ofList_perm hn))
  · intro q hq
    exact lookup_of_mem hnodup (hsorted.mem_iff.mpr hq)

/-! ### What validation leaves of a payload -/

/-- What holds across the fields of a valid payload. -/
structure ReceiptFields.Consistent (p : ReceiptFields) : Prop where
  invoked_iff_id : p.handlerInvoked = true ↔ p.invocationId.isSome = true
  id_iff_result : p.invocationId.isSome = true ↔
    (p.businessResult = .completed ∨ p.businessResult = .failed)
  result_iff_allow : (p.businessResult = .completed ∨ p.businessResult = .failed) ↔
    (p.decidingService = .inventoryd ∧ p.decision = .allow)
  reason_allow : p.reason = .ALLOW → p.decision = .allow
  reason_failed : p.reason = .HANDLER_FAILED →
    p.decidingService = .inventoryd ∧ p.decision = .allow
  broker_credential : p.decidingService = .broker →
    (p.credentialId.isSome = true ↔ p.decision = .allow)
  broker_snapshot : p.decidingService = .broker → p.handlerCountSnapshot = 0
  snapshot : ∀ n, p.invocationId = some n → 1 ≤ n ∧ n ≤ p.handlerCountSnapshot

namespace ReceiptFields

variable {p : ReceiptFields}

/-- What a broker receipt passes. -/
theorem checkBroker_ok (h : p.checkBroker = .ok ()) :
    p.handlerInvoked = false ∧ p.businessResult = .notApplicable ∧ p.handlerCountSnapshot = 0 ∧
      p.reason ≠ .HANDLER_FAILED ∧ (p.decision = .allow ↔ p.reason = .ALLOW) ∧
      (p.credentialId.isSome = true ↔ p.decision = .allow) := by
  simp only [checkBroker, bind_eq_ok, raiseIf_eq_ok, not_or, Bool.not_eq_true, ne_eq, not_not,
    decide_eq_decide] at h
  obtain ⟨-, hexecution, -, hcount, -, hfailed, -, hreason, -, hnone, -, hsome, -⟩ := h
  refine ⟨hexecution.1, hexecution.2, hcount, hfailed, hreason, ?_⟩
  cases hd : p.decision with
  | allow =>
    simp only [hd, true_and, Option.isNone_iff_eq_none] at hnone
    exact iff_of_true (Option.isSome_iff_ne_none.mpr hnone) rfl
  | deny =>
    simp only [hd, true_and] at hsome
    exact iff_of_false hsome (by simp)

/-- What a resource denial passes. -/
theorem checkInventoryDeny_ok (h : p.checkInventoryDeny = .ok ()) :
    p.handlerInvoked = false ∧ p.businessResult = .notInvoked ∧ p.reason ≠ .ALLOW ∧
      p.reason ≠ .HANDLER_FAILED := by
  simp only [checkInventoryDeny, bind_eq_ok, raiseIf_eq_ok, not_or, Bool.not_eq_true, ne_eq,
    not_not] at h
  obtain ⟨-, hreason, hexecution⟩ := h
  exact ⟨hexecution.1, hexecution.2, hreason.1, hreason.2⟩

/-- What a resource allow passes. -/
theorem checkInventoryAllow_ok (h : p.checkInventoryAllow = .ok ()) :
    p.handlerInvoked = true ∧
      (p.reason = .ALLOW ∧ p.businessResult = .completed ∨
        p.reason = .HANDLER_FAILED ∧ p.businessResult = .failed) := by
  simp only [checkInventoryAllow, bind_eq_ok, raiseIf_eq_ok, not_or, not_and_or, not_not] at h
  obtain ⟨-, hinvocation, -, -, hresult⟩ := h
  refine ⟨hinvocation.2, ?_⟩
  tauto

/-- A payload that passes validation is consistent. -/
theorem consistent_of_check (h : p.check = .ok ()) : p.Consistent := by
  unfold check at h
  split at h
  · next hbounds =>
    simp only [boundsHold, Bool.and_eq_true, decide_eq_true_eq] at hbounds
    simp only [consistentDecisionState, bind_eq_ok, raiseIf_eq_ok, ne_eq, not_not] at h
    obtain ⟨-, hid, -, hcount, h⟩ := h
    have hsnapshot : ∀ n, p.invocationId = some n → 1 ≤ n ∧ n ≤ p.handlerCountSnapshot := by
      intro n hn
      simp only [hn, Option.any_some, decide_eq_true_eq, not_lt] at hcount hbounds
      exact ⟨hbounds.1.2, hcount⟩
    have hinvoked : p.handlerInvoked = true ↔ p.invocationId.isSome = true := by rw [hid]
    -- the three kinds of receipt, each with its own result and reason
    cases hs : p.decidingService with
    | broker =>
      rw [hs] at h
      obtain ⟨hexecution, hresult, hzero, hfailed, hreason, hcredential⟩ := checkBroker_ok h
      rw [hid] at hexecution
      constructor <;> simp_all
    | inventoryd =>
      simp only [hs, checkInventory, bind_eq_ok] at h
      obtain ⟨-, -, h⟩ := h
      cases hd : p.decision with
      | deny =>
        rw [hd] at h
        obtain ⟨hexecution, hresult, hallow, hfailed⟩ := checkInventoryDeny_ok h
        rw [hid] at hexecution
        constructor <;> simp_all
      | allow =>
        rw [hd] at h
        obtain ⟨hexecution, ⟨hreason, hresult⟩ | ⟨hreason, hresult⟩⟩ := checkInventoryAllow_ok h
        · constructor <;> simp_all
        · constructor <;> simp_all
  · cases h

end ReceiptFields

/-! ### Signing and verifying -/

/-- `ReceiptSigner.public_key`. -/
def ReceiptSigner.publicKey (lib : Libraries) (s : ReceiptSigner) : Bytes :=
  lib.jwkPublic s.privateKey

/-- The verifier configured with the public key and the key id of a signer. -/
def ReceiptSigner.verifier (lib : Libraries) (s : ReceiptSigner) : ReceiptVerifier :=
  ⟨s.publicKey lib, s.keyId⟩

/-- A signer that works: its key signs every payload, and its public key verifies the signature
to the header and the payload that were signed. -/
structure ReceiptSigner.Working (lib : Libraries) (s : ReceiptSigner) : Prop where
  signs : ∀ payload, ∃ compact,
    lib.jwsSerializeCompact (protectedHeader s.keyId) payload s.privateKey = .ok compact
  verifies : ∀ payload compact,
    lib.jwsSerializeCompact (protectedHeader s.keyId) payload s.privateKey = .ok compact →
    lib.jwsDeserializeCompact compact (s.publicKey lib) = .ok (protectedHeader s.keyId, payload)

/-- Every signer of the stand-in works. -/
theorem working_standIn (s : ReceiptSigner) : s.Working standIn :=
  ⟨fun payload ↦ exists_serialize_standIn s.keyId payload s.privateKey,
    fun _ _ ↦ deserialize_serialize_standIn⟩

/-- The exception of a receipt that is not accepted. -/
def receiptInvalid : Exn := .decision .RECEIPT_INVALID "decision receipt failed verification"

/-- Verification either returns a payload or raises `RECEIPT_INVALID`. -/
theorem ReceiptVerifier.verify_cases (lib : Libraries) (r : ReceiptVerifier)
    (receipt : SignedDecisionReceipt) :
    (∃ p, r.verify lib receipt = .ok p) ∨ r.verify lib receipt = .error receiptInvalid := by
  unfold verify
  cases r.decode lib receipt with
  | ok p => exact .inl ⟨p, rfl⟩
  | error e => exact .inr rfl

/-- Verification returns what the `try` statement returns. -/
theorem ReceiptVerifier.verify_eq_ok {lib : Libraries} {r : ReceiptVerifier}
    {receipt : SignedDecisionReceipt} {p : DecisionReceiptPayload} :
    r.verify lib receipt = .ok p ↔ r.decode lib receipt = .ok p := mapError_eq_ok

/-- The header of a signer is the one its verifier expects. -/
theorem isTexts_protectedHeader (r : ReceiptVerifier) :
    (protectedHeader r.keyId).isTexts r.expected = true := by
  have halg : (protectedHeader r.keyId).get? (text "alg") = some (.str jwsAlgorithm) := rfl
  have hkid : (protectedHeader r.keyId).get? (text "kid") = some (.str r.keyId) := rfl
  have htyp : (protectedHeader r.keyId).get? (text "typ") = some (.str jwsType) := rfl
  simp only [protectedHeader, Value.get?] at halg hkid htyp
  simp only [protectedHeader, Value.isTexts, ReceiptVerifier.expected, List.all_cons, halg, hkid,
    htyp, Option.any_some, Value.isText, decide_true, List.length_cons, List.length_nil,
    List.all_nil, Bool.and_true]

section Verify

variable {lib : Libraries} (law : Rfc8785 lib) {r : ReceiptVerifier} {compact : Text}
  {header : Value} {payload : Bytes} {p : DecisionReceiptPayload}
include law

/-- The bytes under an accepted signature and header are accepted exactly when they are the
canonical encoding of a payload, and that payload is returned. -/
theorem verify_eq_ok_iff
    (hsigned : lib.jwsDeserializeCompact compact r.publicKey = .ok (header, payload))
    (hheader : header.isTexts r.expected = true) :
    r.verify lib ⟨compact⟩ = .ok p ↔ canonicalJson lib p.modelDump = .ok payload := by
  rw [ReceiptVerifier.verify_eq_ok]
  constructor
  · intro h
    simp only [ReceiptVerifier.decode, hsigned, bind_eq_ok, raiseIf_eq_ok, orRaise_eq_ok] at h
    obtain ⟨_, ⟨rfl⟩, _, -, decoded, hloads, h⟩ := h
    cases decoded with
    | dict m =>
      simp only [bind_eq_ok, raiseIf_eq_ok, ne_eq, not_not] at h
      obtain ⟨data, hdata, _, rfl, hvalidate⟩ := h
      have hk := Json.loads_distinctKeys hloads
      have hc := (law.isOk_iff hk).mp ⟨_, hdata⟩
      have hsorted := sorted_of_modelValidate hk hc hvalidate
      exact (law.canonicalJson_congr p.distinctKeys_modelDump p.floatFree_modelDump
        hsorted.symm).mpr hdata
    | _ => cases h
  · intro h
    have hk := p.distinctKeys_modelDump
    have hloads : jsonLoads lib payload = some (Json.sorted p.modelDump) :=
      law.jsonLoads_canonicalJson hk p.floatFree_modelDump h
    have hdata : canonicalJson lib (Json.sorted p.modelDump) = .ok payload :=
      (law.canonicalJson_congr hk p.floatFree_modelDump (Json.sorted_sorted _).symm).mp h
    have hvalidate := modelValidate_sorted p
    obtain ⟨m, hm⟩ : ∃ m, Json.sorted p.modelDump = .dict m := ⟨_, Json.sorted_dict _⟩
    rw [hm] at hloads hdata hvalidate
    simp only [ReceiptVerifier.decode, hsigned, bind_eq_ok, raiseIf_eq_ok, orRaise_eq_ok]
    refine ⟨_, rfl, (), not_not.mpr hheader, _, hloads, ?_⟩
    simp only [bind_eq_ok, raiseIf_eq_ok]
    exact ⟨payload, hdata, (), by simp, hvalidate⟩

/-- What a working signer makes of an encodable payload is verified to that payload. -/
theorem sign_verify {signer : ReceiptSigner} (hw : signer.Working lib)
    (h : canonicalJson lib p.modelDump = .ok payload) :
    ∃ receipt, signer.sign lib p = .ok receipt ∧
      (signer.verifier lib).verify lib receipt = .ok p := by
  obtain ⟨compact, hcompact⟩ := hw.signs payload
  refine ⟨⟨compact⟩, ?_, ?_⟩
  · simp only [ReceiptSigner.sign, bind_eq_ok]
    exact ⟨payload, h, compact, hcompact, rfl⟩
  · exact (verify_eq_ok_iff law (hw.verifies payload compact hcompact)
      (isTexts_protectedHeader (signer.verifier lib))).mpr h

end Verify

/-- The format of receipts. Under the expected header a verifier accepts exactly the canonical
encodings of valid payloads and returns the payload; every other receipt raises `RECEIPT_INVALID`.
The accepted bytes of a payload are one text, what a working signer makes of a payload that can
be encoded is verified to it, and every accepted payload is consistent. -/
theorem receipt_format_exact {lib : Libraries} (law : Rfc8785 lib) (r : ReceiptVerifier) :
    (∀ compact header payload,
      lib.jwsDeserializeCompact compact r.publicKey = .ok (header, payload) →
      header.isTexts r.expected = true →
      (∀ p, r.verify lib ⟨compact⟩ = .ok p ↔ canonicalJson lib p.modelDump = .ok payload) ∧
      ((∀ p : DecisionReceiptPayload, canonicalJson lib p.modelDump ≠ .ok payload) →
        r.verify lib ⟨compact⟩ = .error receiptInvalid)) ∧
    (∀ receipt, (∃ p, r.verify lib receipt = .ok p) ∨
      r.verify lib receipt = .error receiptInvalid) ∧
    (∀ (p : DecisionReceiptPayload) payload, canonicalJson lib p.modelDump = .ok payload ↔
      p.Encodable ∧ ∃ t, Json.canonicalText p.modelDump = some t ∧ payload = utf8 t) ∧
    (∀ signer : ReceiptSigner, signer.Working lib → signer.verifier lib = r →
      ∀ (p : DecisionReceiptPayload) payload, canonicalJson lib p.modelDump = .ok payload →
        ∃ receipt, signer.sign lib p = .ok receipt ∧ r.verify lib receipt = .ok p) ∧
    (∀ compact compact' header header' payload payload' p,
      lib.jwsDeserializeCompact compact r.publicKey = .ok (header, payload) →
      lib.jwsDeserializeCompact compact' r.publicKey = .ok (header', payload') →
      r.verify lib ⟨compact⟩ = .ok p → r.verify lib ⟨compact'⟩ = .ok p → payload = payload') ∧
    (∀ receipt p, r.verify lib receipt = .ok p → p.Consistent) := by
  have hexact : ∀ compact header payload,
      lib.jwsDeserializeCompact compact r.publicKey = .ok (header, payload) →
      ∀ p, r.verify lib ⟨compact⟩ = .ok p → canonicalJson lib p.modelDump = .ok payload := by
    intro compact header payload hsigned p hp
    have hheader : header.isTexts r.expected = true := by
      have hdecode := ReceiptVerifier.verify_eq_ok.mp hp
      simp only [ReceiptVerifier.decode, hsigned, bind_eq_ok, raiseIf_eq_ok, not_not] at hdecode
      obtain ⟨_, ⟨rfl⟩, _, hheader, -⟩ := hdecode
      exact hheader
    exact (verify_eq_ok_iff law hsigned hheader).mp hp
  refine ⟨?_, r.verify_cases lib, ?_, ?_, ?_, fun _ p _ ↦ ReceiptFields.consistent_of_check p.valid⟩
  · intro compact header payload hsigned hheader
    refine ⟨fun p ↦ verify_eq_ok_iff law hsigned hheader, ?_⟩
    intro hnone
    obtain ⟨p, hp⟩ | herror := r.verify_cases lib ⟨compact⟩
    · exact absurd (hexact _ _ _ hsigned p hp) (hnone p)
    · exact herror
  · intro p payload
    rw [law.canonicalJson_eq_ok p.distinctKeys_modelDump p.floatFree_modelDump,
      ReceiptFields.canonicalizable_modelDump]
  · rintro signer hw rfl p payload h
    exact sign_verify law hw h
  · intro compact compact' header header' payload payload' p hsigned hsigned' hp hp'
    have h := hexact _ _ _ hsigned p hp
    rw [hexact _ _ _ hsigned' p hp', Except.ok.injEq] at h
    exact h.symm

/-- A denial of the broker, as claims of a receipt. -/
def denialFields : ReceiptFields where
  receiptId := text "0123456789abcdef0123456789abcdef"
  decidingService := .broker
  decision := .deny
  reason := .TPM_INVALID
  decidedAt := 1700000000
  credentialId := none
  qualifiedScope := some (text "inventory.lookup")
  challengeTokenHash := none
  manifestDigest := none
  method := none
  audience := none
  argumentsDigest := none
  recordId := none
  invocationId := none
  handlerCountSnapshot := 0
  handlerInvoked := false
  businessResult := .notApplicable
  artifactHashes := Std.ExtTreeMap.ofList [(text "tpm_attest_sha256", text "00")]

set_option maxRecDepth 4000 in
/-- A denial is signed by the stand-in, and its verifier returns it. -/
theorem receipt_format_exact_denial : ∃ receipt p,
    p.toReceiptFields = denialFields ∧
      (ReceiptSigner.mk [1] (text "k")).sign standIn p = .ok receipt ∧
      (ReceiptVerifier.mk [1] (text "k")).verify standIn receipt = .ok p := by
  have hcheck : denialFields.check = .ok () := rfl
  have hencodable : denialFields.Encodable := by
    constructor <;> decide
  obtain ⟨payload, hpayload⟩ := (rfc8785_standIn.isOk_iff
    (ReceiptFields.distinctKeys_modelDump denialFields)).mpr
    ((ReceiptFields.canonicalizable_modelDump _).mpr hencodable)
  obtain ⟨receipt, hsign, hverify⟩ := (receipt_format_exact rfc8785_standIn ⟨[1], text "k"⟩).2.2.2.1
    ⟨[1], text "k"⟩ (working_standIn _) rfl ⟨denialFields, hcheck⟩ payload hpayload
  exact ⟨receipt, _, rfl, hsign, hverify⟩

end Atcap
