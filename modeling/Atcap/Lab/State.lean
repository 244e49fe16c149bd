import Atcap.Lab.Evidence

/-!
# Trusted state of the laboratory

The part of `lab/wire.py` and `lab/worker_wire.py` that passes between the two phases of the
controller: the payload of the worker and the state that `finalize` reads back.
-/

namespace Atcap.Lab

open Base Strict

/-! ### The payload of the worker -/

/-- The fields of `WorkerPayload`. -/
structure WorkerPayloadFields where
  disposableHolderPrivateKey : Hex32
  workerImage : Image
  workerCodeDigest : Hex32
  requests : List WorkerRequest

/-- The list bounds and `_consistent_requests`. -/
def WorkerPayloadFields.check (p : WorkerPayloadFields) : Except Exn Unit := do
  raiseIf (¬ (1 ≤ p.requests.length ∧ p.requests.length ≤ 128))
    (.validation "a field is outside its bounds")
  raiseIf (¬ (p.requests.map WorkerRequest.runId).Nodup)
    (.validation "worker payload has duplicate run IDs")
  p.requests.forM fun r ↦ do
    raiseIf (r.workerImage ≠ p.workerImage)
      (.validation "worker image is inconsistent across the payload")
    raiseIf (r.workerCodeDigest ≠ p.workerCodeDigest)
      (.validation "worker digest is inconsistent across the payload")

/-- `WorkerPayload`. -/
abbrev WorkerPayload := Validated WorkerPayloadFields.check

/-- `WorkerPayload.model_dump(mode="json")`. -/
def WorkerPayloadFields.modelDump (p : WorkerPayloadFields) : Value :=
  .dict [(text "schema_version", .str (text "atcap-runpod-worker-payload/v1")),
    (text "disposable_holder_private_key", .str p.disposableHolderPrivateKey.val),
    (text "worker_image", .str p.workerImage.val),
    (text "worker_code_digest", .str p.workerCodeDigest.val),
    (text "requests", .list (p.requests.map WorkerRequest.modelDump))]

/-- `InventoryArgumentsWire.model_validate`. -/
def InventoryArgumentsWire.modelValidate : Value → Except Exn InventoryArgumentsWire :=
  model ["sku"] fun m ↦ do
    let sku ← field m (text "sku") (readPattern (isBounded 1 128))
    return { sku }

/-- `WorkerRequest.model_validate`. -/
def WorkerRequest.modelValidate : Value → Except Exn WorkerRequest :=
  model ["schema_version", "case_id", "run_id", "variant", "credential", "challenge", "audience",
    "qualified_scope", "record_id", "arguments", "worker_image", "worker_code_digest"] fun m ↦ do
    field m (text "schema_version") (literal (text "atcap-runpod-worker-request/v1"))
    let caseId ← field m (text "case_id") (readPattern isRunId)
    let runId ← field m (text "run_id") (readPattern isRunId)
    let variant ← field m (text "variant") (choice Variant.all Variant.value)
    let credential ← field m (text "credential") members
    let challenge ← field m (text "challenge") (readPattern isNonempty)
    let audience ← field m (text "audience") (readPattern (isBounded 1 256))
    let qualifiedScope ← field m (text "qualified_scope") (readPattern (isBounded 1 512))
    let recordId ← field m (text "record_id") (readPattern (isBounded 1 256))
    let arguments ← field m (text "arguments") InventoryArgumentsWire.modelValidate
    let workerImage ← field m (text "worker_image") (readPattern isImage)
    let workerCodeDigest ← field m (text "worker_code_digest") (readPattern (Text.isLowerHexOf 64))
    return {
      caseId, runId, variant, credential, challenge, audience, qualifiedScope, recordId, arguments,
      workerImage, workerCodeDigest }

/-- `WorkerPayload.model_validate`. -/
def WorkerPayloadFields.modelValidate : Value → Except Exn WorkerPayload :=
  model ["schema_version", "disposable_holder_private_key", "worker_image", "worker_code_digest",
    "requests"] fun m ↦ do
    field m (text "schema_version") (literal (text "atcap-runpod-worker-payload/v1"))
    let disposableHolderPrivateKey ←
      field m (text "disposable_holder_private_key") (readPattern (Text.isLowerHexOf 64))
    let workerImage ← field m (text "worker_image") (readPattern isImage)
    let workerCodeDigest ← field m (text "worker_code_digest") (readPattern (Text.isLowerHexOf 64))
    let requests ← field m (text "requests") (list WorkerRequest.modelValidate)
    construct WorkerPayloadFields.check {
      disposableHolderPrivateKey, workerImage, workerCodeDigest, requests }

/-! ### The prepared cases -/

/-- `CaseSpec.model_validate`. -/
def CaseSpecFields.modelValidate : Value → Except Exn CaseSpec :=
  model ["case_id", "variant", "sku", "record_id", "concurrency"] fun m ↦ do
    let caseId ← field m (text "case_id") (readPattern isRunId)
    let variant ← field m (text "variant") (choice Variant.all Variant.value)
    let sku ← fieldD m (text "sku") ⟨text "widget-42", by decide⟩ (readPattern (isBounded 1 128))
    let recordId ← field m (text "record_id") (readPattern (isBounded 1 256))
    let concurrency ← fieldD m (text "concurrency") ⟨1, by decide⟩ (readBounded _)
    construct CaseSpecFields.check { caseId, variant, sku, recordId, concurrency }

/-- `CapabilityGrantWire.model_validate`. -/
def CapabilityGrantWire.modelValidate : Value → Except Exn CapabilityGrantWire :=
  model ["credential", "broker_receipt_jws", "expected_manifest_digest",
    "expected_broker_policy_sha256", "expected_broker_challenge_token_hash",
    "expected_tpm_attest_sha256", "expected_tpm_signature_sha256", "expected_tpm_ak_chain_sha256",
    "expected_issuance_request_sha256"] fun m ↦ do
    let credential ← field m (text "credential") members
    let brokerReceiptJws ← field m (text "broker_receipt_jws") (readPattern isNonempty)
    let expectedManifestDigest ← field m (text "expected_manifest_digest")
      (readPattern isManifestDigest)
    let digest (name : String) := field m (text name) (readPattern (Text.isLowerHexOf 64))
    let expectedBrokerPolicySha256 ← digest "expected_broker_policy_sha256"
    let expectedBrokerChallengeTokenHash ← digest "expected_broker_challenge_token_hash"
    let expectedTpmAttestSha256 ← digest "expected_tpm_attest_sha256"
    let expectedTpmSignatureSha256 ← digest "expected_tpm_signature_sha256"
    let expectedTpmAkChainSha256 ← digest "expected_tpm_ak_chain_sha256"
    let expectedIssuanceRequestSha256 ← digest "expected_issuance_request_sha256"
    return {
      credential, brokerReceiptJws, expectedManifestDigest, expectedBrokerPolicySha256,
      expectedBrokerChallengeTokenHash, expectedTpmAttestSha256, expectedTpmSignatureSha256,
      expectedTpmAkChainSha256, expectedIssuanceRequestSha256 }

/-- `PreparedCase.model_validate`. -/
def PreparedCaseFields.modelValidate : Value → Except Exn PreparedCase :=
  model ["spec", "grant", "requests", "invocation_count_before"] fun m ↦ do
    let spec ← field m (text "spec") CaseSpecFields.modelValidate
    let grant ← field m (text "grant") CapabilityGrantWire.modelValidate
    let requests ← field m (text "requests") (list WorkerRequest.modelValidate)
    let invocationCountBefore ← field m (text "invocation_count_before") (readBounded _)
    construct PreparedCaseFields.check { spec, grant, requests, invocationCountBefore }

/-! ### The state -/

/-- `ResourcePolicyState`. -/
structure ResourcePolicyState where
  audience : Text
  method : Text
  qualifiedScope : Text
  trustedBrokerPublicHex : Hex32
  challengeTtlSeconds : { n : Int // decide (0 < n) = true }
  maxCredentialLifetimeSeconds : { n : Int // decide (0 < n) = true }

/-- `ResourcePolicy(**state.resource_policy.model_dump(mode="python"))`. -/
def ResourcePolicyState.policy (p : ResourcePolicyState) : ResourcePolicy :=
  ⟨p.audience, p.method, p.qualifiedScope, p.trustedBrokerPublicHex.val, p.challengeTtlSeconds.val,
    p.maxCredentialLifetimeSeconds.val⟩

/-- `ResourcePolicyState.model_validate`. -/
def ResourcePolicyState.modelValidate : Value → Except Exn ResourcePolicyState :=
  model ["audience", "method", "qualified_scope", "trusted_broker_public_hex",
    "challenge_ttl_seconds", "max_credential_lifetime_seconds"] fun m ↦ do
    let audience ← field m (text "audience") str
    let method ← field m (text "method") str
    let qualifiedScope ← field m (text "qualified_scope") str
    let trustedBrokerPublicHex ←
      field m (text "trusted_broker_public_hex") (readPattern (Text.isLowerHexOf 64))
    let challengeTtlSeconds ← field m (text "challenge_ttl_seconds") (readBounded _)
    let maxCredentialLifetimeSeconds ←
      field m (text "max_credential_lifetime_seconds") (readBounded _)
    return {
      audience, method, qualifiedScope, trustedBrokerPublicHex, challengeTtlSeconds,
      maxCredentialLifetimeSeconds }

/-- The fields of `TrustedLabState`; `database_filename` is a literal. -/
structure TrustedLabStateFields where
  experimentId : RunId
  commitSha : { t : Text // t.isLowerHexOf 40 = true }
  uvLockSha256 : Hex32
  tpmMode : TpmMode
  tpmEvidenceVerified : Bool
  resourcePolicy : ResourcePolicyState
  resourceChallengeSecret : { t : Text // (decide (64 ≤ t.length) && t.encodable) = true }
  inventoryReceiptKeyId : Text
  inventoryReceiptPrivateJwk : List (Text × Value)
  brokerReceiptKeyId : Text
  brokerReceiptPublicJwk : List (Text × Value)
  experimentKeyId : Text
  experimentPrivateJwk : List (Text × Value)
  expectedWorkerPublicKey : Hex32
  workerImage : Image
  workerCodeDigest : Hex32
  preparedCases : List PreparedCase

/-- The requests of all prepared cases, in order. -/
def preparedRequests (cases : List PreparedCase) : List WorkerRequest :=
  cases.flatMap fun k ↦ k.val.requests

/-- The list bounds and `_complete_prepared_matrix`. -/
def TrustedLabStateFields.check (s : TrustedLabStateFields) : Except Exn Unit := do
  raiseIf (¬ (1 ≤ s.preparedCases.length ∧ s.preparedCases.length ≤ 64))
    (.validation "a field is outside its bounds")
  raiseIf (¬ (s.preparedCases.map fun k ↦ k.val.spec.val.caseId).Nodup)
    (.validation "trusted state has duplicate case IDs")
  raiseIf (¬ ((preparedRequests s.preparedCases).map WorkerRequest.runId).Nodup)
    (.validation "trusted state has duplicate global worker run IDs")
  raiseIf (s.preparedCases.length ≠ Variant.all.length ∨
      (s.preparedCases.map fun k ↦ k.val.spec.val.variant).toFinset ≠ Variant.all.toFinset)
    (.validation "trusted state does not contain the exact required case matrix")
  raiseIf (∃ r ∈ preparedRequests s.preparedCases,
      r.workerImage ≠ s.workerImage ∨ r.workerCodeDigest ≠ s.workerCodeDigest)
    (.validation "trusted state has inconsistent worker bindings")

/-- `TrustedLabState`. -/
abbrev TrustedLabState := Validated TrustedLabStateFields.check

/-- `TrustedLabState.model_validate`. -/
def TrustedLabStateFields.modelValidate : Value → Except Exn TrustedLabState :=
  model ["schema_version", "experiment_id", "commit_sha", "uv_lock_sha256", "tpm_mode",
    "tpm_evidence_verified", "database_filename", "resource_policy", "resource_challenge_secret",
    "inventory_receipt_key_id", "inventory_receipt_private_jwk", "broker_receipt_key_id",
    "broker_receipt_public_jwk", "experiment_key_id", "experiment_private_jwk",
    "expected_worker_public_key", "worker_image", "worker_code_digest", "prepared_cases"] fun m ↦ do
    field m (text "schema_version") (literal (text "atcap-runpod-trusted-state/v1"))
    let experimentId ← field m (text "experiment_id") (readPattern isRunId)
    let commitSha ← field m (text "commit_sha") (readPattern (Text.isLowerHexOf 40))
    let uvLockSha256 ← field m (text "uv_lock_sha256") (readPattern (Text.isLowerHexOf 64))
    let tpmMode ← field m (text "tpm_mode") (choice [.testDouble, .realSwtpm] TpmMode.value)
    let tpmEvidenceVerified ← field m (text "tpm_evidence_verified") bool
    field m (text "database_filename") (literal (text "lab.sqlite3"))
    let resourcePolicy ← field m (text "resource_policy") ResourcePolicyState.modelValidate
    let resourceChallengeSecret ← field m (text "resource_challenge_secret") (readPattern _)
    let inventoryReceiptKeyId ← field m (text "inventory_receipt_key_id") str
    let inventoryReceiptPrivateJwk ← field m (text "inventory_receipt_private_jwk") members
    let brokerReceiptKeyId ← field m (text "broker_receipt_key_id") str
    let brokerReceiptPublicJwk ← field m (text "broker_receipt_public_jwk") members
    let experimentKeyId ← field m (text "experiment_key_id") str
    let experimentPrivateJwk ← field m (text "experiment_private_jwk") members
    let expectedWorkerPublicKey ←
      field m (text "expected_worker_public_key") (readPattern (Text.isLowerHexOf 64))
    let workerImage ← field m (text "worker_image") (readPattern isImage)
    let workerCodeDigest ← field m (text "worker_code_digest") (readPattern (Text.isLowerHexOf 64))
    let preparedCases ← field m (text "prepared_cases") (list PreparedCaseFields.modelValidate)
    construct TrustedLabStateFields.check {
      experimentId, commitSha, uvLockSha256, tpmMode, tpmEvidenceVerified, resourcePolicy,
      resourceChallengeSecret, inventoryReceiptKeyId, inventoryReceiptPrivateJwk,
      brokerReceiptKeyId, brokerReceiptPublicJwk, experimentKeyId, experimentPrivateJwk,
      expectedWorkerPublicKey, workerImage, workerCodeDigest, preparedCases }

end Atcap.Lab
