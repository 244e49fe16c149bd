import Mathlib.Data.Finset.Card
import Mathlib.Data.List.Range
import Atcap.Lab.WorkerWire

/-!
# Trusted-controller state and signed evidence

`lab/wire.py`. A model with a semantic validator is the record of its fields together with the
proof that the validator passes, so a record that contradicts itself cannot be built.
-/

namespace Atcap.Lab

open Base

/-- The values of a model: its fields and the proof that its validator passes. -/
abbrev Validated {α : Type} (check : α → Except Exn Unit) := { a : α // check a = .ok () }

/-- The validating constructor of a model. -/
def construct {α : Type} (check : α → Except Exn Unit) (a : α) : Except Exn (Validated check) :=
  match h : check a with
  | .ok () => .ok ⟨a, h⟩
  | .error e => .error e

/-- Construction keeps the fields it was given. -/
theorem construct_eq_ok {α : Type} {check : α → Except Exn Unit} {a : α} {b : Validated check}
    (h : construct check a = .ok b) : b.val = a := by
  unfold construct at h
  split at h
  · cases h
    rfl
  · cases h

/-- Construction succeeds on the fields that pass validation. -/
theorem construct_of_check {α : Type} {check : α → Except Exn Unit} {a : α}
    (h : check a = .ok ()) : construct check a = .ok ⟨a, h⟩ := by
  unfold construct
  split
  · rfl
  · next e he =>
    rw [h] at he
    cases he

/-! ### Prepared cases -/

/-- `AGENT_MANIFEST_DIGEST_PATTERN`. -/
def isManifestDigest (t : Text) : Bool :=
  decide (t.take 7 = text "sha256:") && Text.isLowerHexOf 64 (t.drop 7)

/-- The fields of `CaseSpec`. -/
structure CaseSpecFields where
  caseId : RunId
  variant : Variant
  sku : ShortText 128
  recordId : ShortText 256
  concurrency : { n : Int // (decide (1 ≤ n) && decide (n ≤ 64)) = true }

/-- `_variant_count`. -/
def CaseSpecFields.check (s : CaseSpecFields) : Except Exn Unit := do
  raiseIf (s.variant = .concurrent ∧ s.concurrency.val < 2)
    (.validation "concurrent case requires at least two attempts")
  raiseIf (s.variant ≠ .concurrent ∧ s.concurrency.val ≠ 1)
    (.validation "only concurrent cases may request multiple attempts")

/-- `CaseSpec`. -/
abbrev CaseSpec := Validated CaseSpecFields.check

/-- `CapabilityGrantWire`. -/
structure CapabilityGrantWire where
  credential : List (Text × Value)
  brokerReceiptJws : NonemptyText
  expectedManifestDigest : { t : Text // isManifestDigest t = true }
  expectedBrokerPolicySha256 : Hex32
  expectedBrokerChallengeTokenHash : Hex32
  expectedTpmAttestSha256 : Hex32
  expectedTpmSignatureSha256 : Hex32
  expectedTpmAkChainSha256 : Hex32
  expectedIssuanceRequestSha256 : Hex32

/-- The fields of `PreparedCase`. -/
structure PreparedCaseFields where
  spec : CaseSpec
  grant : CapabilityGrantWire
  requests : List WorkerRequest
  invocationCountBefore : { n : Int // decide (0 ≤ n) = true }

/-- The number of requests a case is prepared with. -/
def CaseSpecFields.requestCount (s : CaseSpecFields) : Int :=
  if s.variant = .concurrent then s.concurrency.val else 1

/-- The list bounds and `_request_shape`. -/
def PreparedCaseFields.check (p : PreparedCaseFields) : Except Exn Unit := do
  raiseIf (¬ (1 ≤ p.requests.length ∧ p.requests.length ≤ 64))
    (.validation "a field is outside its bounds")
  raiseIf ((p.requests.length : Int) ≠ p.spec.val.requestCount)
    (.validation "prepared request count does not match case specification")
  raiseIf (∃ r ∈ p.requests, r.caseId ≠ p.spec.val.caseId)
    (.validation "prepared request names another case")
  raiseIf (∃ r ∈ p.requests, r.variant ≠ p.spec.val.variant)
    (.validation "prepared request names another adversarial variant")
  raiseIf (¬ (p.requests.map WorkerRequest.runId).Nodup)
    (.validation "prepared case has duplicate worker run IDs")

/-- `PreparedCase`. -/
abbrev PreparedCase := Validated PreparedCaseFields.check

/-! ### Observations -/

/-- The fields of `AttemptObservation`; `receipt_verified` is the literal `True`. -/
structure AttemptFields where
  runId : RunId
  redemptionSequence : { n : Int // (decide (1 ≤ n) && decide (n ≤ 2)) = true }
  requestSha256 : Hex32
  workerResponseSha256 : Hex32
  holderProofSha256 : Hex32
  allowed : Bool
  reason : Reason
  receiptJws : NonemptyText
  handlerInvoked : Bool
  businessResult : { r : BusinessResult // decide (r ≠ .notApplicable) = true }
  invocationId : Option { n : Int // decide (1 ≤ n) = true }

/-- `_decision_semantics`. -/
def AttemptFields.check (a : AttemptFields) : Except Exn Unit :=
  if a.allowed then
    raiseIf (a.reason ≠ .ALLOW ∨ a.handlerInvoked = false ∨ a.businessResult.val ≠ .completed ∨
        a.invocationId.isNone)
      (.validation "allowed attempt has inconsistent execution semantics")
  else
    raiseIf (a.reason = .ALLOW ∨ a.handlerInvoked ∨ a.businessResult.val ≠ .notInvoked ∨
        a.invocationId.isSome)
      (.validation "denied attempt has inconsistent execution semantics")

/-- `AttemptObservation`. -/
abbrev AttemptObservation := Validated AttemptFields.check

/-- An outcome: whether the attempt was allowed, and why. -/
abbrev Outcome := Bool × Reason

/-- The order of `key=lambda item: (not item[0], item[1])`. -/
def outcomeLe (a b : Outcome) : Bool :=
  (a.1 && !b.1) || (decide (a.1 = b.1) && decide (a.2.value ≤ b.2.value))

/-- The outcomes a variant is observed with: those of a race in sorted order. -/
def observedOutcomes (variant : Variant) (attempts : List AttemptObservation) : List Outcome :=
  let observed := attempts.map fun a ↦ (a.val.allowed, a.val.reason)
  if variant = .concurrent then observed.mergeSort outcomeLe else observed

/-- The outcomes a variant prescribes; a race has `losers` besides the one winner. -/
def expectedOutcomes (losers : Nat) : Variant → List Outcome
  | .valid => [(true, .ALLOW)]
  | .replay => [(true, .ALLOW), (false, .CHALLENGE_CONSUMED)]
  | .concurrent => (true, .ALLOW) :: List.replicate losers (false, .CREDENTIAL_SPENT)
  | _ => [(false, .HOLDER_PROOF_INVALID)]

/-- The fields of `CaseObservation`, the literals apart. -/
structure CaseFields where
  caseId : RunId
  variant : Variant
  brokerReceiptJws : NonemptyText
  workerPublicKey : Hex32
  workerImage : Image
  workerCodeDigest : Hex32
  runpodMetadata : List UntrustedRunpodMetadata
  attempts : List AttemptObservation
  invocationDelta : { n : Int // (decide (0 ≤ n) && decide (n ≤ 1)) = true }
  credentialRedemptionCount : { n : Int // (decide (0 ≤ n) && decide (n ≤ 1)) = true }

namespace CaseFields

variable (c : CaseFields)

/-- The run ids of the attempts. -/
def runIds : List RunId := c.attempts.map fun a ↦ a.val.runId

/-- The replay branch of `_case_semantics`. -/
def checkReplay : Except Exn Unit := do
  raiseIf (c.attempts.map (fun a ↦ a.val.redemptionSequence.val) ≠ [1, 2])
    (.validation "replay case has inconsistent redemption sequence")
  raiseIf (c.runIds.toFinset.card ≠ 1)
    (.validation "replay case must repeat exactly one worker request")
  raiseIf ((c.attempts.map fun a ↦ (a.val.requestSha256, a.val.workerResponseSha256,
      a.val.holderProofSha256)).toFinset.card ≠ 1)
    (.validation "replay case must reuse the exact request and proof")

/-- The concurrent branch of `_case_semantics`. -/
def checkConcurrent : Except Exn Unit := do
  raiseIf (c.attempts.length < 2 ∨ ∃ a ∈ c.attempts, a.val.redemptionSequence.val ≠ 1)
    (.validation "concurrent case has inconsistent attempt shape")
  raiseIf (¬ c.runIds.Nodup) (.validation "concurrent case has duplicate attempt run IDs")
  raiseIf (¬ (c.attempts.map fun a ↦ a.val.requestSha256).Nodup)
    (.validation "concurrent case has duplicate request/proof bindings")
  raiseIf (¬ (c.attempts.map fun a ↦ a.val.workerResponseSha256).Nodup)
    (.validation "concurrent case has duplicate request/proof bindings")
  raiseIf (¬ (c.attempts.map fun a ↦ a.val.holderProofSha256).Nodup)
    (.validation "concurrent case has duplicate request/proof bindings")

/-- The branch of `_case_semantics` for the case's variant. -/
def checkShape : Except Exn Unit :=
  match c.variant with
  | .replay => c.checkReplay
  | .concurrent => c.checkConcurrent
  | _ => raiseIf (c.runIds.toFinset.card ≠ 1 ∨
      c.attempts.head?.any fun a ↦ decide (a.val.redemptionSequence.val ≠ 1))
      (.validation "single-attempt case has inconsistent run/sequence bindings")

/-- The list bounds and `_case_semantics`. -/
def check : Except Exn Unit := do
  raiseIf (¬ (1 ≤ c.runpodMetadata.length ∧ c.runpodMetadata.length ≤ 64 ∧
      1 ≤ c.attempts.length ∧ c.attempts.length ≤ 65))
    (.validation "a field is outside its bounds")
  c.checkShape
  raiseIf (c.runpodMetadata.length ≠ if c.variant = .concurrent then c.attempts.length else 1)
    (.validation "case metadata count does not match worker requests")
  let expectedCount : Int := if c.variant.allows then 1 else 0
  raiseIf (observedOutcomes c.variant c.attempts ≠
      expectedOutcomes (c.attempts.length - 1) c.variant ∨
      c.invocationDelta.val ≠ expectedCount ∨ c.credentialRedemptionCount.val ≠ expectedCount)
    (.validation "case observation contradicts its adversarial variant")

end CaseFields

/-- `CaseObservation`. -/
abbrev CaseObservation := Validated CaseFields.check

/-! ### The record -/

/-- `UntrustedRunpodObservation`: a bounded projection of provider metadata. -/
structure UntrustedRunpodObservation where
  endpointIdSha256 : Hex32
  jobIdSha256 : Hex32
  workerIdSha256 : Option Hex32
  workerImageArgument : Image
  delayTimeMs : Option { n : Int // (decide (0 ≤ n) && decide (n ≤ 86400000)) = true }
  executionTimeMs : Option { n : Int // (decide (0 ≤ n) && decide (n ≤ 86400000)) = true }

/-- The pattern of the raw key in a JWK: 43 characters of URL-safe Base64. -/
def isRawKey (t : Text) : Bool :=
  decide (t.length = 43) && t.all fun c ↦ isAlphanumeric c || (text "_-").contains c

/-- `Ed25519PublicJwk`. -/
structure Ed25519PublicJwk where
  x : { t : Text // isRawKey t = true }
  kid : ShortText 128

/-- The fields of `PublicReceiptVerifier`. -/
structure PublicReceiptVerifierFields where
  keyId : ShortText 128
  publicJwk : Ed25519PublicJwk

/-- `_matching_key_id`. -/
def PublicReceiptVerifierFields.check (v : PublicReceiptVerifierFields) : Except Exn Unit :=
  raiseIf (v.publicJwk.kid ≠ v.keyId)
    (.validation "receipt verifier key ID disagrees with its public JWK")

/-- `PublicReceiptVerifier`. -/
abbrev PublicReceiptVerifier := Validated PublicReceiptVerifierFields.check

/-- `tpm_mode`. -/
inductive TpmMode where
  | testDouble
  | realSwtpm
  deriving DecidableEq, Repr

/-- The string of a TPM mode. -/
def TpmMode.value : TpmMode → Text
  | .testDouble => text "test-double"
  | .realSwtpm => text "real-swtpm"

/-- The fields of `ExperimentRecordPayload`, the literals apart. -/
structure ExperimentRecordFields where
  experimentId : RunId
  observedAt : { n : Int // decide (0 ≤ n) = true }
  commitSha : { t : Text // t.isLowerHexOf 40 = true }
  uvLockSha256 : Hex32
  tpmMode : TpmMode
  tpmEvidenceVerified : Bool
  tpmAssuranceIncluded : Bool
  workerPublicKey : Hex32
  workerImage : Image
  workerCodeDigest : Hex32
  brokerReceiptVerifier : PublicReceiptVerifier
  resourceReceiptVerifier : PublicReceiptVerifier
  runpodObservation : UntrustedRunpodObservation
  brokerReceiptCount : { n : Int // decide (1 ≤ n) = true }
  resourceReceiptCount : { n : Int // decide (1 ≤ n) = true }
  allowedAttemptCount : { n : Int // decide (0 ≤ n) = true }
  deniedAttemptCount : { n : Int // decide (0 ≤ n) = true }
  handlerInvocationCount : { n : Int // decide (0 ≤ n) = true }
  credentialRedemptionCount : { n : Int // decide (0 ≤ n) = true }
  cases : List CaseObservation

namespace ExperimentRecordFields

variable (p : ExperimentRecordFields)

/-- The attempts of all cases, in order. -/
def attempts : List AttemptObservation := p.cases.flatMap fun c ↦ c.val.attempts

/-- The invocation ids of the attempts that have one. -/
def invocationIds : List Int :=
  p.attempts.filterMap fun a ↦ a.val.invocationId.map Subtype.val

/-- The first checks of `_record_semantics`: the keys, the image and the TPM flags. -/
def checkBindings : Except Exn Unit := do
  raiseIf (p.brokerReceiptVerifier.val.keyId = p.resourceReceiptVerifier.val.keyId ∨
      p.brokerReceiptVerifier.val.publicJwk.x = p.resourceReceiptVerifier.val.publicJwk.x)
    (.validation "broker and resource receipt verifiers must be distinct")
  raiseIf (p.runpodObservation.workerImageArgument ≠ p.workerImage)
    (.validation "provider observation contradicts the configured worker image")
  raiseIf (p.tpmEvidenceVerified ≠ decide (p.tpmMode = .realSwtpm))
    (.validation "TPM evidence flag contradicts the selected appraisal mode")
  raiseIf (p.tpmAssuranceIncluded ≠ (decide (p.tpmMode = .realSwtpm) && p.tpmEvidenceVerified))
    (.validation "TPM assurance flag disagrees with the verified evidence path")

/-- The case matrix of `_record_semantics`. -/
def checkMatrix : Except Exn Unit := do
  raiseIf (¬ (p.cases.map fun c ↦ c.val.caseId).Nodup)
    (.validation "experiment record has duplicate case IDs")
  raiseIf (p.cases.length ≠ Variant.all.length ∨
      (p.cases.map fun c ↦ c.val.variant).toFinset ≠ Variant.all.toFinset)
    (.validation "experiment record does not contain the exact required case matrix")
  raiseIf (∃ c ∈ p.cases, c.val.workerPublicKey ≠ p.workerPublicKey ∨
      c.val.workerImage ≠ p.workerImage ∨ c.val.workerCodeDigest ≠ p.workerCodeDigest)
    (.validation "experiment case has inconsistent worker bindings")

/-- The counts a record declares: broker and resource receipts, allowed and denied attempts,
invocations and redemptions. -/
def declared : List Int :=
  [p.brokerReceiptCount.val, p.resourceReceiptCount.val, p.allowedAttemptCount.val,
    p.deniedAttemptCount.val, p.handlerInvocationCount.val, p.credentialRedemptionCount.val]

/-- The counts of the embedded cases, in the same order. -/
def observed : List Int :=
  [p.cases.length, p.attempts.length, p.attempts.countP fun a ↦ a.val.allowed,
    p.attempts.countP fun a ↦ !a.val.allowed, (p.cases.map fun c ↦ c.val.invocationDelta.val).sum,
    (p.cases.map fun c ↦ c.val.credentialRedemptionCount.val).sum]

/-- The list bounds and `_record_semantics`. -/
def check : Except Exn Unit := do
  raiseIf (¬ (1 ≤ p.cases.length ∧ p.cases.length ≤ 64))
    (.validation "a field is outside its bounds")
  p.checkBindings
  p.checkMatrix
  raiseIf (¬ p.invocationIds.Nodup ∨ p.invocationIds.toFinset ≠
      ((List.range p.invocationIds.length).map fun n ↦ (n : Int) + 1).toFinset)
    (.validation "allowed attempts do not identify distinct local invocations")
  raiseIf (p.declared ≠ p.observed)
    (.validation "experiment aggregate counts do not match observed cases")

end ExperimentRecordFields

/-- `ExperimentRecordPayload`. -/
abbrev ExperimentRecordPayload := Validated ExperimentRecordFields.check

/-- `SignedExperimentRecord`. -/
structure SignedExperimentRecord where
  compactJws : NonemptyText

/-! ### Dumps -/

/-- A field that may be `None`, dumped. -/
def dumpOptional {α : Type} (dump : α → Value) : Option α → Value
  | some a => dump a
  | none => .none

/-- `AttemptObservation.model_dump(mode="json")`. -/
def AttemptFields.modelDump (a : AttemptFields) : Value :=
  .dict [(text "run_id", .str a.runId.val),
    (text "redemption_sequence", .int a.redemptionSequence.val),
    (text "request_sha256", .str a.requestSha256.val),
    (text "worker_response_sha256", .str a.workerResponseSha256.val),
    (text "holder_proof_sha256", .str a.holderProofSha256.val), (text "allowed", .bool a.allowed),
    (text "reason", .str a.reason.value), (text "receipt_jws", .str a.receiptJws.val),
    (text "receipt_verified", .bool true), (text "handler_invoked", .bool a.handlerInvoked),
    (text "business_result", .str a.businessResult.val.value),
    (text "invocation_id", dumpOptional (fun n ↦ .int n.val) a.invocationId)]

/-- The one value of `worker_binding_scope`. -/
def workerBindingScope : Text := text "holder-key-and-claimed-digest-only"

/-- `CaseObservation.model_dump(mode="json")`. -/
def CaseFields.modelDump (c : CaseFields) : Value :=
  .dict [(text "case_id", .str c.caseId.val), (text "variant", .str c.variant.value),
    (text "broker_receipt_jws", .str c.brokerReceiptJws.val),
    (text "broker_receipt_verified", .bool true), (text "worker_binding_verified", .bool true),
    (text "worker_public_key", .str c.workerPublicKey.val),
    (text "worker_image", .str c.workerImage.val),
    (text "worker_code_digest", .str c.workerCodeDigest.val),
    (text "worker_binding_scope", .str workerBindingScope),
    (text "runpod_metadata", .list (c.runpodMetadata.map UntrustedRunpodMetadata.modelDump)),
    (text "attempts", .list (c.attempts.map fun a ↦ a.val.modelDump)),
    (text "invocation_delta", .int c.invocationDelta.val),
    (text "credential_redemption_count", .int c.credentialRedemptionCount.val)]

/-- `UntrustedRunpodObservation.model_dump(mode="json")`. -/
def UntrustedRunpodObservation.modelDump (o : UntrustedRunpodObservation) : Value :=
  .dict [(text "provider", .str (text "runpod")), (text "trust", .str (text "untrusted")),
    (text "endpoint_id_sha256", .str o.endpointIdSha256.val),
    (text "job_id_sha256", .str o.jobIdSha256.val),
    (text "worker_id_sha256", dumpOptional (fun t ↦ .str t.val) o.workerIdSha256),
    (text "status", .str (text "COMPLETED")),
    (text "worker_image_argument", .str o.workerImageArgument.val),
    (text "delay_time_ms", dumpOptional (fun n ↦ .int n.val) o.delayTimeMs),
    (text "execution_time_ms", dumpOptional (fun n ↦ .int n.val) o.executionTimeMs)]

/-- `Ed25519PublicJwk.model_dump()`, the same in both modes. -/
def Ed25519PublicJwk.modelDump (k : Ed25519PublicJwk) : Value :=
  .dict [(text "kty", .str (text "OKP")), (text "crv", .str (text "Ed25519")),
    (text "x", .str k.x.val), (text "alg", .str (text "Ed25519")), (text "kid", .str k.kid.val),
    (text "use", .str (text "sig"))]

/-- `PublicReceiptVerifier.model_dump(mode="json")`. -/
def PublicReceiptVerifierFields.modelDump (v : PublicReceiptVerifierFields) : Value :=
  .dict [(text "key_id", .str v.keyId.val), (text "public_jwk", v.publicJwk.modelDump)]

/-- `TRUST_BOUNDARY`. -/
def trustBoundary : Text :=
  text ("local-controller-policy-store-tpm-root-and-verification-keys-trusted;" ++
    "runpod-host-control-plane-queue-worker-registry-metadata-and-output-untrusted")

/-- `ASSURANCE_DISCLAIMER`. -/
def assuranceDisclaimer : Text :=
  text ("This experiment tests application-level behavior against a remote untrusted caller. " ++
    "The self-contained JWS and bundled verifier establish internal signature consistency " ++
    "only; controller origin requires independently pinning the verifier key. With that " ++
    "pin, the JWS authenticates only the configured local controller's observed transcript; " ++
    "it does not attest Runpod, its host, control plane, queue, or worker; " ++
    "registry metadata or worker-image execution; holder-key residency; TPM/worker " ++
    "co-location; agent execution; TEE, network, or runtime integrity; or safe behavior.")

/-- `ExperimentRecordPayload.model_dump(mode="json")`. -/
def ExperimentRecordFields.modelDump (p : ExperimentRecordFields) : Value :=
  .dict [(text "schema_version", .str (text "atcap-runpod-experiment-record/v1")),
    (text "experiment_id", .str p.experimentId.val), (text "observed_at", .int p.observedAt.val),
    (text "commit_sha", .str p.commitSha.val), (text "uv_lock_sha256", .str p.uvLockSha256.val),
    (text "assurance_scope", .str (text "local-controller-observation-only")),
    (text "trust_boundary", .str trustBoundary),
    (text "assurance_disclaimer", .str assuranceDisclaimer),
    (text "tpm_mode", .str p.tpmMode.value),
    (text "tpm_evidence_verified", .bool p.tpmEvidenceVerified),
    (text "tpm_assurance_included", .bool p.tpmAssuranceIncluded),
    (text "worker_public_key", .str p.workerPublicKey.val),
    (text "worker_image", .str p.workerImage.val),
    (text "worker_code_digest", .str p.workerCodeDigest.val),
    (text "worker_binding_scope", .str workerBindingScope),
    (text "broker_receipt_verifier", p.brokerReceiptVerifier.val.modelDump),
    (text "resource_receipt_verifier", p.resourceReceiptVerifier.val.modelDump),
    (text "runpod_observation", p.runpodObservation.modelDump),
    (text "broker_receipt_count", .int p.brokerReceiptCount.val),
    (text "resource_receipt_count", .int p.resourceReceiptCount.val),
    (text "allowed_attempt_count", .int p.allowedAttemptCount.val),
    (text "denied_attempt_count", .int p.deniedAttemptCount.val),
    (text "handler_invocation_count", .int p.handlerInvocationCount.val),
    (text "credential_redemption_count", .int p.credentialRedemptionCount.val),
    (text "cases", .list (p.cases.map fun c ↦ c.val.modelDump))]

/-! ### Validation -/

section Validate

open Strict

/-- `AttemptObservation.model_validate`. -/
def AttemptFields.modelValidate : Value → Except Exn AttemptObservation :=
  model ["run_id", "redemption_sequence", "request_sha256", "worker_response_sha256",
    "holder_proof_sha256", "allowed", "reason", "receipt_jws", "receipt_verified",
    "handler_invoked", "business_result", "invocation_id"] fun m ↦ do
    let runId ← field m (text "run_id") (readPattern isRunId)
    let redemptionSequence ← field m (text "redemption_sequence") (readBounded _)
    let requestSha256 ← field m (text "request_sha256") (readPattern (Text.isLowerHexOf 64))
    let workerResponseSha256 ←
      field m (text "worker_response_sha256") (readPattern (Text.isLowerHexOf 64))
    let holderProofSha256 ←
      field m (text "holder_proof_sha256") (readPattern (Text.isLowerHexOf 64))
    let allowed ← field m (text "allowed") bool
    let reason ← field m (text "reason") knownReason
    let receiptJws ← field m (text "receipt_jws") (readPattern isNonempty)
    field m (text "receipt_verified") literalTrue
    let handlerInvoked ← field m (text "handler_invoked") bool
    let businessResult ← field m (text "business_result")
      (refine _ (choice [.notInvoked, .completed, .failed] BusinessResult.value))
    let invocationId ← field m (text "invocation_id") (optional (readBounded _))
    construct AttemptFields.check {
      runId, redemptionSequence, requestSha256, workerResponseSha256, holderProofSha256, allowed,
      reason, receiptJws, handlerInvoked, businessResult, invocationId }

/-- `CaseObservation.model_validate`. -/
def CaseFields.modelValidate : Value → Except Exn CaseObservation :=
  model ["case_id", "variant", "broker_receipt_jws", "broker_receipt_verified",
    "worker_binding_verified", "worker_public_key", "worker_image", "worker_code_digest",
    "worker_binding_scope", "runpod_metadata", "attempts", "invocation_delta",
    "credential_redemption_count"] fun m ↦ do
    let caseId ← field m (text "case_id") (readPattern isRunId)
    let variant ← field m (text "variant") (choice Variant.all Variant.value)
    let brokerReceiptJws ← field m (text "broker_receipt_jws") (readPattern isNonempty)
    field m (text "broker_receipt_verified") literalTrue
    field m (text "worker_binding_verified") literalTrue
    let workerPublicKey ← field m (text "worker_public_key") (readPattern (Text.isLowerHexOf 64))
    let workerImage ← field m (text "worker_image") (readPattern isImage)
    let workerCodeDigest ← field m (text "worker_code_digest") (readPattern (Text.isLowerHexOf 64))
    field m (text "worker_binding_scope") (literal workerBindingScope)
    let runpodMetadata ←
      field m (text "runpod_metadata") (list UntrustedRunpodMetadata.modelValidate)
    let attempts ← field m (text "attempts") (list AttemptFields.modelValidate)
    let invocationDelta ← field m (text "invocation_delta") (readBounded _)
    let credentialRedemptionCount ← field m (text "credential_redemption_count") (readBounded _)
    construct CaseFields.check {
      caseId, variant, brokerReceiptJws, workerPublicKey, workerImage, workerCodeDigest,
      runpodMetadata, attempts, invocationDelta, credentialRedemptionCount }

/-- `UntrustedRunpodObservation.model_validate`. -/
def UntrustedRunpodObservation.modelValidate : Value → Except Exn UntrustedRunpodObservation :=
  model ["provider", "trust", "endpoint_id_sha256", "job_id_sha256", "worker_id_sha256", "status",
    "worker_image_argument", "delay_time_ms", "execution_time_ms"] fun m ↦ do
    field m (text "provider") (literal (text "runpod"))
    field m (text "trust") (literal (text "untrusted"))
    let endpointIdSha256 ← field m (text "endpoint_id_sha256") (readPattern (Text.isLowerHexOf 64))
    let jobIdSha256 ← field m (text "job_id_sha256") (readPattern (Text.isLowerHexOf 64))
    let workerIdSha256 ←
      field m (text "worker_id_sha256") (optional (readPattern (Text.isLowerHexOf 64)))
    field m (text "status") (literal (text "COMPLETED"))
    let workerImageArgument ← field m (text "worker_image_argument") (readPattern isImage)
    let delayTimeMs ← field m (text "delay_time_ms") (optional (readBounded _))
    let executionTimeMs ← field m (text "execution_time_ms") (optional (readBounded _))
    return {
      endpointIdSha256, jobIdSha256, workerIdSha256, workerImageArgument, delayTimeMs,
      executionTimeMs }

/-- `Ed25519PublicJwk.model_validate`. -/
def Ed25519PublicJwk.modelValidate : Value → Except Exn Ed25519PublicJwk :=
  model ["kty", "crv", "x", "alg", "kid", "use"] fun m ↦ do
    field m (text "kty") (literal (text "OKP"))
    field m (text "crv") (literal (text "Ed25519"))
    let x ← field m (text "x") (readPattern isRawKey)
    field m (text "alg") (literal (text "Ed25519"))
    let kid ← field m (text "kid") (readPattern (isBounded 1 128))
    field m (text "use") (literal (text "sig"))
    return { x, kid }

/-- `PublicReceiptVerifier.model_validate`. -/
def PublicReceiptVerifierFields.modelValidate : Value → Except Exn PublicReceiptVerifier :=
  model ["key_id", "public_jwk"] fun m ↦ do
    let keyId ← field m (text "key_id") (readPattern (isBounded 1 128))
    let publicJwk ← field m (text "public_jwk") Ed25519PublicJwk.modelValidate
    construct PublicReceiptVerifierFields.check { keyId, publicJwk }

/-- `ExperimentRecordPayload.model_validate`. -/
def ExperimentRecordFields.modelValidate : Value → Except Exn ExperimentRecordPayload :=
  model ["schema_version", "experiment_id", "observed_at", "commit_sha", "uv_lock_sha256",
    "assurance_scope", "trust_boundary", "assurance_disclaimer", "tpm_mode",
    "tpm_evidence_verified", "tpm_assurance_included", "worker_public_key", "worker_image",
    "worker_code_digest", "worker_binding_scope", "broker_receipt_verifier",
    "resource_receipt_verifier", "runpod_observation", "broker_receipt_count",
    "resource_receipt_count", "allowed_attempt_count", "denied_attempt_count",
    "handler_invocation_count", "credential_redemption_count", "cases"] fun m ↦ do
    field m (text "schema_version") (literal (text "atcap-runpod-experiment-record/v1"))
    let experimentId ← field m (text "experiment_id") (readPattern isRunId)
    let observedAt ← field m (text "observed_at") (readBounded _)
    let commitSha ← field m (text "commit_sha") (readPattern (Text.isLowerHexOf 40))
    let uvLockSha256 ← field m (text "uv_lock_sha256") (readPattern (Text.isLowerHexOf 64))
    field m (text "assurance_scope") (literal (text "local-controller-observation-only"))
    field m (text "trust_boundary") (literal trustBoundary)
    field m (text "assurance_disclaimer") (literal assuranceDisclaimer)
    let tpmMode ← field m (text "tpm_mode") (choice [.testDouble, .realSwtpm] TpmMode.value)
    let tpmEvidenceVerified ← field m (text "tpm_evidence_verified") bool
    let tpmAssuranceIncluded ← field m (text "tpm_assurance_included") bool
    let workerPublicKey ← field m (text "worker_public_key") (readPattern (Text.isLowerHexOf 64))
    let workerImage ← field m (text "worker_image") (readPattern isImage)
    let workerCodeDigest ← field m (text "worker_code_digest") (readPattern (Text.isLowerHexOf 64))
    field m (text "worker_binding_scope") (literal workerBindingScope)
    let brokerReceiptVerifier ←
      field m (text "broker_receipt_verifier") PublicReceiptVerifierFields.modelValidate
    let resourceReceiptVerifier ←
      field m (text "resource_receipt_verifier") PublicReceiptVerifierFields.modelValidate
    let runpodObservation ←
      field m (text "runpod_observation") UntrustedRunpodObservation.modelValidate
    let brokerReceiptCount ← field m (text "broker_receipt_count") (readBounded _)
    let resourceReceiptCount ← field m (text "resource_receipt_count") (readBounded _)
    let allowedAttemptCount ← field m (text "allowed_attempt_count") (readBounded _)
    let deniedAttemptCount ← field m (text "denied_attempt_count") (readBounded _)
    let handlerInvocationCount ← field m (text "handler_invocation_count") (readBounded _)
    let credentialRedemptionCount ← field m (text "credential_redemption_count") (readBounded _)
    let cases ← field m (text "cases") (list CaseFields.modelValidate)
    construct ExperimentRecordFields.check {
      experimentId, observedAt, commitSha, uvLockSha256, tpmMode, tpmEvidenceVerified,
      tpmAssuranceIncluded, workerPublicKey, workerImage, workerCodeDigest, brokerReceiptVerifier,
      resourceReceiptVerifier, runpodObservation, brokerReceiptCount, resourceReceiptCount,
      allowedAttemptCount, deniedAttemptCount, handlerInvocationCount, credentialRedemptionCount,
      cases }

end Validate

end Atcap.Lab
