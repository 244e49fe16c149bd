import Mathlib.Data.Finset.Dedup
import Atcap.Lab.Wire

/-!
# Experiment records

`lab/record.py`: `ExperimentRecordVerifier.verify` with every check of the embedded receipts. The
loop over the cases keeps what each receipt binds, in the order of the receipts; each set, list
and counter of the source is one field of these. How a JWK becomes a key is a parameter.
-/

namespace Atcap.Lab

open Base

/-- `OKPKey.import_key` of a public JWK. -/
abbrev ImportKey := Value → Except Exn Bytes

/-- The protected type of every record. -/
def recordJwsType : Text := text "atcap-runpod-experiment+jws"

/-- `EXPECTED_QUALIFIED_SCOPE`. -/
def expectedQualifiedScope : Text := text "mcp://inventoryd/tool/inventory.lookup"

/-- `EXPECTED_METHOD`. -/
def expectedMethod : Text := text "inventory.lookup"

/-- `EXPECTED_AUDIENCE`. -/
def expectedAudience : Text := text "inventoryd"

/-- The names of the artifacts of a broker receipt. -/
def brokerArtifacts : Finset Text :=
  {text "broker_policy_sha256", text "issuance_request_sha256", text "tpm_ak_chain_sha256",
    text "tpm_attest_sha256", text "tpm_signature_sha256"}

/-- `set(receipt.artifact_hashes)`. -/
def artifactNames (hashes : ArtifactHashes) : Finset Text := (hashes.toList.map Prod.fst).toFinset

/-! ### The receipts of one case -/

/-- What a broker receipt binds. -/
structure BrokerBinding where
  jws : Text
  receiptId : Text
  decidedAt : Int
  credentialId : Text
  qualifiedScope : Text
  challengeTokenHash : Text
  manifestDigest : Text
  brokerPolicySha256 : Text
  issuanceRequestSha256 : Text
  tpmAkChainSha256 : Text
  tpmAttestSha256 : Text
  tpmSignatureSha256 : Text

/-- What a resource receipt binds. -/
structure ResourceBinding where
  jws : Text
  receiptId : Text
  decidedAt : Int
  challengeTokenHash : Option Text
  method : Text
  audience : Text
  argumentsDigest : Text
  recordId : Text
  handlerCountSnapshot : Int
  resourcePolicySha256 : Text

/-- The accumulators of `_verify_embedded_receipts`. -/
structure Seen where
  brokers : List BrokerBinding
  resources : List ResourceBinding
  replayChallengeHash : Option Text

/-- The `ValueError` of a broker receipt. -/
def brokerContradicts : Exn := .value "broker receipt contradicts the experiment case"

/-- The checks of a broker receipt. -/
def readBroker (brokers : List BrokerBinding) (observedAt : Int) (jws : Text) (b : ReceiptFields) :
    Except Exn BrokerBinding := do
  raiseIf (b.receiptId ∈ brokers.map BrokerBinding.receiptId ∨ b.decidingService ≠ .broker ∨
    b.decision ≠ .allow ∨ b.reason ≠ .ALLOW) brokerContradicts
  let credentialId ← orRaise b.credentialId brokerContradicts
  raiseIf (credentialId ∈ brokers.map BrokerBinding.credentialId) brokerContradicts
  let qualifiedScope ← orRaise b.qualifiedScope brokerContradicts
  let challengeTokenHash ← orRaise b.challengeTokenHash brokerContradicts
  raiseIf (challengeTokenHash ∈ brokers.map BrokerBinding.challengeTokenHash) brokerContradicts
  let manifestDigest ← orRaise b.manifestDigest brokerContradicts
  raiseIf (observedAt < b.decidedAt ∨ artifactNames b.artifactHashes ≠ brokerArtifacts)
    brokerContradicts
  raiseIf (∃ t ∈ [credentialId, challengeTokenHash] ++ b.artifactHashes.toList.map Prod.snd,
    Text.isLowerHexOf 64 t = false) brokerContradicts
  raiseIf (¬ (text "sha256:" <+: manifestDigest ∧ Text.isLowerHexOf 64 (manifestDigest.drop 7)))
    brokerContradicts
  raiseIf (b.method.isSome ∨ b.audience.isSome ∨ b.argumentsDigest.isSome ∨ b.recordId.isSome)
    brokerContradicts
  let brokerPolicySha256 ← orRaise b.artifactHashes[text "broker_policy_sha256"]? .other
  let issuanceRequestSha256 ← orRaise b.artifactHashes[text "issuance_request_sha256"]? .other
  let tpmAkChainSha256 ← orRaise b.artifactHashes[text "tpm_ak_chain_sha256"]? .other
  let tpmAttestSha256 ← orRaise b.artifactHashes[text "tpm_attest_sha256"]? .other
  let tpmSignatureSha256 ← orRaise b.artifactHashes[text "tpm_signature_sha256"]? .other
  return {
    jws, receiptId := b.receiptId, decidedAt := b.decidedAt, credentialId, qualifiedScope,
    challengeTokenHash, manifestDigest, brokerPolicySha256, issuanceRequestSha256,
    tpmAkChainSha256, tpmAttestSha256, tpmSignatureSha256 }

/-- The `ValueError` of a resource receipt. -/
def resourceContradicts : Exn := .value "resource receipt contradicts the experiment attempt"

/-- The decision an attempt is expected to have. -/
def AttemptFields.expectedDecision (a : AttemptFields) : Verdict :=
  if a.allowed then .allow else .deny

/-- The checks of a resource receipt. -/
def readResource (resources : List ResourceBinding) (observedAt : Int) (broker : BrokerBinding)
    (variant : Variant) (a : AttemptFields) (r : ReceiptFields) :
    Except Exn ResourceBinding := do
  raiseIf (r.receiptId ∈ resources.map ResourceBinding.receiptId ∨
    r.decidingService ≠ .inventoryd ∨ r.decision ≠ a.expectedDecision ∨ r.reason ≠ a.reason ∨
    r.credentialId ≠ some broker.credentialId ∨ r.qualifiedScope ≠ some broker.qualifiedScope)
    resourceContradicts
  let method ← orRaise r.method resourceContradicts
  let audience ← orRaise r.audience resourceContradicts
  let argumentsDigest ← orRaise r.argumentsDigest resourceContradicts
  let recordId ← orRaise r.recordId resourceContradicts
  raiseIf (r.manifestDigest.isSome ∨ r.decidedAt < broker.decidedAt ∨ observedAt < r.decidedAt ∨
    r.handlerInvoked ≠ a.handlerInvoked ∨ r.businessResult ≠ a.businessResult.val ∨
    r.invocationId ≠ a.invocationId.map Subtype.val ∨
    artifactNames r.artifactHashes ≠ {text "resource_policy_sha256"}) resourceContradicts
  let resourcePolicySha256 ← orRaise r.artifactHashes[text "resource_policy_sha256"]? .other
  raiseIf (Text.isLowerHexOf 64 resourcePolicySha256 = false ∨
    Text.isLowerHexOf 64 argumentsDigest = false) resourceContradicts
  raiseIf (variant = .malformed ∧ r.challengeTokenHash.isSome) resourceContradicts
  raiseIf (variant ≠ .malformed ∧
    r.challengeTokenHash.any (Text.isLowerHexOf 64) = false) resourceContradicts
  return {
    jws := a.receiptJws.val, receiptId := r.receiptId, decidedAt := r.decidedAt,
    challengeTokenHash := r.challengeTokenHash, method, audience, argumentsDigest, recordId,
    handlerCountSnapshot := r.handlerCountSnapshot, resourcePolicySha256 }

/-- The two receipt verifiers of a record. -/
structure Verifiers where
  broker : ReceiptVerifier
  resource : ReceiptVerifier

variable (lib : Libraries) (v : Verifiers) (observedAt : Int)

/-- The loop over the attempts of a case, with what the receipts of the case bind so far. -/
def verifyAttempts (resources : List ResourceBinding) (broker : BrokerBinding) (variant : Variant)
    (own : List ResourceBinding) : List AttemptObservation → Except Exn (List ResourceBinding)
  | [] => .ok own
  | a :: attempts => do
    raiseIf (a.val.receiptJws.val ∈ (resources ++ own).map ResourceBinding.jws)
      (.value "experiment reuses a resource receipt")
    let receipt ← v.resource.verify lib ⟨a.val.receiptJws.val⟩
    let r ← readResource (resources ++ own) observedAt broker variant a.val receipt.toReceiptFields
    verifyAttempts resources broker variant (own ++ [r]) attempts

/-- The checks of the replay case. -/
def checkReplayReceipts (own : List ResourceBinding) : Except Exn Unit := do
  raiseIf ((own.map ResourceBinding.challengeTokenHash).toFinset.card ≠ 1 ∨
    (own.map ResourceBinding.recordId).toFinset.card ≠ 1 ∨
    (own.map ResourceBinding.argumentsDigest).toFinset.card ≠ 1)
    (.value "replay receipts do not reuse the same call context")
  raiseIf (¬ (own.map ResourceBinding.decidedAt).Pairwise (· ≤ ·) ∨
    ¬ (own.map ResourceBinding.handlerCountSnapshot).Pairwise (· ≤ ·))
    (.value "replay receipts contradict their redemption order")

/-- The checks of the concurrent case. -/
def checkConcurrentReceipts (own : List ResourceBinding) : Except Exn Unit :=
  raiseIf (¬ (own.map ResourceBinding.challengeTokenHash).Nodup ∨
    ¬ (own.map ResourceBinding.recordId).Nodup ∨
    (own.map ResourceBinding.argumentsDigest).toFinset.card ≠ 1)
    (.value "concurrent receipts contradict their fresh call contexts")

/-- The invocation a variant is expected to cause. -/
def expectedInvocationId : Variant → Option Int
  | .valid => some 1
  | .replay => some 2
  | .concurrent => some 3
  | _ => none

/-- The invocation ids of the allowed attempts. -/
def CaseFields.allowedInvocationIds (c : CaseFields) : List (Option Int) :=
  (c.attempts.filter fun a ↦ a.val.allowed).map fun a ↦ a.val.invocationId.map Subtype.val

/-- The checks for the two cases with several receipts. -/
def checkVariantReceipts (variant : Variant) (own : List ResourceBinding) : Except Exn Unit :=
  match variant with
  | .replay => checkReplayReceipts own
  | .concurrent => checkConcurrentReceipts own
  | _ => .ok ()

/-- The checks that follow the receipts of a case. -/
def checkCaseReceipts (c : CaseFields) (own : List ResourceBinding) : Except Exn Unit := do
  checkVariantReceipts c.variant own
  raiseIf ((expectedInvocationId c.variant).any
    (fun n ↦ decide (c.allowedInvocationIds ≠ [some n])) = true)
    (.value "allowed receipt contradicts the fixed case execution order")

/-- One case. -/
def verifyCase (s : Seen) (c : CaseFields) : Except Exn Seen := do
  raiseIf (c.brokerReceiptJws.val ∈ s.brokers.map BrokerBinding.jws)
    (.value "experiment reuses a broker receipt")
  let receipt ← v.broker.verify lib ⟨c.brokerReceiptJws.val⟩
  let broker ← readBroker s.brokers observedAt c.brokerReceiptJws.val receipt.toReceiptFields
  let own ← verifyAttempts lib v observedAt s.resources broker c.variant [] c.attempts
  checkCaseReceipts c own
  return {
    brokers := s.brokers ++ [broker]
    resources := s.resources ++ own
    replayChallengeHash :=
      if c.variant = .replay then own.head?.bind ResourceBinding.challengeTokenHash
      else s.replayChallengeHash }

/-- The loop over the cases. -/
def verifyCases (s : Seen) : List CaseObservation → Except Exn Seen
  | [] => .ok s
  | c :: cases => do
    let s ← verifyCase lib v observedAt s c.val
    verifyCases s cases

/-! ### The record -/

namespace Seen

variable (s : Seen)

/-- The hashes of the resource challenges, in order. -/
def resourceChallengeHashes : List Text := s.resources.filterMap ResourceBinding.challengeTokenHash

/-- The number of distinct values of a claim of the broker receipts. -/
def brokerCount (claim : BrokerBinding → Text) : Nat := (s.brokers.map claim).toFinset.card

/-- The number of distinct values of a claim of the resource receipts. -/
def resourceCount (claim : ResourceBinding → Text) : Nat := (s.resources.map claim).toFinset.card

/-- The bindings that all receipts share. -/
def checkBindings : Except Exn Unit := do
  raiseIf (s.brokerCount BrokerBinding.qualifiedScope ≠ 1 ∨
    s.resourceCount ResourceBinding.method ≠ 1 ∨ s.resourceCount ResourceBinding.audience ≠ 1 ∨
    s.brokerCount BrokerBinding.manifestDigest ≠ 1 ∨
    s.brokerCount BrokerBinding.brokerPolicySha256 ≠ 1 ∨
    s.resourceCount ResourceBinding.resourcePolicySha256 ≠ 1)
    (.value "embedded receipts disagree on resource bindings")
  raiseIf ((s.brokers.map BrokerBinding.qualifiedScope).toFinset ≠ {expectedQualifiedScope} ∨
    (s.resources.map ResourceBinding.method).toFinset ≠ {expectedMethod} ∨
    (s.resources.map ResourceBinding.audience).toFinset ≠ {expectedAudience})
    (.value "embedded receipts do not name the fixed inventory capability")

/-- The issuance requests and the quotes. -/
def checkIssuances (p : ExperimentRecordFields) : Except Exn Unit := do
  raiseIf (s.brokerCount BrokerBinding.issuanceRequestSha256 ≠ p.cases.length)
    (.value "broker receipts reuse an issuance request")
  raiseIf (p.tpmMode = .realSwtpm ∧ (s.brokerCount BrokerBinding.tpmAkChainSha256 ≠ 1 ∨
    s.brokerCount BrokerBinding.tpmAttestSha256 ≠ p.cases.length ∨
    s.brokerCount BrokerBinding.tpmSignatureSha256 ≠ p.cases.length))
    (.value "real-swtpm broker receipts contradict the fresh-quote trace")

/-- The snapshots of the handler count. -/
def checkSnapshots (p : ExperimentRecordFields) : Except Exn Unit :=
  let snapshots := s.resources.map ResourceBinding.handlerCountSnapshot
  raiseIf (snapshots = [] ∨ (∃ n ∈ snapshots, p.handlerInvocationCount.val < n) ∨
    snapshots.max? ≠ some p.handlerInvocationCount.val)
    (.value "resource receipt snapshots contradict the final handler count")

/-- The `Counter` of the resource challenges. -/
def checkChallenges : Except Exn Unit := do
  let replayed ← orRaise s.replayChallengeHash
    (.value "resource challenge hashes are reused outside the replay pair")
  raiseIf (s.resourceChallengeHashes.count replayed ≠ 2 ∨
    ∃ t ∈ s.resourceChallengeHashes,
      s.resourceChallengeHashes.count t ≠ if t = replayed then 2 else 1)
    (.value "resource challenge hashes are reused outside the replay pair")

end Seen

/-- The receipt verifier of a published key. -/
def PublicReceiptVerifierFields.receiptVerifier (importKey : ImportKey)
    (k : PublicReceiptVerifierFields) : Except Exn ReceiptVerifier := do
  let publicKey ← importKey k.publicJwk.modelDump
  return ⟨publicKey, k.keyId.val⟩

/-- `_verify_embedded_receipts`. -/
def verifyEmbeddedReceipts (importKey : ImportKey) (p : ExperimentRecordFields) :
    Except Exn Unit := do
  let broker ← p.brokerReceiptVerifier.val.receiptVerifier importKey
  let resource ← p.resourceReceiptVerifier.val.receiptVerifier importKey
  let s ← verifyCases lib ⟨broker, resource⟩ p.observedAt.val ⟨[], [], none⟩ p.cases
  s.checkBindings
  s.checkIssuances p
  s.checkSnapshots p
  s.checkChallenges

/-- The protected header of a record signed under key id `keyId`. -/
def recordHeader (keyId : Text) : Value :=
  .dict [(text "alg", .str jwsAlgorithm), (text "kid", .str keyId),
    (text "typ", .str recordJwsType)]

/-- `ExperimentRecordSigner`. -/
structure ExperimentRecordSigner where
  privateKey : Bytes
  keyId : Text

/-- `ExperimentRecordSigner.sign`. -/
def ExperimentRecordSigner.sign (s : ExperimentRecordSigner) (payload : ExperimentRecordPayload) :
    Except Exn SignedExperimentRecord := do
  let data ← canonicalJson lib payload.val.modelDump
  let compact ← lib.jwsSerializeCompact (recordHeader s.keyId) data s.privateKey
  let compactJws ← checked isNonempty compact
  return ⟨compactJws⟩

/-- `ExperimentRecordVerifier`. -/
structure ExperimentRecordVerifier where
  publicKey : Bytes
  keyId : Text

/-- `ExperimentRecordVerifier.from_public_jwk`. -/
def ExperimentRecordVerifier.fromPublicJwk (importKey : ImportKey) (k : Ed25519PublicJwk)
    (keyId : Text) : Except Exn ExperimentRecordVerifier := do
  let publicKey ← importKey k.modelDump
  return ⟨publicKey, keyId⟩

/-- The header a verifier expects. -/
def ExperimentRecordVerifier.expected (r : ExperimentRecordVerifier) : List (Text × Text) :=
  [(text "alg", jwsAlgorithm), (text "kid", r.keyId), (text "typ", recordJwsType)]

/-- The exception of a record that is not accepted. -/
def experimentRecordError : Exn := .value "experiment record verification failed"

/-- The body of the `try` statement of `ExperimentRecordVerifier.verify`. -/
def ExperimentRecordVerifier.decode (importKey : ImportKey) (r : ExperimentRecordVerifier)
    (signed : SignedExperimentRecord) : Except Exn ExperimentRecordPayload := do
  let value ← lib.jwsDeserializeCompact signed.compactJws.val r.publicKey
  raiseIf (¬ value.1.isTexts r.expected) (.value "unexpected protected header")
  let decoded ← strictJsonObject lib value.2
  let data ← canonicalJson lib decoded
  raiseIf (data ≠ value.2) (.value "record is not RFC 8785 canonical JSON")
  let payload ← ExperimentRecordFields.modelValidate decoded
  verifyEmbeddedReceipts lib importKey payload.val
  return payload

/-- `ExperimentRecordVerifier.verify`. -/
def ExperimentRecordVerifier.verify (importKey : ImportKey) (r : ExperimentRecordVerifier)
    (signed : SignedExperimentRecord) : Except Exn ExperimentRecordPayload :=
  (r.decode lib importKey signed).mapError fun _ ↦ experimentRecordError

end Atcap.Lab
