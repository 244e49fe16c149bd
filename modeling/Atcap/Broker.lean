import Atcap.Challenge
import Atcap.Identity
import Atcap.ManifestVerifier
import Atcap.Tpm

/-!
# Issuance decisions of the capability broker

`src/atcap/broker.py`. Appraisal is non-mutating; the transaction that consumes the broker
challenge is the last step before minting. The `try` block's three local variables survive an
exception, because the denial receipt names what was known when the exception was raised.
-/

namespace Atcap

open Base

/-! ### Runtime validation of the inputs -/

/-- One iteration of the field loop of `_validate_issuance_request_runtime`. -/
def stringField (fieldName : String) (v : Option Value) : Except Exn Text :=
  match v with
  | some (.str t) => .ok t
  | _ => .error (.decision .REQUEST_BINDING
      ("issuance request field " ++ fieldName ++ " must be a string"))

/-- `_validate_issuance_request_runtime`. -/
def validateIssuanceRequestRuntime (raw : RawIssuanceRequest) : Except Exn IssuanceRequest :=
  match raw with
  | .foreign => .error (.decision .REQUEST_BINDING "issuance request has an invalid runtime type")
  | .request version brokerId challenge manifestDigest identityKey holderKey resourceIssuerKid
      resourceIssuerKey requestedScope identitySignature => do
    let version ← stringField "version" version
    let brokerId ← stringField "broker_id" brokerId
    let challenge ← stringField "challenge" challenge
    let manifestDigest ← stringField "manifest_digest" manifestDigest
    let identityKey ← stringField "identity_key" identityKey
    let holderKey ← stringField "holder_key" holderKey
    let resourceIssuerKid ← stringField "resource_issuer_kid" resourceIssuerKid
    let resourceIssuerKey ← stringField "resource_issuer_key" resourceIssuerKey
    let requestedScope ← stringField "requested_scope" requestedScope
    let identitySignature ← stringField "identity_signature" identitySignature
    return ⟨version, brokerId, challenge, manifestDigest, identityKey, holderKey,
      resourceIssuerKid, resourceIssuerKey, requestedScope, identitySignature⟩

/-- One iteration of the field loop of `_validate_tpm_evidence_runtime`. -/
def bytesField (fieldName : String) (v : Option Value) : Except Exn Bytes :=
  match v with
  | some (.bytes b) => .ok b
  | _ => .error (.decision .TPM_INVALID
      ("TPM evidence field " ++ fieldName ++ " must be bytes"))

/-- `_validate_tpm_evidence_runtime`. -/
def validateTpmEvidenceRuntime (raw : RawTpmEvidence) : Except Exn TpmEvidence :=
  match raw with
  | .foreign => .error (.decision .TPM_INVALID "TPM evidence has an invalid runtime type")
  | .evidence attest signature akChainPem => do
    let attest ← bytesField "attest" attest
    let signature ← bytesField "signature" signature
    let akChainPem ← bytesField "ak_chain_pem" akChainPem
    return ⟨attest, signature, akChainPem⟩

/-! ### The broker -/

/-- `CapabilityBroker`: its configuration. -/
structure CapabilityBroker where
  policy : BrokerPolicy
  challengeSecret : Bytes
  issuerPrivateKey : Ed25519PrivateKey
  receiptSigner : ReceiptSigner
  tpmAppraiser : TpmAppraiser
  secretLength : 32 ≤ challengeSecret.length
  issuerMatches : hex issuerPrivateKey.publicRaw = policy.resourceIssuerPublicHex
  challengeTtlPositive : 0 < policy.challengeTtlSeconds
  credentialTtlPositive : 0 < policy.credentialTtlSeconds

namespace CapabilityBroker

/-- `CapabilityBroker.__init__`. -/
def init (policy : BrokerPolicy) (challengeSecret : Bytes) (issuerPrivateKey : Ed25519PrivateKey)
    (receiptSigner : ReceiptSigner) (tpmAppraiser : TpmAppraiser) :
    Except Exn CapabilityBroker :=
  if hs : challengeSecret.length < 32 then
    .error (.value "broker challenge secret must be at least 32 bytes")
  else if hm : hex issuerPrivateKey.publicRaw ≠ policy.resourceIssuerPublicHex then
    .error (.value "resource issuer private key does not match broker policy")
  else if hc : policy.challengeTtlSeconds ≤ 0 then
    .error (.value "broker challenge TTL must be positive")
  else if ht : policy.credentialTtlSeconds ≤ 0 then
    .error (.value "credential TTL must be positive")
  else
    .ok ⟨policy, challengeSecret, issuerPrivateKey, receiptSigner, tpmAppraiser, by omega,
      not_not.mp hm, by omega, by omega⟩

variable (lib : Libraries) (broker : CapabilityBroker)

/-- `new_challenge`. -/
def newChallenge : Py Unit Text := do
  let issuedAt ← readClock
  let (token, expiry) ←
    issueCa2aChallengeAt broker.challengeSecret issuedAt broker.policy.challengeTtlSeconds
  let tokenHash ← Body.ofExcept (challengeTokenHash token)
  Body.invoke (.storeBrokerChallenge tokenHash issuedAt expiry) id
  return token

/-- `_receipt`. -/
def receipt {L : Type} (decision : Verdict) (reason : Reason)
    (credentialId challengeHash manifestDigest : Option Text) (artifactHashes : ArtifactHashes) :
    Py L SignedDecisionReceipt := do
  let receiptId ← Body.perform (.tokenHex 16)
  let decidedAt ← readClock
  let payload ← Body.ofExcept (DecisionReceiptPayload.construct {
    receiptId := receiptId
    decidingService := .broker
    decision := decision
    reason := reason
    decidedAt := decidedAt
    credentialId := credentialId
    qualifiedScope := some broker.policy.qualifiedScope
    challengeTokenHash := challengeHash
    manifestDigest := manifestDigest
    method := none
    audience := none
    argumentsDigest := none
    recordId := none
    invocationId := none
    handlerCountSnapshot := 0
    handlerInvoked := false
    businessResult := .notApplicable
    artifactHashes := artifactHashes })
  Body.invoke (.sign broker.receiptSigner payload) id

/-! ### Issuance -/

/-- The variables of `issue` that its exception handlers read. -/
structure IssueLocals where
  tokenHash : Option Text
  manifestDigest : Option Text
  artifactHashes : ArtifactHashes

/-- `artifact_hashes[key] = digest`. -/
def IssueLocals.record (key digest : Text) (l : IssueLocals) : IssueLocals :=
  { l with artifactHashes := l.artifactHashes.insert key digest }

/-- `artifact_hashes.update(members)`. -/
def IssueLocals.recordAll (members : List (Text × Text)) (l : IssueLocals) : IssueLocals :=
  { l with artifactHashes := l.artifactHashes.insertMany members }

/-- Hash the policy, validate the inputs and record what a receipt may name of them. -/
def bindInputs (request : RawIssuanceRequest) (tpmEvidence : RawTpmEvidence) :
    Py IssueLocals (IssuanceRequest × TpmEvidence × Text) := do
  let policyDict ← Body.ofExcept broker.policy.publicDict
  let policyDigest ← Body.ofExcept (canonicalDigest lib policyDict)
  Body.assign (IssueLocals.record (text "broker_policy_sha256") policyDigest)
  let request ← Body.ofExcept (validateIssuanceRequestRuntime request)
  Body.assign fun l ↦ { l with manifestDigest := some request.manifestDigest }
  let tokenHash ← Body.ofExcept (challengeTokenHash request.challenge)
  Body.assign fun l ↦ { l with tokenHash := some tokenHash }
  let evidence ← Body.ofExcept (validateTpmEvidenceRuntime tpmEvidence)
  Body.assign (IssueLocals.recordAll evidence.digestable)
  let requestDigest ← Body.ofExcept (canonicalDigest lib request.toDict)
  Body.assign (IssueLocals.record (text "issuance_request_sha256") requestDigest)
  return (request, evidence, tokenHash)

/-- `except AttestationFailed` around `verify_challenge`. -/
def challengeFailure (e : Exn) : Exn :=
  match e with
  | .attestationFailed message =>
    .decision (if Exn.mentions "expired" message then .CHALLENGE_STALE else .CHALLENGE_INVALID)
      "broker challenge is not usable"
  | e => e

/-- The non-mutating appraisal of a request. -/
def appraiseRequest (request : IssuanceRequest) (manifest : Value) (evidence : TpmEvidence) :
    Py IssueLocals Unit := do
  let now ← Body.invoke .clock (Except.mapError challengeFailure)
  callLibExcept (.verifyChallenge broker.challengeSecret request.challenge now) challengeFailure
  let _ ← verifySignedManifest manifest broker.policy.manifest
  verifyIdentityEndorsement lib request broker.policy
  let qualifyingData ← Body.ofExcept (issuanceQualifyingData lib request)
  broker.tpmAppraiser.appraise evidence qualifyingData broker.policy.tpm

/-- The credential that an allowed request is given, before it is signed. -/
def unsignedCredential (request : IssuanceRequest) (credentialId : Text) (now : Int) :
    Credential where
  credentialId := credentialId
  issuer := hex broker.issuerPrivateKey.publicRaw
  subject := request.holderKey
  scope := {broker.policy.qualifiedScope}
  depth := 0
  parentId := none
  notBefore := some now
  notAfter := some (now + broker.policy.credentialTtlSeconds)
  signature := []

/-- `credential_to_dict`. -/
def credentialToDict {L : Type} (credential : Credential) : Py L Value := do
  let body ← callLib (.credentialBody credential)
  return .dict (Value.setMember body (text "signature") (.str credential.signature))

/-- Mint the credential, sign the allow receipt and return both. -/
def mint (request : IssuanceRequest) (tokenHash : Text) (locals : IssueLocals) :
    Py IssueLocals Decision := do
  let now ← readClock
  let credentialId ← Body.perform (.tokenHex 32)
  let credential ← callLib (.credentialSign (broker.unsignedCredential request credentialId now)
    broker.issuerPrivateKey)
  let receipt ← broker.receipt .allow .ALLOW (some credential.credentialId) (some tokenHash)
    (some request.manifestDigest) locals.artifactHashes
  let dict ← credentialToDict credential
  return ⟨true, .ALLOW, receipt, some (.dict [(text "credential", dict)])⟩

/-- The `try` block of `issue`. -/
def grant (request : RawIssuanceRequest) (manifest : Value) (tpmEvidence : RawTpmEvidence) :
    Py IssueLocals Decision := do
  let (request, evidence, tokenHash) ← broker.bindInputs lib request tpmEvidence
  broker.appraiseRequest lib request manifest evidence
  Body.invoke (.consumeBrokerChallenge tokenHash) id
  let locals ← Body.locals
  broker.mint request tokenHash locals

/-- `issue`. -/
def issue (request : RawIssuanceRequest) (manifest : Value) (tpmEvidence : RawTpmEvidence) :
    Py Unit Decision := do
  let (outcome, locals) ← Body.attempt (broker.grant lib request manifest tpmEvidence)
    ⟨none, none, ∅⟩
  match outcome with
  | .ok decision => return decision
  | .error e =>
    let receipt ← broker.receipt .deny e.denialReason none locals.tokenHash locals.manifestDigest
      locals.artifactHashes
    return ⟨false, e.denialReason, receipt, none⟩

end CapabilityBroker
end Atcap
