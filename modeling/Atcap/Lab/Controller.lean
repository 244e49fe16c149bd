import Atcap.Base.Client
import Atcap.Lab.State
import Atcap.System

/-!
# The trusted controller of the laboratory

`lab/controller.py`. The controller prepares cases, validates what an untrusted worker returned,
and only then redeems. Its process is a client of the services: a redemption is a call in a thread
of its own, and everything the controller asks besides is a query. The local variable of a script
is the set of case ids that its controller reserved.
-/

namespace Atcap.Lab

open Base

/-- The errors of a lab operation, and the exceptions of the code it calls. -/
inductive LabExn where
  /-- `LabProtocolError`. -/
  | protocol (message : String)
  /-- `LabBindingError`. -/
  | binding (message : String)
  /-- `DuplicateRunIdError`. -/
  | duplicateRunId (message : String)
  | raised (e : Exn)

/-- What a process of the laboratory asks its environment. -/
inductive Query where
  /-- A call of a released library. -/
  | lib (c : LibCall)
  /-- `self.clock()`. -/
  | clock
  /-- Read the invocation counter of an instance under its lock. -/
  | invocationCount (i : Nat)
  /-- `SQLiteStore.redemption_count`. -/
  | redemptionCount (credentialId : Text)
  /-- `Barrier.wait`: every party passes, or none does. -/
  | barrier (parties : Nat)
  /-- `SQLiteStore`: open the database and create the tables it lacks. -/
  | openStore (path : Text)
  /-- `InventoryApplication`: from here on, instance `i` has this configuration. -/
  | serve (i : Nat) (app : InventoryApplication)
  /-- `Path.is_dir`. -/
  | isDir (path : Text)
  /-- `Path.exists`. -/
  | isPresent (path : Text)
  /-- `S_IMODE(path.stat().st_mode)`. -/
  | mode (path : Text)
  /-- `path.stat().st_size`. -/
  | size (path : Text)
  /-- `Path.read_bytes`. -/
  | readBytes (path : Text)
  /-- `_write_new_file`. -/
  | writeNewFile (path : Text) (contents : Bytes) (mode : Nat)
  /-- `os.chmod`. -/
  | chmod (path : Text) (mode : Nat)

/-- The answer to a query. -/
abbrev Query.Reply : Query → Type
  | .lib c => Except Exn c.Result
  | .clock => Except Exn Int
  | .invocationCount _ => Nat
  | .redemptionCount _ => Except Exn Nat
  | .barrier _ => Except Exn Unit
  | .openStore _ => Except Exn Unit
  | .serve .. => Unit
  | .isDir _ => Except Exn Bool
  | .isPresent _ => Except Exn Bool
  | .mode _ => Except Exn Nat
  | .size _ => Except Exn Nat
  | .readBytes _ => Except Exn Bytes
  | .writeNewFile .. => Except Exn Unit
  | .chmod .. => Except Exn Unit

/-- An operation of a process of the laboratory. -/
abbrev LabOp := ClientOp Call Query

/-- The reply to an operation of a process. -/
abbrev LabOp.Reply : LabOp → Type := ClientOp.Reply (Except Exn Answer) Query.Reply

/-- What a process did so far, with the replies it got. -/
abbrev LabHistory := List (Event LabOp LabOp.Reply)

/-- A function body of the laboratory, with local variables `L`. -/
abbrev Script (L α : Type) := Body LabOp LabOp.Reply LabExn L α

variable {L : Type}

/-- A pure computation of the services. -/
def compute {α : Type} (x : Except Exn α) : Script L α := Body.ofExcept (x.mapError .raised)

/-- A query that cannot fail. -/
def ask (q : Query) : Script L q.Reply := Body.perform (R := LabOp.Reply) (.ask q)

/-- A call of a released library, with its exceptions translated. -/
def askLibExcept (c : LibCall) (translate : Exn → LabExn) : Script L c.Result :=
  Body.invoke (.ask (.lib c)) fun r ↦ r.mapError translate

/-- A call of a released library. -/
def askLib (c : LibCall) : Script L c.Result := askLibExcept c .raised

/-! ### Grants -/

/-- `credential_to_dict`. -/
def credentialToDict (c : Credential) : Script L (List (Text × Value)) := do
  let body ← askLib (.credentialBody c)
  return Value.setMember body (text "signature") (.str c.signature)

/-- `CapabilityGrant`. -/
structure CapabilityGrant where
  credential : Credential
  brokerReceipt : SignedDecisionReceipt
  expectedManifestDigest : Text
  expectedBrokerPolicySha256 : Text
  expectedBrokerChallengeTokenHash : Text
  expectedTpmAttestSha256 : Text
  expectedTpmSignatureSha256 : Text
  expectedTpmAkChainSha256 : Text
  expectedIssuanceRequestSha256 : Text

namespace CapabilityGrant

/-- The wire form of a grant whose credential was dumped. -/
def wire (g : CapabilityGrant) (credential : List (Text × Value)) :
    Except Exn CapabilityGrantWire := do
  let brokerReceiptJws ← checked _ g.brokerReceipt.compactJws
  let expectedManifestDigest ← checked _ g.expectedManifestDigest
  let expectedBrokerPolicySha256 ← checked _ g.expectedBrokerPolicySha256
  let expectedBrokerChallengeTokenHash ← checked _ g.expectedBrokerChallengeTokenHash
  let expectedTpmAttestSha256 ← checked _ g.expectedTpmAttestSha256
  let expectedTpmSignatureSha256 ← checked _ g.expectedTpmSignatureSha256
  let expectedTpmAkChainSha256 ← checked _ g.expectedTpmAkChainSha256
  let expectedIssuanceRequestSha256 ← checked _ g.expectedIssuanceRequestSha256
  return {
    credential, brokerReceiptJws, expectedManifestDigest, expectedBrokerPolicySha256,
    expectedBrokerChallengeTokenHash, expectedTpmAttestSha256, expectedTpmSignatureSha256,
    expectedTpmAkChainSha256, expectedIssuanceRequestSha256 }

/-- `CapabilityGrant.to_wire`. -/
def toWire (g : CapabilityGrant) : Script L CapabilityGrantWire := do
  let credential ← credentialToDict g.credential
  compute (g.wire credential)

/-- `CapabilityGrant.from_wire`. -/
def fromWire (g : CapabilityGrantWire) : Script L CapabilityGrant := do
  let credential ← askLibExcept (.credentialFromDict (.dict g.credential))
    fun _ ↦ .protocol "prepared credential is malformed"
  return {
    credential
    brokerReceipt := ⟨g.brokerReceiptJws.val⟩
    expectedManifestDigest := g.expectedManifestDigest.val
    expectedBrokerPolicySha256 := g.expectedBrokerPolicySha256.val
    expectedBrokerChallengeTokenHash := g.expectedBrokerChallengeTokenHash.val
    expectedTpmAttestSha256 := g.expectedTpmAttestSha256.val
    expectedTpmSignatureSha256 := g.expectedTpmSignatureSha256.val
    expectedTpmAkChainSha256 := g.expectedTpmAkChainSha256.val
    expectedIssuanceRequestSha256 := g.expectedIssuanceRequestSha256.val }

/-- The artifact hashes a broker receipt must name. -/
def artifactHashes (g : CapabilityGrant) : ArtifactHashes :=
  Std.ExtTreeMap.ofList [(text "broker_policy_sha256", g.expectedBrokerPolicySha256),
    (text "tpm_attest_sha256", g.expectedTpmAttestSha256),
    (text "tpm_signature_sha256", g.expectedTpmSignatureSha256),
    (text "tpm_ak_chain_sha256", g.expectedTpmAkChainSha256),
    (text "issuance_request_sha256", g.expectedIssuanceRequestSha256)]

end CapabilityGrant

/-! ### The controller -/

/-- The order of texts is lawful. -/
local instance lawfulEqOrd_text : Std.LawfulEqOrd Text := inferInstance

/-- A receipt verifier with the JWK it publishes. -/
structure PublishedVerifier extends ReceiptVerifier where
  publicJwk : Value

/-- An experiment signer with the JWK it publishes. -/
structure PublishedSigner extends ExperimentRecordSigner where
  publicJwk : Value

/-- `TrustedController`. Its inventory is the instance of its own number; its store is the one of
the deployment. -/
structure TrustedController where
  number : Nat
  brokerReceiptVerifier : PublishedVerifier
  resourceReceiptVerifier : PublishedVerifier
  experimentSigner : PublishedSigner
  /-- `_worker_public_key`, the raw bytes. -/
  workerPublicKey : Bytes
  expectedWorkerPublicKey : Text
  workerImage : Text
  workerCodeDigest : Text

/-- `except DecisionError` around the verification of a receipt. -/
def receiptFailure (message : String) : Exn → LabExn
  | .decision .. => .binding message
  | e => .raised e

namespace TrustedController

/-- `TrustedController.__init__`. -/
def init (number : Nat) (broker resource : PublishedVerifier) (signer : PublishedSigner)
    (expectedWorkerPublicKey workerImage workerCodeDigest : Text) : Script L TrustedController := do
  let malformed (e : Exn) : LabExn := .raised (if e.isValueError then
    .value "expected worker public key must be 32-byte Ed25519 hex" else e)
  let raw ← Body.ofExcept ((bytesFromHex expectedWorkerPublicKey).mapError malformed)
  askLibExcept (.ed25519PublicKey raw) malformed
  return ⟨number, broker, resource, signer, raw, expectedWorkerPublicKey, workerImage,
    workerCodeDigest⟩

variable (D : Deployment) (ctrl : TrustedController)

/-- `self.inventory`. -/
def inventory : InventoryApplication := D.app ctrl.number

/-- What a verified broker receipt says, compared with a grant. -/
def bindsGrant (g : CapabilityGrant) (p : ReceiptFields) : Bool :=
  decide (p.decidingService = .broker) && decide (p.decision = .allow) &&
    decide (p.reason = .ALLOW) && decide (p.credentialId = some g.credential.credentialId) &&
    decide (p.qualifiedScope = some (ctrl.inventory D).policy.qualifiedScope) &&
    decide (p.manifestDigest = some g.expectedManifestDigest) &&
    decide (p.challengeTokenHash = some g.expectedBrokerChallengeTokenHash) &&
    decide (p.artifactHashes = g.artifactHashes)

/-- `_verify_grant`. -/
def verifyGrant (g : CapabilityGrant) : Except LabExn Unit := do
  let payload ← (ctrl.brokerReceiptVerifier.verify D.lib g.brokerReceipt).mapError
    (receiptFailure "broker receipt did not verify")
  raiseIf (ctrl.bindsGrant D g payload.toReceiptFields = false)
    (.binding "broker receipt does not bind this capability")
  raiseIf (g.credential.subject ≠ ctrl.expectedWorkerPublicKey)
    (.binding "credential subject does not match the expected worker key")
  raiseIf (g.credential.issuer ≠ (ctrl.inventory D).policy.trustedBrokerPublicHex)
    (.binding "credential issuer does not match resource policy")
  raiseIf (g.credential.scope ≠ {(ctrl.inventory D).policy.qualifiedScope})
    (.binding "credential scope does not match resource policy")

/-! ### Preparation -/

/-- `_reserve_case_id`. -/
def reserveCaseId (caseId : RunId) : Script (List RunId) Unit := do
  let reserved ← Body.locals
  Body.raiseIf (caseId ∈ reserved) (.duplicateRunId "controller case ID was already reserved")
  Body.assign fun ids ↦ caseId :: ids

/-- The suffix of request `index` of a case with several: two digits, from one. -/
def requestSuffix (index : Nat) : Text :=
  let digits := decimal (index + 1)
  codePoint '.' :: (List.replicate (2 - digits.length) (codePoint '0') ++ digits)

/-- A name of request `index` among `count`. -/
def requestName (count index : Nat) (name : Text) : Text :=
  if count = 1 then name else name ++ requestSuffix index

/-- The decision of a redemption's answer. -/
def decisionOf : Except Exn Answer → Except LabExn Decision
  | .ok (.decision d) => .ok d
  | .ok _ => .error (.raised .type)
  | .error e => .error (.raised e)

/-- The challenge of an issuance's answer. -/
def challengeOf : Except Exn Answer → Except LabExn ResourceChallenge
  | .ok (.challenge c) => .ok c
  | .ok _ => .error (.raised .type)
  | .error e => .error (.raised e)

/-- `prepare_case`, request `index`. -/
def prepareRequest (g : CapabilityGrant) (spec : CaseSpecFields) (count index : Nat) :
    Script L WorkerRequest := do
  let runId := requestName count index spec.caseId.val
  let recordId := requestName count index spec.recordId.val
  let thread ← Body.perform (.submit (.issueResourceChallenge ctrl.number g.credential.credentialId
    ⟨spec.sku.toBounded⟩ recordId))
  let challenge ← Body.invoke (.wait thread) challengeOf
  let credential ← credentialToDict g.credential
  let runId ← compute (checked isRunId runId)
  let token ← compute (checked isNonempty challenge.token)
  let audience ← compute (checked (isBounded 1 256) (ctrl.inventory D).policy.audience)
  let qualifiedScope ← compute (checked (isBounded 1 512) (ctrl.inventory D).policy.qualifiedScope)
  let recordId ← compute (checked (isBounded 1 256) recordId)
  let workerImage ← compute (checked isImage ctrl.workerImage)
  let workerCodeDigest ← compute (checked (Text.isLowerHexOf 64) ctrl.workerCodeDigest)
  return {
    caseId := spec.caseId, runId, variant := spec.variant, credential, challenge := token, audience
    qualifiedScope, recordId, arguments := ⟨spec.sku⟩, workerImage, workerCodeDigest }

/-- The loop of `prepare_case`. -/
def prepareRequests (g : CapabilityGrant) (spec : CaseSpecFields) (count : Nat) :
    List Nat → Script L (List WorkerRequest)
  | [] => return []
  | index :: indices => do
    let request ← ctrl.prepareRequest D g spec count index
    let requests ← prepareRequests g spec count indices
    return request :: requests

/-- `prepare_case`. -/
def prepareCase (g : CapabilityGrant) (spec : CaseSpec) : Script (List RunId) PreparedCase := do
  reserveCaseId spec.val.caseId
  Body.ofExcept (ctrl.verifyGrant D g)
  let count := spec.val.requestCount.toNat
  let requests ← ctrl.prepareRequests D g spec.val count (List.range count)
  let grant ← g.toWire
  let counted ← ask (.invocationCount ctrl.number)
  let invocationCountBefore ← compute (checked (fun n : Int ↦ decide (0 ≤ n)) counted)
  compute (construct PreparedCaseFields.check { spec, grant, requests, invocationCountBefore })

/-! ### Validation without any mutation -/

/-- `except (InvalidSignature, ValueError)` around the signature of a response. -/
def signatureFailure : Exn → LabExn
  | .invalidSignature => .binding "worker holder signature did not verify"
  | e => if e.isValueError then .binding "worker holder signature did not verify" else .raised e

/-- `_verify_worker_response`. -/
def verifyWorkerResponse (request : WorkerRequest) (response : WorkerResponse) :
    Script L Unit := do
  let expectedDigest ← compute (canonicalDigest D.lib request.modelDump)
  Body.raiseIf (response.caseId ≠ request.caseId ∨ response.runId ≠ request.runId)
    (.binding "worker response run binding does not match the request")
  Body.raiseIf (response.requestSha256.val ≠ expectedDigest)
    (.binding "worker response request digest does not match")
  Body.raiseIf (response.workerPublicKey.val ≠ ctrl.expectedWorkerPublicKey)
    (.binding "worker response public key does not match")
  Body.raiseIf (response.workerImage.val ≠ ctrl.workerImage)
    (.binding "worker response image does not match")
  Body.raiseIf (response.workerCodeDigest.val ≠ ctrl.workerCodeDigest)
    (.binding "worker response code digest does not match")
  let signature ← Body.ofExcept
    ((bytesFromHex response.holderSignature.val).mapError signatureFailure)
  let message ← Body.ofExcept ((canonicalJson D.lib response.signedBody).mapError signatureFailure)
  askLibExcept (.ed25519Verify ctrl.workerPublicKey signature message) signatureFailure

/-- The check `_proof_verifies` asks for. -/
def proofCheck (request : WorkerRequest) (credential : Credential) (recordId : Text)
    (proof : HolderProof) (sealedPayload : Bytes) : HolderProofCheck where
  proof := proof
  credential := credential
  audience := request.audience.val
  challengeSecret := (ctrl.inventory D).challengeSecret
  requestedCapability := request.qualifiedScope.val
  recordId := recordId
  sealedPayload := sealedPayload
  callerChannelKey := none
  parentRecordHash := none

/-- `except (HolderProofInvalid, TypeError, ValueError)` of `_proof_verifies`. -/
def refusesProof : LabExn → Bool
  | .raised .holderProofInvalid | .raised .type => true
  | .raised e => e.isValueError
  | _ => false

/-- The `try` block of `_proof_verifies`. -/
def appraiseProof (request : WorkerRequest) (response : WorkerResponse) (credential : Credential)
    (recordId : Text) (arguments : Value) : Script Unit Unit := do
  let proof ← askLib (.holderProofFromDict response.holderProof.modelDump)
  let sealedPayload ← compute (canonicalJson D.lib arguments)
  askLib (.verifyHolderProof (ctrl.proofCheck D request credential recordId proof sealedPayload))

/-- `_proof_verifies`. -/
def proofVerifies (request : WorkerRequest) (response : WorkerResponse) (credential : Credential)
    (recordId : Text) (arguments : Value) : Script L Bool := do
  let (outcome, _) ← Body.attempt
    (ctrl.appraiseProof D request response credential recordId arguments) ()
  match outcome with
  | .ok () => return true
  | .error e => if refusesProof e then return false else Body.raise e

/-- The suffix of a substituted argument or record. -/
def substituted (t : Text) : Text := t ++ text "-substituted"

/-- The proof a denial case prescribes. -/
def prescribedProof (request : WorkerRequest) (response : WorkerResponse)
    (credential : Credential) : Script L Bool :=
  match request.variant with
  | .argumentSubstitution => ctrl.proofVerifies D request response credential request.recordId.val
      (.dict [(text "sku", .str (substituted request.arguments.sku.val))])
  | .recordSubstitution => ctrl.proofVerifies D request response credential
      (substituted request.recordId.val) request.arguments.modelDump
  | .wrongHolder => ctrl.proofVerifies D request response
      { credential with subject := response.proofSubject.val } request.recordId.val
      request.arguments.modelDump
  | _ => return decide (response.holderProof.signature = .seven)

/-- `_preappraise_prescribed_proof`. -/
def preappraisePrescribedProof (request : WorkerRequest) (response : WorkerResponse) :
    Script L Unit := do
  let credential ← askLibExcept (.credentialFromDict (.dict request.credential))
    fun _ ↦ .protocol "prepared credential failed proof pre-appraisal"
  Body.raiseIf (response.holderProof.challenge.val ≠ request.challenge.val)
    (.binding "worker proof challenge does not match the prepared request")
  Body.raiseIf (request.variant = .wrongHolder ∧ response.proofSubject.val = credential.subject)
    (.binding "wrong-holder case did not use a distinct proof subject")
  Body.raiseIf (request.variant ≠ .wrongHolder ∧ response.proofSubject.val ≠ credential.subject)
    (.binding "worker proof subject does not match the prepared credential")
  let verifiesOriginal ← ctrl.proofVerifies D request response credential request.recordId.val
    request.arguments.modelDump
  if request.variant.allows then
    Body.raiseIf (verifiesOriginal = false)
      (.binding "allow-path worker proof failed local pre-appraisal")
  else
    Body.raiseIf (verifiesOriginal = true)
      (.binding "denial-case worker returned a valid original proof")
    let prescribed ← ctrl.prescribedProof D request response credential
    Body.raiseIf (prescribed = false)
      (.binding "worker proof does not match the prescribed adversarial variant")

/-- The checks of each request with its response. -/
def validatePairs : List (WorkerRequest × WorkerResponse) → Script L Unit
  | [] => return ()
  | (request, response) :: pairs => do
    ctrl.verifyWorkerResponse D request response
    ctrl.preappraisePrescribedProof D request response
    validatePairs pairs

/-- `by_run_id`: of several responses with one run id, the last. -/
def byRunId (responses : List WorkerResponse) (runId : RunId) : Option WorkerResponse :=
  responses.reverse.find? fun r ↦ decide (r.runId = runId)

/-- The responses of one case, in the order of its requests. -/
def orderResponses (requests : List WorkerRequest) (responses : List WorkerResponse) :
    Except LabExn (List WorkerResponse) := do
  raiseIf (responses.length ≠ requests.length)
    (.protocol "worker response count does not match prepared requests")
  raiseIf ((responses.map WorkerResponse.runId).toFinset.card ≠ responses.length)
    (.protocol "worker returned duplicate run IDs")
  raiseIf ((responses.map WorkerResponse.runId).toFinset ≠
      (requests.map WorkerRequest.runId).toFinset)
    (.protocol "worker response run IDs do not match prepared requests")
  requests.mapM fun r ↦ orRaise (byRunId responses r.runId) (.raised .other)

/-- `_validate_case_inputs`. -/
def validateCaseInputs (prepared : PreparedCase) (responses : List WorkerResponse) :
    Script L (CapabilityGrant × List WorkerResponse) := do
  let grant ← CapabilityGrant.fromWire prepared.val.grant
  Body.ofExcept (ctrl.verifyGrant D grant)
  let orderedResponses ← Body.ofExcept (orderResponses prepared.val.requests responses)
  ctrl.validatePairs D (prepared.val.requests.zip orderedResponses)
  return (grant, orderedResponses)

/-! ### Observation -/

/-- The `LabBindingError` of a receipt that states something else than was observed. -/
def receiptUnbound : LabExn := .binding "resource receipt does not bind the observed decision"

/-- What a verified resource receipt says, compared with the request. -/
def bindsRequest (request : WorkerRequest) (credential : Credential)
    (expectedArgumentsDigest : Text) (expectedTokenHash : Option Text) (p : ReceiptFields) : Bool :=
  decide (p.credentialId = some credential.credentialId) &&
    decide (p.qualifiedScope = some request.qualifiedScope.val) &&
    decide (p.method = some (ctrl.inventory D).policy.method) &&
    decide (p.audience = some request.audience.val) &&
    decide (p.argumentsDigest = some expectedArgumentsDigest) &&
    decide (p.recordId = some request.recordId.val) &&
    decide (p.challengeTokenHash = expectedTokenHash)

/-- `decision.result.get("invocation_number")`; the results of a redemption hold an integer. -/
def invocationNumber : Value → Option Int
  | .dict m =>
    match m.lookup (text "invocation_number") with
    | some (.int n) => some n
    | _ => none
  | _ => none

/-- The invocation a decision reports, compared with the receipt. -/
def checkInvocation (decision : Decision) (p : ReceiptFields) : Except LabExn Unit :=
  if p.handlerInvoked then
    match decision.result with
    | none => .error (.binding "invoked decision omitted its result state")
    | some result => raiseIf (invocationNumber result ≠ p.invocationId)
        (.binding "resource receipt invocation ID does not match result")
  else
    raiseIf p.invocationId.isSome (.binding "non-invocation receipt contains an invocation ID")

/-- `_observe_decision`. -/
def observeDecision (decision : Decision) (request : WorkerRequest) (response : WorkerResponse)
    (redemptionSequence : Int) : Script L AttemptObservation := do
  let payload ← Body.ofExcept ((ctrl.resourceReceiptVerifier.verify D.lib decision.receipt).mapError
    (receiptFailure "resource receipt did not verify"))
  let expectedArgumentsDigest ← compute (canonicalDigest D.lib request.arguments.modelDump)
  let expectedTokenHash ← compute (if request.variant = .malformed then .ok none
    else some <$> challengeTokenHash request.challenge.val)
  Body.raiseIf (payload.decidingService ≠ .inventoryd ∨
    payload.decision ≠ (if decision.allowed then .allow else .deny) ∨
    payload.reason ≠ decision.reason) receiptUnbound
  let credential ← askLib (.credentialFromDict (.dict request.credential))
  Body.raiseIf (ctrl.bindsRequest D request credential expectedArgumentsDigest expectedTokenHash
    payload.toReceiptFields = false) receiptUnbound
  let policyDigest ← compute (canonicalDigest D.lib (ctrl.inventory D).policy.publicDict)
  Body.raiseIf (payload.artifactHashes ≠
    Std.ExtTreeMap.ofList [(text "resource_policy_sha256", policyDigest)]) receiptUnbound
  Body.ofExcept (checkInvocation decision payload.toReceiptFields)
  Body.raiseIf (payload.businessResult = .notApplicable)
    (.binding "inventory receipt has a broker-only business result")
  let redemptionSequence ← compute (checked _ redemptionSequence)
  let requestSha256 ← compute (canonicalDigest D.lib request.modelDump)
  let requestSha256 ← compute (checked _ requestSha256)
  let workerResponseSha256 ← compute (canonicalDigest D.lib response.modelDump)
  let workerResponseSha256 ← compute (checked _ workerResponseSha256)
  let holderProofSha256 ← compute (canonicalDigest D.lib response.holderProof.modelDump)
  let holderProofSha256 ← compute (checked _ holderProofSha256)
  let receiptJws ← compute (checked _ decision.receipt.compactJws)
  let businessResult ← compute (checked _ payload.businessResult)
  let invocationId ← compute (payload.invocationId.mapM (checked _))
  compute (construct AttemptFields.check {
    runId := request.runId, redemptionSequence, requestSha256, workerResponseSha256
    holderProofSha256, allowed := decision.allowed, reason := decision.reason, receiptJws
    handlerInvoked := payload.handlerInvoked, businessResult, invocationId })

/-! ### Redemption -/

/-- The redemption of a validated pair. -/
def lookupOf (request : WorkerRequest) (response : WorkerResponse) : LookupInput where
  sku := request.arguments.sku.toBounded
  credential := request.credential
  holderProof := response.holderProof.members
  recordId := request.recordId.toBounded

/-- Start a redemption in a thread of its own. -/
def startRedeem (request : WorkerRequest) (response : WorkerResponse) : Script L Nat :=
  Body.perform (R := LabOp.Reply) (.submit (.redeem ctrl.number (lookupOf request response)))

/-- `redeem`. -/
def redeem (request : WorkerRequest) (response : WorkerResponse) : Script L Decision := do
  let thread ← ctrl.startRedeem request response
  Body.invoke (.wait thread) decisionOf

/-- The threads of the concurrent redemptions, past their barrier. -/
def startAll : List (WorkerRequest × WorkerResponse) → Script L (List Nat)
  | [] => return []
  | (request, response) :: pairs => do
    let thread ← ctrl.startRedeem request response
    let threads ← startAll pairs
    return thread :: threads

/-- `future.result(timeout=15)` of each thread. -/
def resultsOf : List Nat → Script L (List Decision)
  | [] => return []
  | thread :: threads => do
    let decision ← Body.invoke (.await thread) fun
      | some answer => decisionOf answer
      | none => .error (.raised .other)
    let decisions ← resultsOf threads
    return decision :: decisions

/-- The end of the executor: every thread is joined. -/
def joinAll : List Nat → Script L Unit
  | [] => return ()
  | thread :: threads => do
    let _ ← Body.perform (.wait thread)
    joinAll threads

/-- The concurrent redemptions of a case. -/
def raceAll (pairs : List (WorkerRequest × WorkerResponse)) : Script L (List Decision) := do
  Body.invoke (.ask (.barrier (pairs.length + 1))) fun r ↦ r.mapError .raised
  let threads ← ctrl.startAll pairs
  let (outcome, _) ← Body.attempt (resultsOf threads) ()
  joinAll threads
  Body.ofExcept outcome

/-- The observations of the concurrent redemptions. -/
def observeAll : List ((WorkerRequest × WorkerResponse) × Decision) →
    Script L (List AttemptObservation)
  | [] => return []
  | ((request, response), decision) :: rest => do
    let observation ← ctrl.observeDecision D decision request response 1
    let observations ← observeAll rest
    return observation :: observations

/-- The attempts of a case: a race, or one redemption and its replay. -/
def attemptCase (variant : Variant) (pairs : List (WorkerRequest × WorkerResponse)) :
    Script L (List AttemptObservation) :=
  if variant = .concurrent then do
    let decisions ← ctrl.raceAll pairs
    ctrl.observeAll D (pairs.zip decisions)
  else
    match pairs with
    | [] => Body.raise (.raised .other)
    | (request, response) :: _ => do
      let first ← ctrl.redeem request response
      let observation ← ctrl.observeDecision D first request response 1
      if variant = .replay then do
        let replayed ← ctrl.redeem request response
        let again ← ctrl.observeDecision D replayed request response 2
        return [observation, again]
      else return [observation]

/-- `_require_expected_outcomes`. -/
def requireExpectedOutcomes (spec : CaseSpecFields) (observations : List AttemptObservation) :
    Except LabExn Unit :=
  raiseIf (observedOutcomes spec.variant observations ≠
    expectedOutcomes (spec.concurrency.val - 1).toNat spec.variant)
    (.binding "observed decision set does not match the adversarial case")

/-- `_redeem_validated_case`. -/
def redeemValidatedCase (prepared : PreparedCase) (grant : CapabilityGrant)
    (orderedResponses : List WorkerResponse) : Script L CaseObservation := do
  let spec := prepared.val.spec.val
  let invocationBefore ← ask (.invocationCount ctrl.number)
  let observations ← ctrl.attemptCase D spec.variant (prepared.val.requests.zip orderedResponses)
  Body.ofExcept (requireExpectedOutcomes spec observations)
  let invocationAfter ← ask (.invocationCount ctrl.number)
  let invocationDelta : Int := (invocationAfter : Int) - (invocationBefore : Int)
  let redemptions ← Body.invoke (.ask (.redemptionCount grant.credential.credentialId)) fun r ↦
    r.mapError .raised
  let expected : Int := if spec.variant.allows then 1 else 0
  Body.raiseIf (invocationDelta ≠ expected ∨ (redemptions : Int) ≠ expected)
    (.binding "observed handler/spend counts violate the case invariant")
  let brokerReceiptJws ← compute (checked _ grant.brokerReceipt.compactJws)
  let workerPublicKey ← compute (checked _ ctrl.expectedWorkerPublicKey)
  let workerImage ← compute (checked _ ctrl.workerImage)
  let workerCodeDigest ← compute (checked _ ctrl.workerCodeDigest)
  let invocationDelta ← compute (checked _ invocationDelta)
  let credentialRedemptionCount ← compute (checked _ (redemptions : Int))
  compute (construct CaseFields.check {
    caseId := spec.caseId, variant := spec.variant, brokerReceiptJws, workerPublicKey, workerImage
    workerCodeDigest, runpodMetadata := orderedResponses.map WorkerResponse.runpodMetadata
    attempts := observations, invocationDelta, credentialRedemptionCount })

/-! ### Finalisation -/

/-- A case that passed validation, with its grant and its responses in order. -/
structure ValidatedCase where
  prepared : PreparedCase
  grant : CapabilityGrant
  orderedResponses : List WorkerResponse

/-- The first loop of `finalize_cases`. -/
def validateCases : List (PreparedCase × List WorkerResponse) → Script L (List ValidatedCase)
  | [] => return []
  | (prepared, responses) :: inputs => do
    let (grant, orderedResponses) ← ctrl.validateCaseInputs D prepared responses
    let validated ← validateCases inputs
    return ⟨prepared, grant, orderedResponses⟩ :: validated

/-- The second loop of `finalize_cases`. -/
def redeemCases : List ValidatedCase → Script L (List CaseObservation)
  | [] => return []
  | v :: validated => do
    let observation ← ctrl.redeemValidatedCase D v.prepared v.grant v.orderedResponses
    let observations ← redeemCases validated
    return observation :: observations

/-- `finalize_cases`. -/
def finalizeCases (inputs : List (PreparedCase × List WorkerResponse)) :
    Script L (List CaseObservation) := do
  let validated ← ctrl.validateCases D inputs
  ctrl.redeemCases D validated

/-- `PublicReceiptVerifier` of a configured verifier. -/
def publish (v : PublishedVerifier) : Except Exn PublicReceiptVerifier := do
  let keyId ← checked (isBounded 1 128) v.keyId
  let publicJwk ← Ed25519PublicJwk.modelValidate v.publicJwk
  construct PublicReceiptVerifierFields.check { keyId, publicJwk }

/-- What `sign_record` copies from the prepared state. -/
structure RecordHeader where
  experimentId : RunId
  commitSha : { t : Text // t.isLowerHexOf 40 = true }
  uvLockSha256 : Hex32
  tpmMode : TpmMode
  tpmEvidenceVerified : Bool

/-- The payload of `sign_record`, observed at a time. -/
def recordPayload (header : RecordHeader) (runpodObservation : UntrustedRunpodObservation)
    (cases : List CaseObservation) (now : Int) : Except Exn ExperimentRecordPayload := do
  let attempts := cases.flatMap fun c ↦ c.val.attempts
  let observedAt ← checked _ now
  let workerPublicKey ← checked _ ctrl.expectedWorkerPublicKey
  let workerImage ← checked _ ctrl.workerImage
  let workerCodeDigest ← checked _ ctrl.workerCodeDigest
  let brokerReceiptVerifier ← publish ctrl.brokerReceiptVerifier
  let resourceReceiptVerifier ← publish ctrl.resourceReceiptVerifier
  let brokerReceiptCount ← checked _ (cases.length : Int)
  let resourceReceiptCount ← checked _ (attempts.length : Int)
  let allowedAttemptCount ← checked _ (attempts.countP (fun a ↦ a.val.allowed) : Int)
  let deniedAttemptCount ← checked _ (attempts.countP (fun a ↦ !a.val.allowed) : Int)
  let handlerInvocationCount ← checked _ (cases.map fun c ↦ c.val.invocationDelta.val).sum
  let credentialRedemptionCount ←
    checked _ (cases.map fun c ↦ c.val.credentialRedemptionCount.val).sum
  construct ExperimentRecordFields.check {
    experimentId := header.experimentId, observedAt, commitSha := header.commitSha
    uvLockSha256 := header.uvLockSha256, tpmMode := header.tpmMode
    tpmEvidenceVerified := header.tpmEvidenceVerified
    tpmAssuranceIncluded := decide (header.tpmMode = .realSwtpm) && header.tpmEvidenceVerified
    workerPublicKey, workerImage, workerCodeDigest, brokerReceiptVerifier, resourceReceiptVerifier
    runpodObservation, brokerReceiptCount, resourceReceiptCount, allowedAttemptCount
    deniedAttemptCount, handlerInvocationCount, credentialRedemptionCount, cases }

/-- `sign_record`. -/
def signRecord (header : RecordHeader) (runpodObservation : UntrustedRunpodObservation)
    (cases : List CaseObservation) :
    Script L (ExperimentRecordPayload × SignedExperimentRecord) := do
  let now ← Body.invoke (.ask .clock) fun r ↦ r.mapError .raised
  let payload ← compute (ctrl.recordPayload header runpodObservation cases now)
  let signed ← compute (ctrl.experimentSigner.sign D.lib payload)
  return (payload, signed)

end TrustedController
end Atcap.Lab
