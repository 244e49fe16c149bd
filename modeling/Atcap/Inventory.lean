import Atcap.Challenge

/-!
# Resource-native authorization for the inventory server

`src/atcap/inventory.py`. `redeem` is cut at the phases of its `try` block: present the
credential, present the challenge, prove possession, spend, and the last check before the
handler. The block's two local variables survive an exception, because the denial receipt
names what was known when the exception was raised.
-/

namespace Atcap

open Base

/-! ### Validated inputs -/

/-- A `str` field with length bounds, which also reject a lone surrogate. -/
structure BoundedText (max : Nat) where
  val : Text
  nonempty : 1 ≤ val.length
  bounded : val.length ≤ max
  encodable : Text.encodable val = true

/-- Validation of a bounded `str` field in strict mode. -/
def BoundedText.validate? (max : Nat) (v : Value) : Option (BoundedText max) :=
  match v with
  | .str t =>
    if h : 1 ≤ t.length ∧ t.length ≤ max ∧ Text.encodable t = true then
      some ⟨t, h.1, h.2.1, h.2.2⟩
    else none
  | _ => none

/-- `InventoryArguments`. -/
structure InventoryArguments where
  sku : BoundedText 128

/-- `InventoryArguments.model_dump(mode="json")`. -/
def InventoryArguments.modelDump (a : InventoryArguments) : Value :=
  .dict [(text "sku", .str a.sku.val)]

/-- `ChallengeInput`. -/
structure ChallengeInput extends InventoryArguments where
  credentialId : Text
  recordId : BoundedText 256

/-- `LookupInput`. -/
structure LookupInput extends InventoryArguments where
  credential : List (Text × Value)
  holderProof : List (Text × Value)
  recordId : BoundedText 256

/-- `InventoryLookupResult`. -/
structure InventoryLookupResult where
  sku : BoundedText 128
  quantity : Int
  invocationNumber : Int
  quantityBound : 0 ≤ quantity
  invocationBound : 1 ≤ invocationNumber

/-- `extra="forbid"`: every member of a dictionary is one of the declared fields. -/
def closed (fields : List Text) (m : List (Text × Value)) : Bool :=
  m.all fun e ↦ fields.contains e.1

/-- `InventoryLookupResult.model_validate` in strict mode. -/
def InventoryLookupResult.modelValidate (m : List (Text × Value)) :
    Except Exn InventoryLookupResult := do
  raiseIf (closed [text "sku", text "quantity", text "invocation_number"] m = false)
    (.validation "Extra inputs are not permitted")
  let sku ← orRaise ((m.lookup (text "sku")).bind (BoundedText.validate? 128))
    (.validation "sku")
  match m.lookup (text "quantity"), m.lookup (text "invocation_number") with
  | some (.int quantity), some (.int invocationNumber) =>
    if h : 0 ≤ quantity ∧ 1 ≤ invocationNumber then
      return ⟨sku, quantity, invocationNumber, h.1, h.2⟩
    else throw (.validation "quantity or invocation_number is out of bounds")
  | _, _ => throw (.validation "quantity and invocation_number must be integers")

/-- `InventoryLookupResult.model_dump(mode="json")`. -/
def InventoryLookupResult.modelDump (r : InventoryLookupResult) : Value :=
  .dict [(text "sku", .str r.sku.val), (text "quantity", .int r.quantity),
    (text "invocation_number", .int r.invocationNumber)]

/-! ### The application -/

/-- `InventoryApplication`: its configuration. The invocation counter is part of the shared
state, under the number of the instance. The quantities of the catalog are annotated as integers
and not checked. -/
structure InventoryApplication where
  policy : ResourcePolicy
  challengeSecret : Bytes
  receiptSigner : ReceiptSigner
  catalog : List (Text × Value)
  secretLength : 32 ≤ challengeSecret.length
  ttlPositive : 0 < policy.challengeTtlSeconds
  lifetimePositive : 0 < policy.maxCredentialLifetimeSeconds

namespace InventoryApplication

/-- The catalog of an application that is given none, or an empty one. -/
def defaultCatalog : List (Text × Value) := [(text "widget-42", .int 7)]

private theorem secret_long (challengeSecret : Bytes) (h : ¬ challengeSecret.length < 32) :
    32 ≤ challengeSecret.length := by
  omega

private theorem ttl_positive (policy : ResourcePolicy) (h : ¬ policy.challengeTtlSeconds ≤ 0) :
    0 < policy.challengeTtlSeconds := by
  omega

private theorem lifetime_positive (policy : ResourcePolicy)
    (h : ¬ policy.maxCredentialLifetimeSeconds ≤ 0) : 0 < policy.maxCredentialLifetimeSeconds := by
  omega

/-- `InventoryApplication.__init__`. -/
def init (policy : ResourcePolicy) (challengeSecret : Bytes) (receiptSigner : ReceiptSigner)
    (catalog : Option (List (Text × Value))) : Except Exn InventoryApplication :=
  if hs : challengeSecret.length < 32 then
    .error (.value "resource challenge secret must be at least 32 bytes")
  else if ht : policy.challengeTtlSeconds ≤ 0 then
    .error (.value "resource challenge TTL must be positive")
  else if hl : policy.maxCredentialLifetimeSeconds ≤ 0 then
    .error (.value "maximum credential lifetime must be positive")
  else
    let catalog := match catalog with
      | some (entry :: rest) => entry :: rest
      | _ => defaultCatalog
    .ok ⟨policy, challengeSecret, receiptSigner, catalog, secret_long challengeSecret hs,
      ttl_positive policy ht, lifetime_positive policy hl⟩

variable (lib : Libraries) (app : InventoryApplication) (i : Nat)

/-- The context a challenge for one exact call is bound to. -/
def context (credentialId argumentsDigest recordId : Text) : ChallengeContext :=
  ⟨credentialId, app.policy.method, argumentsDigest, recordId, app.policy.audience⟩

/-- `issue_resource_challenge`. -/
def issueResourceChallenge (credentialId : Text) (arguments : InventoryArguments)
    (recordId : Text) : Py Unit ResourceChallenge := do
  Body.raiseIf (credentialId.isLowerHexOf 64 = false)
    (.decision .CREDENTIAL_INVALID
      "credential_id must be a 256-bit lowercase hexadecimal identifier")
  let issuedAt ← readClock
  let (token, expiresAt) ←
    issueCa2aChallengeAt app.challengeSecret issuedAt app.policy.challengeTtlSeconds
  let argumentsDigest ← Body.ofExcept (canonicalDigest lib arguments.modelDump)
  let tokenHash ← Body.ofExcept (challengeTokenHash token)
  Body.invoke (.storeResourceChallenge tokenHash
    (app.context credentialId argumentsDigest recordId) issuedAt expiresAt) id
  return ⟨token, credentialId, app.policy.method, argumentsDigest, recordId,
    app.policy.audience, expiresAt⟩

/-- The arguments of `_receipt`. -/
structure ReceiptArgs where
  decision : Verdict
  reason : Reason
  credentialId : Option Text
  tokenHash : Option Text
  argumentsDigest : Text
  recordId : Option Text
  invocationId : Option Nat
  handlerInvoked : Bool
  businessResult : BusinessResult

/-- The claims `_receipt` makes of its arguments and of what it reads. -/
def receiptFields (a : ReceiptArgs) (receiptId : Text) (decidedAt : Int)
    (handlerCountSnapshot : Nat) (policyDigest : Text) : ReceiptFields where
  receiptId := receiptId
  decidingService := .inventoryd
  decision := a.decision
  reason := a.reason
  decidedAt := decidedAt
  credentialId := a.credentialId
  qualifiedScope := some app.policy.qualifiedScope
  challengeTokenHash := a.tokenHash
  manifestDigest := none
  method := some app.policy.method
  audience := some app.policy.audience
  argumentsDigest := some a.argumentsDigest
  recordId := a.recordId
  invocationId := a.invocationId.map Int.ofNat
  handlerCountSnapshot := handlerCountSnapshot
  handlerInvoked := a.handlerInvoked
  businessResult := a.businessResult
  artifactHashes := Std.ExtTreeMap.ofList [(text "resource_policy_sha256", policyDigest)]

/-- `_receipt`: sign the decision with the counter as it stands. -/
def receipt (a : ReceiptArgs) : Py Unit SignedDecisionReceipt := do
  let receiptId ← Body.perform (.tokenHex 16)
  let decidedAt ← readClock
  let handlerCountSnapshot ← Body.perform (.invocationCount i)
  let policyDigest ← Body.ofExcept (canonicalDigest lib app.policy.publicDict)
  let payload ← Body.ofExcept (DecisionReceiptPayload.construct
    (app.receiptFields a receiptId decidedAt handlerCountSnapshot policyDigest))
  Body.invoke (.sign app.receiptSigner payload) id

/-! ### Redemption -/

/-- The variables of `redeem` that its exception handlers read. -/
structure RedeemLocals where
  credentialId : Option Text
  tokenHash : Option Text

/-- `except (InvalidCredential, TypeError, ValueError)` of the credential parser. -/
def malformedCredential (e : Exn) : Exn :=
  match e with
  | .invalidCredential | .type => .decision .CREDENTIAL_INVALID "credential is malformed"
  | e => if e.isValueError then .decision .CREDENTIAL_INVALID "credential is malformed" else e

/-- The three `except` clauses around `verify_chain`. -/
def chainFailure (e : Exn) : Exn :=
  match e with
  | .credentialExpired => .decision .CREDENTIAL_EXPIRED "credential expired"
  | .untrustedDelegationRoot => .decision .CREDENTIAL_INVALID "credential root is untrusted"
  | e => if e.isCA2AError then .decision .CREDENTIAL_INVALID "credential did not verify" else e

/-- `except (HolderProofInvalid, TypeError, ValueError)` of the holder proof parser. -/
def malformedProof (e : Exn) : Exn :=
  match e with
  | .holderProofInvalid | .type => .decision .HOLDER_PROOF_INVALID "holder proof is malformed"
  | e => if e.isValueError then .decision .HOLDER_PROOF_INVALID "holder proof is malformed" else e

/-- `except HolderProofInvalid` around `verify_holder_proof`. -/
def proofFailure (e : Exn) : Exn :=
  match e with
  | .holderProofInvalid => .decision .HOLDER_PROOF_INVALID "holder proof did not verify"
  | e => e

/-- The signed validity bounds of a credential that carries both. -/
def validityBounds (credential : Credential) : Except Exn (Int × Int) :=
  match credential.notBefore, credential.notAfter with
  | some notBefore, some notAfter => .ok (notBefore, notAfter)
  | _, _ => .error (.decision .CREDENTIAL_INVALID
      "credential must carry both signed validity bounds")

/-- Parse the credential, check its shape and verify it under the broker's key. -/
def presentCredential (request : LookupInput) : Py RedeemLocals (Credential × Int × Int) := do
  let credential ← callLibExcept (.credentialFromDict (.dict request.credential))
    malformedCredential
  Body.assign fun l ↦ { l with credentialId := some credential.credentialId }
  Body.raiseIf (credential.credentialId.isLowerHexOf 64 = false)
    (.decision .CREDENTIAL_INVALID "credential_id is not a broker-generated 256-bit identifier")
  let (notBefore, notAfter) ← Body.ofExcept (validityBounds credential)
  Body.raiseIf (notAfter - notBefore > app.policy.maxCredentialLifetimeSeconds)
    (.decision .CREDENTIAL_INVALID "credential lifetime exceeds resource policy")
  let atTime ← Body.invoke .clock (Except.mapError chainFailure)
  callLibExcept (.verifyChain [credential] 0 {app.policy.trustedBrokerPublicHex} atTime)
    chainFailure
  Body.raiseIf (credential.scope ≠ {app.policy.qualifiedScope})
    (.decision .SCOPE_DENIED "credential scope is not exact")
  return (credential, notBefore, notAfter)

/-- Parse the holder proof and check the stored challenge it presents. -/
def presentChallenge (request : LookupInput) (argumentsDigest : Text) (credential : Credential) :
    Py RedeemLocals (HolderProof × Text) := do
  let proof ← callLibExcept (.holderProofFromDict (.dict request.holderProof)) malformedProof
  let tokenHash ← Body.ofExcept (challengeTokenHash proof.challenge)
  Body.assign fun l ↦ { l with tokenHash := some tokenHash }
  let found ← Body.invoke (.getResourceChallenge tokenHash) id
  let stored ← Body.ofExcept (orRaise found
    (.decision .CHALLENGE_INVALID "resource challenge was not issued here"))
  Body.raiseIf
    (stored.context ≠ app.context credential.credentialId argumentsDigest request.recordId.val)
    (.decision .HOLDER_PROOF_INVALID "stored resource challenge is bound to another request")
  Body.raiseIf (stored.consumedAt.isSome)
    (.decision .CHALLENGE_CONSUMED "resource challenge was consumed")
  let now ← readClock
  Body.raiseIf (now ≥ stored.expiresAt)
    (.decision .CHALLENGE_STALE "resource challenge expired")
  return (proof, tokenHash)

/-- The check `verify_holder_proof` is asked for. -/
def holderProofCheck (request : LookupInput) (credential : Credential) (proof : HolderProof)
    (sealedPayload : Bytes) : HolderProofCheck where
  proof := proof
  credential := credential
  audience := app.policy.audience
  challengeSecret := app.challengeSecret
  requestedCapability := app.policy.qualifiedScope
  recordId := request.recordId.val
  sealedPayload := sealedPayload
  callerChannelKey := none
  parentRecordHash := none

/-- Verify that the holder signed this exact call. -/
def proveHolder (request : LookupInput) (credential : Credential) (proof : HolderProof) :
    Py RedeemLocals Unit := do
  let sealedPayload ← Body.ofExcept
    ((canonicalJson lib request.toInventoryArguments.modelDump).mapError proofFailure)
  callLibExcept (.verifyHolderProof (app.holderProofCheck request credential proof sealedPayload))
    proofFailure

/-- Consume the challenge and spend the credential in one transaction. -/
def spendCredential (request : LookupInput) (argumentsDigest : Text) (credential : Credential)
    (notBefore notAfter : Int) (tokenHash : Text) : Py RedeemLocals CredentialSpendResult := do
  let spend ← Body.invoke (.spend ⟨tokenHash,
    app.context credential.credentialId argumentsDigest request.recordId.val,
    notBefore, notAfter⟩) id
  Body.raiseIf (spend.firstSpend = false)
    (.decision .CREDENTIAL_SPENT "credential was already redeemed")
  return spend

/-- The deadlines are checked once more between the commit and the handler. -/
def preHandlerCheck (notBefore notAfter : Int) (spend : CredentialSpendResult) :
    Py RedeemLocals Unit := do
  let preHandlerNow ← readClock
  Body.raiseIf (preHandlerNow ≥ spend.challengeExpiresAt)
    (.decision .CHALLENGE_STALE "resource challenge expired after the spend commit")
  Body.raiseIf (preHandlerNow < notBefore ∨ preHandlerNow > notAfter)
    (.decision .CREDENTIAL_EXPIRED "credential expired after the spend commit")

/-- The `try` block of `redeem`. -/
def authorize (request : LookupInput) (argumentsDigest : Text) : Py RedeemLocals Unit := do
  let (credential, notBefore, notAfter) ← app.presentCredential request
  let (proof, tokenHash) ← app.presentChallenge request argumentsDigest credential
  app.proveHolder lib request credential proof
  let spend ← app.spendCredential request argumentsDigest credential notBefore notAfter tokenHash
  preHandlerCheck notBefore notAfter spend

/-- `_inventory_lookup`. -/
def inventoryLookup (sku : Text) : List (Text × Value) :=
  [(text "sku", .str sku), (text "quantity", (app.catalog.lookup sku).getD (.int 0))]

/-- Enter the private handler and validate what it returns. -/
def runHandler (arguments : InventoryArguments) (invocationNumber : Nat) :
    Py Unit InventoryLookupResult := do
  let rawResult ← Body.invoke (.inventoryLookup i arguments.sku.val) id
  Body.ofExcept (InventoryLookupResult.modelValidate
    (Value.setMember rawResult (text "invocation_number") (.int invocationNumber)))

/-- What a denial of `redeem` is signed with. -/
def denyArgs (request : LookupInput) (argumentsDigest : Text) (reason : Reason)
    (locals : RedeemLocals) : ReceiptArgs where
  decision := .deny
  reason := reason
  credentialId := locals.credentialId
  tokenHash := locals.tokenHash
  argumentsDigest := argumentsDigest
  recordId := some request.recordId.val
  invocationId := none
  handlerInvoked := false
  businessResult := .notInvoked

/-- What an invocation is signed with. -/
def invocationArgs (request : LookupInput) (argumentsDigest : Text) (locals : RedeemLocals)
    (invocationNumber : Nat) (completed : Bool) : ReceiptArgs where
  decision := .allow
  reason := if completed then .ALLOW else .HANDLER_FAILED
  credentialId := locals.credentialId
  tokenHash := locals.tokenHash
  argumentsDigest := argumentsDigest
  recordId := some request.recordId.val
  invocationId := some invocationNumber
  handlerInvoked := true
  businessResult := if completed then .completed else .failed

/-- What an unauthenticated call is signed with. -/
def directArgs (argumentsDigest : Text) : ReceiptArgs where
  decision := .deny
  reason := .UNAUTHENTICATED
  credentialId := none
  tokenHash := none
  argumentsDigest := argumentsDigest
  recordId := none
  invocationId := none
  handlerInvoked := false
  businessResult := .notInvoked

/-- The denial of `redeem`, with what its local variables hold. -/
def denyRedemption (request : LookupInput) (argumentsDigest : Text) (reason : Reason)
    (locals : RedeemLocals) : Py Unit Decision := do
  let receipt ← app.receipt lib i (denyArgs request argumentsDigest reason locals)
  return ⟨false, reason, receipt, none⟩

/-- The result a failed handler is reported with. -/
def failedResult (invocationNumber : Nat) : Value :=
  .dict [(text "invoked", .bool true), (text "completed", .bool false),
    (text "invocation_number", .int invocationNumber)]

/-- The receipt of an invocation; without one the call raises `PostInvocationError`. -/
def invocationReceipt (request : LookupInput) (argumentsDigest : Text) (locals : RedeemLocals)
    (invocationNumber : Nat) (completed : Bool) : Py Unit SignedDecisionReceipt := do
  let (outcome, _) ← Body.attempt (app.receipt lib i
    (invocationArgs request argumentsDigest locals invocationNumber completed)) ()
  Body.ofExcept (outcome.mapError fun _ ↦ .postInvocation
    (if completed then "handler completed but no signed receipt could be produced"
      else "handler failed and no signed receipt could be produced") invocationNumber completed)

/-- The part of `redeem` after its `try` block: count, invoke, and sign the outcome. -/
def invokeHandler (request : LookupInput) (argumentsDigest : Text) (locals : RedeemLocals) :
    Py Unit Decision := do
  let invocationNumber ← Body.perform (.recordInvocation i)
  let (outcome, _) ← Body.attempt (runHandler i request.toInventoryArguments invocationNumber) ()
  match outcome with
  | .error _ =>
    let receipt ← app.invocationReceipt lib i request argumentsDigest locals invocationNumber false
    return ⟨true, .HANDLER_FAILED, receipt, some (failedResult invocationNumber)⟩
  | .ok result =>
    let receipt ← app.invocationReceipt lib i request argumentsDigest locals invocationNumber true
    return ⟨true, .ALLOW, receipt, some result.modelDump⟩

/-- `redeem`: verify, atomically spend, then invoke the private handler. -/
def redeem (request : LookupInput) : Py Unit Decision := do
  let argumentsDigest ←
    Body.ofExcept (canonicalDigest lib request.toInventoryArguments.modelDump)
  let (outcome, locals) ← Body.attempt (app.authorize lib request argumentsDigest) ⟨none, none⟩
  match outcome with
  | .error e => app.denyRedemption lib i request argumentsDigest e.denialReason locals
  | .ok () => app.invokeHandler lib i request argumentsDigest locals

/-- `direct_lookup_attempt`: an unauthenticated direct call. -/
def directLookupAttempt (arguments : List (Text × Value)) : Py Unit Decision := do
  let argumentsDigest ← Body.ofExcept (canonicalDigest lib (.dict arguments))
  let receipt ← app.receipt lib i (directArgs argumentsDigest)
  return ⟨false, .UNAUTHENTICATED, receipt, none⟩

end InventoryApplication
end Atcap
