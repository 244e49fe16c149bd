import Mathlib.Data.Finset.Basic
import Atcap.Base.Program
import Atcap.Policy
import Atcap.Receipt
import Atcap.Storage

/-!
# Operations of the services

What a service call does to the world outside its own local variables: it reads the clock
and randomness, calls a released library whose answer it does not control, signs a receipt,
uses the store, and touches the invocation counter and the private handler of its instance.
A library call answers with a value or an exception of its own choice.
-/

namespace Atcap

open Base

/-! ### Values of the released libraries -/

/-- cA2A `DelegationCredential`. -/
structure Credential where
  credentialId : Text
  issuer : Text
  subject : Text
  scope : Finset Text
  depth : Int
  parentId : Option Text
  notBefore : Option Int
  notAfter : Option Int
  signature : Text
  deriving DecidableEq

/-- An Ed25519 private key with the raw bytes of its public key. -/
structure Ed25519PrivateKey where
  seed : Bytes
  publicRaw : Bytes

/-- cA2A `HolderProof`: the challenge it presents and its other claims. -/
structure HolderProof where
  challenge : Text
  claims : Value

/-- The arguments of cA2A `verify_holder_proof`. -/
structure HolderProofCheck where
  proof : HolderProof
  credential : Credential
  audience : Text
  challengeSecret : Bytes
  requestedCapability : Text
  recordId : Text
  sealedPayload : Bytes
  callerChannelKey : Option Bytes
  parentRecordHash : Option Bytes

/-- Agent Manifest `VerificationContext`. -/
structure VerificationContext where
  systemPromptHash : Text
  policyBundleHash : Text
  enforcementMode : Text
  modelVersion : Text
  trustedKeys : List (Text × Text)
  trustedKeyIssuers : List (Text × List Text)
  strictArtifactVerification : Bool

/-- The two fields of a manifest verification result that are read. -/
structure ManifestResult where
  /-- `result is OverallResult.VALID`. -/
  valid : Bool
  /-- `signature_verified is True`. -/
  signatureVerified : Bool

/-- A `datetime`: an instant in UTC, or a value that names none. -/
inductive DateTime where
  | aware (instant : Int)
  | naive
  | malformed

/-- x509 `BasicConstraints`. -/
structure BasicConstraints where
  ca : Bool
  pathLength : Option Int

/-- x509 `KeyUsage`, the two bits that are read. -/
structure KeyUsage where
  digitalSignature : Bool
  keyCertSign : Bool

/-- An x509 certificate; reading an extension may raise. -/
structure Certificate where
  notValidBeforeUtc : Int
  notValidAfterUtc : Int
  basicConstraints : Except Exn BasicConstraints
  keyUsage : Except Exn KeyUsage

/-- The arguments of Agent Manifest `verify_tpm_quote`. -/
structure QuoteCheck where
  attest : Bytes
  signature : Bytes
  akChainPem : Bytes
  trustedRootsPem : Bytes
  expectedQualifyingData : Bytes
  expectedPcrDigest : Bytes
  verificationTime : Int

/-- Calls of the released libraries whose answer is not a fixed function of their arguments. -/
inductive LibCall where
  /-- `DelegationCredential.from_dict`. -/
  | credentialFromDict (d : Value)
  /-- `verify_chain`. -/
  | verifyChain (chain : List Credential) (maxDepth : Int) (trustedRootIssuers : Finset Text)
      (atTime : Int)
  /-- `HolderProof.from_dict`. -/
  | holderProofFromDict (d : Value)
  /-- `verify_holder_proof`; it reads the process clock itself. -/
  | verifyHolderProof (c : HolderProofCheck)
  /-- `verify_challenge`. -/
  | verifyChallenge (secret : Bytes) (token : Text) (now : Int)
  /-- `DelegationCredential.sign`. -/
  | credentialSign (c : Credential) (issuerPrivateKey : Ed25519PrivateKey)
  /-- `DelegationCredential.body`. -/
  | credentialBody (c : Credential)
  /-- `Manifest.model_validate(m).model_dump(mode="json", by_alias=True, exclude_none=True)`. -/
  | manifestNormalize (m : Value)
  /-- Agent Manifest `canonical_hash`. -/
  | manifestCanonicalHash (m : Value)
  /-- Agent Manifest `verify_manifest` with an empty revocation store. -/
  | verifyManifest (normalized : Value) (context : VerificationContext)
  /-- `Ed25519PublicKey.from_public_bytes`. -/
  | ed25519PublicKey (raw : Bytes)
  /-- `Ed25519PublicKey.verify`. -/
  | ed25519Verify (key signature message : Bytes)
  /-- The configured PCR selection reader. -/
  | readPcrSelection (attest : Bytes)
  /-- The configured evaluation time. -/
  | evaluationTime
  /-- `x509.load_pem_x509_certificates`. -/
  | loadPemX509Certificates (pem : Bytes)
  /-- Agent Manifest `verify_tpm_quote`. -/
  | verifyTpmQuote (q : QuoteCheck)
  /-- A TPM appraiser other than the ones of `tpm.py`. -/
  | appraise (evidence : TpmEvidence) (expectedQualifyingData : Bytes) (policy : TpmPolicy)

/-- What a library call returns. -/
abbrev LibCall.Result : LibCall → Type
  | .credentialFromDict _ => Credential
  | .verifyChain .. => Unit
  | .holderProofFromDict _ => HolderProof
  | .verifyHolderProof _ => Unit
  | .verifyChallenge .. => Unit
  | .credentialSign .. => Credential
  | .credentialBody _ => List (Text × Value)
  | .manifestNormalize _ => Value
  | .manifestCanonicalHash _ => Text
  | .verifyManifest .. => ManifestResult
  | .ed25519PublicKey _ => Unit
  | .ed25519Verify .. => Unit
  | .readPcrSelection _ => PcrSelection
  | .evaluationTime => DateTime
  | .loadPemX509Certificates _ => List Certificate
  | .verifyTpmQuote _ => Value
  | .appraise .. => Unit

/-! ### Operations -/

/-- One operation of a service call. Instances of `inventoryd` are numbered. -/
inductive Op where
  /-- `self.clock()`. -/
  | clock
  /-- `secrets.token_hex(n)`. -/
  | tokenHex (n : Nat)
  | lib (c : LibCall)
  /-- `ReceiptSigner.sign`. -/
  | sign (signer : ReceiptSigner) (payload : DecisionReceiptPayload)
  | storeBrokerChallenge (tokenHash : Text) (issuedAt expiresAt : Int)
  | consumeBrokerChallenge (tokenHash : Text)
  | storeResourceChallenge (tokenHash : Text) (context : ChallengeContext)
      (issuedAt expiresAt : Int)
  | getResourceChallenge (tokenHash : Text)
  /-- `consume_challenge_and_spend_credential`. -/
  | spend (a : SpendArgs)
  /-- Increment and read the invocation counter under its lock. -/
  | recordInvocation (i : Nat)
  /-- Read the invocation counter under its lock. -/
  | invocationCount (i : Nat)
  /-- Enter the private handler `_inventory_lookup`. -/
  | inventoryLookup (i : Nat) (sku : Text)

/-- The reply to an operation. -/
abbrev Op.Reply : Op → Type
  | .clock => Except Exn Int
  | .tokenHex _ => Text
  | .lib c => Except Exn c.Result
  | .sign .. => Except Exn SignedDecisionReceipt
  | .storeBrokerChallenge .. => Except Exn Unit
  | .consumeBrokerChallenge _ => Except Exn Unit
  | .storeResourceChallenge .. => Except Exn Unit
  | .getResourceChallenge _ => Except Exn (Option ResourceChallengeRow)
  | .spend _ => Except Exn CredentialSpendResult
  | .recordInvocation _ => Nat
  | .invocationCount _ => Nat
  | .inventoryLookup .. => Except Exn (List (Text × Value))

/-- A function body of the services, with local variables `L` that survive an exception. -/
abbrev Py (L α : Type) := Body Op Op.Reply Exn L α

/-- What a call issued so far, with the replies it got. -/
abbrev History := List (Event Op Op.Reply)

variable {L : Type}

/-- `self.clock()`. -/
def readClock : Py L Int := Body.invoke .clock id

/-- A call of a released library. -/
def callLib (c : LibCall) : Py L c.Result := Body.invoke (.lib c) id

/-- A call of a released library with its exceptions translated by an `except` clause. -/
def callLibExcept (c : LibCall) (translate : Exn → Exn) : Py L c.Result :=
  Body.invoke (.lib c) (Except.mapError translate)

/-- Reading the clock issues that operation. -/
theorem issues_readClock {P : Op → Prop} (h : P .clock) : Body.Issues P (readClock : Py L Int) :=
  Body.Issues.invoke h id

/-- A library call issues that operation. -/
theorem issues_callLibExcept {P : Op → Prop} {c : LibCall} (h : P (.lib c))
    (translate : Exn → Exn) : Body.Issues P (callLibExcept c translate : Py L c.Result) :=
  Body.Issues.invoke h _

end Atcap
