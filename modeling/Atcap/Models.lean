import Atcap.Canonical

/-!
# Wire and decision models

`src/atcap/models.py`. A request or evidence object that reaches the broker is a Python
object whose attributes may hold anything; `RawIssuanceRequest` and `RawTpmEvidence` are
such objects, and the typed records are what the broker's runtime checks leave of them.
-/

namespace Atcap

open Base

/-- `IssuanceRequest`: the identity-endorsed request whose digest is placed in TPM extraData. -/
structure IssuanceRequest where
  version : Text
  brokerId : Text
  challenge : Text
  manifestDigest : Text
  identityKey : Text
  holderKey : Text
  resourceIssuerKid : Text
  resourceIssuerKey : Text
  requestedScope : Text
  identitySignature : Text
  deriving DecidableEq

namespace IssuanceRequest

/-- The members of `IssuanceRequest.body`. -/
def bodyMembers (r : IssuanceRequest) : List (Text × Value) :=
  [(text "version", .str r.version), (text "broker_id", .str r.brokerId),
    (text "challenge", .str r.challenge), (text "manifest_digest", .str r.manifestDigest),
    (text "identity_key", .str r.identityKey), (text "holder_key", .str r.holderKey),
    (text "resource_issuer_kid", .str r.resourceIssuerKid),
    (text "resource_issuer_key", .str r.resourceIssuerKey),
    (text "requested_scope", .str r.requestedScope)]

/-- `IssuanceRequest.body`. -/
def body (r : IssuanceRequest) : Value := .dict r.bodyMembers

/-- `IssuanceRequest.signing_bytes`. -/
def signingBytes (lib : Libraries) (r : IssuanceRequest) : Except Exn Bytes :=
  canonicalJson lib r.body

/-- `IssuanceRequest.to_dict`. -/
def toDict (r : IssuanceRequest) : Value :=
  .dict (r.bodyMembers ++ [(text "identity_signature", .str r.identitySignature)])

end IssuanceRequest

/-- An object passed as an issuance request. Its attributes may be missing or hold any value. -/
inductive RawIssuanceRequest where
  /-- An instance of exactly `IssuanceRequest`, with the values of its attributes. -/
  | request (version brokerId challenge manifestDigest identityKey holderKey resourceIssuerKid
      resourceIssuerKey requestedScope identitySignature : Option Value)
  /-- An object of any other class. -/
  | foreign

/-- `ResourceChallenge`. -/
structure ResourceChallenge where
  token : Text
  credentialId : Text
  method : Text
  argumentsDigest : Text
  recordId : Text
  audience : Text
  expiresAt : Int
  deriving DecidableEq

/-- `SignedDecisionReceipt`: a compact JWS whose payload is an RFC 8785 decision object. -/
structure SignedDecisionReceipt where
  compactJws : Text
  deriving DecidableEq

/-- `Decision`. -/
structure Decision where
  allowed : Bool
  reason : Reason
  receipt : SignedDecisionReceipt
  result : Option Value

/-- `Decision.to_dict`. -/
def Decision.toDict (d : Decision) : Value :=
  let value := [(text "allowed", .bool d.allowed), (text "reason", .str d.reason.value),
    (text "receipt_jws", .str d.receipt.compactJws)]
  match d.result with
  | some result => .dict (value ++ [(text "result", result)])
  | none => .dict value

/-- `TpmEvidence`: raw released-verifier inputs from one TPM quote operation. -/
structure TpmEvidence where
  attest : Bytes
  signature : Bytes
  akChainPem : Bytes
  deriving DecidableEq

/-- `TpmEvidence.digestable`: hashes suitable for receipts. -/
def TpmEvidence.digestable (e : TpmEvidence) : List (Text × Text) :=
  [(text "tpm_attest_sha256", sha256Hex e.attest),
    (text "tpm_signature_sha256", sha256Hex e.signature),
    (text "tpm_ak_chain_sha256", sha256Hex e.akChainPem)]

/-- An object passed as TPM evidence. -/
inductive RawTpmEvidence where
  /-- An instance of exactly `TpmEvidence`, with the values of its attributes. -/
  | evidence (attest signature akChainPem : Option Value)
  /-- An object of any other class. -/
  | foreign

end Atcap
