import Atcap.Effects

/-!
# Authorized requester identity endorsement

`src/atcap/identity.py`. The request must name this broker, manifest, scope and issuer, and
the identity bound to the manifest policy must have signed its nine other fields.
-/

namespace Atcap

open Base

/-- The protocol version of every issuance request. -/
def issuanceVersion : Text := text "atcap-issuance/v1"

/-- The comparisons of a request with the policy, in the order of the source. -/
def checkRequestBinding (request : IssuanceRequest) (policy : BrokerPolicy) : Except Exn Unit := do
  raiseIf (request.version ≠ issuanceVersion)
    (.decision .REQUEST_BINDING "issuance protocol version is unsupported")
  raiseIf (request.identityKey ≠ policy.manifest.identityPublicHex)
    (.decision .IDENTITY_UNAUTHORIZED
      "requester identity is not the identity bound to this manifest policy")
  raiseIf (request.manifestDigest ≠ policy.manifest.expectedDigest)
    (.decision .MANIFEST_POLICY "manifest digest is not authorized")
  raiseIf (request.brokerId ≠ policy.brokerId)
    (.decision .REQUEST_BINDING "issuance request names another broker")
  raiseIf (request.requestedScope ≠ policy.qualifiedScope)
    (.decision .SCOPE_DENIED "requested scope is not authorized")
  raiseIf (request.resourceIssuerKid ≠ policy.resourceIssuerKid)
    (.decision .REQUEST_BINDING "resource issuer kid is not authorized")
  raiseIf (request.resourceIssuerKey ≠ policy.resourceIssuerPublicHex)
    (.decision .REQUEST_BINDING "resource issuer key is not authorized")
  raiseIf (request.holderKey.isLowerHexOf 64 = false)
    (.decision .REQUEST_BINDING "holder key must be a lowercase 32-byte Ed25519 public key")

/-- `except ValueError` around the holder key. -/
def malformedHolderKey (e : Exn) : Exn :=
  if e.isValueError then .decision .REQUEST_BINDING "holder key is malformed" else e

/-- `except (InvalidSignature, ValueError)` around the endorsement. -/
def endorsementFailure (e : Exn) : Exn :=
  match e with
  | .invalidSignature => .decision .IDENTITY_SIGNATURE "identity endorsement did not verify"
  | e => if e.isValueError then
      .decision .IDENTITY_SIGNATURE "identity endorsement did not verify" else e

variable {L : Type} (lib : Libraries)

/-- `verify_identity_endorsement`. -/
def verifyIdentityEndorsement (request : IssuanceRequest) (policy : BrokerPolicy) : Py L Unit := do
  Body.ofExcept (checkRequestBinding request policy)
  let holderKey ← Body.ofExcept ((bytesFromHex request.holderKey).mapError malformedHolderKey)
  callLibExcept (.ed25519PublicKey holderKey) malformedHolderKey
  Body.raiseIf (request.identitySignature = [])
    (.decision .IDENTITY_SIGNATURE "identity endorsement is missing")
  let identityKey ← Body.ofExcept
    ((bytesFromHex policy.manifest.identityPublicHex).mapError endorsementFailure)
  callLibExcept (.ed25519PublicKey identityKey) endorsementFailure
  let signature ← Body.ofExcept
    ((bytesFromHex request.identitySignature).mapError endorsementFailure)
  let message ← Body.ofExcept ((request.signingBytes lib).mapError endorsementFailure)
  callLibExcept (.ed25519Verify identityKey signature message) endorsementFailure

end Atcap
