import Atcap.Effects

/-!
# Strict composition of the released manifest verifier

`src/atcap/manifest_verifier.py`.
-/

namespace Atcap

open Base

variable {L : Type}

/-- `except ValidationError` around the manifest schema. -/
def malformedManifest (e : Exn) : Exn :=
  match e with
  | .validation _ => .decision .MANIFEST_INVALID "manifest schema validation failed"
  | e => e

/-- `normalize_signed_manifest`. -/
def normalizeSignedManifest (manifest : Value) : Py L Value :=
  callLibExcept (.manifestNormalize manifest) malformedManifest

/-- The verification context a manifest policy stands for. -/
def ManifestPolicy.verificationContext (policy : ManifestPolicy) : VerificationContext where
  systemPromptHash := policy.systemPromptHash
  policyBundleHash := policy.policyBundleHash
  enforcementMode := text "enforce"
  modelVersion := policy.modelHash
  trustedKeys := [(policy.signingKeyId, policy.signingPublicB64url)]
  trustedKeyIssuers := [(policy.signingKeyId, [policy.issuer])]
  strictArtifactVerification := true

/-- Whether `normalized.get("issuer")` is the policy's issuer. -/
def issuedBy (normalized : Value) (issuer : Text) : Bool :=
  match normalized.get? (text "issuer") with
  | some v => v.isText issuer
  | none => false

/-- `verify_signed_manifest`. -/
def verifySignedManifest (manifest : Value) (policy : ManifestPolicy) : Py L Value := do
  let normalized ← normalizeSignedManifest manifest
  Body.raiseIf (issuedBy normalized policy.issuer = false)
    (.decision .MANIFEST_POLICY "manifest issuer is not authorized")
  let digest ← callLib (.manifestCanonicalHash normalized)
  Body.raiseIf (digest ≠ policy.expectedDigest)
    (.decision .MANIFEST_POLICY "manifest digest is not authorized")
  let result ← callLib (.verifyManifest normalized policy.verificationContext)
  Body.raiseIf (result.valid = false ∨ result.signatureVerified = false)
    (.decision .MANIFEST_INVALID "Agent Manifest verification was not VALID")
  return normalized

end Atcap
