import Atcap.Canonical

/-!
# Verifier-owned policy

`src/atcap/policy.py`. Each `public_dict` is the projection that a policy hash commits to.
-/

namespace Atcap

open Base

/-- `ManifestPolicy`. -/
structure ManifestPolicy where
  expectedDigest : Text
  issuer : Text
  signingKeyId : Text
  signingPublicB64url : Text
  identityPublicHex : Text
  systemPromptHash : Text
  policyBundleHash : Text
  modelHash : Text
  deriving DecidableEq

/-- `ManifestPolicy.public_dict`. -/
def ManifestPolicy.publicDict (p : ManifestPolicy) : Value :=
  .dict [(text "expected_digest", .str p.expectedDigest), (text "issuer", .str p.issuer),
    (text "signing_key_id", .str p.signingKeyId),
    (text "signing_public_b64url", .str p.signingPublicB64url),
    (text "identity_public_hex", .str p.identityPublicHex),
    (text "system_prompt_hash", .str p.systemPromptHash),
    (text "policy_bundle_hash", .str p.policyBundleHash), (text "model_hash", .str p.modelHash)]

/-- An ordered PCR selection: banks with their PCR indices. -/
abbrev PcrSelection := List (Text × List Int)

/-- `TpmPolicy`. -/
structure TpmPolicy where
  selection : PcrSelection
  expectedPcrDigest : Bytes
  trustedRootsPem : Bytes
  deriving DecidableEq

/-- `TpmPolicy.public_dict`. -/
def TpmPolicy.publicDict (p : TpmPolicy) : Value :=
  .dict [(text "selection", .list (p.selection.map fun s ↦
      .dict [(text "bank", .str s.1), (text "indices", .list (s.2.map .int))])),
    (text "expected_pcr_digest", .str (hex p.expectedPcrDigest)),
    (text "trusted_roots_sha256", .str (sha256Hex p.trustedRootsPem))]

/-- `BrokerPolicy`. -/
structure BrokerPolicy where
  brokerId : Text
  qualifiedScope : Text
  resourceIssuerKid : Text
  resourceIssuerPublicHex : Text
  challengeTtlSeconds : Int
  credentialTtlSeconds : Int
  manifest : ManifestPolicy
  tpm : TpmPolicy
  deriving DecidableEq

/-- `bytes.fromhex`. -/
def bytesFromHex (t : Text) : Except Exn Bytes :=
  match fromHex t with
  | some b => .ok b
  | none => .error (.value "non-hexadecimal number found in fromhex() arg")

/-- `BrokerPolicy.public_dict`. -/
def BrokerPolicy.publicDict (p : BrokerPolicy) : Except Exn Value := do
  let issuerKey ← bytesFromHex p.resourceIssuerPublicHex
  return .dict [(text "broker_id", .str p.brokerId),
    (text "qualified_scope", .str p.qualifiedScope),
    (text "resource_issuer_kid", .str p.resourceIssuerKid),
    (text "resource_issuer_public_hex", .str p.resourceIssuerPublicHex),
    (text "resource_issuer_key_sha256", .str (sha256Hex issuerKey)),
    (text "challenge_ttl_seconds", .int p.challengeTtlSeconds),
    (text "credential_ttl_seconds", .int p.credentialTtlSeconds),
    (text "manifest", p.manifest.publicDict), (text "tpm", p.tpm.publicDict)]

/-- `ResourcePolicy`. -/
structure ResourcePolicy where
  audience : Text
  method : Text
  qualifiedScope : Text
  trustedBrokerPublicHex : Text
  challengeTtlSeconds : Int
  maxCredentialLifetimeSeconds : Int
  deriving DecidableEq

/-- `ResourcePolicy.public_dict`. -/
def ResourcePolicy.publicDict (p : ResourcePolicy) : Value :=
  .dict [(text "audience", .str p.audience), (text "method", .str p.method),
    (text "qualified_scope", .str p.qualifiedScope),
    (text "trusted_broker_public_hex", .str p.trustedBrokerPublicHex),
    (text "challenge_ttl_seconds", .int p.challengeTtlSeconds),
    (text "max_credential_lifetime_seconds", .int p.maxCredentialLifetimeSeconds)]

end Atcap
