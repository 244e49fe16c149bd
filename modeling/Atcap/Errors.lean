import Mathlib.Data.List.Infix
import Atcap.Base.Text

/-!
# Decision reasons and exceptions

`src/atcap/errors.py`, and the exception classes of the libraries that the services tell
apart in an `except` clause. Every other exception is `other`.
-/

namespace Atcap

open Base

/-- `Reason`: stable, fail-closed decision reasons. -/
inductive Reason where
  | ALLOW
  | UNAUTHENTICATED
  | CHALLENGE_INVALID
  | CHALLENGE_STALE
  | CHALLENGE_CONSUMED
  | TPM_INVALID
  | TPM_UNTRUSTED
  | PCR_POLICY
  | MANIFEST_INVALID
  | MANIFEST_POLICY
  | IDENTITY_UNAUTHORIZED
  | IDENTITY_SIGNATURE
  | REQUEST_BINDING
  | CREDENTIAL_INVALID
  | CREDENTIAL_EXPIRED
  | SCOPE_DENIED
  | HOLDER_PROOF_INVALID
  | CREDENTIAL_SPENT
  | RECEIPT_INVALID
  | HANDLER_FAILED
  | INTERNAL_ERROR
  deriving DecidableEq, Repr

namespace Reason

/-- Every reason, in the order of the enumeration. -/
def all : List Reason :=
  [.ALLOW, .UNAUTHENTICATED, .CHALLENGE_INVALID, .CHALLENGE_STALE, .CHALLENGE_CONSUMED,
   .TPM_INVALID, .TPM_UNTRUSTED, .PCR_POLICY, .MANIFEST_INVALID, .MANIFEST_POLICY,
   .IDENTITY_UNAUTHORIZED, .IDENTITY_SIGNATURE, .REQUEST_BINDING, .CREDENTIAL_INVALID,
   .CREDENTIAL_EXPIRED, .SCOPE_DENIED, .HOLDER_PROOF_INVALID, .CREDENTIAL_SPENT,
   .RECEIPT_INVALID, .HANDLER_FAILED, .INTERNAL_ERROR]

/-- The enumeration lists every reason. -/
theorem mem_all (r : Reason) : r ∈ all := by
  cases r <;> decide

/-- The string value of a reason. -/
def value : Reason → Text
  | .ALLOW => text "ALLOW"
  | .UNAUTHENTICATED => text "UNAUTHENTICATED"
  | .CHALLENGE_INVALID => text "CHALLENGE_INVALID"
  | .CHALLENGE_STALE => text "CHALLENGE_STALE"
  | .CHALLENGE_CONSUMED => text "CHALLENGE_CONSUMED"
  | .TPM_INVALID => text "TPM_INVALID"
  | .TPM_UNTRUSTED => text "TPM_UNTRUSTED"
  | .PCR_POLICY => text "PCR_POLICY"
  | .MANIFEST_INVALID => text "MANIFEST_INVALID"
  | .MANIFEST_POLICY => text "MANIFEST_POLICY"
  | .IDENTITY_UNAUTHORIZED => text "IDENTITY_UNAUTHORIZED"
  | .IDENTITY_SIGNATURE => text "IDENTITY_SIGNATURE"
  | .REQUEST_BINDING => text "REQUEST_BINDING"
  | .CREDENTIAL_INVALID => text "CREDENTIAL_INVALID"
  | .CREDENTIAL_EXPIRED => text "CREDENTIAL_EXPIRED"
  | .SCOPE_DENIED => text "SCOPE_DENIED"
  | .HOLDER_PROOF_INVALID => text "HOLDER_PROOF_INVALID"
  | .CREDENTIAL_SPENT => text "CREDENTIAL_SPENT"
  | .RECEIPT_INVALID => text "RECEIPT_INVALID"
  | .HANDLER_FAILED => text "HANDLER_FAILED"
  | .INTERNAL_ERROR => text "INTERNAL_ERROR"

/-- `Reason(value)`, undefined where Python raises `ValueError`. -/
def ofValue? (t : Text) : Option Reason := all.find? (fun r ↦ decide (r.value = t))

set_option maxRecDepth 4000 in
/-- The string value determines the reason. -/
theorem ofValue?_value (r : Reason) : ofValue? r.value = some r := by
  cases r <;> decide

/-- A recognised string is the value of the reason it names. -/
theorem value_of_ofValue? {t : Text} {r : Reason} (h : ofValue? t = some r) : r.value = t := by
  simpa using List.find?_some h

/-- Every reason's value has a UTF-8 encoding. -/
@[simp] theorem encodable_value (r : Reason) : Text.encodable r.value = true := by
  cases r <;> exact encodable_text _

end Reason

/-- The exceptions the services raise or tell apart. -/
inductive Exn where
  /-- `DecisionError(reason, message)`. -/
  | decision (reason : Reason) (message : String)
  /-- `PostInvocationError(message, invocation_id, completed)`. -/
  | postInvocation (message : String) (invocationId : Nat) (completed : Bool)
  /-- pydantic `ValidationError`, a `ValueError`. -/
  | validation (message : String)
  /-- `UnicodeEncodeError`, a `ValueError`. -/
  | unicodeEncode
  /-- Any other `ValueError`. -/
  | value (message : String)
  | type
  /-- cA2A `InvalidCredential`. -/
  | invalidCredential
  /-- cA2A `CredentialExpired`. -/
  | credentialExpired
  /-- cA2A `UntrustedDelegationRoot`. -/
  | untrustedDelegationRoot
  /-- cA2A `HolderProofInvalid`. -/
  | holderProofInvalid
  /-- cA2A `AttestationFailed`. -/
  | attestationFailed (message : String)
  /-- Any other cA2A `CA2AError`. -/
  | ca2a
  /-- cryptography `InvalidSignature`. -/
  | invalidSignature
  /-- Agent Manifest `TpmVerificationError`. -/
  | tpmVerification (message : String)
  /-- x509 `DuplicateExtension` and `ExtensionNotFound`. -/
  | x509Extension
  /-- `AkCertificatePolicyError`, a `ValueError`. -/
  | akCertificatePolicy (message : String)
  /-- `sqlite3.IntegrityError`. -/
  | integrity
  /-- `OverflowError`. -/
  | overflow
  | other

namespace Exn

/-- Instances of `ValueError`. -/
def isValueError : Exn → Bool
  | .validation _ | .unicodeEncode | .value _ | .akCertificatePolicy _ => true
  | _ => false

/-- Instances of cA2A's `CA2AError`, the base class of its exceptions. -/
def isCA2AError : Exn → Bool
  | .invalidCredential | .credentialExpired | .untrustedDelegationRoot | .holderProofInvalid
  | .attestationFailed _ | .ca2a => true
  | _ => false

/-- `needle in str(exc).lower()`. -/
def mentions (needle message : String) : Bool :=
  decide (needle.toList <:+: message.toList.map Char.toLower)

/-- The reason a denial gives for an exception: a `DecisionError`'s own, or `INTERNAL_ERROR`. -/
def denialReason : Exn → Reason
  | .decision reason _ => reason
  | _ => .INTERNAL_ERROR

/-- Whether an exception is a `DecisionError`. -/
def isDecision : Exn → Bool
  | .decision .. => true
  | _ => false

/-- Any other exception is an internal error. -/
theorem denialReason_eq {e : Exn} (h : e.isDecision = false) :
    e.denialReason = .INTERNAL_ERROR := by
  cases e with
  | decision => cases h
  | postInvocation | validation | unicodeEncode | value | type | invalidCredential
  | credentialExpired | untrustedDelegationRoot | holderProofInvalid | attestationFailed | ca2a
  | invalidSignature | tpmVerification | x509Extension | akCertificatePolicy | integrity | overflow
  | other => rfl

end Exn

/-- A reply that is no `DecisionError`. -/
def Plain {α : Type} (r : Except Exn α) : Prop := ∀ e, r = .error e → e.isDecision = false

/-- What a plain reply raises is an internal error. -/
theorem Plain.denialReason {α : Type} {r : Except Exn α} (hr : Plain r) {e : Exn}
    (h : r = .error e) : e.denialReason = .INTERNAL_ERROR :=
  Exn.denialReason_eq (hr e h)

end Atcap
