import Atcap.Effects

/-!
# TPM appraisal

`src/atcap/tpm.py`. The certificate guard is a narrow profile over a leaf-first chain and the
configured roots; the released verifier authenticates the quote after it.
-/

namespace Atcap

open Base

/-- The domain separator of the issuance transcript, `b"atcap-issuance-v1\x00"`. -/
def issuanceDomain : Bytes := utf8 (text "atcap-issuance-v1") ++ [0]

/-- `issuance_qualifying_data`: bind a quote to the complete, identity-endorsed request. -/
def issuanceQualifyingData (lib : Libraries) (request : IssuanceRequest) : Except Exn Bytes := do
  let data ← canonicalJson lib request.toDict
  return sha256 (issuanceDomain ++ data)

/-! ### The certificate guard -/

/-- The `except` clause around `load_pem_x509_certificates`. -/
def malformedPem (label : String) (e : Exn) : Exn :=
  match e with
  | .type => .akCertificatePolicy (label ++ " is malformed")
  | e => if e.isValueError then .akCertificatePolicy (label ++ " is malformed") else e

/-- `_load_certificates`. -/
def loadCertificates {L : Type} (pem : Bytes) (label : String) : Py L (List Certificate) := do
  Body.raiseIf (pem = []) (.akCertificatePolicy (label ++ " is missing"))
  let certificates ← callLibExcept (.loadPemX509Certificates pem) (malformedPem label)
  Body.raiseIf (certificates.isEmpty = true)
    (.akCertificatePolicy (label ++ " contains no certificates"))
  return certificates

/-- The `except` clause around a required extension. -/
def missingExtension (message : String) (e : Exn) : Exn :=
  match e with
  | .x509Extension => .akCertificatePolicy message
  | e => if e.isValueError then .akCertificatePolicy message else e

/-- `_required_basic_constraints`. -/
def requiredBasicConstraints (certificate : Certificate) (role : String) :
    Except Exn BasicConstraints :=
  certificate.basicConstraints.mapError
    (missingExtension (role ++ " certificate lacks valid BasicConstraints"))

/-- `_required_key_usage`. -/
def requiredKeyUsage (certificate : Certificate) (role : String) : Except Exn KeyUsage :=
  certificate.keyUsage.mapError (missingExtension (role ++ " certificate lacks valid KeyUsage"))

/-- `_require_current`. -/
def requireCurrent (certificate : Certificate) (role : String) (evaluationTime : Int) :
    Except Exn Unit :=
  raiseIf (evaluationTime < certificate.notValidBeforeUtc ∨
      evaluationTime ≥ certificate.notValidAfterUtc)
    (.akCertificatePolicy (role ++ " certificate is outside its validity window"))

/-- The checks of the leaf of a chain. -/
def checkLeaf (leaf : Certificate) (now : Int) : Except Exn Unit := do
  requireCurrent leaf "AK leaf" now
  let constraints ← requiredBasicConstraints leaf "AK leaf"
  raiseIf (constraints.ca = true) (.akCertificatePolicy "AK leaf certificate must not be a CA")
  let usage ← requiredKeyUsage leaf "AK leaf"
  raiseIf (usage.digitalSignature = false ∨ usage.keyCertSign = true)
    (.akCertificatePolicy "AK leaf KeyUsage must allow digitalSignature and forbid keyCertSign")

/-- The checks every CA certificate passes; the constraints are returned. -/
def checkAuthority (certificate : Certificate) (role : String) : Except Exn BasicConstraints := do
  let constraints ← requiredBasicConstraints certificate role
  raiseIf (constraints.ca = false) (.akCertificatePolicy (role ++ " certificate must be a CA"))
  let usage ← requiredKeyUsage certificate role
  raiseIf (usage.keyCertSign = false)
    (.akCertificatePolicy (role ++ " KeyUsage must allow keyCertSign"))
  return constraints

/-- The role of the issuer at a position of the chain. -/
def issuerRole (index last : Nat) : String :=
  if index = last then "AK chain root" else "AK issuer " ++ toString index

/-- The checks of the issuer at a position of the chain whose last position is `last`. -/
def checkIssuer (issuer : Certificate) (index last : Nat) (now : Int) : Except Exn Unit := do
  -- The terminal root is a trust anchor: its validity window is not applied here.
  (if index < last then requireCurrent issuer (issuerRole index last) now else .ok ())
  let constraints ← checkAuthority issuer (issuerRole index last)
  raiseIf (constraints.pathLength.any fun n ↦ decide (n < (index : Int) - 1))
    (.akCertificatePolicy (issuerRole index last ++ " path-length constraint is exceeded"))

/-- The loop over the issuers of the chain, from position `index` on. -/
def checkIssuers (index last : Nat) (now : Int) : List Certificate → Except Exn Unit
  | [] => .ok ()
  | issuer :: rest => do
    checkIssuer issuer index last now
    checkIssuers (index + 1) last now rest

/-- The loop over the configured roots, from number `index` on. -/
def checkRoots (index : Nat) : List Certificate → Except Exn Unit
  | [] => .ok ()
  | root :: rest => do
    let _ ← checkAuthority root ("configured TPM root " ++ toString index)
    checkRoots (index + 1) rest

/-- The checks of a parsed chain and of the parsed roots. -/
def checkChain (chain roots : List Certificate) (now : Int) : Except Exn Unit :=
  match chain with
  | leaf :: issuer :: rest => do
    checkLeaf leaf now
    checkIssuers 1 (rest.length + 1) now (issuer :: rest)
    checkRoots 0 roots
  | _ => .error (.akCertificatePolicy
      "AK certificate chain must contain a leaf and at least one issuer")

/-- The instant a timezone-aware evaluation time names. -/
def awareInstant (evaluationTime : DateTime) : Except Exn Int :=
  match evaluationTime with
  | .malformed => .error (.akCertificatePolicy "certificate evaluation time is malformed")
  | .naive => .error (.akCertificatePolicy
      "certificate evaluation time must be timezone-aware")
  | .aware instant => .ok instant

/-- `enforce_synthetic_ak_certificate_policy`; the instant in UTC is returned. -/
def enforceSyntheticAkCertificatePolicy {L : Type} (akChainPem trustedRootsPem : Bytes)
    (evaluationTime : DateTime) : Py L Int := do
  let now ← Body.ofExcept (awareInstant evaluationTime)
  let chain ← loadCertificates akChainPem "AK certificate chain"
  let roots ← loadCertificates trustedRootsPem "trusted TPM roots"
  Body.ofExcept (checkChain chain roots now)
  return now

/-! ### Appraisers -/

/-- `TpmAppraiser`: the appraisers of the source, and any other implementation. -/
inductive TpmAppraiser where
  /-- `ReleasedTpmAppraiser` with its configured selection reader and evaluation time. -/
  | released
  /-- `TestTpmAppraiser`. -/
  | test (acceptedEvidence : TpmEvidence)
  | other

/-- `except TpmVerificationError` around the released verifier. -/
def quoteFailure (e : Exn) : Exn :=
  match e with
  | .tpmVerification message =>
    .decision (if Exn.mentions "chain" message || Exn.mentions "root" message then .TPM_UNTRUSTED
      else .TPM_INVALID) "TPM quote or AK trust path was rejected"
  | e => e

/-- `verified is not True`. -/
def isTrue (v : Value) : Bool :=
  match v with
  | .bool b => b
  | _ => false

/-- The quote check `verify_tpm_quote` is asked for. -/
def quoteCheck (evidence : TpmEvidence) (expectedQualifyingData : Bytes) (policy : TpmPolicy)
    (verificationTime : Int) : QuoteCheck where
  attest := evidence.attest
  signature := evidence.signature
  akChainPem := evidence.akChainPem
  trustedRootsPem := policy.trustedRootsPem
  expectedQualifyingData := expectedQualifyingData
  expectedPcrDigest := policy.expectedPcrDigest
  verificationTime := verificationTime

variable {L : Type}

/-- Both policy layers evaluate the same instant. -/
def evaluateChain (evidence : TpmEvidence) (policy : TpmPolicy) : Py Unit Int := do
  let evaluationTime ← callLib .evaluationTime
  enforceSyntheticAkCertificatePolicy evidence.akChainPem policy.trustedRootsPem evaluationTime

/-- `ReleasedTpmAppraiser.appraise`. -/
def appraiseReleased (evidence : TpmEvidence) (expectedQualifyingData : Bytes)
    (policy : TpmPolicy) : Py L Unit := do
  let selection ← callLibExcept (.readPcrSelection evidence.attest) fun _ ↦
    .decision .TPM_INVALID "TPM PCR selection could not be parsed"
  Body.raiseIf (selection ≠ policy.selection)
    (.decision .PCR_POLICY "signed TPM PCR selection is not approved")
  let (outcome, _) ← Body.attempt (evaluateChain evidence policy) ()
  let evaluationTime ← Body.ofExcept (outcome.mapError fun _ ↦ .decision .TPM_UNTRUSTED
    "AK certificate chain does not satisfy the configured synthetic profile")
  let verified ← callLibExcept
    (.verifyTpmQuote (quoteCheck evidence expectedQualifyingData policy evaluationTime))
    quoteFailure
  Body.raiseIf (isTrue verified = false)
    (.decision .TPM_INVALID "TPM quote verification did not return True")

/-- `TpmAppraiser.appraise`. -/
def TpmAppraiser.appraise (appraiser : TpmAppraiser) (evidence : TpmEvidence)
    (expectedQualifyingData : Bytes) (policy : TpmPolicy) : Py L Unit :=
  match appraiser with
  | .released => appraiseReleased evidence expectedQualifyingData policy
  | .test acceptedEvidence => Body.raiseIf (evidence ≠ acceptedEvidence)
      (.decision .TPM_UNTRUSTED "test evidence is not trusted")
  | .other => callLib (.appraise evidence expectedQualifyingData policy)

end Atcap
