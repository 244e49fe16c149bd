import Mathlib.Data.List.Nodup
import Atcap.Inventory
import Atcap.Receipt.Verify

/-!
# Worker wire contract

`lab/worker_wire.py`. A `str` field with a pattern and a bounded `int` field are values that carry
the proof of their bound, so a model is its fields and the semantic validator over them. A literal
field has one value and is kept in the dump only.
-/

namespace Atcap

open Base

/-! ### Strict fields -/

namespace Strict

variable {α : Type}

/-- A constrained field: the base type, then its constraint. -/
def refine (p : α → Bool) (read : Value → Except Exn α) (v : Value) :
    Except Exn { a : α // p a = true } := do
  let a ← read v
  if h : p a = true then return ⟨a, h⟩ else throw (.validation "a field is outside its bounds")

/-- A field that may be `None`. -/
def optional (read : Value → Except Exn α) : Value → Except Exn (Option α)
  | .none => .ok none
  | v => some <$> read v

/-- `Literal[...]` of one text. -/
def literal (t : Text) (v : Value) : Except Exn Unit := do
  let s ← str v
  raiseIf (s ≠ t) (.validation "Input should be a listed literal")

/-- `Literal[True]`. -/
def literalTrue (v : Value) : Except Exn Unit := do
  let b ← bool v
  raiseIf (b ≠ true) (.validation "Input should be True")

/-- `list[...]`. -/
def list (read : Value → Except Exn α) : Value → Except Exn (List α)
  | .list xs => xs.mapM read
  | _ => .error (.validation "Input should be a valid list")

/-- `dict[str, JsonValue]`: a decoded object holds nothing but JSON values. -/
def members : Value → Except Exn (List (Text × Value))
  | .dict m => .ok m
  | _ => .error (.validation "Input should be a valid dictionary")

/-- A closed model: a dictionary with no member outside the declared fields. -/
def model (fields : List String) (read : List (Text × Value) → Except Exn α) (v : Value) :
    Except Exn α := do
  let m ← members v
  raiseIf (closed (fields.map text) m = false) (.validation "Extra inputs are not permitted")
  read m

/-- A field with a default: an absent member leaves the default. -/
def fieldD (m : List (Text × Value)) (name : Text) (default : α) (read : Value → Except Exn α) :
    Except Exn α :=
  match m.lookup name with
  | some v => read v
  | none => .ok default

end Strict

namespace Lab

/-- The value of a constrained field, from a value of its base type. -/
def checked {α : Type} (p : α → Bool) (a : α) : Except Exn { a : α // p a = true } :=
  if h : p a = true then .ok ⟨a, h⟩ else .error (.validation "a field is outside its bounds")

/-- The class `[A-Za-z0-9]`. -/
def isAlphanumeric (c : CodePoint) : Bool :=
  (decide (48 ≤ c.val) && decide (c.val ≤ 57)) || (decide (65 ≤ c.val) && decide (c.val ≤ 90)) ||
    (decide (97 ≤ c.val) && decide (c.val ≤ 122))

/-- The class `[A-Za-z0-9._:-]`. -/
def isRunIdChar (c : CodePoint) : Bool :=
  isAlphanumeric c || (text "._:-").contains c

/-- `RUN_ID_PATTERN`. -/
def isRunId : Text → Bool
  | c :: rest => isAlphanumeric c && decide (rest.length ≤ 127) && rest.all isRunIdChar
  | [] => false

/-- A slash directly before an alphanumeric character. -/
def hasSlashWord : Text → Bool
  | c :: d :: rest => (decide (c = codePoint '/') && isAlphanumeric d) || hasSlashWord (d :: rest)
  | _ => false

/-- The part of `IMAGE_PATTERN` before the digest: a registry and a name. -/
def isImageName : Text → Bool
  | c :: rest => isAlphanumeric c &&
      rest.all (fun d ↦ isRunIdChar d || decide (d = codePoint '/')) && hasSlashWord rest
  | [] => false

/-- `IMAGE_PATTERN`: the digest has a fixed length, and no name has an `@`. -/
def isImage (t : Text) : Bool :=
  let name := t.take (t.length - 72)
  let digest := t.drop (t.length - 72)
  isImageName name && decide (digest.take 8 = text "@sha256:") &&
    Text.isLowerHexOf 64 (digest.drop 8)

/-- A bounded length, which also rejects a lone surrogate. -/
def isBounded (min max : Nat) (t : Text) : Bool :=
  decide (min ≤ t.length) && decide (t.length ≤ max) && t.encodable

/-- A lower bound on the length, which also rejects a lone surrogate. -/
def isNonempty (t : Text) : Bool := decide (1 ≤ t.length) && t.encodable

/-- `Field(pattern=RUN_ID_PATTERN)`. -/
abbrev RunId := { t : Text // isRunId t = true }

/-- `Field(pattern=HEX_32_PATTERN)`. -/
abbrev Hex32 := { t : Text // t.isLowerHexOf 64 = true }

/-- `Field(pattern=HEX_64_PATTERN)`. -/
abbrev Hex64 := { t : Text // t.isLowerHexOf 128 = true }

/-- `Field(pattern=IMAGE_PATTERN)`. -/
abbrev Image := { t : Text // isImage t = true }

/-- `Field(min_length=1, max_length=max)`. -/
abbrev ShortText (max : Nat) := { t : Text // isBounded 1 max t = true }

/-- `Field(min_length=1)`. -/
abbrev NonemptyText := { t : Text // isNonempty t = true }

/-- A bounded field as a validated input of the services. -/
def ShortText.toBounded {max : Nat} (t : ShortText max) : BoundedText max where
  val := t.val
  nonempty := by
    have h := t.property
    simp only [isBounded, Bool.and_eq_true, decide_eq_true_eq] at h
    exact h.1.1
  bounded := by
    have h := t.property
    simp only [isBounded, Bool.and_eq_true, decide_eq_true_eq] at h
    exact h.1.2
  encodable := by
    have h := t.property
    simp only [isBounded, Bool.and_eq_true, decide_eq_true_eq] at h
    exact h.2

/-! ### Requests -/

/-- `Variant`. -/
inductive Variant where
  | valid
  | replay
  | argumentSubstitution
  | recordSubstitution
  | wrongHolder
  | malformed
  | concurrent
  deriving DecidableEq, Repr

namespace Variant

/-- The string of a variant. -/
def value : Variant → Text
  | .valid => text "valid"
  | .replay => text "replay"
  | .argumentSubstitution => text "argument-substitution"
  | .recordSubstitution => text "record-substitution"
  | .wrongHolder => text "wrong-holder"
  | .malformed => text "malformed"
  | .concurrent => text "concurrent"

/-- Every variant: the required case matrix. -/
def all : List Variant :=
  [.valid, .replay, .argumentSubstitution, .recordSubstitution, .wrongHolder, .malformed,
    .concurrent]

/-- The matrix lists every variant. -/
theorem mem_all (v : Variant) : v ∈ all := by
  cases v <;> decide

/-- Whether the variant is one of the three whose proof is good. -/
def allows : Variant → Bool
  | .valid | .replay | .concurrent => true
  | _ => false

end Variant

/-- `InventoryArgumentsWire`. -/
structure InventoryArgumentsWire where
  sku : ShortText 128
  deriving DecidableEq

/-- `InventoryArgumentsWire.model_dump(mode="json")`. -/
def InventoryArgumentsWire.modelDump (a : InventoryArgumentsWire) : Value :=
  .dict [(text "sku", .str a.sku.val)]

/-- `WorkerRequest`. -/
structure WorkerRequest where
  caseId : RunId
  runId : RunId
  variant : Variant
  credential : List (Text × Value)
  challenge : NonemptyText
  audience : ShortText 256
  qualifiedScope : ShortText 512
  recordId : ShortText 256
  arguments : InventoryArgumentsWire
  workerImage : Image
  workerCodeDigest : Hex32

/-- `WorkerRequest.model_dump(mode="json")`. -/
def WorkerRequest.modelDump (r : WorkerRequest) : Value :=
  .dict [(text "schema_version", .str (text "atcap-runpod-worker-request/v1")),
    (text "case_id", .str r.caseId.val), (text "run_id", .str r.runId.val),
    (text "variant", .str r.variant.value), (text "credential", .dict r.credential),
    (text "challenge", .str r.challenge.val), (text "audience", .str r.audience.val),
    (text "qualified_scope", .str r.qualifiedScope.val),
    (text "record_id", .str r.recordId.val), (text "arguments", r.arguments.modelDump),
    (text "worker_image", .str r.workerImage.val),
    (text "worker_code_digest", .str r.workerCodeDigest.val)]

/-! ### Responses -/

/-- `UntrustedRunpodMetadata`: a fixed trust label. -/
structure UntrustedRunpodMetadata where
  deriving DecidableEq

/-- `UntrustedRunpodMetadata.model_dump(mode="json")`. -/
def UntrustedRunpodMetadata.modelDump (_ : UntrustedRunpodMetadata) : Value :=
  .dict [(text "provider", .str (text "runpod")), (text "trust", .str (text "untrusted"))]

/-- `ProofSignature`: a signature, or the sentinel of the malformed case. -/
inductive ProofSignature where
  | hex (signature : Hex64)
  | seven
  deriving DecidableEq

/-- The value of a proof signature. -/
def ProofSignature.value : ProofSignature → Value
  | .hex signature => .str signature.val
  | .seven => .int 7

/-- `HolderProofWire`. -/
structure HolderProofWire where
  challenge : ShortText 8192
  signature : ProofSignature
  deriving DecidableEq

/-- The members of a dumped holder proof. -/
def HolderProofWire.members (p : HolderProofWire) : List (Text × Value) :=
  [(text "challenge", .str p.challenge.val), (text "signature", p.signature.value)]

/-- `HolderProofWire.model_dump(mode="json")`. -/
def HolderProofWire.modelDump (p : HolderProofWire) : Value := .dict p.members

/-- `WorkerResponse`: the fields of its body and the holder's signature over them. -/
structure WorkerResponse where
  caseId : RunId
  runId : RunId
  requestSha256 : Hex32
  workerPublicKey : Hex32
  proofSubject : Hex32
  workerImage : Image
  workerCodeDigest : Hex32
  holderProof : HolderProofWire
  runpodMetadata : UntrustedRunpodMetadata
  holderSignature : Hex64
  deriving DecidableEq

namespace WorkerResponse

/-- The members of `WorkerResponseBody`. -/
def bodyMembers (r : WorkerResponse) : List (Text × Value) :=
  [(text "schema_version", .str (text "atcap-runpod-worker-response/v1")),
    (text "case_id", .str r.caseId.val), (text "run_id", .str r.runId.val),
    (text "request_sha256", .str r.requestSha256.val),
    (text "worker_public_key", .str r.workerPublicKey.val),
    (text "proof_subject", .str r.proofSubject.val),
    (text "worker_image", .str r.workerImage.val),
    (text "worker_code_digest", .str r.workerCodeDigest.val),
    (text "holder_proof", r.holderProof.modelDump),
    (text "runpod_metadata", r.runpodMetadata.modelDump)]

/-- `signed_body().model_dump(mode="json")`. -/
def signedBody (r : WorkerResponse) : Value := .dict r.bodyMembers

/-- `WorkerResponse.model_dump(mode="json")`. -/
def modelDump (r : WorkerResponse) : Value :=
  .dict (r.bodyMembers ++ [(text "holder_signature", .str r.holderSignature.val)])

end WorkerResponse

/-- `WorkerResponseBundle`. -/
structure WorkerResponseBundle where
  responses : List WorkerResponse
  count : 1 ≤ responses.length ∧ responses.length ≤ 128
  /-- `_unique_run_ids`. -/
  uniqueRunIds : (responses.map WorkerResponse.runId).Nodup

/-- `RunpodJobEnvelope`. -/
structure RunpodJobEnvelope where
  id : ShortText 256
  delayTime : Option { n : Int // (decide (0 ≤ n) && decide (n ≤ 86400000)) = true }
  executionTime : Option { n : Int // (decide (0 ≤ n) && decide (n ≤ 86400000)) = true }
  workerId : Option (ShortText 256)
  output : WorkerResponseBundle

/-! ### Validation -/

section Validate

open Strict

/-- A field with a pattern. -/
def readPattern (p : Text → Bool) : Value → Except Exn { t : Text // p t = true } := refine p str

/-- A bounded integer. -/
def readBounded (p : Int → Bool) : Value → Except Exn { n : Int // p n = true } := refine p int

/-- `UntrustedRunpodMetadata.model_validate`. -/
def UntrustedRunpodMetadata.modelValidate : Value → Except Exn UntrustedRunpodMetadata :=
  model ["provider", "trust"] fun m ↦ do
    field m (text "provider") (literal (text "runpod"))
    field m (text "trust") (literal (text "untrusted"))
    return {}

/-- `ProofSignature`. -/
def ProofSignature.modelValidate : Value → Except Exn ProofSignature
  | .int n => if n = 7 then .ok .seven else .error (.validation "Input should be 7")
  | v => .hex <$> readPattern (Text.isLowerHexOf 128) v

/-- `HolderProofWire.model_validate`. -/
def HolderProofWire.modelValidate : Value → Except Exn HolderProofWire :=
  model ["challenge", "signature"] fun m ↦ do
    let challenge ← field m (text "challenge") (readPattern (isBounded 1 8192))
    let signature ← field m (text "signature") ProofSignature.modelValidate
    return { challenge, signature }

/-- `WorkerResponse.model_validate`. -/
def WorkerResponse.modelValidate : Value → Except Exn WorkerResponse :=
  model ["schema_version", "case_id", "run_id", "request_sha256", "worker_public_key",
    "proof_subject", "worker_image", "worker_code_digest", "holder_proof", "runpod_metadata",
    "holder_signature"] fun m ↦ do
    field m (text "schema_version") (literal (text "atcap-runpod-worker-response/v1"))
    let caseId ← field m (text "case_id") (readPattern isRunId)
    let runId ← field m (text "run_id") (readPattern isRunId)
    let requestSha256 ← field m (text "request_sha256") (readPattern (Text.isLowerHexOf 64))
    let workerPublicKey ← field m (text "worker_public_key") (readPattern (Text.isLowerHexOf 64))
    let proofSubject ← field m (text "proof_subject") (readPattern (Text.isLowerHexOf 64))
    let workerImage ← field m (text "worker_image") (readPattern isImage)
    let workerCodeDigest ← field m (text "worker_code_digest") (readPattern (Text.isLowerHexOf 64))
    let holderProof ← field m (text "holder_proof") HolderProofWire.modelValidate
    let runpodMetadata ← field m (text "runpod_metadata") UntrustedRunpodMetadata.modelValidate
    let holderSignature ← field m (text "holder_signature") (readPattern (Text.isLowerHexOf 128))
    return {
      caseId, runId, requestSha256, workerPublicKey, proofSubject, workerImage, workerCodeDigest,
      holderProof, runpodMetadata, holderSignature }

/-- The bounds and the validator of `WorkerResponseBundle`. -/
def WorkerResponseBundle.construct (responses : List WorkerResponse) :
    Except Exn WorkerResponseBundle :=
  if hc : 1 ≤ responses.length ∧ responses.length ≤ 128 then
    if hu : (responses.map WorkerResponse.runId).Nodup then .ok ⟨responses, hc, hu⟩
    else .error (.validation "worker response bundle has duplicate run IDs")
  else .error (.validation "a field is outside its bounds")

/-- `WorkerResponseBundle.model_validate`. -/
def WorkerResponseBundle.modelValidate : Value → Except Exn WorkerResponseBundle :=
  model ["schema_version", "responses"] fun m ↦ do
    field m (text "schema_version") (literal (text "atcap-runpod-worker-response-bundle/v1"))
    let responses ← field m (text "responses") (list WorkerResponse.modelValidate)
    WorkerResponseBundle.construct responses

/-- `RunpodJobEnvelope.model_validate`. -/
def RunpodJobEnvelope.modelValidate : Value → Except Exn RunpodJobEnvelope :=
  model ["id", "status", "delayTime", "executionTime", "workerId", "output"] fun m ↦ do
    let id ← field m (text "id") (readPattern (isBounded 1 256))
    field m (text "status") (literal (text "COMPLETED"))
    let delayTime ← fieldD m (text "delayTime") none (optional (readBounded _))
    let executionTime ← fieldD m (text "executionTime") none (optional (readBounded _))
    let workerId ← fieldD m (text "workerId") none (optional (readPattern (isBounded 1 256)))
    let output ← field m (text "output") WorkerResponseBundle.modelValidate
    return { id, delayTime, executionTime, workerId, output }

end Validate

/-- `strict_json_object`: one JSON object, with no member named twice at any depth. -/
def strictJsonObject (lib : Libraries) (raw : Bytes) : Except Exn Value := do
  let decoded ← orRaise (Json.loads ⟨4300, lib.floatOf, true⟩ raw)
    (.value "wire document is not strict JSON")
  match decoded with
  | .dict m => return .dict m
  | _ => throw (.value "wire document must be a JSON object")

end Lab
end Atcap
