import Atcap.Base.Table
import Atcap.Receipt

/-!
# Verifying a receipt

`ReceiptVerifier` of `src/atcap/receipt.py`, with the strict validation of a decoded payload.
The bytes a verifier accepts under its key are exactly the canonical encodings of valid payloads,
one for each payload.
-/

namespace Atcap

open Base

/-! ### Strict readers

A strict reader accepts the values of one type and changes none of them. -/

namespace Strict

/-- A reader that inverts a dump. -/
def Reads {α : Type} (read : Value → Except Exn α) (dump : α → Value) : Prop :=
  ∀ v a, read v = .ok a ↔ v = dump a

/-- `str`. -/
def str : Value → Except Exn Text
  | .str t => .ok t
  | _ => .error (.validation "Input should be a valid string")

/-- `int`, not `bool` and not `float`. -/
def int : Value → Except Exn Int
  | .int n => .ok n
  | _ => .error (.validation "Input should be a valid integer")

/-- `bool`. -/
def bool : Value → Except Exn Bool
  | .bool b => .ok b
  | _ => .error (.validation "Input should be a valid boolean")

/-- `str | None`. -/
def optionalStr : Value → Except Exn (Option Text)
  | .none => .ok none
  | v => some <$> str v

/-- `int | None`. -/
def optionalInt : Value → Except Exn (Option Int)
  | .none => .ok none
  | v => some <$> int v

/-- `Literal[...]`: one of the texts that spell the members of `all`. -/
def choice {α : Type} (all : List α) (value : α → Text) (v : Value) : Except Exn α := do
  let t ← str v
  orRaise (all.find? fun a ↦ decide (value a = t)) (.validation "Input should be a listed literal")

/-- `_known_reason` after `str`. -/
def knownReason (v : Value) : Except Exn Reason := do
  let t ← str v
  orRaise (Reason.ofValue? t) (.validation "unknown decision reason")

/-- The members of `dict[str, str]`. -/
def strMembers : List (Text × Value) → Except Exn (List (Text × Text))
  | [] => .ok []
  | (k, v) :: rest => do
    let t ← str v
    let members ← strMembers rest
    return (k, t) :: members

/-- `dict[str, str]`. -/
def strDict : Value → Except Exn (List (Text × Text))
  | .dict m => strMembers m
  | _ => .error (.validation "Input should be a valid dictionary")

/-- A required field of a model. -/
def field {α : Type} (m : List (Text × Value)) (name : Text) (read : Value → Except Exn α) :
    Except Exn α := do
  let v ← orRaise (m.lookup name) (.validation "Field required")
  read v

/-- A dumped text is read. -/
theorem reads_str : Reads str .str := by
  intro v t
  cases v <;> simp [str]

/-- A dumped integer is read. -/
theorem reads_int : Reads int .int := by
  intro v n
  cases v <;> simp [int]

/-- A dumped flag is read. -/
theorem reads_bool : Reads bool .bool := by
  intro v b
  cases v <;> simp [bool]

/-- A dumped optional text is read. -/
theorem reads_optionalStr : Reads optionalStr .ofText? := by
  intro v o
  cases v <;> cases o <;> simp [optionalStr, str, Value.ofText?, Functor.map, Except.map]

/-- A dumped optional integer is read. -/
theorem reads_optionalInt : Reads optionalInt .ofInt? := by
  intro v o
  cases v <;> cases o <;> simp [optionalInt, int, Value.ofInt?, Functor.map, Except.map]

/-- A dumped choice is read when it is the first of its spelling. -/
theorem reads_choice {α : Type} {all : List α} {value : α → Text}
    (h : ∀ a, all.find? (fun b ↦ decide (value b = value a)) = some a) :
    Reads (choice all value) fun a ↦ .str (value a) := by
  intro v a
  simp only [choice, bind_eq_ok, orRaise_eq_ok, reads_str v]
  constructor
  · rintro ⟨t, rfl, hfind⟩
    have ht : value a = t := by simpa using List.find?_some hfind
    rw [ht]
  · rintro rfl
    exact ⟨_, rfl, h a⟩

/-- A dumped reason is read. -/
theorem reads_knownReason : Reads knownReason fun r ↦ .str r.value := by
  intro v r
  simp only [knownReason, bind_eq_ok, orRaise_eq_ok, reads_str v]
  constructor
  · rintro ⟨t, rfl, ht⟩
    rw [Reason.value_of_ofValue? ht]
  · rintro rfl
    exact ⟨_, rfl, Reason.ofValue?_value r⟩

private theorem strMembers_eq_ok {m : List (Text × Value)} {members : List (Text × Text)} :
    strMembers m = .ok members ↔ m = members.map fun p ↦ (p.1, .str p.2) := by
  induction m generalizing members with
  | nil => cases members <;> simp [strMembers]
  | cons p rest ih =>
    obtain ⟨k, v⟩ := p
    simp only [strMembers, bind_eq_ok, reads_str v, ih, pure, Except.pure, Except.ok.injEq]
    constructor
    · rintro ⟨t, rfl, tail, rfl, rfl⟩
      rfl
    · intro h
      cases members with
      | nil => cases h
      | cons q tail =>
        simp only [List.map_cons, List.cons.injEq, Prod.mk.injEq] at h
        exact ⟨q.2, h.1.2, tail, h.2, by rw [h.1.1]⟩

/-- A dumped dictionary of texts is read. -/
theorem reads_strDict : Reads strDict .ofTexts := by
  intro v members
  cases v <;> simp [strDict, Value.ofTexts, strMembers_eq_ok]

/-- A field is read exactly when the member is the dump of what was read. -/
theorem field_eq_ok {α : Type} {m : List (Text × Value)} {name : Text}
    {read : Value → Except Exn α} {dump : α → Value} (h : Reads read dump) {a : α} :
    field m name read = .ok a ↔ m.lookup name = some (dump a) := by
  simp only [field, bind_eq_ok, orRaise_eq_ok, h _ a]
  constructor
  · rintro ⟨v, hv, rfl⟩
    exact hv
  · intro hv
    exact ⟨_, hv, rfl⟩

end Strict

/-! ### Validating a payload -/

/-- The fields of `DecisionReceiptPayload`. -/
def receiptFieldNames : List Text :=
  ["schema_version", "receipt_id", "deciding_service", "decision", "reason", "decided_at",
    "credential_id", "qualified_scope", "challenge_token_hash", "manifest_digest", "method",
    "audience", "arguments_digest", "record_id", "invocation_id", "handler_count_snapshot",
    "handler_invoked", "business_result", "artifact_hashes"].map text

open Strict in
/-- `DecisionReceiptPayload.model_validate`: no other field, every field of its own type, then the
bounds and the semantic validator. -/
def DecisionReceiptPayload.modelValidate (v : Value) : Except Exn DecisionReceiptPayload :=
  match v with
  | .dict m => do
    raiseIf (∃ p ∈ m, p.1 ∉ receiptFieldNames) (.validation "Extra inputs are not permitted")
    let () ← field m (text "schema_version") (choice [()] fun _ ↦ receiptSchemaVersion)
    let receiptId ← field m (text "receipt_id") str
    let decidingService ← field m (text "deciding_service")
      (choice [.broker, .inventoryd] DecidingService.value)
    let decision ← field m (text "decision") (choice [.allow, .deny] Verdict.value)
    let reason ← field m (text "reason") knownReason
    let decidedAt ← field m (text "decided_at") int
    let credentialId ← field m (text "credential_id") optionalStr
    let qualifiedScope ← field m (text "qualified_scope") optionalStr
    let challengeTokenHash ← field m (text "challenge_token_hash") optionalStr
    let manifestDigest ← field m (text "manifest_digest") optionalStr
    let method ← field m (text "method") optionalStr
    let audience ← field m (text "audience") optionalStr
    let argumentsDigest ← field m (text "arguments_digest") optionalStr
    let recordId ← field m (text "record_id") optionalStr
    let invocationId ← field m (text "invocation_id") optionalInt
    let handlerCountSnapshot ← field m (text "handler_count_snapshot") int
    let handlerInvoked ← field m (text "handler_invoked") bool
    let businessResult ← field m (text "business_result")
      (choice [.notApplicable, .notInvoked, .completed, .failed] BusinessResult.value)
    let artifactHashes ← field m (text "artifact_hashes") strDict
    DecisionReceiptPayload.construct {
      receiptId, decidingService, decision, reason, decidedAt, credentialId, qualifiedScope,
      challengeTokenHash, manifestDigest, method, audience, argumentsDigest, recordId,
      invocationId, handlerCountSnapshot, handlerInvoked, businessResult,
      artifactHashes := Std.ExtTreeMap.ofList artifactHashes }
  | _ => .error (.validation "Input should be a valid dictionary")

namespace ReceiptFields

/-- The members of a dump, with any value for the artifact hashes. -/
def dumpMembers (p : ReceiptFields) (hashes : Value) : List (Text × Value) :=
  [(text "schema_version", .str receiptSchemaVersion),
    (text "receipt_id", .str p.receiptId),
    (text "deciding_service", .str p.decidingService.value),
    (text "decision", .str p.decision.value), (text "reason", .str p.reason.value),
    (text "decided_at", .int p.decidedAt), (text "credential_id", .ofText? p.credentialId),
    (text "qualified_scope", .ofText? p.qualifiedScope),
    (text "challenge_token_hash", .ofText? p.challengeTokenHash),
    (text "manifest_digest", .ofText? p.manifestDigest), (text "method", .ofText? p.method),
    (text "audience", .ofText? p.audience),
    (text "arguments_digest", .ofText? p.argumentsDigest),
    (text "record_id", .ofText? p.recordId), (text "invocation_id", .ofInt? p.invocationId),
    (text "handler_count_snapshot", .int p.handlerCountSnapshot),
    (text "handler_invoked", .bool p.handlerInvoked),
    (text "business_result", .str p.businessResult.value), (text "artifact_hashes", hashes)]

/-- The dump of a receipt, with its hashes apart. -/
theorem modelDump_eq (p : ReceiptFields) :
    p.modelDump = .dict (p.dumpMembers (.ofTexts p.artifactHashes.toList)) := rfl

/-- The members of a dumped receipt are its fields in order. -/
theorem dumpMembers_keys (p : ReceiptFields) (hashes : Value) :
    (p.dumpMembers hashes).map Prod.fst = receiptFieldNames := rfl

end ReceiptFields

/-- The field names are pairwise distinct. -/
theorem receiptFieldNames_nodup : receiptFieldNames.Nodup := by
  apply List.Nodup.map text_injective
  decide

open Strict in
/-- Validation accepts a dictionary exactly when its members are those of a dump. -/
theorem DecisionReceiptPayload.modelValidate_eq_ok {m : List (Text × Value)}
    {p : DecisionReceiptPayload} : modelValidate (.dict m) = .ok p ↔
      (∀ q ∈ m, q.1 ∈ receiptFieldNames) ∧ ∃ hashes,
        p.artifactHashes = Std.ExtTreeMap.ofList hashes ∧
        ∀ q ∈ p.dumpMembers (.ofTexts hashes), m.lookup q.1 = some q.2 := by
  have hschema : Reads (choice [()] fun _ ↦ receiptSchemaVersion) fun _ ↦
    .str receiptSchemaVersion :=
    reads_choice fun _ ↦ by simp
  have hservice : Reads (choice [.broker, .inventoryd] DecidingService.value) fun a ↦
    .str a.value :=
    reads_choice fun a ↦ by cases a <;> decide
  have hdecision : Reads (choice [.allow, .deny] Verdict.value) fun a ↦ .str a.value :=
    reads_choice fun a ↦ by cases a <;> decide
  have hresult : Reads (choice [.notApplicable, .notInvoked, .completed, .failed]
      BusinessResult.value) fun a ↦ .str a.value := reads_choice fun a ↦ by cases a <;> decide
  simp only [modelValidate, bind_eq_ok, raiseIf_eq_ok, field_eq_ok hschema, field_eq_ok reads_str,
    field_eq_ok hservice, field_eq_ok hdecision, field_eq_ok reads_knownReason,
    field_eq_ok reads_int, field_eq_ok reads_optionalStr, field_eq_ok reads_optionalInt,
    field_eq_ok reads_bool, field_eq_ok hresult, field_eq_ok reads_strDict]
  constructor
  · rintro ⟨-, hextra, -, h₁, _, h₂, _, h₃, _, h₄, _, h₅, _, h₆, _, h₇, _, h₈, _, h₉, _, h₁₀, _,
      h₁₁, _, h₁₂, _, h₁₃, _, h₁₄, _, h₁₅, _, h₁₆, _, h₁₇, _, h₁₈, hashes, h₁₉, hconstruct⟩
    have hp := construct_eq_ok hconstruct
    refine ⟨by simpa using hextra, hashes, by rw [hp], ?_⟩
    rw [hp]
    simp only [ReceiptFields.dumpMembers, List.forall_mem_cons]
    exact ⟨h₁, h₂, h₃, h₄, h₅, h₆, h₇, h₈, h₉, h₁₀, h₁₁, h₁₂, h₁₃, h₁₄, h₁₅, h₁₆, h₁₇, h₁₈, h₁₉,
      List.forall_mem_nil _⟩
  · rintro ⟨hextra, hashes, hhashes, hmembers⟩
    simp only [ReceiptFields.dumpMembers, List.forall_mem_cons] at hmembers
    obtain ⟨h₁, h₂, h₃, h₄, h₅, h₆, h₇, h₈, h₉, h₁₀, h₁₁, h₁₂, h₁₃, h₁₄, h₁₅, h₁₆, h₁₇, h₁₈, h₁₉,
      -⟩ := hmembers
    refine ⟨(), by simpa using hextra, (), h₁, _, h₂, _, h₃, _, h₄, _, h₅, _, h₆, _, h₇, _, h₈, _,
      h₉, _, h₁₀, _, h₁₁, _, h₁₂, _, h₁₃, _, h₁₄, _, h₁₅, _, h₁₆, _, h₁₇, _, h₁₈, hashes, h₁₉, ?_⟩
    rw [← hhashes]
    exact construct_of_check p.valid

/-- `ReceiptVerifier`. -/
structure ReceiptVerifier where
  publicKey : Bytes
  keyId : Text

/-- The header a verifier expects. -/
def ReceiptVerifier.expected (r : ReceiptVerifier) : List (Text × Text) :=
  [(text "alg", jwsAlgorithm), (text "kid", r.keyId), (text "typ", jwsType)]

/-- The body of the `try` statement of `ReceiptVerifier.verify`. -/
def ReceiptVerifier.decode (lib : Libraries) (r : ReceiptVerifier)
    (signedReceipt : SignedDecisionReceipt) : Except Exn DecisionReceiptPayload := do
  let signed ← lib.jwsDeserializeCompact signedReceipt.compactJws r.publicKey
  raiseIf (¬ signed.1.isTexts r.expected) (.value "unexpected protected JWS header")
  let decoded ← orRaise (jsonLoads lib signed.2) (.value "the payload is not JSON")
  match decoded with
  | .dict m => do
    let data ← canonicalJson lib (.dict m)
    raiseIf (data ≠ signed.2) (.value "receipt payload is not RFC 8785 canonical JSON")
    DecisionReceiptPayload.modelValidate (.dict m)
  | _ => .error (.value "receipt payload is not an object")

/-- `ReceiptVerifier.verify`. -/
def ReceiptVerifier.verify (lib : Libraries) (r : ReceiptVerifier)
    (signedReceipt : SignedDecisionReceipt) : Except Exn DecisionReceiptPayload :=
  (r.decode lib signedReceipt).mapError fun _ ↦
    .decision .RECEIPT_INVALID "decision receipt failed verification"

end Atcap
