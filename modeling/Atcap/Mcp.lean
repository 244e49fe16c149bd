import Atcap.Base.Json
import Atcap.Inventory

/-!
# The MCP boundary of the inventory server

`src/atcap/inventory.py`, `_call_tool` and `_mcp_result`: strict validation of a tool call's
arguments, dispatch by tool name, and the unauthenticated denial of everything else.
-/

namespace Atcap

open Base

/-! ### Strict validation of tool arguments -/

/-- Validation of an unbounded `str` field in strict mode. -/
def validateText? (v : Value) : Option Text :=
  match v with
  | .str t => some t
  | _ => none

/-- Validation of a `dict[str, Any]` field in strict mode. -/
def validateDict? (v : Value) : Option (List (Text × Value)) :=
  match v with
  | .dict m => some m
  | _ => none

/-- A required field under its own validation. -/
def requiredField {α : Type} (m : List (Text × Value)) (name : String)
    (validate? : Value → Option α) : Except Exn α :=
  orRaise ((m.lookup (text name)).bind validate?) (.validation name)

/-- `ChallengeInput.model_validate`. -/
def ChallengeInput.modelValidate (m : List (Text × Value)) : Except Exn ChallengeInput := do
  raiseIf (closed [text "sku", text "credential_id", text "record_id"] m = false)
    (.validation "Extra inputs are not permitted")
  let sku ← requiredField m "sku" (BoundedText.validate? 128)
  let credentialId ← requiredField m "credential_id" validateText?
  let recordId ← requiredField m "record_id" (BoundedText.validate? 256)
  return ⟨⟨sku⟩, credentialId, recordId⟩

/-- `LookupInput.model_validate`. -/
def LookupInput.modelValidate (m : List (Text × Value)) : Except Exn LookupInput := do
  raiseIf (closed [text "sku", text "credential", text "holder_proof", text "record_id"] m = false)
    (.validation "Extra inputs are not permitted")
  let sku ← requiredField m "sku" (BoundedText.validate? 128)
  let credential ← requiredField m "credential" validateDict?
  let holderProof ← requiredField m "holder_proof" validateDict?
  let recordId ← requiredField m "record_id" (BoundedText.validate? 256)
  return ⟨⟨sku⟩, credential, holderProof, recordId⟩

/-! ### Results -/

/-- `CallToolResult` with its one text item. -/
structure CallToolResult where
  text : Text
  structuredContent : Value
  isError : Bool

/-- `json.dumps` spells an integer unless it has too many digits. -/
def dumpsInt (n : Int) : Option Text := str? n

/-- `json.dumps` spells a `float` by its `repr`, and the three numbers that are not finite by
their names. -/
def dumpsFloat (lib : Libraries) (bits : BitVec 64) : Text :=
  if Value.finite bits then lib.floatRepr bits
  else if bits.extractLsb' 0 52 ≠ 0#52 then text "NaN"
  else if bits.msb then text "-Infinity" else text "Infinity"

/-- How `json.dumps` spells characters and numbers. -/
def dumpsStyle (lib : Libraries) : Json.Style where
  escape := Json.escapeAscii
  int := dumpsInt
  float := fun bits ↦ some (dumpsFloat lib bits)

/-- `json.dumps(value, separators=(",", ":"), sort_keys=True)`. -/
def jsonDumps (lib : Libraries) (v : Value) : Except Exn Text :=
  orRaise (Json.write (dumpsStyle lib) (Json.sortKeys (fun a b ↦ a ≤ b) v))
    (.value "value is not JSON serializable")

/-- `_mcp_result`. -/
def mcpResult (lib : Libraries) (v : Value) (isError : Bool) : Except Exn CallToolResult := do
  let encoded ← jsonDumps lib v
  return ⟨encoded, v, isError⟩

/-- The members of an issued challenge that the tool returns. -/
def ResourceChallenge.toDict (c : ResourceChallenge) : Value :=
  .dict [(text "token", .str c.token), (text "credential_id", .str c.credentialId),
    (text "method", .str c.method), (text "arguments_digest", .str c.argumentsDigest),
    (text "record_id", .str c.recordId), (text "audience", .str c.audience),
    (text "expires_at", .int c.expiresAt)]

/-- `UnsignedPostInvocationState` as the boundary returns it. -/
def unsignedPostInvocationState (handlerCompleted : Bool) (invocationId : Nat) :
    Except Exn Value := do
  raiseIf (invocationId < 1) (.validation "invocation_id")
  return .dict [(text "schema_version", .str (text "atcap-unsigned-post-invocation/v1")),
    (text "error_code", .str (text "POST_INVOCATION_RECEIPT_UNAVAILABLE")),
    (text "receipt_status", .str (text "UNSIGNED")), (text "credential_spent", .bool true),
    (text "handler_invoked", .bool true), (text "handler_completed", .bool handlerCompleted),
    (text "invocation_id", .int invocationId)]

/-! ### Dispatch -/

namespace InventoryApplication

variable (lib : Libraries) (app : InventoryApplication) (i : Nat)

/-- The signed denial of a call that is not authenticated. -/
def denyTool (rawArguments : List (Text × Value)) : Py Unit CallToolResult := do
  let decision ← app.directLookupAttempt lib i rawArguments
  Body.ofExcept (mcpResult lib decision.toDict true)

/-- The `try` block of the challenge tool. -/
def challengeTool (rawArguments : List (Text × Value)) : Py Unit CallToolResult := do
  let request ← Body.ofExcept (ChallengeInput.modelValidate rawArguments)
  let challenge ← app.issueResourceChallenge lib request.credentialId
    request.toInventoryArguments request.recordId.val
  Body.ofExcept (mcpResult lib challenge.toDict false)

/-- `except (ValidationError, DecisionError)`. -/
def isDenied (e : Exn) : Bool :=
  match e with
  | .validation _ | .decision _ _ => true
  | _ => false

/-- What the lookup tool returns for a redemption. -/
def lookupResult (outcome : Except Exn Decision) : Except Exn CallToolResult :=
  match outcome with
  | .ok decision => mcpResult lib decision.toDict
      (!decision.allowed || decide (decision.reason = .HANDLER_FAILED))
  | .error (.postInvocation _ invocationId completed) => do
    let state ← unsignedPostInvocationState completed invocationId
    mcpResult lib state true
  | .error e => .error e

/-- `_call_tool`. -/
def callTool (name : Text) (arguments : Option (List (Text × Value))) :
    Py Unit CallToolResult :=
  let rawArguments := arguments.getD []
  if name = text "inventory.challenge" then do
    let (outcome, _) ← Body.attempt (app.challengeTool lib rawArguments) ()
    match outcome with
    | .ok result => return result
    | .error e => if isDenied e then app.denyTool lib i rawArguments else Body.raise e
  else if name = app.policy.method then
    match LookupInput.modelValidate rawArguments with
    | .error _ => app.denyTool lib i rawArguments
    | .ok request => do
      let (outcome, _) ← Body.attempt (app.redeem lib i request) ()
      Body.ofExcept (lookupResult lib outcome)
  else app.denyTool lib i rawArguments

end InventoryApplication
end Atcap
