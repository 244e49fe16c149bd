import Atcap.Inventory.Receipts
import Atcap.Mcp

/-!
# What a tool call does and returns

Three things can come of a tool call that returns: the challenge it stored, the outcome of the
redemption it performed, or the signed denial of an unauthenticated call.
-/

namespace Atcap

open Base

/-- The context that an issued challenge names. -/
def ResourceChallenge.context (c : ResourceChallenge) : ChallengeContext :=
  ⟨c.credentialId, c.method, c.argumentsDigest, c.recordId, c.audience⟩

/-- An event that leaves the shared state as it is: a query, a signature, or a challenge that
could not be stored. -/
def inert : Event Op Op.Reply → Bool
  | ⟨.storeResourceChallenge .., .error _⟩ => true
  | ev => ev.op.isQuery || ev.op.isSign

/-- A query leaves the shared state as it is. -/
theorem inert_of_query {ev : Event Op Op.Reply} (h : ev.op.isQuery = true) : inert ev = true := by
  rcases ev with ⟨e, r⟩
  cases e with
  | clock | tokenHex | lib | getResourceChallenge | invocationCount => rfl
  | sign | storeBrokerChallenge | consumeBrokerChallenge | storeResourceChallenge | spend
  | recordInvocation | inventoryLookup => cases h

namespace InventoryApplication

/-- `mcpResult` returns its value under its flag. -/
theorem mcpResult_eq_ok {lib : Libraries} {v : Value} {isError : Bool} {result : CallToolResult}
    (h : mcpResult lib v isError = .ok result) :
    result.structuredContent = v ∧ result.isError = isError := by
  simp only [mcpResult, bind_eq_ok] at h
  obtain ⟨encoded, _, h⟩ := h
  cases h
  exact ⟨rfl, rfl⟩

/-- A value whose numbers `json.dumps` can spell is returned. -/
theorem exists_mcpResult {lib : Libraries} {v : Value}
    (h : Json.writable (dumpsStyle lib) v = true) (isError : Bool) :
    ∃ encoded, mcpResult lib v isError = .ok ⟨encoded, v, isError⟩ := by
  have hsorted : Json.writable (dumpsStyle lib) (Json.sortKeys (fun a b ↦ a ≤ b) v) = true := by
    rw [Json.writable, Json.everywhere_sortKeys _ (fun _ ↦ rfl)]
    exact h
  obtain ⟨encoded, hencoded⟩ := Json.exists_write hsorted
  exact ⟨encoded, by rw [mcpResult, jsonDumps, hencoded]; rfl⟩

/-- A positive invocation number passes the validation of the unsigned state. -/
theorem unsignedPostInvocationState_of_pos (completed : Bool) {n : Nat} (h : 1 ≤ n) :
    ∃ state, unsignedPostInvocationState completed n = .ok state := by
  unfold unsignedPostInvocationState raiseIf
  rw [if_neg (by omega)]
  exact ⟨_, rfl⟩

section Sat

variable {lib : Libraries} {app : InventoryApplication} {i : Nat}
  {A : History → Event Op Op.Reply → Prop} {h : History}

/-- What a denied tool call returns. -/
def Denied (result : CallToolResult) : Prop :=
  ∃ receipt, result.structuredContent =
    (⟨false, .UNAUTHENTICATED, receipt, none⟩ : Decision).toDict ∧ result.isError = true

/-- The denial of a tool call changes nothing shared and is unauthenticated. -/
theorem denyTool_denies {G : History → Op → Prop} (hquery : ∀ h e, e.isQuery = true → G h e)
    (hsign : ∀ h signer payload, G h (.sign signer payload)) {rawArguments : List (Text × Value)}
    (hh : ∀ ev ∈ h, inert ev = true) :
    Body.Sat A G (fun h' r _ ↦ ∀ result, r = .ok result →
      (∀ ev ∈ h', inert ev = true) ∧ Denied result)
      (app.denyTool lib i rawArguments) h () := by
  have hreceipt : ∀ a, Body.Sat A G (fun h' _ _ ↦ ∀ ev ∈ h', inert ev = true)
      (app.receipt lib i a) h () := by
    intro a
    have hissues : Body.Issues (fun e ↦ (e.isQuery || e.isSign) = true) (app.receipt lib i a) :=
      issues_receipt a
    apply ((hissues A h ()).collect.mono _).weaken
    · rintro h e ⟨he, _⟩
      cases e with
      | sign signer payload => exact hsign h signer payload
      | clock | tokenHex | lib | getResourceChallenge | invocationCount => exact hquery h _ rfl
      | storeBrokerChallenge | consumeBrokerChallenge | storeResourceChallenge | spend
      | recordInvocation | inventoryLookup => cases he
    · rintro h' r l' ⟨-, q, rfl, hq⟩ ev hev
      rcases List.mem_append.mp hev with hev | hev
      · exact hh ev hev
      · have he := hq ev hev
        rcases ev with ⟨e, r⟩
        cases e with
        | sign | clock | tokenHex | lib | getResourceChallenge | invocationCount => rfl
        | storeBrokerChallenge | consumeBrokerChallenge | storeResourceChallenge | spend
        | recordInvocation | inventoryLookup => cases he
  have hattempt : Body.Sat A G (fun h' r _ ↦ ∀ d, r = .ok d → (∀ ev ∈ h', inert ev = true) ∧
      ∃ receipt, d = ⟨false, .UNAUTHENTICATED, receipt, none⟩)
      (app.directLookupAttempt lib i rawArguments) h () := by
    unfold directLookupAttempt
    apply Body.Sat.ofExcept
    · intro x _
      exact nofun
    intro argumentsDigest _
    apply Body.Sat.bind (hreceipt _)
    · intro h' e l' _ _
      exact nofun
    · rintro h' receipt l' _ hall d ⟨⟩
      exact ⟨hall, receipt, rfl⟩
  unfold denyTool
  apply Body.Sat.bind hattempt
  · intro h' e l' _ _
    exact nofun
  · intro h' d l' _ hd
    obtain ⟨hall, receipt, rfl⟩ := hd d rfl
    rw [Body.sat_ofExcept]
    intro result hresult
    obtain ⟨hcontent, hflag⟩ := mcpResult_eq_ok hresult
    exact ⟨hall, receipt, hcontent, hflag⟩

/-- The step with which a challenge is stored, at the end of a quiet history. -/
def StoredLast (challenge : ResourceChallenge) (h : History) : Prop :=
  ∃ q tokenHash issuedAt, Quiet q ∧ challengeTokenHash challenge.token = .ok tokenHash ∧
    h = q ++ [⟨.storeResourceChallenge tokenHash challenge.context issuedAt challenge.expiresAt,
      .ok ()⟩]

/-- `issue_resource_challenge` stores the challenge it returns, or changes nothing shared. -/
theorem issueResourceChallenge_stores {G : History → Op → Prop} {credentialId recordId : Text}
    {arguments : InventoryArguments} (hquery : ∀ h e, e.isQuery = true → G h e)
    (hstore : ∀ h tokenHash digest issuedAt expiresAt, credentialId.isLowerHexOf 64 = true →
      G h (.storeResourceChallenge tokenHash (app.context credentialId digest recordId) issuedAt
        expiresAt)) :
    Body.Sat A G (fun h' r _ ↦
      (∀ e, r = .error e → ∀ ev ∈ h', inert ev = true) ∧
      ∀ challenge, r = .ok challenge → StoredLast challenge h' ∧
        credentialId.isLowerHexOf 64 = true ∧ ∃ digest,
          canonicalDigest lib arguments.modelDump = .ok digest ∧
          challenge.context = app.context credentialId digest recordId)
      (app.issueResourceChallenge lib credentialId arguments recordId) [] () := by
  have hraise : ∀ {h : History} {e : Exn}, Quiet h →
      (∀ e', (.error e : Except Exn ResourceChallenge) = .error e' → ∀ ev ∈ h, inert ev = true) ∧
      ∀ challenge, (.error e : Except Exn ResourceChallenge) = .ok challenge →
        StoredLast challenge h ∧ credentialId.isLowerHexOf 64 = true ∧ ∃ digest,
          canonicalDigest lib arguments.modelDump = .ok digest ∧
          challenge.context = app.context credentialId digest recordId := by
    intro h e hq
    exact ⟨fun _ _ ev hev ↦ inert_of_query (hq ev hev), nofun⟩
  unfold issueResourceChallenge readClock
  apply Body.Sat.raiseIf
  · intro _
    exact hraise quiet_nil
  intro hid
  have hhex : credentialId.isLowerHexOf 64 = true := by simpa using hid
  apply Body.Sat.invoke (hquery _ _ rfl)
  · intro r x _ _
    exact hraise (quiet_nil.snoc rfl)
  rintro r issuedAt _ rfl
  have hq₁ : Quiet ([] ++ [⟨.clock, .ok issuedAt⟩]) := quiet_nil.snoc rfl
  apply Body.Sat.bind (issueCa2aChallengeAt_sat hquery hq₁)
  · rintro h' e l' _ ⟨hq, _⟩
    exact hraise hq
  rintro h₁ ⟨token, expiresAt⟩ l₁ _ ⟨hq₂, _, _⟩
  apply Body.Sat.ofExcept
  · intro x _
    exact hraise hq₂
  intro argumentsDigest hdigest
  apply Body.Sat.ofExcept
  · intro x _
    exact hraise hq₂
  intro tokenHash hhash
  apply Body.Sat.invoke (hstore _ _ _ _ _ hhex)
  · rintro r x _ rfl
    refine ⟨fun _ _ ev hev ↦ ?_, nofun⟩
    rcases List.mem_append.mp hev with hev | hev
    · exact inert_of_query (hq₂ ev hev)
    · obtain rfl := List.mem_singleton.mp hev
      rfl
  · rintro r u _ rfl
    refine ⟨nofun, ?_⟩
    rintro challenge ⟨⟩
    exact ⟨⟨h₁, tokenHash, issuedAt, hq₂, hhash, rfl⟩, hhex, argumentsDigest, hdigest, rfl⟩

/-- What a tool call that issued a challenge has validated, done and returns. -/
structure Issued (rawArguments : List (Text × Value)) (h : History) (result : CallToolResult)
    (input : ChallengeInput) (challenge : ResourceChallenge) : Prop where
  validated : ChallengeInput.modelValidate rawArguments = .ok input
  identifier : input.credentialId.isLowerHexOf 64 = true
  stored : StoredLast challenge h
  credentialId : challenge.credentialId = input.credentialId
  recordId : challenge.recordId = input.recordId.val
  returned : result.structuredContent = challenge.toDict ∧ result.isError = false

/-- A challenge is stored only for arguments that validated, under the id they name. -/
def toolGuarantee (name : Text) (rawArguments : List (Text × Value)) (_ : History) : Op → Prop
  | .storeResourceChallenge _ context _ _ => name = text "inventory.challenge" ∧
      ∃ input, ChallengeInput.modelValidate rawArguments = .ok input ∧
        input.credentialId.isLowerHexOf 64 = true ∧ context.credentialId = input.credentialId
  | _ => True

/-- A query stores no challenge. -/
theorem toolGuarantee_query {name : Text} {rawArguments : List (Text × Value)} (h : History)
    (e : Op) (he : e.isQuery = true) : toolGuarantee name rawArguments h e := by
  cases e with
  | clock | tokenHex | lib | getResourceChallenge | invocationCount => trivial
  | sign | storeBrokerChallenge | consumeBrokerChallenge | storeResourceChallenge | spend
  | recordInvocation | inventoryLookup => cases he

/-- The challenge tool issues a challenge for validated arguments, or leaves the shared state as
it is for a denial. -/
theorem challengeTool_issues {name : Text} {rawArguments : List (Text × Value)}
    (hname : name = text "inventory.challenge") :
    Body.Sat A (toolGuarantee name rawArguments) (fun h' r _ ↦
      (∀ e, r = .error e → isDenied e = true → ∀ ev ∈ h', inert ev = true) ∧
      ∀ result, r = .ok result → ∃ input challenge, Issued rawArguments h' result input challenge)
      (app.challengeTool lib rawArguments) [] () := by
  unfold challengeTool
  apply Body.Sat.ofExcept
  · intro x _
    exact ⟨fun _ _ _ ↦ List.forall_mem_nil _, nofun⟩
  intro input hinput
  apply Body.Sat.bind (issueResourceChallenge_stores toolGuarantee_query ?_)
  · rintro h' e l' _ ⟨hinert, _⟩
    exact ⟨fun _ _ _ ↦ hinert e rfl, nofun⟩
  · rintro h' challenge l' _ ⟨_, hissued⟩
    obtain ⟨hstored, hhex, digest, _, hcontext⟩ := hissued challenge rfl
    have hid : challenge.credentialId = input.credentialId :=
      congrArg ChallengeContext.credentialId hcontext
    have hrecord : challenge.recordId = input.recordId.val :=
      congrArg ChallengeContext.recordId hcontext
    rw [Body.sat_ofExcept]
    refine ⟨fun e he hd ↦ ?_, fun result hresult ↦ ?_⟩
    · -- Encoding the result raises `ValueError`, which the tool does not catch.
      simp only [mcpResult, jsonDumps, bind_eq_error] at he
      rcases he with he | ⟨_, _, he⟩
      · unfold orRaise at he
        split at he
        · cases he
        · cases he
          cases hd
      · cases he
    · exact ⟨input, challenge, hinput, hhex, hstored, hid, hrecord, mcpResult_eq_ok hresult⟩
  · intro h tokenHash digest issuedAt expiresAt hhex
    exact ⟨hname, input, hinput, hhex, rfl⟩

/-- What comes of a tool call that returns, when it performs no redemption. -/
theorem callTool_outcome {name : Text} {arguments : Option (List (Text × Value))}
    (hmethod : ∀ request, name = app.policy.method → name ≠ text "inventory.challenge" →
      LookupInput.modelValidate (arguments.getD []) ≠ .ok request) :
    Body.Sat A (toolGuarantee name (arguments.getD [])) (fun h' r _ ↦ ∀ result, r = .ok result →
      (name = text "inventory.challenge" ∧ ∃ input challenge,
        Issued (arguments.getD []) h' result input challenge) ∨
      ((∀ ev ∈ h', inert ev = true) ∧ Denied result))
      (app.callTool lib i name arguments) [] () := by
  have hdeny : ∀ {h : History}, (∀ ev ∈ h, inert ev = true) →
      Body.Sat A (toolGuarantee name (arguments.getD [])) (fun h' r _ ↦ ∀ result, r = .ok result →
        (name = text "inventory.challenge" ∧ ∃ input challenge,
          Issued (arguments.getD []) h' result input challenge) ∨
        ((∀ ev ∈ h', inert ev = true) ∧ Denied result))
        (app.denyTool lib i (arguments.getD [])) h () := by
    intro h hh
    apply (denyTool_denies toolGuarantee_query (fun _ _ _ ↦ trivial) hh).mono
    intro h' r l' hpost result hresult
    exact .inr (hpost result hresult)
  unfold callTool
  dsimp only
  by_cases hname : name = text "inventory.challenge"
  · rw [if_pos hname]
    apply Body.Sat.attempt (challengeTool_issues hname)
    rintro h' outcome l' _ ⟨hinert, hissued⟩
    cases outcome with
    | ok result =>
      rintro result ⟨⟩
      exact .inl ⟨hname, hissued result rfl⟩
    | error e =>
      dsimp only
      split
      · next hd => exact hdeny (hinert e rfl hd)
      · exact nofun
  · rw [if_neg hname]
    by_cases hm : name = app.policy.method
    · rw [if_pos hm]
      cases hv : LookupInput.modelValidate (arguments.getD []) with
      | error e => exact hdeny (List.forall_mem_nil _)
      | ok request => exact absurd hv (hmethod request hm hname)
    · rw [if_neg hm]
      exact hdeny (List.forall_mem_nil _)

/-- An allowed redemption is `ALLOW`, or names the invocation whose handler failed. -/
theorem redeem_reasons {request : LookupInput} :
    Body.Sat A (fun _ _ ↦ True) (fun _ r _ ↦ ∀ d, r = .ok d → d.allowed = true →
      d.reason = .ALLOW ∨
        d.reason = .HANDLER_FAILED ∧ ∃ n, d.result = some (failedResult n))
      (app.redeem lib i request) [] () := by
  unfold redeem
  apply Body.Sat.ofExcept
  · intro x _
    exact nofun
  intro digest _
  apply Body.Sat.attempt (Body.sat_extends _ _ _)
  intro h' outcome locals _ _
  cases outcome with
  | error e =>
    dsimp only
    unfold denyRedemption
    apply Body.Sat.bind (Body.sat_extends _ _ _)
    · intro _ _ _ _ _
      exact nofun
    · rintro h'' receipt l'' _ _ d ⟨⟩
      exact nofun
  | ok u =>
    dsimp only
    unfold invokeHandler
    apply Body.Sat.perform trivial
    intro n _
    apply Body.Sat.attempt (Body.sat_extends _ _ _)
    intro h'' handled _ _ _
    cases handled with
    | error e =>
      apply Body.Sat.bind (Body.sat_extends _ _ _)
      · intro _ _ _ _ _
        exact nofun
      · rintro _ receipt _ _ _ d ⟨⟩ _
        exact .inr ⟨rfl, n, rfl⟩
    | ok result =>
      apply Body.Sat.bind (Body.sat_extends _ _ _)
      · intro _ _ _ _ _
        exact nofun
      · rintro _ receipt _ _ _ d ⟨⟩ _
        exact .inl rfl

/-- What the lookup tool returns is an error unless the redemption was allowed and completed. -/
theorem lookupResult_isError {outcome : Except Exn Decision} {result : CallToolResult}
    (h : lookupResult lib outcome = .ok result) :
    result.isError = false ↔
      ∃ d, outcome = .ok d ∧ d.allowed = true ∧ d.reason ≠ .HANDLER_FAILED := by
  unfold lookupResult at h
  split at h
  · next d =>
    obtain ⟨_, hflag⟩ := mcpResult_eq_ok h
    rw [hflag]
    cases hd : d.allowed with
    | false => simp [hd]
    | true => simp [hd]
  · next message n completed =>
    simp only [bind_eq_ok] at h
    obtain ⟨state, _, h⟩ := h
    rw [(mcpResult_eq_ok h).2]
    simp
  · cases h

end Sat
end InventoryApplication
end Atcap
