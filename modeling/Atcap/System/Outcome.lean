import Atcap.Inventory.Outcome
import Atcap.System.Dispatch

/-!
# No denial after an invocation

How a redemption ends, as a call of the service and at the MCP boundary, for every reply of its
collaborators: once the invocation is counted, the answer reports it.
-/

namespace Atcap

open Base System InventoryApplication

/-! ### The unsigned state -/

/-- The members of the state that the boundary returns for an invocation without a receipt. -/
def unsignedMembers (completed : Bool) (n : Nat) : List (Text × Value) :=
  [(text "schema_version", .str (text "atcap-unsigned-post-invocation/v1")),
    (text "error_code", .str (text "POST_INVOCATION_RECEIPT_UNAVAILABLE")),
    (text "receipt_status", .str (text "UNSIGNED")), (text "credential_spent", .bool true),
    (text "handler_invoked", .bool true), (text "handler_completed", .bool completed),
    (text "invocation_id", .int n)]

/-- A positive invocation number passes the validation of the state. -/
theorem unsignedPostInvocationState_eq_ok {completed : Bool} {n : Nat} (h : 1 ≤ n) :
    unsignedPostInvocationState completed n = .ok (.dict (unsignedMembers completed n)) := by
  unfold unsignedPostInvocationState raiseIf
  rw [if_neg (by omega)]
  rfl

/-- The state can be written when the digits of its invocation number can. -/
theorem writable_unsigned (lib : Libraries) (completed : Bool) {n : Nat}
    (h : (decimalNat n).length ≤ maxStrDigits) :
    Json.writable (dumpsStyle lib) (.dict (unsignedMembers completed n)) = true := by
  have hint : (dumpsInt (n : Int)).isSome = true := by
    rw [dumpsInt, str?, Int.natAbs_natCast, if_pos h]
    rfl
  rw [Json.writable, Value.everywhere_dict]
  simp [unsignedMembers, Value.everywhere, dumpsStyle, hint]

/-- What the lookup tool returns for an invocation without a receipt. -/
theorem lookupResult_postInvocation (lib : Libraries) (message : String) (completed : Bool)
    {n : Nat} (hpos : 1 ≤ n) (hdigits : (decimalNat n).length ≤ maxStrDigits) :
    ∃ encoded, lookupResult lib (.error (.postInvocation message n completed)) =
      .ok ⟨encoded, .dict (unsignedMembers completed n), true⟩ := by
  rw [lookupResult, unsignedPostInvocationState_eq_ok hpos]
  exact exists_mcpResult (writable_unsigned lib completed hdigits) true

/-- The fields by which a decision is reported. -/
def decisionFields : List Text :=
  [text "allowed", text "decision", text "reason", text "receipt", text "receipt_jws",
    text "result"]

/-- The unsigned state has no field of a decision. -/
theorem lookup_unsignedMembers {field : Text} (h : field ∈ decisionFields) (completed : Bool)
    (n : Nat) : (unsignedMembers completed n).lookup field = none := by
  have hkeys : ∀ f ∈ decisionFields, ∀ k ∈ [text "schema_version", text "error_code",
      text "receipt_status", text "credential_spent", text "handler_invoked",
      text "handler_completed", text "invocation_id"], k ≠ f := by
    decide
  rw [List.lookup_eq_none_iff]
  intro p hp
  have hk : p.1 ∈ (unsignedMembers completed n).map Prod.fst := List.mem_map_of_mem hp
  simpa using (hkeys field h p.1 hk).symm

/-! ### The answer of a call -/

namespace Deployment

variable {D : Deployment} {c : Call} {i : Nat} {request : LookupInput}

/-- What a call that redeems answers for the outcome of its redemption. -/
def answerOf (D : Deployment) : Call → Except Exn Decision → Except Exn Answer
  | .callTool .., r => (lookupResult D.lib r).map Answer.tool
  | _, r => r.map Answer.decision

/-- A call that redeems runs `redeem` and answers for its outcome. -/
theorem path_redeem {h : History} {a : Except Exn Answer}
    (hr : D.redemption? c = some (i, request))
    (hpath : (D.system.body c).Path h (.done a)) :
    ∃ r, ((D.app i).redeem D.lib i request).prog.Path h (.done r) ∧ a = D.answerOf c r := by
  have hbody : D.system.body c = ((D.app i).redeem D.lib i request).prog.bind fun r ↦
      .done (D.answerOf c r) := by
    cases c with
    | newChallenge | issue | issueResourceChallenge | directLookupAttempt => cases hr
    | redeem j request' =>
      cases hr
      change Prog.bind (Prog.bind (((D.app i).redeem D.lib i request) ()) _) _ =
        Prog.bind (Prog.bind (((D.app i).redeem D.lib i request) ()) _) _
      simp only [Prog.bind_assoc]
      congr 1
      funext r
      obtain ⟨outcome, l⟩ := r
      cases outcome <;> rfl
    | callTool j name arguments =>
      obtain ⟨rfl, _⟩ := callTool_eq_redeem hr
      exact body_callTool hr
  rw [hbody] at hpath
  obtain ⟨p, hpath', heq⟩ := hpath.of_bind
  cases p with
  | call e k => cases heq
  | done r =>
    cases heq
    exact ⟨r, hpath', rfl⟩

/-- The numbers that a run gives to invocations are positive. -/
theorem recordInvocation_pos {w : World} {tr : D.Trace}
    {s : Config Op Op.Reply World Call (Except Exn Answer)} (h : D.system.Run w tr s) {t n : Nat}
    (hn : ⟨.recordInvocation i, n⟩ ∈ D.history t tr) : 1 ≤ n := by
  obtain ⟨x, hl⟩ := System.mem_own.mp hn
  obtain ⟨pre, post, he⟩ := List.append_of_mem hl
  have hreply : n = (D.system.after w pre).counter i + 1 := h.reply_eq he
  omega

/-- No denial after an invocation, for every reply of the clock, the signer, the packages, the store
and the handler. A redemption that counted its invocation returns the validated result, returns the
closed failure object, or raises `PostInvocationError` with the flag that tells whether the
handler's value was valid; one that counted none is not allowed, and raises such an error only when
the clock, the signer or the canonicaliser itself did. The lookup tool turns the error into the
unsigned state under the same number and flag; the numbers of a run are positive. -/
theorem no_denial_after_invocation {h : History} {a : Except Exn Answer}
    (hr : D.redemption? c = some (i, request))
    (hpath : (D.system.body c).Path h (.done a)) :
    ∃ r, a = D.answerOf c r ∧
    (∀ n, ⟨.recordInvocation i, n⟩ ∈ h →
      ∃ reply, ⟨.inventoryLookup i request.sku.val, reply⟩ ∈ h ∧ Ended n reply r) ∧
    ((∀ n, ⟨.recordInvocation i, n⟩ ∉ h) →
      (∀ d, r = .ok d → d.allowed = false) ∧
      ∀ message n completed, r = .error (.postInvocation message n completed) →
        Leaked D.lib (D.app i) request h (.postInvocation message n completed)) ∧
    (∀ message n completed, r = .error (.postInvocation message n completed) → 1 ≤ n →
      (decimalNat n).length ≤ maxStrDigits → ∀ j name arguments, c = .callTool j name arguments →
      ∃ encoded, a = .ok (.tool ⟨encoded, .dict (unsignedMembers completed n), true⟩) ∧
        ∀ field ∈ decisionFields, (unsignedMembers completed n).lookup field = none) ∧
    (∀ w tr s t, D.system.Run w tr s → D.history t tr = h →
      ∀ n, ⟨.recordInvocation i, n⟩ ∈ h → 1 ≤ n) := by
  obtain ⟨r, hredeem, ha⟩ := path_redeem hr hpath
  have hsat : ((D.app i).redeem D.lib i request).prog.Sat (fun _ _ ↦ True) _ _ [] :=
    Body.sat_prog.mpr redeem_ended
  have hended := hsat.path hredeem fun _ _ _ _ ↦ trivial
  refine ⟨r, ha, ?_, ?_, ?_, ?_⟩
  · intro n hn
    obtain ⟨hnone, _⟩ | ⟨m, reply, hcounted, hlookup, hends⟩ := hended
    · exact absurd hn (hnone n)
    · obtain rfl := (hcounted n).mp hn
      exact ⟨reply, hlookup, hends⟩
  · intro hnone
    obtain ⟨_, hdenied, hraised⟩ | ⟨m, _, hcounted, _⟩ := hended
    · refine ⟨hdenied, ?_⟩
      intro message n completed he
      obtain hleaked | ⟨_, hvalidation⟩ := hraised _ he
      · exact hleaked
      · cases hvalidation
    · exact absurd ((hcounted m).mpr rfl) (hnone m)
  · rintro message n completed rfl hpos hdigits j name arguments rfl
    obtain ⟨encoded, hencoded⟩ := lookupResult_postInvocation D.lib message completed hpos hdigits
    refine ⟨encoded, ?_, fun field hf ↦ lookup_unsignedMembers hf completed n⟩
    rw [ha, answerOf, hencoded]
    rfl
  · rintro w tr s t hrun rfl n hn
    exact recordInvocation_pos hrun hn

end Deployment

namespace Demo

/-- A scenario in which the signer raises. -/
def unsignable (x : Scenario) (e : Exn) : (op : Op) → op.Input
  | .sign .. => some e
  | op => x.input op

/-- The shared state after a challenge is issued. -/
def challenged : World :=
  let x := (scenario 1000 1).input
  Prog.stateAfter (deployment.system.execWith x) .initial
    (deployment.system.solo x .initial
      (.issueResourceChallenge 0 credentialId arguments recordId.val)).1

/-- A lookup as a tool call, with the challenge that was issued. -/
def lookupCall : Call :=
  .callTool 0 (text "inventory.lookup") (some [(text "sku", .str (text "w")),
    (text "credential", .dict credential),
    (text "holder_proof", .dict (lookupInput 1000 1).holderProof),
    (text "record_id", .str (text "r"))])

/-- The numbers of the invocations of an instance among the events of a call. -/
def numbers (i : Nat) (h : History) : List Nat :=
  h.filterMap fun ev ↦ match ev with
    | ⟨.recordInvocation j, n⟩ => if j = i then some n else none
    | _ => none

/-- An invocation is listed under its number. -/
theorem mem_numbers {i n : Nat} {h : History} :
    n ∈ numbers i h ↔ ⟨.recordInvocation i, n⟩ ∈ h := by
  constructor
  · intro hn
    obtain ⟨ev, hev, he⟩ := List.mem_filterMap.mp hn
    split at he
    · split at he
      · next hj =>
        cases he
        rw [← hj]
        exact hev
      · cases he
    · cases he
  · intro hn
    exact List.mem_filterMap.mpr ⟨_, hn, if_pos rfl⟩

/-- Whether a call raised `PostInvocationError`. -/
def isPostInvocation : Except Exn Answer → Bool
  | .error (.postInvocation ..) => true
  | _ => false

end Demo

set_option maxRecDepth 100000 in
/-- A signer that raises `PostInvocationError` itself, for the receipt of a denial. -/
theorem Demo.postInvocation_of_signer : ∃ h a,
    (Demo.deployment.system.body
      (.redeem 0 { Demo.lookupInput 1000 1 with credential := [] })).Path h (.done a) ∧
    (∀ n, ⟨.recordInvocation 0, n⟩ ∉ h) ∧
    ∃ message n completed, a = .error (.postInvocation message n completed) := by
  let run := Demo.deployment.system.solo
    (Demo.unsignable (Demo.scenario 1001 2) (.postInvocation "signer" 1 true)) .initial
    (.redeem 0 { Demo.lookupInput 1000 1 with credential := [] })
  obtain ⟨hnumbers, hanswer⟩ : Demo.numbers 0 run.1 = [] ∧
      Demo.isPostInvocation run.2 = true := by decide +kernel
  refine ⟨run.1, run.2, Prog.path_solo _ _ _, ?_, ?_⟩
  · intro n hn
    rw [← Demo.mem_numbers, hnumbers] at hn
    cases hn
  · unfold Demo.isPostInvocation at hanswer
    split at hanswer
    · next message n completed he => exact ⟨message, n, completed, he⟩
    · cases hanswer

set_option maxRecDepth 100000 in
/-- The law at a lookup that was invoked and whose receipt could not be signed. -/
theorem Deployment.no_denial_after_invocation_lookup : ∃ h a r reply,
    (Demo.deployment.system.body Demo.lookupCall).Path h (.done a) ∧
    ⟨.recordInvocation 0, 1⟩ ∈ h ∧ a = Demo.deployment.answerOf Demo.lookupCall r ∧
    ⟨.inventoryLookup 0 (text "w"), reply⟩ ∈ h ∧ Ended 1 reply r := by
  let run := Demo.deployment.system.solo
    (Demo.unsignable (Demo.scenario 1001 2) .other) Demo.challenged Demo.lookupCall
  have hnumbers : Demo.numbers 0 run.1 = [1] := by decide +kernel
  have hpath : (Demo.deployment.system.body Demo.lookupCall).Path run.1 (.done run.2) :=
    Prog.path_solo _ _ _
  have hcounted : ⟨.recordInvocation 0, 1⟩ ∈ run.1 := by
    rw [← Demo.mem_numbers, hnumbers]
    exact List.mem_singleton_self 1
  have hr : Demo.deployment.redemption? Demo.lookupCall = some (0, Demo.lookupInput 1000 1) := rfl
  obtain ⟨r, ha, hended, _⟩ := no_denial_after_invocation hr hpath
  obtain ⟨reply, hreply, hends⟩ := hended 1 hcounted
  exact ⟨run.1, run.2, r, reply, hpath, hcounted, ha, hreply, hends⟩

end Atcap
