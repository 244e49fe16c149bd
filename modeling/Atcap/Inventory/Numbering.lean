import Atcap.Inventory.Spec

/-!
# The number of an invocation

A redemption takes its invocation number once, right before it enters the handler, and
everything it reports afterwards carries that number: its result, its receipt, and the exception
it raises when no receipt could be signed.
-/

namespace Atcap

open Base

/-- The operations of the `try` block of `redeem`. -/
def Op.isDeciding : Op → Bool
  | .clock | .lib _ | .getResourceChallenge _ | .spend _ => true
  | _ => false

/-- Entering the handler is an operation of an invocation. -/
theorem Op.not_entersHandler {e : Op} (he : e.isInvocation = false) : e.entersHandler = false := by
  cases e with
  | inventoryLookup => cases he
  | clock | tokenHex | lib | sign | storeBrokerChallenge | consumeBrokerChallenge
  | storeResourceChallenge | getResourceChallenge | spend | recordInvocation
  | invocationCount => rfl

/-- The invocation number that a call has taken. -/
def numberOf (h : History) : Option Nat :=
  h.findSome? fun ev ↦ match ev with
    | ⟨.recordInvocation _, n⟩ => some n
    | _ => none

/-- Whether the last operation of a call took its number. -/
def justNumbered (h : History) : Bool :=
  match h.getLast? with
  | some ⟨.recordInvocation _, _⟩ => true
  | _ => false

/-- A call that did anything else last has not just taken a number. -/
theorem not_justNumbered_snoc {h : History} {e : Op} {r : e.Reply} (he : e.isInvocation = false) :
    justNumbered (h ++ [⟨e, r⟩]) = false := by
  rw [justNumbered, List.getLast?_concat]
  cases e with
  | recordInvocation => cases he
  | clock | tokenHex | lib | sign | storeBrokerChallenge | consumeBrokerChallenge
  | storeResourceChallenge | getResourceChallenge | spend | invocationCount
  | inventoryLookup => rfl

/-- A call that only did other things has not just taken a number. -/
theorem not_justNumbered {h : History} (hh : ∀ ev ∈ h, ev.op.isInvocation = false) :
    justNumbered h = false := by
  rcases List.eq_nil_or_concat h with rfl | ⟨q, ev, rfl⟩
  · rfl
  · rw [List.concat_eq_append] at hh ⊢
    exact not_justNumbered_snoc (hh ev (by simp))

/-- Only the counter gives numbers. -/
theorem numberOf_append {h q : History} (hq : ∀ ev ∈ q, ev.op.isInvocation = false) :
    numberOf (h ++ q) = numberOf h := by
  have hnone : numberOf q = none := by
    rw [numberOf, List.findSome?_eq_none_iff]
    intro ev hev
    have he := hq ev hev
    rcases ev with ⟨e, r⟩
    cases e with
    | recordInvocation j => cases he
    | clock | tokenHex | lib | sign | storeBrokerChallenge | consumeBrokerChallenge
    | storeResourceChallenge | getResourceChallenge | spend | invocationCount
    | inventoryLookup => rfl
  rw [numberOf, List.findSome?_append]
  change (numberOf h).or (numberOf q) = numberOf h
  rw [hnone, Option.or_none]

/-- A number that was taken is in the history. -/
theorem mem_of_numberOf {h : History} {n : Nat} (hn : numberOf h = some n) :
    ∃ i, (⟨.recordInvocation i, n⟩ : Event Op Op.Reply) ∈ h := by
  obtain ⟨⟨e, r⟩, hev, he⟩ := List.exists_of_findSome?_eq_some hn
  cases e with
  | recordInvocation i =>
    cases he
    exact ⟨i, hev⟩
  | clock | tokenHex | lib | sign | storeBrokerChallenge | consumeBrokerChallenge
  | storeResourceChallenge | getResourceChallenge | spend | invocationCount
  | inventoryLookup => cases he

namespace InventoryApplication

/-- What `redeem` guarantees of numbers: it takes one number and signs with the number it took and
the counter as it read it last. -/
def numberUse (i : Nat) (h : History) : Op → Prop
  | .recordInvocation j => j = i ∧ numberOf h = none
  | .inventoryLookup j _ => j = i
  | .sign _ payload => ∃ (h₀ : History) (m : Nat), h = h₀ ++ [⟨.invocationCount i, m⟩] ∧
      payload.handlerCountSnapshot = m ∧ payload.invocationId = (numberOf h).map Int.ofNat
  | .invocationCount j => j = i
  | _ => True

/-- What `redeem` guarantees of numbers; right after it took one, it enters the handler. -/
def numberingGuarantee (i : Nat) (h : History) (e : Op) : Prop :=
  numberUse i h e ∧ (justNumbered h = true → e.entersHandler = true)

/-- What the outcome of a redemption tells of its number. -/
def Numbered (h : History) (r : Except Exn Decision) : Prop :=
  match numberOf h with
  | some n => (∃ ev ∈ h, ev.op.entersHandler = true) ∧
      ((∃ d members, r = .ok d ∧ d.allowed = true ∧ d.result = some (.dict members) ∧
          members.lookup (text "invocation_number") = some (.int n)) ∨
        ∃ message completed, r = .error (.postInvocation message n completed))
  | none => (∀ ev ∈ h, ev.op.entersHandler = false) ∧
      ∀ d, r = .ok d → d.allowed = false ∧ d.result = none

variable {lib : Libraries} {app : InventoryApplication} {i : Nat} {request : LookupInput}
  {A : History → Event Op Op.Reply → Prop} {h : History} {l : RedeemLocals}

/-- The `try` block of `redeem` asks and spends, and does nothing else. -/
theorem authorize_deciding (digest : Text) :
    (app.authorize lib request digest).Issues (fun e ↦ e.isDeciding = true) := by
  let P : Op → Prop := fun e ↦ e.isDeciding = true
  have hclock : ∀ {L : Type}, Body.Issues P (readClock : Py L Int) :=
    issues_readClock (show P .clock from rfl)
  have hlib : ∀ {L : Type} (c : LibCall) f, Body.Issues P (callLibExcept c f : Py L c.Result) :=
    fun c f ↦ issues_callLibExcept (show P (.lib c) from rfl) f
  have hinvoke : ∀ {L α : Type} (e : Op) (f : e.Reply → Except Exn α), P e →
      Body.Issues P (Body.invoke e f : Py L α) := fun e f he ↦ .invoke he f
  have hcredential : Body.Issues P (app.presentCredential request) :=
    .bind (hlib _ _) fun _ ↦ .bind (.assign _) fun _ ↦ .bind (.raiseIf _ _) fun _ ↦
      .bind (.ofExcept _) fun _ ↦ .bind (.raiseIf _ _) fun _ ↦ .bind (hinvoke _ _ rfl) fun _ ↦
        .bind (hlib _ _) fun _ ↦ .bind (.raiseIf _ _) fun _ ↦ .pure _
  have hchallenge : ∀ c, Body.Issues P (app.presentChallenge request digest c) := fun c ↦
    .bind (hlib _ _) fun _ ↦ .bind (.ofExcept _) fun _ ↦ .bind (.assign _) fun _ ↦
      .bind (hinvoke _ _ rfl) fun _ ↦ .bind (.ofExcept _) fun _ ↦ .bind (.raiseIf _ _) fun _ ↦
        .bind (.raiseIf _ _) fun _ ↦ .bind hclock fun _ ↦ .bind (.raiseIf _ _) fun _ ↦ .pure _
  have hholder : ∀ c proof, Body.Issues P (app.proveHolder lib request c proof) :=
    fun c proof ↦ .bind (.ofExcept _) fun _ ↦ hlib _ _
  have hspend : ∀ c nb na tokenHash,
      Body.Issues P (app.spendCredential request digest c nb na tokenHash) :=
    fun c nb na tokenHash ↦ .bind (hinvoke _ _ rfl) fun _ ↦ .bind (.raiseIf _ _) fun _ ↦ .pure _
  have hcheck : ∀ nb na spend, Body.Issues P (preHandlerCheck nb na spend) :=
    fun nb na spend ↦ .bind hclock fun _ ↦ .bind (.raiseIf _ _) fun _ ↦ .raiseIf _ _
  exact .bind hcredential fun _ ↦ .bind (hchallenge _) fun _ ↦ .bind (hholder _ _) fun _ ↦
    .bind (hspend _ _ _ _) fun _ ↦ hcheck _ _ _

/-- Deciding takes no number. -/
theorem authorize_numbering {digest : Text} :
    Body.Sat A (numberingGuarantee i)
      (fun h' _ _ ↦ ∀ ev ∈ h', ev.op.isInvocation = false)
      (app.authorize lib request digest) [] l := by
  have hinvocation : ∀ {e : Op}, e.isDeciding = true → e.isInvocation = false := by
    intro e he
    cases e with
    | clock | lib | getResourceChallenge | spend => rfl
    | tokenHex | sign | storeBrokerChallenge | consumeBrokerChallenge | storeResourceChallenge
    | recordInvocation | invocationCount | inventoryLookup => cases he
  apply ((authorize_deciding digest A [] l).collect.mono _).weaken
  · rintro h e ⟨he, q, rfl, hall⟩
    constructor
    · cases e with
      | clock | lib | getResourceChallenge | spend => trivial
      | tokenHex | sign | storeBrokerChallenge | consumeBrokerChallenge | storeResourceChallenge
      | recordInvocation | invocationCount | inventoryLookup => cases he
    · intro hjust
      rw [not_justNumbered fun ev hev ↦ hinvocation (hall ev hev)] at hjust
      cases hjust
  · rintro h' r l' ⟨-, q, rfl, hall⟩ ev hev
    exact hinvocation (hall ev hev)

/-- `_receipt` signs with the counter as it read it last, and takes no number. -/
theorem receipt_numbering {a : ReceiptArgs} (ha : a.invocationId = numberOf h)
    (hj : justNumbered h = false) :
    Body.Sat A (numberingGuarantee i)
      (fun h' _ _ ↦ Prog.ExtendedBy (fun e ↦ e.isInvocation = false) h h')
      (app.receipt lib i a) h () := by
  have hnot : ∀ {h : History} {e : Op}, justNumbered h = false →
      (justNumbered h = true → e.entersHandler = true) := by
    intro h e hf ht
    rw [hf] at ht
    cases ht
  unfold receipt readClock
  apply Body.Sat.perform ⟨trivial, hnot hj⟩
  intro receiptId _
  apply Body.Sat.invoke ⟨trivial, hnot (not_justNumbered_snoc rfl)⟩
  · intro r x _ _
    refine ⟨_, List.append_assoc _ _ _, ?_⟩
    simp [Op.isInvocation]
  rintro r decidedAt _ rfl
  apply Body.Sat.perform ⟨rfl, hnot (not_justNumbered_snoc rfl)⟩
  intro snapshot _
  have hsplit : Prog.ExtendedBy (fun e ↦ e.isInvocation = false) h
      (h ++ [⟨.tokenHex 16, receiptId⟩] ++ [⟨.clock, .ok decidedAt⟩] ++
        [⟨.invocationCount i, snapshot⟩]) := by
    refine ⟨_, (List.append_assoc _ _ _).trans (List.append_assoc _ _ _), ?_⟩
    simp [Op.isInvocation]
  apply Body.Sat.ofExcept
  · intro x _
    exact hsplit
  intro digest _
  apply Body.Sat.ofExcept
  · intro x _
    exact hsplit
  intro payload hpayload
  obtain ⟨q, hq, hall⟩ := hsplit
  rw [Body.sat_invoke]
  refine ⟨⟨⟨_, snapshot, rfl, ?_, ?_⟩, hnot (not_justNumbered_snoc rfl)⟩, fun r _ ↦ ?_⟩
  · rw [DecisionReceiptPayload.construct_eq_ok hpayload]
    rfl
  · rw [DecisionReceiptPayload.construct_eq_ok hpayload, hq, numberOf_append hall, ← ha]
    rfl
  · rw [hq]
    refine ⟨_, List.append_assoc _ _ _, ?_⟩
    intro ev hev
    rcases List.mem_append.mp hev with hev | hev
    · exact hall ev hev
    · obtain rfl := List.mem_singleton.mp hev
      rfl

/-- A validated handler result carries the number it was given. -/
theorem invocationNumber_of_modelValidate {raw : List (Text × Value)} {n : Nat}
    {result : InventoryLookupResult}
    (hr : InventoryLookupResult.modelValidate
      (Value.setMember raw (text "invocation_number") (.int n)) = .ok result) :
    result.invocationNumber = n := by
  simp only [InventoryLookupResult.modelValidate, bind_eq_ok, Value.lookup_setMember_self] at hr
  obtain ⟨-, -, sku, -, hr⟩ := hr
  split at hr
  · next quantity number hquantity hnumber =>
    cases hnumber
    split at hr
    · cases hr
      rfl
    · cases hr
  · cases hr

/-- The receipt of an invocation, or the exception in its place, carries the number. -/
theorem invocationReceipt_numbering {digest : Text} {locals : RedeemLocals} {n : Nat}
    {completed : Bool} (hn : numberOf h = some n) (hj : justNumbered h = false) :
    Body.Sat A (numberingGuarantee i) (fun h' r _ ↦
      Prog.ExtendedBy (fun e ↦ e.isInvocation = false) h h' ∧
      ∀ e, r = .error e → ∃ message completed, e = .postInvocation message n completed)
      (app.invocationReceipt lib i request digest locals n completed) h () := by
  have hargs : (invocationArgs request digest locals n completed).invocationId = numberOf h :=
    hn.symm
  unfold invocationReceipt
  apply Body.Sat.attempt (receipt_numbering hargs hj)
  intro h' outcome _ _ hsplit
  rw [Body.sat_ofExcept]
  refine ⟨hsplit, ?_⟩
  intro e he
  cases outcome with
  | ok receipt => cases he
  | error x =>
    cases he
    exact ⟨_, _, rfl⟩

/-- A call that has just taken its number enters the handler, keeps the number and validates its
result with it. -/
theorem runHandler_numbering {n : Nat} (hn : numberOf h = none) :
    Body.Sat A (numberingGuarantee i) (fun h' r _ ↦ numberOf h' = some n ∧
      justNumbered h' = false ∧ (∃ ev ∈ h', ev.op.entersHandler = true) ∧
      ∀ result, r = .ok result → result.invocationNumber = (n : Int))
      (runHandler i request.toInventoryArguments n) (h ++ [⟨.recordInvocation i, n⟩]) () := by
  have hnumber : ∀ r, numberOf (h ++ [⟨.recordInvocation i, n⟩] ++
      [⟨.inventoryLookup i request.sku.val, r⟩]) = some n := by
    intro r
    unfold numberOf at hn ⊢
    rw [List.findSome?_append, List.findSome?_append, hn]
    rfl
  have henters : ∀ r, ∃ ev ∈ h ++ [⟨.recordInvocation i, n⟩] ++
      [⟨.inventoryLookup i request.sku.val, r⟩], ev.op.entersHandler = true := fun r ↦
    ⟨_, List.mem_append_right _ (List.mem_singleton_self _), rfl⟩
  have hjust : ∀ r, justNumbered (h ++ [⟨.recordInvocation i, n⟩] ++
      [⟨.inventoryLookup i request.sku.val, r⟩]) = false := by
    intro r
    rw [justNumbered, List.getLast?_concat]
  unfold runHandler
  apply Body.Sat.invoke ⟨rfl, fun _ ↦ rfl⟩
  · intro r x _ _
    exact ⟨hnumber r, hjust r, henters r, nofun⟩
  intro r raw _ _
  rw [Body.sat_ofExcept]
  exact ⟨hnumber r, hjust r, henters r, fun result hr ↦ invocationNumber_of_modelValidate hr⟩

/-- After its number a call enters the handler and reports that number. -/
theorem invokeHandler_numbering {digest : Text} {locals : RedeemLocals}
    (hh : ∀ ev ∈ h, ev.op.isInvocation = false) :
    Body.Sat A (numberingGuarantee i) (fun h' r _ ↦ Numbered h' r)
      (app.invokeHandler lib i request digest locals) h () := by
  have hn : numberOf h = none := numberOf_append (h := []) hh
  unfold invokeHandler
  apply Body.Sat.perform
  · refine ⟨⟨rfl, hn⟩, ?_⟩
    intro hjust
    rw [not_justNumbered hh] at hjust
    cases hjust
  intro (n : Nat) _
  apply Body.Sat.attempt (runHandler_numbering hn)
  rintro h' outcome _ _ ⟨hnumber, hjust, ⟨ev, hev, henters⟩, hresult⟩
  have hend : ∀ {q : History} {r : Except Exn Decision}, (∀ ev ∈ q, ev.op.isInvocation = false) →
      ((∃ d members, r = .ok d ∧ d.allowed = true ∧ d.result = some (.dict members) ∧
          members.lookup (text "invocation_number") = some (.int n)) ∨
        ∃ message completed, r = .error (.postInvocation message n completed)) →
      Numbered (h' ++ q) r := by
    intro q r hq hr
    unfold Numbered
    rw [numberOf_append hq, hnumber]
    exact ⟨⟨ev, List.mem_append_left _ hev, henters⟩, hr⟩
  cases outcome with
  | error e =>
    apply Body.Sat.bind (invocationReceipt_numbering hnumber hjust)
    · rintro h'' x _ _ ⟨⟨q, rfl, hq⟩, hx⟩
      obtain ⟨message, completed, rfl⟩ := hx x rfl
      exact hend hq (.inr ⟨message, completed, rfl⟩)
    · rintro h'' receipt _ _ ⟨⟨q, rfl, hq⟩, -⟩
      exact hend hq (.inl ⟨_, _, rfl, rfl, rfl, rfl⟩)
  | ok result =>
    apply Body.Sat.bind (invocationReceipt_numbering hnumber hjust)
    · rintro h'' x _ _ ⟨⟨q, rfl, hq⟩, hx⟩
      obtain ⟨message, completed, rfl⟩ := hx x rfl
      exact hend hq (.inr ⟨message, completed, rfl⟩)
    · rintro h'' receipt _ _ ⟨⟨q, rfl, hq⟩, -⟩
      refine hend hq (.inl ⟨_, _, rfl, rfl, rfl, ?_⟩)
      rw [hresult result rfl]
      rfl

/-- Every operation and the outcome of `redeem` go with its own number. -/
theorem redeem_numbering :
    Body.Sat A (numberingGuarantee i) (fun h' r _ ↦ Numbered h' r) (app.redeem lib i request)
      [] () := by
  unfold redeem
  apply Body.Sat.ofExcept
  · intro x _
    exact ⟨List.forall_mem_nil _, nofun⟩
  intro digest _
  apply Body.Sat.attempt authorize_numbering
  intro h' outcome locals _ hnone
  cases outcome with
  | ok u => exact invokeHandler_numbering hnone
  | error e =>
    have hnumber : numberOf h' = none := numberOf_append (h := []) hnone
    have hend : ∀ {q : History} {r : Except Exn Decision},
        (∀ ev ∈ q, ev.op.isInvocation = false) →
        (∀ d, r = .ok d → d.allowed = false ∧ d.result = none) → Numbered (h' ++ q) r := by
      intro q r hq hr
      unfold Numbered
      rw [numberOf_append hq, hnumber]
      refine ⟨?_, hr⟩
      intro ev hev
      rcases List.mem_append.mp hev with hev | hev
      · exact Op.not_entersHandler (hnone ev hev)
      · exact Op.not_entersHandler (hq ev hev)
    have hargs : (denyArgs request digest e.denialReason locals).invocationId = numberOf h' :=
      hnumber.symm
    apply Body.Sat.bind (receipt_numbering hargs (not_justNumbered hnone))
    · rintro h'' x _ _ ⟨q, rfl, hq⟩
      exact hend hq nofun
    · rintro h'' receipt _ _ ⟨q, rfl, hq⟩
      apply hend hq
      rintro d ⟨⟩
      exact ⟨rfl, rfl⟩

/-! ### Where the counter is read -/

end InventoryApplication
end Atcap
