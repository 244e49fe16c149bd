import Atcap.System.Outcome
import Atcap.System.Redemptions

/-!
# What a lookup returns of the catalog

A redemption that enters the handler and whose receipt is signed answers with the quantity that the
constructor was given for the article, or with the closed failure object. The constructor takes an
empty catalog for a missing one, and there, for one article, the answer is another quantity.
-/

namespace Atcap

open Base System

namespace InventoryApplication

variable {lib : Libraries} {app : InventoryApplication} {i : Nat} {request : LookupInput}
  {A : History → Event Op Op.Reply → Prop} {h : History}

/-! ### The value of the handler -/

/-- `catalog.get(sku, 0)`. -/
def quantityIn (catalog : List (Text × Value)) (sku : Text) : Value :=
  (catalog.lookup sku).getD (.int 0)

/-- The catalog that the constructor was asked for: the built-in one when none is given. -/
def requestedCatalog (catalog : Option (List (Text × Value))) : List (Text × Value) :=
  catalog.getD defaultCatalog

/-- An application that is given an empty catalog has the built-in one, and any other the one it
is asked for. -/
theorem catalog_of_init {policy : ResourcePolicy} {secret : Bytes} {signer : ReceiptSigner}
    {catalog : Option (List (Text × Value))} (h : init policy secret signer catalog = .ok app) :
    (catalog = some [] → app.catalog = defaultCatalog) ∧
      (catalog ≠ some [] → app.catalog = requestedCatalog catalog) := by
  unfold init at h
  split at h
  · cases h
  split at h
  · cases h
  split at h
  · cases h
  cases h
  match catalog with
  | none => exact ⟨nofun, fun _ ↦ rfl⟩
  | some [] => exact ⟨fun _ ↦ rfl, fun hne ↦ absurd rfl hne⟩
  | some (entry :: rest) => exact ⟨nofun, fun _ ↦ rfl⟩

/-- The two catalogs disagree on the article of the built-in one only. -/
theorem quantityIn_default {sku : Text} (hsku : sku ≠ text "widget-42") :
    quantityIn defaultCatalog sku = quantityIn (requestedCatalog (some [])) sku := by
  have hbeq : (sku == text "widget-42") = false := beq_eq_false_iff_ne.mpr hsku
  simp [quantityIn, defaultCatalog, requestedCatalog, List.lookup_cons, hbeq]

/-- The quantity of a constructed application is the requested one, unless the catalog is empty
and the article is the one of the built-in catalog. -/
theorem quantity_of_init {policy : ResourcePolicy} {secret : Bytes} {signer : ReceiptSigner}
    {catalog : Option (List (Text × Value))} (h : init policy secret signer catalog = .ok app)
    {sku : Text} (hsku : ¬(catalog = some [] ∧ sku = text "widget-42")) :
    quantityIn app.catalog sku = quantityIn (requestedCatalog catalog) sku := by
  by_cases hempty : catalog = some []
  · have hne : sku ≠ text "widget-42" := fun hs ↦ hsku ⟨hempty, hs⟩
    rw [(catalog_of_init h).1 hempty, hempty]
    exact quantityIn_default hne
  · rw [(catalog_of_init h).2 hempty]

private theorem setMember_inventoryLookup (sku : Text) (n : Nat) :
    Value.setMember (app.inventoryLookup sku) (text "invocation_number") (.int n) =
      [(text "sku", .str sku), (text "quantity", quantityIn app.catalog sku),
        (text "invocation_number", .int n)] := rfl

private theorem validate_boundedText {max : Nat} (t : BoundedText max) :
    BoundedText.validate? max (.str t.val) = some t :=
  dif_pos ⟨t.nonempty, t.bounded, t.encodable⟩

private theorem handlerOutcome_inventoryLookup (sku : BoundedText 128) (n : Nat) :
    handlerOutcome n (.ok (app.inventoryLookup sku.val)) =
      match quantityIn app.catalog sku.val with
      | .int q => if h : 0 ≤ q ∧ (1 : Int) ≤ n then .ok ⟨sku, q, n, h.1, h.2⟩
        else .error (.validation "quantity or invocation_number is out of bounds")
      | _ => .error (.validation "quantity and invocation_number must be integers") := by
  have hclosed : ∀ v, closed [text "sku", text "quantity", text "invocation_number"]
      [(text "sku", .str sku.val), (text "quantity", v), (text "invocation_number", .int n)] =
        true := fun _ ↦ rfl
  have hsku : ∀ v, ([(text "sku", Value.str sku.val), (text "quantity", v),
      (text "invocation_number", .int n)].lookup (text "sku")).bind (BoundedText.validate? 128) =
        some sku := fun _ ↦ validate_boundedText sku
  have hquantity : ∀ v, [(text "sku", Value.str sku.val), (text "quantity", v),
      (text "invocation_number", .int n)].lookup (text "quantity") = some v := fun _ ↦ rfl
  have hnumber : ∀ v, [(text "sku", Value.str sku.val), (text "quantity", v),
      (text "invocation_number", .int n)].lookup (text "invocation_number") = some (.int n) :=
    fun _ ↦ rfl
  change InventoryLookupResult.modelValidate (Value.setMember (app.inventoryLookup sku.val)
    (text "invocation_number") (.int n)) = _
  rw [setMember_inventoryLookup]
  unfold InventoryLookupResult.modelValidate
  rw [hclosed, hsku, hquantity, hnumber]
  cases quantityIn app.catalog sku.val with
  | int q => rfl
  | none | bool | str | bytes | float | list | dict | object => rfl

/-- The result for a quantity. -/
def lookupMembers (sku : Text) (quantity : Int) (n : Nat) : Value :=
  .dict [(text "sku", .str sku), (text "quantity", .int quantity),
    (text "invocation_number", .int n)]

/-- The handler's value for a quantity that is not negative is valid. -/
theorem handlerOutcome_of_quantity {sku : BoundedText 128} {q : Int} {n : Nat}
    (hq : quantityIn app.catalog sku.val = .int q) (h0 : 0 ≤ q) (hn : 1 ≤ n) :
    ∃ result, handlerOutcome n (.ok (app.inventoryLookup sku.val)) = .ok result ∧
      result.modelDump = lookupMembers sku.val q n := by
  have hbounds : 0 ≤ q ∧ (1 : Int) ≤ n := ⟨h0, by omega⟩
  refine ⟨⟨sku, q, n, hbounds.1, hbounds.2⟩, ?_, rfl⟩
  rw [handlerOutcome_inventoryLookup, hq]
  exact dif_pos hbounds

/-- Any other quantity is not. -/
theorem handlerOutcome_of_not_quantity {sku : BoundedText 128} {n : Nat}
    (hq : ∀ q, 0 ≤ q → quantityIn app.catalog sku.val ≠ .int q) :
    ∃ e, handlerOutcome n (.ok (app.inventoryLookup sku.val)) = .error e := by
  rw [handlerOutcome_inventoryLookup]
  split
  · next q he =>
    have hnot : ¬(0 ≤ q ∧ (1 : Int) ≤ n) := fun hb ↦ hq q hb.1 he
    exact ⟨_, dif_neg hnot⟩
  · exact ⟨_, rfl⟩

/-! ### The receipt of the outcome -/

/-- A receipt was signed. -/
def HasReceipt (h : History) : Prop :=
  ∃ signer payload receipt, (⟨.sign signer payload, .ok receipt⟩ : Event Op Op.Reply) ∈ h

/-- A decision carries a receipt that was signed with the given arguments. -/
def ReceiptOf (app : InventoryApplication) (a : ReceiptArgs) (receipt : SignedDecisionReceipt)
    (h : History) : Prop :=
  ∃ payload receiptId decidedAt snapshot digest,
    ⟨.sign app.receiptSigner payload, .ok receipt⟩ ∈ h ∧
    payload.toReceiptFields = app.receiptFields a receiptId decidedAt snapshot digest

/-- `_receipt` returns what was signed, and raises when nothing was. -/
theorem receipt_signing {a : ReceiptArgs} (hh : ¬HasReceipt h) :
    Body.Sat A (fun _ _ ↦ True) (fun h' r _ ↦
      (∀ receipt, r = .ok receipt → app.ReceiptOf a receipt h') ∧
        ∀ e, r = .error e → ¬HasReceipt h') (app.receipt lib i a) h () := by
  have hquery : ∀ {h : History} (ev : Event Op Op.Reply), ¬HasReceipt h → ev.op.isSign = false →
      ¬HasReceipt (h ++ [ev]) := by
    rintro h ev hh hev ⟨signer, payload, receipt, hmem⟩
    rcases List.mem_append.mp hmem with hmem | hmem
    · exact hh ⟨signer, payload, receipt, hmem⟩
    · rw [List.mem_singleton] at hmem
      rw [← hmem] at hev
      cases hev
  unfold receipt readClock
  apply Body.Sat.perform trivial
  intro receiptId _
  have h₁ := hquery ⟨.tokenHex 16, receiptId⟩ hh rfl
  apply Body.Sat.invoke trivial
  · intro r x _ _
    exact ⟨nofun, fun _ _ ↦ hquery ⟨.clock, r⟩ h₁ rfl⟩
  intro r decidedAt _ _
  have h₂ := hquery ⟨.clock, r⟩ h₁ rfl
  apply Body.Sat.perform trivial
  intro snapshot _
  have h₃ := hquery ⟨.invocationCount i, snapshot⟩ h₂ rfl
  apply Body.Sat.ofExcept
  · intro x _
    exact ⟨nofun, fun _ _ ↦ h₃⟩
  intro digest _
  apply Body.Sat.ofExcept
  · intro x _
    exact ⟨nofun, fun _ _ ↦ h₃⟩
  intro payload hpayload
  rw [Body.sat_invoke]
  refine ⟨trivial, ?_⟩
  intro r _
  constructor
  · rintro receipt rfl
    exact ⟨payload, receiptId, decidedAt, snapshot, digest,
      List.mem_append_right _ (List.mem_singleton_self _),
      DecisionReceiptPayload.construct_eq_ok hpayload⟩
  · rintro e rfl ⟨signer, payload', receipt, hmem⟩
    rcases List.mem_append.mp hmem with hmem | hmem
    · exact h₃ ⟨signer, payload', receipt, hmem⟩
    · cases List.mem_singleton.mp hmem

/-- The receipt of an invocation is the one that was signed. -/
theorem invocationReceipt_signing {digest : Text} {locals : RedeemLocals} {n : Nat}
    {completed : Bool} (hh : ¬HasReceipt h) :
    Body.Sat A (fun _ _ ↦ True) (fun h' r _ ↦
      (∀ receipt, r = .ok receipt →
        app.ReceiptOf (invocationArgs request digest locals n completed) receipt h') ∧
        ∀ e, r = .error e → ¬HasReceipt h')
      (app.invocationReceipt lib i request digest locals n completed) h () := by
  unfold invocationReceipt
  apply Body.Sat.attempt (receipt_signing hh)
  rintro h' outcome _ _ ⟨hok, herror⟩
  rw [Body.sat_ofExcept]
  cases outcome with
  | ok receipt =>
    refine ⟨?_, nofun⟩
    rintro receipt' ⟨⟩
    exact hok receipt rfl
  | error x => exact ⟨nofun, fun _ _ ↦ herror x rfl⟩

/-- An allowed decision carries the receipt of its invocation, and a call that is counted and
raises signed none. -/
def SignedOutcome (app : InventoryApplication) (request : LookupInput) (n : Nat) (h : History)
    (r : Except Exn Decision) : Prop :=
  (∀ d, r = .ok d → ∃ digest locals,
    app.ReceiptOf (invocationArgs request digest locals n (decide (d.reason = .ALLOW)))
      d.receipt h) ∧
  ∀ e, r = .error e → ¬HasReceipt h

private theorem not_hasReceipt_of_unserved (hu : Unserved h) : ¬HasReceipt h := by
  rintro ⟨signer, payload, receipt, hmem⟩
  cases hu _ hmem

/-- The part of `redeem` after its `try` block returns the receipt it signed. -/
theorem invokeHandler_signing {digest : Text} {locals : RedeemLocals} (hu : Unserved h) :
    Body.Sat A (fun _ _ ↦ True) (fun h' r _ ↦
      ∃ n, ⟨.recordInvocation i, n⟩ ∈ h' ∧ app.SignedOutcome request n h' r)
      (app.invokeHandler lib i request digest locals) h () := by
  unfold invokeHandler
  apply Body.Sat.perform trivial
  intro n _
  have hrun : Body.Sat A (fun _ _ ↦ True) (fun h' _ _ ↦ ∃ reply, h' = h ++
      [⟨.recordInvocation i, n⟩, ⟨.inventoryLookup i request.sku.val, reply⟩])
      (runHandler i request.toInventoryArguments n) (h ++ [⟨.recordInvocation i, n⟩]) () := by
    unfold runHandler
    apply Body.Sat.invoke trivial
    · intro r _ _ _
      exact ⟨r, by simp⟩
    intro r rawResult _ _
    rw [Body.sat_ofExcept]
    exact ⟨r, by simp⟩
  apply Body.Sat.attempt hrun
  rintro _ outcome _ _ ⟨reply, rfl⟩
  have hnone : ¬HasReceipt (h ++
      [⟨.recordInvocation i, n⟩, ⟨.inventoryLookup i request.sku.val, reply⟩]) := by
    rintro ⟨signer, payload, receipt, hmem⟩
    rcases List.mem_append.mp hmem with hmem | hmem
    · exact not_hasReceipt_of_unserved hu ⟨signer, payload, receipt, hmem⟩
    · simp at hmem
  have hcounted : ∀ q, ⟨.recordInvocation i, n⟩ ∈ h ++
      [⟨.recordInvocation i, n⟩, ⟨.inventoryLookup i request.sku.val, reply⟩] ++ q := by
    intro q
    simp
  cases outcome with
  | error x =>
    apply Body.Sat.bind (invocationReceipt_signing hnone)
    · rintro _ e _ ⟨q, rfl⟩ ⟨_, herror⟩
      exact ⟨n, hcounted q, nofun, fun _ _ ↦ herror e rfl⟩
    · rintro _ receipt _ ⟨q, rfl⟩ ⟨hok, _⟩
      refine ⟨n, hcounted q, ?_, nofun⟩
      rintro d ⟨⟩
      exact ⟨digest, locals, hok receipt rfl⟩
  | ok result =>
    apply Body.Sat.bind (invocationReceipt_signing hnone)
    · rintro _ e _ ⟨q, rfl⟩ ⟨_, herror⟩
      exact ⟨n, hcounted q, nofun, fun _ _ ↦ herror e rfl⟩
    · rintro _ receipt _ ⟨q, rfl⟩ ⟨hok, _⟩
      refine ⟨n, hcounted q, ?_, nofun⟩
      rintro d ⟨⟩
      exact ⟨digest, locals, hok receipt rfl⟩

/-- A redemption that is counted returns the receipt it signed. -/
theorem redeem_signing : Body.Sat A (fun _ _ ↦ True) (fun h' r _ ↦
      (∀ n, ⟨.recordInvocation i, n⟩ ∉ h') ∨
      ∃ n, ⟨.recordInvocation i, n⟩ ∈ h' ∧ app.SignedOutcome request n h' r)
      (app.redeem lib i request) [] () := by
  unfold redeem
  apply Body.Sat.ofExcept
  · intro x _
    exact .inl fun _ ↦ List.not_mem_nil
  intro digest hdigest
  apply Body.Sat.attempt ((authorize_sat (i := i) hdigest).weaken fun _ _ _ ↦ trivial)
  intro h₁ outcome locals _ hpost
  cases outcome with
  | error e =>
    have hdenied : Body.Sat A (fun _ _ ↦ True) (fun h' _ _ ↦ ∀ n, ⟨.recordInvocation i, n⟩ ∉ h')
        (app.receipt lib i (denyArgs request digest e.denialReason locals)) h₁ () := by
      apply (receipt_extends h₁ _).mono
      intro h' r _ hext n hn
      exact uncounted_of_unserved hpost (uncounted_of_extended hext hn)
    apply Body.Sat.bind hdenied
    · intro h' x _ _ hn
      exact .inl hn
    · intro h' receipt _ _ hn
      exact .inl hn
  | ok u =>
    obtain ⟨p, hp, rfl, rfl⟩ := hpost
    apply (invokeHandler_signing hp.unserved).mono
    intro h' r _ hr
    exact .inr hr

end InventoryApplication

open InventoryApplication

namespace Deployment

variable {D : Deployment} {w : World} {tr : D.Trace} {t i : Nat} {c : Call}
  {request : LookupInput} {s : Config Op Op.Reply World Call (Except Exn Answer)}

/-- The outcome of a lookup matches a catalog: the quantity of the catalog under the number of the
call or, when that is no integer from zero on, the closed failure object and a receipt whose claims
are those of an application with any other catalog. -/
def MatchesCatalog (app : InventoryApplication) (i : Nat) (catalog : List (Text × Value))
    (request : LookupInput) (h : History) (r : Except Exn Decision) : Prop :=
  ∃ n receipt, ⟨.recordInvocation i, n⟩ ∈ h ∧
    (∀ q, 0 ≤ q → quantityIn catalog request.sku.val = .int q →
      r = .ok ⟨true, .ALLOW, receipt, some (lookupMembers request.sku.val q n)⟩) ∧
    ((∀ q, 0 ≤ q → quantityIn catalog request.sku.val ≠ .int q) →
      r = .ok ⟨true, .HANDLER_FAILED, receipt, some (failedResult n)⟩ ∧
      ∀ other, ∃ digest locals, ReceiptOf { app with catalog := other }
        (invocationArgs request digest locals n false) receipt h)

/-- The handler of a call is the one of the source, and it is entered. -/
structure EntersHandler (tr : D.Trace) (t : Nat) : Prop where
  entered : t ∈ D.entries tr
  own : ∀ j sku x reply, Label.act t (.inventoryLookup j sku) x reply ∈ tr → x = none

/-- What the handler of the source replied. -/
theorem EntersHandler.reply (h : D.system.Run w tr s) (he : EntersHandler tr t) {sku : Text}
    {reply : Except Exn (List (Text × Value))}
    (hmem : ⟨.inventoryLookup i sku, reply⟩ ∈ D.history t tr) :
    reply = .ok ((D.app i).inventoryLookup sku) := by
  obtain ⟨x, hl⟩ := System.mem_own.mp hmem
  obtain ⟨pre, post, heq⟩ := List.append_of_mem hl
  obtain rfl := he.own _ _ _ _ hl
  exact h.reply_eq heq

/-- A redemption that enters the handler is counted. -/
theorem EntersHandler.counted (h : D.system.Run w tr s) (hc : Label.start t c ∈ tr)
    (hr : D.redemption? c = some (i, request)) (he : EntersHandler tr t) :
    ∃ n, ⟨.recordInvocation i, n⟩ ∈ D.history t tr := by
  obtain ⟨j, sku, x, reply, hl⟩ := mem_entries.mp he.entered
  have hmem : ⟨.inventoryLookup j sku, reply⟩ ∈ D.history t tr := System.mem_own.mpr ⟨x, hl⟩
  obtain ⟨pre, post, heq⟩ := List.append_of_mem hmem
  have hg := h.guarantee_history (A := fun _ _ _ ↦ True) hc (body_sat _) heq fun _ _ _ _ ↦ trivial
  obtain ⟨i', request', hr', _, _, p, h₀, n, _, hpre⟩ := guarantee_inventoryLookup hg
  rw [hr, Option.some.injEq, Prod.mk.injEq] at hr'
  obtain ⟨rfl, _⟩ := hr'
  refine ⟨n, ?_⟩
  rw [heq, hpre]
  simp

/-- A redemption that entered the handler and signed its receipt matches the catalog of its
application. -/
theorem matches_of_entered (h : D.system.Run w tr s) (hc : Label.start t c ∈ tr)
    (hr : D.redemption? c = some (i, request)) (he : EntersHandler tr t)
    (hsigned : HasReceipt (D.history t tr)) {a : Except Exn Answer}
    (hf : Label.finish t a ∈ tr) : ∃ r, a = D.answerOf c r ∧
      MatchesCatalog (D.app i) i (D.app i).catalog request (D.history t tr) r := by
  obtain ⟨p, hpath, hdone⟩ := h.history hc
  rw [hdone a hf] at hpath
  obtain ⟨r, hredeem, ha⟩ := path_redeem hr hpath
  refine ⟨r, ha, ?_⟩
  have hended : ((D.app i).redeem D.lib i request).prog.Sat (fun _ _ ↦ True) _ _ [] :=
    Body.sat_prog.mpr redeem_ended
  have hsigning : ((D.app i).redeem D.lib i request).prog.Sat (fun _ _ ↦ True) _ _ [] :=
    Body.sat_prog.mpr redeem_signing
  obtain ⟨n, hn⟩ := he.counted h hc hr
  rcases hended.path hredeem fun _ _ _ _ ↦ trivial with ⟨hnone, _⟩ | ⟨m, reply, hcounted, hl, hends⟩
  · exact absurd hn (hnone n)
  obtain rfl := (hcounted n).mp hn
  obtain rfl := he.reply h hl
  rcases hsigning.path hredeem fun _ _ _ _ ↦ trivial with hnone | ⟨m, hm, hok, herror⟩
  · exact absurd hn (hnone n)
  obtain rfl := (hcounted m).mp hm
  have hpos := recordInvocation_pos h hn
  cases hends with
  | unsigned message => exact absurd hsigned (herror _ rfl)
  | @completed result receipt houtcome =>
    refine ⟨m, receipt, hn, ?_, ?_⟩
    · intro q h0 hq
      obtain ⟨result', hresult', hdump⟩ := handlerOutcome_of_quantity hq h0 hpos
      rw [houtcome, Except.ok.injEq] at hresult'
      rw [hresult', hdump]
    · intro hq
      obtain ⟨e, herr⟩ := handlerOutcome_of_not_quantity (n := m) hq
      rw [houtcome] at herr
      cases herr
  | @failed e receipt houtcome =>
    refine ⟨m, receipt, hn, ?_, ?_⟩
    · intro q h0 hq
      obtain ⟨result', hresult', _⟩ := handlerOutcome_of_quantity hq h0 hpos
      rw [houtcome] at hresult'
      cases hresult'
    · intro _
      refine ⟨rfl, ?_⟩
      intro other
      exact hok _ rfl

/-- What matches the built-in catalog for its article does not match an empty one. -/
theorem not_matches_empty {app app' : InventoryApplication} {h : History}
    {r : Except Exn Decision} (hsku : request.sku.val = text "widget-42")
    (hmatches : MatchesCatalog app i defaultCatalog request h r) :
    ¬MatchesCatalog app' i (requestedCatalog (some [])) request h r := by
  rintro ⟨n, receipt, _, hquantity, _⟩
  obtain ⟨n', receipt', _, hquantity', _⟩ := hmatches
  have hzero : quantityIn (requestedCatalog (some [])) request.sku.val = .int 0 := rfl
  have hseven : quantityIn defaultCatalog request.sku.val = .int 7 := by
    rw [hsku]
    rfl
  have hsame := (hquantity 0 (by decide) hzero).symm.trans (hquantity' 7 (by decide) hseven)
  simp [lookupMembers] at hsame

/-- A lookup matches the catalog that the constructor was given, unless that catalog is empty and
the article is the one of the built-in catalog: then it answers with the built-in quantity. -/
theorem lookup_matches_catalog_iff (h : D.system.Run w tr s) (hc : Label.start t c ∈ tr)
    (hr : D.redemption? c = some (i, request)) (he : EntersHandler tr t)
    (hsigned : HasReceipt (D.history t tr)) {a : Except Exn Answer}
    (hf : Label.finish t a ∈ tr) {policy : ResourcePolicy} {secret : Bytes}
    {signer : ReceiptSigner} {catalog : Option (List (Text × Value))}
    (hinit : init policy secret signer catalog = .ok (D.app i)) :
    ∃ r, a = D.answerOf c r ∧
      (MatchesCatalog (D.app i) i (requestedCatalog catalog) request (D.history t tr) r ↔
        ¬(catalog = some [] ∧ request.sku.val = text "widget-42")) := by
  obtain ⟨r, ha, hmatches⟩ := matches_of_entered h hc hr he hsigned hf
  refine ⟨r, ha, ?_, ?_⟩
  · rintro hrequested ⟨hempty, hsku⟩
    rw [(catalog_of_init hinit).1 hempty] at hmatches
    rw [hempty] at hrequested
    exact not_matches_empty hsku hmatches hrequested
  · intro hcond
    unfold MatchesCatalog
    rw [← quantity_of_init hinit hcond]
    exact hmatches

end Deployment

namespace Demo

/-- The article of the built-in catalog. -/
def widget : InventoryArguments := ⟨text "widget-42", by decide, by decide, by decide⟩

/-- A redemption for an article. -/
def lookupOf (arguments : InventoryArguments) : LookupInput :=
  { lookupInput 1000 1 with toInventoryArguments := arguments }

/-- A challenge for an article and its redemption. -/
def lookupSchedule (arguments : InventoryArguments) : List deployment.system.Move :=
  deployment.alone 0 (.issueResourceChallenge 0 credentialId arguments recordId.val)
      (scenario 1000 1) 4 ++
    deployment.alone 1 (.redeem 0 (lookupOf arguments)) (scenario 1001 2) 15

/-- Whether a receipt was signed. -/
def hasReceipt (h : History) : Bool :=
  h.any fun
    | ⟨.sign .., .ok _⟩ => true
    | _ => false

/-- A receipt that is found was signed. -/
theorem hasReceipt_of_true {h : History} (hh : hasReceipt h = true) : HasReceipt h := by
  obtain ⟨ev, hev, hsign⟩ := List.any_eq_true.mp hh
  split at hsign
  · exact ⟨_, _, _, hev⟩
  · cases hsign

/-- What a played lookup shows: its call enters the handler of the source, signs and finishes. -/
theorem lookup_of_made {arguments : InventoryArguments} {tr : deployment.Trace}
    (hmade : List.Forall₂ Move.Makes (lookupSchedule arguments) tr)
    (hentries : deployment.entries tr = [1]) :
    Label.start 1 (.redeem 0 (lookupOf arguments)) ∈ tr ∧ Deployment.EntersHandler tr 1 ∧
      ∃ a, Label.finish 1 a ∈ tr := by
  have hstart : Move.start 1 (.redeem 0 (lookupOf arguments)) ∈ lookupSchedule arguments := by
    simp [lookupSchedule, Deployment.alone]
  have hfinish : Move.finish 1 ∈ lookupSchedule arguments := by
    simp [lookupSchedule, Deployment.alone]
  refine ⟨?_, ⟨?_, ?_⟩, ?_⟩
  · obtain ⟨l, hl, hmakes⟩ := exists_label_of_mem hmade hstart
    cases hmakes
    exact hl
  · rw [hentries]
    exact List.mem_singleton_self 1
  · intro j sku x reply hl
    obtain ⟨m, hm, hmakes⟩ := exists_move_of_mem hmade hl
    cases m with
    | start => cases hmakes
    | finish => cases hmakes.choose_spec
    | crash => cases hmakes
    | act t' x' =>
      obtain ⟨e', r', heq⟩ := hmakes
      cases heq
      simp only [lookupSchedule, Deployment.alone, List.mem_append, List.mem_cons,
        List.mem_replicate, reduceCtorEq, false_or, List.not_mem_nil, or_false] at hm
      rcases hm with ⟨_, hm⟩ | ⟨_, hm⟩
      · cases hm
      · cases hm
        rfl
  · obtain ⟨l, hl, a, rfl⟩ := exists_label_of_mem hmade hfinish
    exact ⟨a, hl⟩

set_option maxRecDepth 100000 in
/-- The lookup of the built-in article at an application that was given an empty catalog does not
match that catalog. -/
theorem lookup_empty_catalog : ∃ tr s a r, deployment.system.Run .initial tr s ∧
    Label.start 1 (.redeem 0 (lookupOf widget)) ∈ tr ∧ Deployment.EntersHandler tr 1 ∧
    HasReceipt (deployment.history 1 tr) ∧ Label.finish 1 a ∈ tr ∧
    init resourcePolicy (List.replicate 32 7) ⟨[2], text "r"⟩ (some []) = .ok (deployment.app 0) ∧
    a = deployment.answerOf (.redeem 0 (lookupOf widget)) r ∧
    ¬Deployment.MatchesCatalog (deployment.app 0) 0 (requestedCatalog (some [])) (lookupOf widget)
      (deployment.history 1 tr) r := by
  obtain ⟨tr, s, hrun, hmade, hentries, hsigned⟩ : ∃ tr s, deployment.system.Run .initial tr s ∧
      List.Forall₂ Move.Makes (lookupSchedule widget) tr ∧ deployment.entries tr = [1] ∧
      hasReceipt (deployment.history 1 tr) = true :=
    Deployment.exists_made_of_play (lookupSchedule widget) (by decide +kernel)
  obtain ⟨hstart, henters, a, hf⟩ := lookup_of_made hmade hentries
  obtain ⟨r, ha, hmatches⟩ := Deployment.matches_of_entered hrun hstart (i := 0) rfl henters
    (hasReceipt_of_true hsigned) hf
  exact ⟨tr, s, a, r, hrun, hstart, henters, hasReceipt_of_true hsigned, hf, rfl, ha,
    Deployment.not_matches_empty rfl hmatches⟩

end Demo

set_option maxRecDepth 100000 in
/-- The law at the lookup of an article that no catalog holds. -/
theorem Deployment.lookup_matches_catalog_iff_unlisted :
    ∃ tr s a r, Demo.deployment.system.Run .initial tr s ∧ Label.finish 1 a ∈ tr ∧
      a = Demo.deployment.answerOf (.redeem 0 (Demo.lookupOf Demo.arguments)) r ∧
      MatchesCatalog (Demo.deployment.app 0) 0 [] (Demo.lookupOf Demo.arguments)
        (Demo.deployment.history 1 tr) r := by
  obtain ⟨tr, s, hrun, hmade, hentries, hsigned⟩ : ∃ tr s,
      Demo.deployment.system.Run .initial tr s ∧
      List.Forall₂ Move.Makes (Demo.lookupSchedule Demo.arguments) tr ∧
      Demo.deployment.entries tr = [1] ∧
      Demo.hasReceipt (Demo.deployment.history 1 tr) = true :=
    exists_made_of_play (Demo.lookupSchedule Demo.arguments) (by decide +kernel)
  obtain ⟨hstart, henters, a, hf⟩ := Demo.lookup_of_made hmade hentries
  have hinit : init Demo.resourcePolicy (List.replicate 32 7) ⟨[2], text "r"⟩ (some []) =
      .ok (Demo.deployment.app 0) := rfl
  obtain ⟨r, ha, hiff⟩ := lookup_matches_catalog_iff hrun hstart (i := 0) rfl henters
    (Demo.hasReceipt_of_true hsigned) hf hinit
  have hsku : (Demo.lookupOf Demo.arguments).sku.val ≠ text "widget-42" := by decide
  exact ⟨tr, s, a, r, hrun, hf, ha, hiff.mpr fun hboth ↦ hsku hboth.2⟩

end Atcap
