import Atcap.Inventory.Numbering
import Atcap.Inventory.Outcome
import Atcap.Inventory.Signing
import Atcap.Mcp.Spec
import Atcap.Storage.Changes

/-!
# When a tool call is answered

A tool call is answered when it returns the challenge it issued, or a decision under a receipt
that the configured verifier accepts. Over working collaborators this depends on what the call
canonicalises: the policy, the counter, and the caller's own arguments or credential id.
-/

namespace Atcap

open Base

/-- A number of few digits is spelled by `json.dumps`. -/
theorem isSome_dumpsInt {n : Int} (h : n.natAbs < 10 ^ 20) : (dumpsInt n).isSome = true := by
  have hdigits : (decimalNat n.natAbs).length ≤ maxStrDigits :=
    ((length_decimalNat_le_iff (by decide)).mpr h).trans (by decide)
  rw [dumpsInt, str?, if_pos hdigits]
  rfl

namespace InventoryApplication

/-! ### Routes -/

/-- The three ways a tool call is served. -/
inductive Route where
  | challenge (input : ChallengeInput)
  | lookup (request : LookupInput)
  /-- Denied as unauthenticated, with the digest of the raw arguments. -/
  | direct

variable (app : InventoryApplication) (i : Nat)

/-- The way a tool call is served. -/
def route (name : Text) (rawArguments : List (Text × Value)) : Route :=
  if name = text "inventory.challenge" then
    match ChallengeInput.modelValidate rawArguments with
    | .ok input => if input.credentialId.isLowerHexOf 64 then .challenge input else .direct
    | .error _ => .direct
  else if name = app.policy.method then
    match LookupInput.modelValidate rawArguments with
    | .ok request => .lookup request
    | .error _ => .direct
  else .direct

/-- What every receipt states has an encoding: the policy, and the counter as it was read. -/
def Recordable (h : History) : Prop :=
  app.policy.Encodable ∧ ∀ m, ⟨.invocationCount i, m⟩ ∈ h → m < 2 ^ 53

/-- When a challenge can be stored: SQLite can bind the policy's texts and the expiry. -/
def Storable (h : History) : Prop :=
  app.policy.method.encodable = true ∧ app.policy.audience.encodable = true ∧
    ∀ now, ⟨.clock, .ok now⟩ ∈ h → now + app.policy.challengeTtlSeconds < 2 ^ 63

/-- When a redemption returns a decision: its receipt can be signed. -/
def Redeemable (parse : Value → Except Exn Credential) (request : LookupInput) (h : History) :
    Prop :=
  app.Recordable i h ∧
    ∀ c, parse (.dict request.credential) = .ok c → c.credentialId.encodable = true

/-- When a tool call is answered: everything it canonicalises and stores has an encoding. -/
def Answerable (parse : Value → Except Exn Credential) (name : Text)
    (rawArguments : List (Text × Value)) (h : History) : Prop :=
  match app.route name rawArguments with
  | .challenge _ => app.Storable h
  | .lookup request => app.Redeemable i parse request h
  | .direct => app.Recordable i h ∧ Json.canonicalizable (.dict rawArguments) = true

/-- A result that carries an issued challenge, or a decision under an accepted receipt. -/
def Answers (lib : Libraries) (h : History) (result : CallToolResult) : Prop :=
  (∃ challenge, StoredLast challenge h ∧ result.structuredContent = challenge.toDict ∧
      result.isError = false) ∨
    ∃ (d : Decision) (fields : ReceiptFields), result.structuredContent = d.toDict ∧
      app.receiptSigner.Signed lib fields d.receipt ∧ fields.reason = d.reason ∧
      (fields.decision = .allow ↔ d.allowed = true)

variable {lib : Libraries} {app i} {name : Text} {arguments : Option (List (Text × Value))}

/-- `ChallengeInput.model_validate` raises `ValidationError`. -/
theorem challengeInput_raises {rawArguments : List (Text × Value)} {e : Exn}
    (h : ChallengeInput.modelValidate rawArguments = .error e) : isDenied e = true := by
  simp only [ChallengeInput.modelValidate, requiredField, bind_eq_error, raiseIf_eq_error,
    orRaise_eq_error] at h
  rcases h with ⟨-, rfl⟩ | ⟨_, -, ⟨-, rfl⟩ | ⟨_, -, ⟨-, rfl⟩ | ⟨_, -, ⟨-, rfl⟩ | ⟨_, -, h⟩⟩⟩⟩
  · rfl
  · rfl
  · rfl
  · rfl
  · cases h

/-- A challenge for any other identifier is refused. -/
theorem issueResourceChallenge_of_not_hex {credentialId recordId : Text}
    {arguments : InventoryArguments} (h : credentialId.isLowerHexOf 64 = false) :
    app.issueResourceChallenge lib credentialId arguments recordId =
      Body.raise (.decision .CREDENTIAL_INVALID
        "credential_id must be a 256-bit lowercase hexadecimal identifier") := by
  unfold issueResourceChallenge Body.raiseIf raiseIf
  rw [if_pos h]
  rfl

/-- A call that is served directly is denied. -/
theorem callTool_of_direct (h : app.route name (arguments.getD []) = .direct) :
    app.callTool lib i name arguments = app.denyTool lib i (arguments.getD []) := by
  unfold route at h
  unfold callTool
  dsimp only
  split at h
  · next hname =>
    rw [if_pos hname]
    split at h
    · next input hinput =>
      split at h
      · cases h
      · next hid =>
        have htool : app.challengeTool lib (arguments.getD []) =
            Body.raise (.decision .CREDENTIAL_INVALID
              "credential_id must be a 256-bit lowercase hexadecimal identifier") := by
          unfold challengeTool
          rw [hinput]
          change (app.issueResourceChallenge lib input.credentialId input.toInventoryArguments
            input.recordId.val >>= _) = _
          rw [issueResourceChallenge_of_not_hex (by simpa using hid)]
          rfl
        rw [htool]
        rfl
    · next e he =>
      unfold challengeTool
      rw [he]
      change (if isDenied e then app.denyTool lib i (arguments.getD []) else Body.raise e) = _
      rw [if_pos (challengeInput_raises he)]
  · next hname =>
    rw [if_neg hname]
    split at h
    · next hm =>
      rw [if_pos hm]
      split at h
      · cases h
      · next e he => rw [he]
    · next hm => rw [if_neg hm]

/-! ### Working collaborators -/

/-- What a tool call relies on of its collaborators: a working signer, clock, store and handler,
named policy strings, and released packages that parse a credential to what `parse` says, accept a
fresh challenge and raise exceptions of their own. -/
structure Serving (lib : Libraries) (app : InventoryApplication) (i : Nat)
    (parse : Value → Except Exn Credential) (A : History → Event Op Op.Reply → Prop) : Prop where
  working : app.receiptSigner.Working lib
  named : app.policy.Named
  replies : SigningReplies lib app.receiptSigner A
  plain : ∀ h ev, A h ev → PlainReply h ev
  parsed : ∀ h d r, A h ⟨.lib (.credentialFromDict d), r⟩ → r = parse d
  verified : ∀ h secret expiry randomHex now r, now < expiry →
    A h ⟨.lib (.verifyChallenge secret (challengeToken secret expiry randomHex) now), r⟩ →
    r = .ok ()
  stored : ∀ h tokenHash context issuedAt expiresAt r,
    A h ⟨.storeResourceChallenge tokenHash context issuedAt expiresAt, r⟩ →
    (Bindable tokenHash context issuedAt expiresAt ∧ r = .ok ()) ∨
      ¬Bindable tokenHash context issuedAt expiresAt ∧
        (r = .error .unicodeEncode ∨ r = .error .overflow)
  spent : ∀ h a e, A h ⟨.spend a, .error e⟩ →
    e.denialReason ≠ .ALLOW ∧ e.denialReason ≠ .HANDLER_FAILED
  numbered : ∀ h n, A h ⟨.recordInvocation i, n⟩ → 1 ≤ n
  counted : ∀ h n m, ⟨.recordInvocation i, n⟩ ∈ h → A h ⟨.invocationCount i, m⟩ → n ≤ m
  handled : ∀ h sku members quantity, A h ⟨.inventoryLookup i sku, .ok members⟩ →
    members.lookup (text "quantity") = some (.int quantity) → (dumpsInt quantity).isSome = true

section Serving

variable {parse : Value → Except Exn Credential} {A : History → Event Op Op.Reply → Prop}
  {h : History} {request : LookupInput} {l : RedeemLocals}

/-! ### Denials -/

/-- A decision can be written when its result can. -/
theorem writable_toDict {d : Decision}
    (h : ∀ v, d.result = some v → Json.writable (dumpsStyle lib) v = true) :
    Json.writable (dumpsStyle lib) d.toDict = true := by
  obtain ⟨allowed, reason, receipt, result⟩ := d
  cases result with
  | none =>
    rw [Decision.toDict, Json.writable, Value.everywhere_dict]
    simp [Value.everywhere]
  | some v =>
    have hv := h v rfl
    rw [Json.writable] at hv
    rw [Decision.toDict, Json.writable, Value.everywhere_dict]
    simp [Value.everywhere, hv]

/-- A history that has not read the counter. -/
def Unread (i : Nat) (h : History) : Prop := ∀ m, ⟨.invocationCount i, m⟩ ∉ h

/-- The reading of a counter is in the part of a history that reads it. -/
theorem Unread.mem_append {q : History} (hu : Unread i h) {m : Nat} :
    ⟨.invocationCount i, m⟩ ∈ h ++ q ↔ ⟨.invocationCount i, m⟩ ∈ q := by
  rw [List.mem_append, or_iff_right (hu m)]

/-- What can be recorded after an unread history. -/
theorem Unread.signable_iff {q : History} {a : ReceiptArgs} (hu : Unread i h) :
    app.Signable i a q ↔ app.Recordable i (h ++ q) ∧ a.Encodable := by
  constructor
  · intro hs
    exact ⟨⟨hs.policy, fun m hm ↦ hs.counter m (hu.mem_append.mp hm)⟩, hs.arguments⟩
  · rintro ⟨⟨hpolicy, hcounter⟩, harguments⟩
    exact ⟨hpolicy, harguments, fun m hm ↦ hcounter m (hu.mem_append.mpr hm)⟩

/-- The receipt of a denial is signed exactly when its texts and the counter have an encoding. -/
theorem receipt_denies (law : Rfc8785 lib) (hs : app.Serving lib i parse A) {a : ReceiptArgs}
    (ha : a.Denies) (hu : Unread i h) :
    Body.Sat A (fun _ _ ↦ True) (fun h' r _ ↦
      (app.Recordable i h' ∧ a.Encodable → ∃ receipt fields, r = .ok receipt ∧
        app.receiptSigner.Signed lib fields receipt ∧ fields.reason = a.reason ∧
        fields.decision = .deny) ∧
      ∀ receipt, r = .ok receipt → app.Recordable i h' ∧ a.Encodable)
      (app.receipt lib i a) h () := by
  have hnone : ∀ {P : Nat → Prop} n, a.invocationId = some n → P n := by
    intro P n hn
    rw [ha.invocationId] at hn
    cases hn
  apply (receipt_exact law hs.working hs.replies (fun _ _ _ _ ↦ hnone)
    (fun _ _ _ _ hid hnow _ _ ↦ check_of_denies hs.named ha hid hnow)).mono
  rintro h' r _ ⟨q, rfl, -, -, hsigned, hsignable⟩
  rw [← hu.signable_iff]
  refine ⟨?_, fun receipt hr ↦ (hsignable receipt hr).1⟩
  intro hready
  obtain ⟨receipt, receiptId, decidedAt, snapshot, digest, hr, hreceipt⟩ := hsigned hready
  exact ⟨receipt, _, hr, hreceipt, rfl, ha.decision⟩

/-- The arguments of an unauthenticated denial. -/
theorem denies_directArgs (data : Bytes) : (directArgs (sha256Hex data)).Denies :=
  ⟨rfl, ⟨nofun, nofun⟩, truthy_some.mp (truthy_sha256Hex data), rfl, rfl, rfl⟩

/-- A tool call is denied under an accepted receipt exactly when its raw arguments, the policy and
the counter have an encoding. -/
theorem denyTool_answers (law : Rfc8785 lib) (hs : app.Serving lib i parse A)
    {rawArguments : List (Text × Value)} (hk : (Value.dict rawArguments).distinctKeys = true) :
    Body.Sat A (fun _ _ ↦ True) (fun h' r _ ↦
      (∃ result, r = .ok result ∧ app.Answers lib h' result) ↔
        app.Recordable i h' ∧ Json.canonicalizable (.dict rawArguments) = true)
      (app.denyTool lib i rawArguments) [] () := by
  have hattempt : Body.Sat A (fun _ _ ↦ True) (fun h' r _ ↦
      (app.Recordable i h' ∧ Json.canonicalizable (.dict rawArguments) = true →
        ∃ receipt fields, r = .ok ⟨false, .UNAUTHENTICATED, receipt, none⟩ ∧
          app.receiptSigner.Signed lib fields receipt ∧ fields.reason = .UNAUTHENTICATED ∧
          fields.decision = .deny) ∧
      ∀ d, r = .ok d →
        app.Recordable i h' ∧ Json.canonicalizable (.dict rawArguments) = true)
      (app.directLookupAttempt lib i rawArguments) [] () := by
    unfold directLookupAttempt
    apply Body.Sat.ofExcept
    · intro x hx
      refine ⟨?_, nofun⟩
      rintro ⟨-, hcanonical⟩
      obtain ⟨digest, hdigest⟩ := law.exists_canonicalDigest hk hcanonical
      rw [hx] at hdigest
      cases hdigest
    intro digest hdigest
    obtain ⟨data, hdata, rfl⟩ := canonicalDigest_eq_ok hdigest
    have hcanonical := (law.isOk_iff hk).mp ⟨data, hdata⟩
    have harguments : (directArgs (sha256Hex data)).Encodable :=
      ⟨nofun, nofun, encodable_sha256Hex data, nofun⟩
    apply Body.Sat.bind (receipt_denies law hs (denies_directArgs data) (h := [])
      fun _ ↦ List.not_mem_nil)
    · rintro h' e _ _ ⟨hsigned, -⟩
      refine ⟨?_, nofun⟩
      rintro ⟨hrecord, -⟩
      obtain ⟨_, _, ⟨⟩, -⟩ := hsigned ⟨hrecord, harguments⟩
    · rintro h' receipt _ _ ⟨hsigned, hrecorded⟩
      have hrecord := (hrecorded receipt rfl).1
      obtain ⟨_, fields, ⟨⟩, hreceipt, hreason, hdecision⟩ := hsigned ⟨hrecord, harguments⟩
      exact ⟨fun _ ↦ ⟨receipt, fields, rfl, hreceipt, hreason, hdecision⟩,
        fun _ _ ↦ ⟨hrecord, hcanonical⟩⟩
  unfold denyTool
  apply Body.Sat.bind hattempt
  · rintro h' e _ _ ⟨hanswered, -⟩
    constructor
    · rintro ⟨_, ⟨⟩, -⟩
    · intro hready
      obtain ⟨_, _, ⟨⟩, -⟩ := hanswered hready
  · rintro h' d _ _ ⟨hanswered, hrecorded⟩
    have hready := hrecorded d rfl
    obtain ⟨receipt, fields, hd, hreceipt, hreason, hdecision⟩ := hanswered hready
    cases hd
    have hwritable : Json.writable (dumpsStyle lib)
        (⟨false, .UNAUTHENTICATED, receipt, none⟩ : Decision).toDict = true :=
      writable_toDict nofun
    obtain ⟨encoded, hencoded⟩ := exists_mcpResult hwritable true
    rw [hencoded, Body.sat_ofExcept]
    refine iff_of_true ⟨_, rfl, .inr ⟨⟨false, .UNAUTHENTICATED, receipt, none⟩, fields, rfl,
      hreceipt, hreason, ?_⟩⟩ hready
    rw [hdecision]
    exact ⟨nofun, nofun⟩

/-! ### Redemptions -/

/-- The credential id that a redemption knows once it has parsed the credential. -/
def shownId (parse : Value → Except Exn Credential) (request : LookupInput) : Option Text :=
  (parse (.dict request.credential)).toOption.map Credential.credentialId

/-- What the local variables of `redeem` hold: the parsed id, and the digest of a token. -/
def Shown (parse : Value → Except Exn Credential) (request : LookupInput) (l : RedeemLocals) :
    Prop :=
  l.credentialId = shownId parse request ∧ ∀ t, l.tokenHash = some t → ∃ data, t = sha256Hex data

/-- `presentCredential` shows the parsed id, however it ends. -/
theorem presentCredential_shows (hs : app.Serving lib i parse A) :
    Body.Sat A (fun _ _ ↦ True) (fun _ _ l' ↦ Shown parse request l')
      (app.presentCredential request) h ⟨none, none⟩ := by
  unfold presentCredential callLibExcept
  apply Body.Sat.invoke trivial
  · intro r x hr hx
    obtain ⟨e, rfl, -⟩ := mapError_eq_error.mp hx
    refine ⟨?_, nofun⟩
    rw [shownId, ← hs.parsed _ _ _ hr]
    rfl
  intro r credential hr hx
  obtain rfl := mapError_eq_ok.mp hx
  have hshown : Shown parse request ⟨some credential.credentialId, none⟩ := by
    refine ⟨?_, nofun⟩
    rw [shownId, ← hs.parsed _ _ _ hr]
    rfl
  apply Body.Sat.assign
  refine Body.Preserves.bind (P := Shown parse request) (.raiseIf _ _) (fun _ ↦ ?_) _ _ _ hshown
  refine .bind (.ofExcept _) fun _ ↦ .bind (.raiseIf _ _) fun _ ↦ ?_
  exact .bind (.invoke _ _) fun _ ↦ .bind (.invoke _ _) fun _ ↦ .bind (.raiseIf _ _) fun _ ↦ .pure _

/-- The rest of the `try` block keeps the id and shows the digest of the token. -/
theorem presentChallenge_shows {digest : Text} {c : Credential} :
    Body.Preserves (Shown parse request) (app.presentChallenge request digest c) := by
  unfold presentChallenge
  refine .bind (.invoke _ _) fun proof ↦ ?_
  intro A h l hl
  apply Body.Sat.ofExcept
  · intro x _
    exact hl
  intro tokenHash hhash
  have hshown : Shown parse request { l with tokenHash := some tokenHash } := by
    refine ⟨hl.1, ?_⟩
    rintro t ⟨⟩
    exact ⟨_, (challengeTokenHash_eq_ok hhash).2⟩
  apply Body.Sat.assign
  refine Body.Preserves.bind (P := Shown parse request) (.invoke _ _) (fun _ ↦ ?_) _ _ _ hshown
  refine .bind (.ofExcept _) fun _ ↦ .bind (.raiseIf _ _) fun _ ↦ .bind (.raiseIf _ _) fun _ ↦ ?_
  exact .bind (.invoke _ _) fun _ ↦ .bind (.raiseIf _ _) fun _ ↦ .pure _

/-- However the `try` block of `redeem` ends, its local variables show what was parsed. -/
theorem authorize_shows (hs : app.Serving lib i parse A) {digest : Text} :
    Body.Sat A (fun _ _ ↦ True) (fun _ _ l' ↦ Shown parse request l')
      (app.authorize lib request digest) h ⟨none, none⟩ := by
  unfold authorize
  apply Body.Sat.bind (presentCredential_shows hs)
  · intro h' e l' _ hl
    exact hl
  rintro h' ⟨c, notBefore, notAfter⟩ l' _ hl
  refine Body.Preserves.bind presentChallenge_shows ?_ A h' l' hl
  rintro ⟨proof, tokenHash⟩
  refine .bind (.bind (.ofExcept _) fun _ ↦ .invoke _ _) fun _ ↦ ?_
  refine .bind (.bind (.invoke _ _) fun _ ↦ .bind (.raiseIf _ _) fun _ ↦ .pure _) fun _ ↦ ?_
  exact .bind (.invoke _ _) fun _ ↦ .bind (.raiseIf _ _) fun _ ↦ .raiseIf _ _

/-- The `try` block does not read the counter. -/
theorem authorize_unread {digest : Text} :
    Body.Sat A (fun _ _ ↦ True) (fun h' _ _ ↦ Unread i h')
      (app.authorize lib request digest) [] l := by
  apply ((authorize_deciding digest A [] l).collect.mono _).weaken
  · intro _ _ _
    trivial
  · rintro h' r l' ⟨-, q, rfl, hq⟩ m hm
    cases hq _ hm

/-- A refused call gives a reason that denies. -/
theorem authorize_denies (hs : app.Serving lib i parse A) {digest : Text}
    (hd : canonicalDigest lib request.toInventoryArguments.modelDump = .ok digest) :
    Body.Sat A (fun _ _ ↦ True) (fun _ r _ ↦ ∀ e, r = .error e →
      e.denialReason ≠ .ALLOW ∧ e.denialReason ≠ .HANDLER_FAILED)
      (app.authorize lib request digest) [] l := by
  have hearly : ∀ reason ∈ earlyReasons, reason ≠ .ALLOW ∧ reason ≠ .HANDLER_FAILED := by decide
  have hnil : Prog.Relies A [] := by
    intro pre ev post he
    cases pre <;> cases he
  apply (((authorize_refused hd).assume hs.plain).relied hnil).mono
  rintro h' r ⟨hrefused, hrelies⟩ e he
  rw [he] at hrefused
  cases hrefused with
  | early _ hreason => exact hearly _ hreason
  | locked hlocked _ _ hreason =>
    rw [hlocked] at hrelies
    rw [hreason]
    exact hs.spent _ _ _ hrelies.last
  | second _ _ _ _ hreason =>
    rw [hreason]
    exact ⟨nofun, nofun⟩
  | unclocked _ _ _ _ hreason =>
    rw [hreason]
    exact ⟨nofun, nofun⟩
  | late _ _ _ _ hreason =>
    rcases hreason with ⟨_, hreason⟩ | ⟨_, hreason⟩
    · rw [hreason]
      exact ⟨nofun, nofun⟩
    · rw [hreason]
      exact ⟨nofun, nofun⟩

/-- A decision that a tool call can return under an accepted receipt. -/
structure Reported (app : InventoryApplication) (lib : Libraries) (d : Decision) : Prop where
  receipt : ∃ fields : ReceiptFields, app.receiptSigner.Signed lib fields d.receipt ∧
    fields.reason = d.reason ∧ (fields.decision = .allow ↔ d.allowed = true)
  writable : Json.writable (dumpsStyle lib) d.toDict = true

/-- A denied redemption returns its decision exactly when it is redeemable. -/
theorem denyRedemption_answers (law : Rfc8785 lib) (hs : app.Serving lib i parse A) {data : Bytes}
    {reason : Reason} (hreason : reason ≠ .ALLOW ∧ reason ≠ .HANDLER_FAILED) (hu : Unread i h)
    (hl : Shown parse request l) :
    Body.Sat A (fun _ _ ↦ True) (fun h' r _ ↦
      (app.Redeemable i parse request h' → ∃ d, r = .ok d ∧ app.Reported lib d) ∧
      ∀ d, r = .ok d → app.Redeemable i parse request h')
      (app.denyRedemption lib i request (sha256Hex data) reason l) h () := by
  let a := denyArgs request (sha256Hex data) reason l
  have hdenies : a.Denies :=
    ⟨rfl, hreason, truthy_some.mp (truthy_sha256Hex data), rfl, rfl, rfl⟩
  have hencodable : a.Encodable ↔
      ∀ c, parse (.dict request.credential) = .ok c → c.credentialId.encodable = true := by
    constructor
    · intro ha c hc
      apply ha.credentialId
      change l.credentialId = _
      rw [hl.1, shownId, hc]
      rfl
    · intro hc
      refine ⟨?_, ?_, encodable_sha256Hex data, ?_⟩
      · intro t ht
        have ht : l.credentialId = some t := ht
        rw [hl.1, shownId, Option.map_eq_some_iff] at ht
        obtain ⟨c, hparse, rfl⟩ := ht
        apply hc
        cases hp : parse (.dict request.credential) with
        | error e =>
          rw [hp] at hparse
          cases hparse
        | ok c' =>
          rw [hp] at hparse
          cases hparse
          rfl
      · intro t ht
        obtain ⟨data', rfl⟩ := hl.2 t ht
        exact encodable_sha256Hex data'
      · rintro t ⟨⟩
        exact request.recordId.encodable
  unfold denyRedemption
  apply Body.Sat.bind (receipt_denies law hs hdenies hu)
  · rintro h' e _ _ ⟨hsigned, -⟩
    refine ⟨?_, nofun⟩
    rintro ⟨hrecord, hc⟩
    obtain ⟨_, _, ⟨⟩, -⟩ := hsigned ⟨hrecord, hencodable.mpr hc⟩
  · rintro h' receipt _ _ ⟨hsigned, hrecorded⟩
    obtain ⟨hrecord, harguments⟩ := hrecorded receipt rfl
    obtain ⟨_, fields, ⟨⟩, hreceipt, hreason, hdecision⟩ := hsigned ⟨hrecord, harguments⟩
    refine ⟨fun _ ↦ ⟨⟨false, reason, receipt, none⟩, rfl, ⟨fields, hreceipt, hreason, ?_⟩, ?_⟩,
      fun _ _ ↦ ⟨hrecord, hencodable.mp harguments⟩⟩
    · rw [hdecision]
      exact ⟨nofun, nofun⟩
    · exact writable_toDict nofun

/-- The receipt of an invocation is signed exactly when the policy and the counter have an
encoding. -/
theorem invocationReceipt_answers (law : Rfc8785 lib) (hs : app.Serving lib i parse A)
    {digest : Text} {n : Nat} {completed : Bool} (hu : Unread i h) (hpos : 1 ≤ n)
    (hn : ⟨.recordInvocation i, n⟩ ∈ h)
    (ha : (invocationArgs request digest l n completed).Invokes n)
    (he : (invocationArgs request digest l n completed).Encodable) :
    Body.Sat A (fun _ _ ↦ True) (fun h' r _ ↦
      (app.Recordable i h' → ∃ receipt fields, r = .ok receipt ∧ n < 2 ^ 53 ∧
        app.receiptSigner.Signed lib fields receipt ∧ fields.decision = .allow ∧
        fields.reason = if completed then .ALLOW else .HANDLER_FAILED) ∧
      ∀ receipt, r = .ok receipt → app.Recordable i h')
      (app.invocationReceipt lib i request digest l n completed) h () := by
  have hcount : ∀ q (m : Nat), Quiet q → A (h ++ q) ⟨.invocationCount i, m⟩ →
      ∀ n', (invocationArgs request digest l n completed).invocationId = some n' → n' ≤ m := by
    rintro q m _ hm n' ⟨⟩
    exact hs.counted _ n m (List.mem_append_left q hn) hm
  unfold invocationReceipt
  apply Body.Sat.attempt (receipt_exact law hs.working hs.replies hcount
    fun _ _ _ _ hid hnow hsnapshot hdigest ↦
      check_of_invokes hs.named ha hid hnow hpos (hsnapshot n rfl) hdigest)
  rintro h' r _ _ ⟨q, rfl, -, -, hsigned, hsignable⟩
  rw [Body.sat_ofExcept]
  rw [hu.signable_iff] at hsigned
  constructor
  · intro hrecord
    obtain ⟨receipt, receiptId, decidedAt, snapshot, policyDigest, rfl, hreceipt⟩ :=
      hsigned ⟨hrecord, he⟩
    exact ⟨receipt, _, rfl, (hsignable receipt rfl).2 n rfl, hreceipt, rfl, rfl⟩
  · intro receipt hr
    exact (hu.signable_iff.mp (hsignable receipt (mapError_eq_ok.mp hr)).1).1

/-- A validated result holds the quantity that the handler returned. -/
theorem quantity_of_modelValidate {raw : List (Text × Value)} {n : Nat}
    {result : InventoryLookupResult}
    (h : InventoryLookupResult.modelValidate
      (Value.setMember raw (text "invocation_number") (.int n)) = .ok result) :
    raw.lookup (text "quantity") = some (.int result.quantity) := by
  have hkeep : (Value.setMember raw (text "invocation_number") (.int n)).lookup (text "quantity") =
      raw.lookup (text "quantity") := Value.lookup_setMember_ne (by decide)
  rw [← hkeep]
  simp only [InventoryLookupResult.modelValidate, bind_eq_ok] at h
  obtain ⟨_, -, sku, -, h⟩ := h
  split at h
  · next quantity invocationNumber hquantity hnumber =>
    split at h
    · cases h
      exact hquantity
    · cases h
  · cases h

/-- What the arguments of an invocation are for an admitted call. -/
theorem invokes_invocationArgs {p : Presentation} (hp : p.Admitted lib app request h)
    (data : Bytes) (n : Nat) (completed : Bool) :
    (invocationArgs request (sha256Hex data) p.locals n completed).Invokes n ∧
      (invocationArgs request (sha256Hex data) p.locals n completed).Encodable := by
  obtain ⟨-, htoken⟩ := challengeTokenHash_eq_ok hp.checked.challenge.hashed
  constructor
  · refine ⟨rfl, ?_, rfl, ?_, ?_, truthy_some.mp (truthy_sha256Hex data), rfl, rfl⟩
    · cases completed with
      | true => exact .inl ⟨rfl, rfl⟩
      | false => exact .inr ⟨rfl, rfl⟩
    · change truthy (some p.tokenHash) = true
      rw [htoken]
      exact truthy_sha256Hex _
    · refine truthy_some.mpr fun hnil ↦ ?_
      have hlength := request.recordId.nonempty
      rw [hnil] at hlength
      cases hlength
  · refine ⟨?_, ?_, encodable_sha256Hex data, ?_⟩
    · rintro t ⟨⟩
      exact encodable_of_isLowerHexOf hp.checked.credential.identifier
    · rintro t ⟨⟩
      rw [htoken]
      exact encodable_sha256Hex _
    · rintro t ⟨⟩
      exact request.recordId.encodable

/-- An invocation is reported exactly when the policy and the counter have an encoding. -/
theorem invokeHandler_answers (law : Rfc8785 lib) (hs : app.Serving lib i parse A)
    {p : Presentation} {data : Bytes} (hu : Unread i h) (hp : p.Admitted lib app request h) :
    Body.Sat A (fun _ _ ↦ True) (fun h' r _ ↦
      (app.Recordable i h' → ∃ d, r = .ok d ∧ app.Reported lib d) ∧
      ∀ d, r = .ok d → app.Recordable i h')
      (app.invokeHandler lib i request (sha256Hex data) p.locals) h () := by
  unfold invokeHandler
  apply Body.Sat.perform trivial
  intro (n : Nat) hn
  have hpos := hs.numbered _ _ hn
  have hrun : Body.Sat A (fun _ _ ↦ True) (fun h' r _ ↦ Unread i h' ∧
      ⟨.recordInvocation i, n⟩ ∈ h' ∧ ∀ result, r = .ok result →
        (dumpsInt result.quantity).isSome = true ∧ result.invocationNumber = (n : Int))
      (runHandler i request.toInventoryArguments n) (h ++ [⟨.recordInvocation i, n⟩]) () := by
    have hread : ∀ reply, Unread i (h ++ [⟨.recordInvocation i, n⟩] ++
        [⟨.inventoryLookup i request.sku.val, reply⟩]) := by
      intro reply m hm
      simp [hu m] at hm
    unfold runHandler
    apply Body.Sat.invoke trivial
    · rintro r x _ rfl
      exact ⟨hread _, by simp, nofun⟩
    rintro r raw hr rfl
    rw [Body.sat_ofExcept]
    refine ⟨hread _, by simp, fun result hresult ↦ ?_⟩
    exact ⟨hs.handled _ _ _ _ hr (quantity_of_modelValidate hresult),
      invocationNumber_of_modelValidate hresult⟩
  apply Body.Sat.attempt hrun
  rintro h' outcome _ _ ⟨hu', hn', hresult⟩
  obtain ⟨hinvokes, hencodable⟩ := invokes_invocationArgs hp data n outcome.isOk
  cases outcome with
  | error e =>
    apply Body.Sat.bind (invocationReceipt_answers law hs hu' hpos hn' hinvokes hencodable)
    · rintro h'' x _ _ ⟨hsigned, -⟩
      refine ⟨fun hrecord ↦ ?_, nofun⟩
      obtain ⟨_, _, ⟨⟩, -⟩ := hsigned hrecord
    · rintro h'' receipt _ _ ⟨hsigned, hrecorded⟩
      have hrecord := hrecorded receipt rfl
      obtain ⟨_, fields, ⟨⟩, hlt, hreceipt, hdecision, hreason⟩ := hsigned hrecord
      refine ⟨fun _ ↦ ⟨_, rfl, ⟨fields, hreceipt, hreason, iff_of_true hdecision rfl⟩, ?_⟩,
        fun _ _ ↦ hrecord⟩
      apply writable_toDict
      rintro v ⟨⟩
      have hint : (dumpsInt (n : Int)).isSome = true := isSome_dumpsInt (by omega)
      rw [Json.writable, failedResult, Value.everywhere_dict]
      simp [Value.everywhere, dumpsStyle, hint]
  | ok result =>
    apply Body.Sat.bind (invocationReceipt_answers law hs hu' hpos hn' hinvokes hencodable)
    · rintro h'' x _ _ ⟨hsigned, -⟩
      refine ⟨fun hrecord ↦ ?_, nofun⟩
      obtain ⟨_, _, ⟨⟩, -⟩ := hsigned hrecord
    · rintro h'' receipt _ _ ⟨hsigned, hrecorded⟩
      have hrecord := hrecorded receipt rfl
      obtain ⟨_, fields, ⟨⟩, hlt, hreceipt, hdecision, hreason⟩ := hsigned hrecord
      refine ⟨fun _ ↦ ⟨_, rfl, ⟨fields, hreceipt, hreason, iff_of_true hdecision rfl⟩, ?_⟩,
        fun _ _ ↦ hrecord⟩
      apply writable_toDict
      rintro v ⟨⟩
      obtain ⟨hquantity, hnumber⟩ := hresult result rfl
      have hint : (dumpsInt (n : Int)).isSome = true := isSome_dumpsInt (by omega)
      rw [Json.writable, InventoryLookupResult.modelDump, Value.everywhere_dict, hnumber]
      simp [Value.everywhere, dumpsStyle, hint, hquantity]

/-- A redemption returns a decision exactly when it is redeemable, and the decision is reported. -/
theorem redeem_answers (law : Rfc8785 lib) (hs : app.Serving lib i parse A) :
    Body.Sat A (fun _ _ ↦ True) (fun h' r _ ↦
      (app.Redeemable i parse request h' → ∃ d, r = .ok d ∧ app.Reported lib d) ∧
      ∀ d, r = .ok d → app.Redeemable i parse request h')
      (app.redeem lib i request) [] () := by
  obtain ⟨digest, hd⟩ := exists_argumentsDigest law request.toInventoryArguments
  obtain ⟨data, -, rfl⟩ := canonicalDigest_eq_ok hd
  have hadmits : Body.Sat A (fun _ _ ↦ True) (fun h' r l' ↦ r = .ok () →
      ∃ p : Presentation, p.Admitted lib app request h' ∧ l' = p.locals)
      (app.authorize lib request (sha256Hex data)) [] ⟨none, none⟩ := by
    apply ((authorize_sat (i := i) hd).weaken fun _ _ _ ↦ trivial).mono
    rintro h' r l' hpost rfl
    obtain ⟨p, hp, hl, -⟩ := hpost
    exact ⟨p, hp, hl⟩
  unfold redeem
  rw [hd]
  apply Body.Sat.ofExcept
  · intro x hx
    cases hx
  rintro _ ⟨⟩
  apply Body.Sat.attempt ((hadmits.and (authorize_denies hs hd)).and
    ((authorize_shows hs).and authorize_unread))
  rintro h' outcome l' _ ⟨⟨hadmitted, hdenies⟩, hshown, hu⟩
  cases outcome with
  | error e => exact denyRedemption_answers law hs (hdenies e rfl) hu hshown
  | ok u =>
    obtain ⟨p, hp, rfl⟩ := hadmitted rfl
    have hid : ∀ c, parse (.dict request.credential) = .ok c → c.credentialId.encodable = true := by
      intro c hc
      have hshown : some p.credential.credentialId = shownId parse request := hshown.1
      rw [shownId, hc] at hshown
      rw [← Option.some.inj hshown]
      exact encodable_of_isLowerHexOf hp.checked.credential.identifier
    apply (invokeHandler_answers law hs hu hp).mono
    rintro h'' r _ ⟨hreported, hrecorded⟩
    exact ⟨fun hr ↦ hreported hr.1, fun d hd ↦ ⟨hrecorded d hd, hid⟩⟩

/-! ### Challenges -/

/-- A fresh token is issued and no other clock is read for it, unless the expiry is far beyond what
SQLite stores. -/
theorem issueCa2aChallengeAt_serves (hs : app.Serving lib i parse A) {secret : Bytes}
    {now ttl : Int} (hnow : 0 ≤ now) (hpos : 0 < ttl) {L : Type} {l : L} :
    Body.Sat A (fun _ _ ↦ True) (fun h' r _ ↦ ∃ b q, h' = h ++ q ∧ Quiet q ∧
      (∀ now', ⟨.clock, .ok now'⟩ ∉ q) ∧
      (r = .ok (challengeToken secret (now + ttl) (hex b), now + ttl) ∨
        2 ^ 63 ≤ now + ttl ∧ ∃ message, r = .error (.value message)))
      (issueCa2aChallengeAt secret now ttl) h l := by
  unfold issueCa2aChallengeAt callLib
  apply Body.Sat.raiseIf
  · intro hneg
    omega
  intro _
  apply Body.Sat.raiseIf
  · intro hneg
    omega
  intro _
  apply Body.Sat.perform trivial
  intro randomHex hr
  obtain ⟨b, -, rfl⟩ := hs.replies.tokenHex _ _ _ hr
  apply Body.Sat.raiseIf
  · intro hnone
    have hdigits : 10 ^ maxStrDigits ≤ (now + ttl).natAbs := str?_eq_none_iff.mp hnone
    have hlarge : 2 ^ 63 ≤ 10 ^ maxStrDigits :=
      (by norm_num : 2 ^ 63 ≤ 10 ^ 20).trans (Nat.pow_le_pow_right (by decide) (by decide))
    have hfar : 2 ^ 63 ≤ (now + ttl).natAbs := hlarge.trans hdigits
    exact ⟨b, _, rfl, quiet_nil.snoc rfl, by simp, .inr ⟨by omega, _, rfl⟩⟩
  intro _
  have hfresh : now < now + ttl := by omega
  apply Body.Sat.invoke trivial
  · intro r x hr hx
    obtain rfl := hs.verified _ _ _ _ _ _ hfresh hr
    cases hx
  rintro r u _ rfl
  rw [List.append_assoc]
  exact ⟨b, _, rfl, (quiet_nil.snoc rfl).snoc rfl, by simp, .inl rfl⟩

private theorem bindable_iff_storable (app : InventoryApplication)
    {tokenHash credentialId digest recordId : Text} {q : History} {issuedAt : Int}
    (htoken : tokenHash.encodable = true)
    (hid : credentialId.encodable = true) (hdigest : digest.encodable = true)
    (hrecord : recordId.encodable = true) (hissued : 0 ≤ issuedAt ∧ issuedAt < 2 ^ 63)
    (hclock : ∀ now, ⟨.clock, .ok now⟩ ∉ q) :
    let context := app.context credentialId digest recordId
    let expiresAt := issuedAt + app.policy.challengeTtlSeconds
    ∀ r, Bindable tokenHash context issuedAt expiresAt ↔
      app.Storable ([⟨.clock, .ok issuedAt⟩] ++ q ++
        [⟨.storeResourceChallenge tokenHash context issuedAt expiresAt, r⟩]) := by
  intro context expiresAt r
  have hpos := app.ttlPositive
  constructor
  · rintro ⟨-, -, hmethod, -, -, haudience, -, -, hexpiry⟩
    refine ⟨hmethod, haudience, fun now hmem ↦ ?_⟩
    have hmem : now = issuedAt := by simpa [hclock] using hmem
    rwa [hmem]
  · rintro ⟨hmethod, haudience, hexpiry⟩
    have hexpiry : issuedAt + app.policy.challengeTtlSeconds < 2 ^ 63 :=
      hexpiry issuedAt (by simp)
    exact ⟨htoken, hid, hmethod, hdigest, hrecord, haudience, by omega, by omega, hexpiry⟩

/-- A challenge is issued exactly when it can be stored, and otherwise something is raised that the
tool does not catch. -/
theorem issueResourceChallenge_serves (law : Rfc8785 lib) (hs : app.Serving lib i parse A)
    {input : ChallengeInput} (hid : input.credentialId.isLowerHexOf 64 = true) :
    Body.Sat A (fun _ _ ↦ True) (fun h' r _ ↦
      (app.Storable h' → ∃ challenge, r = .ok challenge ∧ StoredLast challenge h' ∧
        0 ≤ challenge.expiresAt ∧ challenge.expiresAt < 2 ^ 63) ∧
      (∀ challenge, r = .ok challenge → app.Storable h') ∧ ∀ e, r = .error e → isDenied e = false)
      (app.issueResourceChallenge lib input.credentialId input.toInventoryArguments
        input.recordId.val) [] () := by
  obtain ⟨digest, hdigest⟩ := exists_argumentsDigest law input.toInventoryArguments
  obtain ⟨data, -, hdata⟩ := canonicalDigest_eq_ok hdigest
  have hencodable : digest.encodable = true := hdata ▸ encodable_sha256Hex data
  unfold issueResourceChallenge readClock
  apply Body.Sat.raiseIf
  · intro hnot
    rw [hid] at hnot
    cases hnot
  intro _
  apply Body.Sat.invoke trivial
  · intro r x hr hx
    obtain ⟨now, rfl, -⟩ := hs.replies.clock _ _ hr
    cases hx
  rintro r issuedAt hr rfl
  obtain ⟨now, hnow, h0, hlt⟩ := hs.replies.clock _ _ hr
  cases hnow
  apply Body.Sat.bind (issueCa2aChallengeAt_serves hs h0 app.ttlPositive)
  · rintro h' e l' _ ⟨b, q, rfl, -, -, ⟨⟨⟩⟩ | ⟨hfar, _, ⟨⟩⟩⟩
    refine ⟨fun hstorable ↦ ?_, nofun, fun _ h ↦ by cases h; rfl⟩
    have hexpiry := hstorable.2.2 issuedAt (by simp)
    omega
  rintro h' ⟨token, expiresAt⟩ l' _ ⟨b, q, rfl, hq, hclock, ⟨⟨⟩⟩ | ⟨-, _, ⟨⟩⟩⟩
  let token := challengeToken app.challengeSecret (issuedAt + app.policy.challengeTtlSeconds)
    (hex b)
  have hhash : challengeTokenHash token = .ok (sha256Hex (utf8 token)) :=
    challengeTokenHash_of_encodable (encodable_challengeToken _ _ (encodable_hex b))
  have hquiet : Quiet ([⟨.clock, .ok issuedAt⟩] ++ q) := (quiet_nil.snoc rfl).append hq
  rw [hdigest]
  apply Body.Sat.ofExcept
  · intro x hx
    cases hx
  rintro _ ⟨⟩
  change Body.Sat A _ _ (Body.ofExcept (challengeTokenHash token) >>= _) _ _
  rw [hhash]
  apply Body.Sat.ofExcept
  · intro x hx
    cases hx
  rintro _ ⟨⟩
  have hbindable := bindable_iff_storable app (encodable_sha256Hex (utf8 token))
    (encodable_of_isLowerHexOf hid) hencodable input.recordId.encodable ⟨h0, by omega⟩ hclock
  apply Body.Sat.invoke trivial
  · rintro r x hr rfl
    obtain ⟨_, ⟨⟩⟩ | ⟨hnot, hraised⟩ := hs.stored _ _ _ _ _ _ hr
    refine ⟨fun hstorable ↦ absurd ((hbindable _).mpr hstorable) hnot,
      fun _ h ↦ (by cases h), ?_⟩
    rintro _ ⟨⟩
    rcases hraised with ⟨⟨⟩⟩ | ⟨⟨⟩⟩
    · rfl
    · rfl
  rintro r u hr rfl
  obtain ⟨hyes, -⟩ | ⟨-, ⟨⟨⟩⟩ | ⟨⟨⟩⟩⟩ := hs.stored _ _ _ _ _ _ hr
  refine ⟨fun _ ↦ ⟨_, rfl, ⟨_, _, _, hquiet, hhash, rfl⟩, ?_, hyes.2.2.2.2.2.2.2.2⟩,
    fun _ _ ↦ (hbindable _).mp hyes, fun _ h ↦ (by cases h)⟩
  have hpos := app.ttlPositive
  change 0 ≤ issuedAt + app.policy.challengeTtlSeconds
  omega

/-- A valid request for a challenge is answered exactly when the challenge can be stored; what the
tool raises otherwise is not caught. -/
theorem challengeTool_answers (law : Rfc8785 lib) (hs : app.Serving lib i parse A)
    {rawArguments : List (Text × Value)} {input : ChallengeInput}
    (hinput : ChallengeInput.modelValidate rawArguments = .ok input)
    (hid : input.credentialId.isLowerHexOf 64 = true) :
    Body.Sat A (fun _ _ ↦ True) (fun h' r _ ↦
      (app.Storable h' → ∃ result, r = .ok result ∧ app.Answers lib h' result) ∧
      (∀ result, r = .ok result → app.Storable h') ∧ ∀ e, r = .error e → isDenied e = false)
      (app.challengeTool lib rawArguments) [] () := by
  unfold challengeTool
  rw [hinput]
  apply Body.Sat.ofExcept
  · intro x hx
    cases hx
  rintro _ ⟨⟩
  apply Body.Sat.bind (issueResourceChallenge_serves law hs hid)
  · rintro h' e _ _ ⟨hstored, -, hraised⟩
    refine ⟨?_, fun _ h ↦ (by cases h), ?_⟩
    · intro hstorable
      obtain ⟨_, ⟨⟩, -⟩ := hstored hstorable
    · rintro _ ⟨⟩
      exact hraised e rfl
  · rintro h' challenge _ _ ⟨hstored, hstorable, -⟩
    have hstorable := hstorable challenge rfl
    obtain ⟨_, ⟨⟩, hlast, h0, hlt⟩ := hstored hstorable
    have hint : (dumpsInt challenge.expiresAt).isSome = true := isSome_dumpsInt (by omega)
    have hwritable : Json.writable (dumpsStyle lib) challenge.toDict = true := by
      rw [Json.writable, ResourceChallenge.toDict, Value.everywhere_dict]
      simp [Value.everywhere, dumpsStyle, hint]
    obtain ⟨encoded, hencoded⟩ := exists_mcpResult hwritable false
    rw [hencoded, Body.sat_ofExcept]
    exact ⟨fun _ ↦ ⟨_, rfl, .inl ⟨challenge, hlast, rfl, rfl⟩⟩, fun _ _ ↦ hstorable,
      fun _ h ↦ (by cases h)⟩

/-! ### The whole call -/

/-- A call that is served as a request for a challenge. -/
theorem route_challenge {rawArguments : List (Text × Value)} {input : ChallengeInput}
    (h : app.route name rawArguments = .challenge input) : name = text "inventory.challenge" ∧
      ChallengeInput.modelValidate rawArguments = .ok input ∧
      input.credentialId.isLowerHexOf 64 = true := by
  unfold route at h
  split at h
  · next hname =>
    split at h
    · next input' hinput =>
      split at h
      · next hid =>
        cases h
        exact ⟨hname, hinput, hid⟩
      · cases h
    · cases h
  · split at h
    · split at h
      · cases h
      · cases h
    · cases h

/-- A call that is served as a redemption. -/
theorem route_lookup {rawArguments : List (Text × Value)}
    (h : app.route name rawArguments = .lookup request) : name ≠ text "inventory.challenge" ∧
      name = app.policy.method ∧ LookupInput.modelValidate rawArguments = .ok request := by
  unfold route at h
  split at h
  · split at h
    · split at h
      · cases h
      · cases h
    · cases h
  · next hname =>
    split at h
    · next hmethod =>
      split at h
      · next request' hrequest =>
        cases h
        exact ⟨hname, hmethod, hrequest⟩
      · cases h
    · cases h

/-- The members of a decision name its reason. -/
theorem get?_toDict_reason (d : Decision) :
    d.toDict.get? (text "reason") = some (.str d.reason.value) := by
  obtain ⟨allowed, reason, receipt, result⟩ := d
  cases result with
  | none => rfl
  | some v => rfl

/-- What the lookup tool returns without a decision carries neither a challenge nor a decision. -/
theorem not_answers_of_error {e : Exn} {result : CallToolResult}
    (hr : lookupResult lib (.error e) = .ok result) : ¬app.Answers lib h result := by
  unfold lookupResult at hr
  split at hr
  · next heq => cases heq
  · next message n completed heq =>
    simp only [bind_eq_ok, unsignedPostInvocationState] at hr
    obtain ⟨state, ⟨_, -, hstate⟩, hr⟩ := hr
    cases hstate
    obtain ⟨hcontent, -⟩ := mcpResult_eq_ok hr
    rintro (⟨challenge, -, hchallenge, -⟩ | ⟨d, -, hd, -⟩)
    · rw [hcontent] at hchallenge
      have htoken := congrArg (Value.get? · (text "token")) hchallenge
      cases htoken
    · rw [hcontent] at hd
      have hreason := congrArg (Value.get? · (text "reason")) hd
      simp only [get?_toDict_reason] at hreason
      cases hreason
  · cases hr

/-- A tool call over working collaborators is answered exactly when it is answerable. -/
theorem callTool_answers (law : Rfc8785 lib) (hs : app.Serving lib i parse A)
    (hk : (Value.dict (arguments.getD [])).distinctKeys = true) :
    Body.Sat A (fun _ _ ↦ True) (fun h' r _ ↦
      (∃ result, r = .ok result ∧ app.Answers lib h' result) ↔
        app.Answerable i parse name (arguments.getD []) h')
      (app.callTool lib i name arguments) [] () := by
  unfold Answerable
  cases hroute : app.route name (arguments.getD []) with
  | direct =>
    rw [callTool_of_direct hroute]
    exact denyTool_answers law hs hk
  | challenge input =>
    obtain ⟨hname, hinput, hid⟩ := route_challenge hroute
    unfold callTool
    dsimp only
    rw [if_pos hname]
    apply Body.Sat.attempt (challengeTool_answers law hs hinput hid)
    rintro h' outcome _ _ ⟨hanswered, hstorable, hraised⟩
    cases outcome with
    | ok result =>
      have hstorable := hstorable result rfl
      exact iff_of_true (hanswered hstorable) hstorable
    | error e =>
      dsimp only
      rw [if_neg (by rw [hraised e rfl]; exact Bool.false_ne_true), Body.sat_raise]
      refine iff_of_false ?_ ?_
      · rintro ⟨_, ⟨⟩, -⟩
      · intro hstorable
        obtain ⟨_, ⟨⟩, -⟩ := hanswered hstorable
  | lookup request =>
    obtain ⟨hname, hmethod, hrequest⟩ := route_lookup hroute
    unfold callTool
    dsimp only
    rw [if_neg hname, if_pos hmethod, hrequest]
    apply Body.Sat.attempt (redeem_answers law hs)
    rintro h' outcome _ _ ⟨hreported, hredeemable⟩
    rw [Body.sat_ofExcept]
    cases outcome with
    | ok d =>
      have hredeemable := hredeemable d rfl
      obtain ⟨_, ⟨⟩, ⟨fields, hsigned, hreason, hdecision⟩, hwritable⟩ := hreported hredeemable
      obtain ⟨encoded, hencoded⟩ :=
        exists_mcpResult hwritable (!d.allowed || decide (d.reason = .HANDLER_FAILED))
      exact iff_of_true
        ⟨_, hencoded, .inr ⟨d, fields, rfl, hsigned, hreason, hdecision⟩⟩ hredeemable
    | error e =>
      refine iff_of_false ?_ ?_
      · rintro ⟨result, hresult, hanswers⟩
        exact not_answers_of_error hresult hanswers
      · intro hredeemable
        obtain ⟨_, ⟨⟩, -⟩ := hreported hredeemable

end Serving

end InventoryApplication
end Atcap
