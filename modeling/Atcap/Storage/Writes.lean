import Atcap.Storage.Invariant

/-!
# What a transaction writes

The rows that a transaction changes, by the way it ends. One that raises has written nothing, or
the `finally` clause raised after a complete commit.
-/

namespace Atcap

open Base

/-! ### Writes -/

section Writes

variable (a : SpendArgs) (now : Int)

/-- `consumed_at` of one challenge is set from NULL; every other challenge stays as it is. -/
structure ConsumesChallenge (db db' : Store) : Prop where
  own : ∃ row, db.resourceChallenges.find? a.tokenHash = some row ∧ row.consumedAt = none ∧
    db'.resourceChallenges.find? a.tokenHash = some (row.consume now)
  others : ∀ k, k ≠ a.tokenHash →
    db'.resourceChallenges.find? k = db.resourceChallenges.find? k
  broker : db'.brokerChallenges = db.brokerChallenges

/-- Only a challenge is consumed, for a credential that has a redemption. -/
structure ConsumesOnly (db db' : Store) : Prop extends ConsumesChallenge a now db db' where
  spent : db.spent a.context.credentialId = true
  redemptions : db'.credentialRedemptions = db.credentialRedemptions

/-- A challenge is consumed together with a new redemption row, at the same time. -/
structure ConsumesAndRedeems (db db' : Store) : Prop extends ConsumesChallenge a now db db' where
  unspent : db.spent a.context.credentialId = false
  redemptions : db'.credentialRedemptions.rows = db.credentialRedemptions.rows ++
    [⟨a.context.credentialId, a.tokenHash, a.context.recordId, now⟩]

/-- `consumed_at` of one broker challenge is set from NULL; everything else stays as it is. -/
structure ConsumesBroker (tokenHash : Text) (db db' : Store) : Prop where
  own : ∃ row, db.brokerChallenges.find? tokenHash = some row ∧ row.consumedAt = none ∧
    db'.brokerChallenges.find? tokenHash = some (row.consume now)
  others : ∀ k, k ≠ tokenHash → db'.brokerChallenges.find? k = db.brokerChallenges.find? k
  resources : db'.resourceChallenges = db.resourceChallenges
  redemptions : db'.credentialRedemptions = db.credentialRedemptions

end Writes

variable {a : SpendArgs} {now : Int} {db : Store} {row : ResourceChallengeRow}

/-- Selection of a challenge after a spend. -/
theorem find?_resource_spend (db : Store) (a : SpendArgs) (now : Int) (k : Text) :
    (db.spend a now).resourceChallenges.find? k = (db.resourceChallenges.find? k).map
      fun r ↦ if k = a.tokenHash ∧ r.consumedAt.isNone then r.consume now else r :=
  Table.find?_updateWhere (ResourceChallengeRow.consume now) (fun _ ↦ rfl)

/-- A committed spend consumes its challenge. -/
theorem Spendable.consumes (hs : Spendable db a row now) :
    ConsumesChallenge a now db (db.spend a now) where
  own := by
    refine ⟨row, hs.stored, hs.unconsumed, ?_⟩
    rw [find?_resource_spend, hs.stored, Option.map_some]
    simp [hs.unconsumed]
  others := by
    intro k hk
    rw [find?_resource_spend]
    simp [hk]
  broker := rfl

/-- A committed spend of a spent credential writes nothing else. -/
theorem Spendable.consumesOnly (hs : Spendable db a row now)
    (hspent : db.spent a.context.credentialId = true) :
    ConsumesOnly a now db (db.spend a now) where
  toConsumesChallenge := hs.consumes
  spent := hspent
  redemptions := by
    apply Table.ext
    rw [rows_redemptions_spend, if_pos hspent]

/-- A committed spend of an unspent credential writes its redemption row. -/
theorem Spendable.consumesAndRedeems (hs : Spendable db a row now)
    (hunspent : db.spent a.context.credentialId = false) :
    ConsumesAndRedeems a now db (db.spend a now) where
  toConsumesChallenge := hs.consumes
  unspent := hunspent
  redemptions := by
    rw [rows_redemptions_spend, hunspent]
    rfl

/-- A committed consumption of a broker challenge writes nothing else. -/
theorem BrokerConsumable.consumes {tokenHash : Text} {row : BrokerChallengeRow}
    (hs : BrokerConsumable db tokenHash row now) :
    ConsumesBroker now tokenHash db (db.consumeBroker tokenHash now) := by
  have hfind : ∀ k, (db.consumeBroker tokenHash now).brokerChallenges.find? k =
      (db.brokerChallenges.find? k).map
        fun r ↦ if k = tokenHash ∧ r.consumedAt.isNone then r.consume now else r :=
    fun k ↦ Table.find?_updateWhere (BrokerChallengeRow.consume now) (fun _ ↦ rfl)
  refine ⟨⟨row, hs.stored, hs.unconsumed, ?_⟩, ?_, rfl, rfl⟩
  · rw [hfind, hs.stored, Option.map_some]
    simp [hs.unconsumed]
  · intro k hk
    rw [hfind]
    simp [hk]

/-! ### Transactions that raise -/

/-- The reasons the transaction refuses with. -/
def lockedReasons : List Reason :=
  [.CHALLENGE_INVALID, .CHALLENGE_CONSUMED, .CHALLENGE_STALE, .CREDENTIAL_EXPIRED,
    .HOLDER_PROOF_INVALID, .INTERNAL_ERROR]

/-- No statement of an execution raises a `DecisionError`. -/
def Faults.Plain (f : Faults) : Prop := ∀ s e, f s = some e → e.isDecision = false

variable {f : Faults} {clock : Except Exn Int}

/-- A statement of a plain execution raises no `DecisionError`. -/
theorem Faults.Plain.check (hf : f.Plain) (s : Statement) : Atcap.Plain (f.check s) := by
  intro e he
  unfold Faults.check at he
  split at he
  · next e' hs =>
    cases he
    exact hf s e hs
  · cases he

/-- Binding a text raises no `DecisionError`. -/
theorem plain_bindText (t : Text) : Plain (bindText t) := by
  intro e he
  unfold bindText at he
  split at he
  · cases he
  · cases he
    rfl

/-- Binding an integer raises no `DecisionError`. -/
theorem plain_bindInt (n : Int) : Plain (bindInt n) := by
  intro e he
  unfold bindInt at he
  split at he
  · cases he
  · cases he
    rfl

/-- A read of a plain execution raises no `DecisionError`. -/
theorem plain_getResourceChallenge (hf : f.Plain) (tokenHash : Text) (db : Store) :
    Plain (db.getResourceChallenge tokenHash f) := by
  intro e he
  unfold Store.getResourceChallenge at he
  simp only [bind_eq_error] at he
  obtain he | ⟨_, _, he | ⟨_, _, he | ⟨_, _, he⟩⟩⟩ := he
  · exact hf.check _ e he
  · exact hf.check _ e he
  · exact plain_bindText _ e he
  · cases he

/-- An exception of the locked part is one of its refusals, or an internal error. -/
theorem denialReason_spendBody (hf : f.Plain) (hclock : Plain clock) {e : Exn}
    (h : spendBody a clock f db = .error e) : e.denialReason ∈ lockedReasons := by
  have hinternal : ∀ {α : Type} {r : Except Exn α}, Plain r → r = .error e →
      e.denialReason ∈ lockedReasons := by
    intro α r hr he
    rw [hr.denialReason he]
    decide
  unfold spendBody at h
  simp only [bind_eq_error] at h
  obtain h | ⟨_, _, h | ⟨lockedNow, _, h | ⟨_, _, h | ⟨_, _, h⟩⟩⟩⟩ := h
  · exact hinternal (hf.check _) h
  · exact hinternal hclock h
  · exact hinternal (hf.check _) h
  · exact hinternal (plain_bindText _) h
  split at h
  · cases h
    decide
  simp only [bind_eq_error, raiseIf_eq_error] at h
  obtain ⟨_, rfl⟩ | ⟨_, _, ⟨_, rfl⟩ | ⟨_, _, ⟨_, rfl⟩ | ⟨_, _, ⟨_, rfl⟩ | ⟨_, _, h⟩⟩⟩⟩ := h
  · decide
  · decide
  · decide
  · decide
  obtain h | ⟨_, _, h | ⟨_, _, h | ⟨_, _, h | ⟨_, _, h | ⟨_, _, ⟨_, rfl⟩ | ⟨_, _, h⟩⟩⟩⟩⟩⟩ := h
  · exact hinternal (hf.check _) h
  · exact hinternal (plain_bindText _) h
  · exact hinternal (plain_bindText _) h
  · exact hinternal (plain_bindInt _) h
  · exact hinternal (hf.check _) h
  · decide
  · obtain h | ⟨_, _, h⟩ := h
    · exact hinternal (hf.check _) h
    · cases h

/-- An exception of the consumption of a broker challenge is one of the refusals too. -/
theorem denialReason_consumeBrokerBody (hf : f.Plain) (hclock : Plain clock) {tokenHash : Text}
    {e : Exn} (h : consumeBrokerBody tokenHash clock f db = .error e) :
    e.denialReason ∈ lockedReasons := by
  have hinternal : ∀ {α : Type} {r : Except Exn α}, Plain r → r = .error e →
      e.denialReason ∈ lockedReasons := by
    intro α r hr he
    rw [hr.denialReason he]
    decide
  unfold consumeBrokerBody at h
  simp only [bind_eq_error] at h
  obtain h | ⟨_, _, h | ⟨lockedNow, _, h | ⟨_, _, h | ⟨_, _, h⟩⟩⟩⟩ := h
  · exact hinternal (hf.check _) h
  · exact hinternal hclock h
  · exact hinternal (hf.check _) h
  · exact hinternal (plain_bindText _) h
  split at h
  · cases h
    decide
  simp only [bind_eq_error, raiseIf_eq_error] at h
  obtain ⟨_, rfl⟩ | ⟨_, _, ⟨_, rfl⟩ | ⟨_, _, h | ⟨_, _, h | ⟨_, _, ⟨_, rfl⟩ | ⟨_, _, h⟩⟩⟩⟩⟩ := h
  · decide
  · decide
  · exact hinternal (hf.check _) h
  · exact hinternal (plain_bindInt _) h
  · decide
  · obtain h | ⟨_, _, h⟩ := h
    · exact hinternal (hf.check _) h
    · cases h

/-- A transaction that raises has written nothing, or has committed and only failed to close. -/
theorem transaction_error {α : Type} {body : Store → Except Exn (α × Store)} {e : Exn}
    (h : (transaction f body db).1 = .error e) :
    ((transaction f body db).2 = db ∧ (body db = .error e ∨ ∃ s, f.check s = .error e)) ∨
    (f.check .close = .error e ∧ ∃ a, body db = .ok (a, (transaction f body db).2)) := by
  unfold transaction at h ⊢
  cases hc : f.check .connect with
  | error e' =>
    rw [hc] at h
    cases h
    exact .inl ⟨rfl, .inr ⟨.connect, hc⟩⟩
  | ok u =>
    rw [hc] at h
    cases hb : body db with
    | ok r =>
      right
      rw [hb] at h
      cases hclose : f.check .close with
      | ok _ =>
        rw [hclose] at h
        cases h
      | error e' =>
        rw [hclose] at h
        cases h
        exact ⟨rfl, r.1, rfl⟩
    | error e' =>
      left
      rw [hb] at h
      cases hclose : f.check .close with
      | error e'' =>
        rw [hclose] at h
        cases h
        cases f.check .rollback <;> exact ⟨rfl, .inr ⟨.close, hclose⟩⟩
      | ok _ =>
        rw [hclose] at h
        cases hroll : f.check .rollback with
        | error e'' =>
          rw [hroll] at h
          cases h
          exact ⟨rfl, .inr ⟨.rollback, hroll⟩⟩
        | ok _ =>
          rw [hroll] at h
          cases h
          exact ⟨rfl, .inl rfl⟩

/-- A spend that raises has written nothing, or has committed and only failed to close. -/
theorem spend_error (hf : f.Plain) (hclock : Plain clock) {e : Exn}
    (h : (Store.consumeChallengeAndSpendCredential a clock f db).1 = .error e) :
    ((Store.consumeChallengeAndSpendCredential a clock f db).2 = db ∧
      e.denialReason ∈ lockedReasons) ∨
    e.denialReason = .INTERNAL_ERROR ∧ ∃ row now, clock = .ok now ∧ Spendable db a row now ∧
      (Store.consumeChallengeAndSpendCredential a clock f db).2 = db.spend a now := by
  rcases transaction_error h with ⟨hsame, hbody | ⟨s, hs⟩⟩ | ⟨hclose, res, hbody⟩
  · exact .inl ⟨hsame, denialReason_spendBody hf hclock hbody⟩
  · left
    refine ⟨hsame, ?_⟩
    rw [(hf.check s).denialReason hs]
    decide
  · obtain ⟨row, now, hnow, hspendable, hdb, _⟩ := spendBody_ok hbody
    exact .inr ⟨(hf.check _).denialReason hclose, row, now, hnow, hspendable, hdb⟩

/-- A consumption of a broker challenge that raises has written nothing, or has committed and only
failed to close. -/
theorem consumeBroker_error (hf : f.Plain) {tokenHash : Text} {e : Exn}
    (h : (Store.consumeBrokerChallenge tokenHash clock f db).1 = .error e) :
    (Store.consumeBrokerChallenge tokenHash clock f db).2 = db ∨
    e.denialReason = .INTERNAL_ERROR ∧ ∃ row now, BrokerConsumable db tokenHash row now ∧
      (Store.consumeBrokerChallenge tokenHash clock f db).2 = db.consumeBroker tokenHash now := by
  rcases transaction_error h with ⟨hsame, _⟩ | ⟨hclose, u, hbody⟩
  · exact .inl hsame
  · obtain ⟨row, now, _, hconsumable, hdb⟩ := consumeBrokerBody_ok hbody
    exact .inr ⟨(hf.check _).denialReason hclose, row, now, hconsumable, hdb⟩

/-- What the consumption of a broker challenge raises is one of the refusals. -/
theorem consumeBroker_refusal (hf : f.Plain) (hclock : Plain clock) {tokenHash : Text} {e : Exn}
    (h : (Store.consumeBrokerChallenge tokenHash clock f db).1 = .error e) :
    e.denialReason ∈ lockedReasons := by
  have hinternal : ∀ {s : Statement}, f.check s = .error e → e.denialReason ∈ lockedReasons := by
    intro s hs
    rw [(hf.check s).denialReason hs]
    decide
  rcases transaction_error h with ⟨_, hbody | ⟨_, hs⟩⟩ | ⟨hclose, _⟩
  · exact denialReason_consumeBrokerBody hf hclock hbody
  · exact hinternal hs
  · exact hinternal hclose

end Atcap
