import Atcap.Storage

/-!
# What the store operations do

Each operation of `SQLiteStore` either leaves the database as it is or makes one complete
change. These are the only facts about the operations that the rest of the development uses.
-/

namespace Atcap

open Base

/-- The committed effect of `consume_broker_challenge`. -/
def Store.consumeBroker (tokenHash : Text) (now : Int) (db : Store) : Store :=
  { db with brokerChallenges := (db.brokerChallenges.updateWhere (BrokerChallengeRow.consume now)
      (BrokerChallengeRow.tokenHash_consume now) tokenHash (fun r ↦ r.consumedAt.isNone)).1 }

/-- The redemption row a spend tries to insert. -/
def SpendArgs.redemption (a : SpendArgs) (now : Int) : RedemptionRow :=
  ⟨a.context.credentialId, a.tokenHash, a.context.recordId, now⟩

/-- The committed effect of `consume_challenge_and_spend_credential`. -/
def Store.spend (a : SpendArgs) (now : Int) (db : Store) : Store :=
  { db with
    resourceChallenges := (db.resourceChallenges.updateWhere (ResourceChallengeRow.consume now)
      (ResourceChallengeRow.tokenHash_consume now) a.tokenHash (fun r ↦ r.consumedAt.isNone)).1
    credentialRedemptions := (db.credentialRedemptions.insertOrIgnore (a.redemption now)).1 }

/-- Whether a credential has a redemption row. -/
def Store.spent (credentialId : Text) (db : Store) : Bool :=
  (db.credentialRedemptions.find? credentialId).isSome

/-- What the locked part of a consumption has checked of a broker challenge. -/
structure BrokerConsumable (db : Store) (tokenHash : Text) (row : BrokerChallengeRow) (now : Int) :
    Prop where
  stored : db.brokerChallenges.find? tokenHash = some row
  unconsumed : row.consumedAt = none
  fresh : now < row.expiresAt

/-- What the locked part of a spend has checked of a resource challenge. -/
structure Spendable (db : Store) (a : SpendArgs) (row : ResourceChallengeRow) (now : Int) :
    Prop where
  stored : db.resourceChallenges.find? a.tokenHash = some row
  unconsumed : row.consumedAt = none
  fresh : now < row.expiresAt
  notBefore : a.credentialNotBefore ≤ now
  notAfter : now ≤ a.credentialNotAfter
  bound : row.context = a.context

/-! ### Transactions -/

/-- A transaction that returns a value has committed its body. -/
theorem transaction_ok {α : Type} {f : Faults} {body : Store → Except Exn (α × Store)}
    {db db' : Store} {a : α} (h : transaction f body db = (.ok a, db')) :
    body db = .ok (a, db') := by
  unfold transaction at h
  split at h
  · cases h
  · dsimp only at h
    split at h
    · split at h
      · next hb =>
        rw [hb]
        cases h
        rfl
      · split at h
        · cases h
        · cases h
    · cases h

/-- Whether a transaction reaches the end of its body, where it has committed. -/
def committed {α : Type} (f : Faults) (body : Store → Except Exn (α × Store)) (db : Store) : Bool :=
  (f.check .connect).isOk && (body db).isOk

/-- A transaction commits its whole body or nothing. -/
theorem transaction_cases {α : Type} (f : Faults) (body : Store → Except Exn (α × Store))
    (db : Store) :
    (committed f body db = true ∧ ∃ a, body db = .ok (a, (transaction f body db).2)) ∨
      (committed f body db = false ∧ (transaction f body db).2 = db) := by
  unfold committed transaction
  cases hc : f.check .connect with
  | error e => exact .inr ⟨rfl, rfl⟩
  | ok u =>
    cases hb : body db with
    | error e =>
      right
      refine ⟨rfl, ?_⟩
      dsimp only
      cases f.check .rollback with
      | error e' =>
        cases f.check .close with
        | error e'' => rfl
        | ok _ => rfl
      | ok _ =>
        cases f.check .close with
        | error e'' => rfl
        | ok _ => rfl
    | ok r =>
      left
      refine ⟨rfl, r.1, ?_⟩
      dsimp only
      cases f.check .close with
      | error e'' => rfl
      | ok _ => rfl

/-- Without faults a transaction is its body, with the database kept on an exception. -/
theorem transaction_none {α : Type} (body : Store → Except Exn (α × Store)) (db : Store) :
    transaction Faults.none body db =
      match body db with
      | .ok (a, db') => (.ok a, db')
      | .error e => (.error e, db) := rfl

/-! ### Broker challenges -/

/-- `store_broker_challenge` changes nothing, or adds one unconsumed row under a free key. -/
theorem storeBrokerChallenge_cases (tokenHash : Text) (issuedAt expiresAt : Int) (f : Faults)
    (db : Store) :
    ((Store.storeBrokerChallenge tokenHash issuedAt expiresAt f db).2 = db ∧
      ∃ e, (Store.storeBrokerChallenge tokenHash issuedAt expiresAt f db).1 = .error e) ∨
    ∃ t, db.brokerChallenges.insert? ⟨tokenHash, issuedAt, expiresAt, none⟩ = some t ∧
      Store.storeBrokerChallenge tokenHash issuedAt expiresAt f db =
        (.ok (), { db with brokerChallenges := t }) := by
  unfold Store.storeBrokerChallenge
  dsimp only
  split
  · next db' h =>
    simp only [bind_eq_ok] at h
    obtain ⟨_, _, _, _, _, _, _, _, _, _, h⟩ := h
    right
    split at h
    · next t ht =>
      cases h
      exact ⟨t, ht, rfl⟩
    · cases h
  · next e h => exact .inl ⟨rfl, e, rfl⟩

/-- What a committed `consume_broker_challenge` checked and did. -/
theorem consumeBrokerBody_ok {tokenHash : Text} {clock : Except Exn Int} {f : Faults}
    {db db' : Store} {u : Unit} (h : consumeBrokerBody tokenHash clock f db = .ok (u, db')) :
    ∃ row now, clock = .ok now ∧ BrokerConsumable db tokenHash row now ∧
      db' = db.consumeBroker tokenHash now := by
  unfold consumeBrokerBody at h
  simp only [bind_eq_ok] at h
  obtain ⟨_, _, now, hclock, _, _, _, _, h⟩ := h
  split at h
  · cases h
  · next row hrow =>
    simp only [bind_eq_ok, raiseIf_eq_ok] at h
    obtain ⟨_, hconsumed, _, hfresh, _, _, _, _, _, _, _, _, h⟩ := h
    cases h
    refine ⟨row, now, hclock, ⟨hrow, ?_, ?_⟩, rfl⟩
    · simpa using hconsumed
    · omega

/-- `consume_broker_challenge` changes nothing, or consumes a fresh stored challenge. -/
theorem consumeBrokerChallenge_cases (tokenHash : Text) (clock : Except Exn Int) (f : Faults)
    (db : Store) :
    (Store.consumeBrokerChallenge tokenHash clock f db).2 = db ∨
    ∃ row now, clock = .ok now ∧ BrokerConsumable db tokenHash row now ∧
      (Store.consumeBrokerChallenge tokenHash clock f db).2 = db.consumeBroker tokenHash now := by
  rcases transaction_cases f (consumeBrokerBody tokenHash clock f) db with ⟨_, u, h⟩ | ⟨_, h⟩
  · exact .inr (consumeBrokerBody_ok h)
  · exact .inl h

/-- A `consume_broker_challenge` that returns has consumed a fresh stored challenge. -/
theorem consumeBrokerChallenge_ok {tokenHash : Text} {clock : Except Exn Int} {f : Faults}
    {db db' : Store} {u : Unit}
    (h : Store.consumeBrokerChallenge tokenHash clock f db = (.ok u, db')) :
    ∃ row now, clock = .ok now ∧ BrokerConsumable db tokenHash row now ∧
      db' = db.consumeBroker tokenHash now :=
  consumeBrokerBody_ok (transaction_ok h)

/-! ### Resource challenges -/

/-- `store_resource_challenge` changes nothing, or adds one unconsumed row under a free key. -/
theorem storeResourceChallenge_cases (tokenHash : Text) (context : ChallengeContext)
    (issuedAt expiresAt : Int) (f : Faults) (db : Store) :
    ((Store.storeResourceChallenge tokenHash context issuedAt expiresAt f db).2 = db ∧
      ∃ e, (Store.storeResourceChallenge tokenHash context issuedAt expiresAt f db).1 = .error e) ∨
    ∃ t, db.resourceChallenges.insert? ⟨tokenHash, context.credentialId, context.method,
        context.argumentsDigest, context.recordId, context.audience, issuedAt, expiresAt, none⟩ =
          some t ∧
      Store.storeResourceChallenge tokenHash context issuedAt expiresAt f db =
        (.ok (), { db with resourceChallenges := t }) := by
  unfold Store.storeResourceChallenge
  dsimp only
  split
  · next db' h =>
    simp only [bind_eq_ok] at h
    obtain ⟨_, _, _, _, _, _, _, _, _, _, _, _, _, _, _, _, _, _, _, _, h⟩ := h
    right
    split at h
    · next t ht =>
      cases h
      exact ⟨t, ht, rfl⟩
    · cases h
  · next e h => exact .inl ⟨rfl, e, rfl⟩

/-- A challenge row that SQLite can bind. -/
def Bindable (tokenHash : Text) (context : ChallengeContext) (issuedAt expiresAt : Int) : Prop :=
  tokenHash.encodable = true ∧ context.credentialId.encodable = true ∧
    context.method.encodable = true ∧ context.argumentsDigest.encodable = true ∧
    context.recordId.encodable = true ∧ context.audience.encodable = true ∧
    (-2 ^ 63 ≤ issuedAt ∧ issuedAt < 2 ^ 63) ∧ -2 ^ 63 ≤ expiresAt ∧ expiresAt < 2 ^ 63

/-- A text is bound when it has a UTF-8 encoding. -/
theorem bindText_eq_ok {t : Text} {u : Unit} : bindText t = .ok u ↔ t.encodable = true := by
  unfold bindText
  split
  · next h => exact iff_of_true rfl h
  · next h => exact iff_of_false nofun h

/-- Any other text raises `UnicodeEncodeError`. -/
theorem bindText_eq_error {t : Text} {e : Exn} :
    bindText t = .error e ↔ t.encodable = false ∧ e = .unicodeEncode := by
  unfold bindText
  split
  · next h => simp [h]
  · next h => simp [h, eq_comm]

/-- An integer is bound when it has 64 bits. -/
theorem bindInt_eq_ok {n : Int} {u : Unit} : bindInt n = .ok u ↔ -2 ^ 63 ≤ n ∧ n < 2 ^ 63 := by
  unfold bindInt
  split
  · next h => exact iff_of_true rfl h
  · next h => exact iff_of_false nofun h

/-- Any other integer raises `OverflowError`. -/
theorem bindInt_eq_error {n : Int} {e : Exn} :
    bindInt n = .error e ↔ ¬(-2 ^ 63 ≤ n ∧ n < 2 ^ 63) ∧ e = .overflow := by
  unfold bindInt
  split
  · next h => exact iff_of_false nofun fun h' ↦ h'.1 h
  · next h =>
    rw [Except.error.injEq, and_iff_right h]
    exact eq_comm

/-- Without a failing statement a challenge is stored exactly when its row can be bound, unless its
key is taken. -/
theorem storeResourceChallenge_bindable (tokenHash : Text) (context : ChallengeContext)
    (issuedAt expiresAt : Int) (db : Store) {r : Except Exn Unit}
    (hr : r =
      (Store.storeResourceChallenge tokenHash context issuedAt expiresAt Faults.none db).1) :
    (Bindable tokenHash context issuedAt expiresAt ∧ (r = .ok () ∨ r = .error .integrity)) ∨
      ¬Bindable tokenHash context issuedAt expiresAt ∧
        (r = .error .unicodeEncode ∨ r = .error .overflow) := by
  have hcheck : ∀ s, Faults.none.check s = .ok () := fun _ ↦ rfl
  unfold Store.storeResourceChallenge at hr
  simp only [hcheck] at hr
  split at hr
  · next db' h =>
    simp only [bind_eq_ok, bindText_eq_ok, bindInt_eq_ok] at h
    obtain ⟨_, -, _, -, _, h₁, _, h₂, _, h₃, _, h₄, _, h₅, _, h₆, _, h₇, _, h₈, -⟩ := h
    exact .inl ⟨⟨h₁, h₂, h₃, h₄, h₅, h₆, h₇, h₈⟩, .inl hr⟩
  · next e h =>
    simp only [bind_eq_error, bindText_eq_error, bindInt_eq_error, bindText_eq_ok,
      bindInt_eq_ok, reduceCtorEq, false_or, exists_and_left, exists_const, true_and] at h
    by_cases hb : Bindable tokenHash context issuedAt expiresAt
    · have hbound := hb
      obtain ⟨h₁, h₂, h₃, h₄, h₅, h₆, h₇, h₈⟩ := hbound
      simp only [h₁, h₂, h₃, h₄, h₅, h₆, h₇, h₈, Bool.true_eq_false, false_and, true_and, and_true,
        false_or, not_true_eq_false] at h
      refine .inl ⟨hb, .inr ?_⟩
      split at h
      · cases h
      · cases h
        exact hr
    · -- The first value that cannot be bound decides the exception.
      refine .inr ⟨hb, ?_⟩
      rcases h with ⟨-, rfl⟩ | ⟨h₁, ⟨-, rfl⟩ | ⟨h₂, ⟨-, rfl⟩ | ⟨h₃, ⟨-, rfl⟩ | ⟨h₄, ⟨-, rfl⟩ |
        ⟨h₅, ⟨-, rfl⟩ | ⟨h₆, ⟨-, rfl⟩ | ⟨h₇, ⟨-, rfl⟩ | ⟨h₈, -⟩⟩⟩⟩⟩⟩⟩⟩
      · exact .inl hr
      · exact .inl hr
      · exact .inl hr
      · exact .inl hr
      · exact .inl hr
      · exact .inl hr
      · exact .inr hr
      · exact .inr hr
      · exact absurd ⟨h₁, h₂, h₃, h₄, h₅, h₆, h₇, h₈⟩ hb

/-- A read that returns gives the committed row under the key. -/
theorem getResourceChallenge_ok {tokenHash : Text} {f : Faults} {db : Store}
    {row : Option ResourceChallengeRow} (h : db.getResourceChallenge tokenHash f = .ok row) :
    row = db.resourceChallenges.find? tokenHash := by
  unfold Store.getResourceChallenge at h
  simp only [bind_eq_ok] at h
  obtain ⟨_, _, _, _, _, _, h⟩ := h
  cases h
  rfl

/-- What a committed spend checked, did and reports. -/
theorem spendBody_ok {a : SpendArgs} {clock : Except Exn Int} {f : Faults} {db db' : Store}
    {res : CredentialSpendResult} (h : spendBody a clock f db = .ok (res, db')) :
    ∃ row now, clock = .ok now ∧ Spendable db a row now ∧ db' = db.spend a now ∧
      res = ⟨!db.spent a.context.credentialId, now, row.expiresAt⟩ := by
  unfold spendBody at h
  simp only [bind_eq_ok] at h
  obtain ⟨_, _, now, hclock, _, _, _, _, h⟩ := h
  split at h
  · cases h
  · next row hrow =>
    simp only [bind_eq_ok, raiseIf_eq_ok] at h
    obtain ⟨_, hconsumed, _, hfresh, _, hwindow, _, hbound, _, _, _, _, _, _, _, _, _, _, _, _, _,
      _, h⟩ := h
    simp only [pure, Except.pure, Except.ok.injEq, Prod.mk.injEq] at h
    obtain ⟨hres, hdb⟩ := h
    rw [not_or] at hwindow
    refine ⟨row, now, hclock, ⟨hrow, ?_, ?_, ?_, ?_, ?_⟩, hdb.symm, ?_⟩
    · simpa using hconsumed
    · omega
    · omega
    · omega
    · exact not_not.mp hbound
    · rw [← hres]
      congr 1
      -- The row count of `INSERT OR IGNORE` tells whether the credential was spent before.
      rcases db.credentialRedemptions.insertOrIgnore_cases (a.redemption now) with
        ⟨hnone, hone, _⟩ | ⟨⟨r, hr, hk⟩, hzero⟩
      · change decide ((db.credentialRedemptions.insertOrIgnore (a.redemption now)).2 = 1) = _
        rw [hone]
        have hn : db.credentialRedemptions.find? a.context.credentialId = none := hnone
        simp [Store.spent, hn]
      · change decide ((db.credentialRedemptions.insertOrIgnore (a.redemption now)).2 = 1) = _
        rw [hzero]
        have hs : db.credentialRedemptions.find? a.context.credentialId = some r :=
          db.credentialRedemptions.find?_eq_some.mpr ⟨hr, hk⟩
        simp [Store.spent, hs]

/-- `consume_challenge_and_spend_credential` changes nothing, or commits a complete spend. -/
theorem spend_cases (a : SpendArgs) (clock : Except Exn Int) (f : Faults) (db : Store) :
    (Store.consumeChallengeAndSpendCredential a clock f db).2 = db ∨
    ∃ row now, clock = .ok now ∧ Spendable db a row now ∧
      (Store.consumeChallengeAndSpendCredential a clock f db).2 = db.spend a now := by
  rcases transaction_cases f (spendBody a clock f) db with ⟨_, res, h⟩ | ⟨_, h⟩
  · obtain ⟨row, now, hclock, hs, hdb, _⟩ := spendBody_ok h
    exact .inr ⟨row, now, hclock, hs, hdb⟩
  · exact .inl h

/-- A spend that returns has committed, and reports whether it was the first. -/
theorem spend_ok {a : SpendArgs} {clock : Except Exn Int} {f : Faults} {db db' : Store}
    {res : CredentialSpendResult}
    (h : Store.consumeChallengeAndSpendCredential a clock f db = (.ok res, db')) :
    ∃ row now, clock = .ok now ∧ Spendable db a row now ∧ db' = db.spend a now ∧
      res = ⟨!db.spent a.context.credentialId, now, row.expiresAt⟩ :=
  spendBody_ok (transaction_ok h)

/-- A stored challenge has times that SQLite can store. -/
theorem storeResourceChallenge_ok {tokenHash : Text} {context : ChallengeContext}
    {issuedAt expiresAt : Int} {f : Faults} {db : Store}
    (h : (Store.storeResourceChallenge tokenHash context issuedAt expiresAt f db).1 = .ok ()) :
    bindInt issuedAt = .ok () ∧ bindInt expiresAt = .ok () := by
  unfold Store.storeResourceChallenge at h
  dsimp only at h
  split at h
  · next db' hins =>
    simp only [bind_eq_ok] at hins
    obtain ⟨_, _, _, _, _, _, _, _, _, _, _, _, _, _, _, _, _, hissued, _, hexpires, _⟩ := hins
    exact ⟨hissued, hexpires⟩
  · cases h

/-- Without faults, a spend that raises has changed nothing. -/
theorem spend_faultless_error {a : SpendArgs} {clock : Except Exn Int} {db : Store} {e : Exn}
    (h : (Store.consumeChallengeAndSpendCredential a clock Faults.none db).1 = .error e) :
    (Store.consumeChallengeAndSpendCredential a clock Faults.none db).2 = db := by
  unfold Store.consumeChallengeAndSpendCredential at h ⊢
  rw [transaction_none] at h ⊢
  cases hb : spendBody a clock Faults.none db with
  | ok r =>
    rw [hb] at h
    cases h
  | error e' => rfl

/-- Without faults, a spend of a fresh, bound challenge inside the validity window either finds
it consumed or commits. -/
theorem spend_faultless {a : SpendArgs} {now : Int} {db : Store} {row : ResourceChallengeRow}
    (hrow : db.resourceChallenges.find? a.tokenHash = some row) (hfresh : now < row.expiresAt)
    (hlower : a.credentialNotBefore ≤ now) (hupper : now ≤ a.credentialNotAfter)
    (hbound : row.context = a.context) (hhash : bindText a.tokenHash = .ok ())
    (hcredential : bindText a.context.credentialId = .ok ())
    (hrecord : bindText a.context.recordId = .ok ()) (hnow : bindInt now = .ok ()) :
    (row.consumedAt.isSome = true ∧ ∃ message,
      Store.consumeChallengeAndSpendCredential a (.ok now) Faults.none db =
        (.error (.decision .CHALLENGE_CONSUMED message), db)) ∨
    (row.consumedAt = none ∧
      Store.consumeChallengeAndSpendCredential a (.ok now) Faults.none db =
        (.ok ⟨!db.spent a.context.credentialId, now, row.expiresAt⟩, db.spend a now)) := by
  unfold Store.consumeChallengeAndSpendCredential
  rw [transaction_none]
  have hcheck : ∀ s, Faults.none.check s = .ok () := fun _ ↦ rfl
  cases hc : row.consumedAt with
  | some t =>
    left
    refine ⟨rfl, "resource challenge was consumed", ?_⟩
    have hbody : spendBody a (.ok now) Faults.none db =
        .error (.decision .CHALLENGE_CONSUMED "resource challenge was consumed") := by
      simp [spendBody, hcheck, hhash, hrow, hc, raiseIf, bind, Except.bind]
    rw [hbody]
  | none =>
    right
    refine ⟨rfl, ?_⟩
    have hcount := Table.updateWhere_count (ResourceChallengeRow.consume now) (fun _ ↦ rfl)
      (p := fun r ↦ r.consumedAt.isNone) hrow (by rw [hc]; rfl)
    have hbody : ∃ res db', spendBody a (.ok now) Faults.none db = .ok (res, db') := by
      simp [spendBody, hcheck, hhash, hrow, hc, raiseIf, bind, Except.bind, hfresh.not_ge,
        hlower.not_gt, hupper.not_gt, hbound, hcredential, hrecord, hnow, hcount]
      exact ⟨_, _, rfl⟩
    obtain ⟨res, db', hbody⟩ := hbody
    obtain ⟨row', now', hclock, hs, hdb, hres⟩ := spendBody_ok hbody
    cases hclock
    have hsame := hs.stored
    rw [hrow, Option.some.injEq] at hsame
    rw [hbody, hdb, hres, hsame]

/-- Without faults, a broker challenge is consumed exactly when it is stored, not consumed and not
expired. -/
theorem consumeBroker_faultless {tokenHash : Text} {now : Int} {db : Store}
    (hhash : bindText tokenHash = .ok ()) (hnow : bindInt now = .ok ()) :
    (∃ u, (Store.consumeBrokerChallenge tokenHash (.ok now) Faults.none db).1 = .ok u) ↔
      ∃ row, BrokerConsumable db tokenHash row now := by
  constructor
  · rintro ⟨u, hu⟩
    obtain ⟨row, now', hclock, hrow, _⟩ := consumeBrokerChallenge_ok (Prod.ext hu rfl)
    cases hclock
    exact ⟨row, hrow⟩
  · rintro ⟨row, hrow, hnone, hfresh⟩
    unfold Store.consumeBrokerChallenge
    rw [transaction_none]
    have hcheck : ∀ s, Faults.none.check s = .ok () := fun _ ↦ rfl
    have hcount := Table.updateWhere_count (BrokerChallengeRow.consume now) (fun _ ↦ rfl)
      (p := fun r ↦ r.consumedAt.isNone) hrow (by rw [hnone]; rfl)
    have hbody : ∃ u db', consumeBrokerBody tokenHash (.ok now) Faults.none db = .ok (u, db') := by
      simp [consumeBrokerBody, hcheck, hhash, hrow, hnone, raiseIf, bind, Except.bind,
        hfresh.not_ge, hnow, hcount]
      exact ⟨_, _, rfl⟩
    obtain ⟨u, db', hbody⟩ := hbody
    exact ⟨u, by rw [hbody]⟩

/-! ### Rows after a change -/

/-- A spend adds its redemption row exactly when the credential was not spent before. -/
theorem rows_redemptions_spend (db : Store) (a : SpendArgs) (now : Int) :
    (db.spend a now).credentialRedemptions.rows =
      if db.spent a.context.credentialId then db.credentialRedemptions.rows
      else db.credentialRedemptions.rows ++ [a.redemption now] := by
  simp only [Store.spend]
  rcases db.credentialRedemptions.insertOrIgnore_cases (a.redemption now) with
    ⟨hnone, _, hrows⟩ | ⟨⟨r, hr, hk⟩, hzero⟩
  · have hn : db.credentialRedemptions.find? a.context.credentialId = none := hnone
    rw [hrows]
    simp [Store.spent, hn]
  · have hs : db.credentialRedemptions.find? a.context.credentialId = some r :=
      db.credentialRedemptions.find?_eq_some.mpr ⟨hr, hk⟩
    rw [hzero]
    simp [Store.spent, hs]

/-- A spend consumes its challenge and keeps every other one. -/
theorem mem_resource_spend {db : Store} {a : SpendArgs} {now : Int} {c : ResourceChallengeRow} :
    c ∈ (db.spend a now).resourceChallenges.rows ↔
      ∃ r ∈ db.resourceChallenges.rows,
        c = if r.tokenHash = a.tokenHash ∧ r.consumedAt.isNone then r.consume now else r :=
  Table.mem_updateWhere (ResourceChallengeRow.consume now) (fun _ ↦ rfl)

/-- A broker consumption consumes its challenge and keeps every other one. -/
theorem mem_broker_consume {db : Store} {tokenHash : Text} {now : Int} {c : BrokerChallengeRow} :
    c ∈ (db.consumeBroker tokenHash now).brokerChallenges.rows ↔
      ∃ r ∈ db.brokerChallenges.rows,
        c = if r.tokenHash = tokenHash ∧ r.consumedAt.isNone then r.consume now else r :=
  Table.mem_updateWhere (BrokerChallengeRow.consume now) (fun _ ↦ rfl)

/-- Whether a credential is spent, in terms of the rows. -/
theorem spent_iff {db : Store} {credentialId : Text} :
    db.spent credentialId = true ↔
      ∃ r ∈ db.credentialRedemptions.rows, r.credentialId = credentialId := by
  unfold Store.spent
  cases h : db.credentialRedemptions.find? credentialId with
  | none =>
    have hn := db.credentialRedemptions.find?_eq_none.mp h
    simp only [Option.isSome_none, Bool.false_eq_true, false_iff, not_exists, not_and]
    exact hn
  | some r =>
    simp only [Option.isSome_some, true_iff]
    exact ⟨r, db.credentialRedemptions.find?_eq_some.mp h⟩

end Atcap
