import Mathlib.Order.Bounds.Basic
import Mathlib.Data.Int.Order.Basic
import Atcap.Storage.Changes

/-!
# The store invariant

Redemptions and consumed challenges stay linked through every sequence of store operations,
successful and failing ones mixed. `Change` says once what an operation can do to the
database; the invariant and its timed form are proved for a change and carried to runs.
-/

namespace Atcap

open Base

/-- One complete change of the database, with the time read under the write lock when the
change is a committed transaction. -/
inductive Change (db : Store) : Option Int → Store → Prop where
  | unchanged : Change db none db
  | brokerStored {row : BrokerChallengeRow}
      {t : Table BrokerChallengeRow Text BrokerChallengeRow.tokenHash} :
      row.consumedAt = none → db.brokerChallenges.insert? row = some t →
      Change db none { db with brokerChallenges := t }
  | brokerConsumed {tokenHash : Text} {row : BrokerChallengeRow} {now : Int} :
      BrokerConsumable db tokenHash row now → Change db (some now) (db.consumeBroker tokenHash now)
  | resourceStored {row : ResourceChallengeRow}
      {t : Table ResourceChallengeRow Text ResourceChallengeRow.tokenHash} :
      row.consumedAt = none → db.resourceChallenges.insert? row = some t →
      Change db none { db with resourceChallenges := t }
  | spent {a : SpendArgs} {row : ResourceChallengeRow} {now : Int} :
      Spendable db a row now → Change db (some now) (db.spend a now)

/-! ### The linking invariant -/

/-- Redemptions and consumed challenges agree, and nothing is consumed after it expired. -/
structure Store.Linked (db : Store) : Prop where
  redeemed : ∀ r ∈ db.credentialRedemptions.rows, ∃ c ∈ db.resourceChallenges.rows,
    c.tokenHash = r.tokenHash ∧ c.credentialId = r.credentialId ∧ c.recordId = r.recordId ∧
      c.consumedAt = some r.redeemedAt
  consumed : ∀ c ∈ db.resourceChallenges.rows, c.consumedAt.isSome →
    ∃ r ∈ db.credentialRedemptions.rows, r.credentialId = c.credentialId
  brokerFresh : ∀ c ∈ db.brokerChallenges.rows, ∀ t, c.consumedAt = some t → t < c.expiresAt
  resourceFresh : ∀ c ∈ db.resourceChallenges.rows, ∀ t, c.consumedAt = some t → t < c.expiresAt

/-- The empty database is linked. -/
theorem linked_empty : Store.empty.Linked := by
  constructor
  · intro r hr
    cases hr
  · intro c hc
    cases hc
  · intro c hc
    cases hc
  · intro c hc
    cases hc

private theorem linked_brokerStored {db : Store} {row : BrokerChallengeRow}
    {t : Table BrokerChallengeRow Text BrokerChallengeRow.tokenHash} (h : db.Linked)
    (hrow : row.consumedAt = none) (ht : db.brokerChallenges.insert? row = some t) :
    Store.Linked { db with brokerChallenges := t } := by
  obtain ⟨_, hrows⟩ := Table.insert?_eq_some ht
  refine ⟨h.redeemed, h.consumed, ?_, h.resourceFresh⟩
  intro c hc now hnow
  change c ∈ t.rows at hc
  rw [hrows, List.mem_append, List.mem_singleton] at hc
  rcases hc with hc | rfl
  · exact h.brokerFresh c hc now hnow
  · rw [hrow] at hnow
    cases hnow

private theorem linked_brokerConsumed {db : Store} {tokenHash : Text} {row : BrokerChallengeRow}
    {now : Int} (h : db.Linked) (hc : BrokerConsumable db tokenHash row now) :
    (db.consumeBroker tokenHash now).Linked := by
  refine ⟨h.redeemed, h.consumed, ?_, h.resourceFresh⟩
  intro c hm t ht
  obtain ⟨r, hr, rfl⟩ := mem_broker_consume.mp hm
  split at ht
  · next hmatch =>
    rw [if_pos hmatch]
    -- The consumed row is the row the transaction selected.
    have he : r = row := db.brokerChallenges.eq_of_key_eq hr
      (db.brokerChallenges.find?_eq_some.mp hc.stored).1
      (hmatch.1.trans (db.brokerChallenges.find?_eq_some.mp hc.stored).2.symm)
    have hn : now = t := Option.some.inj ht
    rw [← hn, he]
    exact hc.fresh
  · next hmatch =>
    rw [if_neg hmatch]
    exact h.brokerFresh r hr t ht

private theorem linked_resourceStored {db : Store} {row : ResourceChallengeRow}
    {t : Table ResourceChallengeRow Text ResourceChallengeRow.tokenHash} (h : db.Linked)
    (hrow : row.consumedAt = none) (ht : db.resourceChallenges.insert? row = some t) :
    Store.Linked { db with resourceChallenges := t } := by
  obtain ⟨_, hrows⟩ := Table.insert?_eq_some ht
  have hmem : ∀ c, c ∈ t.rows ↔ c ∈ db.resourceChallenges.rows ∨ c = row := by
    intro c
    rw [hrows, List.mem_append, List.mem_singleton]
  refine ⟨?_, ?_, h.brokerFresh, ?_⟩
  · intro r hr
    obtain ⟨c, hc, hrest⟩ := h.redeemed r hr
    exact ⟨c, (hmem c).mpr (.inl hc), hrest⟩
  · intro c hc hs
    rcases (hmem c).mp hc with hc | rfl
    · exact h.consumed c hc hs
    · rw [hrow] at hs
      cases hs
  · intro c hc now hnow
    rcases (hmem c).mp hc with hc | rfl
    · exact h.resourceFresh c hc now hnow
    · rw [hrow] at hnow
      cases hnow

/-- The row a spend consumes is the row its transaction selected. -/
theorem Spendable.row_eq {db : Store} {a : SpendArgs} {row r : ResourceChallengeRow} {now : Int}
    (hs : Spendable db a row now) (hr : r ∈ db.resourceChallenges.rows)
    (hk : r.tokenHash = a.tokenHash) : r = row :=
  db.resourceChallenges.eq_of_key_eq hr (db.resourceChallenges.find?_eq_some.mp hs.stored).1
    (hk.trans (db.resourceChallenges.find?_eq_some.mp hs.stored).2.symm)

/-- The row a spend consumes, after it. -/
theorem Spendable.consumed_mem {db : Store} {a : SpendArgs} {row : ResourceChallengeRow}
    {now : Int} (hs : Spendable db a row now) :
    row.consume now ∈ (db.spend a now).resourceChallenges.rows := by
  obtain ⟨hr, hk⟩ := db.resourceChallenges.find?_eq_some.mp hs.stored
  rw [mem_resource_spend]
  refine ⟨row, hr, ?_⟩
  rw [if_pos ⟨hk, by rw [hs.unconsumed]; rfl⟩]

/-- A row that was consumed already is kept by a spend. -/
theorem mem_resource_spend_of_consumed {db : Store} {a : SpendArgs} {now : Int}
    {c : ResourceChallengeRow} (hc : c ∈ db.resourceChallenges.rows)
    (hs : c.consumedAt.isSome) : c ∈ (db.spend a now).resourceChallenges.rows := by
  rw [mem_resource_spend]
  refine ⟨c, hc, ?_⟩
  rw [if_neg]
  intro hn
  rw [Option.isNone_iff_eq_none.mp hn.2] at hs
  cases hs

/-- A spend adds at most its own redemption row. -/
theorem mem_redemptions_spend {db : Store} {a : SpendArgs} {now : Int} {r : RedemptionRow} :
    r ∈ (db.spend a now).credentialRedemptions.rows ↔
      r ∈ db.credentialRedemptions.rows ∨
        (db.spent a.context.credentialId = false ∧ r = a.redemption now) := by
  rw [rows_redemptions_spend]
  cases hs : db.spent a.context.credentialId with
  | true => simp
  | false => simp

private theorem linked_spent {db : Store} {a : SpendArgs} {row : ResourceChallengeRow} {now : Int}
    (h : db.Linked) (hs : Spendable db a row now) : (db.spend a now).Linked := by
  have hcred : row.credentialId = a.context.credentialId :=
    congrArg ChallengeContext.credentialId hs.bound
  have hrecord : row.recordId = a.context.recordId := congrArg ChallengeContext.recordId hs.bound
  refine ⟨?_, ?_, h.brokerFresh, ?_⟩
  · intro r hr
    rcases mem_redemptions_spend.mp hr with hr | ⟨_, rfl⟩
    · obtain ⟨c, hc, hh, hi, hj, ht⟩ := h.redeemed r hr
      exact ⟨c, mem_resource_spend_of_consumed hc (by rw [ht]; rfl), hh, hi, hj, ht⟩
    · refine ⟨row.consume now, hs.consumed_mem, ?_, hcred, hrecord, rfl⟩
      exact (db.resourceChallenges.find?_eq_some.mp hs.stored).2
  · intro c hc hcons
    -- A consumed row was consumed before, or is the row of this spend; both are redeemed.
    have hspent : ∀ credentialId, db.spent credentialId = true →
        ∃ r ∈ (db.spend a now).credentialRedemptions.rows, r.credentialId = credentialId := by
      intro credentialId hsp
      obtain ⟨r, hr, hk⟩ := spent_iff.mp hsp
      exact ⟨r, mem_redemptions_spend.mpr (.inl hr), hk⟩
    obtain ⟨r, hr, rfl⟩ := mem_resource_spend.mp hc
    split at hcons
    · next hmatch =>
      rw [if_pos hmatch, hs.row_eq hr hmatch.1]
      change ∃ r' ∈ (db.spend a now).credentialRedemptions.rows, r'.credentialId = row.credentialId
      rw [hcred]
      cases hsp : db.spent a.context.credentialId with
      | true => exact hspent _ hsp
      | false =>
        exact ⟨a.redemption now, mem_redemptions_spend.mpr (.inr ⟨hsp, rfl⟩), rfl⟩
    · next hmatch =>
      rw [if_neg hmatch]
      obtain ⟨r', hr', hk⟩ := h.consumed r hr hcons
      exact ⟨r', mem_redemptions_spend.mpr (.inl hr'), hk⟩
  · intro c hc t ht
    obtain ⟨r, hr, rfl⟩ := mem_resource_spend.mp hc
    split at ht
    · next hmatch =>
      rw [if_pos hmatch, hs.row_eq hr hmatch.1]
      have hn : now = t := Option.some.inj ht
      rw [← hn]
      exact hs.fresh
    · next hmatch =>
      rw [if_neg hmatch]
      exact h.resourceFresh r hr t ht

/-- Every change keeps the database linked. -/
theorem Change.linked {db db' : Store} {t : Option Int} (hc : Change db t db') (h : db.Linked) :
    db'.Linked := by
  cases hc with
  | unchanged => exact h
  | brokerStored hrow ht => exact linked_brokerStored h hrow ht
  | brokerConsumed hcons => exact linked_brokerConsumed h hcons
  | resourceStored hrow ht => exact linked_resourceStored h hrow ht
  | spent hs => exact linked_spent h hs

/-- A credential is spent exactly when one of its challenges is consumed. -/
theorem Store.Linked.spent_iff_consumed {db : Store} (h : db.Linked) (credentialId : Text) :
    (∃ r ∈ db.credentialRedemptions.rows, r.credentialId = credentialId) ↔
      ∃ c ∈ db.resourceChallenges.rows, c.credentialId = credentialId ∧ c.consumedAt.isSome := by
  constructor
  · rintro ⟨r, hr, rfl⟩
    obtain ⟨c, hc, _, hk, _, ht⟩ := h.redeemed r hr
    exact ⟨c, hc, hk, by rw [ht]; rfl⟩
  · rintro ⟨c, hc, rfl, hs⟩
    exact h.consumed c hc hs

/-- A challenge redeems at most one credential. -/
theorem Store.Linked.nodup_tokenHash {db : Store} (h : db.Linked) :
    (db.credentialRedemptions.rows.map RedemptionRow.tokenHash).Nodup := by
  have hu := db.credentialRedemptions.unique
  rw [List.nodup_map_iff_inj_on (List.Nodup.of_map _ hu)]
  intro r hr r' hr' he
  obtain ⟨c, hc, hh, hk, _⟩ := h.redeemed r hr
  obtain ⟨c', hc', hh', hk', _⟩ := h.redeemed r' hr'
  have hcc : c = c' :=
    db.resourceChallenges.eq_of_key_eq hc hc' (by rw [hh, hh', he])
  exact db.credentialRedemptions.eq_of_key_eq hr hr' (by rw [← hk, ← hk', hcc])

/-! ### Redemption times -/

/-- Consumption times come from committed transactions, and none precedes the redemption. -/
structure Store.Timed (db : Store) (times : List Int) : Prop where
  recorded : ∀ c ∈ db.resourceChallenges.rows, ∀ t, c.consumedAt = some t → t ∈ times
  least : ∀ r ∈ db.credentialRedemptions.rows, ∀ c ∈ db.resourceChallenges.rows,
    c.credentialId = r.credentialId → ∀ t, c.consumedAt = some t → r.redeemedAt ≤ t

private theorem timed_spent {db : Store} {times : List Int} {a : SpendArgs}
    {row : ResourceChallengeRow} {now : Int} (hl : db.Linked) (h : db.Timed times)
    (hs : Spendable db a row now) (hle : ∀ t ∈ times, t ≤ now) :
    (db.spend a now).Timed (times ++ [now]) := by
  have hcred : row.credentialId = a.context.credentialId :=
    congrArg ChallengeContext.credentialId hs.bound
  constructor
  · intro c hc t ht
    obtain ⟨r, hr, rfl⟩ := mem_resource_spend.mp hc
    split at ht
    · have hn : now = t := Option.some.inj ht
      simp [hn]
    · exact List.mem_append_left _ (h.recorded r hr t ht)
  · intro r hr c hc hk t ht
    obtain ⟨c₀, hc₀, rfl⟩ := mem_resource_spend.mp hc
    rcases mem_redemptions_spend.mp hr with hr | ⟨hunspent, rfl⟩
    · -- An older redemption was recorded before this transaction.
      split at ht
      · have hn : now = t := Option.some.inj ht
        obtain ⟨c₁, hc₁, _, _, _, ht₁⟩ := hl.redeemed r hr
        rw [← hn]
        exact hle _ (h.recorded c₁ hc₁ _ ht₁)
      · next hmatch =>
        rw [if_neg hmatch] at hk
        exact h.least r hr c₀ hc₀ hk t ht
    · -- A first redemption: no challenge of the credential was consumed before.
      split at ht
      · have hn : now = t := Option.some.inj ht
        exact le_of_eq hn
      · next hmatch =>
        rw [if_neg hmatch] at hk
        obtain ⟨r', hr', hk'⟩ := hl.consumed c₀ hc₀ (by rw [ht]; rfl)
        have hsp : db.spent a.context.credentialId = true :=
          spent_iff.mpr ⟨r', hr', hk'.trans hk⟩
        rw [hunspent] at hsp
        cases hsp

/-- A change made no earlier than every transaction before it keeps the times in order. -/
theorem Change.timed {db db' : Store} {t : Option Int} {times : List Int} (hc : Change db t db')
    (hl : db.Linked) (h : db.Timed times) (hle : ∀ n ∈ t, ∀ m ∈ times, m ≤ n) :
    db'.Timed (times ++ t.toList) := by
  cases hc with
  | unchanged => simpa using h
  | brokerStored hrow ht => exact ⟨by simpa using h.recorded, h.least⟩
  | @brokerConsumed tokenHash row now hcons =>
    exact ⟨fun c hc t ht ↦ List.mem_append_left _ (h.recorded c hc t ht), h.least⟩
  | @resourceStored row t hrow ht =>
    obtain ⟨_, hrows⟩ := Table.insert?_eq_some ht
    have hmem : ∀ c ∈ t.rows, ∀ n, c.consumedAt = some n → c ∈ db.resourceChallenges.rows := by
      intro c hc n hn
      rw [hrows, List.mem_append, List.mem_singleton] at hc
      rcases hc with hc | rfl
      · exact hc
      · rw [hrow] at hn
        cases hn
    constructor
    · intro c hc n hn
      simpa using h.recorded c (hmem c hc n hn) n hn
    · intro r hr c hc hk n hn
      exact h.least r hr c (hmem c hc n hn) hk n hn
  | @spent a row now hs => exact timed_spent hl h hs (hle now rfl)

/-! ### Sequences of operations -/

/-- One call of a store operation, with its arguments and what decides its execution. -/
inductive StoreOp where
  | storeBrokerChallenge (tokenHash : Text) (issuedAt expiresAt : Int) (f : Faults)
  | consumeBrokerChallenge (tokenHash : Text) (clock : Except Exn Int) (f : Faults)
  | storeResourceChallenge (tokenHash : Text) (context : ChallengeContext)
      (issuedAt expiresAt : Int) (f : Faults)
  | consumeChallengeAndSpendCredential (a : SpendArgs) (clock : Except Exn Int) (f : Faults)

/-- The database after a call, whether it returned or raised. -/
def StoreOp.apply (db : Store) : StoreOp → Store
  | .storeBrokerChallenge h i e f => (Store.storeBrokerChallenge h i e f db).2
  | .consumeBrokerChallenge h clock f => (Store.consumeBrokerChallenge h clock f db).2
  | .storeResourceChallenge h c i e f => (Store.storeResourceChallenge h c i e f db).2
  | .consumeChallengeAndSpendCredential a clock f =>
    (Store.consumeChallengeAndSpendCredential a clock f db).2

/-- The time read under the write lock, when the call commits a transaction. -/
def StoreOp.commitTime? (db : Store) : StoreOp → Option Int
  | .consumeBrokerChallenge h clock f =>
    if committed f (consumeBrokerBody h clock f) db then clock.toOption else none
  | .consumeChallengeAndSpendCredential a clock f =>
    if committed f (spendBody a clock f) db then clock.toOption else none
  | _ => none

/-- The database after a sequence of calls. -/
def Store.run (db : Store) : List StoreOp → Store
  | [] => db
  | op :: ops => (op.apply db).run ops

/-- The times read under the write lock by the transactions of a sequence, in commit order. -/
def Store.commitTimes (db : Store) : List StoreOp → List Int
  | [] => []
  | op :: ops => (op.commitTime? db).toList ++ (op.apply db).commitTimes ops

/-- Every call makes one complete change, at the time it committed. -/
theorem StoreOp.change (db : Store) (op : StoreOp) :
    Change db (op.commitTime? db) (op.apply db) := by
  cases op with
  | storeBrokerChallenge h i e f =>
    rcases storeBrokerChallenge_cases h i e f db with ⟨hdb, _⟩ | ⟨t, ht, hdb⟩
    · simp only [StoreOp.apply, hdb]
      exact .unchanged
    · simp only [StoreOp.apply, hdb]
      exact .brokerStored rfl ht
  | consumeBrokerChallenge h clock f =>
    simp only [StoreOp.apply, StoreOp.commitTime?, Store.consumeBrokerChallenge]
    rcases transaction_cases f (consumeBrokerBody h clock f) db with ⟨hc, u, hb⟩ | ⟨hc, hdb⟩
    · obtain ⟨row, now, hclock, hcons, hdb⟩ := consumeBrokerBody_ok hb
      rw [if_pos hc, hdb, hclock]
      exact .brokerConsumed hcons
    · rw [hc, hdb]
      exact .unchanged
  | storeResourceChallenge h c i e f =>
    rcases storeResourceChallenge_cases h c i e f db with ⟨hdb, _⟩ | ⟨t, ht, hdb⟩
    · simp only [StoreOp.apply, hdb]
      exact .unchanged
    · simp only [StoreOp.apply, hdb]
      exact .resourceStored rfl ht
  | consumeChallengeAndSpendCredential a clock f =>
    simp only [StoreOp.apply, StoreOp.commitTime?, Store.consumeChallengeAndSpendCredential]
    rcases transaction_cases f (spendBody a clock f) db with ⟨hc, res, hb⟩ | ⟨hc, hdb⟩
    · obtain ⟨row, now, hclock, hs, hdb, _⟩ := spendBody_ok hb
      rw [if_pos hc, hdb, hclock]
      exact .spent hs
    · rw [hc, hdb]
      exact .unchanged

/-- Every sequence of calls keeps the database linked. -/
theorem linked_run {db : Store} (h : db.Linked) (ops : List StoreOp) : (db.run ops).Linked := by
  induction ops generalizing db with
  | nil => exact h
  | cons op ops ih => exact ih ((op.change db).linked h)

/-- A sequence of calls whose transactions commit in clock order keeps the times in order. -/
theorem timed_run {db : Store} {times : List Int} (hl : db.Linked) (h : db.Timed times)
    (ops : List StoreOp) (hsorted : (times ++ db.commitTimes ops).Pairwise (· ≤ ·)) :
    (db.run ops).Timed (times ++ db.commitTimes ops) := by
  induction ops generalizing db times with
  | nil => simpa [Store.commitTimes, Store.run] using h
  | cons op ops ih =>
    have hc := op.change db
    simp only [Store.commitTimes, Store.run] at hsorted ⊢
    rw [← List.append_assoc] at hsorted ⊢
    apply ih (hc.linked hl) _ hsorted
    apply hc.timed hl h
    intro n hn m hm
    have hp := List.pairwise_append.mp (List.pairwise_append.mp hsorted).1
    exact hp.2.2 m hm n (Option.mem_toList.mpr hn)

/-- The store invariant: from the empty database, any sequence of calls leaves redemptions and
consumed challenges linked one to one in the way the services rely on, nothing consumed at or
after its expiry, and, when transactions commit in clock order, every redemption at the least
consumption time of its credential's challenges. -/
theorem store_invariant (ops : List StoreOp) :
    let db := Store.empty.run ops
    (∀ r ∈ db.credentialRedemptions.rows, ∃ c ∈ db.resourceChallenges.rows,
      c.tokenHash = r.tokenHash ∧ c.credentialId = r.credentialId ∧ c.recordId = r.recordId ∧
        c.consumedAt = some r.redeemedAt ∧ r.redeemedAt < c.expiresAt) ∧
    (∀ c ∈ db.resourceChallenges.rows, c.consumedAt.isSome →
      ∃ r ∈ db.credentialRedemptions.rows, r.credentialId = c.credentialId) ∧
    (∀ credentialId, (∃ r ∈ db.credentialRedemptions.rows, r.credentialId = credentialId) ↔
      ∃ c ∈ db.resourceChallenges.rows, c.credentialId = credentialId ∧ c.consumedAt.isSome) ∧
    (db.credentialRedemptions.rows.map RedemptionRow.credentialId).Nodup ∧
    (db.credentialRedemptions.rows.map RedemptionRow.tokenHash).Nodup ∧
    (∀ c ∈ db.brokerChallenges.rows, ∀ t, c.consumedAt = some t → t < c.expiresAt) ∧
    (∀ c ∈ db.resourceChallenges.rows, ∀ t, c.consumedAt = some t → t < c.expiresAt) ∧
    ((Store.empty.commitTimes ops).Pairwise (· ≤ ·) →
      ∀ r ∈ db.credentialRedemptions.rows,
        IsLeast {t | ∃ c ∈ db.resourceChallenges.rows, c.credentialId = r.credentialId ∧
          c.consumedAt = some t} r.redeemedAt) := by
  intro db
  have hl : db.Linked := linked_run linked_empty ops
  refine ⟨?_, hl.consumed, hl.spent_iff_consumed, db.credentialRedemptions.unique,
    hl.nodup_tokenHash, hl.brokerFresh, hl.resourceFresh, ?_⟩
  · intro r hr
    obtain ⟨c, hc, hh, hk, hi, ht⟩ := hl.redeemed r hr
    exact ⟨c, hc, hh, hk, hi, ht, hl.resourceFresh c hc _ ht⟩
  · intro hsorted r hr
    have hempty : Store.empty.Timed [] := by
      constructor
      · intro c hc
        cases hc
      · intro r hr
        cases hr
    have htimed := timed_run linked_empty hempty ops hsorted
    constructor
    · obtain ⟨c, hc, _, hk, _, ht⟩ := hl.redeemed r hr
      exact ⟨c, hc, hk, ht⟩
    · rintro t ⟨c, hc, hk, ht⟩
      exact htimed.least r hr c hc hk t ht

/-- Two challenges of one credential, both spent: the redemption carries the earlier time. -/
theorem store_invariant_two_spends :
    let context : ChallengeContext := ⟨text "c", text "m", text "d", text "r", text "a"⟩
    let ops : List StoreOp :=
      [.storeResourceChallenge (text "h1") context 0 60 Faults.none,
        .storeResourceChallenge (text "h2") context 0 60 Faults.none,
        .consumeChallengeAndSpendCredential ⟨text "h1", context, 0, 300⟩ (.ok 5) Faults.none,
        .consumeChallengeAndSpendCredential ⟨text "h2", context, 0, 300⟩ (.ok 7) Faults.none]
    (Store.empty.run ops).credentialRedemptions.rows = [⟨text "c", text "h1", text "r", 5⟩] ∧
      (Store.empty.run ops).resourceChallenges.rows.map ResourceChallengeRow.consumedAt =
        [some 5, some 7] ∧
      IsLeast {t | ∃ c ∈ (Store.empty.run ops).resourceChallenges.rows,
        c.credentialId = text "c" ∧ c.consumedAt = some t} 5 := by
  intro context ops
  have hrows : (Store.empty.run ops).credentialRedemptions.rows =
      [⟨text "c", text "h1", text "r", 5⟩] := by decide
  have htimes : (Store.empty.commitTimes ops).Pairwise (· ≤ ·) := by decide
  refine ⟨hrows, by decide, ?_⟩
  clear_value ops
  have hmem : (⟨text "c", text "h1", text "r", 5⟩ : RedemptionRow) ∈
      (Store.empty.run ops).credentialRedemptions.rows := by
    rw [hrows]
    exact List.mem_singleton_self _
  exact (store_invariant ops).2.2.2.2.2.2.2 htimes _ hmem

end Atcap
