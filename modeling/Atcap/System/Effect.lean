import Atcap.Storage.Invariant
import Atcap.System

/-!
# What a step does to the database

`Effect` says once which steps change the database and how; every fact about the database
along a run is derived from it.
-/

namespace Atcap

open Base System

namespace Deployment

variable (D : Deployment)

/-- The effect of a step on the database. -/
inductive Effect (db : Store) : D.system.Label → Store → Prop where
  | unchanged (l : D.system.Label) : Effect db l db
  | brokerStored {t : Nat} {tokenHash : Text} {issuedAt expiresAt : Int} {f : Faults}
      {r : Except Exn Unit} {table : Table BrokerChallengeRow Text BrokerChallengeRow.tokenHash} :
      db.brokerChallenges.insert? ⟨tokenHash, issuedAt, expiresAt, none⟩ = some table →
      Store.storeBrokerChallenge tokenHash issuedAt expiresAt f db =
        (.ok (), { db with brokerChallenges := table }) →
      Effect db (.act t (.storeBrokerChallenge tokenHash issuedAt expiresAt) f r)
        { db with brokerChallenges := table }
  | brokerConsumed {t : Nat} {tokenHash : Text} {x : Except Exn Int × Faults}
      {r : Except Exn Unit} {row : BrokerChallengeRow} {now : Int} : x.1 = .ok now →
      BrokerConsumable db tokenHash row now →
      Effect db (.act t (.consumeBrokerChallenge tokenHash) x r) (db.consumeBroker tokenHash now)
  | resourceStored {t : Nat} {tokenHash : Text} {context : ChallengeContext}
      {issuedAt expiresAt : Int} {f : Faults} {r : Except Exn Unit}
      {table : Table ResourceChallengeRow Text ResourceChallengeRow.tokenHash} :
      db.resourceChallenges.insert? ⟨tokenHash, context.credentialId, context.method,
        context.argumentsDigest, context.recordId, context.audience, issuedAt, expiresAt, none⟩ =
          some table →
      Store.storeResourceChallenge tokenHash context issuedAt expiresAt f db =
        (.ok (), { db with resourceChallenges := table }) →
      Effect db (.act t (.storeResourceChallenge tokenHash context issuedAt expiresAt) f r)
        { db with resourceChallenges := table }
  | spent {t : Nat} {a : SpendArgs} {x : Except Exn Int × Faults}
      {r : Except Exn CredentialSpendResult} {row : ResourceChallengeRow} {now : Int} :
      x.1 = .ok now → Spendable db a row now →
      Effect db (.act t (.spend a) x r) (db.spend a now)

variable {D}

/-- Every step has one of these effects. -/
theorem effect_next (w : World) (l : D.system.Label) :
    D.Effect w.store l (D.system.next w l).store := by
  cases l with
  | start t c => exact .unchanged _
  | finish t a => exact .unchanged _
  | crash i =>
    cases i with
    | inventoryd i => exact .unchanged _
    | broker b => exact .unchanged _
  | act t e x r =>
    cases e with
    | clock => exact .unchanged _
    | tokenHex n => exact .unchanged _
    | lib c => exact .unchanged _
    | sign signer payload => exact .unchanged _
    | getResourceChallenge tokenHash => exact .unchanged _
    | recordInvocation i => exact .unchanged _
    | invocationCount i => exact .unchanged _
    | inventoryLookup i sku => exact .unchanged _
    | storeBrokerChallenge tokenHash issuedAt expiresAt =>
      rcases storeBrokerChallenge_cases tokenHash issuedAt expiresAt x w.store with
        ⟨hdb, _⟩ | ⟨table, htable, heq⟩
      · change D.Effect w.store _ (Store.storeBrokerChallenge _ _ _ _ w.store).2
        rw [hdb]
        exact .unchanged _
      · change D.Effect w.store _ (Store.storeBrokerChallenge _ _ _ _ w.store).2
        rw [heq]
        exact .brokerStored htable heq
    | consumeBrokerChallenge tokenHash =>
      change D.Effect w.store _ (Store.consumeBrokerChallenge tokenHash x.1 x.2 w.store).2
      rcases consumeBrokerChallenge_cases tokenHash x.1 x.2 w.store with
        hdb | ⟨row, now, hclock, hrow, hdb⟩
      · rw [hdb]
        exact .unchanged _
      · rw [hdb]
        exact .brokerConsumed hclock hrow
    | storeResourceChallenge tokenHash context issuedAt expiresAt =>
      change D.Effect w.store _
        (Store.storeResourceChallenge tokenHash context issuedAt expiresAt x w.store).2
      rcases storeResourceChallenge_cases tokenHash context issuedAt expiresAt x w.store with
        ⟨hdb, _⟩ | ⟨table, htable, heq⟩
      · rw [hdb]
        exact .unchanged _
      · rw [heq]
        exact .resourceStored htable heq
    | spend a =>
      change D.Effect w.store _
        (Store.consumeChallengeAndSpendCredential a x.1 x.2 w.store).2
      rcases spend_cases a x.1 x.2 w.store with hdb | ⟨row, now, hclock, hrow, hdb⟩
      · rw [hdb]
        exact .unchanged _
      · rw [hdb]
        exact .spent hclock hrow

/-- The effect of a step is a complete change of the database. -/
theorem Effect.change {db db' : Store} {l : D.system.Label} (h : D.Effect db l db') :
    ∃ time, Change db time db' := by
  cases h with
  | unchanged l => exact ⟨none, .unchanged⟩
  | brokerStored htable heq => exact ⟨none, .brokerStored rfl htable⟩
  | brokerConsumed hclock hrow => exact ⟨_, .brokerConsumed hrow⟩
  | resourceStored htable heq => exact ⟨none, .resourceStored rfl htable⟩
  | spent hclock hrow => exact ⟨_, .spent hrow⟩

/-! ### Who wrote a row -/

/-- Every resource challenge row was written by a step that stored it. -/
theorem resource_written {s : Config Op Op.Reply World Call (Except Exn Answer)} {tr : D.Trace}
    (h : D.system.Run .initial tr s) {row : ResourceChallengeRow}
    (hrow : row ∈ (D.system.after .initial tr).store.resourceChallenges.rows) :
    ∃ pre post t f, tr = pre ++ .act t (.storeResourceChallenge row.tokenHash row.context
      row.issuedAt row.expiresAt) f (.ok ()) :: post := by
  induction h generalizing row with
  | nil => cases hrow
  | @snoc tr s s' l hrun hstep ih =>
    rw [System.after_snoc] at hrow
    have hkept : ∀ {row}, row ∈ (D.system.after .initial tr).store.resourceChallenges.rows →
        ∃ pre post t f, tr ++ [l] = pre ++ .act t (.storeResourceChallenge row.tokenHash
          row.context row.issuedAt row.expiresAt) f (.ok ()) :: post := by
      intro row hrow
      obtain ⟨pre, post, t, f, he⟩ := ih hrow
      exact ⟨pre, post ++ [l], t, f, by rw [he]; simp⟩
    have heffect := effect_next (D.system.after .initial tr) l
    generalize (D.system.next (D.system.after .initial tr) l).store = db at heffect hrow
    cases heffect with
    | unchanged => exact hkept hrow
    | brokerStored htable heq => exact hkept hrow
    | brokerConsumed hclock hr => exact hkept hrow
    | @resourceStored t tokenHash context issuedAt expiresAt f r table htable heq =>
      obtain ⟨_, hrows⟩ := Table.insert?_eq_some htable
      change row ∈ table.rows at hrow
      rw [hrows, List.mem_append, List.mem_singleton] at hrow
      rcases hrow with hrow | rfl
      · exact hkept hrow
      · have hreply : r = .ok () := ((hrun.snoc hstep).reply_eq rfl).trans (congrArg Prod.fst heq)
        exact ⟨tr, [], t, f, by rw [hreply]; rfl⟩
    | @spent t a x r row' now hclock hr =>
      obtain ⟨c, hmem, rfl⟩ := mem_resource_spend.mp hrow
      by_cases hm : c.tokenHash = a.tokenHash ∧ c.consumedAt.isNone
      · rw [if_pos hm]
        obtain ⟨pre, post, t', f, he⟩ := hkept hmem
        exact ⟨pre, post, t', f, he⟩
      · rw [if_neg hm]
        exact hkept hmem

/-- Every broker challenge row was written by a step that stored it. -/
theorem broker_written {s : Config Op Op.Reply World Call (Except Exn Answer)} {tr : D.Trace}
    (h : D.system.Run .initial tr s) {row : BrokerChallengeRow}
    (hrow : row ∈ (D.system.after .initial tr).store.brokerChallenges.rows) :
    ∃ pre post t f, tr = pre ++
      .act t (.storeBrokerChallenge row.tokenHash row.issuedAt row.expiresAt) f (.ok ()) ::
        post := by
  induction h generalizing row with
  | nil => cases hrow
  | @snoc tr s s' l hrun hstep ih =>
    rw [System.after_snoc] at hrow
    have hkept : ∀ {row}, row ∈ (D.system.after .initial tr).store.brokerChallenges.rows →
        ∃ pre post t f, tr ++ [l] = pre ++ .act t (.storeBrokerChallenge row.tokenHash
          row.issuedAt row.expiresAt) f (.ok ()) :: post := by
      intro row hrow
      obtain ⟨pre, post, t, f, he⟩ := ih hrow
      exact ⟨pre, post ++ [l], t, f, by rw [he]; simp⟩
    have heffect := effect_next (D.system.after .initial tr) l
    generalize (D.system.next (D.system.after .initial tr) l).store = db at heffect hrow
    cases heffect with
    | unchanged => exact hkept hrow
    | resourceStored htable heq => exact hkept hrow
    | spent hclock hr => exact hkept hrow
    | @brokerStored t tokenHash issuedAt expiresAt f r table htable heq =>
      obtain ⟨_, hrows⟩ := Table.insert?_eq_some htable
      change row ∈ table.rows at hrow
      rw [hrows, List.mem_append, List.mem_singleton] at hrow
      rcases hrow with hrow | rfl
      · exact hkept hrow
      · have hreply : r = .ok () := ((hrun.snoc hstep).reply_eq rfl).trans (congrArg Prod.fst heq)
        exact ⟨tr, [], t, f, by rw [hreply]⟩
    | @brokerConsumed t tokenHash x r row' now hclock hr =>
      obtain ⟨c, hmem, rfl⟩ := mem_broker_consume.mp hrow
      by_cases hm : c.tokenHash = tokenHash ∧ c.consumedAt.isNone
      · rw [if_pos hm]
        obtain ⟨pre, post, t', f, he⟩ := hkept hmem
        exact ⟨pre, post, t', f, he⟩
      · rw [if_neg hm]
        exact hkept hmem

/-! ### What stays -/

/-- An effect keeps every consumed broker challenge as it is. -/
theorem Effect.consumed_kept {db db' : Store} {l : D.system.Label} (h : D.Effect db l db')
    {row : BrokerChallengeRow} (hrow : row ∈ db.brokerChallenges.rows)
    (hc : row.consumedAt.isSome) : row ∈ db'.brokerChallenges.rows := by
  cases h with
  | unchanged => exact hrow
  | resourceStored htable heq => exact hrow
  | spent hclock hr => exact hrow
  | brokerStored htable heq =>
    obtain ⟨_, hrows⟩ := Table.insert?_eq_some htable
    rw [hrows]
    exact List.mem_append_left _ hrow
  | brokerConsumed hclock hr =>
    have hne : row.consumedAt.isNone = false := by
      rw [← Option.not_isSome, hc]
      rfl
    exact mem_broker_consume.mpr ⟨row, hrow, by simp [hne]⟩

/-- A run keeps every consumed broker challenge as it is. -/
theorem consumed_kept (w : World) (tr : D.Trace) {row : BrokerChallengeRow}
    (hrow : row ∈ w.store.brokerChallenges.rows) (hc : row.consumedAt.isSome) :
    row ∈ (D.system.after w tr).store.brokerChallenges.rows := by
  induction tr using List.reverseRecOn with
  | nil => exact hrow
  | append_singleton tr l ih =>
    rw [System.after_snoc]
    exact (effect_next (D.system.after w tr) l).consumed_kept ih hc

/-- An effect keeps every resource challenge, up to its consumption. -/
theorem Effect.resource_kept {db db' : Store} {l : D.system.Label} (h : D.Effect db l db')
    {c : ResourceChallengeRow} (hc : c ∈ db.resourceChallenges.rows) :
    ∃ c' ∈ db'.resourceChallenges.rows, c' = { c with consumedAt := c'.consumedAt } ∧
      (c.consumedAt.isSome = true → c' = c) := by
  cases h with
  | unchanged => exact ⟨c, hc, rfl, fun _ ↦ rfl⟩
  | brokerStored htable heq => exact ⟨c, hc, rfl, fun _ ↦ rfl⟩
  | brokerConsumed hclock hrow => exact ⟨c, hc, rfl, fun _ ↦ rfl⟩
  | resourceStored htable heq =>
    refine ⟨c, ?_, rfl, fun _ ↦ rfl⟩
    obtain ⟨_, hrows⟩ := Table.insert?_eq_some htable
    rw [hrows]
    exact List.mem_append_left _ hc
  | @spent t a x r row now hclock hrow =>
    by_cases hm : c.tokenHash = a.tokenHash ∧ c.consumedAt.isNone
    · refine ⟨c.consume now, mem_resource_spend.mpr ⟨c, hc, by rw [if_pos hm]⟩, rfl, ?_⟩
      intro hsome
      rw [← Option.not_isSome, hsome] at hm
      cases hm.2
    · exact ⟨c, mem_resource_spend.mpr ⟨c, hc, by rw [if_neg hm]⟩, rfl, fun _ ↦ rfl⟩

/-- A run keeps every resource challenge, up to its consumption. -/
theorem resource_kept (w : World) (tr : D.Trace) {c : ResourceChallengeRow}
    (hc : c ∈ w.store.resourceChallenges.rows) :
    ∃ c' ∈ (D.system.after w tr).store.resourceChallenges.rows,
      c' = { c with consumedAt := c'.consumedAt } ∧ (c.consumedAt.isSome = true → c' = c) := by
  induction tr using List.reverseRecOn with
  | nil => exact ⟨c, hc, rfl, fun _ ↦ rfl⟩
  | append_singleton tr l ih =>
    obtain ⟨c₁, hc₁, hkept₁, hconsumed₁⟩ := ih
    obtain ⟨c₂, hc₂, hkept₂, hconsumed₂⟩ :=
      (effect_next (D.system.after w tr) l).resource_kept hc₁
    rw [System.after_snoc]
    refine ⟨c₂, hc₂, ?_, ?_⟩
    · rw [hkept₂, hkept₁]
    · intro hsome
      obtain rfl := hconsumed₁ hsome
      exact hconsumed₂ hsome

end Deployment
end Atcap
