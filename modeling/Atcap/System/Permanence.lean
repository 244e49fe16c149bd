import Atcap.Broker.Operations
import Atcap.Storage.Writes
import Atcap.System.Calls
import Atcap.System.Effect
import Atcap.System.Redemptions

/-!
# The history law of the store

No row is ever deleted, and nothing of a row changes but `consumed_at`, once, from NULL to a
value. What a redemption has read of its challenge outside the write lock therefore still holds
under it, and the rechecks of the transaction that cannot fail are named.
-/

namespace Atcap

open Base System InventoryApplication

/-! ### Later versions of rows -/

/-- A later version of a broker challenge: it differs in `consumed_at` at most, and not once that
is set. -/
def BrokerChallengeRow.Kept (r r' : BrokerChallengeRow) : Prop :=
  r' = { r with consumedAt := r'.consumedAt } ∧ (r.consumedAt.isSome = true → r' = r)

/-- A later version of a resource challenge. -/
def ResourceChallengeRow.Kept (r r' : ResourceChallengeRow) : Prop :=
  r' = { r with consumedAt := r'.consumedAt } ∧ (r.consumedAt.isSome = true → r' = r)

/-- A later database holds a version of every row; a redemption row never changes. -/
structure Store.Kept (db db' : Store) : Prop where
  broker : ∀ r ∈ db.brokerChallenges.rows, ∃ r' ∈ db'.brokerChallenges.rows, r.Kept r'
  resource : ∀ r ∈ db.resourceChallenges.rows, ∃ r' ∈ db'.resourceChallenges.rows, r.Kept r'
  redemption : ∀ r ∈ db.credentialRedemptions.rows, r ∈ db'.credentialRedemptions.rows

/-- A broker challenge is a version of itself. -/
theorem BrokerChallengeRow.Kept.refl (r : BrokerChallengeRow) : r.Kept r := ⟨rfl, fun _ ↦ rfl⟩

/-- Versions of a broker challenge compose. -/
theorem BrokerChallengeRow.Kept.trans {r₁ r₂ r₃ : BrokerChallengeRow} (h : r₁.Kept r₂)
    (h' : r₂.Kept r₃) : r₁.Kept r₃ := by
  refine ⟨by rw [h'.1, h.1], fun hs ↦ ?_⟩
  have heq := h.2 hs
  rw [heq] at h'
  exact h'.2 hs

/-- Consuming an unconsumed broker challenge makes a later version of it. -/
theorem BrokerChallengeRow.Kept.consume {r : BrokerChallengeRow} (now : Int)
    (h : r.consumedAt.isNone = true) : r.Kept (r.consume now) := by
  refine ⟨rfl, fun hs ↦ ?_⟩
  rw [← Option.not_isSome, hs] at h
  cases h

/-- Every database is a later version of itself. -/
theorem Store.Kept.refl (db : Store) : db.Kept db :=
  ⟨fun r hr ↦ ⟨r, hr, .refl r⟩, fun r hr ↦ ⟨r, hr, rfl, fun _ ↦ rfl⟩, fun _ hr ↦ hr⟩

/-- Later versions of a database compose. -/
theorem Store.Kept.trans {db₁ db₂ db₃ : Store} (h : db₁.Kept db₂) (h' : db₂.Kept db₃) :
    db₁.Kept db₃ := by
  refine ⟨?_, ?_, fun r hr ↦ h'.redemption r (h.redemption r hr)⟩
  · intro r hr
    obtain ⟨r₂, hr₂, hkept₂⟩ := h.broker r hr
    obtain ⟨r₃, hr₃, hkept₃⟩ := h'.broker r₂ hr₂
    exact ⟨r₃, hr₃, hkept₂.trans hkept₃⟩
  · intro r hr
    obtain ⟨r₂, hr₂, heq₂, hsame₂⟩ := h.resource r hr
    obtain ⟨r₃, hr₃, heq₃, hsame₃⟩ := h'.resource r₂ hr₂
    refine ⟨r₃, hr₃, by rw [heq₃, heq₂], fun hs ↦ ?_⟩
    obtain rfl := hsame₂ hs
    exact hsame₃ hs

/-! ### The rechecks of the transactions -/

/-- Why the transaction of `consume_challenge_and_spend_credential` raises, once it has found
its row: SQLite or the clock raised, a value cannot be bound, or one of three rechecks fails. -/
inductive SpendRefusal (a : SpendArgs) (clock : Except Exn Int) (f : Faults)
    (row : ResourceChallengeRow) : Exn → Prop where
  | fault {s : Statement} {e : Exn} : f s = some e → SpendRefusal a clock f row e
  | clock {e : Exn} : clock = .error e → SpendRefusal a clock f row e
  | text {t : Text} {e : Exn} : t ∈ [a.tokenHash, a.context.credentialId, a.context.recordId] →
      bindText t = .error e → SpendRefusal a clock f row e
  | time {now : Int} {e : Exn} : clock = .ok now → bindInt now = .error e →
      SpendRefusal a clock f row e
  | consumed : row.consumedAt.isSome = true → SpendRefusal a clock f row
      (.decision .CHALLENGE_CONSUMED "resource challenge was consumed")
  | expired {now : Int} : clock = .ok now → row.expiresAt ≤ now → SpendRefusal a clock f row
      (.decision .CHALLENGE_STALE "resource challenge expired")
  | credentialTime {now : Int} : clock = .ok now →
      now < a.credentialNotBefore ∨ a.credentialNotAfter < now → SpendRefusal a clock f row
      (.decision .CREDENTIAL_EXPIRED "credential expired while waiting for the SQLite write lock")

/-- Why the transaction of `consume_broker_challenge` raises. -/
inductive BrokerRefusal (tokenHash : Text) (clock : Except Exn Int) (f : Faults) (db : Store) :
    Exn → Prop where
  | fault {s : Statement} {e : Exn} : f s = some e → BrokerRefusal tokenHash clock f db e
  | clock {e : Exn} : clock = .error e → BrokerRefusal tokenHash clock f db e
  | text {e : Exn} : bindText tokenHash = .error e → BrokerRefusal tokenHash clock f db e
  | time {now : Int} {e : Exn} : clock = .ok now → bindInt now = .error e →
      BrokerRefusal tokenHash clock f db e
  | missing : db.brokerChallenges.find? tokenHash = none → BrokerRefusal tokenHash clock f db
      (.decision .CHALLENGE_INVALID "broker challenge was not issued")
  | consumed {row : BrokerChallengeRow} : db.brokerChallenges.find? tokenHash = some row →
      row.consumedAt.isSome = true → BrokerRefusal tokenHash clock f db
      (.decision .CHALLENGE_CONSUMED "broker challenge was consumed")
  | expired {row : BrokerChallengeRow} {now : Int} :
      db.brokerChallenges.find? tokenHash = some row → clock = .ok now → row.expiresAt ≤ now →
      BrokerRefusal tokenHash clock f db (.decision .CHALLENGE_STALE "broker challenge expired")

/-- A statement raises its own exception. -/
theorem check_eq_error {f : Faults} {s : Statement} {e : Exn} (h : f.check s = .error e) :
    f s = some e := by
  unfold Faults.check at h
  split at h
  · next e' he =>
    cases h
    exact he
  · cases h

/-- What a transaction raises, its body or one of its own statements raised. -/
theorem raised_of_transaction {α : Type} {f : Faults} {body : Store → Except Exn (α × Store)}
    {db : Store} {e : Exn} (h : (transaction f body db).1 = .error e) :
    (∃ s, f s = some e) ∨ body db = .error e := by
  rcases transaction_error h with ⟨_, hbody | ⟨s, hs⟩⟩ | ⟨hclose, _⟩
  · exact .inr hbody
  · exact .inl ⟨s, check_eq_error hs⟩
  · exact .inl ⟨.close, check_eq_error hclose⟩

/-- A spend that finds its row, bound to its context, raises for one of the live reasons. -/
theorem spendBody_error {a : SpendArgs} {clock : Except Exn Int} {f : Faults} {db : Store}
    {row : ResourceChallengeRow} {e : Exn}
    (hrow : db.resourceChallenges.find? a.tokenHash = some row) (hbound : row.context = a.context)
    (h : spendBody a clock f db = .error e) : SpendRefusal a clock f row e := by
  unfold spendBody at h
  rw [hrow] at h
  simp only [bind_eq_error, raiseIf_eq_error, raiseIf_eq_ok] at h
  rcases h with h | ⟨_, _, h⟩
  · exact .fault (check_eq_error h)
  rcases h with h | ⟨now, hclock, h⟩
  · exact .clock h
  rcases h with h | ⟨_, _, h⟩
  · exact .fault (check_eq_error h)
  rcases h with h | ⟨_, _, h⟩
  · exact .text (by simp) h
  rcases h with ⟨h, rfl⟩ | ⟨_, hconsumed, h⟩
  · exact .consumed h
  rcases h with ⟨h, rfl⟩ | ⟨_, _, h⟩
  · exact .expired hclock h
  rcases h with ⟨h, rfl⟩ | ⟨_, _, h⟩
  · exact .credentialTime hclock h
  rcases h with ⟨h, _⟩ | ⟨_, _, h⟩
  · exact absurd hbound h
  rcases h with h | ⟨_, _, h⟩
  · exact .fault (check_eq_error h)
  rcases h with h | ⟨_, _, h⟩
  · exact .text (by simp) h
  rcases h with h | ⟨_, _, h⟩
  · exact .text (by simp) h
  rcases h with h | ⟨_, _, h⟩
  · exact .time hclock h
  rcases h with h | ⟨_, _, h⟩
  · exact .fault (check_eq_error h)
  rcases h with ⟨h, _⟩ | ⟨_, _, h⟩
  · -- The row was found unconsumed under the same lock, so the update matches it.
    refine absurd ?_ h
    exact Table.updateWhere_count _ _ hrow (by simpa using hconsumed)
  rcases h with h | ⟨_, _, h⟩
  · exact .fault (check_eq_error h)
  · cases h

/-- A broker consumption raises for one of the live reasons. -/
theorem consumeBrokerBody_error {tokenHash : Text} {clock : Except Exn Int} {f : Faults}
    {db : Store} {e : Exn} (h : consumeBrokerBody tokenHash clock f db = .error e) :
    BrokerRefusal tokenHash clock f db e := by
  unfold consumeBrokerBody at h
  simp only [bind_eq_error] at h
  rcases h with h | ⟨_, _, h⟩
  · exact .fault (check_eq_error h)
  rcases h with h | ⟨now, hclock, h⟩
  · exact .clock h
  rcases h with h | ⟨_, _, h⟩
  · exact .fault (check_eq_error h)
  rcases h with h | ⟨_, _, h⟩
  · exact .text h
  split at h
  · next hnone =>
    cases h
    exact .missing hnone
  next row hrow =>
  simp only [bind_eq_error, raiseIf_eq_error, raiseIf_eq_ok] at h
  rcases h with ⟨h, rfl⟩ | ⟨_, hconsumed, h⟩
  · exact .consumed hrow h
  rcases h with ⟨h, rfl⟩ | ⟨_, _, h⟩
  · exact .expired hrow hclock h
  rcases h with h | ⟨_, _, h⟩
  · exact .fault (check_eq_error h)
  rcases h with h | ⟨_, _, h⟩
  · exact .time hclock h
  rcases h with ⟨h, _⟩ | ⟨_, _, h⟩
  · refine absurd ?_ h
    exact Table.updateWhere_count _ _ hrow (by simpa using hconsumed)
  rcases h with h | ⟨_, _, h⟩
  · exact .fault (check_eq_error h)
  · cases h

/-! ### Which service uses which table -/

/-- Operations that read or write `broker_challenges`. -/
def Op.usesBrokerTable : Op → Bool
  | .storeBrokerChallenge .. | .consumeBrokerChallenge _ => true
  | _ => false

/-- Operations that read or write `resource_challenges` or `credential_redemptions`. -/
def Op.usesResourceTables : Op → Bool
  | .storeResourceChallenge .. | .getResourceChallenge _ | .spend _ => true
  | _ => false

namespace Deployment

variable {D : Deployment} {w : World} {tr pre post : D.Trace} {t : Nat}
  {s : Config Op Op.Reply World Call (Except Exn Answer)}

/-- A call of `inventoryd` never uses the broker's table. -/
theorem guarantee_offBroker {c : Call} {h : History} {e : Op} {i : Nat}
    (hc : c.owner = .inventoryd i) (hg : D.guarantee c h e) : e.usesBrokerTable = false := by
  cases e with
  | clock | tokenHex | lib | sign | storeResourceChallenge | getResourceChallenge | spend
  | recordInvocation | invocationCount | inventoryLookup => rfl
  | storeBrokerChallenge tokenHash issuedAt expiresAt =>
    obtain ⟨b, rfl, _⟩ := guarantee_storeBrokerChallenge hg
    cases hc
  | consumeBrokerChallenge tokenHash =>
    unfold guarantee at hg
    cases hr : D.redemption? c with
    | some ir =>
      rw [hr] at hg
      cases hg.1
    | none =>
      rw [hr] at hg
      cases c with
      | newChallenge | issue => cases hc
      | issueResourceChallenge | redeem | directLookupAttempt | callTool => cases hg

/-- A call of a broker never uses the tables of the resource. -/
theorem offResource_of_broker (c : Call) : (D.system.body c).Sat (fun _ _ ↦ True)
    (fun _ e ↦ ∀ b, c.owner = .broker b → e.usesResourceTables = false) (fun _ _ ↦ True) [] := by
  have hclock : Op.usesResourceTables .clock = false := rfl
  have htoken : ∀ n, Op.usesResourceTables (.tokenHex n) = false := fun _ ↦ rfl
  have hlib : ∀ c, Op.usesResourceTables (.lib c) = false := fun _ ↦ rfl
  have hsign : ∀ signer payload, Op.usesResourceTables (.sign signer payload) = false :=
    fun _ _ ↦ rfl
  cases c with
  | newChallenge b =>
    change (D.body (.newChallenge b)).prog.Sat _ _ _ _
    rw [Body.sat_prog]
    apply Body.Sat.map
    exact Body.Sat.weaken (issues_newChallenge hclock htoken hlib (fun _ _ _ ↦ rfl)
      (D.broker b) _ _ _) fun _ _ he _ _ ↦ he
  | issue b request manifest tpmEvidence =>
    change (D.body (.issue b request manifest tpmEvidence)).prog.Sat _ _ _ _
    rw [Body.sat_prog]
    apply Body.Sat.map
    exact Body.Sat.weaken (issues_issue hclock htoken hlib hsign (fun _ ↦ rfl) D.lib (D.broker b)
      request manifest tpmEvidence _ _ _) fun _ _ he _ _ ↦ he
  | issueResourceChallenge | redeem | directLookupAttempt | callTool =>
    exact ((body_sat _).weaken fun _ _ _ _ hb ↦ nomatch hb).mono fun _ _ _ ↦ trivial

/-- An operation that does not use the broker's table leaves it as it is. -/
theorem brokerChallenges_exec {e : Op} (he : e.usesBrokerTable = false) (x : e.Input) (w : World) :
    (D.exec e x w).2.store.brokerChallenges = w.store.brokerChallenges := by
  cases e with
  | storeBrokerChallenge | consumeBrokerChallenge => cases he
  | clock | tokenHex | lib | sign | getResourceChallenge | recordInvocation | invocationCount
  | inventoryLookup => rfl
  | storeResourceChallenge tokenHash context issuedAt expiresAt =>
    change (Store.storeResourceChallenge tokenHash context issuedAt expiresAt x
      w.store).2.brokerChallenges = _
    rcases storeResourceChallenge_cases tokenHash context issuedAt expiresAt x w.store with
      ⟨hdb, _⟩ | ⟨table, _, heq⟩
    · rw [hdb]
    · rw [heq]
  | spend a =>
    change (Store.consumeChallengeAndSpendCredential a x.1 x.2 w.store).2.brokerChallenges = _
    rcases spend_cases a x.1 x.2 w.store with hdb | ⟨row, now, _, _, hdb⟩
    · rw [hdb]
    · rw [hdb]
      rfl

/-- An operation that does not use the tables of the resource leaves them as they are. -/
theorem resourceTables_exec {e : Op} (he : e.usesResourceTables = false) (x : e.Input)
    (w : World) :
    (D.exec e x w).2.store.resourceChallenges = w.store.resourceChallenges ∧
      (D.exec e x w).2.store.credentialRedemptions = w.store.credentialRedemptions := by
  cases e with
  | storeResourceChallenge | getResourceChallenge | spend => cases he
  | clock | tokenHex | lib | sign | recordInvocation | invocationCount | inventoryLookup =>
    exact ⟨rfl, rfl⟩
  | storeBrokerChallenge tokenHash issuedAt expiresAt =>
    change (Store.storeBrokerChallenge tokenHash issuedAt expiresAt x w.store).2.resourceChallenges
      = _ ∧ (Store.storeBrokerChallenge tokenHash issuedAt expiresAt x
        w.store).2.credentialRedemptions = _
    rcases storeBrokerChallenge_cases tokenHash issuedAt expiresAt x w.store with
      ⟨hdb, _⟩ | ⟨table, _, heq⟩
    · rw [hdb]
      exact ⟨rfl, rfl⟩
    · rw [heq]
      exact ⟨rfl, rfl⟩
  | consumeBrokerChallenge tokenHash =>
    change (Store.consumeBrokerChallenge tokenHash x.1 x.2 w.store).2.resourceChallenges = _ ∧
      (Store.consumeBrokerChallenge tokenHash x.1 x.2 w.store).2.credentialRedemptions = _
    rcases consumeBrokerChallenge_cases tokenHash x.1 x.2 w.store with hdb | ⟨row, now, _, _, hdb⟩
    · rw [hdb]
      exact ⟨rfl, rfl⟩
    · rw [hdb]
      exact ⟨rfl, rfl⟩

/-! ### The law -/

/-- An effect keeps every row. -/
theorem Effect.kept {db db' : Store} {l : D.system.Label} (h : D.Effect db l db') :
    db.Kept db' := by
  refine ⟨?_, fun r hr ↦ h.resource_kept hr, fun r hr ↦ h.redemptions_grow.subset hr⟩
  intro r hr
  cases h with
  | unchanged | resourceStored | spent => exact ⟨r, hr, .refl r⟩
  | brokerStored htable heq =>
    obtain ⟨_, hrows⟩ := Table.insert?_eq_some htable
    refine ⟨r, ?_, .refl r⟩
    rw [hrows]
    exact List.mem_append_left _ hr
  | @brokerConsumed t tokenHash x reply row now hclock hrow =>
    by_cases hm : r.tokenHash = tokenHash ∧ r.consumedAt.isNone
    · exact ⟨r.consume now, mem_broker_consume.mpr ⟨r, hr, by rw [if_pos hm]⟩, .consume now hm.2⟩
    · exact ⟨r, mem_broker_consume.mpr ⟨r, hr, by rw [if_neg hm]⟩, .refl r⟩

/-- A run keeps every row. -/
theorem kept_after (w : World) (tr : D.Trace) : w.store.Kept (D.system.after w tr).store := by
  induction tr using List.reverseRecOn with
  | nil => exact .refl _
  | append_singleton tr l ih =>
    rw [System.after_snoc]
    exact ih.trans (effect_next (D.system.after w tr) l).kept

/-- What a call has read of a stored challenge holds from then on, up to its consumption. -/
theorem read_kept (h : D.system.Run w tr s) {tokenHash : Text} {row : ResourceChallengeRow}
    (hread : ⟨.getResourceChallenge tokenHash, .ok (some row)⟩ ∈ D.history t tr) :
    ∃ row', (D.system.after w tr).store.resourceChallenges.find? tokenHash = some row' ∧
      row.Kept row' := by
  obtain ⟨f, hl⟩ := System.mem_own.mp hread
  obtain ⟨pre, post, he⟩ := List.append_of_mem hl
  have hfound := getResourceChallenge_ok (h.reply_eq he).symm
  obtain ⟨hmem, hkey⟩ := (Table.find?_eq_some _).mp hfound.symm
  have hafter : D.system.after w tr = D.system.after (D.system.after w pre)
      (.act t (.getResourceChallenge tokenHash) f (.ok (some row)) :: post) := by
    rw [he, System.after_append]
  obtain ⟨row', hmem', hkept⟩ := (kept_after (D.system.after w pre)
    (.act t (.getResourceChallenge tokenHash) f (.ok (some row)) :: post)).resource row hmem
  refine ⟨row', ?_, hkept⟩
  rw [hafter, Table.find?_eq_some]
  refine ⟨hmem', ?_⟩
  rw [hkept.1]
  exact hkey

/-- What a step may touch: a call's operation uses the tables of its own service only, and every
other step leaves the database as it is. -/
def Separated (w : World) (pre : D.Trace) : D.system.Label → Prop
  | .act t e x _ => ∃ c, Label.start t c ∈ pre ∧
      (∀ b, c.owner = .broker b → e.usesResourceTables = false ∧
        (D.exec e x w).2.store.resourceChallenges = w.store.resourceChallenges ∧
        (D.exec e x w).2.store.credentialRedemptions = w.store.credentialRedemptions) ∧
      (∀ i, c.owner = .inventoryd i → e.usesBrokerTable = false ∧
        (D.exec e x w).2.store.brokerChallenges = w.store.brokerChallenges)
  | l => (D.system.next w l).store = w.store

/-- Every step of a run touches only the tables of its own service. -/
theorem separated (h : D.system.Run w tr s) {l : D.system.Label} (he : tr = pre ++ l :: post) :
    Separated (D.system.after w pre) pre l := by
  cases l with
  | start t c => exact rfl
  | finish t a => exact rfl
  | crash i =>
    cases i with
    | inventoryd i => exact rfl
    | broker b => exact rfl
  | act t e x r =>
    obtain ⟨c, hc, hg⟩ := h.guarantee_at (A := fun _ _ _ ↦ True) body_sat he
    obtain ⟨c', hc', hoff⟩ := h.guarantee_at (A := fun _ _ _ ↦ True) offResource_of_broker he
    obtain ⟨s₁, _, hpre, _⟩ := h.split he
    obtain rfl := hpre.start_unique hc hc'
    refine ⟨c, hc, fun b hb ↦ ?_, fun i hi ↦ ?_⟩
    · have huses := hoff (fun _ _ _ _ ↦ trivial) b hb
      exact ⟨huses, resourceTables_exec huses x _⟩
    · have huses := guarantee_offBroker hi (hg fun _ _ _ _ ↦ trivial)
      exact ⟨huses, brokerChallenges_exec huses x _⟩

/-- What the locked part of a spend meets: the challenge the call itself has read, bound to the
same context. -/
structure Rechecked (w : World) (pre : D.Trace) (t : Nat) (a : SpendArgs)
    (x : Except Exn Int × Faults) (r : Except Exn CredentialSpendResult)
    (row : ResourceChallengeRow) : Prop where
  stored : w.store.resourceChallenges.find? a.tokenHash = some row
  bound : row.context = a.context
  read : ∃ read, ⟨.getResourceChallenge a.tokenHash, .ok (some read)⟩ ∈ D.history t pre ∧
    read.context = a.context ∧ read.Kept row
  matched : ∀ now, row.consumedAt = none → (w.store.resourceChallenges.updateWhere
    (ResourceChallengeRow.consume now) (fun _ ↦ rfl) a.tokenHash
      (fun r ↦ r.consumedAt.isNone)).2 = 1
  refused : ∀ e, r = .error e → SpendRefusal a x.1 x.2 row e

/-- Every spend of a run meets the challenge that its redemption has read. -/
theorem spend_rechecked (h : D.system.Run w tr s) {a : SpendArgs} {x : Except Exn Int × Faults}
    {r : Except Exn CredentialSpendResult} (he : tr = pre ++ .act t (.spend a) x r :: post) :
    ∃ row, Rechecked (D.system.after w pre) pre t a x r row := by
  obtain ⟨c, hc, hg⟩ := h.guarantee_at (A := fun _ _ _ ↦ True) body_sat he
  obtain ⟨i, request, _, p, rfl, _, hchecked⟩ := guarantee_spend (hg fun _ _ _ _ ↦ trivial)
  obtain ⟨read, now, hread, hcontext, _⟩ := hchecked.challenge.read
  obtain ⟨s₁, _, hpre, _⟩ := h.split he
  obtain ⟨row, hrow, hkept⟩ := read_kept hpre hread
  have hbound : row.context = p.context (D.app i) request := by
    rw [hkept.1]
    exact hcontext
  refine ⟨row, hrow, hbound, ⟨read, hread, hcontext, hkept⟩, fun now hnone ↦ ?_, fun e hr ↦ ?_⟩
  · exact Table.updateWhere_count _ _ hrow (by rw [hnone]; rfl)
  · have hreply := h.reply_eq he
    rw [hr] at hreply
    rcases raised_of_transaction hreply.symm with ⟨statement, hf⟩ | hbody
    · exact .fault hf
    · exact spendBody_error hrow hbound hbody

/-- Every broker consumption of a run raises for one of the live reasons. -/
theorem consume_rechecked (h : D.system.Run w tr s) {tokenHash : Text}
    {x : Except Exn Int × Faults} {e : Exn}
    (he : tr = pre ++ .act t (.consumeBrokerChallenge tokenHash) x (.error e) :: post) :
    BrokerRefusal tokenHash x.1 x.2 (D.system.after w pre).store e := by
  rcases raised_of_transaction (h.reply_eq he).symm with ⟨statement, hf⟩ | hbody
  · exact .fault hf
  · exact consumeBrokerBody_error hbody

/-- The history law and the dead branches, in every run over one store from any state: rows are
kept between any two points; each service touches its own tables only; a spend finds the row its
call has read, bound to the same context, and its update matches that row unless it is consumed;
so do the updates of broker challenges. -/
theorem history_law (h : D.system.Run w tr s) :
    (∀ pre mid post, tr = pre ++ mid ++ post →
      (D.system.after w pre).store.Kept (D.system.after w (pre ++ mid)).store) ∧
    (∀ pre l post, tr = pre ++ l :: post → Separated (D.system.after w pre) pre l) ∧
    (∀ pre t a x r post, tr = pre ++ .act t (.spend a) x r :: post →
      ∃ row, Rechecked (D.system.after w pre) pre t a x r row) ∧
    (∀ pre t tokenHash x r post,
      tr = pre ++ .act t (.consumeBrokerChallenge tokenHash) x r :: post →
      (∀ row now, (D.system.after w pre).store.brokerChallenges.find? tokenHash = some row →
        row.consumedAt = none → ((D.system.after w pre).store.brokerChallenges.updateWhere
          (BrokerChallengeRow.consume now) (fun _ ↦ rfl) tokenHash
          (fun r ↦ r.consumedAt.isNone)).2 = 1) ∧
      ∀ e, r = .error e → BrokerRefusal tokenHash x.1 x.2 (D.system.after w pre).store e) := by
  refine ⟨?_, ?_, ?_, ?_⟩
  · intro pre mid post _
    rw [System.after_append]
    exact kept_after _ _
  · intro pre l post he
    exact separated h he
  · intro pre t a x r post he
    exact spend_rechecked h he
  · intro pre t tokenHash x r post he
    refine ⟨fun row now hrow hnone ↦ ?_, fun e hr ↦ ?_⟩
    · exact Table.updateWhere_count _ _ hrow (by rw [hnone]; rfl)
    · subst hr
      exact consume_rechecked h he

/-- The law at a run with two redemptions of one credential. -/
theorem history_law_twoRedemptions : ∃ tr s, Demo.deployment.system.Run .initial tr s ∧
    Demo.deployment.reasons tr = [(1, .ALLOW), (3, .CREDENTIAL_SPENT)] ∧
    ∀ pre t a x r post, tr = pre ++ .act t (.spend a) x r :: post →
      ∃ row, Rechecked (Demo.deployment.system.after .initial pre) pre t a x r row := by
  obtain ⟨tr, s, hrun, -, -, hreasons, -⟩ := Demo.exists_twoRedemptions
  exact ⟨tr, s, hrun, hreasons, (history_law hrun).2.2.1⟩

end Deployment
end Atcap
