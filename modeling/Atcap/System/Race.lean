import Mathlib.Data.Finset.Card
import Mathlib.Data.Finset.Image
import Atcap.Inventory.Race
import Atcap.System.Redemptions
import Atcap.System.Schedule

/-!
# Racing redemptions of one credential

Any number of calls redeem one unspent credential, each of which would be allowed on its own,
with any number of them presenting the same challenge. A rival is the only thing that can make a
call lose. Whatever the schedule, each challenge is consumed by one call's transaction, and the
first of these transactions spends the credential.
-/

namespace Atcap

open Base System InventoryApplication

namespace Deployment

variable (D : Deployment)

/-- What the environment decides for a call that would be allowed on its own: accepting answers,
clock readings inside both windows, and no failure of the store, the signer or the handler. -/
def Favourable (k : Contestant) : (e : Op) → e.Input → e.Reply → Prop
  | .clock, x, _ => ∃ now, x = .ok now ∧ k.Inside now
  | .lib (.credentialFromDict _), x, _ => x = .ok k.shown.credential
  | .lib (.verifyChain ..), x, _ => x = .ok ()
  | .lib (.holderProofFromDict _), x, _ => x = .ok k.shown.proof
  | .lib (.verifyHolderProof _), x, _ => x = .ok ()
  | .getResourceChallenge _, x, _ => x = Faults.none
  | .spend _, x, _ => (∃ now, x.1 = .ok now ∧ k.Inside now) ∧ x.2 = Faults.none
  | .inventoryLookup .., _, r => ∃ raw, r = .ok raw ∧ Contestant.HandlerResult raw
  | .sign .., _, r => ∃ receipt, r = .ok receipt
  | _, _, _ => True

/-- A state that a run from the empty database reaches. -/
def Reachable (w : World) : Prop := ∃ tr s, D.system.Run .initial tr s ∧ s.shared = w

/-- A run in which exactly the calls of `threads` are made, all for one unspent credential and
all to the end, each of which would be allowed on its own. -/
structure Race (w : World) (tr : D.Trace) (threads : List Nat) (k : Nat → Contestant)
    (credentialId : Text) : Prop where
  distinct : threads.Nodup
  unspent : w.store.spent credentialId = false
  credential : ∀ t ∈ threads, (k t).shown.credential.credentialId = credentialId
  eligible : ∀ t ∈ threads, (k t).Eligible D.lib (D.app (k t).service)
  stored : ∀ t ∈ threads, (k t).row ∈ w.store.resourceChallenges.rows
  started : ∀ t c, Label.start t c ∈ tr ↔
    t ∈ threads ∧ c = .redeem (k t).service (k t).request
  finished : ∀ t ∈ threads, ∃ a, Label.finish t a ∈ tr
  running : ∀ i, Label.crash i ∉ tr
  favourable : ∀ t e x r, Label.act t e x r ∈ tr → Favourable (k t) e x r

/-- The reason of the decision a thread returned. -/
def reasonOf (t : Nat) (tr : D.Trace) : Option Reason :=
  match (D.system.answers tr).lookup t with
  | some (.ok (.decision d)) => some d.reason
  | _ => none

variable {D} {w : World} {tr pre post : D.Trace} {t : Nat}
  {s : Config Op Op.Reply World Call (Except Exn Answer)}

/-! ### Stored challenges -/

/-- A stored resource challenge was issued at a time that is not negative, for a lifetime that
SQLite can store. -/
theorem reachable_row (hw : D.Reachable w) {row : ResourceChallengeRow}
    (hrow : row ∈ w.store.resourceChallenges.rows) :
    0 ≤ row.issuedAt ∧ row.expiresAt < 2 ^ 63 := by
  obtain ⟨tr, s, h, rfl⟩ := hw
  rw [h.shared_eq] at hrow
  obtain ⟨pre, post, t, f, he⟩ := resource_written h hrow
  obtain ⟨c, _, hg⟩ := h.guarantee_at (A := fun _ _ _ ↦ True) body_sat he
  obtain ⟨_, _, _, _, _, _, _, _, _, _, _, _, _, _, hnow, _⟩ :=
    guarantee_storeResourceChallenge (hg fun _ _ _ _ ↦ trivial)
  refine ⟨hnow, ?_⟩
  have hreply := h.reply_eq he
  obtain ⟨_, hexpires⟩ := storeResourceChallenge_ok hreply.symm
  unfold bindInt at hexpires
  split at hexpires
  · next hrange => exact hrange.2
  · cases hexpires

/-- The row of a stored challenge in a later state of the run. -/
theorem find_kept (w : World) (tr : D.Trace) {row : ResourceChallengeRow}
    (hrow : row ∈ w.store.resourceChallenges.rows) :
    ∃ row', (D.system.after w tr).store.resourceChallenges.find? row.tokenHash = some row' ∧
      row' = { row with consumedAt := row'.consumedAt } := by
  obtain ⟨row', hmem, hkept, _⟩ := resource_kept w tr hrow
  refine ⟨row', (Table.find?_eq_some _).mpr ⟨hmem, ?_⟩, hkept⟩
  rw [hkept]

/-! ### The invocation counter -/

/-- Without a crash, a step does not lower an invocation counter. -/
theorem counter_next_le (w : World) {l : D.system.Label} (hl : ∀ j, l ≠ .crash j) (i : Nat) :
    w.counter i ≤ (D.system.next w l).counter i := by
  cases l with
  | start t c => exact le_rfl
  | finish t a => exact le_rfl
  | crash j => exact absurd rfl (hl j)
  | act t e x r =>
    cases e with
    | recordInvocation j =>
      change w.counter i ≤ Function.update w.counter j (w.counter j + 1) i
      by_cases hj : i = j
      · subst hj
        rw [Function.update_self]
        omega
      · rw [Function.update_of_ne hj]
    | clock | tokenHex | lib | sign | storeBrokerChallenge | consumeBrokerChallenge
    | storeResourceChallenge | getResourceChallenge | spend | invocationCount
    | inventoryLookup => exact le_rfl

/-- Without a crash, no invocation counter is lowered. -/
theorem counter_le (w : World) (hl : ∀ j, Label.crash j ∉ tr) (i : Nat) :
    w.counter i ≤ (D.system.after w tr).counter i := by
  induction tr using List.reverseRecOn with
  | nil => exact le_rfl
  | append_singleton tr l ih =>
    rw [System.after_snoc]
    have hle := ih fun j hj ↦ hl j (List.mem_append_left _ hj)
    apply hle.trans (counter_next_le _ _ i)
    rintro j rfl
    exact hl j (by simp)

/-! ### Spends without faults -/

/-- No spend of the run fails in the store. -/
def Faultless (tr : D.Trace) : Prop :=
  ∀ t a x r, Label.act t (.spend a) x r ∈ tr → x.2 = Faults.none

/-- The spends of a run that committed and returned. -/
def Spends (tr : D.Trace) (t : Nat) (a : SpendArgs) (res : CredentialSpendResult) : Prop :=
  ∃ x, Label.act t (.spend a) x (.ok res) ∈ tr

/-- A consumed challenge was consumed before the run or by one of its spends, and a spent
credential was spent before the run or by a first spend. -/
theorem spends_of_consumed (h : D.system.Run w tr s) (hf : Faultless tr) :
    (∀ row ∈ (D.system.after w tr).store.resourceChallenges.rows, row.consumedAt.isSome = true →
      row ∈ w.store.resourceChallenges.rows ∨
      ∃ t a res, Spends tr t a res ∧ a.tokenHash = row.tokenHash) ∧
    (∀ c, (D.system.after w tr).store.spent c = true → w.store.spent c = true ∨
      ∃ t a res, Spends tr t a res ∧ a.context.credentialId = c ∧ res.firstSpend = true) := by
  induction h with
  | nil => exact ⟨fun row hrow _ ↦ .inl hrow, fun c hc ↦ .inl hc⟩
  | @snoc tr s s' l hrun hstep ih =>
    obtain ⟨ihrow, ihspent⟩ := ih fun t a x r hl ↦ hf t a x r (List.mem_append_left _ hl)
    have hmono : ∀ {t a res}, Spends tr t a res → Spends (tr ++ [l]) t a res :=
      fun ⟨x, hx⟩ ↦ ⟨x, List.mem_append_left _ hx⟩
    -- What the run before the last step knows about rows that the step keeps.
    have hrowKept : ∀ row ∈ (D.system.after w tr).store.resourceChallenges.rows,
        row.consumedAt.isSome = true → row ∈ w.store.resourceChallenges.rows ∨
        ∃ t a res, Spends (tr ++ [l]) t a res ∧ a.tokenHash = row.tokenHash := by
      intro row hrow hc
      rcases ihrow row hrow hc with hw | ⟨t, a, res, hs, he⟩
      · exact .inl hw
      · exact .inr ⟨t, a, res, hmono hs, he⟩
    have hspentKept : ∀ c, (D.system.after w tr).store.spent c = true → w.store.spent c = true ∨
        ∃ t a res, Spends (tr ++ [l]) t a res ∧ a.context.credentialId = c ∧
          res.firstSpend = true := by
      intro c hc
      rcases ihspent c hc with hw | ⟨t, a, res, hs, he⟩
      · exact .inl hw
      · exact .inr ⟨t, a, res, hmono hs, he⟩
    rw [System.after_snoc]
    have heffect := effect_next (D.system.after w tr) l
    generalize hdb : (D.system.next (D.system.after w tr) l).store = db at heffect
    cases heffect with
    | unchanged => exact ⟨hrowKept, hspentKept⟩
    | brokerStored htable heq => exact ⟨hrowKept, hspentKept⟩
    | brokerConsumed hclock hr => exact ⟨hrowKept, hspentKept⟩
    | resourceStored htable heq =>
      refine ⟨?_, hspentKept⟩
      obtain ⟨_, hrows⟩ := Table.insert?_eq_some htable
      intro row hrow hc
      change row ∈ Table.rows _ at hrow
      rw [hrows, List.mem_append, List.mem_singleton] at hrow
      rcases hrow with hrow | rfl
      · exact hrowKept row hrow hc
      · cases hc
    | @spent t a x r row' now hclock hr =>
      have hfault := hf t a x r (by simp)
      cases r with
      | error e =>
        -- A spend that raised without a fault left the database as it was.
        have hreply := (hrun.snoc hstep).reply_eq rfl
        have hsame : (D.system.after w tr).store.spend a now = (D.system.after w tr).store := by
          rw [← hdb]
          obtain ⟨clock, f⟩ := x
          obtain rfl : f = Faults.none := hfault
          exact spend_faultless_error hreply.symm
        rw [hsame]
        exact ⟨hrowKept, hspentKept⟩
      | ok res =>
        obtain ⟨_, now', _, _, _, hres⟩ := spend_committed (hrun.snoc hstep) rfl
        refine ⟨?_, ?_⟩
        · intro row hrow hc
          obtain ⟨c, hmem, rfl⟩ := mem_resource_spend.mp hrow
          by_cases hm : c.tokenHash = a.tokenHash ∧ c.consumedAt.isNone
          · rw [if_pos hm]
            exact .inr ⟨t, a, res, ⟨x, by simp⟩, hm.1.symm⟩
          · rw [if_neg hm] at hc ⊢
            exact hrowKept c hmem hc
        · intro c hc
          by_cases hspent : (D.system.after w tr).store.spent c = true
          · exact hspentKept c hspent
          · right
            obtain ⟨row, hrow, rfl⟩ := spent_iff.mp hc
            rw [rows_redemptions_spend] at hrow
            split at hrow
            · exact absurd (spent_iff.mpr ⟨row, hrow, rfl⟩) hspent
            · next hfirst =>
              rw [List.mem_append, List.mem_singleton] at hrow
              rcases hrow with hrow | rfl
              · exact absurd (spent_iff.mpr ⟨row, hrow, rfl⟩) hspent
              · refine ⟨t, a, res, ⟨x, by simp⟩, rfl, ?_⟩
                rw [hres]
                simpa using hfirst

/-- The row a committed spend leaves consumed. -/
theorem consumed_after_spend (h : D.system.Run w tr s) {a : SpendArgs} {x : Except Exn Int × Faults}
    {res : CredentialSpendResult} (he : tr = pre ++ .act t (.spend a) x (.ok res) :: post)
    (mid : D.Trace) : ∃ row ∈ (D.system.after w
      (pre ++ .act t (.spend a) x (.ok res) :: mid)).store.resourceChallenges.rows,
      row.tokenHash = a.tokenHash ∧ row.consumedAt.isSome = true := by
  obtain ⟨row, now, _, hrow, hdb, _⟩ := spend_committed h he
  obtain ⟨hmem, hkey⟩ := (Table.find?_eq_some _).mp hrow.stored
  have hconsumed : row.consume now ∈ (D.system.after w
      (pre ++ [.act t (.spend a) x (.ok res)])).store.resourceChallenges.rows := by
    rw [hdb]
    refine mem_resource_spend.mpr ⟨row, hmem, ?_⟩
    rw [if_pos ⟨hkey, by rw [hrow.unconsumed]; rfl⟩]
  obtain ⟨row', hmem', _, hsame⟩ := resource_kept _ mid hconsumed
  obtain rfl := hsame rfl
  rw [← System.after_append, List.append_assoc, List.singleton_append] at hmem'
  exact ⟨_, hmem', hkey, rfl⟩

private theorem not_spent_again (h : D.system.Run w tr s) {a a' : SpendArgs} {t' : Nat}
    {x x' : Except Exn Int × Faults} {res res' : CredentialSpendResult} {pre' post' mid : D.Trace}
    (he : tr = pre ++ .act t (.spend a) x (.ok res) :: post)
    (he' : tr = pre' ++ .act t' (.spend a') x' (.ok res') :: post')
    (ha : a.tokenHash = a'.tokenHash)
    (hmid : pre' = pre ++ .act t (.spend a) x (.ok res) :: mid) : False := by
  obtain ⟨row, hrow, hkey, hconsumed⟩ := consumed_after_spend h he mid
  obtain ⟨row', _, _, hrow', _⟩ := spend_committed h he'
  rw [← hmid] at hrow
  obtain ⟨hstored, hkey'⟩ := (Table.find?_eq_some _).mp hrow'.stored
  have hsame := Table.eq_of_key_eq _ hrow hstored (hkey.trans (ha.trans hkey'.symm))
  rw [hsame, hrow'.unconsumed] at hconsumed
  cases hconsumed

/-- A resource challenge is consumed by at most one step of a run. -/
theorem spends_unique (h : D.system.Run w tr s) {a a' : SpendArgs} {t' : Nat}
    {res res' : CredentialSpendResult} (hs : Spends tr t a res) (hs' : Spends tr t' a' res')
    (ha : a.tokenHash = a'.tokenHash) : t = t' ∧ res = res' := by
  obtain ⟨x, hx⟩ := hs
  obtain ⟨x', hx'⟩ := hs'
  obtain ⟨pre, post, he⟩ := List.append_of_mem hx
  obtain ⟨pre', post', he'⟩ := List.append_of_mem hx'
  rcases System.split_cases (he.symm.trans he') with ⟨_, hl⟩ | ⟨mid, hmid⟩ | ⟨mid, hmid⟩
  · cases hl
    exact ⟨rfl, rfl⟩
  · exact (not_spent_again h he he' ha hmid).elim
  · exact (not_spent_again h he' he ha.symm hmid).elim

/-- A committed spend leaves its credential spent. -/
theorem spent_after_spend (h : D.system.Run w tr s) {a : SpendArgs} {x : Except Exn Int × Faults}
    {res : CredentialSpendResult} (he : tr = pre ++ .act t (.spend a) x (.ok res) :: post) :
    (D.system.after w tr).store.spent a.context.credentialId = true := by
  obtain ⟨row, now, _, _, hdb, _⟩ := spend_committed h he
  have hspent : ((D.system.after w pre).store.spend a now).spent a.context.credentialId = true := by
    rw [spent_iff, rows_redemptions_spend]
    split
    · next hbefore => exact spent_iff.mp hbefore
    · exact ⟨a.redemption now, by simp, rfl⟩
  rw [← hdb] at hspent
  obtain ⟨r, hmem, hr⟩ := spent_iff.mp hspent
  rw [he, ← List.singleton_append, ← List.append_assoc, System.after_append, spent_iff, rows_after]
  exact ⟨r, List.mem_append_left _ hmem, hr⟩

/-! ### What a contestant is answered -/

section Answers

variable {threads : List Nat} {k : Nat → Contestant} {credentialId : Text}

/-- A rival, or the call itself, has consumed the challenge of a contestant. -/
def Lost (tr : D.Trace) (k : Contestant) : Prop :=
  ∃ t a res, Spends tr t a res ∧ a.tokenHash = k.shown.tokenHash

/-- The store of a race raises nothing. -/
theorem Race.faultless (hr : D.Race w tr threads k credentialId) : Faultless tr := by
  intro t a x r hl
  exact (hr.favourable t _ x r hl).2

/-- The challenge of a contestant in every state of the race: its own row, and a rival's spend
once it is consumed. -/
theorem Race.challenge (hr : D.Race w tr threads k credentialId)
    (h : D.system.Run w tr s) (ht : t ∈ threads) {l : D.system.Label}
    (he : tr = pre ++ l :: post) :
    ∃ row, (D.system.after w pre).store.resourceChallenges.find? (k t).shown.tokenHash = some row ∧
      row.context = (k t).row.context ∧ row.expiresAt = (k t).row.expiresAt ∧
      (row.consumedAt.isSome = true → Lost tr (k t)) := by
  have hstored := hr.stored t ht
  obtain ⟨row, hfind, hkept⟩ := find_kept w pre hstored
  rw [(hr.eligible t ht).key] at hfind
  refine ⟨row, hfind, by rw [hkept]; rfl, by rw [hkept], fun hconsumed ↦ ?_⟩
  obtain ⟨hmem, hkey⟩ := (Table.find?_eq_some _).mp hfind
  obtain ⟨s₁, _, hpre, _⟩ := h.split he
  have hsub : ∀ l' ∈ pre, l' ∈ tr := fun l' hl' ↦ by rw [he]; exact List.mem_append_left _ hl'
  have hf : Faultless pre := fun t a x r hl ↦ hr.faultless t a x r (hsub _ hl)
  rcases (spends_of_consumed hpre hf).1 row hmem hconsumed with hbefore | ⟨t', a, res, ⟨x, hx⟩, ha⟩
  · -- The row was stored unconsumed.
    have hsame := Table.eq_of_key_eq _ hbefore hstored
      (hkey.trans (hr.eligible t ht).key.symm)
    rw [hsame, (hr.eligible t ht).unconsumed] at hconsumed
    cases hconsumed
  · exact ⟨t', a, res, ⟨x, hsub _ hx⟩, ha.trans hkey⟩

/-- The locked part of a contestant's spend commits, or finds the challenge consumed. -/
theorem Race.spend_reply (hw : D.Reachable w) (hr : D.Race w tr threads k credentialId)
    (h : D.system.Run w tr s) (ht : t ∈ threads) {x : Except Exn Int × Faults}
    {r : Except Exn CredentialSpendResult}
    (he : tr = pre ++ .act t (.spend ((k t).shown.spendArgs (D.app (k t).service) (k t).request))
      x r :: post) :
    (Lost tr (k t) ∧ ∃ message, r = .error (.decision .CHALLENGE_CONSUMED message)) ∨
      ∃ res, r = .ok res ∧ res.challengeExpiresAt = (k t).row.expiresAt := by
  have hk := hr.eligible t ht
  obtain ⟨row, hfind, hcontext, hexpires, hlost⟩ := hr.challenge h ht he
  have hreply := h.reply_eq he
  obtain ⟨⟨now, hclock, hlower, hupper, hissued, hfresh⟩, hfault⟩ :=
    hr.favourable t (.spend ((k t).shown.spendArgs (D.app (k t).service) (k t).request)) x r
      (by rw [he]; simp)
  obtain ⟨clock, f⟩ := x
  obtain rfl : clock = .ok now := hclock
  obtain rfl : f = Faults.none := hfault
  have hrange := reachable_row hw (hr.stored t ht)
  obtain ⟨hhash, hcredential, hrecord⟩ := hk.presentable.bindText
  have hnow : bindInt now = .ok () := by
    rw [bindInt, if_pos ⟨by omega, by omega⟩]
  rcases spend_faultless (a := (k t).shown.spendArgs (D.app (k t).service) (k t).request) hfind
    (by omega) hlower hupper (hcontext.trans hk.bound) hhash hcredential hrecord hnow with
    ⟨hconsumed, message, heq⟩ | ⟨_, heq⟩
  · left
    exact ⟨hlost hconsumed, message, hreply.trans (congrArg Prod.fst heq)⟩
  · right
    exact ⟨_, hreply.trans (congrArg Prod.fst heq), hexpires⟩

/-- In a race, a contestant is answered so that only its rivals can make it lose. -/
theorem Race.relies (hw : D.Reachable w) (hr : D.Race w tr threads k credentialId)
    (h : D.system.Run w tr s) (ht : t ∈ threads) :
    Prog.Relies ((k t).rely (D.app (k t).service) (Lost tr (k t))) (D.history t tr) := by
  intro hpre ev hpost hown
  obtain ⟨pre, x, post, he, hown', _⟩ := System.own_eq_append hown
  have hfav := hr.favourable t ev.op x ev.reply (by rw [he]; simp)
  have hreply := h.reply_eq he
  rcases ev with ⟨e, r⟩
  cases e with
  | clock =>
    obtain ⟨now, rfl, hinside⟩ := hfav
    exact ⟨now, hreply, hinside⟩
  | tokenHex n => exact ⟨x.val, x.property, hreply⟩
  | lib c =>
    obtain rfl : r = x := hreply
    cases c with
    | credentialFromDict | verifyChain | holderProofFromDict | verifyHolderProof => exact hfav
    | verifyChallenge | credentialSign | credentialBody | manifestNormalize | manifestCanonicalHash
    | verifyManifest | ed25519PublicKey | ed25519Verify | readPcrSelection | evaluationTime
    | loadPemX509Certificates | verifyTpmQuote | appraise => trivial
  | sign signer payload => exact hfav
  | storeBrokerChallenge | consumeBrokerChallenge | storeResourceChallenge => trivial
  | getResourceChallenge tokenHash =>
    rintro rfl
    obtain rfl : x = Faults.none := hfav
    obtain ⟨row, hfind, hcontext, hexpires, hlost⟩ := hr.challenge h ht he
    refine ⟨row, ?_, hcontext, hexpires, hlost⟩
    obtain ⟨hhash, _, _⟩ := (hr.eligible t ht).presentable.bindText
    rw [← hfind]
    refine hreply.trans ?_
    change Store.getResourceChallenge _ _ _ = _
    unfold Store.getResourceChallenge
    rw [hhash]
    rfl
  | spend a =>
    rintro rfl
    exact hr.spend_reply hw h ht he
  | recordInvocation i =>
    have hcount : r = (D.system.after w pre).counter i + 1 := hreply
    change 1 ≤ r
    rw [hcount]
    exact Nat.le_add_left 1 _
  | invocationCount i =>
    intro n hn
    -- The counter has not been lowered since the own increment.
    rw [← hown'] at hn
    obtain ⟨y, hy⟩ := System.mem_own.mp hn
    obtain ⟨pre₁, mid, hpre₁⟩ := List.append_of_mem hy
    have he₁ : tr = pre₁ ++ .act t (.recordInvocation i) y n ::
        (mid ++ .act t (.invocationCount i) x r :: post) := by
      rw [he, hpre₁]
      simp
    have hn : n = (D.system.after w (pre₁ ++ [.act t (.recordInvocation i) y n])).counter i := by
      rw [System.after_snoc]
      refine (h.reply_eq he₁).trans ?_
      exact (Function.update_self (f := (D.system.after w pre₁).counter) ..).symm
    have hcrash : ∀ j, Label.crash j ∉ mid := by
      intro j hj
      exact hr.running j (by rw [he₁]; simp [hj])
    have hle := counter_le
      (D.system.after w (pre₁ ++ [.act t (.recordInvocation i) y n])) hcrash i
    rw [← System.after_append, List.append_assoc, List.singleton_append, ← hpre₁, ← hn] at hle
    exact hle.trans (le_of_eq hreply.symm)
  | inventoryLookup i sku => exact hfav

/-- The program of a contestant is correct under what it is answered. -/
theorem Race.sat (hw : D.Reachable w) (hr : D.Race w tr threads k credentialId) (ht : t ∈ threads) :
    (D.system.body (.redeem (k t).service (k t).request)).Sat
      ((k t).rely (D.app (k t).service) (Lost tr (k t))) (spendsOwn (D.app (k t).service) (k t))
      (fun h a ↦ (spendOf h = none → Lost tr (k t)) ∧
        ∃ d, a = .ok (.decision d) ∧ d.reason = reasonFor (spendOf h)) [] := by
  change (D.body _).prog.Sat _ _ _ []
  rw [Body.sat_prog]
  apply Body.Sat.map
  apply (redeem_race (hr.eligible t ht) (reachable_row hw (hr.stored t ht)).1).mono
  rintro h' r l ⟨hlost, d, rfl, hd⟩
  exact ⟨hlost, d, rfl, hd⟩

/-- Every committed spend of a race is the own spend of a contestant. -/
theorem Race.spends_own (hw : D.Reachable w) (hr : D.Race w tr threads k credentialId)
    (h : D.system.Run w tr s) {a : SpendArgs} {res : CredentialSpendResult}
    (hs : Spends tr t a res) :
    t ∈ threads ∧ a = (k t).shown.spendArgs (D.app (k t).service) (k t).request := by
  obtain ⟨x, hx⟩ := hs
  obtain ⟨c, hc⟩ := h.started hx
  obtain ⟨ht, rfl⟩ := (hr.started t c).mp hc
  refine ⟨ht, ?_⟩
  obtain ⟨q, q', hq⟩ := List.append_of_mem (System.mem_own.mpr ⟨x, hx⟩ :
    (⟨.spend a, .ok res⟩ : Event Op Op.Reply) ∈ D.history t tr)
  have hrelies := hr.relies hw h ht
  rw [history, hq] at hrelies
  exact h.guarantee_history (A := fun _ ↦ _) (G := fun _ ↦ _) (Q := fun _ ↦ _) hc (hr.sat hw ht) hq
    hrelies.left a rfl

/-- How the own transaction of a thread went, in terms of the run. -/
theorem spends_of_spendOf {b : Bool} (hb : spendOf (D.history t tr) = some b) :
    ∃ a res, Spends tr t a res ∧ res.firstSpend = b := by
  obtain ⟨a, res, hev, hres⟩ := exists_of_spendOf hb
  obtain ⟨x, hx⟩ := System.mem_own.mp hev
  exact ⟨a, res, ⟨x, hx⟩, hres⟩

/-- A committed spend of a contestant is how its own transaction went. -/
theorem Race.spendOf_of_spends (hw : D.Reachable w) (hr : D.Race w tr threads k credentialId)
    (h : D.system.Run w tr s) {a : SpendArgs} {res : CredentialSpendResult}
    (hs : Spends tr t a res) : spendOf (D.history t tr) = some res.firstSpend := by
  obtain ⟨x, hx⟩ := id hs
  have hsome : (spendOf (D.history t tr)).isSome = true := by
    rw [spendOf, List.findSome?_isSome_iff]
    exact ⟨⟨.spend a, .ok res⟩, System.mem_own.mpr ⟨x, hx⟩, rfl⟩
  obtain ⟨b, hb⟩ := Option.isSome_iff_exists.mp hsome
  obtain ⟨a', res', hs', rfl⟩ := spends_of_spendOf hb
  have ha := (hr.spends_own hw h hs).2
  have ha' := (hr.spends_own hw h hs').2
  rw [hb, (spends_unique h hs hs' (by rw [ha, ha'])).2]

/-- A contestant's answer gives the reason that its own transaction determines. -/
theorem Race.outcome (hw : D.Reachable w) (hr : D.Race w tr threads k credentialId)
    (h : D.system.Run w tr s) (ht : t ∈ threads) :
    (spendOf (D.history t tr) = none → Lost tr (k t)) ∧
      D.reasonOf t tr = some (reasonFor (spendOf (D.history t tr))) := by
  have hc := (hr.started t _).mpr ⟨ht, rfl⟩
  obtain ⟨a, hf⟩ := hr.finished t ht
  obtain ⟨hlost, d, rfl, hd⟩ := h.result (A := fun _ ↦ _) (G := fun _ ↦ _) (Q := fun _ ↦ _) hc
    (hr.sat hw ht) (hr.relies hw h ht) hf
  refine ⟨hlost, ?_⟩
  rw [reasonOf, lookup_of_mem h.answers_nodup (mem_answers.mpr hf)]
  exact congrArg some hd

end Answers

/-! ### The outcome of a race -/

section Outcome

variable {threads : List Nat} {k : Nat → Contestant} {credentialId : Text}

/-- The distinct challenges that the calls of a race use, by their stored hashes. -/
def challenges (threads : List Nat) (k : Nat → Contestant) : Finset Text :=
  (threads.map fun t ↦ (k t).shown.tokenHash).toFinset

/-- The distinct challenge tokens that the calls of a race present. -/
def presentedTokens (threads : List Nat) (k : Nat → Contestant) : Finset Text :=
  (threads.map fun t ↦ (k t).shown.proof.challenge).toFinset

/-- Tokens without a collision are as many as their challenges. -/
theorem card_challenges (hr : D.Race w tr threads k credentialId)
    (hcollision : Set.InjOn (fun token ↦ sha256 (utf8 token)) (presentedTokens threads k)) :
    (challenges threads k).card = (presentedTokens threads k).card := by
  have himage : challenges threads k =
      (presentedTokens threads k).image fun token ↦ sha256Hex (utf8 token) := by
    ext hash
    simp only [challenges, presentedTokens, Finset.mem_image, List.mem_toFinset, List.mem_map]
    constructor
    · rintro ⟨t, ht, rfl⟩
      exact ⟨_, ⟨t, ht, rfl⟩, (challengeTokenHash_eq_ok (hr.eligible t ht).hashed).2.symm⟩
    · rintro ⟨_, ⟨t, ht, rfl⟩, rfl⟩
      exact ⟨t, ht, (challengeTokenHash_eq_ok (hr.eligible t ht).hashed).2⟩
  rw [himage]
  apply Finset.card_image_of_injOn
  intro token htoken token' htoken' he
  exact hcollision htoken htoken' (hex_injective he)

/-- Every challenge of a race is consumed by the transaction of one contestant. -/
theorem Race.consumer (hw : D.Reachable w) (hr : D.Race w tr threads k credentialId)
    (h : D.system.Run w tr s) (ht : t ∈ threads) :
    ∃ t' ∈ threads, ∃ a res, Spends tr t' a res ∧ a.tokenHash = (k t).shown.tokenHash ∧
      a.tokenHash = (k t').shown.tokenHash := by
  cases hspend : spendOf (D.history t tr) with
  | some b =>
    obtain ⟨a, res, hs, _⟩ := spends_of_spendOf hspend
    obtain ⟨_, rfl⟩ := hr.spends_own hw h hs
    exact ⟨t, ht, _, res, hs, rfl, rfl⟩
  | none =>
    obtain ⟨t', a, res, hs, ha⟩ := (hr.outcome hw h ht).1 hspend
    obtain ⟨ht', rfl⟩ := hr.spends_own hw h hs
    exact ⟨t', ht', _, res, hs, ha, rfl⟩

/-- As many transactions commit as there are challenges. -/
theorem Race.committed (hw : D.Reachable w) (hr : D.Race w tr threads k credentialId)
    (h : D.system.Run w tr s) :
    (threads.filter fun t ↦ (spendOf (D.history t tr)).isSome).length =
      (challenges threads k).card := by
  have hspends : ∀ t ∈ threads.filter fun t ↦ (spendOf (D.history t tr)).isSome, ∃ res,
      Spends tr t ((k t).shown.spendArgs (D.app (k t).service) (k t).request) res := by
    intro t ht
    obtain ⟨b, hb⟩ := Option.isSome_iff_exists.mp (List.mem_filter.mp ht).2
    obtain ⟨a, res, hs, _⟩ := spends_of_spendOf hb
    obtain ⟨_, rfl⟩ := hr.spends_own hw h hs
    exact ⟨res, hs⟩
  have hnodup : ((threads.filter fun t ↦ (spendOf (D.history t tr)).isSome).map
      fun t ↦ (k t).shown.tokenHash).Nodup := by
    apply (hr.distinct.filter _).map_on
    intro t ht t' ht' he
    obtain ⟨res, hs⟩ := hspends t ht
    obtain ⟨res', hs'⟩ := hspends t' ht'
    exact (spends_unique h hs hs' he).1
  rw [← List.length_map (fun t ↦ (k t).shown.tokenHash), ← List.toFinset_card_of_nodup hnodup]
  congr 1
  ext hash
  simp only [challenges, List.mem_toFinset, List.mem_map]
  constructor
  · rintro ⟨t, ht, rfl⟩
    exact ⟨t, (List.mem_filter.mp ht).1, rfl⟩
  · rintro ⟨t, ht, rfl⟩
    obtain ⟨t', ht', a, res, hs, ha, ha'⟩ := hr.consumer hw h ht
    refine ⟨t', List.mem_filter.mpr ⟨ht', ?_⟩, ha'.symm.trans ha⟩
    rw [hr.spendOf_of_spends hw h hs]
    rfl

/-- Exactly one transaction of a race spends the credential. -/
theorem Race.first (hw : D.Reachable w) (hr : D.Race w tr threads k credentialId)
    (h : D.system.Run w tr s) (hn : threads ≠ []) :
    threads.countP (fun t ↦ decide (spendOf (D.history t tr) = some true)) = 1 := by
  apply Nat.le_antisymm
  · apply countP_le_one hr.distinct
    intro t ht t' ht' hfirst hfirst'
    obtain ⟨a, res, ⟨x, hx⟩, hres⟩ := spends_of_spendOf (of_decide_eq_true hfirst)
    obtain ⟨a', res', ⟨x', hx'⟩, hres'⟩ := spends_of_spendOf (of_decide_eq_true hfirst')
    obtain ⟨pre, post, he⟩ := List.append_of_mem hx
    obtain ⟨pre', post', he'⟩ := List.append_of_mem hx'
    obtain ⟨_, now, _, _, _, hins⟩ := firstSpend_inserts h he hres
    obtain ⟨_, now', _, _, _, hins'⟩ := firstSpend_inserts h he' hres'
    obtain ⟨_, rfl⟩ := hr.spends_own hw h ⟨x, hx⟩
    obtain ⟨_, rfl⟩ := hr.spends_own hw h ⟨x', hx'⟩
    have heq := List.inj_on_of_nodup_map (insertions_nodup w tr) hins hins'
      ((hr.credential t ht).trans (hr.credential t' ht').symm)
    exact (Prod.mk.injEq _ _ _ _ ▸ heq).1
  · rw [Nat.succ_le_iff, List.countP_pos_iff]
    -- Some transaction commits, so the credential is spent; it was not before the race.
    obtain ⟨t, ht⟩ := List.exists_mem_of_ne_nil threads hn
    obtain ⟨t₁, ht₁, a₁, res₁, ⟨x₁, hx₁⟩, _⟩ := hr.consumer hw h ht
    have hspent : (D.system.after w tr).store.spent credentialId = true := by
      obtain ⟨pre, post, he⟩ := List.append_of_mem hx₁
      rw [← hr.credential t₁ ht₁]
      obtain ⟨_, rfl⟩ := hr.spends_own hw h ⟨x₁, hx₁⟩
      exact spent_after_spend h he
    rcases (spends_of_consumed h hr.faultless).2 credentialId hspent with
      hbefore | ⟨t₂, a₂, res₂, hs₂, _, hfirst₂⟩
    · rw [hr.unspent] at hbefore
      cases hbefore
    · refine ⟨t₂, (hr.spends_own hw h hs₂).1, ?_⟩
      rw [hr.spendOf_of_spends hw h hs₂, hfirst₂]
      rfl

/-- The reasons tell the three outcomes of a transaction apart. -/
theorem reasonFor_injective : Function.Injective reasonFor := by
  intro a b h
  match a, b with
  | none, none => rfl
  | some true, some true => rfl
  | some false, some false => rfl
  | none, some true => cases h
  | none, some false => cases h
  | some true, none => cases h
  | some true, some false => cases h
  | some false, none => cases h
  | some false, some true => cases h

private theorem countP_reason (hw : D.Reachable w) (hr : D.Race w tr threads k credentialId)
    (h : D.system.Run w tr s) (o : Option Bool) :
    threads.countP (fun t ↦ decide (D.reasonOf t tr = some (reasonFor o))) =
      threads.countP (fun t ↦ decide (spendOf (D.history t tr) = o)) := by
  apply List.countP_congr
  intro t ht
  rw [(hr.outcome hw h ht).2, decide_eq_true_iff, decide_eq_true_iff, Option.some.injEq]
  exact reasonFor_injective.eq_iff

/-- The race outcome law: of `n` calls that use `d` challenges for one credential, exactly one is
allowed, `d - 1` find it spent and `n - d` find their challenge consumed, whatever the schedule;
afterwards every challenge is consumed and the credential has one redemption row. -/
theorem race_outcome (hw : D.Reachable w) (h : D.system.Run w tr s)
    (hr : D.Race w tr threads k credentialId) (hn : threads ≠ []) :
    threads.countP (fun t ↦ decide (D.reasonOf t tr = some .ALLOW)) = 1 ∧
    threads.countP (fun t ↦ decide (D.reasonOf t tr = some .CREDENTIAL_SPENT)) + 1 =
      (challenges threads k).card ∧
    threads.countP (fun t ↦ decide (D.reasonOf t tr = some .CHALLENGE_CONSUMED)) +
      (challenges threads k).card = threads.length ∧
    (Set.InjOn (fun token ↦ sha256 (utf8 token)) (presentedTokens threads k) →
      (challenges threads k).card = (presentedTokens threads k).card) ∧
    (∀ t ∈ threads, ∃ row ∈ s.shared.store.resourceChallenges.rows,
      row.tokenHash = (k t).shown.tokenHash ∧ row.consumedAt.isSome = true) ∧
    s.shared.store.redemptionCount credentialId = 1 := by
  have hfirst := hr.first hw h hn
  have hcommitted := hr.committed hw h
  obtain ⟨hsome, hnone⟩ := countP_flag threads fun t ↦ spendOf (D.history t tr)
  have hallow : threads.countP (fun t ↦ decide (D.reasonOf t tr = some .ALLOW)) = _ :=
    countP_reason hw hr h (some true)
  have hspent : threads.countP (fun t ↦ decide (D.reasonOf t tr = some .CREDENTIAL_SPENT)) = _ :=
    countP_reason hw hr h (some false)
  have hconsumed :
      threads.countP (fun t ↦ decide (D.reasonOf t tr = some .CHALLENGE_CONSUMED)) = _ :=
    countP_reason hw hr h none
  refine ⟨by omega, by omega, by omega, card_challenges hr, ?_, ?_⟩
  · intro t ht
    obtain ⟨t', _, a, res, ⟨x, hx⟩, ha, _⟩ := hr.consumer hw h ht
    obtain ⟨pre, post, he⟩ := List.append_of_mem hx
    obtain ⟨row, hrow, hkey, hc⟩ := consumed_after_spend h he post
    rw [← he, ← h.shared_eq] at hrow
    exact ⟨row, hrow, hkey.trans ha, hc⟩
  · obtain ⟨t, ht⟩ := List.exists_mem_of_ne_nil threads hn
    obtain ⟨t', ht', a, res, ⟨x, hx⟩, _, _⟩ := hr.consumer hw h ht
    obtain ⟨pre, post, he⟩ := List.append_of_mem hx
    have hrow := spent_after_spend h he
    rw [← h.shared_eq, (hr.spends_own hw h ⟨x, hx⟩).2] at hrow
    obtain ⟨r, hmem, hid⟩ := spent_iff.mp hrow
    have hid' : r.credentialId = credentialId := hid.trans (hr.credential t' ht')
    rw [Store.redemptionCount, List.countP_eq_length_filter, ← hid',
      filter_key_eq_singleton s.shared.store.credentialRedemptions.unique hmem]
    rfl

end Outcome

end Deployment

/-! ### Two rivals -/

namespace Demo

/-- The parsed credential. -/
def parsed : Credential :=
  ⟨credentialId, text "01", text "h", {text "s"}, 0, none, some 1000, some 1060, text "x"⟩

/-- The redemption with the challenge issued at 1000 with a seed. -/
def rival (seed : UInt8) : Contestant where
  service := 0
  request := lookupInput 1000 seed
  shown := ⟨sha256Hex (utf8 (text "\x7b\"sku\":\"w\"\x7d")), parsed, 1000, 1060,
    ⟨token 1000 seed, .none⟩, sha256Hex (utf8 (token 1000 seed))⟩
  row := ⟨sha256Hex (utf8 (token 1000 seed)), credentialId, text "inventory.lookup",
    sha256Hex (utf8 (text "\x7b\"sku\":\"w\"\x7d")), text "r", text "a", 1000, 1060, none⟩

/-- An environment that lets a rival pass at 1001. -/
def pass (seed : UInt8) : (e : Op) → e.Input
  | .lib (.credentialFromDict _) => .ok parsed
  | .lib (.verifyChain ..) => .ok ()
  | .lib (.holderProofFromDict _) => .ok (rival seed).shown.proof
  | .lib (.verifyHolderProof _) => .ok ()
  | .inventoryLookup .. => some (.ok [(text "sku", .str (text "w")), (text "quantity", .int 7)])
  | e => (scenario 1001 seed).input e

/-- Both challenges. -/
def challenges : List deployment.system.Move :=
  deployment.alone 0 (.issueResourceChallenge 0 credentialId arguments recordId.val)
      (scenario 1000 1) 4 ++
    deployment.alone 1 (.issueResourceChallenge 0 credentialId arguments recordId.val)
      (scenario 1000 2) 4

/-- Both rivals run up to their spends; the second one spends first. -/
def race : List deployment.system.Move :=
  let first (n : Nat) : List deployment.system.Move := List.replicate n (.act 1 (pass 1))
  let second (n : Nat) : List deployment.system.Move := List.replicate n (.act 2 (pass 2))
  [.start 1 (.redeem 0 (lookupInput 1000 1)), .start 2 (.redeem 0 (lookupInput 1000 2))] ++
    (first 7 ++ second 8 ++ first 1 ++ second 7 ++ first 4 ++ [.finish 1, .finish 2])

/-- Each rival would be allowed on its own. -/
theorem eligible_rival (seed : UInt8) : (rival seed).Eligible standIn app := by
  have htoken : (token 1000 seed).encodable = true :=
    encodable_challengeToken _ _ (encodable_hex _)
  have hidentifier : credentialId.isLowerHexOf 64 = true := by decide
  have harguments : canonicalDigest standIn arguments.modelDump =
      .ok (sha256Hex (utf8 (text "\x7b\"sku\":\"w\"\x7d"))) :=
    rfc8785_standIn.canonicalDigest_eq (by decide) (by decide) rfl
  have hpolicy : ∃ digest, canonicalDigest standIn app.policy.publicDict = .ok digest :=
    rfc8785_standIn.exists_canonicalDigest (by decide) (by decide)
  have hlifetime : (1060 : Int) - 1000 ≤ app.policy.maxCredentialLifetimeSeconds := by decide
  exact ⟨⟨by decide, by decide, by decide⟩, hpolicy, harguments, hidentifier, rfl, hlifetime, rfl,
    challengeTokenHash_of_encodable htoken, rfl, rfl, rfl⟩

/-- A reply that lets a rival pass. -/
def Passed : (e : Op) → e.Reply → Prop
  | .sign .., r => ∃ receipt, r = .ok receipt
  | .inventoryLookup .., r =>
    r = .ok [(text "sku", .str (text "w")), (text "quantity", .int 7)]
  | _, _ => True

/-- The reply of the replaced handler passes validation. -/
theorem handlerResult_lookup :
    Contestant.HandlerResult [(text "sku", .str (text "w")), (text "quantity", .int 7)] := by
  intro n hn
  have hbounds : (0 : Int) ≤ 7 ∧ (1 : Int) ≤ n := by omega
  refine ⟨⟨⟨text "w", by decide, by decide, by decide⟩, 7, n, hbounds.1, hbounds.2⟩, ?_⟩
  simp only [InventoryLookupResult.modelValidate, bind_eq_ok, raiseIf_eq_ok, orRaise_eq_ok]
  have hclosed : closed [text "sku", text "quantity", text "invocation_number"]
      (Value.setMember [(text "sku", .str (text "w")), (text "quantity", .int 7)]
        (text "invocation_number") (.int n)) = true := rfl
  refine ⟨(), by simp [hclosed], ⟨text "w", by decide, by decide, by decide⟩, rfl, ?_⟩
  exact dif_pos hbounds

/-- What the environment decides for a rival is favourable. -/
theorem favourable_pass {seed : UInt8} {e : Op} {r : e.Reply} (h : Passed e r) :
    Deployment.Favourable (rival seed) e (pass seed e) r := by
  have hinside : (rival seed).Inside 1001 :=
    show (1000 : Int) ≤ 1001 ∧ (1001 : Int) ≤ 1060 ∧ (1000 : Int) ≤ 1001 ∧ (1001 : Int) < 1060 by
      decide
  cases e with
  | clock => exact ⟨1001, rfl, hinside⟩
  | lib c => cases c <;> first | rfl | trivial
  | sign signer payload => exact h
  | getResourceChallenge => rfl
  | spend a => exact ⟨⟨1001, rfl, hinside⟩, rfl⟩
  | inventoryLookup i sku => exact ⟨_, h, handlerResult_lookup⟩
  | tokenHex | storeBrokerChallenge | consumeBrokerChallenge | storeResourceChallenge
  | recordInvocation | invocationCount => trivial

/-- Whether a step is a signature that failed. -/
def unsigned : deployment.system.Label → Bool
  | .act _ (.sign ..) _ (.error _) => true
  | _ => false

end Demo

namespace Deployment

/-- The moves of the two rivals. -/
theorem mem_race {m : Demo.deployment.system.Move} : m ∈ Demo.race ↔
    (∃ t ∈ [1, 2], m = .start t (.redeem 0 (Demo.lookupInput 1000 (UInt8.ofNat t))) ∨
      m = .act t (Demo.pass (UInt8.ofNat t)) ∨ m = .finish t) := by
  simp only [Demo.race, List.mem_append, List.mem_cons, List.mem_replicate, List.not_mem_nil,
    or_false]
  simp
  tauto

/-- The schedule of the two rivals is a race. -/
theorem race_of_play {w : World} {tr : Demo.deployment.Trace}
    {s : Config Op Op.Reply World Call (Except Exn Answer)}
    (hp : Demo.deployment.system.play (System.initial w) Demo.race = some (tr, s))
    (hsigned : ∀ l ∈ tr, Demo.unsigned l = false) (hspent : w.store.spent Demo.credentialId = false)
    (hstored : ∀ t ∈ [1, 2], (Demo.rival (UInt8.ofNat t)).row ∈ w.store.resourceChallenges.rows) :
    Demo.deployment.Race w tr [1, 2] (fun t ↦ Demo.rival (UInt8.ofNat t)) Demo.credentialId := by
  have hmakes := makes_of_play hp
  have hrun := System.run_of_play hp
  refine ⟨by decide, hspent, fun _ _ ↦ rfl, fun t _ ↦ Demo.eligible_rival _, hstored, ?_, ?_, ?_,
    ?_⟩
  · intro t c
    constructor
    · intro hl
      obtain ⟨m, hm, hmade⟩ := exists_move_of_mem hmakes hl
      obtain ⟨t', ht', rfl | rfl | rfl⟩ := mem_race.mp hm
      · cases hmade
        exact ⟨ht', rfl⟩
      · obtain ⟨e, r, hmade⟩ := hmade
        cases hmade
      · obtain ⟨a, hmade⟩ := hmade
        cases hmade
    · rintro ⟨ht, rfl⟩
      obtain ⟨l, hl, hmade⟩ := exists_label_of_mem hmakes (mem_race.mpr ⟨t, ht, .inl rfl⟩)
      cases hmade
      exact hl
  · intro t ht
    obtain ⟨l, hl, a, rfl⟩ := exists_label_of_mem hmakes (mem_race.mpr ⟨t, ht, .inr (.inr rfl)⟩)
    exact ⟨a, hl⟩
  · intro i hl
    obtain ⟨m, hm, hmade⟩ := exists_move_of_mem hmakes hl
    obtain ⟨t', ht', rfl | rfl | rfl⟩ := mem_race.mp hm
    · cases hmade
    · obtain ⟨e, r, hmade⟩ := hmade
      cases hmade
    · obtain ⟨a, hmade⟩ := hmade
      cases hmade
  · intro t e x r hl
    obtain ⟨m, hm, hmade⟩ := exists_move_of_mem hmakes hl
    obtain ⟨t', ht', rfl | rfl | rfl⟩ := mem_race.mp hm
    · cases hmade
    · obtain ⟨e', r', hmade⟩ := hmade
      cases hmade
      apply Demo.favourable_pass
      cases e with
      | sign signer payload =>
        have hok := hsigned _ hl
        cases r with
        | error e => cases hok
        | ok receipt => exact ⟨receipt, rfl⟩
      | inventoryLookup i sku =>
        obtain ⟨pre, post, he⟩ := List.append_of_mem hl
        exact hrun.reply_eq he
      | clock | tokenHex | lib | storeBrokerChallenge | consumeBrokerChallenge
      | storeResourceChallenge | getResourceChallenge | spend | recordInvocation
      | invocationCount => trivial
    · obtain ⟨a, hmade⟩ := hmade
      cases hmade

set_option maxRecDepth 100000 in
/-- The law at a race of two calls with a challenge each. -/
theorem race_outcome_rivals : ∃ w tr s, Demo.deployment.Reachable w ∧
    Demo.deployment.system.Run w tr s ∧
    Demo.deployment.Race w tr [1, 2] (fun t ↦ Demo.rival (UInt8.ofNat t)) Demo.credentialId ∧
    Demo.deployment.reasons tr = [(1, .CREDENTIAL_SPENT), (2, .ALLOW)] ∧
    [1, 2].countP (fun t ↦ decide (Demo.deployment.reasonOf t tr = some .ALLOW)) = 1 ∧
    s.shared.store.redemptionCount Demo.credentialId = 1 := by
  have heval : (Demo.deployment.play Demo.challenges).any (fun r ↦
      decide (r.2.shared.store.spent Demo.credentialId = false ∧
        ∀ t ∈ [1, 2], (Demo.rival (UInt8.ofNat t)).row ∈
          r.2.shared.store.resourceChallenges.rows) &&
      (Demo.deployment.system.play (System.initial r.2.shared) Demo.race).any fun r' ↦
        decide (Demo.deployment.reasons r'.1 = [(1, .CREDENTIAL_SPENT), (2, .ALLOW)] ∧
          ∀ l ∈ r'.1, Demo.unsigned l = false)) = true := by
    decide +kernel
  obtain ⟨⟨tr₀, s₀⟩, hplay₀, hw⟩ := (Option.any_eq_true _ _).mp heval
  rw [Bool.and_eq_true, decide_eq_true_eq] at hw
  obtain ⟨⟨hspent, hstored⟩, hrace⟩ := hw
  obtain ⟨⟨tr, s⟩, hplay, hobserved⟩ := (Option.any_eq_true _ _).mp hrace
  rw [decide_eq_true_eq] at hobserved
  have hreach : Demo.deployment.Reachable s₀.shared :=
    ⟨tr₀, s₀, System.run_of_play hplay₀, rfl⟩
  have hrun := System.run_of_play hplay
  have hr := race_of_play hplay hobserved.2 hspent hstored
  have hlaw := race_outcome hreach hrun hr (List.cons_ne_nil _ _)
  exact ⟨s₀.shared, tr, s, hreach, hrun, hr, hobserved.1, hlaw.1, hlaw.2.2.2.2.2⟩

end Deployment

end Atcap
