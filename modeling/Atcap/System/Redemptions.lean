import Atcap.System.Calls
import Atcap.System.Effect
import Atcap.System.Schedule

/-!
# At-most-once redemption

Along every run, with any number of instances, crashes and restarts, the redemption rows are
exactly the rows that the calls' own transactions inserted, one for each credential; a call
enters the private handler only after its own transaction inserted the row.
-/

namespace Atcap

open Base System InventoryApplication

/-- The credential id a call has parsed. -/
def carried (h : History) : Option Text :=
  h.findSome? fun ev ↦ match ev with
    | ⟨.lib (.credentialFromDict _), .ok credential⟩ => some credential.credentialId
    | _ => none

namespace Deployment

variable (D : Deployment)

/-- The redemption rows a step adds, with the thread that took the step. -/
def added (w : World) : D.system.Label → List (Nat × RedemptionRow)
  | .act t e x _ => ((D.exec e x w).2.store.credentialRedemptions.rows.drop
      w.store.credentialRedemptions.rows.length).map fun row ↦ (t, row)
  | _ => []

/-- The redemption rows added along a run, each with the thread whose own step added it. -/
def insertions (w : World) : D.Trace → List (Nat × RedemptionRow)
  | [] => []
  | l :: rest => D.added w l ++ insertions (D.system.next w l) rest

/-- The thread of a step that enters the private handler. -/
def entry? : D.system.Label → Option Nat
  | .act t (.inventoryLookup _ _) _ _ => some t
  | _ => none

/-- The handler entries of a run, in order, each by its thread. -/
def entries (tr : D.Trace) : List Nat := tr.filterMap D.entry?

variable {D} {w : World} {tr pre post : D.Trace} {t : Nat}

/-! ### Rows and insertions -/

/-- An effect keeps every redemption row in its place. -/
theorem Effect.redemptions_grow {db db' : Store} {l : D.system.Label} (h : D.Effect db l db') :
    db.credentialRedemptions.rows <+: db'.credentialRedemptions.rows := by
  cases h with
  | unchanged l => exact List.prefix_rfl
  | brokerStored htable heq => exact List.prefix_rfl
  | brokerConsumed hclock hrow => exact List.prefix_rfl
  | resourceStored htable heq => exact List.prefix_rfl
  | spent hclock hrow =>
    rw [rows_redemptions_spend]
    split
    · exact List.prefix_rfl
    · exact List.prefix_append _ _

/-- A step adds its rows at the end of the table. -/
theorem rows_next (w : World) (l : D.system.Label) :
    (D.system.next w l).store.credentialRedemptions.rows =
      w.store.credentialRedemptions.rows ++ (D.added w l).map Prod.snd := by
  cases l with
  | start t c => simp [added, System.next]
  | finish t a => simp [added, System.next]
  | crash i =>
    cases i with
    | inventoryd i => simp [added, System.next, system]
    | broker b => simp [added, System.next, system]
  | act t e x r =>
    obtain ⟨rows, hrows⟩ := (effect_next w (.act t e x r)).redemptions_grow
    have hnext : (D.exec e x w).2.store.credentialRedemptions.rows =
        w.store.credentialRedemptions.rows ++ rows := hrows.symm
    simp [added, ← hrows, hnext]

/-- Insertions of two parts of a run. -/
theorem insertions_append (w : World) (tr tr' : D.Trace) :
    D.insertions w (tr ++ tr') =
      D.insertions w tr ++ D.insertions (D.system.after w tr) tr' := by
  induction tr generalizing w with
  | nil => rfl
  | cons l rest ih =>
    simp only [List.cons_append, insertions, ih, List.append_assoc]
    rfl

/-- The redemption rows of a run are those of its start and its insertions. -/
theorem rows_after (w : World) (tr : D.Trace) :
    (D.system.after w tr).store.credentialRedemptions.rows =
      w.store.credentialRedemptions.rows ++ (D.insertions w tr).map Prod.snd := by
  induction tr generalizing w with
  | nil => simp [insertions]
  | cons l rest ih =>
    change (D.system.after (D.system.next w l) rest).store.credentialRedemptions.rows = _
    rw [ih, rows_next, insertions, List.map_append, List.append_assoc]

/-- No two insertions of a run are for the same credential. -/
theorem insertions_nodup (w : World) (tr : D.Trace) :
    ((D.insertions w tr).map fun p ↦ p.2.credentialId).Nodup := by
  have hu := (D.system.after w tr).store.credentialRedemptions.unique
  rw [rows_after, List.map_append, List.map_map] at hu
  exact (List.nodup_append.mp hu).2.1

/-- What a spend that returned had checked, and what it did. -/
theorem spend_committed {s : Config Op Op.Reply World Call (Except Exn Answer)}
    (h : D.system.Run w tr s) {a : SpendArgs} {x : Except Exn Int × Faults}
    {res : CredentialSpendResult} (he : tr = pre ++ .act t (.spend a) x (.ok res) :: post) :
    ∃ row now, x.1 = .ok now ∧ Spendable (D.system.after w pre).store a row now ∧
      (D.system.after w (pre ++ [.act t (.spend a) x (.ok res)])).store =
        (D.system.after w pre).store.spend a now ∧
      res = ⟨!(D.system.after w pre).store.spent a.context.credentialId, now, row.expiresAt⟩ := by
  have hreply := h.reply_eq he
  have heq : Store.consumeChallengeAndSpendCredential a x.1 x.2 (D.system.after w pre).store =
      (.ok res, (D.system.after w (pre ++ [.act t (.spend a) x (.ok res)])).store) := by
    rw [System.after_snoc]
    exact Prod.ext hreply.symm rfl
  exact spend_ok heq

/-- The first spend of a credential inserts its redemption row. -/
theorem firstSpend_inserts {s : Config Op Op.Reply World Call (Except Exn Answer)}
    (h : D.system.Run w tr s) {a : SpendArgs} {x : Except Exn Int × Faults}
    {res : CredentialSpendResult} (he : tr = pre ++ .act t (.spend a) x (.ok res) :: post)
    (hfirst : res.firstSpend = true) :
    ∃ row now, x.1 = .ok now ∧ Spendable (D.system.after w pre).store a row now ∧
      res = ⟨true, now, row.expiresAt⟩ ∧ (t, a.redemption now) ∈ D.insertions w tr := by
  obtain ⟨row, now, hclock, hspendable, hdb, hres⟩ := spend_committed h he
  have hunspent : (D.system.after w pre).store.spent a.context.credentialId = false := by
    rw [hres] at hfirst
    simpa using hfirst
  refine ⟨row, now, hclock, hspendable, by rw [hres, hunspent]; rfl, ?_⟩
  -- The step itself adds exactly this row.
  have hadded : D.added (D.system.after w pre) (.act t (.spend a) x (.ok res)) =
      [(t, a.redemption now)] := by
    have hrows := rows_redemptions_spend (D.system.after w pre).store a now
    rw [hunspent] at hrows
    rw [System.after_snoc] at hdb
    have hnext : (D.exec (.spend a) x (D.system.after w pre)).2.store =
        (D.system.after w pre).store.spend a now := hdb
    simp only [added, hnext, hrows]
    simp
  rw [he, insertions_append, insertions, hadded]
  simp

/-! ### Handler entries -/

/-- A thread entered the handler if and only if its history says so. -/
theorem mem_entries : t ∈ D.entries tr ↔
    ∃ i sku x r, Label.act t (.inventoryLookup i sku) x r ∈ tr := by
  simp only [entries, List.mem_filterMap]
  constructor
  · rintro ⟨l, hl, he⟩
    cases l with
    | start t' c => cases he
    | finish t' a => cases he
    | crash i => cases he
    | act t' e x r =>
      cases e with
      | inventoryLookup i sku =>
        cases he
        exact ⟨i, sku, x, r, hl⟩
      | clock | tokenHex | lib | sign | storeBrokerChallenge | consumeBrokerChallenge
      | storeResourceChallenge | getResourceChallenge | spend | recordInvocation
      | invocationCount => cases he
  · rintro ⟨i, sku, x, r, hl⟩
    exact ⟨_, hl, rfl⟩

variable {s : Config Op Op.Reply World Call (Except Exn Answer)}

/-- A redemption carries the credential id it has parsed. -/
theorem carried_eq (h : D.system.Run w tr s) {c : Call} (hc : Label.start t c ∈ tr)
    (hr : (D.redemption? c).isSome) {d : Value} {credential : Credential}
    (hm : ⟨.lib (.credentialFromDict d), .ok credential⟩ ∈ D.history t tr) :
    carried (D.history t tr) = some credential.credentialId := by
  obtain ⟨q, q', hq⟩ := List.append_of_mem hm
  have hg := h.guarantee_history (A := fun _ _ _ ↦ True) hc (body_sat c) hq (fun _ _ _ _ ↦ trivial)
  obtain rfl := guarantee_parse hg hr
  rw [hq]
  rfl

/-- What a handler entry tells about its call. -/
structure Entered (w : World) (tr : D.Trace) (t i : Nat) (request : LookupInput)
    (p : Presentation) : Prop where
  admitted : ∃ h₀ n q, p.Admitted D.lib (D.app i) request h₀ ∧
    D.history t tr = h₀ ++ ⟨.recordInvocation i, n⟩ :: q
  carried : carried (D.history t tr) = some p.credential.credentialId
  inserted : ∃ row now, (p.spendArgs (D.app i) request).redemption now = row ∧
    (t, row) ∈ D.insertions w tr

/-- An entry belongs to an admitted redemption, whose own transaction inserted the row. -/
theorem entered_of_mem (h : D.system.Run w tr s) (ht : t ∈ D.entries tr) :
    ∃ c i request p, Label.start t c ∈ tr ∧ D.redemption? c = some (i, request) ∧
      Entered w tr t i request p := by
  obtain ⟨j, sku, x, r, hl⟩ := mem_entries.mp ht
  obtain ⟨pre, post, he⟩ := List.append_of_mem hl
  obtain ⟨c, hc, hg⟩ := h.guarantee_at (A := fun _ _ _ ↦ True) body_sat he
  obtain ⟨i, request, hr, _, _, p, h₀, n, hp, hown⟩ :=
    guarantee_inventoryLookup (hg fun _ _ _ _ ↦ trivial)
  have hown' := System.own_split he
  have hhistory : D.history t tr = h₀ ++ ⟨.recordInvocation i, n⟩ ::
      ⟨.inventoryLookup j sku, r⟩ :: D.history t post := by
    rw [history, hown', hown, List.append_assoc]
    rfl
  have hsub : h₀ ⊆ D.history t tr := by
    rw [hhistory]
    exact List.subset_append_left _ _
  refine ⟨c, i, request, p, ?_, hr, ⟨h₀, n, _, hp, hhistory⟩, ?_, ?_⟩
  · rw [he]
    exact List.mem_append_left _ hc
  · apply carried_eq h _ (by rw [hr]; rfl) (hsub hp.checked.credential.parsed)
    rw [he]
    exact List.mem_append_left _ hc
  · obtain ⟨res, hspend, hfirst⟩ := hp.spent
    obtain ⟨y, hy⟩ := System.mem_own.mp (hsub hspend)
    obtain ⟨pre', post', he'⟩ := List.append_of_mem hy
    obtain ⟨row, now, _, _, _, hins⟩ := firstSpend_inserts h he' hfirst
    exact ⟨_, now, rfl, hins⟩

/-- No thread enters the handler twice. -/
theorem entries_nodup (h : D.system.Run w tr s) : (D.entries tr).Nodup := by
  induction h with
  | nil => exact List.nodup_nil
  | @snoc tr s s' l hrun hstep ih =>
    simp only [entries, List.filterMap_append, List.filterMap_cons, List.filterMap_nil]
    cases hl : D.entry? l with
    | none => simpa [entries] using ih
    | some t =>
      -- The guarantee at the second entry: the history before it holds no entry.
      rw [List.nodup_append]
      refine ⟨ih, List.nodup_singleton t, ?_⟩
      rintro t' ht' t'' ht'' rfl
      obtain rfl := List.mem_singleton.mp ht''
      obtain ⟨j, sku, x, r, hj⟩ := mem_entries.mp ht'
      cases l with
      | start t c => cases hl
      | finish t a => cases hl
      | crash i => cases hl
      | act t e y r' =>
        cases e with
        | inventoryLookup j' sku' =>
          cases hl
          obtain ⟨c, _, hg⟩ := hrun.guarantee (A := fun _ _ _ ↦ True) body_sat hstep
          obtain ⟨i, request, _, _, _, p, h₀, n, hp, hown⟩ :=
            guarantee_inventoryLookup (hg fun _ _ _ _ ↦ trivial)
          have hmem : (⟨.inventoryLookup j sku, r⟩ : Event Op Op.Reply) ∈ D.system.own t' tr :=
            System.mem_own.mpr ⟨x, hj⟩
          rw [hown, List.mem_append, List.mem_singleton] at hmem
          rcases hmem with hmem | hmem
          · have hu := hp.unserved _ hmem
            cases hu
          · cases hmem
        | clock | tokenHex | lib | sign | storeBrokerChallenge | consumeBrokerChallenge
        | storeResourceChallenge | getResourceChallenge | spend | recordInvocation
        | invocationCount => cases hl

/-- Two entries for one credential are one. -/
theorem entry_unique (h : D.system.Run w tr s) {t' : Nat} {c : Text} (ht : t ∈ D.entries tr)
    (ht' : t' ∈ D.entries tr) (hc : carried (D.history t tr) = some c)
    (hc' : carried (D.history t' tr) = some c) : t = t' := by
  obtain ⟨_, i, request, p, _, _, hp⟩ := entered_of_mem h ht
  obtain ⟨_, i', request', p', _, _, hp'⟩ := entered_of_mem h ht'
  obtain ⟨row, now, rfl, hrow⟩ := hp.inserted
  obtain ⟨row', now', rfl, hrow'⟩ := hp'.inserted
  rw [hp.carried, Option.some.injEq] at hc
  rw [hp'.carried, Option.some.injEq] at hc'
  have heq := List.inj_on_of_nodup_map (insertions_nodup w tr) hrow hrow' (hc.trans hc'.symm)
  exact (Prod.mk.injEq _ _ _ _ ▸ heq).1

/-- At-most-once redemption, in every run from an empty database: a credential enters the
handler at most once, by the one call whose own transaction inserted its redemption row, and
there are never more entries than rows. -/
theorem redeem_at_most_once {tr : D.Trace} (h : D.system.Run .initial tr s) :
    (∀ c, (D.entries tr).countP (fun t ↦ decide (carried (D.history t tr) = some c)) ≤ 1) ∧
    (∀ t ∈ D.entries tr, ∃ c row, carried (D.history t tr) = some c ∧ row.credentialId = c ∧
      row ∈ s.shared.store.credentialRedemptions.rows ∧
      (D.insertions .initial tr).filter (fun p ↦ decide (p.2.credentialId = c)) = [(t, row)]) ∧
    (D.entries tr).length ≤ s.shared.store.credentialRedemptions.rows.length := by
  have hrows : s.shared.store.credentialRedemptions.rows =
      (D.insertions .initial tr).map Prod.snd := by
    rw [h.shared_eq, rows_after]
    rfl
  refine ⟨?_, ?_, ?_⟩
  · intro c
    apply countP_le_one (entries_nodup h)
    intro t ht t' ht' hc hc'
    exact entry_unique h ht ht' (of_decide_eq_true hc) (of_decide_eq_true hc')
  · intro t ht
    obtain ⟨_, i, request, p, _, _, hp⟩ := entered_of_mem h ht
    obtain ⟨row, now, hrow, hins⟩ := hp.inserted
    refine ⟨p.credential.credentialId, row, hp.carried, by rw [← hrow]; rfl, ?_, ?_⟩
    · rw [hrows]
      exact List.mem_map.mpr ⟨(t, row), hins, rfl⟩
    · have hkey : row.credentialId = p.credential.credentialId := by
        rw [← hrow]
        rfl
      rw [← hkey]
      exact filter_key_eq_singleton (insertions_nodup .initial tr) hins
  · rw [hrows, List.length_map]
    have hsub : D.entries tr ⊆ (D.insertions .initial tr).map Prod.fst := by
      intro t ht
      obtain ⟨_, i, request, p, _, _, hp⟩ := entered_of_mem h ht
      obtain ⟨row, now, _, hins⟩ := hp.inserted
      exact List.mem_map.mpr ⟨(t, row), hins, rfl⟩
    have hle := ((entries_nodup h).subperm hsub).length_le
    rw [List.length_map] at hle
    exact hle

end Deployment

set_option maxRecDepth 100000 in
/-- Two redemptions of one credential with a challenge each: the first is allowed, the second finds
the credential spent. -/
theorem Demo.exists_twoRedemptions : ∃ tr s, deployment.system.Run .initial tr s ∧
    List.Forall₂ Move.Makes twoRedemptions tr ∧ deployment.entries tr = [1] ∧
    deployment.reasons tr = [(1, .ALLOW), (3, .CREDENTIAL_SPENT)] ∧
    deployment.denials tr = [(3, .CREDENTIAL_SPENT)] ∧
    deployment.verdicts tr = [(1, .inventoryd, .allow), (3, .inventoryd, .deny)] :=
  Deployment.exists_made_of_play twoRedemptions (by decide +kernel)

/-- The law at a run with two redemptions of one credential. -/
theorem Deployment.redeem_at_most_once_twoRedemptions :
    ∃ tr s, Demo.deployment.system.Run .initial tr s ∧ Demo.deployment.entries tr = [1] ∧
      Demo.deployment.reasons tr = [(1, .ALLOW), (3, .CREDENTIAL_SPENT)] ∧
      ∃ c row, carried (Demo.deployment.history 1 tr) = some c ∧ row.credentialId = c ∧
        row ∈ s.shared.store.credentialRedemptions.rows ∧
        (Demo.deployment.insertions .initial tr).filter
          (fun p ↦ decide (p.2.credentialId = c)) = [(1, row)] := by
  obtain ⟨tr, s, hrun, -, hentries, hreasons, -⟩ := Demo.exists_twoRedemptions
  have hmem : 1 ∈ Demo.deployment.entries tr := by
    rw [hentries]
    exact List.mem_singleton_self 1
  exact ⟨tr, s, hrun, hentries, hreasons, (redeem_at_most_once hrun).2.1 1 hmem⟩

end Atcap
