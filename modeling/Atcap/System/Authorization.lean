import Atcap.System.Redemptions

/-!
# Authorization and receipts along every run

Under any schedule and any clock, a redemption changes the database or enters the handler only
after every check was answered for it, and every `inventoryd` receipt agrees with the committed
database.
-/

namespace Atcap

open Base System InventoryApplication

namespace Deployment

variable {D : Deployment} {tr pre post : D.Trace} {t i : Nat} {request : LookupInput}
  {s : Config Op Op.Reply World Call (Except Exn Answer)}

/-! ### Authorization -/

/-- What the spend of a presentation rests on, after the run `pre` before it: the call's own
checks, the challenge that some call issued for exactly this context, and the row as the locked
transaction finds it. -/
structure Authorized (pre : D.Trace) (t i : Nat) (request : LookupInput) (p : Presentation)
    (row : ResourceChallengeRow) (lockedNow : Int) : Prop where
  checked : p.Checked D.lib (D.app i) request (D.history t pre)
  issued : ∃ q q' t' c j f, pre = q ++ .act t' (.storeResourceChallenge p.tokenHash
      (p.context (D.app i) request) row.issuedAt row.expiresAt) f (.ok ()) :: q' ∧
    Label.start t' c ∈ q ∧ issuesChallenge c = true ∧ c.owner = .inventoryd j ∧
    (D.app j).ChallengeIssued D.lib p.tokenHash (p.context (D.app i) request) row.issuedAt
      row.expiresAt (D.history t' q)
  spendable : Spendable (D.system.after .initial pre).store (p.spendArgs (D.app i) request) row
    lockedNow

/-- A spendable row was written by a call that issued the challenge for its context. -/
theorem authorized_of_spendable (h : D.system.Run .initial pre s) {p : Presentation}
    {row : ResourceChallengeRow} {lockedNow : Int}
    (hp : p.Checked D.lib (D.app i) request (D.history t pre))
    (hs : Spendable (D.system.after .initial pre).store (p.spendArgs (D.app i) request) row
      lockedNow) : Authorized pre t i request p row lockedNow := by
  refine ⟨hp, ?_, hs⟩
  obtain ⟨hrow, hkey⟩ := (Table.find?_eq_some _).mp hs.stored
  obtain ⟨q, q', t', f, he⟩ := resource_written h hrow
  have hkey' : row.tokenHash = p.tokenHash := hkey
  have hbound : row.context = p.context (D.app i) request := hs.bound
  rw [hkey', hbound] at he
  obtain ⟨c, hc, hg⟩ := h.guarantee_at (A := fun _ _ _ ↦ True) body_sat he
  obtain ⟨hissues, j, hj, hissued⟩ := guarantee_storeResourceChallenge (hg fun _ _ _ _ ↦ trivial)
  exact ⟨q, q', t', c, j, f, he, hc, hissues, hj, hissued⟩

/-- A redemption changes the database only by its spend, with every check answered. -/
theorem authorized_of_change (h : D.system.Run .initial tr s) {e : Op} {x : e.Input} {r : e.Reply}
    (he : tr = pre ++ .act t e x r :: post) {c : Call} (hc : Label.start t c ∈ tr)
    (hr : D.redemption? c = some (i, request))
    (hchange : (D.exec e x (D.system.after .initial pre)).2.store ≠
      (D.system.after .initial pre).store) :
    ∃ p row lockedNow, ∃ y : Except Exn Int × Faults, ∃ r',
      (.act t e x r : D.system.Label) = .act t (.spend (p.spendArgs (D.app i) request)) y r' ∧
      y.1 = .ok lockedNow ∧ Authorized pre t i request p row lockedNow := by
  obtain ⟨c', hc', hg⟩ := h.guarantee_at (A := fun _ _ _ ↦ True) body_sat he
  have heq : c' = c := by
    apply h.start_unique _ hc
    rw [he]
    exact List.mem_append_left _ hc'
  subst heq
  have hg' := hg fun _ _ _ _ ↦ trivial
  obtain ⟨s₁, s₂, hpre, hstep⟩ := h.split he
  have heffect := effect_next (D := D) (D.system.after .initial pre) (.act t e x r)
  change D.Effect _ _ (D.exec e x (D.system.after .initial pre)).2.store at heffect
  generalize (D.exec e x (D.system.after .initial pre)).2.store = db at heffect hchange
  cases heffect with
  | unchanged => exact absurd rfl hchange
  | brokerStored htable heq =>
    unfold guarantee at hg'
    rw [hr] at hg'
    cases hg'.1
  | brokerConsumed hclock hrow =>
    unfold guarantee at hg'
    rw [hr] at hg'
    cases hg'.1
  | resourceStored htable heq =>
    unfold guarantee at hg'
    rw [hr] at hg'
    cases hg'.1
  | @spent _ a y r' row now hclock hrow =>
    obtain ⟨i', request', hr', p, rfl, _, hp⟩ := guarantee_spend hg'
    rw [hr, Option.some.injEq, Prod.mk.injEq] at hr'
    obtain ⟨rfl, rfl⟩ := hr'
    exact ⟨p, row, now, y, r', rfl, hclock, authorized_of_spendable hpre hp hrow⟩

/-- A redemption enters the handler only after its own spend, with every check answered, and
after a clock reading inside both deadlines. -/
theorem authorized_of_entry (h : D.system.Run .initial tr s) {j : Nat} {sku : Text}
    {x : Option (Except Exn (List (Text × Value)))} {r : Except Exn (List (Text × Value))}
    (he : tr = pre ++ .act t (.inventoryLookup j sku) x r :: post) {c : Call}
    (hc : Label.start t c ∈ tr) (hr : D.redemption? c = some (i, request)) :
    ∃ (p : Presentation) (row : ResourceChallengeRow) (lockedNow : Int) (pre₁ mid mid' : D.Trace)
      (y : Except Exn Int × Faults) (res : CredentialSpendResult) (z : Except Exn Int)
      (now : Int),
      pre = pre₁ ++ .act t (.spend (p.spendArgs (D.app i) request)) y (.ok res) ::
        (mid ++ .act t .clock z (.ok now) :: mid') ∧
      y.1 = .ok lockedNow ∧ Authorized pre₁ t i request p row lockedNow ∧
      now < row.expiresAt ∧ p.notBefore ≤ now ∧ now ≤ p.notAfter := by
  obtain ⟨c', hc', hg⟩ := h.guarantee_at (A := fun _ _ _ ↦ True) body_sat he
  have heq : c' = c := by
    apply h.start_unique _ hc
    rw [he]
    exact List.mem_append_left _ hc'
  subst heq
  obtain ⟨i', request', hr', _, _, p, h₀, n, hp, hown⟩ :=
    guarantee_inventoryLookup (hg fun _ _ _ _ ↦ trivial)
  rw [hr, Option.some.injEq, Prod.mk.injEq] at hr'
  obtain ⟨rfl, rfl⟩ := hr'
  obtain ⟨h₁, res, now, rfl, _, hchecked, _, hfresh, hlower, hupper⟩ := hp
  rw [List.append_assoc] at hown
  obtain ⟨pre₁, y, rest, hpre, hown₁, hrest⟩ := System.own_eq_append hown
  obtain ⟨mid, z, mid', hmid, _, _⟩ := System.own_eq_append (h := []) hrest
  have he₁ : tr = pre₁ ++ .act t (.spend (p.spendArgs (D.app i) request)) y (.ok res) ::
      (rest ++ .act t (.inventoryLookup j sku) x r :: post) := by
    rw [he, hpre]
    simp
  obtain ⟨row, lockedNow, hclock, hspendable, _, hres⟩ := spend_committed h he₁
  obtain ⟨s₁, s₂, hrun₁, _⟩ := h.split he₁
  refine ⟨p, row, lockedNow, pre₁, mid, mid', y, res, z, now, by rw [hpre, hmid], hclock, ?_, ?_,
    hlower, hupper⟩
  · exact authorized_of_spendable hrun₁ (by rw [history, hown₁]; exact hchecked) hspendable
  · rw [hres] at hfresh
    exact hfresh

/-- Authorization soundness: whenever a redemption enters the handler or changes the database,
its own spend rests on every check, and a handler entry also on a later clock reading. -/
theorem authorization_sound (h : D.system.Run .initial tr s) {c : Call}
    (hc : Label.start t c ∈ tr) (hr : D.redemption? c = some (i, request)) {e : Op} {x : e.Input}
    {r : e.Reply} (he : tr = pre ++ .act t e x r :: post)
    (heff : e.entersHandler = true ∨ (D.system.after .initial (pre ++ [.act t e x r])).store ≠
      (D.system.after .initial pre).store) :
    ∃ (p : Presentation) (row : ResourceChallengeRow) (lockedNow : Int) (pre₁ rest : D.Trace)
      (y : Except Exn Int × Faults) (r' : Except Exn CredentialSpendResult),
      tr = pre₁ ++ .act t (.spend (p.spendArgs (D.app i) request)) y r' :: rest ∧ pre₁ <+: pre ∧
      y.1 = .ok lockedNow ∧ Authorized pre₁ t i request p row lockedNow ∧
      (e.entersHandler = true → ∃ mid z now mid',
        pre = pre₁ ++ .act t (.spend (p.spendArgs (D.app i) request)) y r' ::
          (mid ++ .act t .clock z (.ok now) :: mid') ∧
        now < row.expiresAt ∧ p.notBefore ≤ now ∧ now ≤ p.notAfter) := by
  by_cases hentry : e.entersHandler = true
  · cases e with
    | inventoryLookup j sku =>
      obtain ⟨p, row, lockedNow, pre₁, mid, mid', y, res, z, now, hpre, hclock, hauth, hfresh,
        hlower, hupper⟩ := authorized_of_entry h he hc hr
      refine ⟨p, row, lockedNow, pre₁, (mid ++ .act t .clock z (.ok now) :: mid') ++
        .act t (.inventoryLookup j sku) x r :: post, y, .ok res, ?_, ?_, hclock, hauth, ?_⟩
      · rw [he, hpre, List.append_assoc]
        rfl
      · rw [hpre]
        exact List.prefix_append _ _
      · intro _
        exact ⟨mid, z, now, mid', hpre, hfresh, hlower, hupper⟩
    | clock | tokenHex | lib | sign | storeBrokerChallenge | consumeBrokerChallenge
    | storeResourceChallenge | getResourceChallenge | spend | recordInvocation
    | invocationCount => cases hentry
  · rw [System.after_snoc] at heff
    obtain ⟨p, row, lockedNow, y, r', hl, hclock, hauth⟩ :=
      authorized_of_change h he hc hr (heff.resolve_left hentry)
    refine ⟨p, row, lockedNow, pre, post, y, r', ?_, List.prefix_rfl, hclock, hauth, ?_⟩
    · rw [he, hl]
    · intro hcontra
      exact absurd hcontra hentry

/-- Soundness at the handler entry of a run with two redemptions of one credential. -/
theorem authorization_sound_twoRedemptions :
    ∃ (tr : Demo.deployment.Trace) (s : Config Op Op.Reply World Call (Except Exn Answer))
      (i : Nat) (request : LookupInput) (p : Presentation) (row : ResourceChallengeRow)
      (lockedNow : Int) (pre₁ : Demo.deployment.Trace),
      Demo.deployment.system.Run .initial tr s ∧ Demo.deployment.entries tr = [1] ∧
      pre₁ <+: tr ∧ Authorized pre₁ 1 i request p row lockedNow := by
  obtain ⟨tr, s, hrun, -, hentries, -⟩ := Demo.exists_twoRedemptions
  have hmem : 1 ∈ Demo.deployment.entries tr := by
    rw [hentries]
    exact List.mem_singleton_self 1
  obtain ⟨c, i, request, -, hc, hr, -⟩ := entered_of_mem hrun hmem
  obtain ⟨j, sku, x, r, hl⟩ := mem_entries.mp hmem
  obtain ⟨pre, post, he⟩ := List.append_of_mem hl
  obtain ⟨p, row, lockedNow, pre₁, rest, y, r', htr, -, -, hauth, -⟩ :=
    authorization_sound hrun hc hr he (.inl rfl)
  exact ⟨tr, s, i, request, p, row, lockedNow, pre₁, hrun, hentries, ⟨_, htr.symm⟩, hauth⟩

/-! ### Receipts -/

/-- A redemption row and its challenge row carry the claims of a receipt. -/
def Corresponds (db : Store) (payload : DecisionReceiptPayload) (row : RedemptionRow) : Prop :=
  row ∈ db.credentialRedemptions.rows ∧ payload.credentialId = some row.credentialId ∧
    payload.challengeTokenHash = some row.tokenHash ∧ payload.recordId = some row.recordId ∧
    ∃ c ∈ db.resourceChallenges.rows, c.tokenHash = row.tokenHash ∧
      payload.argumentsDigest = some c.argumentsDigest ∧ payload.method = some c.method ∧
      payload.audience = some c.audience

/-- The receipt of an invocation corresponds to the row its own transaction inserted. -/
theorem corresponds_of_invoked (h : D.system.Run .initial pre s) {p : Presentation} {n : Nat}
    (hp : p.Invoked D.lib (D.app i) i request n (D.history t pre))
    {payload : DecisionReceiptPayload} {completed : Bool} {receiptId : Text} {decidedAt : Int}
    {snapshot : Nat} {digest : Text}
    (hpayload : payload.toReceiptFields = (D.app i).receiptFields
      (invocationArgs request p.argumentsDigest p.locals n completed) receiptId decidedAt snapshot
      digest) :
    ∃ row, Corresponds (D.system.after .initial pre).store payload row ∧
      (t, row) ∈ D.insertions .initial pre := by
  obtain ⟨h₀, reply, q, hadmitted, _, hown⟩ := hp
  obtain ⟨res, hspend, hfirst⟩ := hadmitted.spent
  have hmem : (⟨.spend (p.spendArgs (D.app i) request), .ok res⟩ : Event Op Op.Reply) ∈
      D.history t pre := by
    rw [hown]
    exact List.mem_append_left _ hspend
  obtain ⟨y, hy⟩ := System.mem_own.mp hmem
  obtain ⟨pre₁, post₁, he⟩ := List.append_of_mem hy
  obtain ⟨row, now, _, hspendable, _, hins⟩ := firstSpend_inserts h he hfirst
  have hrows := rows_after (D := D) .initial pre
  refine ⟨_, ⟨?_, by rw [hpayload]; rfl, by rw [hpayload]; rfl, by rw [hpayload]; rfl, ?_⟩, hins⟩
  · rw [hrows]
    exact List.mem_append_right _ (List.mem_map.mpr ⟨_, hins, rfl⟩)
  · obtain ⟨hrow, hkey⟩ := (Table.find?_eq_some _).mp hspendable.stored
    obtain ⟨c, hc, hkept, _⟩ := resource_kept (D.system.after .initial pre₁) _ hrow
    have hhash : c.tokenHash = row.tokenHash := by rw [hkept]
    have hcontext : c.context = row.context := by rw [hkept]; rfl
    rw [← System.after_append, ← he] at hc
    have hbound := hcontext.trans hspendable.bound
    refine ⟨c, hc, hhash.trans hkey, ?_, ?_, ?_⟩
    · rw [hpayload]
      exact congrArg (fun k ↦ some k.argumentsDigest) hbound.symm
    · rw [hpayload]
      exact congrArg (fun k ↦ some k.method) hbound.symm
    · rw [hpayload]
      exact congrArg (fun k ↦ some k.audience) hbound.symm

/-- The run signs an `inventoryd` receipt right after `pre`. -/
def SignsAt (tr pre : D.Trace) (t : Nat) (payload : DecisionReceiptPayload) : Prop :=
  payload.decidingService = .inventoryd ∧
    ∃ signer x r post, tr = pre ++ .act t (.sign signer payload) x r :: post

/-- An allow receipt is signed by a redemption that has entered the handler. -/
theorem invoked_of_allow (h : D.system.Run .initial tr s) {payload : DecisionReceiptPayload}
    (hs : SignsAt tr pre t payload) (ha : payload.decision = .allow) :
    ∃ i request, ∃ (p : Presentation) (n : Nat),
      p.Invoked D.lib (D.app i) i request n (D.history t pre) ∧
      ∃ row, Corresponds (D.system.after .initial pre).store payload row ∧
        (t, row) ∈ D.insertions .initial pre := by
  obtain ⟨hservice, signer, x, r, post, he⟩ := hs
  obtain ⟨c, _, hg⟩ := h.guarantee_at (A := fun _ _ _ ↦ True) body_sat he
  obtain ⟨s₁, s₂, hpre, _⟩ := h.split he
  rcases guarantee_sign (hg fun _ _ _ _ ↦ trivial) with
    hbroker | ⟨_, hdeny, _⟩ | ⟨i, request, _, p, n, hp, _, _, _, _, _, hpayload⟩
  · rw [hbroker] at hservice
    cases hservice
  · rw [hdeny] at ha
    cases ha
  · exact ⟨i, request, p, n, hp, corresponds_of_invoked hpre hp hpayload⟩

private theorem allow_once (h : D.system.Run .initial tr s)
    {payload payload' : DecisionReceiptPayload} {pre' : D.Trace} {mid : D.Trace}
    {signer : ReceiptSigner} {x : Option Exn} {r : Except Exn SignedDecisionReceipt}
    (hpre : pre' = pre ++ .act t (.sign signer payload) x r :: mid)
    (hs : SignsAt tr pre' t payload') (ha : payload'.decision = .allow) : False := by
  obtain ⟨i, request, p, n, hp, _⟩ := invoked_of_allow h hs ha
  have hmem : (⟨.sign signer payload, r⟩ : Event Op Op.Reply) ∈ D.history t pre' := by
    rw [hpre]
    exact System.mem_own.mpr ⟨x, by simp⟩
  have hsigned := hp.unsigned _ hmem
  cases hsigned

/-- Two allow receipts that correspond to one row are one. -/
theorem allow_unique (h : D.system.Run .initial tr s) {pre' : D.Trace} {t' : Nat}
    {payload payload' : DecisionReceiptPayload} {row : RedemptionRow}
    (hs : SignsAt tr pre t payload) (hs' : SignsAt tr pre' t' payload')
    (ha : payload.decision = .allow) (ha' : payload'.decision = .allow)
    (hc : Corresponds (D.system.after .initial pre).store payload row)
    (hc' : Corresponds (D.system.after .initial pre').store payload' row) : pre = pre' := by
  obtain ⟨_, _, _, _, _, row₁, hrow₁, hins₁⟩ := invoked_of_allow h hs ha
  obtain ⟨_, _, _, _, _, row₂, hrow₂, hins₂⟩ := invoked_of_allow h hs' ha'
  obtain ⟨_, signer, x, r, post, he⟩ := id hs
  obtain ⟨_, signer', x', r', post', he'⟩ := id hs'
  have hkey : row₁.credentialId = row₂.credentialId := by
    have hfirst := hrow₁.2.1.symm.trans hc.2.1
    have hsecond := hrow₂.2.1.symm.trans hc'.2.1
    exact Option.some.inj (hfirst.trans hsecond.symm)
  -- Both rows were inserted by the one transaction for this credential.
  have hthread : t = t' := by
    have hm₁ : (t, row₁) ∈ D.insertions .initial tr := by
      rw [he, insertions_append]
      exact List.mem_append_left _ hins₁
    have hm₂ : (t', row₂) ∈ D.insertions .initial tr := by
      rw [he', insertions_append]
      exact List.mem_append_left _ hins₂
    have heq := List.inj_on_of_nodup_map (insertions_nodup .initial tr) hm₁ hm₂ hkey
    rw [Prod.mk.injEq] at heq
    exact heq.1
  subst hthread
  rcases System.split_cases (he.symm.trans he') with ⟨hpre, _⟩ | ⟨mid, hmid⟩ | ⟨mid, hmid⟩
  · exact hpre
  · exact (allow_once h hmid hs' ha').elim
  · exact (allow_once h hmid hs ha).elim

/-- A denial describes no invocation, and its call makes none in the whole run. -/
theorem deny_uninvoked (h : D.system.Run .initial tr s) {payload : DecisionReceiptPayload}
    (hs : SignsAt tr pre t payload) (hd : payload.decision = .deny) :
    payload.handlerInvoked = false ∧ payload.invocationId = none ∧
      ∀ ev ∈ D.history t tr, ev.op.isInvocation = false := by
  obtain ⟨hservice, signer, x, r, post, he⟩ := hs
  obtain ⟨c, hc, hg⟩ := h.guarantee_at (A := fun _ _ _ ↦ True) body_sat he
  have hc' : Label.start t c ∈ tr := by
    rw [he]
    exact List.mem_append_left _ hc
  rcases guarantee_sign (hg fun _ _ _ _ ↦ trivial) with
    hbroker | ⟨_, _, hinvoked, hid, hcase⟩ | ⟨i, request, _, p, n, hp, _, _, _, _, _, hpayload⟩
  · rw [hbroker] at hservice
    cases hservice
  · refine ⟨hinvoked, hid, fun ev hev ↦ ?_⟩
    by_contra hinv
    rw [Bool.not_eq_false] at hinv
    -- An invocation of this call comes after an unserved history of a redemption.
    obtain ⟨q, q', hq⟩ := List.append_of_mem hev
    have hguar := h.guarantee_history (A := fun _ _ _ ↦ True) hc' (body_sat c) hq
      (fun _ _ _ _ ↦ trivial)
    have hbefore : (D.redemption? c).isSome ∧ ∀ ev ∈ q, ev.op.isSign = false := by
      rcases ev with ⟨e, re⟩
      cases e with
      | recordInvocation j =>
        obtain ⟨i, request, hr, _, p, hp⟩ := guarantee_recordInvocation hguar
        exact ⟨by rw [hr]; rfl, fun ev hev ↦ (hp.unserved.not_served hev).2⟩
      | inventoryLookup j sku =>
        obtain ⟨i, request, hr, _, _, p, h₀, n, hp, hown⟩ := guarantee_inventoryLookup hguar
        refine ⟨by rw [hr]; rfl, fun ev hev ↦ ?_⟩
        rw [hown, List.mem_append, List.mem_singleton] at hev
        rcases hev with hev | rfl
        · exact (hp.unserved.not_served hev).2
        · rfl
      | clock | tokenHex | lib | sign | storeBrokerChallenge | consumeBrokerChallenge
      | storeResourceChallenge | getResourceChallenge | spend | invocationCount => cases hinv
    have hown := System.own_split he
    rcases hcase with hnone | hu
    · rw [hnone] at hbefore
      cases hbefore.1
    · -- Before the receipt there is no invocation, after it there is a signature.
      rw [history, hown] at hq
      rcases List.append_eq_append_iff.mp hq with ⟨m, hm, hm'⟩ | ⟨m, hm, hm'⟩
      · cases m with
        | nil =>
          simp only [List.nil_append, List.cons.injEq] at hm'
          rw [← hm'.1] at hinv
          cases hinv
        | cons b m =>
          rw [List.cons_append, List.cons.injEq] at hm'
          have hsigned := hbefore.2 b (by rw [hm]; simp)
          rw [← hm'.1] at hsigned
          cases hsigned
      · cases m with
        | nil =>
          simp only [List.nil_append, List.cons.injEq] at hm'
          rw [hm'.1] at hinv
          cases hinv
        | cons b m =>
          rw [List.cons_append, List.cons.injEq] at hm'
          have hin : ev ∈ D.system.own t pre := by
            rw [hm, hm'.1]
            simp
          rw [(hu.not_served hin).1] at hinv
          cases hinv
  · rw [hpayload] at hd
    cases hd

/-- Receipt truthfulness, in every run from an empty database: an allow receipt corresponds to
a committed redemption row, no two of them to the same one, and a denial comes from a call that
neither counted an invocation nor entered the handler. -/
theorem receipts_truthful (h : D.system.Run .initial tr s) :
    (∀ pre t payload, SignsAt tr pre t payload → payload.decision = .allow →
      ∃ row, Corresponds (D.system.after .initial pre).store payload row) ∧
    (∀ pre t payload pre' t' payload' row, SignsAt tr pre t payload → SignsAt tr pre' t' payload' →
      payload.decision = .allow → payload'.decision = .allow →
      Corresponds (D.system.after .initial pre).store payload row →
      Corresponds (D.system.after .initial pre').store payload' row → pre = pre') ∧
    ∀ pre t payload, SignsAt tr pre t payload → payload.decision = .deny →
      payload.handlerInvoked = false ∧ payload.invocationId = none ∧
        ∀ ev ∈ D.history t tr, ev.op.isInvocation = false := by
  refine ⟨?_, ?_, ?_⟩
  · intro pre t payload hs ha
    obtain ⟨_, _, _, _, _, row, hrow, _⟩ := invoked_of_allow h hs ha
    exact ⟨row, hrow⟩
  · intro pre t payload pre' t' payload' row hs hs' ha ha' hc hc'
    exact allow_unique h hs hs' ha ha' hc hc'
  · intro pre t payload hs hd
    exact deny_uninvoked h hs hd

/-- Truthfulness of the allow receipt of a run with two redemptions of one credential. -/
theorem receipts_truthful_twoRedemptions :
    ∃ (tr : Demo.deployment.Trace) (s : Config Op Op.Reply World Call (Except Exn Answer))
      (pre : Demo.deployment.Trace) (payload : DecisionReceiptPayload) (row : RedemptionRow),
      Demo.deployment.system.Run .initial tr s ∧
      Demo.deployment.verdicts tr = [(1, .inventoryd, .allow), (3, .inventoryd, .deny)] ∧
      SignsAt tr pre 1 payload ∧ payload.decision = .allow ∧
      Corresponds (Demo.deployment.system.after .initial pre).store payload row := by
  obtain ⟨tr, s, hrun, -, -, -, -, hverdicts⟩ := Demo.exists_twoRedemptions
  have hmem : (1, .inventoryd, .allow) ∈ Demo.deployment.verdicts tr := by
    rw [hverdicts]
    exact List.mem_cons_self
  obtain ⟨signer, payload, x, r, hl, hservice, ha⟩ := sign_of_mem_verdicts hmem
  obtain ⟨pre, post, he⟩ := List.append_of_mem hl
  have hs : SignsAt tr pre 1 payload := ⟨hservice, signer, x, r, post, he⟩
  obtain ⟨row, hrow⟩ := (receipts_truthful hrun).1 pre 1 payload hs ha
  exact ⟨tr, s, pre, payload, row, hrun, hverdicts, hs, ha, hrow⟩

end Deployment
end Atcap
