import Atcap.Inventory.Composition
import Atcap.System.Decision
import Atcap.System.Dispatch
import Atcap.System.Issuance
import Atcap.System.Race

/-!
# From issue to redemption

A broker and an inventory server agree on the scope and on the issuer key. A credential that an
allowed `issue` returned is then good for one entry into the handler: the first redemption with a
challenge of its own, a matching proof and the right time enters it, and every later one finds
the credential spent. When the broker grants a longer lifetime than the resource policy allows,
no redemption of it ever gets past the check of the lifetime.
-/

namespace Atcap

open Base System InventoryApplication CapabilityBroker

namespace Deployment

variable (D : Deployment)

/-- What is assumed of the credentials of cA2A along a run: signing adds the signature and nothing
else, `from_dict` inverts `credential_to_dict` whatever the order of the members, and
`verify_chain` accepts a credential of depth 0 under the key that signed it, from `not_before` to
`not_after` with both ends included. -/
structure CredentialLaws (tr : D.Trace) : Prop where
  signs : ∀ t u key x c, Label.act t (.lib (.credentialSign u key)) x (.ok c) ∈ tr →
    c = { u with signature := c.signature }
  parses : ∀ t t' c x body members y r, Label.act t (.lib (.credentialBody c)) x (.ok body) ∈ tr →
    members.Perm (Value.setMember body (text "signature") (.str c.signature)) →
    Label.act t' (.lib (.credentialFromDict (.dict members))) y r ∈ tr → r = .ok c
  accepts : ∀ t t' u key x c notBefore notAfter atTime y r,
    Label.act t (.lib (.credentialSign u key)) x (.ok c) ∈ tr → c.depth = 0 →
    c.notBefore = some notBefore → c.notAfter = some notAfter →
    notBefore ≤ atTime → atTime ≤ notAfter →
    Label.act t' (.lib (.verifyChain [c] 0 {hex key.publicRaw} atTime)) y r ∈ tr → r = .ok ()

/-- A redemption with the credential, a challenge issued for it and a matching proof: the proof
presents the challenge, which no other call spends, and the released verifier accepts it for
exactly this call. Its store works, and every time it reads is inside the validity window and
before the expiry of the challenge; the one its transaction reads is one that SQLite can store. -/
structure Matching (tr : D.Trace) (t i : Nat) (request : LookupInput) (c : Credential)
    (notBefore notAfter : Int) (proof : HolderProof) (challenge : ResourceChallenge) : Prop where
  called : ∃ pre post t₁, tr = pre ++ .start t (.redeem i request) :: post ∧
    Label.start t₁ (.issueResourceChallenge i c.credentialId request.toInventoryArguments
      request.recordId.val) ∈ pre ∧ Label.finish t₁ (.ok (.challenge challenge)) ∈ pre
  finished : ∃ a, Label.finish t a ∈ tr
  parsed : ∀ x r, Label.act t (.lib (.holderProofFromDict (.dict request.holderProof))) x r ∈ tr →
    r = .ok proof
  presents : proof.challenge = challenge.token
  proved : ∀ sealedPayload x r,
    canonicalJson D.lib request.toInventoryArguments.modelDump = .ok sealedPayload →
    Label.act t (.lib (.verifyHolderProof
      ((D.app i).holderProofCheck request c proof sealedPayload))) x r ∈ tr → r = .ok ()
  fresh : ∀ t' a x r, Label.act t' (.spend a) x r ∈ tr →
    challengeTokenHash challenge.token = .ok a.tokenHash → t' = t
  clock : ∀ x r, Label.act t .clock x r ∈ tr → ∃ now, x = .ok now ∧ notBefore ≤ now ∧
    now ≤ notAfter ∧ now < challenge.expiresAt
  read : ∀ tokenHash x r, Label.act t (.getResourceChallenge tokenHash) x r ∈ tr → x = Faults.none
  spend : ∀ a x r, Label.act t (.spend a) x r ∈ tr → x.2 = Faults.none ∧ ∃ now, x.1 = .ok now ∧
    -2 ^ 63 ≤ now ∧ notBefore ≤ now ∧ now ≤ notAfter ∧ now < challenge.expiresAt

/-- The receipts of a call can be signed: the policy has its strings and a digest, the clock reads
a time, and the signer works. -/
structure SignerWorks (tr : D.Trace) (t i : Nat) : Prop where
  named : (D.app i).policy.Named
  policyDigest : ∃ digest, canonicalDigest D.lib (D.app i).policy.publicDict = .ok digest
  clock : ∀ x r, Label.act t .clock x r ∈ tr → ∃ now, x = .ok now ∧ 0 ≤ now
  sign : ∀ payload x r, Label.act t (.sign (D.app i).receiptSigner payload) x r ∈ tr →
    ∃ receipt, r = .ok receipt

/-- A call is denied for a reason: it never enters the handler, it returns no decision but this
denial, and with a working signer it returns it. -/
structure DeniedFor (tr : D.Trace) (t i : Nat) (reason : Reason) : Prop where
  unserved : t ∉ D.entries tr
  reason : ∀ d, Label.finish t (.ok (.decision d)) ∈ tr → d.allowed = false ∧ d.reason = reason
  returned : D.SignerWorks tr t i → ∀ a, Label.finish t a ∈ tr → ∃ d, a = .ok (.decision d)

variable {D} {tr pre post : D.Trace} {t i : Nat}
  {s : Config Op Op.Reply World Call (Except Exn Answer)}

/-! ### The database -/

/-- A consumed challenge and a spent credential are so by a spend of the run. -/
theorem spend_of_consumed (tr : D.Trace) :
    (∀ row ∈ (D.system.after .initial tr).store.resourceChallenges.rows,
      row.consumedAt.isSome = true →
      ∃ t a x r, Label.act t (.spend a) x r ∈ tr ∧ a.tokenHash = row.tokenHash) ∧
    (∀ c, (D.system.after .initial tr).store.spent c = true →
      ∃ t a x r, Label.act t (.spend a) x r ∈ tr ∧ a.context.credentialId = c) := by
  induction tr using List.reverseRecOn with
  | nil => exact ⟨nofun, nofun⟩
  | append_singleton tr l ih =>
    obtain ⟨ihrow, ihspent⟩ := ih
    have hrowKept : ∀ row ∈ (D.system.after .initial tr).store.resourceChallenges.rows,
        row.consumedAt.isSome = true →
        ∃ t a x r, Label.act t (.spend a) x r ∈ tr ++ [l] ∧ a.tokenHash = row.tokenHash := by
      intro row hrow hc
      obtain ⟨t, a, x, r, hl, ha⟩ := ihrow row hrow hc
      exact ⟨t, a, x, r, List.mem_append_left _ hl, ha⟩
    have hspentKept : ∀ c, (D.system.after .initial tr).store.spent c = true →
        ∃ t a x r, Label.act t (.spend a) x r ∈ tr ++ [l] ∧ a.context.credentialId = c := by
      intro c hc
      obtain ⟨t, a, x, r, hl, ha⟩ := ihspent c hc
      exact ⟨t, a, x, r, List.mem_append_left _ hl, ha⟩
    rw [System.after_snoc]
    have heffect := effect_next (D.system.after .initial tr) l
    generalize (D.system.next (D.system.after .initial tr) l).store = db at heffect
    cases heffect with
    | unchanged => exact ⟨hrowKept, hspentKept⟩
    | brokerStored htable heq => exact ⟨hrowKept, hspentKept⟩
    | brokerConsumed hclock hr => exact ⟨hrowKept, hspentKept⟩
    | resourceStored htable heq =>
      refine ⟨?_, hspentKept⟩
      obtain ⟨_, hrows⟩ := Table.insert?_eq_some htable
      intro row hrow hc
      change row ∈ Table.rows _ at hrow
      rw [hrows, List.mem_append, List.mem_singleton] at hrow
      rcases hrow with hrow | rfl
      · exact hrowKept row hrow hc
      · cases hc
    | @spent t a x r row' now hclock hr =>
      refine ⟨?_, ?_⟩
      · intro row hrow hc
        obtain ⟨c, hmem, rfl⟩ := mem_resource_spend.mp hrow
        by_cases hm : c.tokenHash = a.tokenHash ∧ c.consumedAt.isNone
        · rw [if_pos hm]
          exact ⟨t, a, x, r, by simp, hm.1.symm⟩
        · rw [if_neg hm] at hc ⊢
          exact hrowKept c hmem hc
      · intro c hc
        by_cases hc' : a.context.credentialId = c
        · exact ⟨t, a, x, r, by simp, hc'⟩
        · apply hspentKept c
          obtain ⟨row, hrow, hkey⟩ := spent_iff.mp hc
          rw [rows_redemptions_spend] at hrow
          split at hrow
          · exact spent_iff.mpr ⟨row, hrow, hkey⟩
          · rw [List.mem_append, List.mem_singleton] at hrow
            rcases hrow with hrow | rfl
            · exact spent_iff.mpr ⟨row, hrow, hkey⟩
            · exact absurd hkey hc'

/-- A challenge that `issue_resource_challenge` returned is stored under the hash of its token,
bound to exactly what it was issued for. -/
theorem challenge_stored (h : D.system.Run .initial tr s) {credentialId recordId : Text}
    {arguments : InventoryArguments} {challenge : ResourceChallenge}
    (hc : Label.start t (.issueResourceChallenge i credentialId arguments recordId) ∈ tr)
    (hf : Label.finish t (.ok (.challenge challenge)) ∈ tr) :
    ∃ digest tokenHash, canonicalDigest D.lib arguments.modelDump = .ok digest ∧
      credentialId.isLowerHexOf 64 = true ∧ challengeTokenHash challenge.token = .ok tokenHash ∧
      ∃ row ∈ (D.system.after .initial tr).store.resourceChallenges.rows,
        row.tokenHash = tokenHash ∧ row.context = (D.app i).context credentialId digest recordId ∧
        row.expiresAt = challenge.expiresAt := by
  have hsat : (D.system.body (.issueResourceChallenge i credentialId arguments recordId)).Sat
      (fun _ _ ↦ True) (fun _ _ ↦ True) (fun h' a ↦ ∀ challenge, a = .ok (.challenge challenge) →
        StoredLast challenge h' ∧ credentialId.isLowerHexOf 64 = true ∧ ∃ digest,
          canonicalDigest D.lib arguments.modelDump = .ok digest ∧
          challenge.context = (D.app i).context credentialId digest recordId) [] := by
    change (D.body _).prog.Sat _ _ _ []
    rw [Body.sat_prog]
    apply Body.Sat.map
    apply (issueResourceChallenge_stores (fun _ _ _ ↦ trivial) fun _ _ _ _ _ _ ↦ trivial).mono
    rintro h' r l ⟨_, hr⟩ challenge' ha
    cases r with
    | error e => cases ha
    | ok challenge'' =>
      cases ha
      exact hr challenge' rfl
  obtain ⟨⟨q, tokenHash, issuedAt, _, hhash, hown⟩, hid, digest, hdigest, hcontext⟩ :=
    h.result (A := fun _ ↦ _) (G := fun _ ↦ _) (Q := fun _ ↦ _) hc hsat (fun _ _ _ _ ↦ trivial) hf
      challenge rfl
  obtain ⟨pre, x, post, he, _, _⟩ := System.own_eq_append hown
  have hreply : .ok () = (D.exec (.storeResourceChallenge tokenHash challenge.context issuedAt
    challenge.expiresAt) x (D.system.after .initial pre)).1 := h.reply_eq he
  obtain ⟨row, table, hkey, hrowContext, hexpires, _, hrows, hworld⟩ :=
    exec_storeResourceChallenge hreply.symm
  have hstored : row ∈ (D.system.after .initial (pre ++
      [.act t (.storeResourceChallenge tokenHash challenge.context issuedAt challenge.expiresAt) x
        (.ok ())])).store.resourceChallenges.rows := by
    rw [System.after_snoc]
    change row ∈ (D.exec (.storeResourceChallenge tokenHash challenge.context issuedAt
      challenge.expiresAt) x (D.system.after .initial pre)).2.store.resourceChallenges.rows
    rw [hworld]
    change row ∈ table.rows
    rw [hrows]
    simp
  obtain ⟨row', hrow', hkept, _⟩ := resource_kept (D := D) _ post hstored
  rw [← System.after_append, List.append_assoc, List.singleton_append, ← he] at hrow'
  refine ⟨digest, tokenHash, hdigest, hid, hhash, row', hrow', ?_, ?_, ?_⟩
  · rw [hkept]
    exact hkey
  · rw [hkept, ← hcontext]
    exact hrowContext
  · rw [hkept]
    exact hexpires

/-! ### What a matching redemption is answered -/

/-- A credential of the broker under its own key, what `credential_to_dict` spells of it, and its
validity bounds. -/
structure BrokerSigned (D : Deployment) (tr : D.Trace) (b : Nat) (c : Credential)
    (members : List (Text × Value)) (notBefore notAfter : Int) : Prop where
  signed : ∃ t u x, Label.act t (.lib (.credentialSign u (D.broker b).issuerPrivateKey)) x
    (.ok c) ∈ tr
  spelled : ∃ t x body, Label.act t (.lib (.credentialBody c)) x (.ok body) ∈ tr ∧
    members = Value.setMember body (text "signature") (.str c.signature)
  depth : c.depth = 0
  identifier : c.credentialId.isLowerHexOf 64 = true
  scope : c.scope = {(D.broker b).policy.qualifiedScope}
  lower : c.notBefore = some notBefore
  upper : c.notAfter = some notAfter
  lifetime : notAfter - notBefore = (D.broker b).policy.credentialTtlSeconds

/-- The credential that an allowed issuance returns is one of the broker. -/
theorem AllowedIssue.brokerSigned (h : D.system.Run .initial tr s) (law : D.CredentialLaws tr)
    {b : Nat} {a : Submission} {d : Decision} (ha : AllowedIssue tr t b a d) :
    ∃ c members notBefore notAfter,
      d.result = some (.dict [(text "credential", .dict members)]) ∧
      BrokerSigned D tr b c members notBefore notAfter := by
  obtain ⟨_, h₀, h₁, hown, _, _, now, credentialId, c, body, _, hid, hsign, hbody, hresult⟩ :=
    ha.granted h
  have hsub : h₁ ⊆ D.history t tr := by
    rw [hown]
    exact fun ev hev ↦ List.mem_append_right _ (List.mem_cons_of_mem _ hev)
  obtain ⟨x, hx⟩ := System.mem_own.mp (hsub hsign)
  obtain ⟨y, hy⟩ := System.mem_own.mp (hsub hbody)
  obtain ⟨z, hz⟩ := System.mem_own.mp (hsub hid)
  obtain ⟨pre, post, he⟩ := List.append_of_mem hz
  have hhex : credentialId = hex z.val := h.reply_eq he
  have hc := law.signs t _ _ x c hx
  refine ⟨c, _, now, now + (D.broker b).policy.credentialTtlSeconds, hresult, ⟨t, _, x, hx⟩,
    ⟨t, y, body, hy, rfl⟩, ?_, ?_, ?_, ?_, ?_, by omega⟩
  · rw [hc]
    rfl
  · rw [hc]
    change credentialId.isLowerHexOf 64 = true
    rw [hhex]
    exact isLowerHexOf_hex (by rw [z.property])
  · rw [hc]
    rfl
  · rw [hc]
    rfl
  · rw [hc]
    rfl

section Redemption

variable {b : Nat} {request : LookupInput} {c : Credential} {members : List (Text × Value)}
  {notBefore notAfter : Int} {proof : HolderProof} {challenge : ResourceChallenge}

/-- The stored challenge of a matching redemption, in the states in which it takes its steps: only
the call itself consumes it. -/
structure Holds (tr : D.Trace) (t : Nat) (k : Contestant) : Prop where
  key : challengeTokenHash k.shown.proof.challenge = .ok k.shown.tokenHash
  issuedAt : k.row.issuedAt = k.shown.notBefore
  expiresAt : k.row.expiresAt < 2 ^ 63
  stored : ∀ pre e x r post, tr = pre ++ .act t e x r :: post →
    ∃ row, (D.system.after .initial pre).store.resourceChallenges.find? k.shown.tokenHash =
        some row ∧ row.context = k.row.context ∧ row.expiresAt = k.row.expiresAt ∧
      (row.consumedAt.isSome = true → ∃ a y r', Label.act t (.spend a) y r' ∈ pre)

/-- A matching redemption of a credential of the broker is presentable, over the stored challenge
that it presents. -/
theorem Matching.contestant (h : D.system.Run .initial tr s)
    (hb : BrokerSigned D tr b c members notBefore notAfter)
    (hm : D.Matching tr t i request c notBefore notAfter proof challenge)
    (hscope : (D.broker b).policy.qualifiedScope = (D.app i).policy.qualifiedScope)
    (hlife : (D.broker b).policy.credentialTtlSeconds ≤
      (D.app i).policy.maxCredentialLifetimeSeconds) :
    ∃ k : Contestant, k.service = i ∧ k.request = request ∧ k.shown.credential = c ∧
      k.shown.notBefore = notBefore ∧ k.shown.notAfter = notAfter ∧ k.shown.proof = proof ∧
      k.row.expiresAt = challenge.expiresAt ∧ k.Presentable D.lib (D.app i) ∧ Holds tr t k := by
  obtain ⟨pre, post, t₁, he, hc₁, hf₁⟩ := hm.called
  obtain ⟨s₁, s₂, hpre, _⟩ := h.split he
  obtain ⟨digest, tokenHash, hdigest, hid, hhash, row, hrow, hkey, hcontext, hexpires⟩ :=
    challenge_stored hpre hc₁ hf₁
  have hreach : D.Reachable (D.system.after .initial pre) := ⟨pre, s₁, hpre, hpre.shared_eq⟩
  refine ⟨⟨i, request, ⟨digest, c, notBefore, notAfter, proof, tokenHash⟩,
    { row with issuedAt := notBefore }⟩, rfl, rfl, rfl, rfl, rfl, rfl, hexpires, ?_, ?_⟩
  · refine ⟨hdigest, hb.identifier, ?_, ?_, ?_, ?_, ?_⟩
    · simp only [validityBounds, hb.lower, hb.upper]
    · change notAfter - notBefore ≤ _
      rw [hb.lifetime]
      exact hlife
    · change c.scope = _
      rw [hb.scope, hscope]
    · change challengeTokenHash proof.challenge = _
      rw [hm.presents]
      exact hhash
    · exact hcontext
  · refine ⟨?_, rfl, (reachable_row hreach hrow).2, ?_⟩
    · change challengeTokenHash proof.challenge = _
      rw [hm.presents]
      exact hhash
    intro pre' e x r post' he'
    obtain ⟨mid, rfl⟩ := h.start_before he he'
    obtain ⟨row', hfind, hkept⟩ := find_kept (D.system.after .initial pre)
      (.start t (.redeem i request) :: mid) hrow
    rw [hkey, ← System.after_append] at hfind
    refine ⟨row', hfind, by rw [hkept]; rfl, by rw [hkept], fun hconsumed ↦ ?_⟩
    obtain ⟨hmem, hkey'⟩ := (Table.find?_eq_some _).mp hfind
    obtain ⟨t', a, y, r', hl, ha⟩ := (spend_of_consumed _).1 row' hmem hconsumed
    have hown : t' = t := by
      apply hm.fresh t' a y r'
      · rw [he']
        exact List.mem_append_left _ hl
      · rw [ha, hkey']
        exact hhash
    exact ⟨a, y, r', hown ▸ hl⟩

variable {k : Contestant}

/-- The spend of a matching redemption commits. -/
theorem Matching.spend_reply (h : D.system.Run .initial tr s)
    (hm : D.Matching tr t k.service k.request k.shown.credential k.shown.notBefore
      k.shown.notAfter k.shown.proof challenge)
    (hp : k.Presentable D.lib (D.app k.service)) (hh : Holds tr t k)
    (hexpiry : k.row.expiresAt = challenge.expiresAt)
    {x : Except Exn Int × Faults} {r : Except Exn CredentialSpendResult}
    (he : tr = pre ++ .act t (.spend (k.shown.spendArgs (D.app k.service) k.request)) x r :: post) :
    ∃ res, r = .ok res ∧ res.challengeExpiresAt = k.row.expiresAt := by
  obtain ⟨row, hfind, hcontext, hexpires, hown⟩ := hh.stored _ _ _ _ _ he
  have hreply := h.reply_eq he
  obtain ⟨hfault, now, hclock, hpos, hnow, hnow', hfresh⟩ :=
    hm.spend (k.shown.spendArgs (D.app k.service) k.request) x r (by rw [he]; simp)
  obtain ⟨clock, f⟩ := x
  obtain rfl : clock = .ok now := hclock
  obtain rfl : f = Faults.none := hfault
  obtain ⟨hhash, hcredential, hrecord⟩ := hp.bindText
  have hrange : bindInt now = .ok () := by
    have hmax := hh.expiresAt
    rw [bindInt, if_pos ⟨by omega, by omega⟩]
  rcases spend_faultless (a := k.shown.spendArgs (D.app k.service) k.request) hfind (by omega)
    hnow hnow' (hcontext.trans hp.bound) hhash hcredential hrecord hrange with
    ⟨hconsumed, _, _⟩ | ⟨_, heq⟩
  · -- The call spends once: its history before the spend is quiet.
    exfalso
    obtain ⟨a, y, r', hl⟩ := hown hconsumed
    obtain ⟨_, _, hg⟩ := h.guarantee_at (A := fun _ _ _ ↦ True) body_sat he
    obtain ⟨_, _, _, _, _, hquiet, _⟩ := guarantee_spend (hg fun _ _ _ _ ↦ trivial)
    have hq := hquiet _ (System.mem_own.mpr ⟨y, hl⟩ :
      (⟨.spend a, r'⟩ : Event Op Op.Reply) ∈ D.system.own t pre)
    cases hq
  · exact ⟨_, hreply.trans (congrArg Prod.fst heq), hexpires⟩

/-- A matching redemption is answered so that nothing but its own transaction decides it. -/
theorem Matching.relies (h : D.system.Run .initial tr s) (law : D.CredentialLaws tr)
    (hb : BrokerSigned D tr b k.shown.credential members k.shown.notBefore k.shown.notAfter)
    (hroot : (D.app k.service).policy.trustedBrokerPublicHex =
      hex (D.broker b).issuerPrivateKey.publicRaw)
    (hpresents : k.request.credential.Perm members)
    (hm : D.Matching tr t k.service k.request k.shown.credential k.shown.notBefore
      k.shown.notAfter k.shown.proof challenge)
    (hp : k.Presentable D.lib (D.app k.service)) (hh : Holds tr t k)
    (hexpiry : k.row.expiresAt = challenge.expiresAt) :
    Prog.Relies (fun _ ↦ k.answered D.lib (D.app k.service)
      (∃ a y r, Label.act t (.spend a) y r ∈ tr) (D.SignerWorks tr t k.service))
      (D.history t tr) := by
  intro hpre ev hpost hown
  obtain ⟨pre, x, post, he, _, _⟩ := System.own_eq_append hown
  have hl : Label.act t ev.op x ev.reply ∈ tr := by
    rw [he]
    simp
  have hreply := h.reply_eq he
  rcases ev with ⟨e, r⟩
  cases e with
  | clock =>
    obtain ⟨now, rfl, hlower, hupper, hfresh⟩ := hm.clock x r hl
    refine ⟨⟨now, hreply, hlower, hupper, ?_, ?_⟩, fun hs now' hr ↦ ?_⟩
    · rw [hh.issuedAt]
      exact hlower
    · rw [hexpiry]
      exact hfresh
    · obtain ⟨now'', heq, hpos⟩ := hs.clock _ r hl
      obtain rfl := Except.ok.inj heq
      obtain rfl := Except.ok.inj (hr.symm.trans hreply)
      exact hpos
  | tokenHex n => exact ⟨trivial, x.val, x.property, hreply⟩
  | lib call =>
    refine ⟨?_, trivial⟩
    cases call with
    | credentialFromDict d =>
      rintro rfl
      obtain ⟨t', y, body, hbody, rfl⟩ := hb.spelled
      exact law.parses t' t _ y body _ x r hbody hpresents hl
    | verifyChain chain maxDepth roots atTime =>
      rintro rfl rfl rfl ⟨hlower, hupper, _⟩
      obtain ⟨t', u, y, hsigned⟩ := hb.signed
      rw [hroot] at hl
      exact law.accepts t' t u _ y _ _ _ atTime x r hsigned hb.depth hb.lower hb.upper hlower
        hupper hl
    | holderProofFromDict d =>
      rintro rfl
      exact hm.parsed x r hl
    | verifyHolderProof check =>
      rintro sealedPayload hsealed rfl
      exact hm.proved sealedPayload x r hsealed hl
    | verifyChallenge | credentialSign | credentialBody | manifestNormalize | manifestCanonicalHash
    | verifyManifest | ed25519PublicKey | ed25519Verify | readPcrSelection | evaluationTime
    | loadPemX509Certificates | verifyTpmQuote | appraise => trivial
  | sign signer payload =>
    refine ⟨trivial, ?_⟩
    rintro rfl hsigner
    exact hsigner.sign payload x r hl
  | getResourceChallenge tokenHash =>
    refine ⟨?_, trivial⟩
    rintro rfl
    obtain rfl : x = Faults.none := hm.read _ x r hl
    obtain ⟨row, hfind, hcontext, hexpires, hconsumed⟩ := hh.stored _ _ _ _ _ he
    refine ⟨row, ?_, hcontext, hexpires, fun hc ↦ ?_⟩
    · obtain ⟨hhash, _, _⟩ := hp.bindText
      rw [← hfind]
      refine hreply.trans ?_
      change Store.getResourceChallenge _ _ _ = _
      unfold Store.getResourceChallenge
      rw [hhash]
      rfl
    · obtain ⟨a, y, r', hspend⟩ := hconsumed hc
      exact ⟨a, y, r', by rw [he]; exact List.mem_append_left _ hspend⟩
  | spend a =>
    refine ⟨?_, trivial⟩
    rintro rfl
    exact .inr (hm.spend_reply h hp hh hexpiry he)
  | storeBrokerChallenge | consumeBrokerChallenge | storeResourceChallenge | recordInvocation
  | invocationCount | inventoryLookup => exact ⟨trivial, trivial⟩

/-- A matching redemption spends what it presents. -/
theorem Matching.spendArgs_eq (h : D.system.Run .initial tr s) (law : D.CredentialLaws tr)
    (hb : BrokerSigned D tr b k.shown.credential members k.shown.notBefore k.shown.notAfter)
    (hpresents : k.request.credential.Perm members)
    (hm : D.Matching tr t k.service k.request k.shown.credential k.shown.notBefore
      k.shown.notAfter k.shown.proof challenge)
    (hp : k.Presentable D.lib (D.app k.service)) {a : SpendArgs} {x : Except Exn Int × Faults}
    {r : Except Exn CredentialSpendResult} (he : tr = pre ++ .act t (.spend a) x r :: post) :
    a = k.shown.spendArgs (D.app k.service) k.request := by
  obtain ⟨call, hcall, hg⟩ := h.guarantee_at (A := fun _ _ _ ↦ True) body_sat he
  obtain ⟨i, request, hr, p, rfl, _, hchecked⟩ := guarantee_spend (hg fun _ _ _ _ ↦ trivial)
  have hsub : ∀ l ∈ pre, l ∈ tr := by
    intro l hl
    rw [he]
    exact List.mem_append_left _ hl
  obtain ⟨pre', post', t₁, he', _⟩ := hm.called
  have hstart : Label.start t (.redeem k.service k.request) ∈ tr := by
    rw [he']
    simp
  obtain rfl := h.start_unique hstart (hsub _ hcall)
  cases hr
  -- Each value of the presentation is the one the packages answered for this request.
  have hcredential : p.credential = k.shown.credential := by
    obtain ⟨y, hy⟩ := System.mem_own.mp hchecked.credential.parsed
    obtain ⟨t', z, body, hbody, rfl⟩ := hb.spelled
    exact Except.ok.inj (law.parses t' t _ z body _ y _ hbody hpresents (hsub _ hy))
  have hproof : p.proof = k.shown.proof := by
    obtain ⟨y, hy⟩ := System.mem_own.mp hchecked.challenge.parsed
    exact Except.ok.inj (hm.parsed y _ (hsub _ hy))
  have hdigest : p.argumentsDigest = k.shown.argumentsDigest :=
    Except.ok.inj (hchecked.digest.symm.trans hp.digest)
  have hhash : p.tokenHash = k.shown.tokenHash := by
    have hhashed := hchecked.challenge.hashed
    rw [hproof, hp.hashed] at hhashed
    exact (Except.ok.inj hhashed).symm
  have hlower := hchecked.credential.lower
  have hupper := hchecked.credential.upper
  rw [hcredential, hb.lower, Option.some.injEq] at hlower
  rw [hcredential, hb.upper, Option.some.injEq] at hupper
  rw [Presentation.spendArgs, Presentation.spendArgs, Presentation.context, Presentation.context,
    hcredential, hdigest, hhash, hlower, hupper]

/-- What a matching redemption comes to, by the state in which its own transaction runs: it enters
the handler when the credential is unspent, and finds it spent otherwise. -/
structure Decided (tr : D.Trace) (t i : Nat) (credentialId : Text) (pre : D.Trace) : Prop where
  transaction : ∃ a x r post, tr = pre ++ .act t (.spend a) x r :: post ∧
    a.context.credentialId = credentialId
  first : (D.system.after .initial pre).store.spent credentialId = false → t ∈ D.entries tr
  later : (D.system.after .initial pre).store.spent credentialId = true →
    D.DeniedFor tr t i .CREDENTIAL_SPENT

/-- What is proved of the body of a redemption holds of a finished call. -/
theorem redeem_result (h : D.system.Run .initial tr s)
    (hc : Label.start t (.redeem i request) ∈ tr) {A : History → Event Op Op.Reply → Prop}
    {Q : History → Except Exn Decision → Prop}
    (hsat : Body.Sat A (fun _ _ ↦ True) (fun h' r _ ↦ Q h' r) ((D.app i).redeem D.lib i request)
      [] ()) (hrelies : Prog.Relies A (D.history t tr)) {a : Except Exn Answer}
    (hf : Label.finish t a ∈ tr) : ∃ r, a = r.map Answer.decision ∧ Q (D.history t tr) r := by
  have hprog : (D.system.body (.redeem i request)).Sat A (fun _ _ ↦ True)
      (fun h' a ↦ ∃ r, a = r.map Answer.decision ∧ Q h' r) [] := by
    change (D.body (.redeem i request)).prog.Sat _ _ _ []
    rw [Body.sat_prog]
    apply Body.Sat.map
    apply hsat.mono
    intro h' r _ hq
    exact ⟨r, rfl, hq⟩
  exact h.result (A := fun _ ↦ A) (G := fun _ ↦ _) (Q := fun _ ↦ _) hc hprog hrelies hf

/-- A call that ends as a denial is denied. -/
theorem deniedFor_of_deniedAs (h : D.system.Run .initial tr s) {reason : Reason}
    {r : Except Exn Decision} (hf : Label.finish t (r.map Answer.decision) ∈ tr)
    (hd : DeniedAs reason (D.history t tr) r)
    (hreturned : D.SignerWorks tr t i → ∃ d, r = .ok d) : D.DeniedFor tr t i reason := by
  have hunique : ∀ a, Label.finish t a ∈ tr → a = r.map Answer.decision := by
    intro a ha
    have ha' := lookup_of_mem h.answers_nodup (mem_answers.mpr ha)
    have hf' := lookup_of_mem h.answers_nodup (mem_answers.mpr hf)
    exact Option.some.inj (ha'.symm.trans hf')
  constructor
  · intro ht
    obtain ⟨j, sku, x, reply, hl⟩ := mem_entries.mp ht
    have hnot := hd.unserved _ (System.mem_own.mpr ⟨x, hl⟩ :
      (⟨.inventoryLookup j sku, reply⟩ : Event Op Op.Reply) ∈ D.history t tr)
    cases hnot
  · intro d hfd
    have heq := hunique _ hfd
    cases r with
    | error e => cases heq
    | ok d' =>
      cases heq
      obtain ⟨hallowed, hreason, _⟩ := hd.reason d rfl
      exact ⟨hallowed, hreason⟩
  · intro hs a ha
    obtain ⟨d, rfl⟩ := hreturned hs
    exact ⟨d, hunique a ha⟩

/-- A matching redemption of a credential of the broker is decided by its own transaction. -/
theorem Matching.decided (h : D.system.Run .initial tr s) (law : D.CredentialLaws tr)
    (hb : BrokerSigned D tr b c members notBefore notAfter)
    (hscope : (D.broker b).policy.qualifiedScope = (D.app i).policy.qualifiedScope)
    (hroot : (D.app i).policy.trustedBrokerPublicHex = hex (D.broker b).issuerPrivateKey.publicRaw)
    (hlife : (D.broker b).policy.credentialTtlSeconds ≤
      (D.app i).policy.maxCredentialLifetimeSeconds)
    (hpresents : request.credential.Perm members)
    (hm : D.Matching tr t i request c notBefore notAfter proof challenge) :
    ∃ pre, Decided tr t i c.credentialId pre := by
  obtain ⟨k, rfl, rfl, rfl, rfl, rfl, rfl, hexpiry, hp, hh⟩ := hm.contestant h hb hscope hlife
  obtain ⟨pre₀, post₀, _, he₀, _⟩ := hm.called
  have hstart : Label.start t (.redeem k.service k.request) ∈ tr := by
    rw [he₀]
    simp
  have hrelies := hm.relies h law hb hroot hpresents hp hh hexpiry
  obtain ⟨a, hf⟩ := hm.finished
  obtain ⟨r, rfl, hsettled⟩ := redeem_result h hstart (redeem_settles hp) hrelies hf
  have hsigns : D.SignerWorks tr t k.service → DenialReplies D.lib (D.app k.service)
      (fun _ ↦ k.answered D.lib (D.app k.service) (∃ a y r, Label.act t (.spend a) y r ∈ tr)
        (D.SignerWorks tr t k.service)) := by
    intro hs
    refine ⟨hs.named, hs.policyDigest, fun _ n r hr ↦ hr.2, ?_, fun _ payload r hr ↦ hr.2 rfl hs⟩
    rintro _ r ⟨⟨now, rfl, _⟩, hpos⟩
    exact ⟨now, rfl, hpos hs now rfl⟩
  -- How the own transaction went is what the state before it says.
  have hstate : ∀ a res, (⟨.spend a, .ok res⟩ : Event Op Op.Reply) ∈ D.history t tr →
      ∃ pre x post, tr = pre ++ .act t (.spend a) x (.ok res) :: post ∧
        a.context.credentialId = k.shown.credential.credentialId ∧
        (D.system.after .initial pre).store.spent k.shown.credential.credentialId =
          !res.firstSpend := by
    intro a res hmem
    obtain ⟨x, hx⟩ := System.mem_own.mp hmem
    obtain ⟨pre, post, he⟩ := List.append_of_mem hx
    obtain rfl := hm.spendArgs_eq h law hb hpresents hp he
    obtain ⟨_, _, _, _, _, hres⟩ := spend_committed h he
    refine ⟨pre, x, post, he, rfl, ?_⟩
    rw [hres, Bool.not_not]
    rfl
  cases hsettled with
  | @served a res hmem hfirst henters =>
    obtain ⟨pre, x, post, he, hid, hspent⟩ := hstate a res hmem
    refine ⟨pre, ⟨a, x, _, post, he, hid⟩, fun _ ↦ ?_, fun htrue ↦ ?_⟩
    · obtain ⟨⟨e, reply⟩, hev, he⟩ := henters
      cases e with
      | inventoryLookup j sku =>
        obtain ⟨y, hy⟩ := System.mem_own.mp hev
        exact mem_entries.mpr ⟨j, sku, y, reply, hy⟩
      | clock | tokenHex | lib | sign | storeBrokerChallenge | consumeBrokerChallenge
      | storeResourceChallenge | getResourceChallenge | spend | recordInvocation
      | invocationCount => cases he
    · rw [hspent, hfirst] at htrue
      cases htrue
  | @spent a res hmem hfirst hdenied hreturned =>
    obtain ⟨pre, x, post, he, hid, hspent⟩ := hstate a res hmem
    refine ⟨pre, ⟨a, x, _, post, he, hid⟩, fun hfalse ↦ ?_, fun _ ↦ ?_⟩
    · rw [hspent, hfirst] at hfalse
      cases hfalse
    · exact deniedFor_of_deniedAs h hf hdenied fun hs ↦ hreturned (hsigns hs)
  | consumed hnone hlost =>
    -- An own spend commits, so the history would hold it.
    exfalso
    obtain ⟨a, x, r', hl⟩ := hlost
    obtain ⟨pre, post, he⟩ := List.append_of_mem hl
    obtain rfl := hm.spendArgs_eq h law hb hpresents hp he
    obtain ⟨res, rfl, _⟩ := hm.spend_reply h hp hh hexpiry he
    have hsome : (spendOf (D.history t tr)).isSome = true := by
      rw [spendOf, List.findSome?_isSome_iff]
      exact ⟨⟨.spend _, .ok res⟩, System.mem_own.mpr ⟨x, hl⟩, rfl⟩
    rw [hnone] at hsome
    cases hsome

/-- A credential that lives longer than the resource policy allows is denied as invalid, whatever
it is presented with. -/
theorem overlong_denied (canonical : Rfc8785 D.lib) (h : D.system.Run .initial tr s)
    (law : D.CredentialLaws tr) (hb : BrokerSigned D tr b c members notBefore notAfter)
    (hlong : (D.app i).policy.maxCredentialLifetimeSeconds <
      (D.broker b).policy.credentialTtlSeconds)
    (hc : Label.start t (.redeem i request) ∈ tr) (hpresents : request.credential.Perm members) :
    D.DeniedFor tr t i .CREDENTIAL_INVALID := by
  obtain ⟨t', y, body, hbody, rfl⟩ := hb.spelled
  have hparses : ∀ x r,
      Label.act t (.lib (.credentialFromDict (.dict request.credential))) x r ∈ tr → r = .ok c :=
    fun x r hl ↦ law.parses t' t c y body _ x r hbody hpresents hl
  have hunserved : t ∉ D.entries tr := by
    intro ht
    obtain ⟨call, j, request', p, hcall, hr, hentered⟩ := entered_of_mem h ht
    obtain rfl := h.start_unique hc hcall
    cases hr
    obtain ⟨h₀, n, q, hadmitted, hown⟩ := hentered.admitted
    have hpresented := hadmitted.checked.credential
    obtain ⟨x, hx⟩ := System.mem_own.mp (show _ ∈ D.history t tr by
      rw [hown]
      exact List.mem_append_left _ hpresented.parsed)
    have hcredential : p.credential = c := Except.ok.inj (hparses x _ hx)
    have hlower := hpresented.lower
    have hupper := hpresented.upper
    rw [hcredential, hb.lower, Option.some.injEq] at hlower
    rw [hcredential, hb.upper, Option.some.injEq] at hupper
    have hlifetime := hpresented.lifetime
    rw [← hlower, ← hupper, hb.lifetime] at hlifetime
    omega
  -- What the call is answered: the replies of its steps in the run.
  let A : History → Event Op Op.Reply → Prop := fun _ ev ↦
    ∃ x w, Label.act t ev.op x ev.reply ∈ tr ∧ ev.reply = (D.exec ev.op x w).1
  have hrelies : Prog.Relies A (D.history t tr) := by
    intro hpre ev hpost hown
    obtain ⟨pre, x, post, he, _, _⟩ := System.own_eq_append hown
    exact ⟨x, _, by rw [he]; simp, h.reply_eq he⟩
  have hsigns : D.SignerWorks tr t i → DenialReplies D.lib (D.app i) A := by
    intro hs
    refine ⟨hs.named, hs.policyDigest, ?_, ?_, ?_⟩
    · rintro _ n r ⟨x, w, _, hr⟩
      exact ⟨x.val, x.property, hr⟩
    · rintro _ r ⟨x, w, hl, hr⟩
      obtain ⟨now, rfl, hnow⟩ := hs.clock x r hl
      exact ⟨now, hr, hnow⟩
    · rintro _ payload r ⟨x, w, hl, _⟩
      exact hs.sign payload x r hl
  have hbounds : validityBounds c = .ok (notBefore, notAfter) := by
    simp only [validityBounds, hb.lower, hb.upper]
  obtain ⟨digest, hdigest⟩ := exists_argumentsDigest canonical request.toInventoryArguments
  have hsat := redeem_overlong (A := A) (i := i) hdigest (fun _ r ⟨x, _, hl, _⟩ ↦ hparses x r hl)
    hb.identifier hbounds (by rw [hb.lifetime]; exact hlong)
  refine ⟨hunserved, ?_, ?_⟩
  · intro d hf
    obtain ⟨r, hr, hdenied, hreturned⟩ := redeem_result h hc hsat hrelies hf
    rw [hr] at hf
    exact (deniedFor_of_deniedAs h hf hdenied fun hs ↦ hreturned (hsigns hs)).reason d (hr ▸ hf)
  · intro hs a hf
    obtain ⟨r, rfl, hdenied, hreturned⟩ := redeem_result h hc hsat hrelies hf
    exact (deniedFor_of_deniedAs h hf hdenied fun hs ↦ hreturned (hsigns hs)).returned hs _ hf

end Redemption

/-- Issue-to-redeem composition, in every run from an empty database. Where the broker grants no
longer lifetime than the resource policy allows, the redemptions of a returned credential with a
challenge of their own, a matching proof and the right time are decided by the order of their
transactions: the first enters the handler, every later one finds the credential spent. Where it
grants a longer one, every redemption of the credential is denied as invalid. -/
theorem issue_to_redeem (canonical : Rfc8785 D.lib) (h : D.system.Run .initial tr s)
    (law : D.CredentialLaws tr) {b : Nat} {a : Submission} {d : Decision}
    (ha : AllowedIssue tr t b a d)
    (hscope : (D.broker b).policy.qualifiedScope = (D.app i).policy.qualifiedScope)
    (hroot : (D.app i).policy.trustedBrokerPublicHex =
      hex (D.broker b).issuerPrivateKey.publicRaw) :
    ∃ c members notBefore notAfter,
      d.result = some (.dict [(text "credential", .dict members)]) ∧
      BrokerSigned D tr b c members notBefore notAfter ∧
      -- The credential is unspent before any transaction for it, and spent after one that commits.
      (∀ pre, (∀ t a x r, Label.act t (.spend a) x r ∈ pre →
        a.context.credentialId ≠ c.credentialId) →
          (D.system.after .initial pre).store.spent c.credentialId = false) ∧
      (∀ pre post, tr = pre ++ post → ∀ t a x res, Label.act t (.spend a) x (.ok res) ∈ pre →
        a.context.credentialId = c.credentialId →
          (D.system.after .initial pre).store.spent c.credentialId = true) ∧
      ((D.broker b).policy.credentialTtlSeconds ≤ (D.app i).policy.maxCredentialLifetimeSeconds →
        ∀ t request proof challenge, request.credential.Perm members →
          D.Matching tr t i request c notBefore notAfter proof challenge →
          ∃ pre, Decided tr t i c.credentialId pre) ∧
      ((D.app i).policy.maxCredentialLifetimeSeconds < (D.broker b).policy.credentialTtlSeconds →
        ∀ t request, Label.start t (.redeem i request) ∈ tr → request.credential.Perm members →
          D.DeniedFor tr t i .CREDENTIAL_INVALID) := by
  obtain ⟨c, members, notBefore, notAfter, hresult, hb⟩ := ha.brokerSigned h law
  refine ⟨c, members, notBefore, notAfter, hresult, hb, ?_, ?_, ?_, ?_⟩
  · intro pre hnone
    rw [← Bool.not_eq_true]
    intro hspent
    obtain ⟨t', a', x, r, hl, hid⟩ := (spend_of_consumed pre).2 _ hspent
    exact hnone t' a' x r hl hid
  · intro pre post he t' a' x res hl hid
    obtain ⟨pre', mid, rfl⟩ := List.append_of_mem hl
    obtain ⟨s₁, hpre⟩ := h.left he
    rw [← hid]
    exact spent_after_spend hpre rfl
  · intro hlife t' request proof challenge hpresents hm
    exact hm.decided h law hb hscope hroot hlife hpresents
  · intro hlong t' request hc hpresents
    exact overlong_denied canonical h law hb hlong hc hpresents

end Deployment

/-! ### An issued credential, redeemed twice -/

namespace Demo

/-- The credential that the broker issues at 1001. -/
def minted : Credential :=
  ⟨hex (List.replicate 32 2), text "01", hex (List.replicate 32 8), {text "s"}, 0, none, some 1001,
    some 1061, hex (List.replicate 32 2)⟩

/-- What `credential_to_dict` spells of it. -/
def mintedMembers : List (Text × Value) :=
  Value.setMember (StandIn.credentialMembers minted) (text "signature") (.str minted.signature)

/-- The proof for the challenge issued at a time with a seed. -/
def mintedProof (now : Int) (seed : UInt8) : HolderProof :=
  ⟨token now seed, .dict [(text "challenge", .str (token now seed)),
    (text "record_id", .str recordId.val)]⟩

/-- The challenge issued for it at a time with a seed. -/
def mintedChallenge (now : Int) (seed : UInt8) : ResourceChallenge :=
  ⟨token now seed, minted.credentialId, text "inventory.lookup",
    sha256Hex (utf8 (text "\x7b\"sku\":\"w\"\x7d")), recordId.val, text "a", now + 60⟩

/-- Its redemption with that challenge. -/
def mintedInput (now : Int) (seed : UInt8) : LookupInput :=
  { lookupInput now seed with credential := mintedMembers }

/-- The scenario of a thread: one second and one seed for each. -/
def turn (t : Nat) : Scenario := scenario (1000 + t) (UInt8.ofNat (t + 1))

/-- An issuance, and a challenge for the credential. -/
def issueThenChallenge : List deployment.system.Move :=
  deployment.alone 0 (.newChallenge 0) (turn 0) 4 ++
    (deployment.alone 1 (.issue 0 (issuanceRequest (brokerToken 1000 1)) manifest evidence)
        (turn 1) 21 ++
      deployment.alone 2 (.issueResourceChallenge 0 minted.credentialId arguments recordId.val)
        (turn 2) 4)

/-- A redemption with that challenge, and another challenge. -/
def redeemThenChallenge : List deployment.system.Move :=
  deployment.alone 3 (.redeem 0 (mintedInput 1002 3)) (turn 3) 15 ++
    deployment.alone 4 (.issueResourceChallenge 0 minted.credentialId arguments recordId.val)
      (turn 4) 4

/-- An issuance, then two challenges for the credential, and a redemption with each. -/
def issueThenRedeem : List deployment.system.Move :=
  (issueThenChallenge ++ redeemThenChallenge) ++
    deployment.alone 5 (.redeem 0 (mintedInput 1004 5)) (turn 5) 12

/-- The challenges that a run returned, with the thread of their call. -/
def returnedChallenges (tr : deployment.Trace) : List (Nat × ResourceChallenge) :=
  (deployment.system.answers tr).filterMap fun p ↦ match p.2 with
    | .ok (.challenge challenge) => some (p.1, challenge)
    | _ => none

/-- The credentials that a run spelled. -/
def spelled (tr : deployment.Trace) : List Credential :=
  tr.filterMap fun l ↦ match l with
    | .act _ (.lib (.credentialBody c)) _ _ => some c
    | _ => none

/-- The credentials that a run signed, with the public key. -/
def signings (tr : deployment.Trace) : List (Credential × Bytes) :=
  tr.filterMap fun l ↦ match l with
    | .act _ (.lib (.credentialSign u key)) _ _ => some (u, key.publicRaw)
    | _ => none

/-- The spends of a run, with their thread. -/
def spends (tr : deployment.Trace) : List (Nat × Text) :=
  tr.filterMap fun l ↦ match l with
    | .act t (.spend a) _ _ => some (t, a.tokenHash)
    | _ => none

set_option maxRecDepth 100000 in
/-- The credential is issued; the first redemption enters the handler, the second finds it spent. -/
theorem exists_issueThenRedeem : ∃ tr s, deployment.system.Run .initial tr s ∧
    List.Forall₂ Move.Makes issueThenRedeem tr ∧ deployment.grants tr = [1] ∧
    deployment.entries tr = [3] ∧
    returnedChallenges tr = [(2, mintedChallenge 1002 3), (4, mintedChallenge 1004 5)] ∧
    spelled tr = [minted] ∧ signings tr = [({ minted with signature := [] }, [1])] ∧
    spends tr = [(3, sha256Hex (utf8 (token 1002 3))), (5, sha256Hex (utf8 (token 1004 5)))] :=
  Deployment.exists_made_of_play issueThenRedeem (by decide +kernel)

section Facts

variable {tr : deployment.Trace} {s : Config Op Op.Reply World Call (Except Exn Answer)}

/-- The moves of a call that runs alone. -/
theorem mem_alone {t n : Nat} {c : Call} {x : Scenario} {m : deployment.system.Move}
    (h : m ∈ deployment.alone t c x n) : m = .start t c ∨ m = .act t x.input ∨ m = .finish t := by
  rw [Deployment.alone, List.mem_cons, List.mem_append, List.mem_replicate, List.mem_singleton] at h
  rcases h with rfl | ⟨_, rfl⟩ | rfl
  · exact .inl rfl
  · exact .inr (.inl rfl)
  · exact .inr (.inr rfl)

/-- Every operation of the schedule is executed in the scenario of its thread. -/
theorem input_of_mem (hmade : List.Forall₂ Move.Makes issueThenRedeem tr) {t : Nat} {e : Op}
    {x : e.Input} {r : e.Reply} (hl : Label.act t e x r ∈ tr) : x = (turn t).input e := by
  obtain ⟨m, hm, hmakes⟩ := exists_move_of_mem hmade hl
  have hcases : ∃ t' c n, m ∈ deployment.alone t' c (turn t') n := by
    simp only [issueThenRedeem, issueThenChallenge, redeemThenChallenge, List.mem_append] at hm
    rcases hm with ((hm | hm | hm) | hm | hm) | hm
    all_goals exact ⟨_, _, _, hm⟩
  obtain ⟨t', c, n, hm⟩ := hcases
  rcases mem_alone hm with rfl | rfl | rfl
  · cases hmakes
  · obtain ⟨e', r', heq⟩ := hmakes
    cases heq
    rfl
  · obtain ⟨a, heq⟩ := hmakes
    cases heq

/-- Every package call of the schedule is answered by the stand-in. -/
theorem reply_of_mem (hrun : deployment.system.Run .initial tr s)
    (hmade : List.Forall₂ Move.Makes issueThenRedeem tr) {t : Nat} {c : LibCall}
    {x : Except Exn c.Result} {r : Except Exn c.Result} (hl : Label.act t (.lib c) x r ∈ tr) :
    r = StandIn.honest (text "s") [3] c := by
  obtain ⟨pre, post, he⟩ := List.append_of_mem hl
  have hreply : r = x := hrun.reply_eq he
  rw [hreply]
  exact input_of_mem hmade hl

/-- Members in another order spell the same credential. -/
theorem credentialOf_perm {members : List (Text × Value)} (h : members.Perm mintedMembers) :
    StandIn.credentialOf (text "s") (.dict members) = some minted := by
  have hkeys : (members.map Prod.fst).Nodup := by
    rw [(h.map Prod.fst).nodup_iff]
    decide
  have hlookup : ∀ key v, mintedMembers.lookup key = some v → members.lookup key = some v :=
    fun key v hv ↦ lookup_of_mem hkeys (h.mem_iff.mpr (mem_of_lookup hv))
  have hid := hlookup (text "credential_id") (.str minted.credentialId) rfl
  have hissuer := hlookup (text "issuer") (.str minted.issuer) rfl
  have hsubject := hlookup (text "subject") (.str minted.subject) rfl
  have hlower := hlookup (text "not_before") (.int 1001) rfl
  have hupper := hlookup (text "not_after") (.int 1061) rfl
  have hsignature := hlookup (text "signature") (.str minted.signature) rfl
  simp only [StandIn.credentialOf, StandIn.textMember, StandIn.intMember, Value.get?, hid, hissuer,
    hsubject, hlower, hupper, hsignature]
  rfl

/-- The stand-in follows the laws of cA2A along the schedule. -/
theorem credentialLaws_issueThenRedeem (hrun : deployment.system.Run .initial tr s)
    (hmade : List.Forall₂ Move.Makes issueThenRedeem tr) (hspelled : spelled tr = [minted])
    (hsignings : signings tr = [({ minted with signature := [] }, [1])]) :
    deployment.CredentialLaws tr := by
  constructor
  · intro t u key x c hl
    have hreply := reply_of_mem hrun hmade hl
    cases hreply
    rfl
  · intro t t' c x body members y r hbody hperm hl
    have hc : c ∈ spelled tr := List.mem_filterMap.mpr ⟨_, hbody, rfl⟩
    rw [hspelled, List.mem_singleton] at hc
    subst hc
    have hbody' := reply_of_mem hrun hmade hbody
    cases hbody'
    rw [reply_of_mem hrun hmade hl]
    change orRaise (StandIn.credentialOf (text "s") (.dict members)) Exn.invalidCredential = _
    rw [credentialOf_perm hperm]
    rfl
  · intro t t' u key x c notBefore notAfter atTime y r hsign _ hlower hupper hle hle' hl
    have hu : (u, key.publicRaw) ∈ signings tr := List.mem_filterMap.mpr ⟨_, hsign, rfl⟩
    rw [hsignings, List.mem_singleton, Prod.mk.injEq] at hu
    obtain ⟨rfl, hkey⟩ := hu
    obtain rfl : c = minted := Except.ok.inj (reply_of_mem hrun hmade hsign)
    cases hlower
    cases hupper
    have hchain : StandIn.verifyChain [minted] {hex [1]} atTime = .ok () := by
      have hlower : ¬atTime < 1001 := by omega
      have hupper : ¬1061 < atTime := by omega
      simp only [StandIn.verifyChain, bind_eq_ok, raiseIf_eq_ok]
      exact ⟨(), by decide, by simp [minted, hlower, hupper]⟩
    rw [reply_of_mem hrun hmade hl, hkey]
    exact hchain

/-- A redemption of the schedule matches the challenge that it presents. -/
theorem matching_minted (hrun : deployment.system.Run .initial tr s)
    (hmade : List.Forall₂ Move.Makes issueThenRedeem tr) {t t₁ : Nat} {now : Int} {seed : UInt8}
    {moves moves' : List deployment.system.Move}
    (hmoves : issueThenRedeem = moves ++ .start t (.redeem 0 (mintedInput now seed)) :: moves')
    (hstart :
      .start t₁ (.issueResourceChallenge 0 minted.credentialId arguments recordId.val) ∈ moves)
    (hfinish : .finish t₁ ∈ moves) (hend : .finish t ∈ moves')
    (hreturned : (t₁, mintedChallenge now seed) ∈ returnedChallenges tr)
    (htime : (1001 : Int) ≤ 1000 + t ∧ (1000 : Int) + t ≤ 1061 ∧ (1000 : Int) + t < now + 60)
    (hspends : ∀ p ∈ spends tr, p.2 = sha256Hex (utf8 (token now seed)) → p.1 = t) :
    deployment.Matching tr t 0 (mintedInput now seed) minted 1001 1061 (mintedProof now seed)
      (mintedChallenge now seed) := by
  have htoken : challengeTokenHash (token now seed) = .ok (sha256Hex (utf8 (token now seed))) :=
    challengeTokenHash_of_encodable (encodable_challengeToken _ _ (encodable_hex _))
  constructor
  · obtain ⟨pre, l, post, he, hpre, hl⟩ := split_of_made (hmoves ▸ hmade)
    cases hl
    obtain ⟨l₁, hl₁, hmakes₁⟩ := exists_label_of_mem hpre hstart
    cases hmakes₁
    obtain ⟨l₂, hl₂, a, rfl⟩ := exists_label_of_mem hpre hfinish
    refine ⟨pre, post, t₁, he, hl₁, ?_⟩
    -- The answer of the call is the challenge that it returned.
    obtain ⟨⟨t', a'⟩, ha', hsome⟩ := List.mem_filterMap.mp hreturned
    have hmem : (t₁, a) ∈ deployment.system.answers tr := by
      rw [mem_answers, he]
      exact List.mem_append_left _ hl₂
    match a', hsome with
    | .ok (.challenge challenge), hsome =>
      cases hsome
      have hsame := (lookup_of_mem hrun.answers_nodup ha').symm.trans
        (lookup_of_mem hrun.answers_nodup hmem)
      cases hsame
      exact hl₂
  · have hend' : .finish t ∈ issueThenRedeem := by
      rw [hmoves]
      exact List.mem_append_right _ (List.mem_cons_of_mem _ hend)
    obtain ⟨l, hl, a, rfl⟩ := exists_label_of_mem hmade hend'
    exact ⟨a, hl⟩
  · intro x r hl
    rw [reply_of_mem hrun hmade hl]
    rfl
  · rfl
  · intro sealedPayload x r _ hl
    rw [reply_of_mem hrun hmade hl]
    rfl
  · intro t' a x r hl hhash
    apply hspends (t', a.tokenHash) (List.mem_filterMap.mpr ⟨_, hl, rfl⟩)
    exact (Except.ok.inj (htoken.symm.trans hhash)).symm
  · intro x r hl
    refine ⟨1000 + t, input_of_mem hmade hl, htime.1, htime.2.1, htime.2.2⟩
  · intro tokenHash x r hl
    exact input_of_mem hmade hl
  · intro a x r hl
    have hx := input_of_mem hmade hl
    subst hx
    exact ⟨rfl, 1000 + t, rfl, by omega, htime.1, htime.2.1, htime.2.2⟩

end Facts

end Demo

set_option maxRecDepth 100000 in
/-- The composition at an issued credential that is redeemed twice: both redemptions match, the
first enters the handler. -/
theorem Deployment.issue_to_redeem_twice : ∃ tr s, Demo.deployment.system.Run .initial tr s ∧
    Demo.deployment.entries tr = [3] ∧
    (∃ pre, Decided tr 3 0 Demo.minted.credentialId pre) ∧
    ∃ pre, Decided tr 5 0 Demo.minted.credentialId pre := by
  obtain ⟨tr, s, hrun, hmade, hgrants, hentries, hreturned, hspelled, hsignings, hspends⟩ :=
    Demo.exists_issueThenRedeem
  have law := Demo.credentialLaws_issueThenRedeem hrun hmade hspelled hsignings
  obtain ⟨b, a, d, ha⟩ := allowedIssue_of_grant hrun
    (show 1 ∈ Demo.deployment.grants tr by rw [hgrants]; exact List.mem_singleton_self 1)
  have hroot : Demo.app.policy.trustedBrokerPublicHex =
    hex Demo.broker.issuerPrivateKey.publicRaw :=
    by decide
  have hlife : Demo.broker.policy.credentialTtlSeconds ≤
      Demo.app.policy.maxCredentialLifetimeSeconds := by decide
  obtain ⟨c, members, notBefore, notAfter, _, hb, _, _, hredeem, _⟩ :=
    issue_to_redeem rfc8785_standIn hrun law ha (i := 0) rfl hroot
  obtain ⟨t, x, body, hbody, rfl⟩ := hb.spelled
  have hc : c ∈ Demo.spelled tr := List.mem_filterMap.mpr ⟨_, hbody, rfl⟩
  rw [hspelled, List.mem_singleton] at hc
  subst hc
  have hmembers := Demo.reply_of_mem hrun hmade hbody
  cases hmembers
  cases hb.lower
  cases hb.upper
  have hfinish : ∀ t c x n, .finish t ∈ Demo.deployment.alone t c x n := by
    intro t c x n
    simp [alone]
  have hfirst : Demo.issueThenRedeem = Demo.issueThenChallenge ++
      .start 3 (.redeem 0 (Demo.mintedInput 1002 3)) :: ((List.replicate 15 (.act 3
        (Demo.turn 3).input) ++ [.finish 3]) ++ (Demo.deployment.alone 4 (.issueResourceChallenge 0
          Demo.minted.credentialId Demo.arguments Demo.recordId.val) (Demo.turn 4) 4 ++
        Demo.deployment.alone 5 (.redeem 0 (Demo.mintedInput 1004 5)) (Demo.turn 5) 12)) := by
    rw [Demo.issueThenRedeem, List.append_assoc]
    rfl
  refine ⟨tr, s, hrun, hentries, ?_, ?_⟩
  · apply hredeem hlife 3 (Demo.mintedInput 1002 3) (Demo.mintedProof 1002 3) _ (List.Perm.refl _)
    apply Demo.matching_minted hrun hmade hfirst
    · exact List.mem_append_right _ (List.mem_append_right _ List.mem_cons_self)
    · exact List.mem_append_right _ (List.mem_append_right _ (hfinish 2 _ _ _))
    · simp
    · rw [hreturned]
      exact List.mem_cons_self
    · decide
    · rw [hspends]
      decide
  · apply hredeem hlife 5 (Demo.mintedInput 1004 5) (Demo.mintedProof 1004 5) _ (List.Perm.refl _)
    apply Demo.matching_minted hrun hmade (t := 5) rfl
    · exact List.mem_append_right _ (List.mem_append_right _ List.mem_cons_self)
    · exact List.mem_append_right _ (List.mem_append_right _ (hfinish 4 _ _ _))
    · simp
    · rw [hreturned]
      exact List.mem_cons_of_mem _ List.mem_cons_self
    · decide
    · rw [hspends]
      decide

end Atcap
