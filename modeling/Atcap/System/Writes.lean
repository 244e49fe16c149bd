import Atcap.Storage.Writes
import Atcap.System.Effect
import Atcap.System.Outcome
import Atcap.System.Redemptions

/-!
# What a redemption writes

The writes of a redemption by its outcome, among any other calls: which rows it changed when it is
denied, for every reason, and when it entered the handler. The environment may fail every clock
reading, package and statement with any exception but a `DecisionError`.
-/

namespace Atcap

open Base System InventoryApplication

/-- The operations that may change the database. -/
def Op.writesStore : Op → Bool
  | .storeBrokerChallenge .. | .consumeBrokerChallenge _ | .storeResourceChallenge ..
  | .spend _ => true
  | _ => false

/-- What the environment decides for an operation holds no `DecisionError`. -/
def PlainInput : (e : Op) → e.Input → Prop
  | .clock, reading => Plain reading
  | .lib _, answer => Plain answer
  | .getResourceChallenge _, f => f.Plain
  | .spend _, x => Plain x.1 ∧ x.2.Plain
  | _, _ => True

namespace Deployment

variable {D : Deployment} {w : World} {tr pre post : D.Trace} {t i : Nat} {c : Call}
  {request : LookupInput} {s : Config Op Op.Reply World Call (Except Exn Answer)}

/-! ### Writes of a call -/

section

variable (w tr t)

/-- No step of a call changed the database. -/
def Unwritten : Prop :=
  ∀ pre e x r post, tr = pre ++ .act t e x r :: post →
    (D.exec e x (D.system.after w pre)).2.store = (D.system.after w pre).store

/-- One step of a call made a change of the database, and no other step did. -/
def WritesOnce (change : Store → Store → Prop) : Prop :=
  ∃ pre e x r post, tr = pre ++ .act t e x r :: post ∧
    change (D.system.after w pre).store (D.exec e x (D.system.after w pre)).2.store ∧
    ∀ pre' e' x' r' post', tr = pre' ++ .act t e' x' r' :: post' → pre' ≠ pre →
      (D.exec e' x' (D.system.after w pre')).2.store = (D.system.after w pre').store

/-- No step of a call changed an invocation counter. -/
def Uncounted : Prop :=
  ∀ pre e x r post, tr = pre ++ .act t e x r :: post →
    (D.exec e x (D.system.after w pre)).2.counter = (D.system.after w pre).counter

variable (i request)

/-- A call consumed the challenge of its own holder proof, and wrote nothing else. -/
def ConsumedOwn : Prop :=
  ∃ (p : Presentation) (now : Int), p.Checked D.lib (D.app i) request (D.history t tr) ∧
    WritesOnce w tr t (ConsumesOnly (p.spendArgs (D.app i) request) now)

/-- A call consumed the challenge of its own holder proof together with a new redemption row, and
wrote nothing else. -/
def RedeemedOwn : Prop :=
  ∃ (p : Presentation) (now : Int), p.Checked D.lib (D.app i) request (D.history t tr) ∧
    WritesOnce w tr t (ConsumesAndRedeems (p.spendArgs (D.app i) request) now)

/-- Time ran out for a call after its commit. -/
def RanOut : Prop :=
  ∃ (p : Presentation) (h₀ q : History) (res : CredentialSpendResult) (now : Int),
    D.history t tr = h₀ ++ ⟨.spend (p.spendArgs (D.app i) request), .ok res⟩ ::
      ⟨.clock, .ok now⟩ :: q ∧
    (res.challengeExpiresAt ≤ now ∨ now < p.notBefore ∨ p.notAfter < now)

/-- What a denied redemption has written, by the reason of the denial. -/
def DeniedWrites : Reason → Prop
  | .CREDENTIAL_INVALID | .SCOPE_DENIED | .HOLDER_PROOF_INVALID | .CHALLENGE_INVALID
  | .CHALLENGE_CONSUMED => Unwritten w tr t
  | .CREDENTIAL_SPENT => ConsumedOwn w tr t i request
  | .CHALLENGE_STALE | .CREDENTIAL_EXPIRED =>
    Unwritten w tr t ∨ RedeemedOwn w tr t i request ∧ RanOut tr t i request
  | .INTERNAL_ERROR =>
    Unwritten w tr t ∨ ConsumedOwn w tr t i request ∨ RedeemedOwn w tr t i request
  | _ => False

end

/-! ### Calls that write once -/

/-- A call writes only after a history of queries. -/
def WritesQuietly (tr : D.Trace) (t : Nat) : Prop :=
  ∀ pre e x r post, tr = pre ++ .act t e x r :: post → e.writesStore = true →
    Quiet (D.history t pre)

/-- Every other operation leaves the database. -/
theorem store_of_not_writes {e : Op} (he : e.writesStore = false) (x : e.Input) (w : World) :
    (D.exec e x w).2.store = w.store := by
  cases e with
  | clock | tokenHex | lib | sign | getResourceChallenge | invocationCount | inventoryLookup
  | recordInvocation => rfl
  | storeBrokerChallenge | consumeBrokerChallenge | storeResourceChallenge | spend => cases he

/-- No query and no signature writes. -/
theorem not_writes_of_served {e : Op} (he : (e.isQuery || e.isSign) = true) :
    e.writesStore = false := by
  cases e with
  | clock | tokenHex | lib | sign | getResourceChallenge | invocationCount => rfl
  | storeBrokerChallenge | consumeBrokerChallenge | storeResourceChallenge | spend
  | recordInvocation | inventoryLookup => cases he

/-- No query writes. -/
theorem not_writes_of_quiet {h : History} (hq : Quiet h) {ev : Event Op Op.Reply} (hev : ev ∈ h) :
    ev.op.writesStore = false := by
  apply not_writes_of_served
  rw [hq ev hev]
  rfl

/-- A call that has issued no writing operation has written nothing. -/
theorem unwritten_of_none (hn : ∀ ev ∈ D.history t tr, ev.op.writesStore = false) :
    Unwritten w tr t := by
  intro pre e x r post he
  apply store_of_not_writes
  apply hn ⟨e, r⟩
  rw [history, System.own_split he]
  simp

/-- Every step but the one that writes leaves the database. -/
theorem store_kept (hw : WritesQuietly tr t) {e : Op} {x : e.Input} {r : e.Reply}
    (he : tr = pre ++ .act t e x r :: post) (hwrites : e.writesStore = true)
    {pre' post' : D.Trace} {e' : Op} {x' : e'.Input} {r' : e'.Reply}
    (he' : tr = pre' ++ .act t e' x' r' :: post') (hne : pre' ≠ pre) :
    (D.exec e' x' (D.system.after w pre')).2.store = (D.system.after w pre').store := by
  cases hwrites' : e'.writesStore with
  | false => exact store_of_not_writes hwrites' x' _
  | true =>
    exfalso
    rcases System.split_cases (he.symm.trans he') with ⟨heq, _⟩ | ⟨mid, hmid⟩ | ⟨mid, hmid⟩
    · exact hne heq.symm
    · have hmem : (⟨e, r⟩ : Event Op Op.Reply) ∈ D.history t pre' :=
        System.mem_own.mpr ⟨x, by rw [hmid]; simp⟩
      have hquiet := not_writes_of_quiet (hw _ _ _ _ _ he' hwrites') hmem
      rw [hwrites] at hquiet
      cases hquiet
    · have hmem : (⟨e', r'⟩ : Event Op Op.Reply) ∈ D.history t pre :=
        System.mem_own.mpr ⟨x', by rw [hmid]; simp⟩
      have hquiet := not_writes_of_quiet (hw _ _ _ _ _ he hwrites) hmem
      rw [hwrites'] at hquiet
      cases hquiet

/-- The step that writes is the only write. -/
theorem writesOnce_of_write (hw : WritesQuietly tr t) {e : Op} {x : e.Input} {r : e.Reply}
    (he : tr = pre ++ .act t e x r :: post) (hwrites : e.writesStore = true)
    {change : Store → Store → Prop} (hchange : change (D.system.after w pre).store
      (D.exec e x (D.system.after w pre)).2.store) : WritesOnce w tr t change :=
  ⟨pre, e, x, r, post, he, hchange, fun _ _ _ _ _ he' hne ↦ store_kept hw he hwrites he' hne⟩

/-- A write that changed nothing leaves its call without one. -/
theorem unwritten_of_same (hw : WritesQuietly tr t) {e : Op} {x : e.Input} {r : e.Reply}
    (he : tr = pre ++ .act t e x r :: post) (hwrites : e.writesStore = true)
    (hsame : (D.exec e x (D.system.after w pre)).2.store = (D.system.after w pre).store) :
    Unwritten w tr t := by
  intro pre' e' x' r' post' he'
  by_cases hne : pre' = pre
  · subst hne
    have hlabel := (List.cons.inj (List.append_cancel_left (he.symm.trans he'))).1
    cases hlabel
    exact hsame
  · exact store_kept hw he hwrites he' hne

/-! ### Steps of a redemption -/

/-- What a redemption guarantees for a step. -/
theorem redeemGuarantee_at (h : D.system.Run w tr s) (hc : Label.start t c ∈ tr)
    (hr : D.redemption? c = some (i, request)) {e : Op} {x : e.Input} {r : e.Reply}
    (he : tr = pre ++ .act t e x r :: post) :
    redeemGuarantee D.lib (D.app i) i request (D.history t pre) e := by
  have hown : D.history t tr = D.history t pre ++ ⟨e, r⟩ :: D.history t post := System.own_split he
  have hg := h.guarantee_history (A := fun _ _ _ ↦ True) hc (body_sat _) hown fun _ _ _ _ ↦ trivial
  unfold guarantee at hg
  rw [hr] at hg
  exact hg

/-- A redemption writes after queries only. -/
theorem writesQuietly_redeem (h : D.system.Run w tr s) (hc : Label.start t c ∈ tr)
    (hr : D.redemption? c = some (i, request)) : WritesQuietly tr t := by
  intro pre e x r post he hwrites
  have hg := redeemGuarantee_at h hc hr he
  cases e with
  | spend a =>
    obtain ⟨_, _, hquiet, _⟩ := hg
    exact hquiet
  | storeBrokerChallenge | consumeBrokerChallenge | storeResourceChallenge => cases hg.1
  | clock | tokenHex | lib | sign | getResourceChallenge | invocationCount | inventoryLookup
  | recordInvocation => cases hwrites

/-! ### Replies -/

/-- A plain environment makes plain replies. -/
theorem plainReply_of_plainInput {e : Op} {x : e.Input} (hx : PlainInput e x) (h : History) :
    PlainReply h ⟨e, (D.exec e x w).1⟩ := by
  cases e with
  | clock => exact hx
  | lib c => exact hx
  | getResourceChallenge tokenHash => exact plain_getResourceChallenge hx tokenHash w.store
  | tokenHex | sign | storeBrokerChallenge | consumeBrokerChallenge | storeResourceChallenge
  | spend | recordInvocation | invocationCount | inventoryLookup => trivial

/-- The history of a call in a plain environment has plain replies. -/
theorem relies_plainReply (h : D.system.Run w tr s)
    (hplain : ∀ e x r, Label.act t e x r ∈ tr → PlainInput e x) :
    Prog.Relies PlainReply (D.history t tr) := by
  intro pre ev post he
  obtain ⟨pre', x, post', he', _, _⟩ := System.own_eq_append he
  have hreply : ev.reply = (D.exec ev.op x (D.system.after w pre')).1 := h.reply_eq he'
  have hinput := hplain ev.op x ev.reply (by rw [he']; simp)
  have hev : ev = ⟨ev.op, (D.exec ev.op x (D.system.after w pre')).1⟩ := by rw [← hreply]
  rw [hev]
  exact plainReply_of_plainInput hinput pre

/-! ### The spend of a refused call -/

/-- What a spend committed that returned. -/
theorem spend_returned (h : D.system.Run w tr s) (hc : Label.start t c ∈ tr)
    (hr : D.redemption? c = some (i, request)) {p : Presentation} {h₀ q : History}
    {res : CredentialSpendResult}
    (hown : D.history t tr = h₀ ++ ⟨.spend (p.spendArgs (D.app i) request), .ok res⟩ :: q)
    (hp : p.Checked D.lib (D.app i) request h₀) :
    (res.firstSpend = true → RedeemedOwn w tr t i request) ∧
      (res.firstSpend = false → ConsumedOwn w tr t i request) := by
  obtain ⟨pre, x, post, he, _, _⟩ := System.own_eq_append hown
  have hreply : .ok res = (D.exec (.spend (p.spendArgs (D.app i) request)) x
    (D.system.after w pre)).1 := h.reply_eq he
  have hspend : Store.consumeChallengeAndSpendCredential (p.spendArgs (D.app i) request) x.1 x.2
      (D.system.after w pre).store =
        (.ok res, (D.exec (.spend (p.spendArgs (D.app i) request)) x
          (D.system.after w pre)).2.store) := Prod.ext hreply.symm rfl
  obtain ⟨row, now, _, hs, hdb, hres⟩ := spend_ok hspend
  have hchecked : p.Checked D.lib (D.app i) request (D.history t tr) := by
    rw [hown]
    exact hp.mono (List.subset_append_left _ _)
  constructor
  · intro hfirst
    have hunspent : (D.system.after w pre).store.spent
        (p.spendArgs (D.app i) request).context.credentialId = false := by
      rw [hres] at hfirst
      simpa using hfirst
    refine ⟨p, now, hchecked, writesOnce_of_write (writesQuietly_redeem h hc hr) he rfl ?_⟩
    rw [hdb]
    exact hs.consumesAndRedeems hunspent
  · intro hfirst
    have hspent : (D.system.after w pre).store.spent
        (p.spendArgs (D.app i) request).context.credentialId = true := by
      rw [hres] at hfirst
      simpa using hfirst
    refine ⟨p, now, hchecked, writesOnce_of_write (writesQuietly_redeem h hc hr) he rfl ?_⟩
    rw [hdb]
    exact hs.consumesOnly hspent

/-- What a refused redemption has written. -/
theorem deniedWrites_of_refused (h : D.system.Run w tr s) (hc : Label.start t c ∈ tr)
    (hr : D.redemption? c = some (i, request))
    (hplain : ∀ e x r, Label.act t e x r ∈ tr → PlainInput e x) {h₁ : History} {reason : Reason}
    (hrefused : Refused D.lib (D.app i) request h₁ reason)
    (hext : Prog.ExtendedBy (fun e ↦ (e.isQuery || e.isSign) = true) h₁ (D.history t tr)) :
    DeniedWrites w tr t i request reason := by
  obtain ⟨q, hown, hq⟩ := hext
  cases hrefused with
  | early hquiet hreason =>
    have hunwritten : Unwritten w tr t := by
      apply unwritten_of_none
      intro ev hev
      rw [hown, List.mem_append] at hev
      rcases hev with hev | hev
      · exact not_writes_of_quiet hquiet hev
      · exact not_writes_of_served (hq ev hev)
    simp only [earlyReasons, List.mem_cons, List.not_mem_nil, or_false] at hreason
    rcases hreason with rfl | rfl | rfl | rfl | rfl | rfl | rfl | rfl
    · exact hunwritten
    · exact .inl hunwritten
    · exact hunwritten
    · exact hunwritten
    · exact hunwritten
    · exact hunwritten
    · exact .inl hunwritten
    · exact .inl hunwritten
  | @locked p h₀ e hh hp hquiet hreason =>
    rw [hh, List.append_assoc, List.singleton_append] at hown
    obtain ⟨pre, x, post, he, _, _⟩ := System.own_eq_append hown
    have hreply : .error e = (D.exec (.spend (p.spendArgs (D.app i) request)) x
      (D.system.after w pre)).1 := h.reply_eq he
    obtain ⟨hclock, hfaults⟩ : Plain x.1 ∧ x.2.Plain := hplain _ x (.error e) (by rw [he]; simp)
    rcases spend_error hfaults hclock hreply.symm with
      ⟨hsame, hlocked⟩ | ⟨hinternal, row, now, _, hs, hdb⟩
    · -- The transaction was rolled back.
      have hunwritten := unwritten_of_same (writesQuietly_redeem h hc hr) he rfl hsame
      rw [← hreason] at hlocked
      simp only [lockedReasons, List.mem_cons, List.not_mem_nil, or_false] at hlocked
      rcases hlocked with rfl | rfl | rfl | rfl | rfl | rfl
      · exact hunwritten
      · exact hunwritten
      · exact .inl hunwritten
      · exact .inl hunwritten
      · exact hunwritten
      · exact .inl hunwritten
    · -- The transaction was committed, and closing the connection failed.
      rw [hreason, hinternal]
      right
      have hchecked : p.Checked D.lib (D.app i) request (D.history t tr) := by
        rw [hown]
        exact hp.mono (List.subset_append_left _ _)
      have hstore : (D.exec (.spend (p.spendArgs (D.app i) request)) x
          (D.system.after w pre)).2.store = (D.system.after w pre).store.spend
            (p.spendArgs (D.app i) request) now := hdb
      cases hspent : (D.system.after w pre).store.spent
          (p.spendArgs (D.app i) request).context.credentialId with
      | true =>
        refine .inl ⟨p, now, hchecked, writesOnce_of_write (writesQuietly_redeem h hc hr) he rfl ?_⟩
        rw [hstore]
        exact hs.consumesOnly hspent
      | false =>
        refine .inr ⟨p, now, hchecked, writesOnce_of_write (writesQuietly_redeem h hc hr) he rfl ?_⟩
        rw [hstore]
        exact hs.consumesAndRedeems hspent
  | second hh hp hquiet hfirst hreason =>
    rw [hh, List.append_assoc, List.singleton_append] at hown
    rw [hreason]
    exact (spend_returned h hc hr hown hp).2 hfirst
  | unclocked hh hp hquiet hfirst hreason =>
    rw [hh, List.append_assoc, List.cons_append] at hown
    rw [hreason]
    exact .inr (.inr ((spend_returned h hc hr hown hp).1 hfirst))
  | @late p h₀ res now hh hp hquiet hfirst hreason =>
    rw [hh, List.append_assoc, List.cons_append, List.singleton_append] at hown
    have hredeemed := (spend_returned h hc hr hown hp).1 hfirst
    rcases hreason with ⟨hstale, rfl⟩ | ⟨hexpired, rfl⟩
    · exact .inr ⟨hredeemed, p, h₀, q, res, now, hown, .inl hstale⟩
    · exact .inr ⟨hredeemed, p, h₀, q, res, now, hown, .inr hexpired⟩

/-- A step that is not counted leaves the counters. -/
theorem uncounted_of_history (h : D.system.Run w tr s) (hc : Label.start t c ∈ tr)
    (hr : D.redemption? c = some (i, request))
    (hn : ∀ n, ⟨.recordInvocation i, n⟩ ∉ D.history t tr) : Uncounted w tr t := by
  intro pre e x r post he
  cases e with
  | recordInvocation j =>
    exfalso
    obtain ⟨rfl, _⟩ := redeemGuarantee_at h hc hr he
    apply hn r
    rw [history, System.own_split he]
    simp
  | clock | tokenHex | lib | sign | storeBrokerChallenge | consumeBrokerChallenge
  | storeResourceChallenge | getResourceChallenge | spend | invocationCount
  | inventoryLookup => rfl

/-- The writes of a redemption by its outcome, in every run among any other calls, crashes and
failures but `DecisionError`s: a denied call wrote what its reason says and counted nothing; a call
that entered the handler consumed its challenge together with a new redemption row. -/
theorem redeem_writes (h : D.system.Run w tr s) (hc : Label.start t c ∈ tr)
    (hr : D.redemption? c = some (i, request))
    (hplain : ∀ e x r, Label.act t e x r ∈ tr → PlainInput e x) :
    (∀ a, Label.finish t a ∈ tr → ∃ r, a = D.answerOf c r ∧
      ∀ d, r = .ok d → d.allowed = false →
        DeniedWrites w tr t i request d.reason ∧ Uncounted w tr t) ∧
    (∀ j sku reply, ⟨.inventoryLookup j sku, reply⟩ ∈ D.history t tr →
      RedeemedOwn w tr t i request) := by
  constructor
  · intro a hf
    obtain ⟨p, hpath, hdone⟩ := h.history hc
    rw [hdone a hf] at hpath
    obtain ⟨r, hredeem, ha⟩ := path_redeem hr hpath
    refine ⟨r, ha, ?_⟩
    intro d hd hdenied
    have hrefused : ((D.app i).redeem D.lib i request).prog.Sat PlainReply _ _ [] :=
      Body.sat_prog.mpr redeem_refused
    have hended : ((D.app i).redeem D.lib i request).prog.Sat (fun _ _ ↦ True) _ _ [] :=
      Body.sat_prog.mpr redeem_ended
    obtain ⟨h₁, hreason, hext⟩ :=
      hrefused.path hredeem (relies_plainReply h hplain) d hd hdenied
    refine ⟨deniedWrites_of_refused h hc hr hplain hreason hext, ?_⟩
    apply uncounted_of_history h hc hr
    rcases hended.path hredeem fun _ _ _ _ ↦ trivial with ⟨hn, _⟩ | ⟨n, reply, _, _, hends⟩
    · exact hn
    · subst hd
      cases hends with
      | completed => cases hdenied
      | failed => cases hdenied
  · intro j sku reply hentered
    obtain ⟨pre, post, he⟩ := List.append_of_mem hentered
    have hg := h.guarantee_history (A := fun _ _ _ ↦ True) hc (body_sat _) he fun _ _ _ _ ↦ trivial
    unfold guarantee at hg
    rw [hr] at hg
    obtain ⟨_, _, p, h₀, n, ⟨h₁, res, now, rfl, _, hp, hfirst, _⟩, hpre⟩ := hg
    rw [hpre, List.append_assoc, List.append_assoc, List.cons_append] at he
    exact (spend_returned h hc hr he hp).1 hfirst

end Deployment

namespace Demo

/-- The packages of the scenarios raise no `DecisionError`. -/
theorem plain_honest (scope : Text) (roots : Bytes) (c : LibCall) :
    Plain (StandIn.honest scope roots c) := by
  have hraise : ∀ {p : Prop} [Decidable p] {e : Exn}, e.isDecision = false →
      Plain (raiseIf p e) := by
    intro p _ e he e' h
    rw [(raiseIf_eq_error.mp h).2]
    exact he
  have horRaise : ∀ {α : Type} {o : Option α} {e : Exn}, e.isDecision = false →
      Plain (orRaise o e) := by
    intro α o e he e' h
    cases o with
    | some a => cases h
    | none =>
      cases h
      exact he
  cases c with
  | credentialFromDict d => exact horRaise rfl
  | holderProofFromDict d => exact horRaise rfl
  | verifyHolderProof c => exact hraise rfl
  | verifyChain chain maxDepth roots atTime =>
    intro e he
    change StandIn.verifyChain chain roots atTime = .error e at he
    unfold StandIn.verifyChain at he
    split at he
    · obtain he | ⟨_, _, he⟩ := bind_eq_error.mp he
      · exact hraise rfl e he
      · exact hraise rfl e he
    · cases he
      rfl
  | verifyChallenge | credentialSign | credentialBody | manifestNormalize | manifestCanonicalHash
  | verifyManifest | ed25519PublicKey | ed25519Verify | readPcrSelection | evaluationTime
  | loadPemX509Certificates | verifyTpmQuote | appraise => exact nofun

/-- A scenario holds no `DecisionError`. -/
theorem plainInput_scenario (now : Int) (seed : UInt8) (e : Op) :
    PlainInput e ((scenario now seed).input e) := by
  cases e with
  | clock => exact nofun
  | lib c => exact plain_honest _ _ c
  | getResourceChallenge => exact nofun
  | spend => exact ⟨nofun, nofun⟩
  | tokenHex | sign | storeBrokerChallenge | consumeBrokerChallenge | storeResourceChallenge
  | recordInvocation | invocationCount | inventoryLookup => trivial

/-- Every move of the schedule is made in a scenario. -/
theorem act_of_mem_twoRedemptions {t : Nat} {x : (e : Op) → e.Input}
    (h : Move.act t x ∈ twoRedemptions) : ∃ now seed, x = (scenario now seed).input := by
  simp only [twoRedemptions, Deployment.alone, List.mem_append, List.mem_cons, List.mem_replicate,
    reduceCtorEq, false_or, List.not_mem_nil, or_false] at h
  rcases h with ⟨_, _, rfl⟩ | ⟨_, _, rfl⟩ | ⟨_, _, rfl⟩ | ⟨_, _, rfl⟩
  · exact ⟨_, _, rfl⟩
  · exact ⟨_, _, rfl⟩
  · exact ⟨_, _, rfl⟩
  · exact ⟨_, _, rfl⟩

end Demo

/-- The law at the two redemptions of one credential: the denied one consumed its challenge only,
and the other one entered the handler. -/
theorem Deployment.redeem_writes_twoRedemptions :
    ∃ tr s, Demo.deployment.system.Run .initial tr s ∧
      ConsumedOwn .initial tr 3 0 (Demo.lookupInput 1002 3) ∧
      RedeemedOwn .initial tr 1 0 (Demo.lookupInput 1000 1) := by
  obtain ⟨tr, s, hrun, hmade, hentries, -, hdenials, -⟩ := Demo.exists_twoRedemptions
  have hplain : ∀ t e x r, Label.act t e x r ∈ tr → PlainInput e x := by
    intro t e x r hl
    obtain ⟨m, hm, hmakes⟩ := exists_move_of_mem hmade hl
    cases m with
    | act t' x' =>
      obtain ⟨now, seed, rfl⟩ := Demo.act_of_mem_twoRedemptions hm
      obtain ⟨e', r', heq⟩ := hmakes
      cases heq
      exact Demo.plainInput_scenario now seed e
    | start => cases hmakes
    | finish => cases hmakes.choose_spec
    | crash => cases hmakes
  have hstart : ∀ t c, Move.start t c ∈ Demo.twoRedemptions → Label.start t c ∈ tr := by
    intro t c hm
    obtain ⟨l, hl, hmakes⟩ := exists_label_of_mem hmade hm
    cases hmakes
    exact hl
  refine ⟨tr, s, hrun, ?_, ?_⟩
  · have hlaw := redeem_writes hrun (hstart 3 (.redeem 0 (Demo.lookupInput 1002 3)) (by
        simp [Demo.twoRedemptions, Deployment.alone])) rfl
      (hplain 3)
    obtain ⟨d, hf, hdenied, hreason⟩ := finish_of_mem_denials
      (show (3, Reason.CREDENTIAL_SPENT) ∈ Demo.deployment.denials tr by rw [hdenials]; decide)
    obtain ⟨r, ha, hwrites⟩ := hlaw.1 _ hf
    cases r with
    | error e => cases ha
    | ok d' =>
      cases ha
      have hw := (hwrites d rfl hdenied).1
      rw [hreason] at hw
      exact hw
  · have hlaw := redeem_writes hrun (hstart 1 (.redeem 0 (Demo.lookupInput 1000 1)) (by
        simp [Demo.twoRedemptions, Deployment.alone])) rfl
      (hplain 1)
    have hentered : 1 ∈ Demo.deployment.entries tr := by
      rw [hentries]
      exact List.mem_singleton_self 1
    obtain ⟨j, sku, x, r, hl⟩ := mem_entries.mp hentered
    exact hlaw.2 j sku r (System.mem_own.mpr ⟨x, hl⟩)

end Atcap
