import Atcap.System.Calls
import Atcap.System.Effect
import Atcap.System.Schedule

/-!
# One challenge, one credential

Along every run, a broker challenge row is consumed by at most one call, and stays consumed. A
call returns a credential only after its own transaction consumed the row of the challenge it
presents, and that row was written by an earlier `new_challenge`.
-/

namespace Atcap

open Base System CapabilityBroker

namespace Deployment

variable (D : Deployment)

/-- The challenge an issuance request presents. -/
def challenge? : Call → Option Text
  | .issue _ request _ _ =>
    (validateIssuanceRequestRuntime request).toOption.map IssuanceRequest.challenge
  | _ => none

/-- The challenge a thread presents. -/
def presented (t : Nat) (tr : D.Trace) : Option Text := (D.system.callOf t tr).bind challenge?

/-- Whether an answer is an allow decision of an issuance. -/
def isGrant (tr : D.Trace) (t : Nat) (a : Except Exn Answer) : Bool :=
  match D.system.callOf t tr, a with
  | some (.issue ..), .ok (.decision d) => d.allowed
  | _, _ => false

/-- The threads whose `issue` returned a credential, in order. -/
def grants (tr : D.Trace) : List Nat :=
  ((D.system.answers tr).filter fun p ↦ D.isGrant tr p.1 p.2).map Prod.fst

/-- The challenge tokens of a run: those the released verifier accepted. -/
def tokens (tr : D.Trace) : List Text :=
  tr.filterMap fun l ↦ match l with
    | .act _ (.lib (.verifyChallenge _ token _)) _ (.ok ()) => some token
    | _ => none

/-- The quote checks that returned `True`. -/
def verifiedQuotes (tr : D.Trace) : List QuoteCheck :=
  tr.filterMap fun l ↦ match l with
    | .act _ (.lib (.verifyTpmQuote q)) _ (.ok (.bool true)) => some q
    | _ => none

/-- The key, signature and message of each accepted Ed25519 verification. -/
def verifiedSignatures (tr : D.Trace) : List (Bytes × Bytes × Bytes) :=
  tr.filterMap fun l ↦ match l with
    | .act _ (.lib (.ed25519Verify key signature message)) _ (.ok ()) =>
      some (key, signature, message)
    | _ => none

/-- The credentials that were signed, before and after. -/
def signedCredentials (tr : D.Trace) : List (Credential × Credential) :=
  tr.filterMap fun l ↦ match l with
    | .act _ (.lib (.credentialSign unsigned _)) _ (.ok signed) => some (unsigned, signed)
    | _ => none

/-- The credentials whose body was asked for, with its members. -/
def credentialBodies (tr : D.Trace) : List (Credential × List (Text × Value)) :=
  tr.filterMap fun l ↦ match l with
    | .act _ (.lib (.credentialBody c)) _ (.ok body) => some (c, body)
    | _ => none

/-- The transcript that the qualifying data of a request hashes. -/
def transcript? : Call → Option Bytes
  | .issue _ raw _ _ => do
    let request ← (validateIssuanceRequestRuntime raw).toOption
    let data ← (canonicalJson D.lib request.toDict).toOption
    return issuanceDomain ++ data
  | _ => none

/-- The transcripts of the issuance calls of a run. -/
def transcripts (tr : D.Trace) : List Bytes :=
  tr.filterMap fun l ↦ match l with
    | .start _ c => D.transcript? c
    | _ => none

/-- The consumed broker challenges of a database. -/
def consumedRows (db : Store) : List BrokerChallengeRow :=
  db.brokerChallenges.rows.filter fun row ↦ row.consumedAt.isSome

variable {D} {tr pre post : D.Trace} {t : Nat}
  {s : Config Op Op.Reply World Call (Except Exn Answer)}

/-- An accepted token is a token of the run. -/
theorem mem_tokens {secret : Bytes} {token : Text} {now : Int}
    (h : ⟨.lib (.verifyChallenge secret token now), .ok ()⟩ ∈ D.history t tr) :
    token ∈ D.tokens tr := by
  obtain ⟨x, hx⟩ := System.mem_own.mp h
  exact List.mem_filterMap.mpr ⟨_, hx, rfl⟩

/-! ### Consumptions -/

/-- What a consumption that returned had checked, and what it did. -/
theorem consume_committed {w : World} (h : D.system.Run w tr s) {tokenHash : Text}
    {x : Except Exn Int × Faults}
    (he : tr = pre ++ .act t (.consumeBrokerChallenge tokenHash) x (.ok ()) :: post) :
    ∃ row now, x.1 = .ok now ∧ BrokerConsumable (D.system.after w pre).store tokenHash row now ∧
      row.consume now ∈ (D.system.after w
        (pre ++ [.act t (.consumeBrokerChallenge tokenHash) x
          (.ok ())])).store.brokerChallenges.rows := by
  have hreply := h.reply_eq he
  have heq : Store.consumeBrokerChallenge tokenHash x.1 x.2 (D.system.after w pre).store =
      (.ok (), (D.system.after w
        (pre ++ [.act t (.consumeBrokerChallenge tokenHash) x (.ok ())])).store) := by
    rw [System.after_snoc]
    exact Prod.ext hreply.symm rfl
  obtain ⟨row, now, hclock, hrow, hdb⟩ := consumeBrokerChallenge_ok heq
  refine ⟨row, now, hclock, hrow, ?_⟩
  obtain ⟨hmem, hkey⟩ := (Table.find?_eq_some _).mp hrow.stored
  rw [hdb]
  exact mem_broker_consume.mpr ⟨row, hmem, by rw [if_pos ⟨hkey, by rw [hrow.unconsumed]; rfl⟩]⟩

private theorem not_consumed_again (h : D.system.Run .initial tr s) {tokenHash : Text} {t' : Nat}
    {x x' : Except Exn Int × Faults} {pre' post' mid : D.Trace}
    (he : tr = pre ++ .act t (.consumeBrokerChallenge tokenHash) x (.ok ()) :: post)
    (he' : tr = pre' ++ .act t' (.consumeBrokerChallenge tokenHash) x' (.ok ()) :: post')
    (hmid : pre' = pre ++ .act t (.consumeBrokerChallenge tokenHash) x (.ok ()) :: mid) :
    False := by
  obtain ⟨row, now, _, hrow, hmem⟩ := consume_committed h he
  obtain ⟨row', now', _, hrow', _⟩ := consume_committed h he'
  have hkept := consumed_kept (D := D) _ mid hmem rfl
  rw [← System.after_append, List.append_assoc, List.singleton_append, ← hmid] at hkept
  obtain ⟨hstored, hkey'⟩ := (Table.find?_eq_some _).mp hrow'.stored
  have hkey : row.tokenHash = tokenHash := ((Table.find?_eq_some _).mp hrow.stored).2
  have hsame := Table.eq_of_key_eq _ hkept hstored (hkey.trans hkey'.symm)
  have hnone := hrow'.unconsumed
  rw [← hsame] at hnone
  cases hnone

/-- A challenge is consumed by at most one step of a run. -/
theorem consumption_unique (h : D.system.Run .initial tr s) {tokenHash : Text} {t' : Nat}
    {x x' : Except Exn Int × Faults} {pre' post' : D.Trace}
    (he : tr = pre ++ .act t (.consumeBrokerChallenge tokenHash) x (.ok ()) :: post)
    (he' : tr = pre' ++ .act t' (.consumeBrokerChallenge tokenHash) x' (.ok ()) :: post') :
    t = t' := by
  rcases System.split_cases (he.symm.trans he') with ⟨_, hl⟩ | ⟨mid, hmid⟩ | ⟨mid, hmid⟩
  · cases hl
    rfl
  · exact (not_consumed_again h he he' hmid).elim
  · exact (not_consumed_again h he' he hmid).elim

/-! ### Grants -/

/-- A grant is an allow decision that an issuance answered. -/
theorem mem_grants (h : D.system.Run .initial tr s) :
    t ∈ D.grants tr ↔ ∃ b request manifest tpmEvidence d,
      Label.start t (.issue b request manifest tpmEvidence) ∈ tr ∧
      Label.finish t (.ok (.decision d)) ∈ tr ∧ d.allowed = true := by
  simp only [grants, List.mem_map, List.mem_filter]
  constructor
  · rintro ⟨⟨t', a⟩, ⟨ha, hg⟩, rfl⟩
    unfold isGrant at hg
    split at hg
    · next b request manifest tpmEvidence d hc hd =>
      obtain rfl : a = .ok (.decision d) := hd
      exact ⟨b, request, manifest, tpmEvidence, d, start_of_callOf hc, mem_answers.mp ha, hg⟩
    · cases hg
  · rintro ⟨b, request, manifest, tpmEvidence, d, hc, hf, hd⟩
    refine ⟨(t, .ok (.decision d)), ⟨mem_answers.mpr hf, ?_⟩, rfl⟩
    unfold isGrant
    rw [h.callOf_eq hc]
    exact hd

/-- No thread is granted two credentials. -/
theorem grants_nodup (h : D.system.Run .initial tr s) : (D.grants tr).Nodup :=
  h.answers_nodup.sublist (List.Sublist.map _ List.filter_sublist)

/-- An allowed issuance call with its typed submission and its decision. -/
structure AllowedIssue (tr : D.Trace) (t b : Nat) (a : Submission) (d : Decision) : Prop where
  called : ∃ raw manifest rawEvidence, Label.start t (.issue b raw manifest rawEvidence) ∈ tr ∧
    a.Typed raw rawEvidence
  returned : Label.finish t (.ok (.decision d)) ∈ tr
  allowed : d.allowed = true

/-- An allowed issuance has the history of a grant. -/
theorem AllowedIssue.granted (h : D.system.Run .initial tr s) {b : Nat} {a : Submission}
    {d : Decision} (ha : AllowedIssue tr t b a d) :
    ∃ manifest, a.Granted D.lib (D.broker b) manifest d (D.history t tr) := by
  obtain ⟨raw, manifest, rawEvidence, hc, htyped⟩ := ha.called
  obtain ⟨a', htyped', hgranted⟩ := h.result (A := fun _ _ _ ↦ True) hc (body_sat _)
    (fun _ _ _ _ ↦ trivial) ha.returned d rfl ha.allowed
  rw [htyped'.unique htyped] at hgranted
  exact ⟨manifest, hgranted⟩

/-- Every grant is an allowed issuance. -/
theorem allowedIssue_of_grant (h : D.system.Run .initial tr s) (ht : t ∈ D.grants tr) :
    ∃ b a d, AllowedIssue tr t b a d := by
  obtain ⟨b, raw, manifest, rawEvidence, d, hc, hf, hd⟩ := (mem_grants h).mp ht
  obtain ⟨a, htyped, _⟩ := h.result (A := fun _ _ _ ↦ True) hc (body_sat _)
    (fun _ _ _ _ ↦ trivial) hf d rfl hd
  exact ⟨b, a, d, ⟨raw, manifest, rawEvidence, hc, htyped⟩, hf, hd⟩

/-- An allowed issuance consumed its challenge itself. -/
theorem AllowedIssue.consumes (h : D.system.Run .initial tr s) {b : Nat} {a : Submission}
    {d : Decision} (ha : AllowedIssue tr t b a d) : ∃ pre x post,
      tr = pre ++ .act t (.consumeBrokerChallenge a.tokenHash) x (.ok ()) :: post := by
  obtain ⟨_, h₀, h₁, hown, _⟩ := ha.granted h
  obtain ⟨pre, x, post, he, _, _⟩ := System.own_eq_append hown
  exact ⟨pre, x, post, he⟩

/-- The challenge an allowed issuance presents, and its hash. -/
theorem AllowedIssue.presents (h : D.system.Run .initial tr s) {b : Nat} {a : Submission}
    {d : Decision} (ha : AllowedIssue tr t b a d) :
    D.presented t tr = some a.request.challenge ∧
      challengeTokenHash a.request.challenge = .ok a.tokenHash := by
  obtain ⟨raw, manifest, rawEvidence, hc, htyped⟩ := ha.called
  refine ⟨?_, htyped.hashed⟩
  rw [presented, h.callOf_eq hc]
  simp only [Option.bind_some, challenge?, htyped.request]
  rfl

/-- The released verifier accepted the challenge of an allowed issuance. -/
theorem AllowedIssue.accepted (h : D.system.Run .initial tr s) {b : Nat} {a : Submission}
    {d : Decision} (ha : AllowedIssue tr t b a d) : a.request.challenge ∈ D.tokens tr := by
  obtain ⟨_, h₀, h₁, hown, _, happraised, _⟩ := ha.granted h
  obtain ⟨now, _, hverified⟩ := happraised.challenge
  apply mem_tokens (t := t)
  rw [hown]
  exact List.mem_append_left _ hverified

/-- Two allowed issuances for the same challenge are one. -/
theorem AllowedIssue.eq_of_challenge (h : D.system.Run .initial tr s) {t' b b' : Nat}
    {a a' : Submission} {d d' : Decision} (ha : AllowedIssue tr t b a d)
    (ha' : AllowedIssue tr t' b' a' d') (hc : a.request.challenge = a'.request.challenge) :
    t = t' := by
  obtain ⟨_, hhash⟩ := ha.presents h
  obtain ⟨_, hhash'⟩ := ha'.presents h
  rw [hc, hhash', Except.ok.injEq] at hhash
  obtain ⟨pre, x, post, he⟩ := ha.consumes h
  obtain ⟨pre', x', post', he'⟩ := ha'.consumes h
  rw [hhash] at he'
  exact consumption_unique h he he'

/-- What stands behind a credential: the row of the presented challenge, written by an earlier
`new_challenge` that made this token, and consumed by this very call before its expiry. -/
structure IssuedFor (tr : D.Trace) (db : Store) (t : Nat) (token : Text)
    (row : BrokerChallengeRow) : Prop where
  presented : D.presented t tr = some token
  hashed : challengeTokenHash token = .ok row.tokenHash
  stored : row ∈ db.brokerChallenges.rows
  consumed : ∃ pre mid post t' b f x lockedNow,
    tr = pre ++
      .act t' (.storeBrokerChallenge row.tokenHash row.issuedAt row.expiresAt) f (.ok ()) ::
        mid ++ .act t (.consumeBrokerChallenge row.tokenHash) x (.ok ()) :: post ∧
    Label.start t' (.newChallenge b) ∈ pre ∧
    TokenIssued (D.broker b).challengeSecret row.issuedAt (D.broker b).policy.challengeTtlSeconds
      token row.expiresAt (D.history t' pre) ∧
    x.1 = .ok lockedNow ∧ row.consumedAt = some lockedNow ∧ lockedNow < row.expiresAt

/-- Every allowed issuance has a row behind it. -/
theorem AllowedIssue.issuedFor (h : D.system.Run .initial tr s)
    (hcollision : Set.InjOn (fun token ↦ sha256 (utf8 token)) {token | token ∈ D.tokens tr})
    {b : Nat} {a : Submission} {d : Decision} (ha : AllowedIssue tr t b a d) :
    ∃ row, IssuedFor tr s.shared.store t a.request.challenge row ∧ row.tokenHash = a.tokenHash ∧
      row.consumedAt.isSome := by
  obtain ⟨hpresented, hhash⟩ := ha.presents h
  obtain ⟨pre, x, post, he⟩ := ha.consumes h
  obtain ⟨row, lockedNow, hclock, hrow, hconsumed⟩ := consume_committed h he
  obtain ⟨hmem, hkey⟩ := (Table.find?_eq_some _).mp hrow.stored
  obtain ⟨s₁, s₂, hpre, _⟩ := h.split he
  obtain ⟨pre₁, mid, t', f, hstore⟩ := broker_written hpre hmem
  -- The row was stored by a `new_challenge`, for a token with the same hash.
  obtain ⟨c, hc, hg⟩ := hpre.guarantee_at (A := fun _ _ _ ↦ True) body_sat hstore
  obtain ⟨b', rfl, token, htoken, _, hissued, _⟩ :=
    guarantee_storeBrokerChallenge (hg fun _ _ _ _ ↦ trivial)
  have htr : tr = pre₁ ++ .act t' (.storeBrokerChallenge row.tokenHash row.issuedAt row.expiresAt)
      f (.ok ()) :: mid ++ .act t (.consumeBrokerChallenge a.tokenHash) x (.ok ()) :: post := by
    rw [he, hstore]
  have hsub : D.history t' pre₁ ⊆ D.history t' tr := by
    rw [htr, history, history, List.append_assoc, System.own_append]
    exact List.subset_append_left _ _
  have hsame : a.request.challenge = token := by
    obtain ⟨_, _, _, _, _, _, hverified⟩ := hissued
    apply hcollision (ha.accepted h) (mem_tokens (hsub hverified))
    apply hex_injective
    have h₁ := (challengeTokenHash_eq_ok hhash).2
    have h₂ := (challengeTokenHash_eq_ok htoken).2
    exact h₁.symm.trans (hkey.symm.trans h₂)
  refine ⟨row.consume lockedNow, ⟨hpresented, by rw [hhash, ← hkey]; rfl, ?_, ?_⟩, hkey, rfl⟩
  · have hkept := consumed_kept (D := D) _ post hconsumed rfl
    rw [← System.after_append, List.append_assoc, List.singleton_append, ← he] at hkept
    rw [h.shared_eq]
    exact hkept
  · rw [← hkey] at htr
    rw [← hsame] at hissued
    exact ⟨pre₁, mid, post, t', b', f, x, lockedNow, htr, hc, hissued, hclock, rfl, hrow.fresh⟩

/-- One challenge, one credential, in every run from an empty database: every credential has a
consumed row of its own behind it, a challenge is good for at most one, and there are never more
credentials than consumed rows. -/
theorem one_challenge_one_credential (h : D.system.Run .initial tr s)
    (hcollision : Set.InjOn (fun token ↦ sha256 (utf8 token)) {token | token ∈ D.tokens tr}) :
    (∀ t ∈ D.grants tr, ∃ token row, IssuedFor tr s.shared.store t token row) ∧
    (∀ t ∈ D.grants tr, ∀ t' ∈ D.grants tr, ∀ token token' row,
      IssuedFor tr s.shared.store t token row → IssuedFor tr s.shared.store t' token' row →
      t = t') ∧
    (∀ token, (D.grants tr).countP (fun t ↦ decide (D.presented t tr = some token)) ≤ 1) ∧
    (D.grants tr).length ≤ (consumedRows s.shared.store).length := by
  have hrow : ∀ t ∈ D.grants tr, ∃ b a d, AllowedIssue tr t b a d ∧ ∃ row,
      IssuedFor tr s.shared.store t a.request.challenge row ∧ row.tokenHash = a.tokenHash ∧
        row.consumedAt.isSome := by
    intro t ht
    obtain ⟨b, a, d, ha⟩ := allowedIssue_of_grant h ht
    exact ⟨b, a, d, ha, ha.issuedFor h hcollision⟩
  have hunique : ∀ t t' token token' row, IssuedFor tr s.shared.store t token row →
      IssuedFor tr s.shared.store t' token' row → t = t' := by
    intro t t' token token' row hi hi'
    obtain ⟨_, _, _, _, _, _, _, _, he, _⟩ := hi.consumed
    obtain ⟨_, _, _, _, _, _, _, _, he', _⟩ := hi'.consumed
    exact consumption_unique h he he'
  refine ⟨?_, ?_, ?_, ?_⟩
  · intro t ht
    obtain ⟨b, a, d, _, row, hi, _⟩ := hrow t ht
    exact ⟨_, row, hi⟩
  · intro t _ t' _ token token' row hi hi'
    exact hunique t t' token token' row hi hi'
  · intro token
    apply countP_le_one (grants_nodup h)
    intro t ht t' ht' hp hp'
    obtain ⟨b, a, d, ha⟩ := allowedIssue_of_grant h ht
    obtain ⟨b', a', d', ha'⟩ := allowedIssue_of_grant h ht'
    apply ha.eq_of_challenge h ha'
    have h₁ := (ha.presents h).1.symm.trans (of_decide_eq_true hp)
    have h₂ := (ha'.presents h).1.symm.trans (of_decide_eq_true hp')
    exact Option.some.inj (h₁.trans h₂.symm)
  · -- Each grant has a consumed row, and no row serves two grants.
    apply length_le_of_rel (grants_nodup h)
      (R := fun t row ↦ ∃ token, IssuedFor tr s.shared.store t token row)
    · intro t ht
      obtain ⟨b, a, d, _, row, hi, _, hconsumed⟩ := hrow t ht
      exact ⟨row, List.mem_filter.mpr ⟨hi.stored, hconsumed⟩, _, hi⟩
    · rintro t t' row ⟨token, hi⟩ ⟨token', hi'⟩
      exact hunique t t' token token' row hi hi'

end Deployment

namespace Demo

/-- No quote, endorsement or transcript of a run stands for two. -/
def Functional (tr : deployment.Trace) : Prop :=
  (((deployment.verifiedQuotes tr).map fun q ↦
    ((q.attest, q.signature, q.akChainPem), q.expectedQualifyingData)).dedup.map Prod.fst).Nodup ∧
  (((deployment.verifiedSignatures tr).map fun p ↦
    ((p.1, p.2.1), p.2.2)).dedup.map Prod.fst).Nodup ∧
  ((deployment.transcripts tr).dedup.map sha256).Nodup

/-- The credentials of a run keep their subject. -/
def Subjects (tr : deployment.Trace) : Prop :=
  (∀ p ∈ deployment.signedCredentials tr, p.2.subject = p.1.subject) ∧
  ∀ p ∈ deployment.credentialBodies tr,
    (p.2.lookup (text "subject")).any (fun v ↦ v.isText p.1.subject) = true

instance (tr : deployment.Trace) : Decidable (Functional tr) :=
  inferInstanceAs (Decidable (_ ∧ _ ∧ _))

instance (tr : deployment.Trace) : Decidable (Subjects tr) :=
  inferInstanceAs (Decidable (_ ∧ _))

set_option maxRecDepth 100000 in
/-- The two issuances are allowed, and the replay of the first is denied. -/
theorem exists_twoIssuances : ∃ tr s, deployment.system.Run .initial tr s ∧
    List.Forall₂ Move.Makes twoIssuances tr ∧
    deployment.reasons tr = [(1, .ALLOW), (2, .CHALLENGE_CONSUMED), (4, .ALLOW)] ∧
    deployment.denials tr = [(2, .CHALLENGE_CONSUMED)] ∧ deployment.grants tr = [1, 4] ∧
    deployment.answeredTokens tr = [(0, brokerToken 1000 1), (3, brokerToken 1003 4)] ∧
    (Deployment.consumedRows s.shared.store).length = 2 ∧ signedAll tr = true ∧
    ((deployment.tokens tr).dedup.map fun token ↦ sha256 (utf8 token)).Nodup ∧
    Functional tr ∧ Subjects tr :=
  Deployment.exists_made_of_play twoIssuances (by decide +kernel)

end Demo

/-- The law at a run with two challenges and a replayed issuance: each credential has a row of its
own behind it, and the replay has none. -/
theorem Deployment.one_challenge_one_credential_issuances :
    ∃ tr s, Demo.deployment.system.Run .initial tr s ∧
      Demo.deployment.reasons tr = [(1, .ALLOW), (2, .CHALLENGE_CONSUMED), (4, .ALLOW)] ∧
      Demo.deployment.grants tr = [1, 4] ∧ (consumedRows s.shared.store).length = 2 ∧
      ∃ token row token' row', IssuedFor tr s.shared.store 1 token row ∧
        IssuedFor tr s.shared.store 4 token' row' ∧ token ≠ token' ∧ row ≠ row' := by
  obtain ⟨tr, s, hrun, -, hreasons, -, hgrants, -, hconsumed, -, htokens, -⟩ :=
    Demo.exists_twoIssuances
  have hcollision : Set.InjOn (fun token ↦ sha256 (utf8 token))
      {token | token ∈ Demo.deployment.tokens tr} := fun a ha b hb ↦
    List.inj_on_of_nodup_map htokens (List.mem_dedup.mpr ha) (List.mem_dedup.mpr hb)
  obtain ⟨hissued, hone, hcount, -⟩ := one_challenge_one_credential hrun hcollision
  have hmem : ∀ t ∈ [1, 4], t ∈ Demo.deployment.grants tr := fun t ht ↦ hgrants ▸ ht
  have hfirst := hmem 1 (by decide)
  have hsecond := hmem 4 (by decide)
  obtain ⟨token, row, hi⟩ := hissued 1 hfirst
  obtain ⟨token', row', hi'⟩ := hissued 4 hsecond
  refine ⟨tr, s, hrun, hreasons, hgrants, hconsumed, token, row, token', row', hi, hi', ?_, ?_⟩
  · rintro rfl
    have htwo := hcount token
    rw [hgrants, List.countP_eq_length.mpr (by simp [hi.presented, hi'.presented])] at htwo
    exact absurd htwo (by decide)
  · rintro rfl
    exact absurd (hone 1 hfirst 4 hsecond token token' row hi hi') (by decide)

end Atcap
