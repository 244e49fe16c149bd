import Atcap.System.Issuance

/-!
# Evidence cannot be bound to another request

A quote covers the digest of the whole request and an endorsement the other nine fields, so two
allowed calls of one broker with the same evidence, or with the same endorsement, carry the same
request. Since a request names its one-time challenge, they are one call.

What is assumed of the released packages is stated over the answers they gave in the run.
-/

namespace Atcap

open Base System CapabilityBroker

/-! ### Dictionaries of texts -/

/-- Python equality of dictionaries of texts, read off their canonical encoding. -/
def CanonicalInjective (lib : Libraries) : Prop :=
  ∀ (m m' : List (Text × Text)) (data : Bytes), (m.map Prod.fst).Nodup → (m'.map Prod.fst).Nodup →
    canonicalJson lib (.ofTexts m) = .ok data → canonicalJson lib (.ofTexts m') = .ok data →
    m.Perm m'

/-- RFC 8785 tells dictionaries of texts apart. -/
theorem Rfc8785.canonicalInjective {lib : Libraries} (law : Rfc8785 lib) :
    CanonicalInjective lib := by
  intro m m' data hn hn' h h'
  have hvalue : ∀ m : List (Text × Text), (m.map Prod.fst).Nodup →
      (Value.ofTexts m).distinctKeys = true ∧ Json.floatFree (.ofTexts m) = true := by
    intro m hn
    rw [Value.distinctKeys, Json.floatFree, Value.everywhere_ofTexts, Value.everywhere_ofTexts]
    simp [hn]
  have hloads := law.jsonLoads_canonicalJson (hvalue m hn).1 (hvalue m hn).2 h
  have hloads' := law.jsonLoads_canonicalJson (hvalue m' hn').1 (hvalue m' hn').2 h'
  obtain ⟨l, hperm, hl⟩ := Json.sorted_ofTexts m
  obtain ⟨l', hperm', hl'⟩ := Json.sorted_ofTexts m'
  have hsame : Value.ofTexts l = Value.ofTexts l' := by
    rw [← hl, ← hl']
    exact Option.some.inj (hloads.symm.trans hloads')
  have hinjective : Function.Injective fun p : Text × Text ↦ (p.1, Value.str p.2) := by
    intro p q hpq
    simp only [Prod.mk.injEq, Value.str.injEq] at hpq
    exact Prod.ext hpq.1 hpq.2
  rw [Value.ofTexts, Value.ofTexts, Value.dict.injEq] at hsame
  rw [← List.map_injective_iff.mpr hinjective hsame] at hperm'
  exact hperm.symm.trans hperm'

namespace IssuanceRequest

/-- The nine signed fields under their wire names. -/
def signedFields (r : IssuanceRequest) : List (Text × Text) :=
  [(text "version", r.version), (text "broker_id", r.brokerId), (text "challenge", r.challenge),
    (text "manifest_digest", r.manifestDigest), (text "identity_key", r.identityKey),
    (text "holder_key", r.holderKey), (text "resource_issuer_kid", r.resourceIssuerKid),
    (text "resource_issuer_key", r.resourceIssuerKey), (text "requested_scope", r.requestedScope)]

/-- All ten fields under their wire names. -/
def wireFields (r : IssuanceRequest) : List (Text × Text) :=
  r.signedFields ++ [(text "identity_signature", r.identitySignature)]

/-- The dictionaries of the source have exactly these members. -/
theorem body_eq (r : IssuanceRequest) : r.body = Value.ofTexts r.signedFields := rfl

/-- The dictionary of a request spells its fields on the wire. -/
theorem toDict_eq (r : IssuanceRequest) : r.toDict = Value.ofTexts r.wireFields := rfl

/-- The wire names of the ten fields. -/
def wireNames : List Text :=
  ["version", "broker_id", "challenge", "manifest_digest", "identity_key", "holder_key",
    "resource_issuer_kid", "resource_issuer_key", "requested_scope", "identity_signature"].map text

/-- The fields on the wire have their names in order. -/
theorem wireFields_keys (r : IssuanceRequest) : r.wireFields.map Prod.fst = wireNames := rfl

/-- The wire names are pairwise distinct. -/
theorem wireNames_nodup : wireNames.Nodup := by
  apply List.Nodup.map text_injective
  decide

/-- The signed fields have distinct names. -/
theorem signedFields_nodup (r : IssuanceRequest) : (r.signedFields.map Prod.fst).Nodup := by
  have hn := wireNames_nodup
  rw [← wireFields_keys r, wireFields, List.map_append] at hn
  exact (List.nodup_append.mp hn).1

variable {lib : Libraries} {r r' : IssuanceRequest} {data : Bytes}

/-- Two requests agree in the nine signed fields. -/
def SameSigned (r r' : IssuanceRequest) : Prop :=
  r' = { r with identitySignature := r'.identitySignature }

/-- The signed bytes determine the nine signed fields. -/
theorem sameSigned_of_signingBytes (hinj : CanonicalInjective lib)
    (h : r.signingBytes lib = .ok data) (h' : r'.signingBytes lib = .ok data) :
    SameSigned r r' := by
  rw [signingBytes, body_eq] at h h'
  have hp := hinj _ _ data r.signedFields_nodup r'.signedFields_nodup h h'
  have he : r.signedFields = r'.signedFields := eq_of_perm_of_keys r.signedFields_nodup rfl hp
  simp only [signedFields, List.cons.injEq, Prod.mk.injEq, true_and, and_true] at he
  obtain ⟨h₁, h₂, h₃, h₄, h₅, h₆, h₇, h₈, h₉⟩ := he
  cases r
  cases r'
  simp_all [SameSigned]

/-- The encoded wire object determines all ten fields. -/
theorem eq_of_toDict (hinj : CanonicalInjective lib) (h : canonicalJson lib r.toDict = .ok data)
    (h' : canonicalJson lib r'.toDict = .ok data) : r = r' := by
  have hn : (r.wireFields.map Prod.fst).Nodup := by
    rw [wireFields_keys]
    exact wireNames_nodup
  rw [toDict_eq] at h h'
  have hp := hinj r.wireFields r'.wireFields data hn hn h h'
  have he : r.wireFields = r'.wireFields := eq_of_perm_of_keys hn rfl hp
  simp only [wireFields, signedFields, List.cons_append, List.nil_append, List.cons.injEq,
    Prod.mk.injEq, true_and, and_true] at he
  obtain ⟨h₁, h₂, h₃, h₄, h₅, h₆, h₇, h₈, h₉, h₁₀⟩ := he
  cases r
  cases r'
  simp_all

end IssuanceRequest

/-- The `subject` of the credential in a decision. -/
def Decision.subject? (d : Decision) : Option Value := do
  let result ← d.result
  let credential ← result.get? (text "credential")
  credential.get? (text "subject")

/-! ### What is assumed of the released packages in a run -/

namespace Deployment

variable (D : Deployment)

/-- What is assumed of the evidence primitives in a run. -/
structure Unforgeable (tr : D.Trace) : Prop where
  /-- A quote is accepted for at most one qualifying data. -/
  quote : ∀ q ∈ D.verifiedQuotes tr, ∀ q' ∈ D.verifiedQuotes tr, q.attest = q'.attest →
    q.signature = q'.signature → q.akChainPem = q'.akChainPem →
    q.expectedQualifyingData = q'.expectedQualifyingData
  /-- A key and a signature verify for at most one message. -/
  endorsement : ∀ key signature message message', (key, signature, message) ∈
    D.verifiedSignatures tr → (key, signature, message') ∈ D.verifiedSignatures tr →
    message = message'
  /-- SHA-256 has no collision among the transcripts. -/
  transcript : Set.InjOn sha256 {x | x ∈ D.transcripts tr}

/-- What is assumed of credentials: signing keeps the subject, and the body names it. -/
structure SubjectKept (tr : D.Trace) : Prop where
  sign : ∀ p ∈ D.signedCredentials tr, p.2.subject = p.1.subject
  body : ∀ p ∈ D.credentialBodies tr, p.2.lookup (text "subject") = some (.str p.1.subject)

variable {D} {tr : D.Trace} {s : Config Op Op.Reply World Call (Except Exn Answer)} {t t' b : Nat}
  {a a' : Submission} {d d' : Decision}

/-- What the evidence of an allowed issuance covers: the quote the whole request, and the
endorsement its signed fields. -/
structure Covered (tr : D.Trace) (t b : Nat) (a : Submission) : Prop where
  quote : ∃ qualifyingData time, issuanceQualifyingData D.lib a.request = .ok qualifyingData ∧
    ⟨.lib (.verifyTpmQuote (quoteCheck a.evidence qualifyingData (D.broker b).policy.tpm time)),
      .ok (.bool true)⟩ ∈ D.history t tr
  endorsement : ∃ key signature message,
    bytesFromHex (D.broker b).policy.manifest.identityPublicHex = .ok key ∧
    bytesFromHex a.request.identitySignature = .ok signature ∧
    a.request.signingBytes D.lib = .ok message ∧
    ⟨.lib (.ed25519Verify key signature message), .ok ()⟩ ∈ D.history t tr

/-- A released appraiser has covered every allowed issuance. -/
theorem AllowedIssue.covered (h : D.system.Run .initial tr s)
    (hb : (D.broker b).tpmAppraiser = .released) (ha : AllowedIssue tr t b a d) :
    Covered tr t b a := by
  obtain ⟨_, h₀, h₁, hown, _, happraised, _⟩ := ha.granted h
  have hsub : h₀ ⊆ D.history t tr := by
    rw [hown]
    exact List.subset_append_left _ _
  obtain ⟨qualifyingData, hdata, haccepted⟩ := happraised.tpm
  rw [hb] at haccepted
  obtain ⟨_, time, hquote⟩ := haccepted
  obtain ⟨key, signature, message, hkey, hsignature, hmessage, hverify⟩ :=
    happraised.identity.endorsed
  exact ⟨⟨qualifyingData, time, hdata, hsub hquote⟩,
    ⟨key, signature, message, hkey, hsignature, hmessage, hsub hverify⟩⟩

/-- The transcript of an allowed issuance is among those of the run. -/
theorem AllowedIssue.transcript (ha : AllowedIssue tr t b a d) {data : Bytes}
    (hdata : canonicalJson D.lib a.request.toDict = .ok data) :
    issuanceDomain ++ data ∈ D.transcripts tr := by
  obtain ⟨raw, manifest, rawEvidence, hc, htyped⟩ := ha.called
  refine List.mem_filterMap.mpr ⟨_, hc, ?_⟩
  simp [transcript?, htyped.request, hdata, Except.toOption]

/-- The same evidence covers the same request. -/
theorem request_of_evidence (hu : D.Unforgeable tr) (hinj : CanonicalInjective D.lib)
    (ha : AllowedIssue tr t b a d) (ha' : AllowedIssue tr t' b a' d') (hc : Covered tr t b a)
    (hc' : Covered tr t' b a') (he : a.evidence = a'.evidence) : a.request = a'.request := by
  obtain ⟨qualifyingData, time, hdata, hquote⟩ := hc.quote
  obtain ⟨qualifyingData', time', hdata', hquote'⟩ := hc'.quote
  obtain ⟨x, hx⟩ := System.mem_own.mp hquote
  obtain ⟨x', hx'⟩ := System.mem_own.mp hquote'
  have hsame : qualifyingData = qualifyingData' := by
    apply hu.quote _ (List.mem_filterMap.mpr ⟨_, hx, rfl⟩) _ (List.mem_filterMap.mpr ⟨_, hx', rfl⟩)
    · exact congrArg TpmEvidence.attest he
    · exact congrArg TpmEvidence.signature he
    · exact congrArg TpmEvidence.akChainPem he
  -- The two qualifying data are digests of two transcripts of the run.
  unfold issuanceQualifyingData at hdata hdata'
  obtain ⟨data, hjson, hd⟩ := bind_eq_ok.mp hdata
  obtain ⟨data', hjson', hd'⟩ := bind_eq_ok.mp hdata'
  cases hd
  cases hd'
  have htranscript := hu.transcript (ha.transcript hjson) (ha'.transcript hjson') hsame
  obtain rfl := List.append_cancel_left htranscript
  exact IssuanceRequest.eq_of_toDict hinj hjson hjson'

/-- The same endorsement covers the same signed fields. -/
theorem sameSigned_of_endorsement (hu : D.Unforgeable tr) (hinj : CanonicalInjective D.lib)
    (hc : Covered tr t b a) (hc' : Covered tr t' b a')
    (he : bytesFromHex a.request.identitySignature = bytesFromHex a'.request.identitySignature) :
    a.request.SameSigned a'.request := by
  obtain ⟨key, signature, message, hkey, hsignature, hmessage, hverify⟩ := hc.endorsement
  obtain ⟨key', signature', message', hkey', hsignature', hmessage', hverify'⟩ := hc'.endorsement
  rw [hkey, Except.ok.injEq] at hkey'
  rw [← he, hsignature, Except.ok.injEq] at hsignature'
  subst hkey'
  subst hsignature'
  obtain ⟨x, hx⟩ := System.mem_own.mp hverify
  obtain ⟨x', hx'⟩ := System.mem_own.mp hverify'
  have hsame : message = message' := hu.endorsement key signature message message'
    (List.mem_filterMap.mpr ⟨_, hx, rfl⟩) (List.mem_filterMap.mpr ⟨_, hx', rfl⟩)
  subst hsame
  exact IssuanceRequest.sameSigned_of_signingBytes hinj hmessage hmessage'

/-! ### The subject -/

/-- The credential of an allowed issuance names the holder key of its request. -/
theorem AllowedIssue.subject (h : D.system.Run .initial tr s) (hk : D.SubjectKept tr)
    (ha : AllowedIssue tr t b a d) : d.subject? = some (.str a.request.holderKey) := by
  obtain ⟨_, h₀, h₁, hown, _, _, now, credentialId, credential, body, _, _, hsign, hbody,
    hresult⟩ :=
    ha.granted h
  have hsub : h₁ ⊆ D.history t tr := by
    rw [hown]
    intro ev hev
    exact List.mem_append_right _ (List.mem_cons_of_mem _ hev)
  obtain ⟨x, hx⟩ := System.mem_own.mp (hsub hsign)
  obtain ⟨y, hy⟩ := System.mem_own.mp (hsub hbody)
  have hsubject : credential.subject = a.request.holderKey :=
    hk.sign (_, credential) (List.mem_filterMap.mpr ⟨_, hx, rfl⟩)
  have hmember : body.lookup (text "subject") = some (.str credential.subject) :=
    hk.body (credential, body) (List.mem_filterMap.mpr ⟨_, hy, rfl⟩)
  have hne : text "subject" ≠ text "signature" := by decide
  unfold Decision.subject?
  rw [hresult]
  simp only [Option.bind_eq_bind, Option.bind_some, Value.get?, List.lookup_cons_self]
  rw [Value.lookup_setMember_ne hne, hmember, hsubject]

/-- Evidence cannot be bound to another request, in every run of a broker with the released
appraiser: the same evidence comes with the same request, the same endorsement with the same
nine signed fields, either is good for one credential, and that credential's subject is the
holder key of the request they cover. -/
theorem evidence_not_rebound (h : D.system.Run .initial tr s)
    (hb : (D.broker b).tpmAppraiser = .released) (hu : D.Unforgeable tr)
    (law : Rfc8785 D.lib) (hk : D.SubjectKept tr) :
    (∀ t t' a a' d d', AllowedIssue tr t b a d → AllowedIssue tr t' b a' d' →
      (a.evidence = a'.evidence → a.request = a'.request ∧ t = t') ∧
      (bytesFromHex a.request.identitySignature = bytesFromHex a'.request.identitySignature →
        a.request.SameSigned a'.request ∧ t = t')) ∧
    (∀ t a d, AllowedIssue tr t b a d →
      Covered tr t b a ∧ d.subject? = some (.str a.request.holderKey)) := by
  have hinj := law.canonicalInjective
  refine ⟨?_, ?_⟩
  · intro t t' a a' d d' ha ha'
    have hc := ha.covered h hb
    have hc' := ha'.covered h hb
    refine ⟨fun he ↦ ?_, fun he ↦ ?_⟩
    · have hrequest := request_of_evidence hu hinj ha ha' hc hc' he
      exact ⟨hrequest, ha.eq_of_challenge h ha' (congrArg _ hrequest)⟩
    · have hsigned := sameSigned_of_endorsement hu hinj hc hc' he
      refine ⟨hsigned, ha.eq_of_challenge h ha' ?_⟩
      rw [hsigned]
  · intro t a d ha
    exact ⟨ha.covered h hb, ha.subject h hk⟩

end Deployment

namespace Demo

private theorem eq_of_nodup_keys {α β : Type*} [DecidableEq (α × β)] {l : List (α × β)}
    (h : (l.dedup.map Prod.fst).Nodup) {a : α} {b b' : β} (hb : (a, b) ∈ l) (hb' : (a, b') ∈ l) :
    b = b' :=
  congrArg Prod.snd
    (List.inj_on_of_nodup_map h (List.mem_dedup.mpr hb) (List.mem_dedup.mpr hb') rfl)

private theorem Functional.unforgeable {tr : deployment.Trace} (h : Functional tr) :
    deployment.Unforgeable tr where
  quote q hq q' hq' hattest hsignature hchain := by
    apply eq_of_nodup_keys h.1 (List.mem_map_of_mem hq)
    rw [hattest, hsignature, hchain]
    exact List.mem_map_of_mem hq'
  endorsement key signature _ _ hm hm' :=
    eq_of_nodup_keys (a := (key, signature)) h.2.1 (List.mem_map_of_mem hm)
      (List.mem_map_of_mem hm')
  transcript _ hx _ hy :=
    List.inj_on_of_nodup_map h.2.2 (List.mem_dedup.mpr hx) (List.mem_dedup.mpr hy)

private theorem Subjects.subjectKept {tr : deployment.Trace} (h : Subjects tr) :
    deployment.SubjectKept tr where
  sign := h.1
  body p hp := by
    have hany := h.2 p hp
    cases hl : p.2.lookup (text "subject") with
    | none => rw [hl] at hany; cases hany
    | some v =>
      rw [hl, Option.any_some] at hany
      cases v with
      | str t => rw [of_decide_eq_true hany]
      | none | bool | int | float | bytes | list | dict | object => cases hany

private theorem broker_twoIssuances {tr : deployment.Trace}
    (hmade : List.Forall₂ Move.Makes twoIssuances tr) {t b : Nat} {a : Submission} {d : Decision}
    (ha : Deployment.AllowedIssue tr t b a d) : b = 0 := by
  obtain ⟨raw, manifest, rawEvidence, hc, -⟩ := ha.called
  obtain ⟨m, hm, hmakes⟩ := exists_move_of_mem hmade hc
  cases m with
  | start t' c =>
    cases hmakes
    simp only [twoIssuances, replayedIssuance, issuance, Deployment.alone, List.mem_append,
      List.mem_cons, List.mem_replicate, Move.start.injEq, Call.issue.injEq, reduceCtorEq,
      and_false, or_false, false_or, List.not_mem_nil] at hm
    rcases hm with (⟨-, rfl, -⟩ | ⟨-, rfl, -⟩) | ⟨-, rfl, -⟩ <;> rfl
  | act t' x => cases hmakes.choose_spec.choose_spec
  | finish t' => cases hmakes.choose_spec
  | crash i => cases hmakes

end Demo

/-- The law at a run with two challenges and a replayed issuance: the two credentials rest on
different evidence, each on evidence of the request that it names the holder of. -/
theorem Deployment.evidence_not_rebound_issuances :
    ∃ tr s, Demo.deployment.system.Run .initial tr s ∧
      Demo.deployment.reasons tr = [(1, .ALLOW), (2, .CHALLENGE_CONSUMED), (4, .ALLOW)] ∧
      ∃ a d a' d', AllowedIssue tr 1 0 a d ∧ AllowedIssue tr 4 0 a' d' ∧
        a.evidence ≠ a'.evidence ∧
        bytesFromHex a.request.identitySignature ≠ bytesFromHex a'.request.identitySignature ∧
        (Covered tr 1 0 a ∧ d.subject? = some (.str a.request.holderKey)) ∧
        (Covered tr 4 0 a' ∧ d'.subject? = some (.str a'.request.holderKey)) := by
  obtain ⟨tr, s, hrun, hmade, hreasons, -, hgrants, -, -, -, -, hfunctional, hsubjects⟩ :=
    Demo.exists_twoIssuances
  have hmem : ∀ t ∈ [1, 4], t ∈ Demo.deployment.grants tr := fun t ht ↦ hgrants ▸ ht
  obtain ⟨b, a, d, ha⟩ := allowedIssue_of_grant hrun (hmem 1 (by decide))
  obtain ⟨b', a', d', ha'⟩ := allowedIssue_of_grant hrun (hmem 4 (by decide))
  obtain rfl := Demo.broker_twoIssuances hmade ha
  obtain rfl := Demo.broker_twoIssuances hmade ha'
  obtain ⟨hone, hcovered⟩ := evidence_not_rebound (b := 0) hrun rfl hfunctional.unforgeable
    rfc8785_standIn hsubjects.subjectKept
  have hrebound := hone 1 4 a a' d d' ha ha'
  exact ⟨tr, s, hrun, hreasons, a, d, a', d', ha, ha',
    fun he ↦ absurd (hrebound.1 he).2 (by decide), fun he ↦ absurd (hrebound.2 he).2 (by decide),
    hcovered 1 a d ha, hcovered 4 a' d' ha'⟩

end Atcap
