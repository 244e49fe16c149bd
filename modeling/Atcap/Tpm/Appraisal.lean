import Atcap.Tpm

/-!
# TPM appraisal, exactly

The certificate guard accepts a chain exactly when each certificate meets the profile of its
position, and `ReleasedTpmAppraiser.appraise` returns exactly when the selection, the guard and the
quote are accepted, each asked once and in this order.
-/

namespace Atcap

open Base

/-! ### The profile of a certificate -/

namespace Certificate

/-- The half-open validity window. -/
def CurrentAt (c : Certificate) (t : Int) : Prop := c.notValidBeforeUtc ≤ t ∧ t < c.notValidAfterUtc

/-- A CA certificate that may sign certificates. -/
def Authority (c : Certificate) : Prop :=
  ∃ constraints usage, c.basicConstraints = .ok constraints ∧ constraints.ca = true ∧
    c.keyUsage = .ok usage ∧ usage.keyCertSign = true

/-- The path length, if there is one, admits this many CA certificates below. -/
def AdmitsBelow (c : Certificate) (count : Nat) : Prop :=
  ∀ constraints pathLength, c.basicConstraints = .ok constraints →
    constraints.pathLength = some pathLength → (count : Int) ≤ pathLength

/-- The attestation key: no CA, and it signs data but no certificates. -/
def AttestationKey (c : Certificate) : Prop :=
  ∃ constraints usage, c.basicConstraints = .ok constraints ∧ constraints.ca = false ∧
    c.keyUsage = .ok usage ∧ usage.digitalSignature = true ∧ usage.keyCertSign = false

end Certificate

/-- The certificate at position `i + 1` of a chain is fit to issue the one below it; the terminal
one is a trust anchor and has no validity window. -/
def FitIssuer (c : Certificate) (i n : Nat) (t : Int) : Prop :=
  c.Authority ∧ c.AdmitsBelow i ∧ (i + 1 < n → c.CurrentAt t)

/-- A leaf-first chain `[leaf, c₁, …, cₙ]` with at least one issuer and the configured roots meet
the profile at an instant. -/
structure ProfileMet (chain roots : List Certificate) (t : Int) : Prop where
  issued : 2 ≤ chain.length
  rooted : roots ≠ []
  leaf : ∀ c, chain[0]? = some c → c.AttestationKey ∧ c.CurrentAt t
  issuers : ∀ i c, chain[i + 1]? = some c → FitIssuer c i (chain.length - 1) t
  roots : ∀ c ∈ roots, c.Authority

/-! ### The guard -/

variable {c : Certificate} {role : String} {t : Int} {chain roots : List Certificate}

private theorem requireCurrent_eq_ok {u : Unit} :
    requireCurrent c role t = .ok u ↔ c.CurrentAt t := by
  rw [requireCurrent, raiseIf_eq_ok, Certificate.CurrentAt]
  omega

private theorem requiredBasicConstraints_eq_ok {constraints : BasicConstraints} :
    requiredBasicConstraints c role = .ok constraints ↔ c.basicConstraints = .ok constraints :=
  mapError_eq_ok

private theorem requiredKeyUsage_eq_ok {usage : KeyUsage} :
    requiredKeyUsage c role = .ok usage ↔ c.keyUsage = .ok usage := mapError_eq_ok

/-- What the leaf is checked for. -/
theorem checkLeaf_eq_ok {u : Unit} :
    checkLeaf c t = .ok u ↔ c.AttestationKey ∧ c.CurrentAt t := by
  simp only [checkLeaf, bind_eq_ok, requireCurrent_eq_ok, requiredBasicConstraints_eq_ok,
    requiredKeyUsage_eq_ok, raiseIf_eq_ok, Certificate.AttestationKey]
  constructor
  · rintro ⟨_, hcurrent, constraints, hconstraints, _, hca, usage, husage, hsigns⟩
    refine ⟨⟨constraints, usage, hconstraints, by simpa using hca, husage, ?_⟩, hcurrent⟩
    simpa using hsigns
  · rintro ⟨⟨constraints, usage, hconstraints, hca, husage, hsigns⟩, hcurrent⟩
    refine ⟨(), hcurrent, constraints, hconstraints, (), by simpa using hca, usage, husage, ?_⟩
    simpa using hsigns

/-- What every CA certificate is checked for. -/
theorem checkAuthority_eq_ok {constraints : BasicConstraints} :
    checkAuthority c role = .ok constraints ↔
      c.Authority ∧ c.basicConstraints = .ok constraints := by
  simp only [checkAuthority, bind_eq_ok, requiredBasicConstraints_eq_ok, requiredKeyUsage_eq_ok,
    raiseIf_eq_ok, Certificate.Authority]
  constructor
  · rintro ⟨constraints', hconstraints, _, hca, usage, husage, _, hsigns, heq⟩
    cases heq
    exact ⟨⟨constraints, usage, hconstraints, by simpa using hca, husage, by simpa using hsigns⟩,
      hconstraints⟩
  · rintro ⟨⟨constraints', usage, hconstraints', hca, husage, hsigns⟩, hconstraints⟩
    rw [hconstraints, Except.ok.injEq] at hconstraints'
    subst hconstraints'
    exact ⟨constraints, hconstraints, (), by simpa using hca, usage, husage, (),
      by simpa using hsigns, rfl⟩

/-- What the issuer at a position is checked for. -/
theorem checkIssuer_eq_ok {i last : Nat} {u : Unit} :
    checkIssuer c (i + 1) last t = .ok u ↔ FitIssuer c i last t := by
  simp only [checkIssuer, bind_eq_ok, raiseIf_eq_ok, checkAuthority_eq_ok, FitIssuer]
  constructor
  · rintro ⟨_, hcurrent, constraints, ⟨hauthority, hconstraints⟩, hpath⟩
    refine ⟨hauthority, ?_, ?_⟩
    · intro constraints' pathLength hconstraints' hlength
      rw [hconstraints, Except.ok.injEq] at hconstraints'
      subst hconstraints'
      rw [hlength] at hpath
      simp only [Option.any_some, decide_eq_true_eq] at hpath
      omega
    · intro hlast
      rw [if_pos hlast] at hcurrent
      exact requireCurrent_eq_ok.mp hcurrent
  · rintro ⟨hauthority, hadmits, hcurrent⟩
    obtain ⟨constraints, usage, hconstraints, _⟩ := id hauthority
    refine ⟨(), ?_, constraints, ⟨hauthority, hconstraints⟩, ?_⟩
    · by_cases hlast : i + 1 < last
      · rw [if_pos hlast]
        exact requireCurrent_eq_ok.mpr (hcurrent hlast)
      · rw [if_neg hlast]
    · intro hpath
      cases hlength : constraints.pathLength with
      | none =>
        rw [hlength] at hpath
        cases hpath
      | some pathLength =>
        have hle := hadmits constraints pathLength hconstraints hlength
        rw [hlength] at hpath
        simp only [Option.any_some, decide_eq_true_eq] at hpath
        omega

/-- The loop checks the issuer at every position, counted from the one it starts at. -/
theorem checkIssuers_eq_ok {issuers : List Certificate} {start last : Nat}
    {u : Unit} : checkIssuers (start + 1) last t issuers = .ok u ↔
      ∀ i c, issuers[i]? = some c → FitIssuer c (start + i) last t := by
  induction issuers generalizing start with
  | nil => simp [checkIssuers]
  | cons issuer rest ih =>
    simp only [checkIssuers, bind_eq_ok, checkIssuer_eq_ok, ih]
    constructor
    · rintro ⟨_, hfirst, hrest⟩ i c hc
      cases i with
      | zero =>
        obtain rfl : issuer = c := by simpa using hc
        exact hfirst
      | succ i =>
        have hfit := hrest i c (by simpa using hc)
        rwa [Nat.add_right_comm] at hfit
    · intro h
      refine ⟨(), h 0 issuer rfl, ?_⟩
      intro i c hc
      have hfit := h (i + 1) c (by simpa using hc)
      rwa [Nat.add_right_comm]

/-- The loop over the roots checks every one. -/
theorem checkRoots_eq_ok {index : Nat} {u : Unit} :
    checkRoots index roots = .ok u ↔ ∀ c ∈ roots, c.Authority := by
  induction roots generalizing index with
  | nil => simp [checkRoots]
  | cons root rest ih =>
    simp only [checkRoots, bind_eq_ok, checkAuthority_eq_ok, ih, List.forall_mem_cons]
    constructor
    · rintro ⟨constraints, ⟨hauthority, _⟩, hrest⟩
      exact ⟨hauthority, hrest⟩
    · rintro ⟨hauthority, hrest⟩
      obtain ⟨constraints, usage, hconstraints, _⟩ := id hauthority
      exact ⟨constraints, ⟨hauthority, hconstraints⟩, hrest⟩

/-- The checks of a parsed chain and of at least one root are the profile. -/
theorem checkChain_eq_ok (hroots : roots ≠ []) :
    checkChain chain roots t = .ok () ↔ ProfileMet chain roots t := by
  match chain with
  | [] =>
    refine ⟨nofun, fun h ↦ ?_⟩
    have hlength := h.issued
    simp at hlength
  | [leaf] =>
    refine ⟨nofun, fun h ↦ ?_⟩
    have hlength := h.issued
    simp at hlength
  | leaf :: issuer :: rest =>
    have hissuers : ∀ {u : Unit}, checkIssuers 1 (rest.length + 1) t (issuer :: rest) = .ok u ↔
        ∀ i c, (issuer :: rest)[i]? = some c → FitIssuer c i (rest.length + 1) t := by
      intro u
      have hloop : checkIssuers (0 + 1) (rest.length + 1) t (issuer :: rest) = .ok u ↔ _ :=
        checkIssuers_eq_ok
      simpa only [Nat.zero_add] using hloop
    simp only [checkChain, bind_eq_ok, checkLeaf_eq_ok, hissuers, checkRoots_eq_ok]
    constructor
    · rintro ⟨_, hleaf, _, hfit, hall⟩
      refine ⟨by simp, hroots, ?_, hfit, hall⟩
      intro c hc
      obtain rfl : leaf = c := by simpa using hc
      exact hleaf
    · intro h
      exact ⟨(), h.leaf leaf rfl, (), h.issuers, h.roots⟩

/-! ### What the guard reads -/

/-- Every reply of a package is the one of a function of the call. -/
def AnsweredBy (answers : (c : LibCall) → Except Exn c.Result) (_ : History) :
    Event Op Op.Reply → Prop
  | ⟨.lib c, reply⟩ => reply = answers c
  | _ => True

/-- The PEM texts parse to a chain and roots that meet the profile at an instant. -/
def GuardAccepts (answers : (c : LibCall) → Except Exn c.Result)
    (akChainPem trustedRootsPem : Bytes) (t : Int) : Prop :=
  akChainPem ≠ [] ∧ trustedRootsPem ≠ [] ∧ ∃ chain roots,
    answers (.loadPemX509Certificates akChainPem) = .ok chain ∧
    answers (.loadPemX509Certificates trustedRootsPem) = .ok roots ∧ ProfileMet chain roots t

/-- The chain and then the roots were parsed. -/
def parsed (akChainPem trustedRootsPem : Bytes) (chain roots : List Certificate) : History :=
  [⟨.lib (.loadPemX509Certificates akChainPem), .ok chain⟩,
    ⟨.lib (.loadPemX509Certificates trustedRootsPem), .ok roots⟩]

section Guard

variable {answers : (c : LibCall) → Except Exn c.Result}
  {A : History → Event Op Op.Reply → Prop} {G : History → Op → Prop} {L : Type} {l : L}
  {h : History} {akChainPem trustedRootsPem : Bytes} {evaluationTime : DateTime}

/-- `_load_certificates` returns the certificates that were parsed, if there are any. -/
theorem loadCertificates_exact {pem : Bytes} {label : String}
    (hA : ∀ h c r, A h ⟨.lib c, r⟩ → r = answers c)
    (hG : ∀ h pem, G h (.lib (.loadPemX509Certificates pem))) :
    Body.Sat A G (fun h' r _ ↦
      (∀ certificates, r = .ok certificates ↔ pem ≠ [] ∧
        answers (.loadPemX509Certificates pem) = .ok certificates ∧ certificates ≠ []) ∧
      ∀ certificates, r = .ok certificates →
        h' = h ++ [⟨.lib (.loadPemX509Certificates pem), .ok certificates⟩])
      (loadCertificates pem label) h l := by
  unfold loadCertificates callLibExcept
  apply Body.Sat.raiseIf
  · intro hpem
    refine ⟨?_, nofun⟩
    intro certificates
    exact ⟨nofun, fun hok ↦ absurd hpem hok.1⟩
  intro hpem
  apply Body.Sat.invoke (hG _ _)
  · intro reply e hanswer he
    refine ⟨?_, nofun⟩
    intro certificates
    refine ⟨nofun, ?_⟩
    rintro ⟨_, hok, _⟩
    rw [hA _ _ _ hanswer, hok] at he
    cases he
  intro reply certificates hanswer hcertificates
  rw [mapError_eq_ok] at hcertificates
  subst hcertificates
  have hparsed : .ok certificates = answers (.loadPemX509Certificates pem) := hA _ _ _ hanswer
  apply Body.Sat.raiseIf
  · intro hempty
    refine ⟨?_, nofun⟩
    intro certificates'
    refine ⟨nofun, ?_⟩
    rintro ⟨_, hok, hne⟩
    rw [← hparsed, Except.ok.injEq] at hok
    rw [hok] at hempty
    exact absurd (List.isEmpty_iff.mp hempty) hne
  · intro hne
    rw [List.isEmpty_iff] at hne
    constructor
    · intro certificates'
      rw [← hparsed, Except.ok.injEq]
      constructor
      · intro heq
        exact ⟨hpem, heq, heq ▸ hne⟩
      · rintro ⟨_, heq, _⟩
        exact heq
    · intro certificates' heq
      cases heq
      rfl

/-- The guard accepts at an instant exactly when what it parses meets the profile then. -/
theorem enforceSyntheticAkCertificatePolicy_exact
    (hA : ∀ h c r, A h ⟨.lib c, r⟩ → r = answers c)
    (hG : ∀ h pem, G h (.lib (.loadPemX509Certificates pem))) :
    Body.Sat A G (fun h' r _ ↦
      (∀ t, r = .ok t ↔
        evaluationTime = .aware t ∧ GuardAccepts answers akChainPem trustedRootsPem t) ∧
      ∀ t, r = .ok t → ∃ chain roots,
        h' = h ++ parsed akChainPem trustedRootsPem chain roots ∧ ProfileMet chain roots t)
      (enforceSyntheticAkCertificatePolicy akChainPem trustedRootsPem evaluationTime) h l := by
  unfold enforceSyntheticAkCertificatePolicy
  apply Body.Sat.ofExcept
  · intro e he
    refine ⟨?_, nofun⟩
    intro t
    refine ⟨nofun, ?_⟩
    rintro ⟨rfl, _⟩
    cases he
  intro now hnow
  obtain rfl : evaluationTime = .aware now := by
    cases evaluationTime with
    | aware instant =>
      cases hnow
      rfl
    | naive => cases hnow
    | malformed => cases hnow
  apply Body.Sat.bind (loadCertificates_exact hA hG)
  · rintro h₁ e l₁ _ ⟨hchain, _⟩
    refine ⟨?_, nofun⟩
    intro t
    refine ⟨nofun, ?_⟩
    rintro ⟨_, hpem, _, chain, roots, hparsed, _, hmet⟩
    have hne : chain ≠ [] := List.ne_nil_of_length_pos (Nat.zero_lt_of_lt hmet.issued)
    cases (hchain chain).mpr ⟨hpem, hparsed, hne⟩
  rintro h₁ chain l₁ _ ⟨hchain, hhistory⟩
  obtain rfl := hhistory chain rfl
  obtain ⟨hpem, hparsed, _⟩ := (hchain chain).mp rfl
  apply Body.Sat.bind (loadCertificates_exact hA hG)
  · rintro h₂ e l₂ _ ⟨hroots, _⟩
    refine ⟨?_, nofun⟩
    intro t
    refine ⟨nofun, ?_⟩
    rintro ⟨_, _, hpem₂, _, roots, _, hparsed₂, hmet⟩
    cases (hroots roots).mpr ⟨hpem₂, hparsed₂, hmet.rooted⟩
  rintro h₂ roots l₂ _ ⟨hroots, hhistory₂⟩
  obtain rfl := hhistory₂ roots rfl
  obtain ⟨hpem₂, hparsed₂, hrooted⟩ := (hroots roots).mp rfl
  have haccepts : ∀ t, GuardAccepts answers akChainPem trustedRootsPem t ↔
      ProfileMet chain roots t := by
    intro t
    constructor
    · rintro ⟨_, _, chain', roots', hchain', hroots', hmet⟩
      rw [hparsed, Except.ok.injEq] at hchain'
      rw [hparsed₂, Except.ok.injEq] at hroots'
      rw [hchain', hroots']
      exact hmet
    · intro hmet
      exact ⟨hpem, hpem₂, chain, roots, hparsed, hparsed₂, hmet⟩
  simp only [haccepts]
  apply Body.Sat.ofExcept
  · intro e he
    refine ⟨?_, nofun⟩
    intro t
    refine ⟨nofun, ?_⟩
    rintro ⟨htime, hmet⟩
    cases htime
    rw [(checkChain_eq_ok hrooted).mpr hmet] at he
    cases he
  intro u hu
  have hmet := (checkChain_eq_ok hrooted).mp hu
  constructor
  · intro t
    rw [Except.ok.injEq, DateTime.aware.injEq]
    constructor
    · rintro rfl
      exact ⟨rfl, hmet⟩
    · rintro ⟨rfl, _⟩
      rfl
  · intro t ht
    cases ht
    exact ⟨chain, roots, by simp [parsed], hmet⟩

end Guard

/-! ### The appraiser -/

section Appraiser

variable {answers : (c : LibCall) → Except Exn c.Result}
  {A : History → Event Op Op.Reply → Prop} {h₀ : History} {evidence : TpmEvidence}
  {expectedQualifyingData : Bytes} {policy : TpmPolicy}

/-- The selection, the instant, the guard and the quote at that instant are accepted. -/
def AppraisalAccepts (answers : (c : LibCall) → Except Exn c.Result) (evidence : TpmEvidence)
    (expectedQualifyingData : Bytes) (policy : TpmPolicy) (t : Int) : Prop :=
  answers (.readPcrSelection evidence.attest) = .ok policy.selection ∧
  answers .evaluationTime = .ok (.aware t) ∧
  GuardAccepts answers evidence.akChainPem policy.trustedRootsPem t ∧
  answers (.verifyTpmQuote (quoteCheck evidence expectedQualifyingData policy t)) =
    .ok (.bool true)

/-- What has been asked and answered before the quote is verified at an instant. -/
def prepared (evidence : TpmEvidence) (policy : TpmPolicy) (t : Int)
    (chain roots : List Certificate) : History :=
  ⟨.lib (.readPcrSelection evidence.attest), .ok policy.selection⟩ ::
    ⟨.lib .evaluationTime, .ok (.aware t)⟩ ::
      parsed evidence.akChainPem policy.trustedRootsPem chain roots

/-- What `appraise` guarantees of the questions it asks after `h₀`: the evaluation time is read
after an approved selection, and the quote is verified after everything else, at the instant that
was read. -/
def AppraisalOrder (h₀ : History) (evidence : TpmEvidence) (expectedQualifyingData : Bytes)
    (policy : TpmPolicy) (h : History) : Op → Prop
  | .lib .evaluationTime =>
    h = h₀ ++ [⟨.lib (.readPcrSelection evidence.attest), .ok policy.selection⟩]
  | .lib (.verifyTpmQuote check) => ∃ t chain roots,
      h = h₀ ++ prepared evidence policy t chain roots ∧ ProfileMet chain roots t ∧
        check = quoteCheck evidence expectedQualifyingData policy t
  | _ => True

/-- The evaluation time and the certificates are read, and the chain meets the profile. -/
theorem evaluateChain_exact (hA : ∀ h c r, A h ⟨.lib c, r⟩ → r = answers c) :
    Body.Sat A (AppraisalOrder h₀ evidence expectedQualifyingData policy)
      (fun h' r _ ↦
        (∀ t, r = .ok t ↔ answers .evaluationTime = .ok (.aware t) ∧
          GuardAccepts answers evidence.akChainPem policy.trustedRootsPem t) ∧
        ∀ t, r = .ok t → ∃ chain roots,
          h' = h₀ ++ prepared evidence policy t chain roots ∧ ProfileMet chain roots t)
      (evaluateChain evidence policy)
      (h₀ ++ [⟨.lib (.readPcrSelection evidence.attest), .ok policy.selection⟩]) () := by
  unfold evaluateChain callLib
  apply Body.Sat.invoke rfl
  · rintro reply e hanswer rfl
    have htime : .error e = answers .evaluationTime := hA _ _ _ hanswer
    refine ⟨?_, nofun⟩
    intro t
    rw [← htime]
    exact ⟨nofun, fun h ↦ nomatch h.1⟩
  rintro reply evaluationTime hanswer rfl
  have htime : .ok evaluationTime = answers .evaluationTime := hA _ _ _ hanswer
  apply (enforceSyntheticAkCertificatePolicy_exact hA fun _ _ ↦ trivial).mono
  rintro h' r _ ⟨hexact, hhistory⟩
  constructor
  · intro t
    rw [← htime, Except.ok.injEq]
    exact hexact t
  · intro t ht
    obtain ⟨chain, roots, rfl, hmet⟩ := hhistory t ht
    obtain ⟨rfl, _⟩ := (hexact t).mp ht
    exact ⟨chain, roots, by simp [prepared], hmet⟩

/-- `appraise` returns exactly when everything is accepted. -/
theorem appraiseReleased_exact {L : Type} {l : L}
    (hA : ∀ h c r, A h ⟨.lib c, r⟩ → r = answers c) :
    Body.Sat A (AppraisalOrder h₀ evidence expectedQualifyingData policy)
      (fun _ r l' ↦ l' = l ∧ (r = .ok () ↔
        ∃ t, AppraisalAccepts answers evidence expectedQualifyingData policy t))
      (appraiseReleased evidence expectedQualifyingData policy : Py L Unit) h₀ l := by
  unfold appraiseReleased callLibExcept
  apply Body.Sat.invoke trivial
  · intro reply e hanswer he
    refine ⟨rfl, nofun, ?_⟩
    rintro ⟨t, hselection, _⟩
    rw [hA _ _ _ hanswer, hselection] at he
    cases he
  intro reply selection hanswer hselection
  rw [mapError_eq_ok] at hselection
  subst hselection
  have hread : .ok selection = answers (.readPcrSelection evidence.attest) := hA _ _ _ hanswer
  apply Body.Sat.raiseIf
  · intro hne
    refine ⟨rfl, nofun, ?_⟩
    rintro ⟨t, hselection, _⟩
    rw [← hread, Except.ok.injEq] at hselection
    exact absurd hselection hne
  intro heq
  rw [Decidable.not_not] at heq
  subst heq
  apply Body.Sat.attempt (evaluateChain_exact hA)
  rintro h₁ outcome _ _ ⟨hexact, hhistory⟩
  apply Body.Sat.ofExcept
  · intro e he
    refine ⟨rfl, nofun, ?_⟩
    rintro ⟨t, _, htime, hguard, _⟩
    rw [(hexact t).mpr ⟨htime, hguard⟩] at he
    cases he
  intro t ht
  rw [mapError_eq_ok] at ht
  obtain ⟨chain, roots, rfl, hmet⟩ := hhistory t ht
  obtain ⟨htime, hguard⟩ := (hexact t).mp ht
  have hinstant : ∀ t', AppraisalAccepts answers evidence expectedQualifyingData policy t' →
      t = t' := by
    rintro t' ⟨_, htime', _⟩
    rw [htime, Except.ok.injEq, DateTime.aware.injEq] at htime'
    exact htime'
  apply Body.Sat.invoke ⟨t, chain, roots, rfl, hmet, rfl⟩
  · intro reply e hquote he
    refine ⟨rfl, nofun, ?_⟩
    rintro ⟨t', haccepts⟩
    obtain rfl := hinstant t' haccepts
    rw [hA _ _ _ hquote, haccepts.2.2.2] at he
    cases he
  intro reply verified hquote hverified
  rw [mapError_eq_ok] at hverified
  subst hverified
  have hverify : .ok verified =
      answers (.verifyTpmQuote (quoteCheck evidence expectedQualifyingData policy t)) :=
        hA _ _ _ hquote
  rw [Body.raiseIf, Body.sat_ofExcept, raiseIf_eq_ok, Bool.not_eq_false]
  refine ⟨rfl, ?_, ?_⟩
  · intro htrue
    obtain rfl : verified = .bool true := by
      unfold isTrue at htrue
      split at htrue
      · rw [htrue]
      · cases htrue
    exact ⟨t, hread.symm, htime, hguard, hverify.symm⟩
  · rintro ⟨t', haccepts⟩
    obtain rfl := hinstant t' haccepts
    have htrue := haccepts.2.2.2
    rw [← hverify, Except.ok.injEq] at htrue
    rw [htrue]
    rfl

/-- The evaluation time is read. -/
def Op.readsTime : Op → Bool
  | .lib .evaluationTime => true
  | _ => false

private theorem countP_le_one {p : Event Op Op.Reply → Bool} {h : History}
    (hsecond : ∀ pre ev post, h = pre ++ ev :: post → p ev = true → pre.length = 1) :
    h.countP p ≤ 1 := by
  match h with
  | [] => simp
  | first :: [] => exact List.countP_le_length
  | first :: second :: rest =>
    have hfirst : p first = false := by
      by_contra hp
      have hlength := hsecond [] first (second :: rest) rfl (by simpa using hp)
      simp at hlength
    have hrest : rest.countP p = 0 := by
      rw [List.countP_eq_zero]
      intro ev hev hp
      obtain ⟨pre, post, rfl⟩ := List.append_of_mem hev
      have hlength := hsecond (first :: second :: pre) ev post rfl hp
      simp at hlength
    rw [List.countP_cons, List.countP_cons, hrest, hfirst]
    split <;> simp

/-- TPM appraisal, exactly, for every answer of the packages: `appraise` returns if and only if the
selection, the instant, the guard and the quote at this instant are accepted; the quote is verified
only after everything else was, and the evaluation time is read at most once; and the guard accepts
parsed certificates at an instant if and only if they meet the profile. -/
theorem appraisal_exact (answers : (c : LibCall) → Except Exn c.Result) :
    (∀ evidence expectedQualifyingData policy h r,
      (appraiseReleased evidence expectedQualifyingData policy : Py Unit Unit).prog.Path h
        (.done r) → Prog.Relies (AnsweredBy answers) h →
      (r = .ok () ↔ ∃ t, AppraisalAccepts answers evidence expectedQualifyingData policy t) ∧
      (∀ pre check reply post, h = pre ++ ⟨.lib (.verifyTpmQuote check), reply⟩ :: post →
        ∃ t chain roots, pre = prepared evidence policy t chain roots ∧ ProfileMet chain roots t ∧
          check = quoteCheck evidence expectedQualifyingData policy t) ∧
      h.countP (fun ev ↦ ev.op.readsTime) ≤ 1) ∧
    (∀ akChainPem trustedRootsPem evaluationTime chain roots h r,
      (enforceSyntheticAkCertificatePolicy akChainPem trustedRootsPem evaluationTime :
        Py Unit Int).prog.Path h (.done r) → Prog.Relies (AnsweredBy answers) h →
      akChainPem ≠ [] → trustedRootsPem ≠ [] →
      answers (.loadPemX509Certificates akChainPem) = .ok chain →
      answers (.loadPemX509Certificates trustedRootsPem) = .ok roots →
      ∀ t, r = .ok t ↔ evaluationTime = .aware t ∧ ProfileMet chain roots t) := by
  have hanswered : ∀ h c r, AnsweredBy answers h ⟨.lib c, r⟩ → r = answers c := fun _ _ _ hr ↦ hr
  constructor
  · intro evidence expectedQualifyingData policy h r hpath hrelies
    have hexact : (appraiseReleased evidence expectedQualifyingData policy :
        Py Unit Unit).prog.Sat (AnsweredBy answers)
          (AppraisalOrder [] evidence expectedQualifyingData policy) (fun _ r ↦ r = .ok () ↔
            ∃ t, AppraisalAccepts answers evidence expectedQualifyingData policy t) [] := by
      apply Body.sat_prog.mpr
      apply (appraiseReleased_exact hanswered).mono
      intro _ _ _ hr
      exact hr.2
    have horder : ∀ pre ev post, h = pre ++ ev :: post →
        AppraisalOrder [] evidence expectedQualifyingData policy pre ev.op := by
      intro pre ev post he
      rw [he] at hrelies
      exact hexact.guarantee hpath he hrelies.left
    refine ⟨hexact.path hpath hrelies, ?_, ?_⟩
    · intro pre check reply post he
      exact horder pre _ post he
    · apply countP_le_one
      rintro pre ⟨op, reply⟩ post he hreads
      have hone := horder pre _ post he
      unfold Op.readsTime at hreads
      split at hreads
      · next hop =>
        dsimp only at hop hone
        subst hop
        change pre = _ at hone
        rw [hone]
        rfl
      · cases hreads
  · intro akChainPem trustedRootsPem evaluationTime chain roots h r hpath hrelies hpem hpem' hchain
      hroots t
    have hexact : (enforceSyntheticAkCertificatePolicy akChainPem trustedRootsPem evaluationTime :
        Py Unit Int).prog.Sat (AnsweredBy answers) (fun _ _ ↦ True) _ [] :=
      Body.sat_prog.mpr (enforceSyntheticAkCertificatePolicy_exact hanswered fun _ _ ↦ trivial)
    rw [(hexact.path hpath hrelies).1 t]
    constructor
    · rintro ⟨htime, _, _, chain', roots', hchain', hroots', hmet⟩
      rw [hchain, Except.ok.injEq] at hchain'
      rw [hroots, Except.ok.injEq] at hroots'
      rw [hchain', hroots']
      exact ⟨htime, hmet⟩
    · rintro ⟨htime, hmet⟩
      exact ⟨htime, hpem, hpem', chain, roots, hchain, hroots, hmet⟩

end Appraiser

namespace Demo

/-- An attestation key. -/
def akLeaf : Certificate := ⟨0, 10, .ok ⟨false, none⟩, .ok ⟨true, false⟩⟩

/-- A root that admits no CA certificate below it and whose validity window is empty. -/
def akRoot : Certificate := ⟨0, 0, .ok ⟨true, some 0⟩, .ok ⟨false, true⟩⟩

/-- Packages that accept a quote at the instant 5. -/
def akAnswers : (c : LibCall) → Except Exn c.Result
  | .readPcrSelection _ => .ok []
  | .evaluationTime => .ok (.aware 5)
  | .loadPemX509Certificates pem => .ok (if pem = [3] then [akRoot] else [akLeaf, akRoot])
  | .verifyTpmQuote _ => .ok (.bool true)
  | _ => .error .other

/-- Evidence with a chain under the root. -/
def akEvidence : TpmEvidence := ⟨[1], [2], [4]⟩

/-- A policy that trusts the root. -/
def akPolicy : TpmPolicy := ⟨[], [], [3]⟩

end Demo

/-- The law at a chain of two certificates: the expired root is no obstacle to the guard. -/
theorem appraisal_exact_root :
    ∃ h, (appraiseReleased Demo.akEvidence [] Demo.akPolicy : Py Unit Unit).prog.Path h
        (.done (.ok ())) ∧ Prog.Relies (AnsweredBy Demo.akAnswers) h ∧
      ∃ t, AppraisalAccepts Demo.akAnswers Demo.akEvidence [] Demo.akPolicy t := by
  let h : History := prepared Demo.akEvidence Demo.akPolicy 5 [Demo.akLeaf, Demo.akRoot]
    [Demo.akRoot] ++ [⟨.lib (.verifyTpmQuote (quoteCheck Demo.akEvidence [] Demo.akPolicy 5)),
      .ok (.bool true)⟩]
  have hpath : (appraiseReleased Demo.akEvidence [] Demo.akPolicy : Py Unit Unit).prog.Path h
      (.done (.ok ())) :=
    .cons _ (.cons _ (.cons _ (.cons _ (.cons _ (.nil _)))))
  have hrelies : Prog.Relies (AnsweredBy Demo.akAnswers) h := by
    intro pre ev post he
    have hmem : ev ∈ h := by
      rw [he]
      simp
    simp only [h, prepared, parsed, List.cons_append, List.nil_append, List.mem_cons,
      List.not_mem_nil, or_false] at hmem
    rcases hmem with rfl | rfl | rfl | rfl | rfl <;> rfl
  exact ⟨h, hpath, hrelies,
    (((appraisal_exact Demo.akAnswers).1 _ _ _ h _ hpath hrelies).1).mp rfl⟩

end Atcap
