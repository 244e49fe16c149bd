import Atcap.Lab.Record

/-!
# Byte-exact projections

A strict model that accepts a canonical document dumps to the same document: no field has a
default that a dump would add, a coercion that it would change or a member that it would lose. So
the bytes a wire parser accepts are the canonical encoding of what it returns, and the files of an
evidence bundle are those of its signed record.
-/

namespace Atcap

open Base

/-! ### Readers that lose nothing -/

namespace Strict

/-- Two values that differ in the order of members only, without a floating-point number. -/
def Mirrored (v w : Value) : Prop := Json.sorted v = Json.sorted w ∧ Json.floatFree v = true

/-- A reader of canonical values whose dump is the value that was read. -/
def Mirrors {α : Type} (read : Value → Except Exn α) (dump : α → Value) : Prop :=
  ∀ v a, v.distinctKeys = true → Json.canonicalizable v = true → read v = .ok a →
    Mirrored v (dump a)

/-- A member of an object holds the value of a dump. -/
def MirrorsAt (m : List (Text × Value)) (q : Text × Value) : Prop :=
  ∃ w, m.lookup q.1 = some w ∧
    (w.distinctKeys = true → Json.canonicalizable w = true → Mirrored w q.2)

variable {α : Type} {read : Value → Except Exn α} {dump : α → Value}

/-- A reader that inverts a dump without floating-point numbers. -/
theorem Reads.mirrors (h : Reads read dump) (hf : ∀ a, Json.floatFree (dump a) = true) :
    Mirrors read dump := by
  intro v a _ _ hread
  rw [(h v a).mp hread]
  exact ⟨rfl, hf a⟩

/-- A text is dumped as it was read. -/
theorem mirrors_str : Mirrors str .str := reads_str.mirrors fun _ ↦ rfl

/-- An integer is dumped as it was read. -/
theorem mirrors_int : Mirrors int .int := reads_int.mirrors fun _ ↦ rfl

/-- A flag is dumped as it was read. -/
theorem mirrors_bool : Mirrors bool .bool := reads_bool.mirrors fun _ ↦ rfl

/-- A reason is dumped as it was read. -/
theorem mirrors_knownReason : Mirrors knownReason fun r ↦ .str r.value :=
  reads_knownReason.mirrors fun _ ↦ rfl

/-- A constraint changes nothing. -/
theorem Mirrors.refine (h : Mirrors read dump) (p : α → Bool) :
    Mirrors (refine p read) fun a ↦ dump a.val := by
  intro v a hk hc hread
  simp only [Strict.refine, bind_eq_ok] at hread
  obtain ⟨b, hb, hread⟩ := hread
  split at hread
  · cases hread
    exact h v b hk hc hb
  · cases hread

/-- `None` is dumped as `null`. -/
theorem Mirrors.optional (h : Mirrors read dump) :
    Mirrors (optional read) (Lab.dumpOptional dump) := by
  intro v a hk hc hread
  unfold Strict.optional at hread
  split at hread
  · cases hread
    exact ⟨rfl, rfl⟩
  · cases hb : read v with
    | error e =>
      rw [hb] at hread
      cases hread
    | ok b =>
      rw [hb] at hread
      cases hread
      exact h v b hk hc hb

/-- A literal is dumped as it is. -/
theorem mirrors_literal (t : Text) : Mirrors (literal t) fun _ ↦ .str t := by
  intro v a hk hc hread
  simp only [literal, bind_eq_ok, raiseIf_eq_ok, not_not] at hread
  obtain ⟨s, hs, rfl⟩ := hread
  exact mirrors_str v s hk hc hs

/-- `True` is dumped as it was read. -/
theorem mirrors_literalTrue : Mirrors literalTrue fun _ ↦ .bool true := by
  intro v a hk hc hread
  simp only [literalTrue, bind_eq_ok, raiseIf_eq_ok, not_not] at hread
  obtain ⟨b, hb, rfl⟩ := hread
  exact mirrors_bool v true hk hc hb

/-- One of the listed texts is dumped as it is. -/
theorem mirrors_choice (all : List α) (value : α → Text) :
    Mirrors (choice all value) fun a ↦ .str (value a) := by
  intro v a hk hc hread
  simp only [choice, bind_eq_ok, orRaise_eq_ok] at hread
  obtain ⟨t, ht, hfind⟩ := hread
  obtain rfl : value a = t := by simpa using List.find?_some hfind
  exact mirrors_str v _ hk hc ht

/-- The elements of a list, one by one. -/
theorem Mirrors.list (h : Mirrors read dump) :
    Mirrors (list read) fun as ↦ .list (as.map dump) := by
  intro v as hk hc hread
  unfold Strict.list at hread
  split at hread
  · next xs =>
    rw [Value.distinctKeys_list] at hk
    rw [Json.canonicalizable_list] at hc
    have hmirrored : xs.map Json.sorted = (as.map dump).map Json.sorted ∧
        ∀ x ∈ xs, Json.floatFree x = true := by
      induction xs generalizing as with
      | nil =>
        cases hread
        exact ⟨rfl, by simp⟩
      | cons x xs ih =>
        simp only [List.mapM_cons, bind_eq_ok, pure, Except.pure, Except.ok.injEq] at hread
        obtain ⟨a, ha, rest, hrest, rfl⟩ := hread
        rw [List.forall_mem_cons] at hk hc
        obtain ⟨hsorted, hfree⟩ := ih rest hk.2 hc.2 hrest
        have hx := h x a hk.1 hc.1 ha
        simp only [List.map_cons, hsorted, hx.1, List.forall_mem_cons]
        exact ⟨trivial, hx.2, hfree⟩
    constructor
    · rw [Json.sorted_list, Json.sorted_list, hmirrored.1]
    · exact Json.floatFree_list.mpr hmirrored.2
  · cases hread

/-- A required field. -/
theorem Mirrors.field (h : Mirrors read dump) {m : List (Text × Value)} {name : Text} {a : α}
    (hread : field m name read = .ok a) : MirrorsAt m (name, dump a) := by
  simp only [Strict.field, bind_eq_ok, orRaise_eq_ok] at hread
  obtain ⟨w, hw, ha⟩ := hread
  exact ⟨w, hw, fun hk hc ↦ h w a hk hc ha⟩

/-- A closed model whose fields are all required and all dumped. -/
theorem mirrors_model {fields : List String} {read : List (Text × Value) → Except Exn α}
    {members : α → List (Text × Value)} (hfields : fields.Nodup)
    (hnames : ∀ a, (members a).map Prod.fst = fields.map text)
    (hread : ∀ m a, read m = .ok a → ∀ q ∈ members a, MirrorsAt m q) :
    Mirrors (model fields read) fun a ↦ .dict (members a) := by
  intro v a hk hc h
  simp only [model, bind_eq_ok, raiseIf_eq_ok] at h
  obtain ⟨m, hm, -, hclosed, ha⟩ := h
  cases v with
  | dict m' =>
    obtain rfl : m' = m := Except.ok.inj hm
    rw [Value.distinctKeys_dict] at hk
    rw [Json.canonicalizable_dict] at hc
    have hknown : ∀ p ∈ m', p.1 ∈ (members a).map Prod.fst := by
      intro p hp
      rw [hnames]
      simp only [closed, Bool.not_eq_false, List.all_eq_true, List.contains_iff_mem] at hclosed
      exact hclosed p hp
    have hmirrored : ∀ q ∈ members a, ∃ w, (q.1, w) ∈ m' ∧ Mirrored w q.2 := by
      intro q hq
      obtain ⟨w, hlookup, hw⟩ := hread m' a ha q hq
      have hmem := mem_of_lookup hlookup
      exact ⟨w, hmem, hw (hk.2 _ hmem) (hc _ hmem).2⟩
    have hkeys : ∀ l : List (Text × Value),
        (l.map fun p ↦ (p.1, Json.sorted p.2)).map Prod.fst = l.map Prod.fst := by
      intro l
      rw [List.map_map]
      rfl
    constructor
    · refine Json.sorted_dict_congr ?_ hk.1 fun p hp ↦ (hc p hp).1
      apply perm_of_lookup
      · rw [hkeys]
        exact hk.1
      · rw [hkeys, hnames]
        exact hfields.map text_injective
      · rw [hkeys, List.forall_mem_map]
        exact hknown
      · rw [List.forall_mem_map]
        intro q hq
        obtain ⟨w, hmem, hw⟩ := hmirrored q hq
        rw [← hw.1]
        exact lookup_of_mem (by rw [hkeys]; exact hk.1)
          (List.mem_map_of_mem (f := fun p ↦ (p.1, Json.sorted p.2)) hmem)
    · refine Json.floatFree_dict.mpr fun p hp ↦ ?_
      obtain ⟨q, hq, hqp⟩ := List.mem_map.mp (hknown p hp)
      obtain ⟨w, hmem, hw⟩ := hmirrored q hq
      have hpw := List.inj_on_of_nodup_map hk.1 hp hmem hqp.symm
      rw [hpw]
      exact hw.2
  | none | bool | int | float | str | bytes | list | object => cases hm

end Strict

/-! ### The models of the wire -/

namespace Lab

open Strict

/-- A text with a pattern is dumped as it was read. -/
theorem mirrors_readPattern (p : Text → Bool) : Mirrors (readPattern p) fun t ↦ .str t.val :=
  mirrors_str.refine p

/-- A bounded integer is dumped as it was read. -/
theorem mirrors_readBounded (p : Int → Bool) : Mirrors (readBounded p) fun n ↦ .int n.val :=
  mirrors_int.refine p

/-- The provider's metadata are dumped as they were read. -/
theorem UntrustedRunpodMetadata.mirrors_modelValidate :
    Mirrors UntrustedRunpodMetadata.modelValidate UntrustedRunpodMetadata.modelDump := by
  apply mirrors_model (by decide)
  · intro a
    rfl
  · intro m a h
    simp only [bind_eq_ok] at h
    obtain ⟨_, h₁, _, h₂, -⟩ := h
    simp only [List.forall_mem_cons]
    exact ⟨(mirrors_literal _).field h₁, (mirrors_literal _).field h₂, List.forall_mem_nil _⟩

/-- The union of a signature and the sentinel. -/
theorem ProofSignature.mirrors_modelValidate :
    Mirrors ProofSignature.modelValidate ProofSignature.value := by
  intro v a hk hc h
  unfold modelValidate at h
  split at h
  · split at h
    · next hn =>
      subst hn
      cases h
      exact ⟨rfl, rfl⟩
    · cases h
  · cases hb : readPattern (Text.isLowerHexOf 128) v with
    | error e =>
      rw [hb] at h
      cases h
    | ok b =>
      rw [hb] at h
      cases h
      exact mirrors_readPattern _ v b hk hc hb

/-- A holder proof is dumped as it was read. -/
theorem HolderProofWire.mirrors_modelValidate :
    Mirrors HolderProofWire.modelValidate HolderProofWire.modelDump := by
  apply mirrors_model (by decide)
  · intro a
    rfl
  · intro m a h
    simp only [bind_eq_ok, pure, Except.pure, Except.ok.injEq] at h
    obtain ⟨_, h₁, _, h₂, rfl⟩ := h
    simp only [HolderProofWire.members, List.forall_mem_cons]
    exact ⟨(mirrors_readPattern _).field h₁, ProofSignature.mirrors_modelValidate.field h₂,
      List.forall_mem_nil _⟩

/-- A response of the worker is dumped as it was read. -/
theorem WorkerResponse.mirrors_modelValidate :
    Mirrors WorkerResponse.modelValidate WorkerResponse.modelDump := by
  apply mirrors_model (by decide)
  · intro a
    rfl
  · intro m a h
    simp only [bind_eq_ok, pure, Except.pure, Except.ok.injEq] at h
    obtain ⟨_, h₁, _, h₂, _, h₃, _, h₄, _, h₅, _, h₆, _, h₇, _, h₈, _, h₉, _, h₁₀, _, h₁₁, rfl⟩ := h
    have hp := @mirrors_readPattern
    simp only [WorkerResponse.bodyMembers, List.cons_append, List.nil_append, List.forall_mem_cons]
    exact ⟨(mirrors_literal _).field h₁, (hp _).field h₂, (hp _).field h₃, (hp _).field h₄,
      (hp _).field h₅, (hp _).field h₆, (hp _).field h₇, (hp _).field h₈,
      HolderProofWire.mirrors_modelValidate.field h₉,
      UntrustedRunpodMetadata.mirrors_modelValidate.field h₁₀, (hp _).field h₁₁,
      List.forall_mem_nil _⟩

/-- `WorkerResponseBundle.model_dump(mode="json")`. -/
def WorkerResponseBundle.modelDump (b : WorkerResponseBundle) : Value :=
  .dict [(text "schema_version", .str (text "atcap-runpod-worker-response-bundle/v1")),
    (text "responses", .list (b.responses.map WorkerResponse.modelDump))]

/-- Construction keeps the responses. -/
theorem WorkerResponseBundle.construct_eq_ok {responses : List WorkerResponse}
    {b : WorkerResponseBundle} (h : construct responses = .ok b) : b.responses = responses := by
  unfold construct at h
  split at h
  · split at h
    · cases h
      rfl
    · cases h
  · cases h

/-- A bundle of responses is dumped as it was read. -/
theorem WorkerResponseBundle.mirrors_modelValidate :
    Mirrors WorkerResponseBundle.modelValidate WorkerResponseBundle.modelDump := by
  apply mirrors_model (by decide)
  · intro a
    rfl
  · intro m a h
    simp only [bind_eq_ok] at h
    obtain ⟨_, h₁, _, h₂, hb⟩ := h
    rw [construct_eq_ok hb]
    simp only [List.forall_mem_cons]
    exact ⟨(mirrors_literal _).field h₁, WorkerResponse.mirrors_modelValidate.list.field h₂,
      List.forall_mem_nil _⟩

/-! ### The models of the record -/

/-- An attempt is dumped as it was read. -/
theorem AttemptFields.mirrors_modelValidate :
    Mirrors AttemptFields.modelValidate fun a ↦ a.val.modelDump := by
  apply mirrors_model (by decide)
  · intro a
    rfl
  · intro m a h
    simp only [bind_eq_ok] at h
    obtain ⟨_, h₁, _, h₂, _, h₃, _, h₄, _, h₅, _, h₆, _, h₇, _, h₈, _, h₉, _, h₁₀, _, h₁₁, _, h₁₂,
      ha⟩ := h
    have hp := @mirrors_readPattern
    have hn := @mirrors_readBounded
    rw [construct_eq_ok ha]
    simp only [List.forall_mem_cons]
    exact ⟨(hp _).field h₁, (hn _).field h₂, (hp _).field h₃, (hp _).field h₄, (hp _).field h₅,
      mirrors_bool.field h₆, mirrors_knownReason.field h₇, (hp _).field h₈,
      mirrors_literalTrue.field h₉, mirrors_bool.field h₁₀,
      ((mirrors_choice _ _).refine _).field h₁₁, (hn _).optional.field h₁₂,
      List.forall_mem_nil _⟩

/-- A case is dumped as it was read. -/
theorem CaseFields.mirrors_modelValidate :
    Mirrors CaseFields.modelValidate fun c ↦ c.val.modelDump := by
  apply mirrors_model (by decide)
  · intro a
    rfl
  · intro m a h
    simp only [bind_eq_ok] at h
    obtain ⟨_, h₁, _, h₂, _, h₃, _, h₄, _, h₅, _, h₆, _, h₇, _, h₈, _, h₉, _, h₁₀, _, h₁₁, _, h₁₂,
      _, h₁₃, ha⟩ := h
    have hp := @mirrors_readPattern
    have hn := @mirrors_readBounded
    rw [construct_eq_ok ha]
    simp only [List.forall_mem_cons]
    exact ⟨(hp _).field h₁, (mirrors_choice _ _).field h₂, (hp _).field h₃,
      mirrors_literalTrue.field h₄, mirrors_literalTrue.field h₅, (hp _).field h₆,
      (hp _).field h₇, (hp _).field h₈, (mirrors_literal _).field h₉,
      UntrustedRunpodMetadata.mirrors_modelValidate.list.field h₁₀,
      AttemptFields.mirrors_modelValidate.list.field h₁₁, (hn _).field h₁₂, (hn _).field h₁₃,
      List.forall_mem_nil _⟩

/-- The projection of the provider's metadata is dumped as it was read. -/
theorem UntrustedRunpodObservation.mirrors_modelValidate :
    Mirrors UntrustedRunpodObservation.modelValidate UntrustedRunpodObservation.modelDump := by
  apply mirrors_model (by decide)
  · intro a
    rfl
  · intro m a h
    simp only [bind_eq_ok, pure, Except.pure, Except.ok.injEq] at h
    obtain ⟨_, h₁, _, h₂, _, h₃, _, h₄, _, h₅, _, h₆, _, h₇, _, h₈, _, h₉, rfl⟩ := h
    have hp := @mirrors_readPattern
    have hn := @mirrors_readBounded
    simp only [List.forall_mem_cons]
    exact ⟨(mirrors_literal _).field h₁, (mirrors_literal _).field h₂, (hp _).field h₃,
      (hp _).field h₄, (hp _).optional.field h₅, (mirrors_literal _).field h₆, (hp _).field h₇,
      (hn _).optional.field h₈, (hn _).optional.field h₉, List.forall_mem_nil _⟩

/-- A public key is dumped as it was read. -/
theorem Ed25519PublicJwk.mirrors_modelValidate :
    Mirrors Ed25519PublicJwk.modelValidate Ed25519PublicJwk.modelDump := by
  apply mirrors_model (by decide)
  · intro a
    rfl
  · intro m a h
    simp only [bind_eq_ok, pure, Except.pure, Except.ok.injEq] at h
    obtain ⟨_, h₁, _, h₂, _, h₃, _, h₄, _, h₅, _, h₆, rfl⟩ := h
    have hp := @mirrors_readPattern
    simp only [List.forall_mem_cons]
    exact ⟨(mirrors_literal _).field h₁, (mirrors_literal _).field h₂, (hp _).field h₃,
      (mirrors_literal _).field h₄, (hp _).field h₅, (mirrors_literal _).field h₆,
      List.forall_mem_nil _⟩

/-- A published verifier is dumped as it was read. -/
theorem PublicReceiptVerifierFields.mirrors_modelValidate :
    Mirrors PublicReceiptVerifierFields.modelValidate fun v ↦ v.val.modelDump := by
  apply mirrors_model (by decide)
  · intro a
    rfl
  · intro m a h
    simp only [bind_eq_ok] at h
    obtain ⟨_, h₁, _, h₂, ha⟩ := h
    rw [construct_eq_ok ha]
    simp only [List.forall_mem_cons]
    exact ⟨(mirrors_readPattern _).field h₁, Ed25519PublicJwk.mirrors_modelValidate.field h₂,
      List.forall_mem_nil _⟩

/-- The payload of a record is dumped as it was read. -/
theorem ExperimentRecordFields.mirrors_modelValidate :
    Mirrors ExperimentRecordFields.modelValidate fun p ↦ p.val.modelDump := by
  apply mirrors_model (by decide)
  · intro a
    rfl
  · intro m a h
    simp only [bind_eq_ok] at h
    obtain ⟨_, h₁, _, h₂, _, h₃, _, h₄, _, h₅, _, h₆, _, h₇, _, h₈, _, h₉, _, h₁₀, _, h₁₁, _, h₁₂,
      _, h₁₃, _, h₁₄, _, h₁₅, _, h₁₆, _, h₁₇, _, h₁₈, _, h₁₉, _, h₂₀, _, h₂₁, _, h₂₂, _, h₂₃,
      _, h₂₄, _, h₂₅, ha⟩ := h
    have hl := @mirrors_literal
    have hp := @mirrors_readPattern
    have hn := @mirrors_readBounded
    rw [construct_eq_ok ha]
    simp only [List.forall_mem_cons]
    exact ⟨(hl _).field h₁, (hp _).field h₂, (hn _).field h₃, (hp _).field h₄, (hp _).field h₅,
      (hl _).field h₆, (hl _).field h₇, (hl _).field h₈, (mirrors_choice _ _).field h₉,
      mirrors_bool.field h₁₀, mirrors_bool.field h₁₁, (hp _).field h₁₂, (hp _).field h₁₃,
      (hp _).field h₁₄, (hl _).field h₁₅,
      PublicReceiptVerifierFields.mirrors_modelValidate.field h₁₆,
      PublicReceiptVerifierFields.mirrors_modelValidate.field h₁₇,
      UntrustedRunpodObservation.mirrors_modelValidate.field h₁₈, (hn _).field h₁₉,
      (hn _).field h₂₀, (hn _).field h₂₁, (hn _).field h₂₂, (hn _).field h₂₃, (hn _).field h₂₄,
      CaseFields.mirrors_modelValidate.list.field h₂₅, List.forall_mem_nil _⟩

/-! ### Wire documents -/

section Wire

variable {lib : Libraries} (law : Rfc8785 lib) {α : Type} {read : Value → Except Exn α}
  {dump : α → Value}

/-- A wire object has distinct names at every depth. -/
theorem strictJsonObject_distinctKeys {raw : Bytes} {v : Value}
    (h : strictJsonObject lib raw = .ok v) : v.distinctKeys = true := by
  simp only [strictJsonObject, bind_eq_ok, orRaise_eq_ok] at h
  obtain ⟨decoded, hloads, h⟩ := h
  have hk := Json.loads_distinctKeys hloads
  split at h
  · cases h
    exact hk
  · cases h

/-- A strict canonical document: decoded, compared with its canonical encoding, and validated. -/
def parseCanonical (lib : Libraries) (read : Value → Except Exn α) (message : String)
    (raw : Bytes) : Except Exn α := do
  let decoded ← strictJsonObject lib raw
  let data ← canonicalJson lib decoded
  raiseIf (data ≠ raw) (.value message)
  read decoded

include law in
/-- The canonical encoding of what was parsed is the document. -/
theorem parseCanonical_dump (h : Mirrors read dump) {message : String} {raw : Bytes} {a : α}
    (hparse : parseCanonical lib read message raw = .ok a) :
    canonicalJson lib (dump a) = .ok raw := by
  simp only [parseCanonical, bind_eq_ok, raiseIf_eq_ok, ne_eq, not_not] at hparse
  obtain ⟨decoded, hdecoded, data, hdata, _, rfl, hread⟩ := hparse
  have hk := strictJsonObject_distinctKeys hdecoded
  have hc := (law.isOk_iff hk).mp ⟨_, hdata⟩
  obtain ⟨hsorted, hfree⟩ := h decoded a hk hc hread
  exact (law.canonicalJson_congr hk hfree hsorted).mp hdata

end Wire

/-- `MAX_WORKER_RESPONSE_BYTES`. -/
def maxWorkerResponseBytes : Nat := 1048576

/-- `TrustedController.parse_response`. -/
def parseResponse (lib : Libraries) (raw : Bytes) : Except Exn WorkerResponse := do
  raiseIf (maxWorkerResponseBytes < raw.length)
    (.value "worker response failed bounded bytes validation")
  (parseCanonical lib WorkerResponse.modelValidate "response is not canonical" raw).mapError
    fun _ ↦ .value "worker response failed strict canonical validation"

/-- `TrustedController.parse_response_bundle`. -/
def parseResponseBundle (lib : Libraries) (raw : Bytes) : Except Exn WorkerResponseBundle := do
  raiseIf (maxWorkerResponseBytes < raw.length)
    (.value "worker response bundle failed bounded bytes validation")
  (parseCanonical lib WorkerResponseBundle.modelValidate "response bundle is not canonical"
    raw).mapError fun _ ↦ .value "worker response bundle failed strict canonical validation"

/-- An accepted record is the validated payload of its JWS. -/
theorem ExperimentRecordVerifier.verify_eq_ok {lib : Libraries} {importKey : ImportKey}
    {r : ExperimentRecordVerifier} {signed : SignedExperimentRecord}
    {p : ExperimentRecordPayload} (h : r.verify lib importKey signed = .ok p) :
    ∃ header payload,
      lib.jwsDeserializeCompact signed.compactJws.val r.publicKey = .ok (header, payload) ∧
      parseCanonical lib ExperimentRecordFields.modelValidate
        "record is not RFC 8785 canonical JSON" payload = .ok p ∧
      verifyEmbeddedReceipts lib importKey p.val = .ok () := by
  rw [verify, mapError_eq_ok] at h
  simp only [decode, bind_eq_ok, raiseIf_eq_ok, pure, Except.pure, Except.ok.injEq] at h
  obtain ⟨⟨header, payload⟩, hsigned, -, -, decoded, hdecoded, data, hdata, _, hsame, q, hq, _,
    hembedded, rfl⟩ := h
  refine ⟨header, payload, hsigned, ?_, hembedded⟩
  simp only [parseCanonical, bind_eq_ok, raiseIf_eq_ok]
  exact ⟨decoded, hdecoded, data, hdata, (), hsame, hq⟩

end Lab

end Atcap
