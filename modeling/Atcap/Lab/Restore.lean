import Mathlib.Algebra.Order.BigOperators.Group.List
import Atcap.Lab.Projection

/-!
# Dumps that are read back

The other half of the byte-exact projections: what a model of the wire dumps is read back to the
same value. So the canonical encoding of a payload is accepted by the parser of its documents, and
nothing of it is lost on the way.
-/

namespace Atcap

open Base

namespace Strict

/-- A reader that restores every value from its ordered dump. A dump names no member twice and
holds no floating-point number. -/
structure Restores {α : Type} (read : Value → Except Exn α) (dump : α → Value) : Prop where
  read_sorted : ∀ a, read (Json.sorted (dump a)) = .ok a
  distinctKeys : ∀ a, (dump a).distinctKeys = true
  floatFree : ∀ a, Json.floatFree (dump a) = true

variable {α : Type} {read : Value → Except Exn α} {dump : α → Value}

/-- A reader that inverts a dump that has no members. -/
theorem Reads.restores (h : Reads read dump) (hs : ∀ a, Json.sorted (dump a) = dump a)
    (hk : ∀ a, (dump a).distinctKeys = true) (hf : ∀ a, Json.floatFree (dump a) = true) :
    Restores read dump where
  read_sorted a := by rw [hs, h]
  distinctKeys := hk
  floatFree := hf

/-- A dumped text is read back. -/
theorem restores_str : Restores str .str :=
  reads_str.restores (fun _ ↦ rfl) (fun _ ↦ rfl) fun _ ↦ rfl

/-- A dumped integer is read back. -/
theorem restores_int : Restores int .int :=
  reads_int.restores (fun _ ↦ rfl) (fun _ ↦ rfl) fun _ ↦ rfl

/-- A dumped flag is read back. -/
theorem restores_bool : Restores bool .bool :=
  reads_bool.restores (fun _ ↦ rfl) (fun _ ↦ rfl) fun _ ↦ rfl

/-- A dumped reason is read back. -/
theorem restores_knownReason : Restores knownReason fun r ↦ .str r.value :=
  reads_knownReason.restores (fun _ ↦ rfl) (fun _ ↦ rfl) fun _ ↦ rfl

/-- A value of a constrained field passes its constraint. -/
theorem Restores.refine (h : Restores read dump) (p : α → Bool) :
    Restores (refine p read) fun a ↦ dump a.val where
  read_sorted a := by
    simp only [Strict.refine, bind_eq_ok]
    refine ⟨a.val, h.read_sorted a.val, ?_⟩
    rw [dif_pos a.property]
    rfl
  distinctKeys a := h.distinctKeys a.val
  floatFree a := h.floatFree a.val

/-- `null` is read as `None`, and no other value is dumped as `null`. -/
theorem Restores.optional (h : Restores read dump)
    (hnone : ∀ a, Json.sorted (dump a) ≠ .none) :
    Restores (optional read) (Lab.dumpOptional dump) where
  read_sorted a := by
    cases a with
    | none => rfl
    | some a =>
      have hread := h.read_sorted a
      have hne := hnone a
      simp only [Lab.dumpOptional]
      generalize Json.sorted (dump a) = v at hread hne
      unfold Strict.optional
      split
      · exact absurd rfl hne
      · rw [hread]
        rfl
  distinctKeys a := by
    cases a with
    | none => rfl
    | some a => exact h.distinctKeys a
  floatFree a := by
    cases a with
    | none => rfl
    | some a => exact h.floatFree a

/-- A dumped literal is read back. -/
theorem restores_literal (t : Text) : Restores (literal t) fun _ ↦ .str t where
  read_sorted _ := by
    simp only [literal, bind_eq_ok, raiseIf_eq_ok, not_not]
    exact ⟨t, restores_str.read_sorted t, rfl⟩
  distinctKeys _ := rfl
  floatFree _ := rfl

/-- A dumped `True` is read back. -/
theorem restores_literalTrue : Restores literalTrue fun _ ↦ .bool true where
  read_sorted _ := rfl
  distinctKeys _ := rfl
  floatFree _ := rfl

/-- A listed text is found at its own place in the list. -/
theorem restores_choice {all : List α} {value : α → Text}
    (h : ∀ a, all.find? (fun b ↦ decide (value b = value a)) = some a) :
    Restores (choice all value) fun a ↦ .str (value a) :=
  (reads_choice h).restores (fun _ ↦ rfl) (fun _ ↦ rfl) fun _ ↦ rfl

/-- The elements of a list, one by one. -/
theorem Restores.list (h : Restores read dump) :
    Restores (list read) fun as ↦ .list (as.map dump) where
  read_sorted as := by
    rw [Json.sorted_list]
    change (List.map Json.sorted (as.map dump)).mapM read = .ok as
    induction as with
    | nil => rfl
    | cons a as ih =>
      simp only [List.map_cons, List.mapM_cons, h.read_sorted, ih]
      rfl
  distinctKeys as := by
    rw [Value.distinctKeys_list, List.forall_mem_map]
    exact fun a _ ↦ h.distinctKeys a
  floatFree as := by
    rw [Json.floatFree_list, List.forall_mem_map]
    exact fun a _ ↦ h.floatFree a

/-- A member of an ordered object is a dump that a reader restores. -/
def RestoredAt (m : List (Text × Value)) (q : Text × Value) : Prop :=
  m.lookup q.1 = some (Json.sorted q.2)

/-- A required field. -/
theorem Restores.field (h : Restores read dump) {m : List (Text × Value)} {name : Text} {a : α}
    (hm : RestoredAt m (name, dump a)) : field m name read = .ok a := by
  simp only [Strict.field, bind_eq_ok, orRaise_eq_ok]
  exact ⟨_, hm, h.read_sorted a⟩

/-- A dump without a repeated name and without a floating-point number. -/
def Plain (q : Text × Value) : Prop := q.2.distinctKeys = true ∧ Json.floatFree q.2 = true

/-- A dumped member is a plain one. -/
theorem Restores.plain (h : Restores read dump) (name : Text) (a : α) : Plain (name, dump a) :=
  ⟨h.distinctKeys a, h.floatFree a⟩

/-- A closed model whose fields are all required and all dumped. -/
theorem restores_model {fields : List String} {read : List (Text × Value) → Except Exn α}
    {members : α → List (Text × Value)} (hfields : fields.Nodup)
    (hnames : ∀ a, (members a).map Prod.fst = fields.map text)
    (hplain : ∀ a, ∀ q ∈ members a, Plain q)
    (hread : ∀ m a, (∀ q ∈ members a, RestoredAt m q) → read m = .ok a) :
    Restores (model fields read) fun a ↦ .dict (members a) where
  read_sorted a := by
    have hnodup : ((members a).map Prod.fst).Nodup := by
      rw [hnames]
      exact hfields.map text_injective
    have hperm := List.perm_insertionSort Json.memberLe
      ((members a).map fun q ↦ (q.1, Json.sorted q.2))
    have hkeys := hperm.map Prod.fst
    rw [List.map_map] at hkeys
    rw [Json.sorted_dict]
    simp only [model, bind_eq_ok, raiseIf_eq_ok, Bool.not_eq_false]
    refine ⟨_, rfl, (), ?_, hread _ a ?_⟩
    · rw [closed, List.all_eq_true]
      intro q hq
      rw [List.contains_iff_mem, ← hnames a]
      exact hkeys.mem_iff.mp (List.mem_map_of_mem hq)
    · intro q hq
      apply lookup_of_mem
      · rw [hkeys.nodup_iff]
        exact hnodup
      · exact hperm.mem_iff.mpr (List.mem_map_of_mem (f := fun q ↦ (q.1, Json.sorted q.2)) hq)
  distinctKeys a := by
    rw [Value.distinctKeys_dict, hnames]
    exact ⟨hfields.map text_injective, fun q hq ↦ (hplain a q hq).1⟩
  floatFree a := Json.floatFree_dict.mpr fun q hq ↦ (hplain a q hq).2

end Strict

/-! ### The models of the record -/

namespace Lab

open Strict

/-- A dumped text with a pattern is read back. -/
theorem restores_readPattern (p : Text → Bool) : Restores (readPattern p) fun t ↦ .str t.val :=
  restores_str.refine p

/-- A dumped bounded integer is read back. -/
theorem restores_readBounded (p : Int → Bool) : Restores (readBounded p) fun n ↦ .int n.val :=
  restores_int.refine p

/-- A dumped optional text with a pattern is read back. -/
theorem restores_optionalPattern (p : Text → Bool) :
    Restores (optional (readPattern p)) (dumpOptional fun t ↦ .str t.val) :=
  (restores_readPattern p).optional fun _ h ↦ Value.noConfusion h

/-- A dumped optional bounded integer is read back. -/
theorem restores_optionalBounded (p : Int → Bool) :
    Restores (optional (readBounded p)) (dumpOptional fun n ↦ .int n.val) :=
  (restores_readBounded p).optional fun _ h ↦ Value.noConfusion h

/-- The dumped metadata of the provider are read back. -/
theorem UntrustedRunpodMetadata.restores_modelValidate :
    Restores UntrustedRunpodMetadata.modelValidate UntrustedRunpodMetadata.modelDump := by
  have hl := @restores_literal
  apply restores_model (by decide)
  · intro a
    rfl
  · intro a
    simp only [List.forall_mem_cons]
    exact ⟨(hl _).plain _ (), (hl _).plain _ (), List.forall_mem_nil _⟩
  · intro m _ h
    simp only [List.forall_mem_cons] at h
    obtain ⟨h₁, h₂, -⟩ := h
    simp only [bind_eq_ok]
    exact ⟨(), (hl _).field h₁, (), (hl _).field h₂, rfl⟩

/-- The results of an attempt, found by their texts. -/
theorem restores_businessResult (p : BusinessResult → Bool) (hp : p .notApplicable = false) :
    Restores (refine p (choice [.notInvoked, .completed, .failed] BusinessResult.value))
      fun r ↦ .str r.val.value where
  read_sorted := by
    rintro ⟨r, hr⟩
    cases r with
    | notApplicable =>
      rw [hp] at hr
      cases hr
    | notInvoked | completed | failed =>
      simp only [Strict.refine, bind_eq_ok]
      refine ⟨_, rfl, ?_⟩
      rw [dif_pos hr]
      rfl
  distinctKeys _ := rfl
  floatFree _ := rfl

/-- A dumped attempt is read back. -/
theorem AttemptFields.restores_modelValidate :
    Restores AttemptFields.modelValidate fun a ↦ a.val.modelDump := by
  have hp := @restores_readPattern
  have hn := @restores_readBounded
  have hr := restores_businessResult (fun r ↦ decide (r ≠ .notApplicable)) rfl
  have ho := @restores_optionalBounded
  apply restores_model (by decide)
  · intro a
    rfl
  · intro a
    simp only [List.forall_mem_cons]
    exact ⟨(hp _).plain _ _, (hn _).plain _ _, (hp _).plain _ _, (hp _).plain _ _,
      (hp _).plain _ _, restores_bool.plain _ _, restores_knownReason.plain _ _, (hp _).plain _ _,
      restores_literalTrue.plain _ (), restores_bool.plain _ _, hr.plain _ _, (ho _).plain _ _,
      List.forall_mem_nil _⟩
  · intro m a h
    simp only [List.forall_mem_cons] at h
    obtain ⟨h₁, h₂, h₃, h₄, h₅, h₆, h₇, h₈, h₉, h₁₀, h₁₁, h₁₂, -⟩ := h
    simp only [bind_eq_ok]
    exact ⟨_, (hp _).field h₁, _, (hn _).field h₂, _, (hp _).field h₃, _, (hp _).field h₄, _,
      (hp _).field h₅, _, restores_bool.field h₆, _, restores_knownReason.field h₇, _,
      (hp _).field h₈, (), restores_literalTrue.field h₉, _, restores_bool.field h₁₀, _,
      hr.field h₁₁, _, (ho _).field h₁₂, construct_of_check a.property⟩

/-- A dumped case is read back. -/
theorem CaseFields.restores_modelValidate :
    Restores CaseFields.modelValidate fun c ↦ c.val.modelDump := by
  have hl := @restores_literal
  have hp := @restores_readPattern
  have hn := @restores_readBounded
  have hv : Restores (choice Variant.all Variant.value) fun v ↦ .str v.value :=
    restores_choice fun v ↦ by cases v <;> decide
  have hm := UntrustedRunpodMetadata.restores_modelValidate.list
  have ha := AttemptFields.restores_modelValidate.list
  apply restores_model (by decide)
  · intro c
    rfl
  · intro c
    simp only [List.forall_mem_cons]
    exact ⟨(hp _).plain _ _, hv.plain _ _, (hp _).plain _ _, restores_literalTrue.plain _ (),
      restores_literalTrue.plain _ (), (hp _).plain _ _, (hp _).plain _ _, (hp _).plain _ _,
      (hl _).plain _ (), hm.plain _ _, ha.plain _ _, (hn _).plain _ _, (hn _).plain _ _,
      List.forall_mem_nil _⟩
  · intro m c h
    simp only [List.forall_mem_cons] at h
    obtain ⟨h₁, h₂, h₃, h₄, h₅, h₆, h₇, h₈, h₉, h₁₀, h₁₁, h₁₂, h₁₃, -⟩ := h
    simp only [bind_eq_ok]
    exact ⟨_, (hp _).field h₁, _, hv.field h₂, _, (hp _).field h₃, (),
      restores_literalTrue.field h₄, (), restores_literalTrue.field h₅, _, (hp _).field h₆, _,
      (hp _).field h₇, _, (hp _).field h₈, (), (hl _).field h₉, _, hm.field h₁₀, _, ha.field h₁₁, _,
      (hn _).field h₁₂, _, (hn _).field h₁₃, construct_of_check c.property⟩

/-- The dumped projection of the provider's metadata is read back. -/
theorem UntrustedRunpodObservation.restores_modelValidate :
    Restores UntrustedRunpodObservation.modelValidate UntrustedRunpodObservation.modelDump := by
  have hl := @restores_literal
  have hp := @restores_readPattern
  have ht := @restores_optionalPattern
  have ho := @restores_optionalBounded
  apply restores_model (by decide)
  · intro o
    rfl
  · intro o
    simp only [List.forall_mem_cons]
    exact ⟨(hl _).plain _ (), (hl _).plain _ (), (hp _).plain _ _, (hp _).plain _ _,
      (ht _).plain _ _, (hl _).plain _ (), (hp _).plain _ _, (ho _).plain _ _, (ho _).plain _ _,
      List.forall_mem_nil _⟩
  · intro m o h
    simp only [List.forall_mem_cons] at h
    obtain ⟨h₁, h₂, h₃, h₄, h₅, h₆, h₇, h₈, h₉, -⟩ := h
    simp only [bind_eq_ok]
    exact ⟨(), (hl _).field h₁, (), (hl _).field h₂, _, (hp _).field h₃, _, (hp _).field h₄, _,
      (ht _).field h₅, (), (hl _).field h₆, _, (hp _).field h₇, _, (ho _).field h₈, _,
      (ho _).field h₉, rfl⟩

/-- A dumped public key is read back. -/
theorem Ed25519PublicJwk.restores_modelValidate :
    Restores Ed25519PublicJwk.modelValidate Ed25519PublicJwk.modelDump := by
  have hl := @restores_literal
  have hp := @restores_readPattern
  apply restores_model (by decide)
  · intro k
    rfl
  · intro k
    simp only [List.forall_mem_cons]
    exact ⟨(hl _).plain _ (), (hl _).plain _ (), (hp _).plain _ _, (hl _).plain _ (),
      (hp _).plain _ _, (hl _).plain _ (), List.forall_mem_nil _⟩
  · intro m k h
    simp only [List.forall_mem_cons] at h
    obtain ⟨h₁, h₂, h₃, h₄, h₅, h₆, -⟩ := h
    simp only [bind_eq_ok]
    exact ⟨(), (hl _).field h₁, (), (hl _).field h₂, _, (hp _).field h₃, (), (hl _).field h₄, _,
      (hp _).field h₅, (), (hl _).field h₆, rfl⟩

/-- A dumped published verifier is read back. -/
theorem PublicReceiptVerifierFields.restores_modelValidate :
    Restores PublicReceiptVerifierFields.modelValidate fun v ↦ v.val.modelDump := by
  have hp := @restores_readPattern
  have hk := Ed25519PublicJwk.restores_modelValidate
  apply restores_model (by decide)
  · intro v
    rfl
  · intro v
    simp only [List.forall_mem_cons]
    exact ⟨(hp _).plain _ _, hk.plain _ _, List.forall_mem_nil _⟩
  · intro m v h
    simp only [List.forall_mem_cons] at h
    obtain ⟨h₁, h₂, -⟩ := h
    simp only [bind_eq_ok]
    exact ⟨_, (hp _).field h₁, _, hk.field h₂, construct_of_check v.property⟩

/-- The dumped payload of a record is read back. -/
theorem ExperimentRecordFields.restores_modelValidate :
    Restores ExperimentRecordFields.modelValidate fun p ↦ p.val.modelDump := by
  have hl := @restores_literal
  have hp := @restores_readPattern
  have hn := @restores_readBounded
  have ht : Restores (choice [.testDouble, .realSwtpm] TpmMode.value) fun v ↦ .str v.value :=
    restores_choice fun v ↦ by cases v <;> decide
  have hk := PublicReceiptVerifierFields.restores_modelValidate
  have ho := UntrustedRunpodObservation.restores_modelValidate
  have hc := CaseFields.restores_modelValidate.list
  apply restores_model (by decide)
  · intro p
    rfl
  · intro p
    simp only [List.forall_mem_cons]
    exact ⟨(hl _).plain _ (), (hp _).plain _ _, (hn _).plain _ _, (hp _).plain _ _,
      (hp _).plain _ _, (hl _).plain _ (), (hl _).plain _ (), (hl _).plain _ (), ht.plain _ _,
      restores_bool.plain _ _, restores_bool.plain _ _, (hp _).plain _ _, (hp _).plain _ _,
      (hp _).plain _ _, (hl _).plain _ (), hk.plain _ _, hk.plain _ _, ho.plain _ _,
      (hn _).plain _ _, (hn _).plain _ _, (hn _).plain _ _, (hn _).plain _ _, (hn _).plain _ _,
      (hn _).plain _ _, hc.plain _ _, List.forall_mem_nil _⟩
  · intro m p h
    simp only [List.forall_mem_cons] at h
    obtain ⟨h₁, h₂, h₃, h₄, h₅, h₆, h₇, h₈, h₉, h₁₀, h₁₁, h₁₂, h₁₃, h₁₄, h₁₅, h₁₆, h₁₇, h₁₈, h₁₉,
      h₂₀, h₂₁, h₂₂, h₂₃, h₂₄, h₂₅, -⟩ := h
    simp only [bind_eq_ok]
    exact ⟨(), (hl _).field h₁, _, (hp _).field h₂, _, (hn _).field h₃, _, (hp _).field h₄, _,
      (hp _).field h₅, (), (hl _).field h₆, (), (hl _).field h₇, (), (hl _).field h₈, _,
      ht.field h₉, _, restores_bool.field h₁₀, _, restores_bool.field h₁₁, _, (hp _).field h₁₂, _,
      (hp _).field h₁₃, _, (hp _).field h₁₄, (), (hl _).field h₁₅, _, hk.field h₁₆, _,
      hk.field h₁₇, _, ho.field h₁₈, _, (hn _).field h₁₉, _, (hn _).field h₂₀, _,
      (hn _).field h₂₁, _, (hn _).field h₂₂, _, (hn _).field h₂₃, _, (hn _).field h₂₄, _,
      hc.field h₂₅, construct_of_check p.property⟩

/-! ### Canonical encodings -/

/-- A text of ASCII characters has a UTF-8 encoding. -/
theorem encodable_of_ascii {t : Text} (h : ∀ c ∈ t, c.val < 128) : t.encodable = true := by
  rw [Text.encodable, List.all_eq_true]
  intro c hc
  have hlt := h c hc
  have hsurrogate : isSurrogate c = false := by
    rw [isSurrogate, Bool.and_eq_false_iff, decide_eq_false_iff_not]
    exact .inl (by omega)
  rw [hsurrogate]
  rfl

/-- An alphanumeric character is ASCII. -/
theorem isAlphanumeric_lt {c : CodePoint} (h : isAlphanumeric c = true) : c.val < 128 := by
  simp only [isAlphanumeric, Bool.or_eq_true, Bool.and_eq_true, decide_eq_true_eq] at h
  omega

/-- A character of a run id is ASCII. -/
theorem isRunIdChar_lt {c : CodePoint} (h : isRunIdChar c = true) : c.val < 128 := by
  rw [isRunIdChar, Bool.or_eq_true, List.contains_iff_mem] at h
  rcases h with h | h
  · exact isAlphanumeric_lt h
  · have hpunctuation : (text "._:-").all (fun d ↦ decide (d.val < 128)) = true := rfl
    exact of_decide_eq_true (List.all_eq_true.mp hpunctuation c h)

/-- A run id has a UTF-8 encoding. -/
theorem encodable_of_isRunId {t : Text} (h : isRunId t = true) : t.encodable = true := by
  cases t with
  | nil => cases h
  | cons c rest =>
    simp only [isRunId, Bool.and_eq_true, List.all_eq_true] at h
    apply encodable_of_ascii
    rw [List.forall_mem_cons]
    exact ⟨isAlphanumeric_lt h.1.1, fun d hd ↦ isRunIdChar_lt (h.2 d hd)⟩

/-- The name of an image has a UTF-8 encoding. -/
theorem encodable_of_isImageName {t : Text} (h : isImageName t = true) : t.encodable = true := by
  cases t with
  | nil => cases h
  | cons c rest =>
    simp only [isImageName, Bool.and_eq_true, List.all_eq_true, Bool.or_eq_true,
      decide_eq_true_eq] at h
    apply encodable_of_ascii
    rw [List.forall_mem_cons]
    refine ⟨isAlphanumeric_lt h.1.1, fun d hd ↦ ?_⟩
    rcases h.1.2 d hd with hchar | rfl
    · exact isRunIdChar_lt hchar
    · decide

/-- An image has a UTF-8 encoding. -/
theorem encodable_of_isImage {t : Text} (h : isImage t = true) : t.encodable = true := by
  simp only [isImage, Bool.and_eq_true, decide_eq_true_eq] at h
  obtain ⟨⟨hname, hmark⟩, hdigest⟩ := h
  have hsplit : t.take (t.length - 72) ++ ((t.drop (t.length - 72)).take 8 ++
      (t.drop (t.length - 72)).drop 8) = t := by
    rw [List.take_append_drop, List.take_append_drop]
  rw [← hsplit, encodable_append, encodable_append, encodable_of_isImageName hname, hmark,
    encodable_text, encodable_of_isLowerHexOf hdigest]
  rfl

/-- A bounded text has a UTF-8 encoding. -/
theorem encodable_of_isBounded {min max : Nat} {t : Text} (h : isBounded min max t = true) :
    t.encodable = true := by
  rw [isBounded, Bool.and_eq_true] at h
  exact h.2

/-- A nonempty text has a UTF-8 encoding. -/
theorem encodable_of_isNonempty {t : Text} (h : isNonempty t = true) : t.encodable = true := by
  rw [isNonempty, Bool.and_eq_true] at h
  exact h.2

/-- A raw key has a UTF-8 encoding. -/
theorem encodable_of_isRawKey {t : Text} (h : isRawKey t = true) : t.encodable = true := by
  simp only [isRawKey, Bool.and_eq_true, List.all_eq_true, Bool.or_eq_true,
    List.contains_iff_mem] at h
  apply encodable_of_ascii
  intro c hc
  rcases h.2 c hc with hchar | hmark
  · exact isAlphanumeric_lt hchar
  · have hpunctuation : (text "_-").all (fun d ↦ decide (d.val < 128)) = true := rfl
    exact of_decide_eq_true (List.all_eq_true.mp hpunctuation c hmark)

/-- A text has a canonical form when it has a UTF-8 encoding. -/
theorem canonicalizable_str (t : Text) : Json.canonicalizable (.str t) = t.encodable := rfl

/-- The members of an object with a canonical form. -/
theorem canonicalizable_members {m : List (Text × Value)}
    (hnames : ∀ q ∈ m, q.1.encodable = true) (hvalues : ∀ q ∈ m, Json.canonicalizable q.2 = true) :
    Json.canonicalizable (.dict m) = true :=
  Json.canonicalizable_dict.mpr fun q hq ↦ ⟨hnames q hq, hvalues q hq⟩

/-- A business result has a UTF-8 encoding. -/
theorem encodable_businessResult (r : BusinessResult) : r.value.encodable = true := by
  cases r <;> exact encodable_text _

/-- An integer within a small bound is exact. -/
theorem exactInt_of_le {n : Int} (h₀ : 0 ≤ n) (h₁ : n ≤ 86400000) : Json.exactInt n = true := by
  rw [Json.exactInt, decide_eq_true_eq]
  omega

/-- An attempt whose invocation has an exact number. -/
theorem AttemptFields.canonicalizable_modelDump (a : AttemptFields)
    (h : ∀ n, a.invocationId = some n → Json.exactInt n.val = true) :
    Json.canonicalizable a.modelDump = true := by
  have hsequence : Json.exactInt a.redemptionSequence.val = true := by
    have hbounds := a.redemptionSequence.property
    simp only [Bool.and_eq_true, decide_eq_true_eq] at hbounds
    exact exactInt_of_le (by omega) (by omega)
  have hinvocation : Json.canonicalizable
      (dumpOptional (fun n ↦ .int n.val) a.invocationId) = true := by
    cases hn : a.invocationId with
    | none => rfl
    | some n => exact h n hn
  apply canonicalizable_members
  · simp only [List.forall_mem_cons, encodable_text]
    simp
  · have hhex := @encodable_of_isLowerHexOf 64
    simp only [List.forall_mem_cons]
    exact ⟨encodable_of_isRunId a.runId.property, hsequence, hhex a.requestSha256.property,
      hhex a.workerResponseSha256.property, hhex a.holderProofSha256.property, rfl,
      Reason.encodable_value _, encodable_of_isNonempty a.receiptJws.property, rfl, rfl,
      encodable_businessResult _, hinvocation, List.forall_mem_nil _⟩

/-- A case whose invocations have exact numbers. -/
theorem CaseFields.canonicalizable_modelDump (c : CaseFields)
    (h : ∀ a ∈ c.attempts, ∀ n, a.val.invocationId = some n → Json.exactInt n.val = true) :
    Json.canonicalizable c.modelDump = true := by
  have hcount : ∀ n : { n : Int // (decide (0 ≤ n) && decide (n ≤ 1)) = true },
      Json.exactInt n.val = true := by
    intro n
    have hbounds := n.property
    simp only [Bool.and_eq_true, decide_eq_true_eq] at hbounds
    exact exactInt_of_le (by omega) (by omega)
  have hmetadata : Json.canonicalizable
      (.list (c.runpodMetadata.map UntrustedRunpodMetadata.modelDump)) = true := by
    rw [Json.canonicalizable_list, List.forall_mem_map]
    exact fun _ _ ↦ rfl
  have hattempts :
      Json.canonicalizable (.list (c.attempts.map fun a ↦ a.val.modelDump)) = true := by
    rw [Json.canonicalizable_list, List.forall_mem_map]
    exact fun a ha ↦ a.val.canonicalizable_modelDump (h a ha)
  have hvariant : c.variant.value.encodable = true := by
    cases c.variant <;> exact encodable_text _
  apply canonicalizable_members
  · simp only [List.forall_mem_cons, encodable_text]
    simp
  · have hhex := @encodable_of_isLowerHexOf 64
    simp only [List.forall_mem_cons]
    exact ⟨encodable_of_isRunId c.caseId.property, hvariant,
      encodable_of_isNonempty c.brokerReceiptJws.property, rfl, rfl,
      hhex c.workerPublicKey.property, encodable_of_isImage c.workerImage.property,
      hhex c.workerCodeDigest.property, encodable_text _, hmetadata, hattempts,
      hcount c.invocationDelta, hcount c.credentialRedemptionCount, List.forall_mem_nil _⟩

/-- The dumped projection of the provider's metadata has a canonical form. -/
theorem UntrustedRunpodObservation.canonicalizable_modelDump (o : UntrustedRunpodObservation) :
    Json.canonicalizable o.modelDump = true := by
  have htime : ∀ t : Option { n : Int // (decide (0 ≤ n) && decide (n ≤ 86400000)) = true },
      Json.canonicalizable (dumpOptional (fun n ↦ .int n.val) t) = true := by
    rintro (_ | ⟨n, hn⟩)
    · rfl
    · simp only [Bool.and_eq_true, decide_eq_true_eq] at hn
      exact exactInt_of_le hn.1 hn.2
  have hworker : Json.canonicalizable
      (dumpOptional (fun t ↦ .str t.val) o.workerIdSha256) = true := by
    cases o.workerIdSha256 with
    | none => rfl
    | some t => exact encodable_of_isLowerHexOf t.property
  apply canonicalizable_members
  · simp only [List.forall_mem_cons, encodable_text]
    simp
  · simp only [List.forall_mem_cons]
    exact ⟨encodable_text _, encodable_text _,
      encodable_of_isLowerHexOf o.endpointIdSha256.property,
      encodable_of_isLowerHexOf o.jobIdSha256.property, hworker, encodable_text _,
      encodable_of_isImage o.workerImageArgument.property, htime _, htime _, List.forall_mem_nil _⟩

/-- A dumped public key has a canonical form. -/
theorem Ed25519PublicJwk.canonicalizable_modelDump (k : Ed25519PublicJwk) :
    Json.canonicalizable k.modelDump = true := by
  apply canonicalizable_members
  · simp only [List.forall_mem_cons, encodable_text]
    simp
  · simp only [List.forall_mem_cons]
    exact ⟨encodable_text _, encodable_text _, encodable_of_isRawKey k.x.property, encodable_text _,
      encodable_of_isBounded k.kid.property, encodable_text _, List.forall_mem_nil _⟩

/-- A dumped published verifier has a canonical form. -/
theorem PublicReceiptVerifierFields.canonicalizable_modelDump (v : PublicReceiptVerifierFields) :
    Json.canonicalizable v.modelDump = true := by
  apply canonicalizable_members
  · simp only [List.forall_mem_cons, encodable_text]
    simp
  · simp only [List.forall_mem_cons]
    exact ⟨encodable_of_isBounded v.keyId.property, v.publicJwk.canonicalizable_modelDump,
      List.forall_mem_nil _⟩

namespace ExperimentRecordPayload

variable (p : ExperimentRecordPayload)

/-- A record has few attempts. -/
theorem length_attempts_le : p.val.cases.length ≤ 64 ∧ p.val.attempts.length ≤ 64 * 65 := by
  have hcases : p.val.cases.length ≤ 64 := by
    have h := p.property
    simp only [ExperimentRecordFields.check, bind_eq_ok, raiseIf_eq_ok, not_not] at h
    obtain ⟨_, hbounds, -⟩ := h
    exact hbounds.2
  have hcase : ∀ n ∈ p.val.cases.map fun c ↦ c.val.attempts.length, n ≤ 65 := by
    rw [List.forall_mem_map]
    intro c _
    have h := c.property
    simp only [CaseFields.check, bind_eq_ok, raiseIf_eq_ok, not_not] at h
    obtain ⟨_, hbounds, -⟩ := h
    exact hbounds.2.2.2
  refine ⟨hcases, ?_⟩
  rw [ExperimentRecordFields.attempts, List.length_flatMap]
  calc (p.val.cases.map fun c ↦ c.val.attempts.length).sum
      ≤ (p.val.cases.map fun c ↦ c.val.attempts.length).length * 65 :=
        List.sum_le_card_nsmul _ 65 hcase
    _ ≤ 64 * 65 := by
        rw [List.length_map]
        omega

/-- The invocations of a record are numbered from one. -/
theorem invocationId_le {a : AttemptObservation} (ha : a ∈ p.val.attempts)
    {n : { n : Int // decide (1 ≤ n) = true }} (hn : a.val.invocationId = some n) :
    n.val ≤ 64 * 65 := by
  have h := p.property
  simp only [ExperimentRecordFields.check, bind_eq_ok, raiseIf_eq_ok, not_or, ne_eq, not_not] at h
  obtain ⟨_, -, _, -, _, -, _, ⟨-, hset⟩, -⟩ := h
  have hmem : n.val ∈ p.val.invocationIds.toFinset := by
    rw [List.mem_toFinset, ExperimentRecordFields.invocationIds, List.mem_filterMap]
    exact ⟨a, ha, by rw [hn]; rfl⟩
  have hlength : p.val.invocationIds.length ≤ p.val.attempts.length :=
    List.length_filterMap_le _ _
  rw [hset, List.mem_toFinset, List.mem_map] at hmem
  obtain ⟨i, hi, hin⟩ := hmem
  simp only [List.bind_eq_flatMap, List.pure_def, List.mem_flatMap, List.mem_range,
    List.mem_singleton] at hi
  obtain ⟨j, hj, rfl⟩ := hi
  have hattempts := p.length_attempts_le.2
  omega

/-- A record observed at an exact time has a canonical encoding. -/
theorem canonicalizable_modelDump (h : Json.exactInt p.val.observedAt.val = true) :
    Json.canonicalizable p.val.modelDump = true := by
  obtain ⟨hlength, hattempts⟩ := p.length_attempts_le
  have hcases : Json.canonicalizable (.list (p.val.cases.map fun c ↦ c.val.modelDump)) = true := by
    rw [Json.canonicalizable_list, List.forall_mem_map]
    intro c hc
    apply c.val.canonicalizable_modelDump
    intro a ha n hn
    have hone := n.property
    rw [decide_eq_true_eq] at hone
    have hle := p.invocationId_le (List.mem_flatMap.mpr ⟨c, hc, ha⟩) hn
    exact exactInt_of_le (by omega) (by omega)
  -- The declared totals are those of the cases, so each of them is small.
  have hsum : ∀ f : CaseObservation → Int, (∀ c, 0 ≤ f c ∧ f c ≤ 1) →
      0 ≤ (p.val.cases.map f).sum ∧ (p.val.cases.map f).sum ≤ p.val.cases.length := by
    intro f hf
    generalize p.val.cases = cs
    induction cs with
    | nil => simp
    | cons c cs ih =>
      have hc := hf c
      simp only [List.map_cons, List.sum_cons, List.length_cons]
      omega
  have hdeclared : p.val.declared = p.val.observed := by
    have h := p.property
    simp only [ExperimentRecordFields.check, bind_eq_ok, raiseIf_eq_ok, ne_eq, not_not] at h
    obtain ⟨_, -, _, -, _, -, _, -, hdeclared⟩ := h
    exact hdeclared
  simp only [ExperimentRecordFields.declared, ExperimentRecordFields.observed, List.cons.injEq,
    and_true] at hdeclared
  obtain ⟨h₁, h₂, h₃, h₄, h₅, h₆⟩ := hdeclared
  have hcount := fun f : AttemptObservation → Bool ↦
    List.countP_le_length (p := f) (l := p.val.attempts)
  have hinvocations := hsum (fun c ↦ c.val.invocationDelta.val) fun c ↦ by
    have hbounds := c.val.invocationDelta.property
    simpa only [Bool.and_eq_true, decide_eq_true_eq] using hbounds
  have hredemptions := hsum (fun c ↦ c.val.credentialRedemptionCount.val) fun c ↦ by
    have hbounds := c.val.credentialRedemptionCount.property
    simpa only [Bool.and_eq_true, decide_eq_true_eq] using hbounds
  have hallowed := hcount fun a ↦ a.val.allowed
  have hdenied := hcount fun a ↦ !a.val.allowed
  have htrust : Json.canonicalizable (.str trustBoundary) = true := by
    rw [canonicalizable_str, trustBoundary, encodable_text]
  have hdisclaimer : Json.canonicalizable (.str assuranceDisclaimer) = true := by
    rw [canonicalizable_str, assuranceDisclaimer, encodable_text]
  have hmode : p.val.tpmMode.value.encodable = true := by
    cases p.val.tpmMode <;> exact encodable_text _
  apply canonicalizable_members
  · simp only [List.forall_mem_cons, encodable_text]
    simp
  · have hhex := @encodable_of_isLowerHexOf
    simp only [List.forall_mem_cons]
    exact ⟨encodable_text _, encodable_of_isRunId p.val.experimentId.property, h,
      hhex p.val.commitSha.property, hhex p.val.uvLockSha256.property, encodable_text _, htrust,
      hdisclaimer, hmode, rfl, rfl, hhex p.val.workerPublicKey.property,
      encodable_of_isImage p.val.workerImage.property, hhex p.val.workerCodeDigest.property,
      encodable_text _, p.val.brokerReceiptVerifier.val.canonicalizable_modelDump,
      p.val.resourceReceiptVerifier.val.canonicalizable_modelDump,
      p.val.runpodObservation.canonicalizable_modelDump,
      exactInt_of_le (by omega) (by omega), exactInt_of_le (by omega) (by omega),
      exactInt_of_le (by omega) (by omega), exactInt_of_le (by omega) (by omega),
      exactInt_of_le (by omega) (by omega), exactInt_of_le (by omega) (by omega), hcases,
      List.forall_mem_nil _⟩

end ExperimentRecordPayload

/-! ### Documents -/

section Document

variable {lib : Libraries} (law : Rfc8785 lib)
include law

/-- The canonical encoding of a dump is parsed to the value that was dumped. -/
theorem parseCanonical_of_dump {α : Type} {read : Value → Except Exn α}
    {members : α → List (Text × Value)} (h : Restores read fun a ↦ .dict (members a))
    (message : String) {raw : Bytes} {a : α}
    (hraw : canonicalJson lib (.dict (members a)) = .ok raw) :
    parseCanonical lib read message raw = .ok a := by
  have hk := h.distinctKeys a
  have hf := h.floatFree a
  obtain ⟨-, t, ht, hutf8⟩ := (law.canonicalJson_eq_ok hk hf).mp hraw
  have hloads : Json.loads ⟨4300, lib.floatOf, true⟩ raw =
    some (Json.sorted (.dict (members a))) := by
    rw [hutf8]
    exact Json.loads_canonicalText (show 16 ≤ 4300 by decide) hk ht
  have hsorted : canonicalJson lib (Json.sorted (.dict (members a))) = .ok raw :=
    (law.canonicalJson_congr hk hf (Json.sorted_sorted _).symm).mp hraw
  have hread := h.read_sorted a
  obtain ⟨m, hm⟩ : ∃ m, Json.sorted (.dict (members a)) = .dict m := ⟨_, Json.sorted_dict _⟩
  rw [hm] at hloads hsorted hread
  simp only [parseCanonical, strictJsonObject, hloads, bind_eq_ok, orRaise_eq_ok, raiseIf_eq_ok,
    ne_eq, not_not]
  exact ⟨.dict m, ⟨.dict m, rfl, rfl⟩, raw, hsorted, (), rfl, hread⟩

/-- A signed canonical record with accepted receipts is verified to its payload. -/
theorem ExperimentRecordVerifier.verify_of_dump {importKey : ImportKey}
    {r : ExperimentRecordVerifier} {signed : SignedExperimentRecord} {header : Value}
    {raw : Bytes} {p : ExperimentRecordPayload}
    (hsigned : lib.jwsDeserializeCompact signed.compactJws.val r.publicKey = .ok (header, raw))
    (hheader : header.isTexts r.expected = true)
    (hraw : canonicalJson lib p.val.modelDump = .ok raw)
    (hembedded : verifyEmbeddedReceipts lib importKey p.val = .ok ()) :
    r.verify lib importKey signed = .ok p := by
  have hparse := parseCanonical_of_dump law ExperimentRecordFields.restores_modelValidate
    "record is not RFC 8785 canonical JSON" hraw
  simp only [parseCanonical, bind_eq_ok, raiseIf_eq_ok] at hparse
  obtain ⟨decoded, hdecoded, data, hdata, _, hsame, hvalidate⟩ := hparse
  rw [verify, mapError_eq_ok]
  simp only [decode, hsigned, bind_eq_ok, raiseIf_eq_ok]
  exact ⟨_, rfl, (), not_not.mpr hheader, decoded, hdecoded, data, hdata, (), hsame, p, hvalidate,
    (), hembedded, rfl⟩

end Document

end Lab

end Atcap
