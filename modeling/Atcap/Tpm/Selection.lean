import Atcap.Base.Bitmap
import Atcap.Tpm.Appraisal

/-!
# The signed PCR selection

`tpm2_pytss_selection_reader` of `src/atcap/tpm.py` and the comparison of its result with the
policy. The parsers of Agent Manifest and of tpm2-pytss are parameters: they deliver the banks of
the signed selection with the size and the bytes of their bitmaps.
-/

namespace Atcap

open Base

/-- One entry of `TPML_PCR_SELECTION` as the TSS parser delivers it. -/
structure TpmsPcrSelection where
  /-- `str(selection.hash)`. -/
  hash : Text
  sizeofSelect : Nat
  pcrSelect : Bytes
  /-- Every byte that the size announces is there. -/
  size_le : sizeofSelect ≤ pcrSelect.length

namespace TpmsPcrSelection

/-- The bytes that the size covers. -/
def bitmap (s : TpmsPcrSelection) : Bytes := s.pcrSelect.take s.sizeofSelect

end TpmsPcrSelection

/-- The parsers that the reader uses. -/
structure TssParser where
  /-- `parse_tpm_attest(attest).raw`. -/
  parseTpmAttest : Bytes → Except Exn Bytes
  /-- `TPMS_ATTEST.unmarshal(raw)`: the selections of the quote and the number of bytes consumed. -/
  unmarshal : Bytes → Except Exn (List TpmsPcrSelection × Nat)

/-- The loop over the bits of one byte. -/
def readBits (selected byteIndex : Nat) (indices : List Nat) : List Nat :=
  (List.range 8).foldl (fun indices bitIndex ↦
    if selected &&& (1 <<< bitIndex) ≠ 0 then indices ++ [byteIndex * 8 + bitIndex] else indices)
    indices

/-- The loop over the bytes of one bitmap. -/
def readIndices (selection : TpmsPcrSelection) : List Nat :=
  (List.range selection.sizeofSelect).foldl (fun indices byteIndex ↦
    readBits (selection.pcrSelect.getD byteIndex 0).toNat byteIndex indices) []

/-- The loop over the banks. -/
def readSelections (selections : List TpmsPcrSelection) : PcrSelection :=
  selections.foldl (fun result selection ↦
    result ++ [(selection.hash, (readIndices selection).map Int.ofNat)]) []

/-- `tpm2_pytss_selection_reader`. -/
def tpm2PytssSelectionReader (tss : TssParser) (attest : Bytes) : Except Exn PcrSelection := do
  let raw ← tss.parseTpmAttest attest
  let (selections, consumed) ← tss.unmarshal raw
  raiseIf (consumed ≠ raw.length)
    (.value "TPMS_ATTEST parser did not consume the complete structure")
  return readSelections selections

/-! ### The loops -/

section Loops

private theorem foldl_append_if {α β : Type} (p : α → Prop) [DecidablePred p] (f : α → β)
    (xs : List α) (acc : List β) :
    xs.foldl (fun acc x ↦ if p x then acc ++ [f x] else acc) acc =
      acc ++ (xs.filter fun x ↦ decide (p x)).map f := by
  induction xs generalizing acc with
  | nil => simp
  | cons x xs ih =>
    rw [List.foldl_cons, ih]
    by_cases hx : p x <;> simp [hx]

private theorem and_shiftLeft_ne_zero (n j : Nat) : n &&& (1 <<< j) ≠ 0 ↔ n.testBit j = true := by
  rw [Nat.one_shiftLeft, Nat.and_two_pow]
  cases n.testBit j <;> simp

/-- One byte contributes its set bits in increasing order. -/
theorem readBits_eq (selected byteIndex : Nat) (is : List Nat) :
    readBits selected byteIndex is = is ++ Bitmap.byteIndices selected byteIndex := by
  unfold readBits Bitmap.byteIndices
  rw [foldl_append_if]
  congr 1
  have hbits : ((List.range 8).filter fun j ↦ decide (selected &&& (1 <<< j) ≠ 0)) =
      (List.range 8).filter selected.testBit := by
    apply List.filter_congr
    intro j _
    rw [Bool.eq_iff_iff, decide_eq_true_iff, and_shiftLeft_ne_zero]
  rw [hbits]
  apply List.map_congr_left
  intro j _
  omega

private theorem foldl_readBits (pcrSelect : Bytes) {n : Nat} (h : n ≤ pcrSelect.length) :
    (List.range n).foldl (fun indices byteIndex ↦
      readBits (pcrSelect.getD byteIndex 0).toNat byteIndex indices) [] =
      Bitmap.indices (pcrSelect.take n) := by
  induction n with
  | zero => rfl
  | succ n ih =>
    have hn : n < pcrSelect.length := by omega
    have hlength : (pcrSelect.take n).length = n := List.length_take_of_le (by omega)
    rw [List.range_succ, List.foldl_append, ih (by omega), List.foldl_cons, List.foldl_nil,
      readBits_eq, List.take_succ_eq_append_getElem hn, Bitmap.indices_concat, hlength,
      List.getD_eq_getElem _ _ hn]

/-- The loops read the indices of the bitmap. -/
theorem readIndices_eq (s : TpmsPcrSelection) : readIndices s = Bitmap.indices s.bitmap :=
  foldl_readBits s.pcrSelect s.size_le

/-- The banks are read one by one. -/
theorem readSelections_eq (selections : List TpmsPcrSelection) :
    readSelections selections =
      selections.map fun s ↦ (s.hash, (readIndices s).map Int.ofNat) := by
  have hfold : ∀ (ss : List TpmsPcrSelection) (acc : PcrSelection),
      ss.foldl (fun result s ↦ result ++ [(s.hash, (readIndices s).map Int.ofNat)]) acc =
        acc ++ ss.map fun s ↦ (s.hash, (readIndices s).map Int.ofNat) := by
    intro ss
    induction ss with
    | nil => simp
    | cons s ss ih =>
      intro acc
      rw [List.foldl_cons, ih]
      simp
  exact hfold selections []

/-- The reader returns the banks of a structure that was consumed completely. -/
theorem tpm2PytssSelectionReader_eq_ok {tss : TssParser} {attest : Bytes}
    {selection : PcrSelection} :
    tpm2PytssSelectionReader tss attest = .ok selection ↔
      ∃ raw selections, tss.parseTpmAttest attest = .ok raw ∧
        tss.unmarshal raw = .ok (selections, raw.length) ∧
        selection = readSelections selections := by
  simp only [tpm2PytssSelectionReader, bind_eq_ok, raiseIf_eq_ok, Decidable.not_not, pure,
    Except.pure, Except.ok.injEq]
  constructor
  · rintro ⟨raw, hraw, ⟨selections, consumed⟩, hparsed, _, rfl, rfl⟩
    exact ⟨raw, selections, hraw, hparsed, rfl⟩
  · rintro ⟨raw, selections, hraw, hparsed, rfl⟩
    exact ⟨raw, hraw, (selections, raw.length), hparsed, (), rfl, rfl⟩

end Loops

/-! ### The comparison with the policy -/

/-- A bank of a policy is the bank of a signed selection: the same name, and a strictly increasing
tuple of exactly the PCRs whose bits are set. -/
def Selects (s : TpmsPcrSelection) (bank : Text × List Int) : Prop :=
  bank.1 = s.hash ∧ bank.2.Pairwise (· < ·) ∧
    ∀ n : Int, n ∈ bank.2 ↔ ∃ i : Nat, n = i ∧ Bitmap.bit s.bitmap i = true

private theorem mem_map_readIndices {s : TpmsPcrSelection} {n : Int} :
    n ∈ (readIndices s).map Int.ofNat ↔ ∃ i : Nat, n = i ∧ Bitmap.bit s.bitmap i = true := by
  rw [readIndices_eq, List.mem_map]
  constructor
  · rintro ⟨i, hi, rfl⟩
    exact ⟨i, rfl, Bitmap.mem_indices.mp hi⟩
  · rintro ⟨i, rfl, hi⟩
    exact ⟨i, Bitmap.mem_indices.mpr hi, rfl⟩

private theorem pairwise_map_readIndices (s : TpmsPcrSelection) :
    ((readIndices s).map Int.ofNat).Pairwise (· < ·) := by
  rw [readIndices_eq, List.pairwise_map]
  apply (Bitmap.pairwise_indices s.bitmap).imp
  intro i j hij
  exact Int.ofNat_lt.mpr hij

/-- A bank is what is read exactly when it selects the same PCRs. -/
theorem read_eq_iff_selects {s : TpmsPcrSelection} {bank : Text × List Int} :
    (s.hash, (readIndices s).map Int.ofNat) = bank ↔ Selects s bank := by
  obtain ⟨name, is⟩ := bank
  rw [Prod.mk.injEq]
  constructor
  · rintro ⟨rfl, rfl⟩
    exact ⟨rfl, pairwise_map_readIndices s, fun n ↦ mem_map_readIndices⟩
  · rintro ⟨hname, hsorted, hmem⟩
    refine ⟨hname.symm, ?_⟩
    apply (pairwise_map_readIndices s).eq_of_mem_iff hsorted
    intro n
    rw [mem_map_readIndices]
    exact (hmem n).symm

/-- The comparison is of the banks in their order and of their PCR sets. -/
theorem readSelections_eq_iff {selections : List TpmsPcrSelection} {policy : PcrSelection} :
    readSelections selections = policy ↔ List.Forall₂ Selects selections policy := by
  rw [readSelections_eq]
  induction selections generalizing policy with
  | nil =>
    rw [List.map_nil, List.forall₂_nil_left_iff]
    exact eq_comm
  | cons s selections ih =>
    rw [List.map_cons, List.forall₂_cons_left_iff]
    constructor
    · rintro rfl
      exact ⟨_, _, read_eq_iff_selects.mp rfl, ih.mp rfl, rfl⟩
    · rintro ⟨bank, rest, hbank, hrest, rfl⟩
      rw [read_eq_iff_selects.mpr hbank, ih.mpr hrest]

section Comparison

variable {answers : (c : LibCall) → Except Exn c.Result} {evidence : TpmEvidence}
  {expectedQualifyingData : Bytes} {policy : TpmPolicy}

/-- What is left of an appraisal whose selection was read: a selection other than the policy's ends
it, and after the policy's own the evaluation time is read. -/
def Compared (evidence : TpmEvidence) (policy : TpmPolicy) (selection : PcrSelection)
    (h : History) (r : Except Exn Unit) : Prop :=
  (selection ≠ policy.selection →
    h = [⟨.lib (.readPcrSelection evidence.attest), .ok selection⟩] ∧
      r = .error (.decision .PCR_POLICY "signed TPM PCR selection is not approved")) ∧
  (selection = policy.selection → ∃ reply post,
    h = ⟨.lib (.readPcrSelection evidence.attest), .ok selection⟩ ::
      ⟨.lib .evaluationTime, reply⟩ :: post)

/-- `appraise` compares the selection that was read with the policy's before anything else. -/
theorem appraiseReleased_compared {selection : PcrSelection}
    (hread : answers (.readPcrSelection evidence.attest) = .ok selection) :
    Body.Sat (AnsweredBy answers) (fun _ _ ↦ True)
      (fun h r _ ↦ Compared evidence policy selection h r)
      (appraiseReleased evidence expectedQualifyingData policy : Py Unit Unit) [] () := by
  unfold appraiseReleased callLibExcept
  apply Body.Sat.invoke trivial
  · intro reply e hanswer he
    have hreply : reply = answers (.readPcrSelection evidence.attest) := hanswer
    rw [hreply, hread] at he
    cases he
  intro reply selection' hanswer hselection
  have hreply : reply = answers (.readPcrSelection evidence.attest) := hanswer
  rw [hreply, hread] at hselection
  cases hselection
  rw [hread] at hreply
  subst hreply
  apply Body.Sat.raiseIf
  · intro hne
    exact ⟨fun _ ↦ ⟨rfl, rfl⟩, fun heq ↦ absurd heq hne⟩
  intro heq
  rw [Decidable.not_not] at heq
  -- The `try` block starts with the evaluation time, and no later step forgets that it was read.
  have htime : Body.Sat (AnsweredBy answers) (fun _ _ ↦ True)
      (fun h _ _ ↦ ∃ reply, [⟨.lib (.readPcrSelection evidence.attest), .ok selection⟩,
        ⟨.lib .evaluationTime, reply⟩] <+: h) (evaluateChain evidence policy)
      [⟨.lib (.readPcrSelection evidence.attest), .ok selection⟩] () := by
    unfold evaluateChain callLib
    apply Body.Sat.invoke trivial
    · intro reply _ _ _
      exact ⟨reply, List.prefix_rfl⟩
    · intro reply _ _ _
      exact (Body.sat_extends _ _ _).mono fun _ _ _ hprefix ↦ ⟨reply, hprefix⟩
  apply Body.Sat.attempt htime
  rintro h' outcome _ _ ⟨reply, hprefix⟩
  apply (Body.sat_extends _ _ _).mono
  intro h r _ hextends
  obtain ⟨post, rfl⟩ := hprefix.trans hextends
  exact ⟨fun hne ↦ absurd heq hne, fun _ ↦ ⟨reply, post, rfl⟩⟩

/-- An accepted quote has the selection of the policy. -/
theorem read_of_accepted {h : History}
    (hpath : (appraiseReleased evidence expectedQualifyingData policy : Py Unit Unit).prog.Path h
      (.done (.ok ()))) (hrelies : Prog.Relies (AnsweredBy answers) h) :
    answers (.readPcrSelection evidence.attest) = .ok policy.selection := by
  have hexact : (appraiseReleased evidence expectedQualifyingData policy :
      Py Unit Unit).prog.Sat (AnsweredBy answers)
        (AppraisalOrder [] evidence expectedQualifyingData policy) (fun _ r ↦ r = .ok () ↔
          ∃ t, AppraisalAccepts answers evidence expectedQualifyingData policy t) [] := by
    apply Body.sat_prog.mpr
    apply (appraiseReleased_exact fun _ _ _ hr ↦ hr).mono
    intro _ _ _ hr
    exact hr.2
  obtain ⟨t, haccepts⟩ := (hexact.path hpath hrelies).mp rfl
  exact haccepts.1

end Comparison

/-- PCR selections, for every parser. The reader returns the signed banks in order, each with the
strictly increasing tuple of its set bits. Bitmaps are read equally exactly when they agree up to
trailing zero bytes, and encoding what was read gives the bitmap back up to those. No attestation
is read as a policy with a tuple that is unsorted or has duplicates. An appraisal with this reader
goes on after the comparison exactly when the signed banks are those of the policy, in the same
order and with the same PCR sets, and it accepts no other quote. -/
theorem pcrSelection_exact (tss : TssParser) :
    (∀ attest raw selections, tss.parseTpmAttest attest = .ok raw →
      tss.unmarshal raw = .ok (selections, raw.length) →
      ∃ selection, tpm2PytssSelectionReader tss attest = .ok selection ∧
        List.Forall₂ Selects selections selection) ∧
    (∀ s t, readIndices s = readIndices t ↔
      Bitmap.strip 0 s.bitmap = Bitmap.strip 0 t.bitmap) ∧
    (∀ s, Bitmap.strip 0 (Bitmap.encode (readIndices s)) = Bitmap.strip 0 s.bitmap) ∧
    (∀ attest policy, (∃ bank ∈ policy, ¬bank.2.Pairwise (· < ·)) →
      tpm2PytssSelectionReader tss attest ≠ .ok policy) ∧
    (∀ answers evidence expectedQualifyingData policy h r,
      answers (.readPcrSelection evidence.attest) =
        tpm2PytssSelectionReader tss evidence.attest →
      (appraiseReleased evidence expectedQualifyingData policy : Py Unit Unit).prog.Path h
        (.done r) → Prog.Relies (AnsweredBy answers) h →
      (∀ raw selections, tss.parseTpmAttest evidence.attest = .ok raw →
        tss.unmarshal raw = .ok (selections, raw.length) →
        (List.Forall₂ Selects selections policy.selection → ∃ reply post,
          h = ⟨.lib (.readPcrSelection evidence.attest), .ok policy.selection⟩ ::
            ⟨.lib .evaluationTime, reply⟩ :: post) ∧
        (¬List.Forall₂ Selects selections policy.selection →
          h.length = 1 ∧
          r = .error (.decision .PCR_POLICY "signed TPM PCR selection is not approved"))) ∧
      (r = .ok () → ∃ raw selections, tss.parseTpmAttest evidence.attest = .ok raw ∧
        tss.unmarshal raw = .ok (selections, raw.length) ∧
        List.Forall₂ Selects selections policy.selection)) := by
  refine ⟨?_, ?_, ?_, ?_, ?_⟩
  · intro attest raw selections hraw hparsed
    exact ⟨readSelections selections,
      tpm2PytssSelectionReader_eq_ok.mpr ⟨raw, selections, hraw, hparsed, rfl⟩,
      readSelections_eq_iff.mp rfl⟩
  · intro s t
    rw [readIndices_eq, readIndices_eq, Bitmap.indices_eq_indices]
  · intro s
    rw [readIndices_eq, Bitmap.strip_encode_indices]
  · rintro attest policy ⟨bank, hbank, hunsorted⟩ hread
    obtain ⟨raw, selections, _, _, hselection⟩ := tpm2PytssSelectionReader_eq_ok.mp hread
    rw [hselection, readSelections_eq, List.mem_map] at hbank
    obtain ⟨s, _, rfl⟩ := hbank
    exact hunsorted (pairwise_map_readIndices s)
  · intro answers evidence expectedQualifyingData policy h r hreader hpath hrelies
    constructor
    · intro raw selections hraw hparsed
      have hread : answers (.readPcrSelection evidence.attest) =
        .ok (readSelections selections) := by
        rw [hreader, tpm2PytssSelectionReader_eq_ok]
        exact ⟨raw, selections, hraw, hparsed, rfl⟩
      have hcompared : Compared evidence policy (readSelections selections) h r :=
        Prog.Sat.path (Body.sat_prog.mpr (appraiseReleased_compared hread)) hpath hrelies
      rw [← readSelections_eq_iff]
      constructor
      · intro heq
        rw [← heq]
        exact hcompared.2 heq
      · intro hne
        obtain ⟨hh, hr⟩ := hcompared.1 hne
        rw [hh]
        exact ⟨rfl, hr⟩
    · rintro rfl
      have hread := read_of_accepted hpath hrelies
      rw [hreader, tpm2PytssSelectionReader_eq_ok] at hread
      obtain ⟨raw, selections, hraw, hparsed, hselection⟩ := hread
      exact ⟨raw, selections, hraw, hparsed, readSelections_eq_iff.mp hselection.symm⟩

namespace Demo

/-- A bank with the PCRs 0, 1, 7 and 16 and one byte more than its size covers. -/
def pcrBank : TpmsPcrSelection := ⟨text "sha256", 3, [131, 0, 1, 255], by decide⟩

/-- A parser that delivers the bank. -/
def pcrParser : TssParser := ⟨.ok, fun raw ↦ .ok ([pcrBank], raw.length)⟩

/-- Packages that read the bank and accept its quote at the instant 5. -/
def pcrAnswers : (c : LibCall) → Except Exn c.Result
  | .readPcrSelection attest => tpm2PytssSelectionReader pcrParser attest
  | c => akAnswers c

/-- A policy for the PCRs of the bank. -/
def pcrPolicy : TpmPolicy := ⟨[(text "sha256", [0, 1, 7, 16])], [], [3]⟩

end Demo

/-- The law at one bank: the quote is appraised under the sorted policy. -/
theorem pcrSelection_exact_bank :
    ∃ h, (appraiseReleased Demo.akEvidence [] Demo.pcrPolicy : Py Unit Unit).prog.Path h
        (.done (.ok ())) ∧ Prog.Relies (AnsweredBy Demo.pcrAnswers) h ∧
      List.Forall₂ Selects [Demo.pcrBank] Demo.pcrPolicy.selection ∧
      ∃ raw selections, Demo.pcrParser.parseTpmAttest Demo.akEvidence.attest = .ok raw ∧
        Demo.pcrParser.unmarshal raw = .ok (selections, raw.length) ∧
        List.Forall₂ Selects selections Demo.pcrPolicy.selection := by
  let h : History := prepared Demo.akEvidence Demo.pcrPolicy 5 [Demo.akLeaf, Demo.akRoot]
    [Demo.akRoot] ++ [⟨.lib (.verifyTpmQuote (quoteCheck Demo.akEvidence [] Demo.pcrPolicy 5)),
      .ok (.bool true)⟩]
  have hpath : (appraiseReleased Demo.akEvidence [] Demo.pcrPolicy : Py Unit Unit).prog.Path h
      (.done (.ok ())) :=
    .cons _ (.cons _ (.cons _ (.cons _ (.cons _ (.nil _)))))
  have hread : readSelections [Demo.pcrBank] = Demo.pcrPolicy.selection := by decide
  have hrelies : Prog.Relies (AnsweredBy Demo.pcrAnswers) h := by
    intro pre ev post he
    have hmem : ev ∈ h := by
      rw [he]
      simp
    simp only [h, prepared, parsed, List.cons_append, List.nil_append, List.mem_cons,
      List.not_mem_nil, or_false] at hmem
    rcases hmem with rfl | rfl | rfl | rfl | rfl
    · change _ = tpm2PytssSelectionReader Demo.pcrParser Demo.akEvidence.attest
      rw [← hread]
      rfl
    · rfl
    · rfl
    · rfl
    · rfl
  exact ⟨h, hpath, hrelies, readSelections_eq_iff.mp hread,
    ((pcrSelection_exact Demo.pcrParser).2.2.2.2 Demo.pcrAnswers _ _ _ h _ rfl hpath hrelies).2 rfl⟩

end Atcap
