import Mathlib.Data.List.DropRight
import Mathlib.Data.List.Sort
import Mathlib.Data.Nat.Bitwise
import Atcap.Base.Text

/-!
# Bitmaps

Library `Base`. A bitmap is a byte sequence: the bit with number `i` is bit `i % 8` of byte
`i / 8`, and every bit past the last byte is clear. Its indices are the numbers of its set bits in
increasing order. Bitmaps with the same indices differ in trailing zero bytes only.
-/

namespace Atcap.Base.Bitmap

/-! ### Trailing padding -/

section Padding

variable {α : Type} [DecidableEq α] {z : α} {a b : List α}

/-- A list without the trailing copies of its padding value. -/
def strip (z : α) (a : List α) : List α := a.rdropWhile fun x ↦ decide (x = z)

/-- Nothing that was there is changed by stripping, past the end included. -/
theorem getD_strip (z : α) (a : List α) (k : Nat) : (strip z a).getD k z = a.getD k z := by
  induction a using List.reverseRecOn with
  | nil => rfl
  | append_singleton a x ih =>
    by_cases hx : x = z
    · rw [strip, List.rdropWhile_concat_pos _ _ _ (by simpa using hx)]
      change (strip z a).getD k z = _
      rw [ih, hx]
      by_cases hk : k < a.length
      · rw [List.getD_append _ _ _ _ hk]
      · rw [List.getD_append_right _ _ _ _ (by omega), List.getD_eq_default _ _ (by omega)]
        cases k - a.length <;> rfl
    · rw [strip, List.rdropWhile_concat_neg _ _ _ (by simpa using hx)]

private theorem getD_pred_strip_ne (h : strip z a ≠ []) :
    (strip z a).getD ((strip z a).length - 1) z ≠ z := by
  have hlast := List.rdropWhile_last_not (fun x ↦ decide (x = z)) a h
  have hpos : 0 < (strip z a).length := List.length_pos_iff.mpr h
  rw [List.getD_eq_getElem _ _ (by omega), ← List.getLast_eq_getElem h]
  simpa [strip] using hlast

private theorem length_strip_le (h : ∀ k, a.getD k z = b.getD k z) :
    (strip z a).length ≤ (strip z b).length := by
  by_contra hlt
  have hne : strip z a ≠ [] := by
    intro hnil
    simp [hnil] at hlt
  apply getD_pred_strip_ne hne
  rw [getD_strip, h, ← getD_strip]
  exact List.getD_eq_default _ _ (by omega)

/-- Lists agree up to padding exactly when they agree at every position. -/
theorem strip_eq_strip : strip z a = strip z b ↔ ∀ k, a.getD k z = b.getD k z := by
  constructor
  · intro h k
    rw [← getD_strip z a, h, getD_strip]
  · intro h
    have hlength : (strip z a).length = (strip z b).length :=
      Nat.le_antisymm (length_strip_le h) (length_strip_le fun k ↦ (h k).symm)
    apply List.ext_getElem hlength
    intro k hka hkb
    have hk := h k
    rw [← getD_strip z a, ← getD_strip z b, List.getD_eq_getElem _ _ hka,
      List.getD_eq_getElem _ _ hkb] at hk
    exact hk

end Padding

/-! ### Bits and indices -/

/-- Bit `i` of a bitmap. -/
def bit (b : Bytes) (i : Nat) : Bool := (b.getD (i / 8) 0).toNat.testBit (i % 8)

/-- The numbers of the set bits, in increasing order. -/
def indices (b : Bytes) : List Nat := (List.range (8 * b.length)).filter (bit b)

/-- A set bit is in one of the bytes. -/
theorem lt_of_bit {b : Bytes} {i : Nat} (h : bit b i = true) : i < 8 * b.length := by
  by_contra hle
  rw [bit, List.getD_eq_default _ _ (by omega)] at h
  simp at h

/-- The indices are the numbers of the set bits. -/
@[simp] theorem mem_indices {b : Bytes} {i : Nat} : i ∈ indices b ↔ bit b i = true := by
  rw [indices, List.mem_filter, List.mem_range]
  exact ⟨fun h ↦ h.2, fun h ↦ ⟨lt_of_bit h, h⟩⟩

/-- The indices increase strictly. -/
theorem pairwise_indices (b : Bytes) : (indices b).Pairwise (· < ·) :=
  List.Pairwise.filter _ List.pairwise_lt_range

private theorem byte_ext {x y : UInt8} (h : ∀ j < 8, x.toNat.testBit j = y.toNat.testBit j) :
    x = y := by
  apply UInt8.toNat.inj
  apply Nat.eq_of_testBit_eq
  intro j
  by_cases hj : j < 8
  · exact h j hj
  · have hpow : 2 ^ 8 ≤ 2 ^ j := Nat.pow_le_pow_right (by decide) (by omega)
    have hx := x.toNat_lt
    have hy := y.toNat_lt
    rw [Nat.testBit_lt_two_pow (by omega), Nat.testBit_lt_two_pow (by omega)]

/-- Bitmaps with the same bits have the same bytes, up to padding. -/
theorem forall_bit_eq {a b : Bytes} : (∀ i, bit a i = bit b i) ↔ strip 0 a = strip 0 b := by
  rw [strip_eq_strip]
  constructor
  · intro h k
    apply byte_ext
    intro j hj
    have hbit := h (8 * k + j)
    have hdiv : (8 * k + j) / 8 = k := by omega
    have hmod : (8 * k + j) % 8 = j := by omega
    rwa [bit, bit, hdiv, hmod] at hbit
  · intro h i
    rw [bit, bit, h]

/-- The indices determine the bitmap up to trailing zero bytes. -/
theorem indices_eq_indices {a b : Bytes} : indices a = indices b ↔ strip 0 a = strip 0 b := by
  rw [← forall_bit_eq]
  constructor
  · intro h i
    rw [Bool.eq_iff_iff, ← mem_indices, h, mem_indices]
  · intro h
    apply (pairwise_indices a).eq_of_mem_iff (pairwise_indices b)
    intro i
    rw [mem_indices, mem_indices, h]

/-! ### Encoding -/

/-- The byte that holds the listed bits from `8 * k` on. -/
def byteOf (is : List Nat) (k : Nat) : UInt8 :=
  UInt8.ofNat (Nat.ofBits fun j : Fin 8 ↦ decide (8 * k + j.val ∈ is))

/-- The shortest bitmap with the listed bits set. -/
def encode (is : List Nat) : Bytes :=
  (List.range (is.foldr (fun i n ↦ max (i / 8 + 1) n) 0)).map (byteOf is)

private theorem testBit_byteOf (is : List Nat) (k : Nat) {j : Nat} (hj : j < 8) :
    (byteOf is k).toNat.testBit j = decide (8 * k + j ∈ is) := by
  have hlt : Nat.ofBits (fun j : Fin 8 ↦ decide (8 * k + j.val ∈ is)) < 2 ^ 8 :=
    Nat.ofBits_lt_two_pow _
  rw [byteOf, UInt8.toNat_ofNat_of_lt' (by simpa using hlt), Nat.testBit_ofBits_lt _ _ hj]

private theorem lt_foldr_of_mem {is : List Nat} {i : Nat} (h : i ∈ is) :
    i / 8 < is.foldr (fun i n ↦ max (i / 8 + 1) n) 0 := by
  induction is with
  | nil => cases h
  | cons j is ih =>
    rw [List.foldr_cons]
    rcases List.mem_cons.mp h with rfl | h
    · omega
    · have := ih h
      omega

/-- The bits of an encoding are the listed ones. -/
theorem bit_encode (is : List Nat) (i : Nat) : bit (encode is) i = decide (i ∈ is) := by
  have hi : 8 * (i / 8) + i % 8 = i := Nat.div_add_mod i 8
  by_cases hk : i / 8 < (encode is).length
  · rw [bit, List.getD_eq_getElem _ _ hk]
    simp only [encode, List.getElem_map, List.getElem_range]
    rw [testBit_byteOf _ _ (by omega), hi]
  · have hnot : i ∉ is := by
      intro hmem
      apply hk
      simpa [encode] using lt_foldr_of_mem hmem
    rw [bit, List.getD_eq_default _ _ (by omega)]
    simp [hnot]

/-- Encoding the indices of a bitmap gives it back up to trailing zero bytes. -/
theorem strip_encode_indices (b : Bytes) : strip 0 (encode (indices b)) = strip 0 b := by
  rw [← forall_bit_eq]
  intro i
  rw [bit_encode, Bool.eq_iff_iff, decide_eq_true_iff, mem_indices]

/-! ### Reading byte by byte -/

/-- The set bits of the byte at a position. -/
def byteIndices (selected : Nat) (k : Nat) : List Nat :=
  ((List.range 8).filter selected.testBit).map (8 * k + ·)

/-- The indices are those of the bytes, one after the other. -/
theorem indices_concat (b : Bytes) (x : UInt8) :
    indices (b ++ [x]) = indices b ++ byteIndices x.toNat b.length := by
  have hold : (List.range (8 * b.length)).filter (bit (b ++ [x])) = indices b := by
    apply List.filter_congr
    intro i hi
    have hlt : i / 8 < b.length := by
      have := List.mem_range.mp hi
      omega
    rw [bit, bit, List.getD_append _ _ _ _ hlt]
  have hnew : ∀ j < 8, bit (b ++ [x]) (8 * b.length + j) = x.toNat.testBit j := by
    intro j hj
    have hdiv : (8 * b.length + j) / 8 = b.length := by omega
    have hmod : (8 * b.length + j) % 8 = j := by omega
    rw [bit, hdiv, hmod, List.getD_append_right _ _ _ _ (Nat.le_refl _), Nat.sub_self]
    rfl
  have hlength : 8 * (b ++ [x]).length = 8 * b.length + 8 := by
    rw [List.length_append, List.length_singleton]
    omega
  rw [indices, hlength, List.range_add, List.filter_append, hold, List.filter_map, byteIndices]
  congr 2
  apply List.filter_congr
  intro j hj
  exact hnew j (List.mem_range.mp hj)

end Atcap.Base.Bitmap
