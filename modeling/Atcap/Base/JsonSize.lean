import Atcap.Base.JsonCanonical

/-!
# The size of canonical texts

Library `Base`. A bound of the bytes that a value is written to, which is computed without writing
the value.
-/

namespace Atcap.Base

/-- An ASCII text has as many bytes as code points. -/
theorem length_utf8_of_ascii {t : Text} (h : ∀ c ∈ t, c.val < 128) :
    (utf8 t).length = t.length := by
  induction t with
  | nil => rfl
  | cons c t ih =>
    rw [List.forall_mem_cons] at h
    rw [utf8, List.flatMap_cons, utf8CodePoint, if_pos h.1, List.singleton_append,
      List.length_cons, List.length_cons, ← utf8, ih h.2]

namespace Json

mutual

/-- A bound of the bytes of the canonical text of a value: six for each code point of a string and
twenty for a number or a constant. -/
def size : Value → Nat
  | .str t => 6 * t.length + 2
  | .list xs => sizeElements xs + 2
  | .dict m => sizeMembers m + 2
  | .none | .bool _ | .int _ | .float _ | .bytes _ | .object _ => 20

/-- The bound of the elements of an array, each with a comma. -/
def sizeElements : List Value → Nat
  | [] => 0
  | v :: rest => size v + 1 + sizeElements rest

/-- The bound of the members of an object, each with its quotes, a colon and a comma. -/
def sizeMembers : List (Text × Value) → Nat
  | [] => 0
  | (k, v) :: rest => 6 * k.length + 4 + size v + sizeMembers rest

end

/-- The bound of an array. -/
theorem size_list (xs : List Value) : size (.list xs) = (xs.map fun v ↦ size v + 1).sum + 2 := by
  have helements : ∀ xs, sizeElements xs = (xs.map fun v ↦ size v + 1).sum := by
    intro xs
    induction xs with
    | nil => rfl
    | cons v rest ih => rw [sizeElements, ih, List.map_cons, List.sum_cons]
  rw [size, helements]

/-- The bound of an object. -/
theorem size_dict (m : List (Text × Value)) :
    size (.dict m) = (m.map fun p ↦ 6 * p.1.length + 4 + size p.2).sum + 2 := by
  have hmembers : ∀ m, sizeMembers m = (m.map fun p ↦ 6 * p.1.length + 4 + size p.2).sum := by
    intro m
    induction m with
    | nil => rfl
    | cons p rest ih => rw [sizeMembers, ih, List.map_cons, List.sum_cons]
  rw [size, hmembers]

/-- Two objects that differ in one member differ by the bound of its value. -/
theorem size_member {α : Type*} {dump value : α → Value} {front back : List (Text × Value)}
    {key : Text} (h : ∀ a, dump a = .dict (front ++ (key, value a) :: back)) (a b : α) :
    size (dump a) + size (value b) = size (dump b) + size (value a) := by
  rw [h, h, size_dict, size_dict, List.map_append, List.map_append, List.sum_append,
    List.sum_append, List.map_cons, List.map_cons, List.sum_cons, List.sum_cons]
  dsimp only
  omega

/-- Ordering the members of objects keeps the bound. -/
theorem size_sorted (v : Value) : size (sorted v) = size v := by
  induction v using Value.nestedInduction with
  | list xs ih =>
    rw [sorted_list, size_list, size_list, List.map_map]
    congr 2
    exact List.map_congr_left fun x hx ↦ by rw [Function.comp_apply, ih x hx]
  | dict m ih =>
    rw [sorted_dict, size_dict, size_dict, ((List.perm_insertionSort memberLe _).map _).sum_eq,
      List.map_map]
    congr 2
    exact List.map_congr_left fun p hp ↦ by rw [Function.comp_apply, ih p hp]
  | _ => rfl

/-! ### Texts -/

private theorem length_utf8CodePoint_le (c : CodePoint) : (utf8CodePoint c).length ≤ 4 := by
  unfold utf8CodePoint
  split
  · simp
  · split
    · simp
    · split <;> simp

private theorem length_utf8_hexDigit (n : Nat) : (utf8CodePoint (hexDigit n)).length = 1 := by
  have h := isLowerHex_hexDigit n
  simp only [isLowerHex, Bool.or_eq_true, Bool.and_eq_true, decide_eq_true_eq] at h
  rw [utf8CodePoint, if_pos (by omega), List.length_singleton]

private theorem length_escape_le (c : CodePoint) : (utf8 (escape c)).length ≤ 6 := by
  have hshort : ∀ e, shortEscape? c = some e → (utf8 e).length ≤ 6 := by
    intro e he
    unfold shortEscape? at he
    split at he <;> cases he <;> decide
  unfold escape
  split
  · next e he => exact hshort e he
  · split
    · have htext : (utf8 (text "\\u")).length = 2 := by decide
      rw [unitEscape, utf8, List.flatMap_append, List.length_append, ← utf8, htext]
      simp only [List.flatMap_cons, List.flatMap_nil, List.length_append, length_utf8_hexDigit,
        List.length_nil]
      omega
    · have hone := length_utf8CodePoint_le c
      rw [utf8, List.flatMap_singleton]
      omega

private theorem length_utf8_append (a b : Text) :
    (utf8 (a ++ b)).length = (utf8 a).length + (utf8 b).length := by
  rw [utf8, List.flatMap_append, List.length_append, ← utf8, ← utf8]

private theorem length_quote_le (t : Text) : (utf8 (quote escape t)).length ≤ 6 * t.length + 2 := by
  have hmark : (utf8 (text "\"")).length = 1 := by decide
  have hbody : (utf8 (t.flatMap escape)).length ≤ 6 * t.length := by
    induction t with
    | nil => exact Nat.le_refl 0
    | cons c t ih =>
      have hone := length_escape_le c
      rw [List.flatMap_cons, length_utf8_append, List.length_cons]
      omega
  rw [quote, length_utf8_append, length_utf8_append, hmark]
  omega

private theorem length_commas_le : ∀ es : List Text,
    (utf8 (commas es)).length ≤ (es.map fun e ↦ (utf8 e).length + 1).sum
  | [] => Nat.le_refl 0
  | [e] => by simp [commas]
  | e :: e' :: rest => by
    have hmark : (utf8 (text ",")).length = 1 := by decide
    have ih := length_commas_le (e' :: rest)
    rw [commas, length_utf8_append, length_utf8_append, hmark, List.map_cons, List.sum_cons]
    omega

private theorem length_decimal_le {n : Int} (h : exactInt n = true) :
    (utf8 (decimal n)).length ≤ 20 := by
  have hdigits : (decimalNat n.natAbs).length ≤ 16 := by
    rw [length_decimalNat_le_iff (by decide)]
    simp only [exactInt, decide_eq_true_eq] at h
    omega
  have hascii : ∀ c ∈ decimalNat n.natAbs, c.val < 128 := by
    intro c hc
    have hdigit := decimalNat_isDigit _ c hc
    simp only [isDigit, Bool.and_eq_true, decide_eq_true_eq] at hdigit
    omega
  unfold decimal
  split
  · have hsign : (utf8 [codePoint '-']).length = 1 := by decide
    rw [← List.singleton_append, length_utf8_append, hsign, length_utf8_of_ascii hascii]
    omega
  · rw [length_utf8_of_ascii hascii]
    omega

private theorem length_write_le {v : Value} {t : Text} (h : write canonicalStyle v = some t) :
    (utf8 t).length ≤ size v := by
  induction v using Value.nestedInduction generalizing t with
  | none => cases h; decide
  | bool b => cases b <;> cases h <;> decide
  | int n =>
    rw [write, canonicalStyle] at h
    simp only [Option.ite_none_right_eq_some, Option.some.injEq] at h
    obtain ⟨hn, rfl⟩ := h
    exact length_decimal_le hn
  | float bits => cases h
  | str t' =>
    cases h
    exact length_quote_le t'
  | bytes b => cases h
  | object id => cases h
  | list xs ih =>
    rw [write, Option.map_eq_some_iff] at h
    obtain ⟨es, hes, rfl⟩ := h
    have hsum : (es.map fun e ↦ (utf8 e).length + 1).sum ≤ sizeElements xs := by
      induction xs generalizing es with
      | nil => cases hes; exact Nat.le_refl 0
      | cons v rest ihrest =>
        simp only [writeElements, Option.bind_eq_bind, Option.bind_eq_some_iff, Option.pure_def,
          Option.some.injEq] at hes
        obtain ⟨e, he, es', hes', rfl⟩ := hes
        have hv := ih v List.mem_cons_self he
        have hrest := ihrest (fun x hx ↦ ih x (List.mem_cons_of_mem _ hx)) es' hes'
        rw [List.map_cons, List.sum_cons, sizeElements]
        omega
    have hcommas := length_commas_le es
    have hopen : (utf8 (text "[")).length = 1 := by decide
    have hclose : (utf8 (text "]")).length = 1 := by decide
    rw [length_utf8_append, length_utf8_append, hopen, hclose, size]
    omega
  | dict m ih =>
    rw [write, Option.map_eq_some_iff] at h
    obtain ⟨es, hes, rfl⟩ := h
    have hcolon : (utf8 (text ":")).length = 1 := by decide
    have hsum : (es.map fun e ↦ (utf8 e).length + 1).sum ≤ sizeMembers m := by
      induction m generalizing es with
      | nil => cases hes; exact Nat.le_refl 0
      | cons p rest ihrest =>
        obtain ⟨k, v⟩ := p
        simp only [writeMembers, Option.bind_eq_bind, Option.bind_eq_some_iff, Option.pure_def,
          Option.some.injEq] at hes
        obtain ⟨e, he, es', hes', rfl⟩ := hes
        have hv := ih (k, v) List.mem_cons_self he
        have hk : (utf8 (quote canonicalStyle.escape k)).length ≤ 6 * k.length + 2 :=
          length_quote_le k
        have hrest := ihrest (fun x hx ↦ ih x (List.mem_cons_of_mem _ hx)) es' hes'
        rw [List.map_cons, List.sum_cons, sizeMembers, length_utf8_append, length_utf8_append,
          hcolon]
        dsimp only at hv
        omega
    have hcommas := length_commas_le es
    have hopen : (utf8 (text "\x7b")).length = 1 := by decide
    have hclose : (utf8 (text "\x7d")).length = 1 := by decide
    rw [length_utf8_append, length_utf8_append, hopen, hclose, size]
    omega

/-- The bytes of a canonical text are within the bound of its value. -/
theorem length_canonicalText_le {v : Value} {t : Text} (h : canonicalText v = some t) :
    (utf8 t).length ≤ size v :=
  (length_write_le h).trans_eq (size_sorted v)

end Json

end Atcap.Base
