import Mathlib.Order.RelClasses
import Atcap.Base.JsonRoundTrip
import Atcap.Base.Table

/-!
# Canonical JSON

Library `Base`. The canonical form of RFC 8785: members in the order of the UTF-16 code units
of their keys, no white space, minimal escapes, integers within the range that a binary64
number holds exactly. Floating-point numbers have a canonical form too, which is not defined
here.
-/

namespace Atcap.Base.Json

/-! ### The order of keys -/

/-- The UTF-16 code units of a text. -/
def utf16 (t : Text) : List Nat := t.flatMap utf16CodePoint

/-- Joining the code units of an encodable text gives the text. -/
theorem joinUnits_utf16 {t : Text} (h : t.encodable = true) : joinUnits (utf16 t) = some t := by
  induction t with
  | nil => rfl
  | cons c rest ih =>
    simp only [Text.encodable, List.all_cons, Bool.and_eq_true, Bool.not_eq_true'] at h
    have hsurrogate := h.1
    simp only [isSurrogate, Bool.and_eq_false_iff, decide_eq_false_iff_not] at hsurrogate
    have hc := c.isLt
    have ihrest : joinUnits (utf16 rest) = some rest := ih h.2
    have hcons : utf16 (c :: rest) = utf16CodePoint c ++ utf16 rest := rfl
    rw [hcons, utf16CodePoint]
    split
    · next hlt =>
      rw [List.singleton_append]
      cases hunits : utf16 rest with
      | nil =>
        rw [hunits] at ihrest
        cases ihrest
        rw [joinUnits, codePoint?_val]
        rfl
      | cons u units =>
        rw [hunits] at ihrest
        rw [joinUnits, if_neg (by omega), codePoint?_val, ihrest]
        rfl
    · next hge =>
      rw [List.cons_append, List.cons_append, List.nil_append, joinUnits, if_pos (by omega)]
      have hval : 0x10000 + (0xD800 + (c.val - 0x10000) / 0x400 - 0xD800) * 0x400 +
          (0xDC00 + (c.val - 0x10000) % 0x400 - 0xDC00) = c.val := by omega
      rw [hval, codePoint?_val, ihrest]
      rfl

/-- Encodable texts with the same code units are equal. -/
theorem utf16_inj {a b : Text} (ha : a.encodable = true) (hb : b.encodable = true)
    (h : utf16 a = utf16 b) : a = b := by
  have hja := joinUnits_utf16 ha
  rw [h, joinUnits_utf16 hb] at hja
  exact (Option.some.inj hja).symm

/-- The lexicographic order of UTF-16 code units. -/
def utf16Le (a b : Text) : Prop := utf16 a ≤ utf16 b

instance : DecidableRel utf16Le := fun a b ↦ inferInstanceAs (Decidable (utf16 a ≤ utf16 b))

/-- Members compared by their keys. -/
def memberLe (a b : Text × Value) : Prop := utf16Le a.1 b.1

instance : DecidableRel memberLe := fun a b ↦ inferInstanceAs (Decidable (utf16Le a.1 b.1))

instance : Std.Total memberLe := ⟨fun a b ↦ le_total (utf16 a.1) (utf16 b.1)⟩

instance : IsTrans (Text × Value) memberLe := ⟨fun _ _ _ hab hbc ↦ le_trans hab hbc⟩

/-! ### Sorting the members of objects -/

/-- A value with the members of every object in canonical order. -/
def sorted (v : Value) : Value := sortKeys utf16Le v

/-- Sorting the members of an object. -/
theorem sorted_dict (m : List (Text × Value)) :
    sorted (.dict m) = .dict ((m.map fun p ↦ (p.1, sorted p.2)).insertionSort memberLe) := by
  rw [sorted, sortKeys_dict]
  rfl

/-- Sorting the elements of an array. -/
theorem sorted_list (xs : List Value) : sorted (.list xs) = .list (xs.map sorted) := by
  rw [sorted, sortKeys_list]
  rfl

/-- An optional text has nothing to sort. -/
@[simp] theorem sorted_ofText? (o : Option Text) : sorted (.ofText? o) = .ofText? o := by
  cases o <;> rfl

/-- An optional integer has nothing to sort. -/
@[simp] theorem sorted_ofInt? (o : Option Int) : sorted (.ofInt? o) = .ofInt? o := by
  cases o <;> rfl

/-- Sorting a dictionary of texts changes the order of its members only. -/
theorem sorted_ofTexts (m : List (Text × Text)) :
    ∃ m' : List (Text × Text), m'.Perm m ∧ sorted (.ofTexts m) = .ofTexts m' := by
  let le : Text × Text → Text × Text → Prop := fun a b ↦ utf16Le a.1 b.1
  have hle : DecidableRel le := fun a b ↦ inferInstanceAs (Decidable (utf16Le a.1 b.1))
  refine ⟨m.insertionSort le, List.perm_insertionSort le m, ?_⟩
  rw [Value.ofTexts, sorted_dict, List.map_map, Value.ofTexts]
  congr 1
  exact (List.map_insertionSort le memberLe _ m fun _ _ _ _ ↦ Iff.rfl).symm

/-- Sorting twice is sorting once. -/
theorem sorted_sorted (v : Value) : sorted (sorted v) = sorted v := by
  induction v using Value.nestedInduction with
  | list xs ih =>
    rw [sorted_list, sorted_list, List.map_map]
    exact congrArg Value.list (List.map_congr_left ih)
  | dict m ih =>
    have hmap : ∀ m : List (Text × Value), (m.insertionSort memberLe).map
        (fun p ↦ (p.1, sorted p.2)) = (m.map fun p ↦ (p.1, sorted p.2)).insertionSort memberLe :=
      fun m ↦ List.map_insertionSort memberLe memberLe _ m fun _ _ _ _ ↦ Iff.rfl
    have hvalues : (m.map fun p ↦ (p.1, sorted p.2)).map (fun p ↦ (p.1, sorted p.2)) =
        m.map fun p ↦ (p.1, sorted p.2) := by
      rw [List.map_map]
      exact List.map_congr_left fun p hp ↦ Prod.ext rfl (ih p hp)
    rw [sorted_dict, sorted_dict, hmap, hvalues,
      (List.pairwise_insertionSort memberLe _).insertionSort_eq]
  | _ => rfl

/-- Sorting keeps a condition on the values and on the sets of keys. -/
theorem everywhere_sorted {leaf : Value → Bool} {keys : List Text → Bool}
    (hkeys : ∀ {a b : List Text}, a.Perm b → keys a = keys b) (v : Value) :
    (sorted v).everywhere leaf keys = v.everywhere leaf keys := everywhere_sortKeys utf16Le hkeys v

/-- Sorting keeps the keys of every dictionary distinct. -/
@[simp] theorem distinctKeys_sorted (v : Value) : (sorted v).distinctKeys = v.distinctKeys :=
  everywhere_sorted (fun h ↦ decide_eq_decide.mpr h.nodup_iff) v

/-! ### Values with a canonical form -/

/-- Integers of magnitude at most `2 ^ 53 - 1`. -/
def exactInt (n : Int) : Bool := decide (n.natAbs ≤ 2 ^ 53 - 1)

/-- Values that RFC 8785 gives a canonical form: no other integers, no infinity or NaN, no lone
surrogate, and nothing outside JSON. -/
def canonicalizable (v : Value) : Bool :=
  v.everywhere (fun
    | .int n => exactInt n
    | .float bits => Value.finite bits
    | .str t => t.encodable
    | .bytes _ => false
    | .object _ => false
    | _ => true) (fun keys ↦ keys.all Text.encodable)

/-- Whether no number in the value is a floating-point one. -/
def floatFree (v : Value) : Bool :=
  v.everywhere (fun
    | .float _ => false
    | _ => true) (fun _ ↦ true)

/-- Sorting keeps the values that have a canonical form. -/
@[simp] theorem canonicalizable_sorted (v : Value) :
    canonicalizable (sorted v) = canonicalizable v :=
  everywhere_sorted (fun h ↦ h.all_eq) v

/-- Sorting adds no floating-point number. -/
@[simp] theorem floatFree_sorted (v : Value) : floatFree (sorted v) = floatFree v :=
  everywhere_sorted (fun _ ↦ rfl) v

/-- An object has a canonical form when its keys and values do. -/
theorem canonicalizable_dict {m : List (Text × Value)} : canonicalizable (.dict m) = true ↔
    ∀ p ∈ m, p.1.encodable = true ∧ canonicalizable p.2 = true := by
  rw [canonicalizable, Value.everywhere_dict, Bool.and_eq_true, List.all_map, List.all_eq_true,
    List.all_eq_true]
  exact forall₂_and.symm

/-- An array has a canonical form when its elements do. -/
theorem canonicalizable_list {xs : List Value} : canonicalizable (.list xs) = true ↔
    ∀ x ∈ xs, canonicalizable x = true := by
  rw [canonicalizable, Value.everywhere_list, List.all_eq_true]
  rfl

/-- An optional text has a canonical form when the text has no lone surrogate. -/
theorem canonicalizable_ofText? {o : Option Text} : canonicalizable (.ofText? o) = true ↔
    ∀ t, o = some t → t.encodable = true := by
  cases o with
  | none => exact iff_of_true rfl (by simp)
  | some t => simp [canonicalizable, Value.ofText?, Value.everywhere]

/-- An optional integer has a canonical form when the integer is exact. -/
theorem canonicalizable_ofInt? {o : Option Int} : canonicalizable (.ofInt? o) = true ↔
    ∀ n, o = some n → exactInt n = true := by
  cases o with
  | none => exact iff_of_true rfl (by simp)
  | some n => simp [canonicalizable, Value.ofInt?, Value.everywhere]

/-- Floating-point numbers in an object are in its values. -/
theorem floatFree_dict {m : List (Text × Value)} : floatFree (.dict m) = true ↔
    ∀ p ∈ m, floatFree p.2 = true := by
  rw [floatFree, Value.everywhere_dict, Bool.true_and, List.all_eq_true]
  rfl

/-- Floating-point numbers in an array are in its elements. -/
theorem floatFree_list {xs : List Value} : floatFree (.list xs) = true ↔
    ∀ x ∈ xs, floatFree x = true := by
  rw [floatFree, Value.everywhere_list, List.all_eq_true]
  rfl

/-- The order of the members of an object does not matter. -/
theorem sorted_dict_congr {m₁ m₂ : List (Text × Value)}
    (h : (m₁.map fun p ↦ (p.1, sorted p.2)).Perm (m₂.map fun p ↦ (p.1, sorted p.2)))
    (hnodup : (m₁.map Prod.fst).Nodup) (hkeys : ∀ p ∈ m₁, p.1.encodable = true) :
    sorted (.dict m₁) = sorted (.dict m₂) := by
  have hfst : ∀ m : List (Text × Value),
      (m.map fun p ↦ (p.1, sorted p.2)).map Prod.fst = m.map Prod.fst := by
    intro m
    rw [List.map_map]
    rfl
  have hp₁ := List.perm_insertionSort memberLe (m₁.map fun p ↦ (p.1, sorted p.2))
  have hp₂ := List.perm_insertionSort memberLe (m₂.map fun p ↦ (p.1, sorted p.2))
  rw [sorted_dict, sorted_dict]
  congr 1
  -- two sorted lists of the same members; equal keys are equal members
  refine List.Perm.eq_of_pairwise ?_ (List.pairwise_insertionSort memberLe _)
    (List.pairwise_insertionSort memberLe _) (hp₁.trans (h.trans hp₂.symm))
  intro a b ha hb hab hba
  replace ha := hp₁.mem_iff.mp ha
  replace hb := h.mem_iff.mpr (hp₂.mem_iff.mp hb)
  have hencodable : ∀ p ∈ m₁.map (fun p ↦ (p.1, sorted p.2)), p.1.encodable = true := by
    intro p hp
    obtain ⟨q, hq, rfl⟩ := List.mem_map.mp hp
    exact hkeys q hq
  have hkey : a.1 = b.1 :=
    utf16_inj (hencodable a ha) (hencodable b hb) (le_antisymm hab hba)
  exact List.inj_on_of_nodup_map (by rw [hfst]; exact hnodup) ha hb hkey

/-- Two objects with the same keys in the same order have the same sorted form only when their
members have. -/
theorem members_of_sorted_dict {m m' : List (Text × Value)}
    (h : sorted (.dict m) = sorted (.dict m')) (hn : (m.map Prod.fst).Nodup)
    (hk : m.map Prod.fst = m'.map Prod.fst) :
    (m.map fun p ↦ sorted p.2) = m'.map fun p ↦ sorted p.2 := by
  rw [sorted_dict, sorted_dict, Value.dict.injEq] at h
  have hp := List.perm_insertionSort memberLe (m.map fun p ↦ (p.1, sorted p.2))
  have hp' := List.perm_insertionSort memberLe (m'.map fun p ↦ (p.1, sorted p.2))
  rw [h] at hp
  have hkeys : ∀ l : List (Text × Value),
      (l.map fun p ↦ (p.1, sorted p.2)).map Prod.fst = l.map Prod.fst := by
    intro l
    rw [List.map_map]
    rfl
  have hsame := eq_of_perm_of_keys (by rw [hkeys]; exact hn) (by rw [hkeys, hkeys, hk])
    (hp.symm.trans hp')
  have hvalues := congrArg (List.map Prod.snd) hsame
  rw [List.map_map, List.map_map] at hvalues
  exact hvalues

/-! ### Canonical texts -/

/-- Minimal escapes, and the integers that are exact. -/
def canonicalStyle : Style where
  escape := escape
  int n := if exactInt n then some (decimal n) else none
  float _ := none

/-- The canonical text of a value without floating-point numbers. -/
def canonicalText (v : Value) : Option Text := write canonicalStyle (sorted v)

private theorem writable_canonicalStyle {v : Value} (hc : canonicalizable v = true)
    (hf : floatFree v = true) : writable canonicalStyle v = true := by
  induction v using Value.nestedInduction with
  | int n =>
    have hn : exactInt n = true := hc
    change (if exactInt n then some (decimal n) else none).isSome = true
    rw [hn]
    rfl
  | float bits => cases hf
  | bytes b => cases hc
  | object id => cases hc
  | list xs ih =>
    rw [canonicalizable_list] at hc
    rw [floatFree_list] at hf
    rw [writable, Value.everywhere_list, List.all_eq_true]
    exact fun x hx ↦ ih x hx (hc x hx) (hf x hx)
  | dict m ih =>
    rw [canonicalizable_dict] at hc
    rw [floatFree_dict] at hf
    rw [writable, Value.everywhere_dict, Bool.true_and, List.all_eq_true]
    exact fun p hp ↦ ih p hp (hc p hp).2 (hf p hp)
  | _ => rfl

/-- A value without floating-point numbers that has a canonical form has a canonical text. -/
theorem exists_canonicalText {v : Value} (hc : canonicalizable v = true)
    (hf : floatFree v = true) : ∃ t, canonicalText v = some t :=
  exists_write (writable_canonicalStyle (by rw [canonicalizable_sorted, hc])
    (by rw [floatFree_sorted, hf]))

/-- Sixteen digits spell every integer of a canonical text. -/
theorem canonicalStyle_readBy {d : Decoder} (h : 16 ≤ d.maxDigits) : canonicalStyle.ReadBy d where
  escape := rfl
  float _ := rfl
  int n t ht := by
    simp only [canonicalStyle, exactInt, Option.ite_none_right_eq_some, Option.some.injEq,
      decide_eq_true_eq] at ht
    exact ⟨ht.2.symm, le_trans ((length_decimalNat_le_iff (by decide)).mpr (by omega)) h⟩

/-- The bytes of a canonical text are read as the object with its members in order. -/
theorem loads_canonicalText {d : Decoder} (hd : 16 ≤ d.maxDigits) {m : List (Text × Value)}
    {t : Text} (hk : (Value.dict m).distinctKeys = true) (h : canonicalText (.dict m) = some t) :
    loads d (utf8 t) = some (sorted (.dict m)) := by
  rw [← distinctKeys_sorted] at hk
  rw [canonicalText] at h
  rw [sorted_dict] at hk h ⊢
  exact loads_write (canonicalStyle_readBy hd) hk h

end Atcap.Base.Json
