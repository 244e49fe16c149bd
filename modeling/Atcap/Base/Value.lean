import Atcap.Base.Text

/-!
# Python values

Library `Base`. The values that cross a JSON boundary, together with the ones that do not:
byte strings and opaque objects. A dictionary is an association list in insertion order;
a floating-point number is its 64 bits.
-/

namespace Atcap.Base

/-- A Python value. -/
inductive Value where
  | none
  | bool (b : Bool)
  | int (n : Int)
  | float (bits : BitVec 64)
  | str (t : Text)
  | bytes (b : Bytes)
  | list (xs : List Value)
  | dict (m : List (Text × Value))
  | object (id : Nat)

namespace Value

/-- `d.get(key)` of a dictionary; nothing of any other value. -/
def get? (v : Value) (key : Text) : Option Value :=
  match v with
  | .dict m => m.lookup key
  | _ => Option.none

/-- `x == "..."`. -/
def isText (v : Value) (t : Text) : Bool :=
  match v with
  | .str s => decide (s = t)
  | _ => false

/-- A dictionary whose values are texts. -/
def ofTexts (m : List (Text × Text)) : Value := .dict (m.map fun p ↦ (p.1, .str p.2))

/-- `x == expected` for a dictionary of texts: the same number of members, and each expected
one. -/
def isTexts (v : Value) (expected : List (Text × Text)) : Bool :=
  match v with
  | .dict m => decide (m.length = expected.length) && expected.all fun p ↦
      (m.lookup p.1).any fun w ↦ w.isText p.2
  | _ => false

/-- `None` or a text. -/
def ofText? : Option Text → Value
  | Option.none => .none
  | some t => .str t

/-- `None` or an integer. -/
def ofInt? : Option Int → Value
  | Option.none => .none
  | some n => .int n

/-- `{**m, key: v}`. -/
def setMember (m : List (Text × Value)) (key : Text) (v : Value) : List (Text × Value) :=
  match m with
  | [] => [(key, v)]
  | (k, w) :: rest => if k = key then (k, v) :: rest else (k, w) :: setMember rest key v

/-- Setting a member keeps every other one. -/
theorem lookup_setMember_ne {m : List (Text × Value)} {key key' : Text} {v : Value}
    (h : key' ≠ key) : (setMember m key v).lookup key' = m.lookup key' := by
  have hbeq : (key' == key) = false := beq_eq_false_iff_ne.mpr h
  induction m with
  | nil => rw [setMember, List.lookup_cons, hbeq]
  | cons p rest ih =>
    obtain ⟨k, w⟩ := p
    by_cases hk : k = key
    · subst hk
      rw [setMember, if_pos rfl, List.lookup_cons, List.lookup_cons, hbeq]
    · rw [setMember, if_neg hk, List.lookup_cons, List.lookup_cons, ih]

/-- A member that was set is found. -/
theorem lookup_setMember_self (m : List (Text × Value)) (key : Text) (v : Value) :
    (setMember m key v).lookup key = some v := by
  induction m with
  | nil => rw [setMember, List.lookup_cons, beq_self_eq_true]
  | cons p rest ih =>
    obtain ⟨k, w⟩ := p
    by_cases hk : k = key
    · subst hk
      rw [setMember, if_pos rfl, List.lookup_cons, beq_self_eq_true]
    · have hbeq : (key == k) = false := beq_eq_false_iff_ne.mpr (Ne.symm hk)
      rw [setMember, if_neg hk, List.lookup_cons, hbeq, ih]

/-- Setting a new member appends it. -/
theorem setMember_of_notMem {m : List (Text × Value)} {key : Text} {v : Value}
    (h : key ∉ m.map Prod.fst) : setMember m key v = m ++ [(key, v)] := by
  induction m with
  | nil => rfl
  | cons p rest ih =>
    obtain ⟨k, w⟩ := p
    rw [List.map_cons, List.mem_cons, not_or] at h
    rw [setMember, if_neg (Ne.symm h.1), ih h.2]
    rfl

/-! ### Recursion over nested values -/

/-- Induction over a value, the elements of its lists and the values of its dictionaries. -/
theorem nestedInduction {motive : Value → Prop} (none : motive .none) (bool : ∀ b, motive (.bool b))
    (int : ∀ n, motive (.int n)) (float : ∀ bits, motive (.float bits))
    (str : ∀ t, motive (.str t)) (bytes : ∀ b, motive (.bytes b))
    (list : ∀ xs, (∀ x ∈ xs, motive x) → motive (.list xs))
    (dict : ∀ m, (∀ p ∈ m, motive p.2) → motive (.dict m)) (object : ∀ id, motive (.object id))
    (v : Value) : motive v := by
  have hnil : ∀ x ∈ ([] : List Value), motive x := by
    intro x hx
    cases hx
  have hcons : ∀ x xs, motive x → (∀ y ∈ xs, motive y) → ∀ y ∈ x :: xs, motive y := by
    intro x xs hx hxs y hy
    exact (List.mem_cons.mp hy).elim (fun he ↦ he ▸ hx) (hxs y)
  have hnil' : ∀ p ∈ ([] : List (Text × Value)), motive p.2 := by
    intro p hp
    cases hp
  have hcons' : ∀ (p : Text × Value) m, motive p.2 → (∀ q ∈ m, motive q.2) →
      ∀ q ∈ p :: m, motive q.2 := by
    intro p m hp hm q hq
    exact (List.mem_cons.mp hq).elim (fun he ↦ he ▸ hp) (hm q)
  exact @Value.rec motive (fun xs ↦ ∀ x ∈ xs, motive x) (fun m ↦ ∀ p ∈ m, motive p.2)
    (fun p ↦ motive p.2) none bool int float str bytes list dict object hnil hcons hnil' hcons'
    (fun _ _ h ↦ h) v

mutual

/-- A condition on every value in a value that is no container, and on the keys of every
dictionary. -/
def everywhere (leaf : Value → Bool) (keys : List Text → Bool) : Value → Bool
  | .list xs => elementsEverywhere leaf keys xs
  | .dict m => keys (m.map Prod.fst) && membersEverywhere leaf keys m
  | v => leaf v

/-- `everywhere` in the elements of a list. -/
def elementsEverywhere (leaf : Value → Bool) (keys : List Text → Bool) : List Value → Bool
  | [] => true
  | v :: rest => v.everywhere leaf keys && elementsEverywhere leaf keys rest

/-- `everywhere` in the values of a dictionary. -/
def membersEverywhere (leaf : Value → Bool) (keys : List Text → Bool) :
    List (Text × Value) → Bool
  | [] => true
  | (_, v) :: rest => v.everywhere leaf keys && membersEverywhere leaf keys rest

end

section Everywhere

variable {leaf : Value → Bool} {keys : List Text → Bool}

/-- A condition everywhere in a list. -/
theorem everywhere_list (xs : List Value) :
    (Value.list xs).everywhere leaf keys = xs.all (everywhere leaf keys) := by
  rw [everywhere]
  induction xs with
  | nil => rfl
  | cons x rest ih => rw [elementsEverywhere, ih, List.all_cons]

/-- A condition everywhere in a dictionary. -/
theorem everywhere_dict (m : List (Text × Value)) :
    (Value.dict m).everywhere leaf keys =
      (keys (m.map Prod.fst) && m.all fun p ↦ p.2.everywhere leaf keys) := by
  rw [everywhere]
  congr 1
  induction m with
  | nil => rfl
  | cons p rest ih => rw [membersEverywhere, ih, List.all_cons]

/-- An optional text is no container. -/
@[simp] theorem everywhere_ofText? (o : Option Text) :
    (ofText? o).everywhere leaf keys = leaf (ofText? o) := by
  cases o <;> rfl

/-- An optional integer is no container. -/
@[simp] theorem everywhere_ofInt? (o : Option Int) :
    (ofInt? o).everywhere leaf keys = leaf (ofInt? o) := by
  cases o <;> rfl

/-- A condition everywhere in a dictionary of texts. -/
theorem everywhere_ofTexts (m : List (Text × Text)) : (ofTexts m).everywhere leaf keys =
    (keys (m.map Prod.fst) && m.all fun p ↦ leaf (.str p.2)) := by
  rw [ofTexts, everywhere_dict, List.map_map, List.all_map]
  rfl

end Everywhere

/-- Whether every dictionary in the value has one member for each of its keys. -/
def distinctKeys (v : Value) : Bool := v.everywhere (fun _ ↦ true) (fun keys ↦ decide keys.Nodup)

/-- The keys of a dictionary and of its values are distinct. -/
theorem distinctKeys_dict {m : List (Text × Value)} : (Value.dict m).distinctKeys = true ↔
    (m.map Prod.fst).Nodup ∧ ∀ p ∈ m, p.2.distinctKeys = true := by
  rw [distinctKeys, everywhere_dict, Bool.and_eq_true, decide_eq_true_eq, List.all_eq_true]
  rfl

/-- The keys of every element of a list are distinct. -/
theorem distinctKeys_list {xs : List Value} : (Value.list xs).distinctKeys = true ↔
    ∀ x ∈ xs, x.distinctKeys = true := by
  rw [distinctKeys, everywhere_list, List.all_eq_true]
  rfl

/-- Setting a member adds its key or keeps the keys. -/
theorem map_fst_setMember (m : List (Text × Value)) (key : Text) (v : Value) :
    (setMember m key v).map Prod.fst =
      if key ∈ m.map Prod.fst then m.map Prod.fst else m.map Prod.fst ++ [key] := by
  induction m with
  | nil => rfl
  | cons p rest ih =>
    obtain ⟨k, w⟩ := p
    by_cases hk : k = key
    · subst hk
      simp [setMember]
    · have hne : ¬ key = k := Ne.symm hk
      rw [setMember, if_neg hk, List.map_cons, ih, List.map_cons]
      split
      · next h => rw [if_pos (List.mem_cons_of_mem k h)]
      · next h => rw [if_neg (by rw [List.mem_cons, not_or]; exact ⟨hne, h⟩), List.cons_append]

/-- A member after an assignment is the one that was set or was there before. -/
theorem mem_setMember {m : List (Text × Value)} {key : Text} {v : Value} {p : Text × Value}
    (h : p ∈ setMember m key v) : p = (key, v) ∨ p ∈ m := by
  induction m with
  | nil => exact .inl (List.mem_singleton.mp h)
  | cons q rest ih =>
    obtain ⟨k, w⟩ := q
    rw [setMember] at h
    split at h
    · next hk =>
      subst hk
      obtain h | h := List.mem_cons.mp h
      · exact .inl h
      · exact .inr (List.mem_cons_of_mem _ h)
    · obtain h | h := List.mem_cons.mp h
      · exact .inr (h ▸ List.mem_cons_self)
      · exact (ih h).imp_right (List.mem_cons_of_mem _)

/-- Setting a member keeps the keys of every dictionary distinct. -/
theorem distinctKeys_setMember {m : List (Text × Value)} {key : Text} {v : Value}
    (hm : (Value.dict m).distinctKeys = true) (hv : v.distinctKeys = true) :
    (Value.dict (setMember m key v)).distinctKeys = true := by
  rw [distinctKeys_dict] at hm ⊢
  constructor
  · rw [map_fst_setMember]
    split
    · exact hm.1
    · next h => simpa only [List.concat_eq_append] using hm.1.concat h
  · intro p hp
    obtain rfl | hp := mem_setMember hp
    · exact hv
    · exact hm.2 p hp

/-- A binary64 number is finite unless all exponent bits are set. -/
def finite (bits : BitVec 64) : Bool := decide (bits.extractLsb' 52 11 ≠ 0x7FF#11)

end Value

/-- Whether an optional text is present and not empty: its truth value. -/
def truthy : Option Text → Bool
  | some (_ :: _) => true
  | _ => false

end Atcap.Base
