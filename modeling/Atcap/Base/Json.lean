import Mathlib.Data.List.Sort
import Atcap.Base.Value

/-!
# JSON texts

Library `Base`. A writer turns a value into JSON text in the order of its members;
`sortKeys` orders the members of every object first. Writers differ in how they escape a
character and in the numbers they accept.
-/

namespace Atcap.Base.Json

/-! ### String literals -/

/-- The escapes of two characters. -/
def shortEscape? (c : CodePoint) : Option Text :=
  match c.val with
  | 8 => some (text "\\b")
  | 9 => some (text "\\t")
  | 10 => some (text "\\n")
  | 12 => some (text "\\f")
  | 13 => some (text "\\r")
  | 34 => some (text "\\\"")
  | 92 => some (text "\\\\")
  | _ => none

/-- The escape of a UTF-16 code unit, with four lower-case digits. -/
def unitEscape (n : Nat) : Text :=
  text "\\u" ++ [hexDigit (n / 4096), hexDigit (n / 256), hexDigit (n / 16), hexDigit n]

/-- Only what JSON requires to be escaped is escaped. -/
def escape (c : CodePoint) : Text :=
  match shortEscape? c with
  | some e => e
  | none => if c.val < 0x20 then unitEscape c.val else [c]

/-- The UTF-16 code units of a code point. -/
def utf16CodePoint (c : CodePoint) : List Nat :=
  if c.val < 0x10000 then [c.val]
  else [0xD800 + (c.val - 0x10000) / 0x400, 0xDC00 + (c.val - 0x10000) % 0x400]

/-- Everything outside printable ASCII is escaped. -/
def escapeAscii (c : CodePoint) : Text :=
  match shortEscape? c with
  | some e => e
  | none => if 0x20 ≤ c.val ∧ c.val ≤ 0x7E then [c] else (utf16CodePoint c).flatMap unitEscape

/-- A string literal. -/
def quote (escape : CodePoint → Text) (t : Text) : Text :=
  text "\"" ++ t.flatMap escape ++ text "\""

/-! ### Writers -/

/-- How a writer spells characters and numbers; a number it rejects has no spelling. -/
structure Style where
  escape : CodePoint → Text
  int : Int → Option Text
  float : BitVec 64 → Option Text

/-- Elements joined by commas. -/
def commas : List Text → Text
  | [] => []
  | [x] => x
  | x :: y :: rest => x ++ text "," ++ commas (y :: rest)

mutual

/-- The JSON text of a value without white space. -/
def write (s : Style) : Value → Option Text
  | .none => some (text "null")
  | .bool true => some (text "true")
  | .bool false => some (text "false")
  | .int n => s.int n
  | .float bits => s.float bits
  | .str t => some (quote s.escape t)
  | .list xs => (writeElements s xs).map fun es ↦ text "[" ++ commas es ++ text "]"
  | .dict m => (writeMembers s m).map fun es ↦ text "\x7b" ++ commas es ++ text "\x7d"
  | .bytes _ => none
  | .object _ => none

/-- The texts of the elements of an array. -/
def writeElements (s : Style) : List Value → Option (List Text)
  | [] => some []
  | v :: rest => do
    let e ← write s v
    let es ← writeElements s rest
    return e :: es

/-- The texts of the members of an object. -/
def writeMembers (s : Style) : List (Text × Value) → Option (List Text)
  | [] => some []
  | (k, v) :: rest => do
    let e ← write s v
    let es ← writeMembers s rest
    return (quote s.escape k ++ text ":" ++ e) :: es

end

/-! ### Sorted objects -/

section SortKeys

variable (le : Text → Text → Prop) [DecidableRel le]

/-- Members ordered by their keys. -/
def sortMembers (m : List (Text × Value)) : List (Text × Value) :=
  m.insertionSort fun a b ↦ le a.1 b.1

mutual

/-- Order the members of every object. -/
def sortKeys : Value → Value
  | .list xs => .list (sortKeysElements xs)
  | .dict m => .dict (sortMembers le (sortKeysMembers m))
  | .none => .none
  | .bool b => .bool b
  | .int n => .int n
  | .float bits => .float bits
  | .str t => .str t
  | .bytes b => .bytes b
  | .object id => .object id

/-- Order the members of every object in the elements of an array. -/
def sortKeysElements : List Value → List Value
  | [] => []
  | v :: rest => sortKeys v :: sortKeysElements rest

/-- Order the members of every object in the values of an object's members. -/
def sortKeysMembers : List (Text × Value) → List (Text × Value)
  | [] => []
  | (k, v) :: rest => (k, sortKeys v) :: sortKeysMembers rest

end

/-- Ordering an object. -/
theorem sortKeys_dict (m : List (Text × Value)) :
    sortKeys le (.dict m) = .dict (sortMembers le (m.map fun p ↦ (p.1, sortKeys le p.2))) := by
  have hmembers : ∀ m, sortKeysMembers le m = m.map fun p ↦ (p.1, sortKeys le p.2) := by
    intro m
    induction m with
    | nil => rfl
    | cons p rest ih => rw [sortKeysMembers, ih]; rfl
  rw [sortKeys, hmembers]

/-- Ordering the objects in an array. -/
theorem sortKeys_list (xs : List Value) :
    sortKeys le (.list xs) = .list (xs.map (sortKeys le)) := by
  have helements : ∀ xs, sortKeysElements le xs = xs.map (sortKeys le) := by
    intro xs
    induction xs with
    | nil => rfl
    | cons x rest ih => rw [sortKeysElements, ih]; rfl
  rw [sortKeys, helements]

/-- Ordering keeps a condition on the values and on the sets of keys. -/
theorem everywhere_sortKeys {leaf : Value → Bool} {keys : List Text → Bool}
    (hkeys : ∀ {a b : List Text}, a.Perm b → keys a = keys b) (v : Value) :
    (sortKeys le v).everywhere leaf keys = v.everywhere leaf keys := by
  induction v using Value.nestedInduction with
  | list xs ih =>
    rw [sortKeys_list, Value.everywhere_list, Value.everywhere_list, List.all_map]
    rw [Bool.eq_iff_iff, List.all_eq_true, List.all_eq_true]
    exact forall₂_congr fun x hx ↦ by rw [Function.comp_apply, ih x hx]
  | dict m ih =>
    have hperm : (sortMembers le (m.map fun p ↦ (p.1, sortKeys le p.2))).Perm
        (m.map fun p ↦ (p.1, sortKeys le p.2)) := List.perm_insertionSort _ _
    have hfst : (m.map fun p ↦ (p.1, sortKeys le p.2)).map Prod.fst = m.map Prod.fst := by
      rw [List.map_map]
      rfl
    rw [sortKeys_dict, Value.everywhere_dict, Value.everywhere_dict, hkeys (hperm.map Prod.fst),
      hfst, hperm.all_eq, List.all_map]
    congr 1
    rw [Bool.eq_iff_iff, List.all_eq_true, List.all_eq_true]
    exact forall₂_congr fun p hp ↦ by rw [Function.comp_apply, ih p hp]
  | _ => rfl

end SortKeys

/-! ### Values that can be written -/

/-- Whether a style spells every number of a value, and the value is a JSON one. -/
def writable (s : Style) (v : Value) : Bool :=
  v.everywhere (fun
    | .int n => (s.int n).isSome
    | .float bits => (s.float bits).isSome
    | .bytes _ => false
    | .object _ => false
    | _ => true) (fun _ ↦ true)

/-- A value that can be written has a text. -/
theorem exists_write {s : Style} {v : Value} (h : writable s v = true) :
    ∃ t, write s v = some t := by
  induction v using Value.nestedInduction with
  | none => exact ⟨_, rfl⟩
  | bool b => cases b <;> exact ⟨_, rfl⟩
  | int n => exact Option.isSome_iff_exists.mp h
  | float bits => exact Option.isSome_iff_exists.mp h
  | str t => exact ⟨_, rfl⟩
  | bytes b => cases h
  | object id => cases h
  | list xs ih =>
    rw [writable, Value.everywhere_list, List.all_eq_true] at h
    have helements : ∃ es, writeElements s xs = some es := by
      induction xs with
      | nil => exact ⟨[], rfl⟩
      | cons x rest ihrest =>
        rw [List.forall_mem_cons] at ih h
        obtain ⟨e, he⟩ := ih.1 h.1
        obtain ⟨es, hes⟩ := ihrest ih.2 h.2
        exact ⟨e :: es, by rw [writeElements, he, hes]; rfl⟩
    obtain ⟨es, hes⟩ := helements
    exact ⟨_, by rw [write, hes]; rfl⟩
  | dict m ih =>
    rw [writable, Value.everywhere_dict, Bool.and_eq_true, List.all_eq_true] at h
    have hmembers : ∃ es, writeMembers s m = some es := by
      obtain ⟨-, h⟩ := h
      induction m with
      | nil => exact ⟨[], rfl⟩
      | cons p rest ihrest =>
        rw [List.forall_mem_cons] at ih h
        obtain ⟨e, he⟩ := ih.1 h.1
        obtain ⟨es, hes⟩ := ihrest ih.2 h.2
        exact ⟨_, by rw [writeMembers, he, hes]; rfl⟩
    obtain ⟨es, hes⟩ := hmembers
    exact ⟨_, by rw [write, hes]; rfl⟩

end Atcap.Base.Json
