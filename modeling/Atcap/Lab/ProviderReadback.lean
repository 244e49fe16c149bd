import Atcap.Base.JsonHooks
import Atcap.Lab.WorkerWire

/-!
# Provider listings

`provider_readback.py`: bounded loading of a provider's JSON and the inspection of one resource
listing. Every check raises `ProviderReadbackError`, which the command line turns into the exit
status 2. What `Decimal` makes of the text of a number and how deep the stack of the interpreter
lets containers nest are parameters. A `Decimal` stands as a zero, since no listing reads its value.
-/

namespace Atcap.Readback

open Base

/-! ### Bounded JSON -/

/-- `MAX_JSON_BYTES`. -/
def MAX_JSON_BYTES : Nat := 1048576

/-- `MAX_JSON_DEPTH`. -/
def MAX_JSON_DEPTH : Nat := 32

/-- `MAX_JSON_NODES`. -/
def MAX_JSON_NODES : Nat := 10000

/-- `MAX_OBJECT_KEYS`. -/
def MAX_OBJECT_KEYS : Nat := 256

/-- `MAX_ARRAY_ITEMS`. -/
def MAX_ARRAY_ITEMS : Nat := 1024

/-- `MAX_STRING_CHARS`. -/
def MAX_STRING_CHARS : Nat := 16384

/-- `MAX_NUMBER_CHARS`. -/
def MAX_NUMBER_CHARS : Nat := 128

/-- Raise a `ProviderReadbackError`. -/
def rejectIf (c : Prop) [Decidable c] (message : String) : Except String Unit :=
  if c then .error message else .ok ()

/-- A check passes exactly when its condition fails. -/
@[simp] theorem rejectIf_eq_ok {c : Prop} [Decidable c] {message : String} {u : Unit} :
    rejectIf c message = .ok u ↔ ¬c := by
  unfold rejectIf
  split <;> simp [*]

/-- What the loader and its hooks can raise. -/
inductive Failure where
  /-- `ProviderReadbackError`. -/
  | providerReadback (message : String)
  /-- `ValueError` of `int`. -/
  | value

/-- What the loader relies on in the interpreter. -/
structure Python where
  /-- `Decimal(raw)`: nothing for `InvalidOperation`, else whether the value is finite. -/
  decimal : Text → Option Bool
  /-- Whether the stack permits one more container inside so many. -/
  fits : Nat → Bool

/-- `int(raw)` of an integer literal; the interpreter refuses more than 4300 digits. -/
def intOfLiteral (raw : Text) : Except Failure Int := do
  let (sign, digits) := Json.spanMinus raw
  raiseIf (4300 < digits.length) .value
  let n : Int := Json.digitsValue digits
  return if sign = [] then n else -n

/-- `_bounded_int`. -/
def boundedInt (raw : Text) : Except Failure Value := do
  raiseIf (MAX_NUMBER_CHARS < raw.length) (.providerReadback "JSON contains an oversized number")
  let n ← intOfLiteral raw
  return .int n

/-- `_bounded_decimal`. -/
def boundedDecimal (py : Python) (raw : Text) : Except Failure Value := do
  raiseIf (MAX_NUMBER_CHARS < raw.length) (.providerReadback "JSON contains an oversized number")
  let finite ← orRaise (py.decimal raw) (.providerReadback "JSON contains an invalid number")
  raiseIf (finite = false) (.providerReadback "JSON contains a non-finite number")
  return .float 0

/-- `_reject_constant`. -/
def rejectConstant (_raw : Text) : Except Failure Value :=
  .error (.providerReadback "JSON contains a non-standard numeric constant")

/-- The loop of `_reject_duplicate_pairs`. -/
def rejectDuplicatePairs (result : List (Text × Value)) :
    List (Text × Value) → Except Failure Value
  | [] => .ok (.dict result)
  | (key, v) :: pairs => do
    raiseIf (key ∈ result.map Prod.fst)
      (.providerReadback "JSON contains a duplicate object member")
    rejectDuplicatePairs (Value.setMember result key v) pairs

/-- The hooks of the loader. -/
def hooks (py : Python) : Json.Hooks Failure Value where
  scalar
    | .null => .ok .none
    | .bool b => .ok (.bool b)
    | .string t => .ok (.str t)
    | .integer raw => boundedInt raw
    | .float raw => boundedDecimal py raw
    | .constant raw => rejectConstant raw
  array := .list
  pairs := rejectDuplicatePairs []

mutual

/-- `_validate_json_shape`, with the nodes counted so far. A `Decimal` stands as a `float` here. -/
def validateJsonShape (depth nodes : Nat) (v : Value) : Except String Nat := do
  let nodes := nodes + 1
  rejectIf (MAX_JSON_NODES < nodes) "JSON exceeds the node limit"
  rejectIf (MAX_JSON_DEPTH < depth) "JSON exceeds the nesting limit"
  match v with
  | .none | .bool _ | .int _ | .float _ => return nodes
  | .str t =>
    rejectIf (MAX_STRING_CHARS < t.length) "JSON contains an oversized string"
    return nodes
  | .list xs =>
    rejectIf (MAX_ARRAY_ITEMS < xs.length) "JSON array exceeds the item limit"
    validateItems (depth + 1) nodes xs
  | .dict m =>
    rejectIf (MAX_OBJECT_KEYS < m.length) "JSON object exceeds the member limit"
    validateMembers (depth + 1) nodes m
  | .bytes _ | .object _ => .error "JSON contains an unsupported value type"

/-- The loop over the items of an array. -/
def validateItems (depth nodes : Nat) : List Value → Except String Nat
  | [] => .ok nodes
  | x :: xs => do
    let nodes ← validateJsonShape depth nodes x
    validateItems depth nodes xs

/-- The loop over the members of an object. -/
def validateMembers (depth nodes : Nat) : List (Text × Value) → Except String Nat
  | [] => .ok nodes
  | (key, x) :: m => do
    rejectIf (MAX_STRING_CHARS < key.length) "JSON contains an oversized member name"
    let nodes ← validateJsonShape depth nodes x
    validateMembers depth nodes m

end

/-- A file that was opened. -/
structure ProviderFile where
  /-- `stat.S_ISREG(metadata.st_mode)`. -/
  regular : Bool
  /-- `metadata.st_size`. -/
  size : Nat
  content : Bytes

/-- The `except` clause around `json.loads`. -/
def malformedJson : Json.LoadsError Failure → Failure
  | .decode | .recursion => .providerReadback "provider JSON is malformed"
  | .hook e => e

/-- `_load_bounded_json_and_raw` of a file, if it can be read. -/
def loadBoundedJsonAndRaw (py : Python) (file : Option ProviderFile) :
    Except Failure (Value × Bytes) := do
  let source ← orRaise file (.providerReadback "provider JSON could not be read")
  raiseIf (source.regular = false) (.providerReadback "provider JSON must be a regular file")
  raiseIf (MAX_JSON_BYTES < source.size) (.providerReadback "provider JSON exceeds the byte limit")
  let raw := source.content.take (MAX_JSON_BYTES + 1)
  raiseIf (MAX_JSON_BYTES < raw.length) (.providerReadback "provider JSON exceeds the byte limit")
  let t ← orRaise ((decodeUtf8 raw).filter Text.encodable)
    (.providerReadback "provider JSON is not valid UTF-8")
  let v ← (Json.loadsWith (hooks py) py.fits t).mapError malformedJson
  let _ ← (validateJsonShape 0 0 v).mapError .providerReadback
  return (v, raw)

/-- An interpreter whose stack is never exhausted, with the literals that are finite decimals. -/
def unbounded (decimal : Text → Bool) : Python where
  decimal raw := if decimal raw = true then some true else none
  fits _ := true

/-- The text of a failure. -/
def Failure.message : Failure → String
  | .providerReadback message => message
  | .value => "ValueError"

/-- `load_bounded_json` of a regular file, if it can be read. -/
def loadBoundedJson (decimal : Text → Bool) (file : Option Bytes) : Except String Value :=
  ((loadBoundedJsonAndRaw (unbounded decimal)
    (file.map fun raw ↦ ⟨true, raw.length, raw⟩)).mapError Failure.message).map Prod.fst

/-! ### One listing -/

/-- `_RESOURCE_ID` and `_RESOURCE_NAME`: a letter or digit and at most `tail` further characters. -/
def isResourceText (tail : Nat) : Text → Bool
  | [] => false
  | c :: rest => Lab.isAlphanumeric c && decide (rest.length ≤ tail) && rest.all Lab.isRunIdChar

/-- `_RESOURCE_ID.fullmatch`. -/
def isResourceId : Text → Bool := isResourceText 127

/-- `_RESOURCE_NAME.fullmatch`. -/
def isResourceName : Text → Bool := isResourceText 191

/-- An identifier has a character. -/
theorem ne_nil_of_isResourceId {t : Text} (h : isResourceId t = true) : t ≠ [] := by
  rintro rfl
  cases h

/-- One resource of a listing. -/
structure Item where
  id : Text
  name : Text
  deriving DecidableEq

/-- The identifier and the name of an item, both checked. -/
def readItem (item : Value) : Except String Item :=
  match item with
  | .dict m =>
    match m.lookup (text "id") with
    | some (.str identifier) =>
      if isResourceId identifier = true then
        match m.lookup (text "name") with
        | some (.str name) => .ok ⟨identifier, name⟩
        | _ => .error "resource listing contains an invalid item name"
      else .error "resource listing contains an invalid item ID"
    | _ => .error "resource listing contains an invalid item ID"
  | _ => .error "resource listing contains a malformed item"

/-- The item array of a document: `null` is the empty listing. -/
def itemArray : Value → Except String (List Value)
  | .none => .ok []
  | .list items => .ok items
  | .dict m =>
    match m.lookup (text "data") with
    | some (.list items) => .ok items
    | _ => .error "resource listing omitted its item array"
  | _ => .error "resource listing must be an array or data object"

/-- The loop over the items: the identifiers under the exact name, and whether the requested
identifier occurs. -/
def inspectItems (resourceName : Text) (resourceId : Option Text) (exactNameIds : List Text)
    (identifierPresent : Bool) : List Value → Except String (List Text × Bool)
  | [] => .ok (exactNameIds, identifierPresent)
  | v :: items => do
    let item ← readItem v
    inspectItems resourceName resourceId
      (if item.name = resourceName then exactNameIds ++ [item.id] else exactNameIds)
      (if some item.id = resourceId then true else identifierPresent) items

/-- `atcap.provider-listing-observation.v1`. -/
structure Observation where
  exactNameId : Option Text
  requestedIdPresent : Bool
  deriving DecidableEq

/-- `inspect_resource_listing`. -/
def inspectResourceListing (decimal : Text → Bool) (file : Option Bytes) (resourceName : Text)
    (resourceId : Option Text) : Except String Observation := do
  rejectIf (isResourceName resourceName = false) "expected resource name is invalid"
  rejectIf (resourceId.any (fun id ↦ !isResourceId id) = true) "expected resource ID is invalid"
  let document ← loadBoundedJson decimal file
  let items ← itemArray document
  let (exactNameIds, identifierPresent) ← inspectItems resourceName resourceId [] false items
  rejectIf (1 < exactNameIds.length) "resource listing contains duplicate exact-name matches"
  return ⟨exactNameIds.head?, identifierPresent⟩

/-! ### The complete item list -/

/-- The items of a listing, if the listing is complete and well formed. -/
def completeItems (decimal : Text → Bool) (file : Option Bytes) : Except String (List Item) := do
  let document ← loadBoundedJson decimal file
  let items ← itemArray document
  items.mapM readItem

/-- The items under the exact name. -/
def named (resourceName : Text) (items : List Item) : List Item :=
  items.filter fun item ↦ decide (item.name = resourceName)

/-- The loop reads the whole listing. -/
theorem inspectItems_eq_ok {resourceName : Text} {resourceId : Option Text} {ids : List Text}
    {present : Bool} {values : List Value} {r : List Text × Bool} :
    inspectItems resourceName resourceId ids present values = .ok r ↔
      ∃ items, values.mapM readItem = .ok items ∧
        r = (ids ++ (named resourceName items).map Item.id,
          present || items.any fun item ↦ decide (some item.id = resourceId)) := by
  induction values generalizing ids present with
  | nil => simp [inspectItems, named, pure, Except.pure, eq_comm]
  | cons v values ih =>
    simp only [inspectItems, bind_eq_ok, ih, List.mapM_cons, pure, Except.pure,
      Except.ok.injEq]
    constructor
    · rintro ⟨item, hitem, items, hitems, rfl⟩
      refine ⟨item :: items, ⟨item, hitem, items, hitems, rfl⟩, ?_⟩
      by_cases hname : item.name = resourceName <;> by_cases hid : some item.id = resourceId <;>
        simp [named, hname, hid]
    · rintro ⟨_, ⟨item, hitem, items, hitems, rfl⟩, rfl⟩
      refine ⟨item, hitem, items, hitems, ?_⟩
      by_cases hname : item.name = resourceName <;> by_cases hid : some item.id = resourceId <;>
        simp [named, hname, hid]

/-- A listing is inspected exactly when it is complete and has at most one item under the name;
the observation is the membership of the name and of the identifier. -/
theorem inspectResourceListing_eq_ok {decimal : Text → Bool} {file : Option Bytes}
    {resourceName : Text} {resourceId : Option Text} {o : Observation} :
    inspectResourceListing decimal file resourceName resourceId = .ok o ↔
      isResourceName resourceName = true ∧ (∀ id ∈ resourceId, isResourceId id = true) ∧
      ∃ items, completeItems decimal file = .ok items ∧
        (named resourceName items).length ≤ 1 ∧
        o = ⟨((named resourceName items).map Item.id).head?,
          items.any fun item ↦ decide (some item.id = resourceId)⟩ := by
  have hid : (resourceId.any (fun id ↦ !isResourceId id) = true) ↔
      ¬∀ id ∈ resourceId, isResourceId id = true := by
    cases resourceId <;> simp
  simp only [inspectResourceListing, completeItems, bind_eq_ok, rejectIf_eq_ok, hid, not_not,
    inspectItems_eq_ok, pure, Except.pure, Except.ok.injEq, Bool.not_eq_false]
  constructor
  · rintro ⟨_, hname, _, hvalid, document, hload, values, hvalues, _, ⟨items, hitems, rfl⟩, _, hone,
      rfl⟩
    refine ⟨hname, hvalid, items, ⟨document, hload, values, hvalues, hitems⟩, ?_, ?_⟩
    · simpa using hone
    · simp
  · rintro ⟨hname, hvalid, items, ⟨document, hload, values, hvalues, hitems⟩, hone, rfl⟩
    refine ⟨(), hname, (), hvalid, document, hload, values, hvalues, _, ⟨items, hitems, rfl⟩, (),
      ?_, ?_⟩
    · simpa using hone
    · simp

/-- What an observation says of a complete item list: the identifier under the exact name, if the
name is there, and whether the requested identifier is. -/
structure Observes (resourceName : Text) (resourceId : Option Text) (items : List Item)
    (o : Observation) : Prop where
  unique : (named resourceName items).length ≤ 1
  exactName : ∀ id, o.exactNameId = some id ↔ ⟨id, resourceName⟩ ∈ items
  requestedId : o.requestedIdPresent = true ↔ ∃ item ∈ items, some item.id = resourceId

/-- The observation of a list without two items under the name. -/
theorem observes_of_named {resourceName : Text} {resourceId : Option Text} {items : List Item}
    (h : (named resourceName items).length ≤ 1) :
    Observes resourceName resourceId items ⟨((named resourceName items).map Item.id).head?,
      items.any fun item ↦ decide (some item.id = resourceId)⟩ := by
  have hmem : ∀ item, item ∈ named resourceName items ↔
      item ∈ items ∧ item.name = resourceName := by
    intro item
    simp [named]
  refine ⟨h, ?_, by simp⟩
  intro id
  have hid := hmem ⟨id, resourceName⟩
  simp only [and_true] at hid
  rw [← hid]
  match hlist : named resourceName items, h with
  | [], _ => simp
  | [item], _ =>
    have hname : item.name = resourceName := by
      apply ((hmem item).mp _).2
      rw [hlist]
      exact List.mem_singleton_self item
    subst hname
    simp only [List.map_cons, List.map_nil, List.head?_cons, Option.some.injEq,
      List.mem_singleton]
    constructor
    · rintro rfl
      rfl
    · intro heq
      rw [← heq]

/-- A listing is complete, and its observation is the membership of the name and the identifier;
otherwise the inspection raises. -/
theorem inspectResourceListing_observes {decimal : Text → Bool} {file : Option Bytes}
    {resourceName : Text} {resourceId : Option Text} {o : Observation}
    (h : inspectResourceListing decimal file resourceName resourceId = .ok o) :
    ∃ items, completeItems decimal file = .ok items ∧
      Observes resourceName resourceId items o := by
  obtain ⟨-, -, items, hitems, hone, rfl⟩ := inspectResourceListing_eq_ok.mp h
  exact ⟨items, hitems, observes_of_named hone⟩

/-- An item that was read has a valid identifier. -/
theorem isResourceId_of_readItem {v : Value} {item : Item} (h : readItem v = .ok item) :
    isResourceId item.id = true := by
  unfold readItem at h
  split at h
  · split at h
    · split at h
      · next hvalid =>
        split at h
        · cases h
          exact hvalid
        · cases h
      · cases h
    · cases h
  · cases h

/-- The items of a complete listing have valid identifiers. -/
theorem isResourceId_of_mem {decimal : Text → Bool} {file : Option Bytes} {items : List Item}
    (h : completeItems decimal file = .ok items) {item : Item} (hitem : item ∈ items) :
    isResourceId item.id = true := by
  simp only [completeItems, bind_eq_ok] at h
  obtain ⟨_, -, values, -, hvalues⟩ := h
  clear * - hvalues hitem
  induction values generalizing items with
  | nil =>
    cases hvalues
    cases hitem
  | cons v values ih =>
    simp only [List.mapM_cons, bind_eq_ok, pure, Except.pure, Except.ok.injEq] at hvalues
    obtain ⟨first, hfirst, rest, hrest, rfl⟩ := hvalues
    rcases List.mem_cons.mp hitem with rfl | hitem
    · exact isResourceId_of_readItem hfirst
    · exact ih hitem hrest

end Atcap.Readback
