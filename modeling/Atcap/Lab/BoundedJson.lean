import Atcap.Lab.ProviderReadback

/-!
# Bounded provider JSON

`_validate_json_shape` threads one counter through a value. It accepts exactly the values whose
nodes, listed with their depths, are within the bounds: the counter is the length of the list. What
`load_bounded_json` returns is therefore bounded, and its document, the text as it is written, has
no repeated member name, no oversized number and no number that is not finite.
-/

namespace Atcap.Readback

open Base

/-! ### The nodes of a value -/

mutual

/-- A value and every value in it, each with its depth. -/
def nodesAt (depth : Nat) : Value → List (Nat × Value)
  | .list xs => (depth, .list xs) :: itemNodesAt (depth + 1) xs
  | .dict m => (depth, .dict m) :: memberNodesAt (depth + 1) m
  | v => [(depth, v)]

/-- The nodes of the items of an array. -/
def itemNodesAt (depth : Nat) : List Value → List (Nat × Value)
  | [] => []
  | x :: xs => nodesAt depth x ++ itemNodesAt depth xs

/-- The nodes of the values of the members of an object. -/
def memberNodesAt (depth : Nat) : List (Text × Value) → List (Nat × Value)
  | [] => []
  | (_, x) :: m => nodesAt depth x ++ memberNodesAt depth m

end

/-- The bounds of one node, apart from its nesting. -/
def Admitted : Value → Prop
  | .none | .bool _ | .int _ | .float _ => True
  | .str t => t.length ≤ MAX_STRING_CHARS
  | .list xs => xs.length ≤ MAX_ARRAY_ITEMS
  | .dict m => m.length ≤ MAX_OBJECT_KEYS ∧ ∀ p ∈ m, p.1.length ≤ MAX_STRING_CHARS
  | .bytes _ | .object _ => False

/-- A value within the bounds: not too many nodes, none too deep, and each admitted. -/
structure Bounded (v : Value) : Prop where
  nodes : (nodesAt 0 v).length ≤ MAX_JSON_NODES
  depth : ∀ node ∈ nodesAt 0 v, node.1 ≤ MAX_JSON_DEPTH
  admitted : ∀ node ∈ nodesAt 0 v, Admitted node.2

/-- Listed nodes are within the bounds, and they raise the counter from `n` to `n'`. -/
def Counted (nodes : List (Nat × Value)) (n n' : Nat) : Prop :=
  n' = n + nodes.length ∧ (nodes ≠ [] → n' ≤ MAX_JSON_NODES) ∧
    ∀ node ∈ nodes, node.1 ≤ MAX_JSON_DEPTH ∧ Admitted node.2

/-- No node leaves the counter as it is. -/
theorem counted_nil {n n' : Nat} : Counted [] n n' ↔ n' = n := by
  simp [Counted]

/-- Nodes are counted one part after the other. -/
theorem counted_append {xs ys : List (Nat × Value)} {n n' : Nat} :
    Counted (xs ++ ys) n n' ↔ ∃ k, Counted xs n k ∧ Counted ys k n' := by
  constructor
  · rintro ⟨rfl, hle, hall⟩
    rw [List.forall_mem_append] at hall
    rw [List.length_append] at hle ⊢
    refine ⟨n + xs.length, ⟨rfl, ?_, hall.1⟩, by omega, ?_, hall.2⟩
    · intro hne
      have := hle (by simp [hne])
      omega
    · intro hne
      exact hle (by simp [hne])
  · rintro ⟨k, ⟨rfl, hle, hall⟩, rfl, hle', hall'⟩
    refine ⟨by rw [List.length_append]; omega, ?_, List.forall_mem_append.mpr ⟨hall, hall'⟩⟩
    intro hne
    by_cases hys : ys = []
    · subst hys
      exact hle (by simpa using hne)
    · exact hle' hys

/-- A node is counted before those inside it. -/
theorem counted_cons {node : Nat × Value} {nodes : List (Nat × Value)} {n n' : Nat} :
    Counted (node :: nodes) n n' ↔ n + 1 ≤ MAX_JSON_NODES ∧ node.1 ≤ MAX_JSON_DEPTH ∧
      Admitted node.2 ∧ Counted nodes (n + 1) n' := by
  change Counted ([node] ++ nodes) n n' ↔ _
  rw [counted_append]
  constructor
  · rintro ⟨k, ⟨rfl, hle, hall⟩, hrest⟩
    obtain ⟨hdepth, hadmitted⟩ := hall node (List.mem_singleton_self node)
    exact ⟨hle (List.cons_ne_nil _ _), hdepth, hadmitted, hrest⟩
  · rintro ⟨hle, hdepth, hadmitted, hrest⟩
    refine ⟨n + 1, ⟨rfl, fun _ ↦ hle, ?_⟩, hrest⟩
    intro node' hnode
    rw [List.mem_singleton.mp hnode]
    exact ⟨hdepth, hadmitted⟩

/-! ### The counter -/

private theorem validateItems_eq_ok {xs : List Value}
    (ih : ∀ x ∈ xs, ∀ depth n n', validateJsonShape depth n x = .ok n' ↔
      Counted (nodesAt depth x) n n') {depth n n' : Nat} :
    validateItems depth n xs = .ok n' ↔ Counted (itemNodesAt depth xs) n n' := by
  induction xs generalizing n with
  | nil =>
    rw [validateItems, itemNodesAt, counted_nil, Except.ok.injEq]
    exact eq_comm
  | cons x xs ihs =>
    obtain ⟨hx, hxs⟩ := List.forall_mem_cons.mp ih
    simp only [validateItems, itemNodesAt, bind_eq_ok, counted_append, hx, ihs hxs]

private theorem validateMembers_eq_ok {m : List (Text × Value)}
    (ih : ∀ p ∈ m, ∀ depth n n', validateJsonShape depth n p.2 = .ok n' ↔
      Counted (nodesAt depth p.2) n n') {depth n n' : Nat} :
    validateMembers depth n m = .ok n' ↔
      (∀ p ∈ m, p.1.length ≤ MAX_STRING_CHARS) ∧ Counted (memberNodesAt depth m) n n' := by
  induction m generalizing n with
  | nil =>
    rw [validateMembers, memberNodesAt, counted_nil, Except.ok.injEq]
    simp [eq_comm]
  | cons p m ihm =>
    obtain ⟨key, x⟩ := p
    obtain ⟨hx, hm⟩ := List.forall_mem_cons.mp ih
    simp only [validateMembers, memberNodesAt, bind_eq_ok, rejectIf_eq_ok, Nat.not_lt,
      counted_append, hx, ihm hm, List.forall_mem_cons]
    constructor
    · rintro ⟨_, hkey, k, hk, hnames, hrest⟩
      exact ⟨⟨hkey, hnames⟩, k, hk, hrest⟩
    · rintro ⟨⟨hkey, hnames⟩, k, hk, hrest⟩
      exact ⟨(), hkey, k, hk, hnames, hrest⟩

/-- `_validate_json_shape` counts the nodes of a value and checks the bounds of each. -/
theorem validateJsonShape_eq_ok (v : Value) : ∀ depth n n',
    validateJsonShape depth n v = .ok n' ↔ Counted (nodesAt depth v) n n' := by
  induction v using Value.nestedInduction with
  | none | bool | int | float =>
    intro depth n n'
    simp only [validateJsonShape, nodesAt, counted_cons, counted_nil, bind_eq_ok, rejectIf_eq_ok,
      Nat.not_lt, Admitted, pure, Except.pure, Except.ok.injEq]
    constructor
    · rintro ⟨_, hn, _, hdepth, rfl⟩
      exact ⟨hn, hdepth, trivial, rfl⟩
    · rintro ⟨hn, hdepth, _, rfl⟩
      exact ⟨(), hn, (), hdepth, rfl⟩
  | bytes | object =>
    intro depth n n'
    simp only [validateJsonShape, nodesAt, counted_cons, bind_eq_ok, Admitted]
    constructor
    · rintro ⟨_, _, _, _, h⟩
      cases h
    · rintro ⟨_, _, h, _⟩
      cases h
  | str t =>
    intro depth n n'
    simp only [validateJsonShape, nodesAt, counted_cons, counted_nil, bind_eq_ok, rejectIf_eq_ok,
      Nat.not_lt, Admitted, pure, Except.pure, Except.ok.injEq]
    constructor
    · rintro ⟨_, hn, _, hdepth, _, ht, rfl⟩
      exact ⟨hn, hdepth, ht, rfl⟩
    · rintro ⟨hn, hdepth, ht, rfl⟩
      exact ⟨(), hn, (), hdepth, (), ht, rfl⟩
  | list xs ih =>
    intro depth n n'
    simp only [validateJsonShape, nodesAt, counted_cons, bind_eq_ok, rejectIf_eq_ok, Nat.not_lt,
      Admitted, validateItems_eq_ok ih]
    constructor
    · rintro ⟨_, hn, _, hdepth, _, hxs, hrest⟩
      exact ⟨hn, hdepth, hxs, hrest⟩
    · rintro ⟨hn, hdepth, hxs, hrest⟩
      exact ⟨(), hn, (), hdepth, (), hxs, hrest⟩
  | dict m ih =>
    intro depth n n'
    simp only [validateJsonShape, nodesAt, counted_cons, bind_eq_ok, rejectIf_eq_ok, Nat.not_lt,
      Admitted, validateMembers_eq_ok ih]
    constructor
    · rintro ⟨_, hn, _, hdepth, _, hm, hnames, hrest⟩
      exact ⟨hn, hdepth, ⟨hm, hnames⟩, hrest⟩
    · rintro ⟨hn, hdepth, ⟨hm, hnames⟩, hrest⟩
      exact ⟨(), hn, (), hdepth, (), hm, hnames, hrest⟩

private theorem nodesAt_ne_nil (depth : Nat) (v : Value) : nodesAt depth v ≠ [] := by
  cases v with
  | none | bool | int | float | str | bytes | list | dict | object =>
    simp [nodesAt]

/-- `_validate_json_shape` accepts exactly the values within the bounds. -/
theorem validateJsonShape_accepts {v : Value} :
    (∃ n, validateJsonShape 0 0 v = .ok n) ↔ Bounded v := by
  simp only [validateJsonShape_eq_ok]
  constructor
  · rintro ⟨n, rfl, hle, hall⟩
    have hnodes := hle (nodesAt_ne_nil 0 v)
    exact ⟨by omega, fun node hnode ↦ (hall node hnode).1, fun node hnode ↦ (hall node hnode).2⟩
  · intro h
    refine ⟨0 + (nodesAt 0 v).length, rfl, fun _ ↦ ?_, ?_⟩
    · have := h.nodes
      omega
    · intro node hnode
      exact ⟨h.depth node hnode, h.admitted node hnode⟩

/-! ### The hooks -/

/-- What the hooks accept of one part of a document: numbers of bounded length that are finite, no
other constant, and objects without a repeated name. -/
def Accepted (py : Python) : Json.Document → Prop
  | .scalar (.integer raw) => raw.length ≤ MAX_NUMBER_CHARS
  | .scalar (.float raw) => raw.length ≤ MAX_NUMBER_CHARS ∧ py.decimal raw = some true
  | .scalar (.constant _) => False
  | .scalar _ | .array _ => True
  | .object pairs => (pairs.map Prod.fst).Nodup

private theorem nodup_of_rejectDuplicatePairs {result pairs : List (Text × Value)} {v : Value}
    (h : rejectDuplicatePairs result pairs = .ok v) :
    (pairs.map Prod.fst).Nodup ∧ ∀ key ∈ pairs.map Prod.fst, key ∉ result.map Prod.fst := by
  induction pairs generalizing result with
  | nil => simp
  | cons p pairs ih =>
    obtain ⟨key, x⟩ := p
    simp only [rejectDuplicatePairs, bind_eq_ok, raiseIf_eq_ok] at h
    obtain ⟨_, hnew, h⟩ := h
    obtain ⟨hnodup, hfresh⟩ := ih h
    rw [Value.setMember_of_notMem hnew] at hfresh
    have hkey : key ∉ pairs.map Prod.fst := by
      intro hmem
      exact hfresh key hmem (by simp)
    rw [List.map_cons, List.nodup_cons, List.forall_mem_cons]
    refine ⟨⟨hkey, hnodup⟩, hnew, ?_⟩
    intro key' hkey' hmem
    apply hfresh key' hkey'
    rw [List.map_append]
    exact List.mem_append_left _ hmem

/-- A part of a document for which the hooks return is accepted. -/
theorem accepted_of_load {py : Python} {doc : Json.Document} {v : Value}
    (h : doc.load (hooks py) = .ok v) : Accepted py doc := by
  cases doc with
  | scalar s =>
    simp only [Json.Document.load] at h
    cases s with
    | null | bool | string => trivial
    | integer raw =>
      simp only [hooks, boundedInt, bind_eq_ok, raiseIf_eq_ok] at h
      obtain ⟨_, hlength, _⟩ := h
      exact Nat.not_lt.mp hlength
    | float raw =>
      simp only [hooks, boundedDecimal, bind_eq_ok, raiseIf_eq_ok, orRaise_eq_ok] at h
      obtain ⟨_, hlength, finite, hdecimal, _, hfinite, _⟩ := h
      rw [Bool.not_eq_false] at hfinite
      rw [hfinite] at hdecimal
      exact ⟨Nat.not_lt.mp hlength, hdecimal⟩
    | constant raw => cases h
  | array xs => trivial
  | object pairs =>
    simp only [Json.Document.load, bind_eq_ok] at h
    obtain ⟨vs, hvs, hpairs⟩ := h
    have hnodup := (nodup_of_rejectDuplicatePairs hpairs).1
    rwa [Json.Document.names_of_loadMembers hvs] at hnodup

/-- The failure is a `ProviderReadbackError`. -/
def Failure.isProviderReadback : Failure → Prop
  | .providerReadback _ => True
  | .value => False

private theorem isProviderReadback_of_rejectDuplicatePairs {result pairs : List (Text × Value)}
    {e : Failure} (h : rejectDuplicatePairs result pairs = .error e) : e.isProviderReadback := by
  induction pairs generalizing result with
  | nil => cases h
  | cons p pairs ih =>
    simp only [rejectDuplicatePairs, bind_eq_error, raiseIf_eq_error] at h
    rcases h with ⟨_, rfl⟩ | ⟨_, _, h⟩
    · trivial
    · exact ih h

private theorem length_spanMinus_le (raw : Text) : (Json.spanMinus raw).2.length ≤ raw.length := by
  unfold Json.spanMinus
  split
  · split
    · simp
    · exact Nat.le_refl _
  · exact Nat.le_refl _

private theorem isProviderReadback_of_scalar {py : Python} {s : Json.Scalar} {e : Failure}
    (h : (hooks py).scalar s = .error e) : e.isProviderReadback := by
  cases s with
  | null | bool | string => cases h
  | integer raw =>
    simp only [hooks, boundedInt, intOfLiteral, bind_eq_error, raiseIf_eq_error,
      raiseIf_eq_ok] at h
    rcases h with ⟨_, rfl⟩ | ⟨_, hlength, (⟨hdigits, _⟩ | ⟨_, _, h⟩) | ⟨_, _, h⟩⟩
    · trivial
    · have hle := length_spanMinus_le raw
      have hmax : MAX_NUMBER_CHARS = 128 := rfl
      omega
    · cases h
    · cases h
  | float raw =>
    simp only [hooks, boundedDecimal, bind_eq_error, raiseIf_eq_error] at h
    rcases h with ⟨_, rfl⟩ | ⟨_, _, h | ⟨_, _, ⟨_, rfl⟩ | ⟨_, _, h⟩⟩⟩
    · trivial
    · unfold orRaise at h
      split at h
      · cases h
      · cases h
        trivial
    · trivial
    · cases h
  | constant raw =>
    cases h
    trivial

private theorem isProviderReadback_malformedJson {py : Python} {t : Text}
    {e : Json.LoadsError Failure} (h : Json.loadsWith (hooks py) py.fits t = .error e) :
    (malformedJson e).isProviderReadback := by
  cases e with
  | decode => trivial
  | recursion => trivial
  | hook e =>
    exact Json.loadsWith_hook (fun _ _ ↦ isProviderReadback_of_scalar)
      (fun _ _ ↦ isProviderReadback_of_rejectDuplicatePairs) h

/-- Whatever the loader raises is a `ProviderReadbackError`. -/
theorem isProviderReadback_of_error {py : Python} {file : Option ProviderFile} {e : Failure}
    (h : loadBoundedJsonAndRaw py file = .error e) : e.isProviderReadback := by
  simp only [loadBoundedJsonAndRaw, bind_eq_error, raiseIf_eq_error, orRaise_eq_error,
    mapError_eq_error] at h
  rcases h with ⟨_, rfl⟩ | ⟨_, _, ⟨_, rfl⟩ | ⟨_, _, ⟨_, rfl⟩ | ⟨_, _, ⟨_, rfl⟩ | ⟨_, _, ⟨_, rfl⟩ |
    ⟨t, _, ⟨e, h, rfl⟩ | ⟨v, _, ⟨e, h, rfl⟩ | ⟨_, _, h⟩⟩⟩⟩⟩⟩⟩
  · trivial
  · trivial
  · trivial
  · trivial
  · trivial
  · exact isProviderReadback_malformedJson h
  · trivial
  · cases h

/-- What the loader returns was read from a text within the bounds. -/
theorem loadBoundedJsonAndRaw_eq_ok {py : Python} {file : Option ProviderFile} {v : Value}
    {raw : Bytes} (h : loadBoundedJsonAndRaw py file = .ok (v, raw)) :
    ∃ t, decodeUtf8 raw = some t ∧ Json.loadsWith (hooks py) py.fits t = .ok v ∧
      raw.length ≤ MAX_JSON_BYTES ∧ Bounded v := by
  simp only [loadBoundedJsonAndRaw, bind_eq_ok, raiseIf_eq_ok, orRaise_eq_ok, mapError_eq_ok,
    pure, Except.pure, Except.ok.injEq, Prod.mk.injEq] at h
  obtain ⟨source, _, _, _, _, _, _, hlength, t, htext, _, hloads, n, hshape, rfl, rfl⟩ := h
  exact ⟨t, (Option.filter_eq_some_iff.mp htext).1, hloads, Nat.not_lt.mp hlength,
    validateJsonShape_accepts.mp ⟨n, hshape⟩⟩

/-- Bounded provider JSON, for every interpreter. `_validate_json_shape` accepts exactly the values
with at most 10000 nodes, none deeper than 32, and with bounded arrays, objects, strings and names.
`load_bounded_json` of any file raises `ProviderReadbackError`, or returns a value within these
bounds. The document of its text then has no object with a repeated name, no number literal of more
than 128 characters, and no number that is not finite. -/
theorem boundedJson_exact (py : Python) :
    (∀ v, (∃ n, validateJsonShape 0 0 v = .ok n) ↔
      (nodesAt 0 v).length ≤ 10000 ∧ ∀ depth x, (depth, x) ∈ nodesAt 0 v →
        depth ≤ 32 ∧ match x with
          | .none | .bool _ | .int _ | .float _ => True
          | .str t => t.length ≤ 16384
          | .list xs => xs.length ≤ 1024
          | .dict m => m.length ≤ 256 ∧ ∀ p ∈ m, p.1.length ≤ 16384
          | .bytes _ | .object _ => False) ∧
    ∀ file, (∃ message,
        loadBoundedJsonAndRaw py file = .error (.providerReadback message)) ∨
      ∃ v raw t doc, loadBoundedJsonAndRaw py file = .ok (v, raw) ∧ Bounded v ∧
        decodeUtf8 raw = some t ∧
        Json.loadsWith (Json.Document.hooks Failure) py.fits t = .ok doc ∧
        doc.load (hooks py) = .ok v ∧
        (∀ pairs, .object pairs ∈ doc.parts → (pairs.map Prod.fst).Nodup) ∧
        (∀ literal, .scalar (.integer literal) ∈ doc.parts → literal.length ≤ 128) ∧
        (∀ literal, .scalar (.float literal) ∈ doc.parts →
          literal.length ≤ 128 ∧ py.decimal literal = some true) ∧
        ∀ literal, .scalar (.constant literal) ∉ doc.parts := by
  constructor
  · intro v
    rw [validateJsonShape_accepts]
    constructor
    · intro h
      refine ⟨h.nodes, fun depth x hx ↦ ⟨h.depth _ hx, ?_⟩⟩
      exact h.admitted _ hx
    · rintro ⟨hnodes, hall⟩
      exact ⟨hnodes, fun node hnode ↦ (hall _ _ hnode).1, fun node hnode ↦ (hall _ _ hnode).2⟩
  · intro file
    cases h : loadBoundedJsonAndRaw py file with
    | error e =>
      left
      have hreadback := isProviderReadback_of_error h
      cases e with
      | providerReadback message => exact ⟨message, rfl⟩
      | value => cases hreadback
    | ok r =>
      right
      obtain ⟨v, raw⟩ := r
      obtain ⟨t, htext, hloads, _, hbounded⟩ := loadBoundedJsonAndRaw_eq_ok h
      obtain ⟨doc, hdoc, hload⟩ := Json.Document.loadsWith_document hloads
      have haccepted : ∀ part ∈ doc.parts, Accepted py part := by
        intro part hpart
        obtain ⟨w, hw⟩ := Json.Document.load_of_mem_parts hload hpart
        exact accepted_of_load hw
      exact ⟨v, raw, t, doc, rfl, hbounded, htext, hdoc, hload, fun _ hp ↦ haccepted _ hp,
        fun _ hp ↦ haccepted _ hp, fun _ hp ↦ haccepted _ hp, fun _ hp ↦ haccepted _ hp⟩

end Atcap.Readback
