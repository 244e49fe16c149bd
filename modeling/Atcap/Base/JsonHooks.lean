import Atcap.Base.JsonParser
import Atcap.Base.Program

/-!
# Parsing JSON texts with hooks

Library `Base`. `json.loads` with the hooks of its caller: every number and every constant goes
through a hook as it is written, and so do the members of an object, in order and with their
repetitions. A hook may raise, and so does the decoder on a malformed text and on a container for
which the stack of the interpreter is exhausted. The document of a text is what hooks that keep
everything make of it; whatever hooks return is what they make of the document.
-/

namespace Atcap.Base.Json

/-! ### Tokens -/

/-- A value that is no container, as it is written. -/
inductive Scalar where
  | null
  | bool (b : Bool)
  | string (t : Text)
  | integer (raw : Text)
  | float (raw : Text)
  /-- `NaN` and the infinities. -/
  | constant (raw : Text)
  deriving DecidableEq

/-- The words of JSON. -/
def words : List (Text × Scalar) :=
  [(text "null", .null), (text "true", .bool true), (text "false", .bool false),
    (text "NaN", .constant (text "NaN")), (text "Infinity", .constant (text "Infinity")),
    (text "-Infinity", .constant (text "-Infinity"))]

/-- A word at the start of the text. -/
def scanWord (t : Text) : Option (Scalar × Text) :=
  words.findSome? fun l ↦ if l.1 <+: t then some (l.2, t.drop l.1.length) else none

/-- The text of a number: an integer, or a `float` when it has a fraction or an exponent. -/
def scanNumeral (t : Text) : Option (Scalar × Text) := do
  let (sign, unsigned) := spanMinus t
  let (integer, rest) ← scanInteger unsigned
  let (fraction, rest) := scanPart (fun c ↦ decide (c.val = 46)) false rest
  let (exponent, rest) := scanPart (fun c ↦ decide (c.val = 101) || decide (c.val = 69)) true rest
  if fraction = [] ∧ exponent = [] then some (.integer (sign ++ integer), rest)
  else some (.float (sign ++ integer ++ fraction ++ exponent), rest)

/-- What a value starts with, and the text after that. -/
inductive Start where
  | emptyObject (rest : Text)
  /-- The opening quotation mark of the first name is read. -/
  | object (rest : Text)
  | emptyArray (rest : Text)
  | array (rest : Text)
  | scalar (s : Scalar) (rest : Text)
  | malformed

/-- The start of the value at the start of the text. -/
def start (t : Text) : Start :=
  match t with
  | [] => .malformed
  | c :: rest =>
    if c.val = 34 then
      match scanString 0 rest with
      | some (s, rest) => .scalar (.string s) rest
      | none => .malformed
    else if c.val = 123 then
      match skipSpace rest with
      | e :: tail =>
        if e.val = 125 then .emptyObject tail else if e.val = 34 then .object tail else .malformed
      | [] => .malformed
    else if c.val = 91 then
      match skipSpace rest with
      | e :: tail => if e.val = 93 then .emptyArray tail else .array (e :: tail)
      | [] => .malformed
    else
      match scanWord t with
      | some (s, rest) => .scalar s rest
      | none =>
        match scanNumeral t with
        | some (s, rest) => .scalar s rest
        | none => .malformed

/-- The name of a member after its opening quotation mark, and the text of its value. -/
def scanName (t : Text) : Option (Text × Text) :=
  match scanString 0 t with
  | some (key, rest) =>
    match skipSpace rest with
    | e :: rest => if e.val = 58 then some (key, skipSpace rest) else none
    | [] => none
  | none => none

/-- What follows a member: the end of the object, or the next name after its quotation mark. -/
def afterMember (t : Text) : Option (Bool × Text) :=
  match skipSpace t with
  | e :: rest =>
    if e.val = 125 then some (true, rest)
    else if e.val = 44 then
      match skipSpace rest with
      | f :: rest => if f.val = 34 then some (false, rest) else none
      | [] => none
    else none
  | [] => none

/-- What follows an element: the end of the array, or the next element. -/
def afterElement (t : Text) : Option (Bool × Text) :=
  match skipSpace t with
  | e :: rest =>
    if e.val = 93 then some (true, rest)
    else if e.val = 44 then some (false, skipSpace rest)
    else none
  | [] => none

/-! ### Values -/

/-- The hooks of a caller. -/
structure Hooks (ε α : Type) where
  /-- `parse_int`, `parse_float` and `parse_constant`, and what the decoder makes of the others. -/
  scalar : Scalar → Except ε α
  array : List α → α
  /-- `object_pairs_hook`. -/
  pairs : List (Text × α) → Except ε α

/-- What `json.loads` raises. -/
inductive LoadsError (ε : Type) where
  /-- `JSONDecodeError`. -/
  | decode
  /-- `RecursionError`. -/
  | recursion
  /-- What a hook raised. -/
  | hook (e : ε)

section Loads

variable {ε α : Type} (H : Hooks ε α) (fits : Nat → Bool)

/-- A call of a hook. -/
def called (r : Except ε α) : Except (LoadsError ε) α := r.mapError .hook

mutual

/-- The value at the start of the text, inside `depth` containers; `fuel` bounds the steps. -/
def readValue : (fuel depth : Nat) → Text → Except (LoadsError ε) (α × Text)
  | 0, _, _ => .error .decode
  | fuel + 1, depth, t =>
    match start t with
    | .malformed => .error .decode
    | .scalar s rest => do
      let v ← called (H.scalar s)
      return (v, rest)
    | .emptyObject rest => do
      raiseIf (fits depth = false) .recursion
      let v ← called (H.pairs [])
      return (v, rest)
    | .object rest => do
      raiseIf (fits depth = false) .recursion
      readMembers fuel (depth + 1) [] rest
    | .emptyArray rest => do
      raiseIf (fits depth = false) .recursion
      return (H.array [], rest)
    | .array rest => do
      raiseIf (fits depth = false) .recursion
      readElements fuel (depth + 1) [] rest

/-- The members of an object from a name on, after those in `pairs`. -/
def readMembers : (fuel depth : Nat) → List (Text × α) → Text → Except (LoadsError ε) (α × Text)
  | 0, _, _, _ => .error .decode
  | fuel + 1, depth, pairs, t => do
    let (key, t) ← orRaise (scanName t) .decode
    let (v, t) ← readValue fuel depth t
    let (last, t) ← orRaise (afterMember t) .decode
    if last = true then do
      let v ← called (H.pairs (pairs ++ [(key, v)]))
      return (v, t)
    else readMembers fuel depth (pairs ++ [(key, v)]) t

/-- The elements of an array from a value on, after those in `elements`. -/
def readElements : (fuel depth : Nat) → List α → Text → Except (LoadsError ε) (α × Text)
  | 0, _, _, _ => .error .decode
  | fuel + 1, depth, elements, t => do
    let (v, t) ← readValue fuel depth t
    let (last, t) ← orRaise (afterElement t) .decode
    if last = true then return (H.array (elements ++ [v]), t)
    else readElements fuel depth (elements ++ [v]) t

end

/-- `json.loads` of a text with hooks. -/
def loadsWith (t : Text) : Except (LoadsError ε) α := do
  let (v, rest) ← readValue H fits (t.length + 1) 0 (skipSpace t)
  raiseIf (skipSpace rest ≠ []) .decode
  return v

/-! ### Exceptions of hooks -/

variable {H fits}

private theorem called_eq_hook {r : Except ε α} {e : ε} :
    called r = .error (.hook e) ↔ r = .error e := by
  cases r with
  | error e' => simp [called, Except.mapError]
  | ok a => simp [called, Except.mapError]

private theorem orRaise_decode_ne {β : Type} {o : Option β} {e : ε} :
    orRaise o (.decode : LoadsError ε) ≠ .error (.hook e) := by
  cases o with
  | none => simp [orRaise]
  | some b => simp [orRaise]

private theorem raiseIf_recursion_ne {c : Prop} [Decidable c] {e : ε} :
    raiseIf c (.recursion : LoadsError ε) ≠ .error (.hook e) := by
  simp [raiseIf_eq_error]

private theorem read_hook {P : ε → Prop} (hscalar : ∀ s e, H.scalar s = .error e → P e)
    (hpairs : ∀ pairs e, H.pairs pairs = .error e → P e) (fuel : Nat) :
    (∀ depth t e, readValue H fits fuel depth t = .error (.hook e) → P e) ∧
    (∀ depth vs t e, readMembers H fits fuel depth vs t = .error (.hook e) → P e) ∧
    (∀ depth vs t e, readElements H fits fuel depth vs t = .error (.hook e) → P e) := by
  induction fuel with
  | zero =>
    refine ⟨?_, ?_, ?_⟩
    · intro depth t e h
      cases h
    · intro depth vs t e h
      cases h
    · intro depth vs t e h
      cases h
  | succ fuel ih =>
    obtain ⟨ihv, ihm, ihe⟩ := ih
    refine ⟨?_, ?_, ?_⟩
    · intro depth t e h
      simp only [readValue] at h
      cases hstart : start t with
      | malformed =>
        rw [hstart] at h
        cases h
      | scalar s rest =>
        simp only [hstart, bind_eq_error, called_eq_hook] at h
        rcases h with h | ⟨_, _, h⟩
        · exact hscalar s e h
        · cases h
      | emptyObject rest =>
        simp only [hstart, bind_eq_error, called_eq_hook] at h
        rcases h with h | ⟨_, _, h | ⟨_, _, h⟩⟩
        · exact absurd h raiseIf_recursion_ne
        · exact hpairs [] e h
        · cases h
      | object rest =>
        simp only [hstart, bind_eq_error] at h
        rcases h with h | ⟨_, _, h⟩
        · exact absurd h raiseIf_recursion_ne
        · exact ihm _ _ _ e h
      | emptyArray rest =>
        simp only [hstart, bind_eq_error] at h
        rcases h with h | ⟨_, _, h⟩
        · exact absurd h raiseIf_recursion_ne
        · cases h
      | array rest =>
        simp only [hstart, bind_eq_error] at h
        rcases h with h | ⟨_, _, h⟩
        · exact absurd h raiseIf_recursion_ne
        · exact ihe _ _ _ e h
    · intro depth vs t e h
      simp only [readMembers, bind_eq_error] at h
      rcases h with h | ⟨⟨key, t₁⟩, _, h | ⟨⟨v, t₂⟩, _, h | ⟨⟨last, t₃⟩, _, h⟩⟩⟩
      · exact absurd h orRaise_decode_ne
      · exact ihv _ _ e h
      · exact absurd h orRaise_decode_ne
      · cases last with
        | true =>
          simp only [↓reduceIte, bind_eq_error, called_eq_hook] at h
          rcases h with h | ⟨_, _, h⟩
          · exact hpairs _ e h
          · cases h
        | false => exact ihm _ _ _ e h
    · intro depth vs t e h
      simp only [readElements, bind_eq_error] at h
      rcases h with h | ⟨⟨v, t₁⟩, _, h | ⟨⟨last, t₂⟩, _, h⟩⟩
      · exact ihv _ _ e h
      · exact absurd h orRaise_decode_ne
      · cases last with
        | true => cases h
        | false => exact ihe _ _ _ e h

/-- Apart from its own two exceptions, `json.loads` raises what its hooks raise. -/
theorem loadsWith_hook {P : ε → Prop} (hscalar : ∀ s e, H.scalar s = .error e → P e)
    (hpairs : ∀ pairs e, H.pairs pairs = .error e → P e) {t : Text} {e : ε}
    (h : loadsWith H fits t = .error (.hook e)) : P e := by
  simp only [loadsWith, bind_eq_error] at h
  rcases h with h | ⟨⟨v, rest⟩, _, h | ⟨_, _, h⟩⟩
  · exact (read_hook hscalar hpairs _).1 _ _ e h
  · rw [raiseIf_eq_error] at h
    cases h.2
  · cases h

end Loads

/-! ### Documents -/

/-- A text as it is written: every literal, and every member of an object. -/
inductive Document where
  | scalar (s : Scalar)
  | array (xs : List Document)
  | object (pairs : List (Text × Document))

namespace Document

/-- Induction over a document, its elements and the values of its members. -/
theorem nestedInduction {motive : Document → Prop} (scalar : ∀ s, motive (.scalar s))
    (array : ∀ xs, (∀ x ∈ xs, motive x) → motive (.array xs))
    (object : ∀ pairs, (∀ p ∈ pairs, motive p.2) → motive (.object pairs)) (doc : Document) :
    motive doc := by
  have hcons : ∀ x xs, motive x → (∀ y ∈ xs, motive y) → ∀ y ∈ x :: xs, motive y := by
    intro x xs hx hxs
    exact List.forall_mem_cons.mpr ⟨hx, hxs⟩
  have hcons' : ∀ (p : Text × Document) pairs, motive p.2 → (∀ q ∈ pairs, motive q.2) →
      ∀ q ∈ p :: pairs, motive q.2 := by
    intro p pairs hp hpairs
    exact List.forall_mem_cons.mpr ⟨hp, hpairs⟩
  exact @Document.rec motive (fun xs ↦ ∀ x ∈ xs, motive x) (fun pairs ↦ ∀ p ∈ pairs, motive p.2)
    (fun p ↦ motive p.2) scalar array object (List.forall_mem_nil _) hcons (List.forall_mem_nil _)
    hcons' (fun _ _ h ↦ h) doc

/-- Hooks that keep everything. -/
def hooks (ε : Type) : Hooks ε Document where
  scalar s := .ok (.scalar s)
  array := .array
  pairs pairs := .ok (.object pairs)

section Load

variable {ε α : Type} (H : Hooks ε α)

mutual

/-- What hooks make of a document. -/
def load : Document → Except ε α
  | .scalar s => H.scalar s
  | .array xs => do
    let vs ← loadElements xs
    return H.array vs
  | .object pairs => do
    let vs ← loadMembers pairs
    H.pairs vs

/-- `load` of the elements of an array. -/
def loadElements : List Document → Except ε (List α)
  | [] => .ok []
  | x :: xs => do
    let v ← load x
    let vs ← loadElements xs
    return v :: vs

/-- `load` of the values of the members of an object. -/
def loadMembers : List (Text × Document) → Except ε (List (Text × α))
  | [] => .ok []
  | (key, x) :: pairs => do
    let v ← load x
    let vs ← loadMembers pairs
    return (key, v) :: vs

end

variable {H}

/-- One more element is loaded after the others. -/
theorem loadElements_concat {xs : List Document} {x : Document} {vs : List α} {v : α}
    (hxs : loadElements H xs = .ok vs) (hx : load H x = .ok v) :
    loadElements H (xs ++ [x]) = .ok (vs ++ [v]) := by
  induction xs generalizing vs with
  | nil =>
    cases hxs
    simp only [List.nil_append, loadElements, hx]
    rfl
  | cons y ys ih =>
    simp only [loadElements, bind_eq_ok, pure, Except.pure, Except.ok.injEq] at hxs
    obtain ⟨w, hw, ws, hws, rfl⟩ := hxs
    simp only [List.cons_append, loadElements, bind_eq_ok]
    exact ⟨w, hw, ws ++ [v], ih hws, rfl⟩

/-- One more member is loaded after the others. -/
theorem loadMembers_concat {pairs : List (Text × Document)} {key : Text} {x : Document}
    {vs : List (Text × α)} {v : α} (hpairs : loadMembers H pairs = .ok vs)
    (hx : load H x = .ok v) : loadMembers H (pairs ++ [(key, x)]) = .ok (vs ++ [(key, v)]) := by
  induction pairs generalizing vs with
  | nil =>
    cases hpairs
    simp only [List.nil_append, loadMembers, hx]
    rfl
  | cons p pairs ih =>
    obtain ⟨k, y⟩ := p
    simp only [loadMembers, bind_eq_ok, pure, Except.pure, Except.ok.injEq] at hpairs
    obtain ⟨w, hw, ws, hws, rfl⟩ := hpairs
    simp only [List.cons_append, loadMembers, bind_eq_ok]
    exact ⟨w, hw, ws ++ [(key, v)], ih hws, rfl⟩

end Load

/-! ### The document of a text -/

private theorem called_eq_ok {ε α : Type} {r : Except ε α} {a : α} :
    called r = .ok a ↔ r = .ok a := mapError_eq_ok

private theorem read_document {ε α : Type} (H : Hooks ε α) (fits : Nat → Bool) (fuel : Nat) :
    (∀ depth t v rest, readValue H fits fuel depth t = .ok (v, rest) →
      ∃ doc, readValue (hooks ε) fits fuel depth t = .ok (doc, rest) ∧ load H doc = .ok v) ∧
    (∀ depth vs docs t v rest, readMembers H fits fuel depth vs t = .ok (v, rest) →
      loadMembers H docs = .ok vs → ∃ doc,
        readMembers (hooks ε) fits fuel depth docs t = .ok (doc, rest) ∧ load H doc = .ok v) ∧
    (∀ depth vs docs t v rest, readElements H fits fuel depth vs t = .ok (v, rest) →
      loadElements H docs = .ok vs → ∃ doc,
        readElements (hooks ε) fits fuel depth docs t = .ok (doc, rest) ∧ load H doc = .ok v) := by
  induction fuel with
  | zero =>
    refine ⟨?_, ?_, ?_⟩
    · intro depth t v rest h
      cases h
    · intro depth vs docs t v rest h
      cases h
    · intro depth vs docs t v rest h
      cases h
  | succ fuel ih =>
    obtain ⟨ihv, ihm, ihe⟩ := ih
    refine ⟨?_, ?_, ?_⟩
    · intro depth t v rest h
      simp only [readValue] at h ⊢
      cases hstart : start t with
      | malformed =>
        rw [hstart] at h
        cases h
      | scalar s tail =>
        simp only [hstart, bind_eq_ok, called_eq_ok, pure, Except.pure, Except.ok.injEq,
          Prod.mk.injEq] at h ⊢
        obtain ⟨_, hs, rfl, rfl⟩ := h
        exact ⟨.scalar s, ⟨_, rfl, rfl, rfl⟩, hs⟩
      | emptyObject tail =>
        simp only [hstart, bind_eq_ok, raiseIf_eq_ok, called_eq_ok, pure, Except.pure,
          Except.ok.injEq, Prod.mk.injEq] at h ⊢
        obtain ⟨u, hfits, _, hpairs, rfl, rfl⟩ := h
        refine ⟨.object [], ⟨u, hfits, _, rfl, rfl, rfl⟩, ?_⟩
        simp only [load, loadMembers]
        exact hpairs
      | object tail =>
        simp only [hstart, bind_eq_ok, raiseIf_eq_ok] at h ⊢
        obtain ⟨u, hfits, h⟩ := h
        obtain ⟨doc, hdoc, hload⟩ := ihm _ _ [] _ _ _ h rfl
        exact ⟨doc, ⟨u, hfits, hdoc⟩, hload⟩
      | emptyArray tail =>
        simp only [hstart, bind_eq_ok, raiseIf_eq_ok, pure, Except.pure, Except.ok.injEq,
          Prod.mk.injEq] at h ⊢
        obtain ⟨u, hfits, rfl, rfl⟩ := h
        exact ⟨.array [], ⟨u, hfits, rfl, rfl⟩, rfl⟩
      | array tail =>
        simp only [hstart, bind_eq_ok, raiseIf_eq_ok] at h ⊢
        obtain ⟨u, hfits, h⟩ := h
        obtain ⟨doc, hdoc, hload⟩ := ihe _ _ [] _ _ _ h rfl
        exact ⟨doc, ⟨u, hfits, hdoc⟩, hload⟩
    · intro depth vs docs t v rest h hdocs
      simp only [readMembers, bind_eq_ok, orRaise_eq_ok] at h ⊢
      obtain ⟨⟨key, t₁⟩, hname, ⟨x, t₂⟩, hvalue, ⟨last, t₃⟩, hafter, h⟩ := h
      obtain ⟨doc, hdoc, hload⟩ := ihv _ _ _ _ hvalue
      have hmembers : loadMembers H (docs ++ [(key, doc)]) = .ok (vs ++ [(key, x)]) :=
        loadMembers_concat hdocs hload
      cases last with
      | true =>
        simp only [↓reduceIte, bind_eq_ok, called_eq_ok, pure, Except.pure, Except.ok.injEq,
          Prod.mk.injEq] at h
        obtain ⟨_, hpairs, rfl, rfl⟩ := h
        refine ⟨.object (docs ++ [(key, doc)]),
          ⟨(key, t₁), hname, (doc, t₂), hdoc, (true, t₃), hafter, rfl⟩, ?_⟩
        simp only [load, hmembers]
        exact hpairs
      | false =>
        obtain ⟨doc', hdoc', hload'⟩ := ihm _ _ _ _ _ _ h hmembers
        exact ⟨doc', ⟨(key, t₁), hname, (doc, t₂), hdoc, (false, t₃), hafter, hdoc'⟩, hload'⟩
    · intro depth vs docs t v rest h hdocs
      simp only [readElements, bind_eq_ok, orRaise_eq_ok] at h ⊢
      obtain ⟨⟨x, t₁⟩, hvalue, ⟨last, t₂⟩, hafter, h⟩ := h
      obtain ⟨doc, hdoc, hload⟩ := ihv _ _ _ _ hvalue
      have helements := loadElements_concat hdocs hload
      cases last with
      | true =>
        cases h
        refine ⟨.array (docs ++ [doc]), ⟨(doc, t₁), hdoc, (true, t₂), hafter, rfl⟩, ?_⟩
        simp only [load, helements]
        rfl
      | false =>
        obtain ⟨doc', hdoc', hload'⟩ := ihe _ _ _ _ _ _ h helements
        exact ⟨doc', ⟨(doc, t₁), hdoc, (false, t₂), hafter, hdoc'⟩, hload'⟩

/-- Whatever `json.loads` returns of a text, its hooks make of the document of the text. -/
theorem loadsWith_document {ε α : Type} {H : Hooks ε α} {fits : Nat → Bool} {t : Text} {v : α}
    (h : loadsWith H fits t = .ok v) :
    ∃ doc, loadsWith (hooks ε) fits t = .ok doc ∧ load H doc = .ok v := by
  simp only [loadsWith, bind_eq_ok, raiseIf_eq_ok, pure, Except.pure, Except.ok.injEq] at h ⊢
  obtain ⟨⟨_, rest⟩, hread, u, hend, rfl⟩ := h
  obtain ⟨doc, hdoc, hload⟩ := (read_document H fits _).1 _ _ _ _ hread
  exact ⟨doc, ⟨(doc, rest), hdoc, u, hend, rfl⟩, hload⟩

/-! ### The parts of a document -/

mutual

/-- A document and every document in it. -/
def parts : Document → List Document
  | .scalar s => [.scalar s]
  | .array xs => .array xs :: elementParts xs
  | .object pairs => .object pairs :: memberParts pairs

/-- The parts of the elements of an array. -/
def elementParts : List Document → List Document
  | [] => []
  | x :: xs => parts x ++ elementParts xs

/-- The parts of the values of the members of an object. -/
def memberParts : List (Text × Document) → List Document
  | [] => []
  | (_, x) :: pairs => parts x ++ memberParts pairs

end

section Parts

variable {ε α : Type} {H : Hooks ε α}

private theorem load_of_mem {xs : List Document} {vs : List α} (h : loadElements H xs = .ok vs)
    {x : Document} (hx : x ∈ xs) : ∃ v, load H x = .ok v := by
  induction xs generalizing vs with
  | nil => cases hx
  | cons y ys ih =>
    simp only [loadElements, bind_eq_ok] at h
    obtain ⟨v, hv, ws, hws, _⟩ := h
    rcases List.mem_cons.mp hx with rfl | hx
    · exact ⟨v, hv⟩
    · exact ih hws hx

private theorem load_of_mem_pairs {pairs : List (Text × Document)} {vs : List (Text × α)}
    (h : loadMembers H pairs = .ok vs) {p : Text × Document} (hp : p ∈ pairs) :
    ∃ v, load H p.2 = .ok v := by
  induction pairs generalizing vs with
  | nil => cases hp
  | cons q pairs ih =>
    obtain ⟨key, y⟩ := q
    simp only [loadMembers, bind_eq_ok] at h
    obtain ⟨v, hv, ws, hws, _⟩ := h
    rcases List.mem_cons.mp hp with rfl | hp
    · exact ⟨v, hv⟩
    · exact ih hws hp

private theorem mem_elementParts {xs : List Document} {part : Document} :
    part ∈ elementParts xs ↔ ∃ x ∈ xs, part ∈ parts x := by
  induction xs with
  | nil => simp [elementParts]
  | cons x xs ih => simp [elementParts, ih]

private theorem mem_memberParts {pairs : List (Text × Document)} {part : Document} :
    part ∈ memberParts pairs ↔ ∃ p ∈ pairs, part ∈ parts p.2 := by
  induction pairs with
  | nil => simp [memberParts]
  | cons p pairs ih => simp [memberParts, ih]

/-- Hooks that return have accepted every part of the document. -/
theorem load_of_mem_parts {doc part : Document} {v : α} (h : load H doc = .ok v)
    (hpart : part ∈ parts doc) : ∃ w, load H part = .ok w := by
  induction doc using nestedInduction generalizing v with
  | scalar s =>
    simp only [parts, List.mem_singleton] at hpart
    subst hpart
    exact ⟨v, h⟩
  | array xs ih =>
    simp only [parts, List.mem_cons, mem_elementParts] at hpart
    rcases hpart with rfl | ⟨x, hx, hpart⟩
    · exact ⟨v, h⟩
    · simp only [load, bind_eq_ok] at h
      obtain ⟨vs, hvs, _⟩ := h
      obtain ⟨w, hw⟩ := load_of_mem hvs hx
      exact ih x hx hw hpart
  | object pairs ih =>
    simp only [parts, List.mem_cons, mem_memberParts] at hpart
    rcases hpart with rfl | ⟨p, hp, hpart⟩
    · exact ⟨v, h⟩
    · simp only [load, bind_eq_ok] at h
      obtain ⟨vs, hvs, _⟩ := h
      obtain ⟨w, hw⟩ := load_of_mem_pairs hvs hp
      exact ih p hp hw hpart

/-- The names of an object are handed to its hook as they are written. -/
theorem names_of_loadMembers {pairs : List (Text × Document)} {vs : List (Text × α)}
    (h : loadMembers H pairs = .ok vs) : vs.map Prod.fst = pairs.map Prod.fst := by
  induction pairs generalizing vs with
  | nil =>
    cases h
    rfl
  | cons p pairs ih =>
    obtain ⟨key, y⟩ := p
    simp only [loadMembers, bind_eq_ok, pure, Except.pure, Except.ok.injEq] at h
    obtain ⟨v, _, ws, hws, rfl⟩ := h
    rw [List.map_cons, List.map_cons, ih hws]

end Parts

end Document

end Atcap.Base.Json
