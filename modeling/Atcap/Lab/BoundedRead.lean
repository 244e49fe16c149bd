import Atcap.Lab.Evidence

/-!
# Bounded reads of evidence files

The loop of `_read_bounded_regular_file` in `lab/live_cli.py`, over a file that the operating system
delivers in short reads and that may grow while it is read. The model of an evidence directory reads
each file at once; `readBoundedRegularFile_settled` connects the two.
-/

namespace Atcap.Lab

open Base

/-- A file behind a descriptor. Before the read number `k` it holds `content k`, and that read
delivers at most `amount k` of what is asked for, but something unless the file ends there. -/
structure OpenFile where
  /-- `stat.S_ISREG(metadata.st_mode)`. -/
  regular : Bool
  /-- `metadata.st_size`. -/
  size : Nat
  content : Nat → Bytes
  amount : Nat → Nat
  grows : ∀ k, content k <+: content (k + 1)
  amount_pos : ∀ k, 0 < amount k

namespace OpenFile

variable (file : OpenFile) (limit : Nat)

/-- `os.read(descriptor, n)`: the read number `k`, after `offset` bytes have been delivered. -/
def read (k offset n : Nat) : Bytes := ((file.content k).drop offset).take (min (file.amount k) n)

/-- The bytes that the loop asks for. -/
def request (total : Nat) : Nat := min 65536 (limit + 1 - total)

/-- The exception of an evidence file that is too large or not regular. -/
def exceeds : Exn := .value "evidence file exceeds its verification bound"

/-- The loop, before the read number `k`. Each turn that goes on has read a byte. -/
def readLoop (k total : Nat) (chunks : List Bytes) : Except Exn Bytes :=
  let chunk := file.read k total (request limit total)
  if chunk = [] then .ok chunks.flatten
  else if limit < total + chunk.length then .error exceeds
  else readLoop (k + 1) (total + chunk.length) (chunks ++ [chunk])
  termination_by limit + 1 - total
  decreasing_by
    have hpos : 0 < chunk.length := List.length_pos_iff.mpr (by assumption)
    change limit + 1 - (total + chunk.length) < limit + 1 - total
    omega

/-- `_read_bounded_regular_file`, after the descriptor is open. -/
def readBoundedRegularFile : Except Exn Bytes := do
  raiseIf (file.regular = false ∨ limit < file.size) exceeds
  file.readLoop limit 0 0 []

/-! ### One read -/

variable {file limit}

/-- A read delivers at most what is asked for. -/
theorem length_read_le (k offset n : Nat) : (file.read k offset n).length ≤ n := by
  rw [read, List.length_take]
  omega

/-- A read of at least one byte delivers nothing exactly at the end of the file. -/
theorem read_eq_nil {k offset n : Nat} (hn : 0 < n) :
    file.read k offset n = [] ↔ (file.content k).length ≤ offset := by
  have hamount := file.amount_pos k
  rw [← List.length_eq_zero_iff, read, List.length_take, List.length_drop]
  omega

/-- What is delivered stands in the file where reading had stopped. -/
theorem read_prefix (k offset n : Nat) : file.read k offset n <+: (file.content k).drop offset :=
  List.take_prefix _ _

/-- At least one byte is asked for while the bound is not exceeded. -/
theorem request_pos {total : Nat} (h : total ≤ limit) : 0 < request limit total := by
  unfold request
  omega

/-- No read makes the total exceed the bound by more than one byte. -/
theorem add_length_read_le {k total : Nat} (h : total ≤ limit + 1) :
    total + (file.read k total (request limit total)).length ≤ limit + 1 := by
  have hread : (file.read k total (request limit total)).length ≤ request limit total :=
    length_read_le k total _
  unfold request at hread
  unfold request
  omega

/-! ### The delivered chunks -/

variable (file limit) in
/-- The chunks that the first reads of the loop deliver. -/
inductive Delivers : List Bytes → Prop where
  | nil : Delivers []
  | snoc {chunks : List Bytes} {chunk : Bytes} : Delivers chunks → chunk ≠ [] →
      chunk = file.read chunks.length chunks.flatten.length
        (request limit chunks.flatten.length) → Delivers (chunks ++ [chunk])

/-- What was delivered is the beginning of what the file holds. -/
theorem Delivers.flatten_prefix {chunks : List Bytes} (h : Delivers file limit chunks) :
    chunks.flatten <+: file.content chunks.length := by
  induction h with
  | nil => exact List.nil_prefix
  | @snoc chunks chunk _ _ hchunk ih =>
    have hmore : chunks.flatten ++ chunk <+: file.content chunks.length := by
      obtain ⟨rest, hrest⟩ := ih
      have hprefix : chunk <+: (file.content chunks.length).drop chunks.flatten.length := by
        rw [hchunk]
        exact read_prefix _ _ _
      rw [← hrest, List.drop_left] at hprefix
      rw [← hrest]
      exact List.prefix_append_right_inj chunks.flatten |>.mpr hprefix
    rw [List.flatten_append, List.flatten_singleton, List.length_append, List.length_singleton]
    exact hmore.trans (file.grows chunks.length)

/-- The total never exceeds the bound by more than one byte. -/
theorem Delivers.length_le {chunks : List Bytes} (h : Delivers file limit chunks) :
    chunks.flatten.length ≤ limit + 1 := by
  induction h with
  | nil => exact Nat.zero_le _
  | snoc _ _ hchunk ih =>
    rw [List.flatten_append, List.flatten_singleton, List.length_append, hchunk]
    exact add_length_read_le ih

/-- Below the bound the loop asks for a byte at least, and is told of the end of the file exactly
when it has everything that the file then holds. -/
theorem Delivers.read_eq_nil_iff {chunks : List Bytes} (h : Delivers file limit chunks)
    (hle : chunks.flatten.length ≤ limit) :
    file.read chunks.length chunks.flatten.length (request limit chunks.flatten.length) = [] ↔
      chunks.flatten = file.content chunks.length := by
  rw [read_eq_nil (request_pos hle)]
  have hprefix := h.flatten_prefix
  constructor
  · intro hend
    exact hprefix.eq_of_length (Nat.le_antisymm hprefix.length_le hend)
  · intro heq
    rw [← heq]

variable (file limit) in
/-- The loop ended with these chunks: below the bound it has returned all that the file held at the
last read, and above it has raised. -/
def Ended (chunks : List Bytes) (r : Except Exn Bytes) : Prop :=
  (chunks.flatten.length ≤ limit → chunks.flatten = file.content chunks.length ∧
    r = .ok chunks.flatten) ∧
  (limit < chunks.flatten.length → r = .error exceeds)

/-- From the chunks delivered so far the loop goes on to the end of the file or past the bound. -/
theorem readLoop_ended {chunks : List Bytes} (h : Delivers file limit chunks)
    (hle : chunks.flatten.length ≤ limit) :
    ∃ chunks', chunks <+: chunks' ∧ Delivers file limit chunks' ∧
      Ended file limit chunks'
        (file.readLoop limit chunks.length chunks.flatten.length chunks) := by
  generalize htotal : chunks.flatten.length = total
  generalize hk : chunks.length = k
  fun_induction file.readLoop limit k total chunks with
  | case1 k total chunks chunk hnil =>
    subst htotal hk
    refine ⟨chunks, List.prefix_rfl, h, fun _ ↦ ⟨(h.read_eq_nil_iff hle).mp hnil, rfl⟩, ?_⟩
    intro hlt
    omega
  | case2 k total chunks chunk hne hlt =>
    subst htotal hk
    refine ⟨chunks ++ [chunk], List.prefix_append _ _, h.snoc hne rfl, ?_, fun _ ↦ rfl⟩
    intro hle'
    rw [List.flatten_append, List.flatten_singleton, List.length_append] at hle'
    omega
  | case3 k total chunks chunk hne hlt ih =>
    subst htotal hk
    obtain ⟨chunks', hprefix, hdelivers, hended⟩ := ih (h.snoc hne rfl)
      (by rw [List.flatten_append, List.flatten_singleton, List.length_append]; omega)
      (by rw [List.flatten_append, List.flatten_singleton, List.length_append])
      (by rw [List.length_append, List.length_singleton])
    exact ⟨chunks', (List.prefix_append _ _).trans hprefix, hdelivers, hended⟩

private theorem readBoundedRegularFile_eq (hregular : file.regular = true)
    (hsize : file.size ≤ limit) :
    file.readBoundedRegularFile limit = file.readLoop limit 0 0 [] := by
  have hpass : raiseIf (file.regular = false ∨ limit < file.size) exceeds = .ok () := by
    rw [raiseIf_eq_ok, hregular]
    simp [hsize]
  rw [readBoundedRegularFile, hpass]
  rfl

/-- Of a regular file that does not change, the loop reads what the evidence directory holds. -/
theorem readBoundedRegularFile_settled {raw : Bytes} (hregular : file.regular = true)
    (hfixed : ∀ k, file.content k = raw) (hsize : file.size = raw.length) :
    file.readBoundedRegularFile limit = Lab.readBoundedRegularFile limit (some raw) := by
  by_cases hlimit : raw.length ≤ limit
  · have habstract : Lab.readBoundedRegularFile limit (some raw) = .ok raw := by
      simp only [Lab.readBoundedRegularFile, bind_eq_ok, orRaise_eq_ok, raiseIf_eq_ok]
      exact ⟨raw, rfl, (), by omega, rfl⟩
    obtain ⟨chunks, _, hdelivers, hended⟩ :=
      readLoop_ended (.nil : Delivers file limit []) (Nat.zero_le limit)
    have hbegin := hdelivers.flatten_prefix
    rw [hfixed] at hbegin
    obtain ⟨hcontent, hr⟩ := hended.1 (hbegin.length_le.trans hlimit)
    rw [hfixed] at hcontent
    rw [readBoundedRegularFile_eq hregular (hsize ▸ hlimit), habstract, ← hcontent]
    exact hr
  · have hconcrete : file.readBoundedRegularFile limit = .error exceeds := by
      have hlt : limit < file.size := by omega
      simp [readBoundedRegularFile, raiseIf, hlt, bind, Except.bind]
    have habstract : Lab.readBoundedRegularFile limit (some raw) = .error exceeds := by
      have hlt : limit < raw.length := by omega
      simp [Lab.readBoundedRegularFile, orRaise, raiseIf, hlt, bind, Except.bind, exceeds]
    rw [hconcrete, habstract]

/-- The bounded read, for every file that grows and every sequence of short reads. Of a regular file
within the bound at open, it returns the complete content delivered, which is all that the file held
when its end was reported, if that is within the bound, and it raises otherwise. Every read before
this asks for at least one byte and takes nothing but the end of the file for its end, and no more
than one byte above the bound is ever held. -/
theorem readBounded_exact (hregular : file.regular = true) (hsize : file.size ≤ limit) :
    (∃ chunks, Delivers file limit chunks ∧
      (chunks.flatten.length ≤ limit → chunks.flatten = file.content chunks.length ∧
        file.readBoundedRegularFile limit = .ok chunks.flatten) ∧
      (limit < chunks.flatten.length → file.readBoundedRegularFile limit = .error exceeds)) ∧
    ∀ chunks, Delivers file limit chunks →
      chunks.flatten.length ≤ limit + 1 ∧
      (chunks.flatten.length ≤ limit → 1 ≤ request limit chunks.flatten.length ∧
        (file.read chunks.length chunks.flatten.length
          (request limit chunks.flatten.length) = [] ↔
            chunks.flatten = file.content chunks.length)) := by
  constructor
  · obtain ⟨chunks, _, hdelivers, hended⟩ :=
      readLoop_ended (.nil : Delivers file limit []) (Nat.zero_le limit)
    rw [readBoundedRegularFile_eq hregular hsize]
    exact ⟨chunks, hdelivers, hended.1, hended.2⟩
  · intro chunks hdelivers
    exact ⟨hdelivers.length_le, fun hle ↦ ⟨request_pos hle, hdelivers.read_eq_nil_iff hle⟩⟩

namespace Demo

/-- A file of two bytes that grows to three after its first read, delivered byte by byte. -/
def growing : OpenFile where
  regular := true
  size := 2
  content k := if k = 0 then [1, 2] else [1, 2, 3]
  amount _ := 1
  grows k := by
    cases k with
    | zero => decide
    | succ k => exact List.prefix_rfl
  amount_pos _ := Nat.one_pos

end Demo

/-- The law at the growing file with a bound of three bytes, which the grown file meets exactly. -/
theorem readBounded_exact_growing :
    Demo.growing.readBoundedRegularFile 3 = .ok [1, 2, 3] ∧
    ∃ chunks, Delivers Demo.growing 3 chunks ∧
      (chunks.flatten.length ≤ 3 → chunks.flatten = Demo.growing.content chunks.length ∧
        Demo.growing.readBoundedRegularFile 3 = .ok chunks.flatten) ∧
      (3 < chunks.flatten.length → Demo.growing.readBoundedRegularFile 3 = .error exceeds) := by
  refine ⟨?_, (@readBounded_exact Demo.growing 3 rfl (by decide)).1⟩
  simp [readBoundedRegularFile, readLoop, read, request, Demo.growing, raiseIf, bind, Except.bind]

end OpenFile
end Atcap.Lab
