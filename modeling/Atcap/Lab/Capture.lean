import Mathlib.Data.List.Infix
import Mathlib.Logic.Function.Basic
import Atcap.Base.Text

/-!
# Bounded capture

`bounded_capture.py`. The wrapper copies two pipes of an untrusted child into two files. What the
wrapper does to the files is the list of its writes; a file at a moment is its initial content
followed by the writes made to it so far. The child, the selector, the clock and the signals are
the environment: one `Turn` for each pass of the loop. A write is complete, and files are told
apart by their resolved paths.
-/

namespace Atcap.Capture

open Base

/-! ### Destinations -/

/-- The two captured streams. -/
inductive StreamName where
  | stdout
  | stderr
  deriving DecidableEq, Repr

/-- The stream that is not this one. -/
def StreamName.other : StreamName → StreamName
  | .stdout => .stderr
  | .stderr => .stdout

/-- What a path names before the capture. -/
inductive Entry where
  | absent
  | regular (content : Bytes)
  /-- Anything that opens but is not a regular file. -/
  | special
  /-- A symbolic link, a directory, or an entry without permission. -/
  | unopenable

/-- Why no capture starts: a `ValueError` or a `CaptureError`. -/
inductive CaptureFailure where
  | value (message : String)
  | capture (message : String)
  deriving DecidableEq, Repr

/-- `os.open` with the flags of a capture, and the check that the file is a regular one. -/
def Entry.opened (entry : Entry) (append : Bool) : Except CaptureFailure Bytes :=
  match entry, append with
  | .absent, _ => .ok []
  | .regular content, true => .ok content
  | .special, true => .error (.capture "capture destination is not a regular file")
  -- `O_EXCL` refuses every entry that exists.
  | _, _ => .error (.capture "capture destination could not be opened")

/-- The content a path has before the capture. -/
def Entry.content : Entry → Bytes
  | .regular content => content
  | _ => []

/-- `_open_capture`: the initial content of the destination. -/
def openCapture (entry : Entry) (append : Bool) (limit : Int) : Except CaptureFailure Bytes :=
  match entry.opened append with
  | .error f => .error f
  | .ok content =>
    if limit < content.length then
      .error (.capture "capture destination already exceeds its limit")
    else .ok content

/-- Opening keeps the content of the file. -/
theorem Entry.content_of_opened {entry : Entry} {append : Bool} {content : Bytes}
    (h : entry.opened append = .ok content) : entry.content = content := by
  cases entry <;> cases append <;> cases h <;> rfl

/-- An opened destination has the content it had, and is within its limit. -/
theorem openCapture_ok {entry : Entry} {append : Bool} {limit : Int} {content : Bytes}
    (h : openCapture entry append limit = .ok content) :
    entry.content = content ∧ (content.length : Int) ≤ limit := by
  unfold openCapture at h
  split at h
  · cases h
  · next hopen =>
    split at h
    · cases h
    · cases h
      exact ⟨Entry.content_of_opened hopen, by omega⟩

/-! ### The capture loop -/

/-- `READ_CHUNK_BYTES`. -/
def READ_CHUNK_BYTES : Nat := 65536

/-- `CaptureOutcome`. -/
inductive CaptureOutcome where
  | childExit
  | childSignal
  | interrupted
  | stdoutLimit
  | stderrLimit
  | timedOut
  | wrapperError
  deriving DecidableEq, Repr

/-- The outcome that names the limit of a stream. -/
def StreamName.limitOutcome : StreamName → CaptureOutcome
  | .stdout => .stdoutLimit
  | .stderr => .stderrLimit

/-- What `os.read` finds in a pipe that the selector reported. -/
inductive Readiness where
  /-- `BlockingIOError`. -/
  | blocked
  /-- Any other `OSError`. -/
  | failed
  /-- One byte and `more` further bytes are there, or the pipe is at its end. -/
  | ready (more : Nat)
  deriving DecidableEq, Repr

/-- The mutable variables of `capture_command`, the unread bytes of both pipes and the writes made
so far. -/
structure Loop where
  unread : StreamName → Bytes
  registered : StreamName → Bool
  written : StreamName → Int
  writes : List (StreamName × Bytes)
  receivedSignal : Option Nat

/-- How a part of the loop ends. -/
inductive Flow where
  | next
  | stop (reason : CaptureOutcome)
  | raised
  | exited (returncode : Int)
  deriving DecidableEq, Repr

/-- The capture of one stream: its limit and the content its file had. -/
structure Destination where
  limit : Int
  initial : Bytes

variable (d : StreamName → Destination)

/-- `os.read` of a pipe with these unread bytes. -/
def read (unread : Bytes) (more : Nat) : Bytes := unread.take (min (more + 1) READ_CHUNK_BYTES)

/-- One event of a batch. -/
def serve (s : Loop) (name : StreamName) (readiness : Readiness) : Loop × Flow :=
  match readiness with
  | .blocked => (s, .next)
  | .failed => (s, .raised)
  | .ready more =>
    let chunk := read (s.unread name) more
    let s := { s with
      unread := Function.update s.unread name ((s.unread name).drop chunk.length) }
    if chunk = [] then
      ({ s with registered := Function.update s.registered name false }, .next)
    else
      let available := (d name).limit - (d name).initial.length - s.written name
      if available < chunk.length then
        if 0 < available then
          ({ s with
            writes := s.writes ++ [(name, chunk.take available.toNat)]
            written := Function.update s.written name (s.written name + available) },
            .stop name.limitOutcome)
        else (s, .stop name.limitOutcome)
      else
        ({ s with
          writes := s.writes ++ [(name, chunk)]
          written := Function.update s.written name (s.written name + chunk.length) }, .next)

/-- The `for` loop over one batch, which a limit or an exception leaves. -/
def serveAll (s : Loop) : List (StreamName × Readiness) → Loop × Flow
  | [] => (s, .next)
  | (name, readiness) :: events =>
    match serve d s name readiness with
    | (s, .next) => serveAll s events
    | r => r

/-- What happens around one pass of the loop. -/
structure Turn where
  /-- A signal handled since the last pass. -/
  signal : Option Nat
  /-- `time.monotonic()`. -/
  now : Int
  /-- Whether `select` returned; otherwise it raised an `OSError`. -/
  selected : Bool
  /-- The stream the batch lists first. -/
  first : StreamName
  /-- The streams the selector reports, if they are registered. -/
  ready : StreamName → Option Readiness
  /-- `child.poll()`. -/
  poll : Option Int

/-- `selector.select(...)`: the ready streams among the registered ones, none without any. -/
def Turn.events (t : Turn) (registered : StreamName → Bool) : List (StreamName × Readiness) :=
  [t.first, t.first.other].filterMap fun name ↦
    if registered name then (t.ready name).map (name, ·) else none

/-- One pass of the loop. -/
def turn (deadline : Int) (s : Loop) (t : Turn) : Loop × Flow :=
  let s := { s with receivedSignal := s.receivedSignal.or t.signal }
  if s.receivedSignal.isSome then (s, .stop .interrupted)
  else if deadline - t.now ≤ 0 then (s, .stop .timedOut)
  else if (s.registered .stdout ∨ s.registered .stderr) ∧ t.selected = false then (s, .raised)
  else
    match serveAll d s (t.events s.registered) with
    | (s, .next) =>
      match t.poll with
      | some returncode =>
        if s.registered .stdout = false ∧ s.registered .stderr = false then
          (s, .exited returncode)
        else (s, .next)
      | none => (s, .next)
    | r => r

/-- The passes of the loop up to its end, or all of them when it goes on after the last. -/
def passes (deadline : Int) (s : Loop) : List Turn → Loop × Flow
  | [] => (s, .next)
  | t :: turns =>
    match turn d deadline s t with
    | (s, .next) => passes deadline s turns
    | r => r

/-! ### What the writes leave in a file -/

/-- The bytes that a list of writes adds to the file of a stream. -/
def data (name : StreamName) (writes : List (StreamName × Bytes)) : Bytes :=
  (writes.filter fun w ↦ decide (w.1 = name)).flatMap Prod.snd

/-- Nothing was read at the beginning. -/
@[simp] theorem data_nil (name : StreamName) : data name [] = [] := rfl

/-- One more write to the file. -/
theorem data_append_same (name : StreamName) (writes : List (StreamName × Bytes)) (b : Bytes) :
    data name (writes ++ [(name, b)]) = data name writes ++ b := by
  simp [data]

/-- A write to the other file. -/
theorem data_append_other {name other : StreamName} (h : other ≠ name)
    (writes : List (StreamName × Bytes)) (b : Bytes) :
    data name (writes ++ [(other, b)]) = data name writes := by
  simp [data, h]

/-- Earlier writes leave an earlier part of the file. -/
theorem data_prefix {ws writes : List (StreamName × Bytes)} (name : StreamName)
    (h : ws <+: writes) : data name ws <+: data name writes := by
  obtain ⟨later, rfl⟩ := h
  simp [data]

/-! ### One stream -/

/-- What always holds of a stream: its file has a part of what was read from the pipe, as long as
the count says and within the limit. -/
structure Kept (produced : Bytes) (d : Destination) (s : Loop) (name : StreamName) : Prop where
  unread : s.unread name <:+ produced
  file : data name s.writes <+: produced.take (produced.length - (s.unread name).length)
  counted : s.written name = (data name s.writes).length
  bounded : (d.initial.length : Int) + (data name s.writes).length ≤ d.limit

/-- What holds of a stream while the loop runs: its file has all that was read, and it is
unregistered at its end only. -/
structure Current (produced : Bytes) (d : Destination) (s : Loop) (name : StreamName) : Prop where
  split : data name s.writes ++ s.unread name = produced
  counted : s.written name = (data name s.writes).length
  bounded : (d.initial.length : Int) + (data name s.writes).length ≤ d.limit
  ended : s.registered name = false → s.unread name = []

/-- A stream at its limit: the file is full, and more was read than fitted. -/
structure Full (produced : Bytes) (d : Destination) (s : Loop) (name : StreamName) : Prop where
  filled : (d.initial.length : Int) + (data name s.writes).length = d.limit
  exceeded : d.limit < d.initial.length + produced.length - (s.unread name).length

variable {d} {produced : StreamName → Bytes} {s s' : Loop} {name : StreamName}

/-- A stream that is up to date keeps to its bound. -/
theorem Current.kept {produced : Bytes} {d : Destination} (h : Current produced d s name) :
    Kept produced d s name := by
  obtain ⟨rfl, hc, hb, -⟩ := h
  refine ⟨List.suffix_append _ _, ?_, hc, hb⟩
  simp

/-- What is up to date depends on the fields of the stream alone. -/
theorem Current.congr {produced : Bytes} {d : Destination} (h : Current produced d s name)
    (hunread : s'.unread name = s.unread name)
    (hregistered : s'.registered name = s.registered name)
    (hwritten : s'.written name = s.written name)
    (hdata : data name s'.writes = data name s.writes) : Current produced d s' name := by
  constructor
  · rw [hdata, hunread]
    exact h.split
  · rw [hdata, hwritten]
    exact h.counted
  · rw [hdata]
    exact h.bounded
  · rw [hunread, hregistered]
    exact h.ended

/-- What each way out of a part of the loop leaves behind. -/
def Served (d : StreamName → Destination) (produced : StreamName → Bytes) (s : Loop) : Flow → Prop
  | .next => ∀ name, Current (produced name) (d name) s name
  | .raised => ∀ name, Kept (produced name) (d name) s name
  | .stop reason => (∀ name, Kept (produced name) (d name) s name) ∧
      (reason = .interrupted ∨ reason = .timedOut ∨
        ∃ name : StreamName, reason = name.limitOutcome ∧ Full (produced name) (d name) s name)
  | .exited _ => ∀ name, Current (produced name) (d name) s name ∧ s.unread name = []

/-- The outcome names the stream. -/
theorem limitOutcome_injective : Function.Injective StreamName.limitOutcome := by
  intro a b h
  cases a <;> cases b <;> first | rfl | cases h

/-- What a read returns, and what it leaves. -/
theorem read_append (unread : Bytes) (more : Nat) :
    read unread more ++ unread.drop (read unread more).length = unread := by
  rw [read, List.length_take]
  rcases Nat.le_total (min (more + 1) READ_CHUNK_BYTES) unread.length with h | h
  · rw [Nat.min_eq_left h, List.take_append_drop]
  · rw [Nat.min_eq_right h, List.take_of_length_le h, List.drop_length, List.append_nil]

/-- A read that returns nothing is at the end of the stream. -/
theorem read_eq_nil {unread : Bytes} {more : Nat} : read unread more = [] ↔ unread = [] := by
  have h : min (more + 1) READ_CHUNK_BYTES ≠ 0 := by
    unfold READ_CHUNK_BYTES
    omega
  simp [read, h]

/-- A chunk that fits. -/
theorem Current.add {produced : Bytes} {d : Destination} (h : Current produced d s name)
    {chunk rest : Bytes} (hread : chunk ++ rest = s.unread name)
    (hfits : (d.initial.length : Int) + s.written name + chunk.length ≤ d.limit)
    (hchunk : chunk ≠ []) (hunread : s'.unread name = rest)
    (hregistered : s'.registered name = s.registered name)
    (hwritten : s'.written name = s.written name + chunk.length)
    (hdata : data name s'.writes = data name s.writes ++ chunk) : Current produced d s' name := by
  have hcounted := h.counted
  constructor
  · rw [hdata, hunread, List.append_assoc, hread]
    exact h.split
  · rw [hdata, hwritten, List.length_append]
    omega
  · rw [hdata, List.length_append]
    omega
  · intro hended
    rw [hregistered] at hended
    have hnil := h.ended hended
    rw [← hread] at hnil
    exact absurd (List.append_eq_nil_iff.mp hnil).1 hchunk

/-- A chunk that does not fit, of which as much is written as there is room. -/
theorem Current.fill {produced : Bytes} {d : Destination} (h : Current produced d s name)
    {chunk part rest : Bytes} (hread : chunk ++ rest = s.unread name) (hpart : part <+: chunk)
    (hover : d.limit - d.initial.length - s.written name < chunk.length)
    (hroom : (part.length : Int) = d.limit - d.initial.length - s.written name)
    (hunread : s'.unread name = rest)
    (hwritten : s'.written name = s.written name + part.length)
    (hdata : data name s'.writes = data name s.writes ++ part) :
    Kept produced d s' name ∧ Full produced d s' name := by
  have hcounted := h.counted
  have hsplit : produced = (data name s.writes ++ chunk) ++ rest := by
    rw [List.append_assoc, hread]
    exact h.split.symm
  have hlength : produced.length = (data name s.writes).length + chunk.length + rest.length := by
    rw [hsplit, List.length_append, List.length_append]
  refine ⟨⟨?_, ?_, ?_, ?_⟩, ?_, ?_⟩
  · rw [hunread, hsplit]
    exact List.suffix_append _ _
  · rw [hunread, hdata, hsplit, List.length_append, Nat.add_sub_cancel, List.take_left]
    exact (List.prefix_append_right_inj _).mpr hpart
  · rw [hdata, hwritten, List.length_append]
    omega
  · rw [hdata, List.length_append]
    omega
  · rw [hdata, List.length_append]
    omega
  · rw [hunread]
    omega

/-- A stop at the limit of one stream leaves the other as it was. -/
theorem served_stop (hfull : Kept (produced name) (d name) s name ∧
    Full (produced name) (d name) s name)
    (hother : ∀ n, n ≠ name → Current (produced n) (d n) s n) :
    Served d produced s (.stop name.limitOutcome) := by
  refine ⟨?_, .inr (.inr ⟨name, rfl, hfull.2⟩)⟩
  intro n
  by_cases hn : n = name
  · subst hn
    exact hfull.1
  · exact (hother n hn).kept

/-- One event keeps both streams up to date, or stops at a limit with a full file. -/
theorem serve_served (h : ∀ n, Current (produced n) (d n) s n) (name : StreamName)
    (readiness : Readiness) :
    Served d produced (serve d s name readiness).1 (serve d s name readiness).2 := by
  unfold serve
  cases readiness with
  | blocked => exact h
  | failed => exact fun n ↦ (h n).kept
  | ready more =>
    have hc := h name
    have hread := read_append (s.unread name) more
    have hend : read (s.unread name) more = [] ↔ s.unread name = [] := read_eq_nil
    simp only
    generalize read (s.unread name) more = chunk at hread hend ⊢
    split
    · next hnil =>
      -- The end of the stream: nothing was left to read.
      intro n
      by_cases hn : n = name
      · subst hn
        constructor
        · simpa [hnil] using hc.split
        · exact hc.counted
        · exact hc.bounded
        · intro _
          simp [hend.mp hnil]
      · exact (h n).congr (by simp [hn]) (by simp [hn]) rfl rfl
    · next hne =>
      have hb := hc.bounded
      have hcounted := hc.counted
      split
      · next hover =>
        split
        · next hpos =>
          apply served_stop
          · apply hc.fill hread (List.take_prefix
            ((d name).limit - (d name).initial.length - s.written name).toNat chunk) hover
            · rw [List.length_take]
              omega
            · simp
            · simp only [Function.update_self, List.length_take]
              omega
            · exact data_append_same _ _ _
          · intro n hn
            exact (h n).congr (by simp [hn]) rfl (by simp [hn]) (data_append_other (Ne.symm hn) _ _)
        · next hzero =>
          -- No room at all: the file was full before the chunk.
          apply served_stop
          · apply hc.fill hread List.nil_prefix hover
            · simp only [List.length_nil]
              omega
            · simp
            · simp
            · simp
          · intro n hn
            exact (h n).congr (by simp [hn]) rfl rfl rfl
      · next hfits =>
        intro n
        by_cases hn : n = name
        · subst hn
          apply hc.add hread (by omega) hne
          · simp
          · rfl
          · simp
          · exact data_append_same _ _ _
        · exact (h n).congr (by simp [hn]) rfl (by simp [hn]) (data_append_other (Ne.symm hn) _ _)

/-- One batch keeps both streams up to date, or leaves the loop. -/
theorem serveAll_served (events : List (StreamName × Readiness))
    (h : ∀ n, Current (produced n) (d n) s n) :
    Served d produced (serveAll d s events).1 (serveAll d s events).2 := by
  induction events generalizing s with
  | nil => exact h
  | cons event events ih =>
    have hserved := serve_served h event.1 event.2
    rw [serveAll]
    split
    · next heq =>
      rw [heq] at hserved
      exact ih hserved
    · exact hserved

/-- One pass keeps both streams up to date, or leaves the loop. -/
theorem turn_served (deadline : Int) (t : Turn) (h : ∀ n, Current (produced n) (d n) s n) :
    Served d produced (turn d deadline s t).1 (turn d deadline s t).2 := by
  -- The handler of a signal touches no stream.
  have hsignal : ∀ n, Current (produced n) (d n)
      { s with receivedSignal := s.receivedSignal.or t.signal } n :=
    fun n ↦ (h n).congr rfl rfl rfl rfl
  unfold turn
  simp only
  split
  · exact ⟨fun n ↦ (hsignal n).kept, .inl rfl⟩
  · split
    · exact ⟨fun n ↦ (hsignal n).kept, .inr (.inl rfl)⟩
    · split
      · exact fun n ↦ (hsignal n).kept
      · have hserved := serveAll_served (t.events s.registered) hsignal
        split
        · next heq =>
          rw [heq] at hserved
          split
          · split
            · next hended =>
              intro n
              refine ⟨hserved n, (hserved n).ended ?_⟩
              cases n with
              | stdout => exact hended.1
              | stderr => exact hended.2
            · exact hserved
          · exact hserved
        · exact hserved

/-- Every pass of the loop keeps both streams up to date up to the one that leaves it. -/
theorem passes_served (deadline : Int) (turns : List Turn)
    (h : ∀ n, Current (produced n) (d n) s n) :
    Served d produced (passes d deadline s turns).1 (passes d deadline s turns).2 := by
  induction turns generalizing s with
  | nil => exact h
  | cons t turns ih =>
    have hserved := turn_served deadline t h
    rw [passes]
    split
    · next heq =>
      rw [heq] at hserved
      exact ih hserved
    · exact hserved

/-- However the loop was left, both files are within their bounds. -/
theorem Served.kept {f : Flow} (h : Served d produced s f) (name : StreamName) :
    Kept (produced name) (d name) s name := by
  cases f with
  | next => exact (h name).kept
  | raised => exact h name
  | stop reason => exact h.1 name
  | exited returncode => exact (h name).1.kept

/-! ### A whole capture -/

/-- `EXIT_TIMEOUT`. -/
def EXIT_TIMEOUT : Int := 124

/-- `EXIT_LIMIT`. -/
def EXIT_LIMIT : Int := 125

/-- `EXIT_WRAPPER_ERROR`. -/
def EXIT_WRAPPER_ERROR : Int := 126

/-- The arguments of `capture_command`, with the three paths resolved. -/
structure Arguments where
  command : List Text
  stdoutPath : Text
  stderrPath : Text
  resultPath : Text
  stdoutLimit : Int
  stderrLimit : Int
  timeoutSeconds : Int
  append : Bool

/-- The path of the file of a stream. -/
def Arguments.path (a : Arguments) : StreamName → Text
  | .stdout => a.stdoutPath
  | .stderr => a.stderrPath

/-- The limit of the file of a stream. -/
def Arguments.limit (a : Arguments) : StreamName → Int
  | .stdout => a.stdoutLimit
  | .stderr => a.stderrLimit

/-- What a capture meets. -/
structure Environment where
  files : Text → Entry
  /-- A signal handled before the child is started. -/
  signal : Option Nat
  /-- Whether the child could be started. -/
  spawned : Bool
  /-- All that is written to each pipe before its last writer closes it. -/
  produced : StreamName → Bytes
  /-- The clock when the child has been started. -/
  started : Int
  turns : List Turn
  /-- Whether `_kill_process_group` returned; otherwise it raised an `OSError`. -/
  killed : Bool
  /-- Whether the result file could be written. -/
  resultWritten : Bool

/-- The part of a `CaptureResult` that tells how the capture ended, and the exit status. -/
structure Ending where
  outcome : CaptureOutcome
  childReturncode : Option Int
  childSignal : Option Int
  exitStatus : Int
  deriving DecidableEq, Repr

/-- The ending of a wrapper that could not do its work. -/
def wrapperError : Ending := ⟨.wrapperError, none, none, EXIT_WRAPPER_ERROR⟩

/-- The ending of a capture that a signal interrupted. -/
def interrupted (signum : Nat) : Ending := ⟨.interrupted, none, some signum, 128 + signum⟩

/-- What follows the loop; nothing while it goes on. -/
def ending (killed : Bool) (s : Loop) : Flow → Option Ending
  | .next => none
  | .raised => some wrapperError
  | .exited returncode =>
    if returncode < 0 then some ⟨.childSignal, none, some (-returncode), 128 + -returncode⟩
    else some ⟨.childExit, some returncode, none, returncode⟩
  | .stop reason =>
    if killed = false then some wrapperError
    else if reason = .timedOut then some ⟨reason, none, none, EXIT_TIMEOUT⟩
    else if reason = .stdoutLimit ∨ reason = .stderrLimit then
      some ⟨reason, none, none, EXIT_LIMIT⟩
    else
      match s.receivedSignal with
      | none => some wrapperError
      | some signum => some ⟨reason, none, some signum, 128 + signum⟩

/-- `CaptureResult`. -/
structure CaptureResult where
  outcome : CaptureOutcome
  childReturncode : Option Int
  childSignal : Option Int
  stdoutBytesWritten : Int
  stdoutTotalBytes : Int
  stderrBytesWritten : Int
  stderrTotalBytes : Int
  deriving DecidableEq, Repr

/-- The reported number of bytes written for a stream. -/
def CaptureResult.bytesWritten (r : CaptureResult) : StreamName → Int
  | .stdout => r.stdoutBytesWritten
  | .stderr => r.stderrBytesWritten

/-- The reported size of the file of a stream. -/
def CaptureResult.totalBytes (r : CaptureResult) : StreamName → Int
  | .stdout => r.stdoutTotalBytes
  | .stderr => r.stderrTotalBytes

/-- `_result`. -/
def result (d : StreamName → Destination) (s : Loop) (e : Ending) : CaptureResult where
  outcome := e.outcome
  childReturncode := e.childReturncode
  childSignal := e.childSignal
  stdoutBytesWritten := s.written .stdout
  stdoutTotalBytes := (d .stdout).initial.length + s.written .stdout
  stderrBytesWritten := s.written .stderr
  stderrTotalBytes := (d .stderr).initial.length + s.written .stderr

/-- A capture as far as it got: the writes made, the bytes read from each pipe, and once it has
ended its result and exit status. -/
structure Captured where
  writes : List (StreamName × Bytes)
  received : StreamName → Bytes
  ended : Option (CaptureResult × Int)

/-- The variables before the first pass of the loop. -/
def Environment.begin (e : Environment) : Loop where
  unread := e.produced
  registered := fun _ ↦ true
  written := fun _ ↦ 0
  writes := []
  receivedSignal := e.signal

/-- From the check for an early signal to the end of the loop. -/
def Environment.run (e : Environment) (d : StreamName → Destination) (timeout : Int) :
    Loop × Option Ending :=
  match e.signal with
  | some signum => (e.begin, some (interrupted signum))
  | none =>
    if e.spawned = false then (e.begin, some wrapperError)
    else
      match passes d (e.started + timeout) e.begin e.turns with
      | (s, flow) => (s, ending e.killed s flow)

/-- From the opened destinations to the result. -/
def Environment.captured (e : Environment) (d : StreamName → Destination) (timeout : Int) :
    Captured :=
  let run := e.run d timeout
  { writes := run.1.writes
    received := fun name ↦
      (e.produced name).take ((e.produced name).length - (run.1.unread name).length)
    ended := run.2.map fun ending ↦
      (result d run.1 ending, if e.resultWritten then ending.exitStatus else EXIT_WRAPPER_ERROR) }

/-- `capture_command`. -/
def captureCommand (a : Arguments) (e : Environment) : Except CaptureFailure Captured :=
  if a.command = [] then .error (.value "command must not be empty")
  else if a.stdoutLimit < 0 ∨ a.stderrLimit < 0 ∨ a.timeoutSeconds ≤ 0 then
    .error (.value "capture limits must be nonnegative and timeout must be positive")
  else if ¬ [a.stdoutPath, a.stderrPath, a.resultPath].Nodup then
    .error (.value "stdout, stderr, and result paths must be distinct")
  else
    match openCapture (e.files a.stdoutPath) a.append a.stdoutLimit with
    | .error f => .error f
    | .ok stdoutInitial =>
      match openCapture (e.files a.stderrPath) a.append a.stderrLimit with
      | .error f => .error f
      | .ok stderrInitial =>
        .ok (e.captured
          (fun
            | .stdout => ⟨a.stdoutLimit, stdoutInitial⟩
            | .stderr => ⟨a.stderrLimit, stderrInitial⟩)
          a.timeoutSeconds)

/-- What a result says about a stream holds of the stream. -/
structure Reported (produced : StreamName → Bytes) (d : StreamName → Destination) (s : Loop)
    (outcome : CaptureOutcome) : Prop where
  complete : outcome = .childExit ∨ outcome = .childSignal →
    ∀ name, data name s.writes = produced name
  limited : ∀ name, outcome = StreamName.limitOutcome name →
    Full (produced name) (d name) s name

/-- The endings that say nothing about a stream. -/
theorem reported_of_other {outcome : CaptureOutcome}
    (h : outcome = .interrupted ∨ outcome = .timedOut ∨ outcome = .wrapperError) :
    Reported produced d s outcome := by
  constructor
  · rintro (rfl | rfl) <;> simp at h
  · rintro (_ | _) rfl <;> simp [StreamName.limitOutcome] at h

/-- The ending that follows the loop reports its streams. -/
theorem ending_reported {flow : Flow} {killed : Bool} {e : Ending}
    (h : Served d produced s flow) (he : ending killed s flow = some e) :
    Reported produced d s e.outcome := by
  unfold ending at he
  cases flow with
  | next => cases he
  | raised =>
    cases he
    exact reported_of_other (.inr (.inr rfl))
  | exited returncode =>
    have hcomplete : ∀ name, data name s.writes = produced name := by
      intro name
      have hsplit := (h name).1.split
      rw [(h name).2, List.append_nil] at hsplit
      exact hsplit
    simp only at he
    split at he <;> cases he <;>
      exact ⟨fun _ ↦ hcomplete, fun name hname ↦ by cases name <;> cases hname⟩
  | stop reason =>
    -- A stop has the outcome it was made for, unless the child could not be killed.
    have houtcome : e.outcome = .wrapperError ∨ e.outcome = reason := by
      simp only at he
      split at he
      · cases he
        exact .inl rfl
      · split at he
        · cases he
          exact .inr rfl
        · split at he
          · cases he
            exact .inr rfl
          · split at he
            · cases he
              exact .inl rfl
            · cases he
              exact .inr rfl
    rcases houtcome with hw | hr
    · exact reported_of_other (.inr (.inr hw))
    · rcases h.2 with hi | ht | ⟨name, hname, hfull⟩
      · exact reported_of_other (.inl (hr.trans hi))
      · exact reported_of_other (.inr (.inl (hr.trans ht)))
      · rw [hr, hname]
        constructor
        · intro hexit
          cases name <;> simp [StreamName.limitOutcome] at hexit
        · intro n hn
          rw [← limitOutcome_injective hn]
          exact hfull

/-- A run keeps both files within their bounds, and its ending reports them. -/
theorem run_reported (e : Environment) (d : StreamName → Destination) (timeout : Int)
    (hd : ∀ name, ((d name).initial.length : Int) ≤ (d name).limit) :
    (∀ name, Kept (e.produced name) (d name) (e.run d timeout).1 name) ∧
      ∀ ending, (e.run d timeout).2 = some ending →
        Reported e.produced d (e.run d timeout).1 ending.outcome := by
  have hbegin : ∀ name, Current (e.produced name) (d name) e.begin name := by
    intro name
    constructor
    · rfl
    · rfl
    · simpa [Environment.begin] using hd name
    · intro h
      cases h
  unfold Environment.run
  split
  · refine ⟨fun name ↦ (hbegin name).kept, ?_⟩
    rintro _ ⟨⟩
    exact reported_of_other (.inl rfl)
  · split
    · refine ⟨fun name ↦ (hbegin name).kept, ?_⟩
      rintro _ ⟨⟩
      exact reported_of_other (.inr (.inr rfl))
    · have hserved := passes_served (e.started + timeout) e.turns hbegin
      exact ⟨hserved.kept, fun ending h ↦ ending_reported hserved h⟩

/-- The file of a stream after some of the writes of a capture. -/
def fileAfter (a : Arguments) (e : Environment) (name : StreamName)
    (writes : List (StreamName × Bytes)) : Bytes :=
  (e.files (a.path name)).content ++ data name writes

/-- A capture that starts is a run over destinations within their limits. -/
theorem captureCommand_ok {a : Arguments} {e : Environment} {c : Captured}
    (h : captureCommand a e = .ok c) :
    ∃ d : StreamName → Destination,
      (∀ name, d name = ⟨a.limit name, (e.files (a.path name)).content⟩) ∧
      (∀ name, ((d name).initial.length : Int) ≤ (d name).limit) ∧
      c = e.captured d a.timeoutSeconds := by
  unfold captureCommand at h
  split at h
  · cases h
  · split at h
    · cases h
    · split at h
      · cases h
      · split at h
        · cases h
        · next stdoutInitial hout =>
          split at h
          · cases h
          · next stderrInitial herr =>
            cases h
            have hout := openCapture_ok hout
            have herr := openCapture_ok herr
            refine ⟨_, ?_, ?_, rfl⟩
            · rintro (_ | _)
              · simp only [Arguments.limit, Arguments.path, hout.1]
              · simp only [Arguments.limit, Arguments.path, herr.1]
            · rintro (_ | _)
              · exact hout.2
              · exact herr.2

/-- A capture is exact. At every moment a file has its initial content and a part of what the
child wrote to the stream, within the limit. Both files are complete when the child ended by
itself; a file whose limit stopped the capture is full, and more was read than fitted. The counts
of the result are those of the files. -/
theorem captureCommand_exact {a : Arguments} {e : Environment} {c : Captured}
    (h : captureCommand a e = .ok c) :
    (∀ name writes, writes <+: c.writes →
      (∃ part, part <+: e.produced name ∧
        fileAfter a e name writes = (e.files (a.path name)).content ++ part) ∧
      ((fileAfter a e name writes).length : Int) ≤ a.limit name) ∧
    ∀ r status, c.ended = some (r, status) →
      (r.outcome = .childExit ∨ r.outcome = .childSignal → ∀ name,
        fileAfter a e name c.writes = (e.files (a.path name)).content ++ e.produced name) ∧
      (∀ name : StreamName, r.outcome = name.limitOutcome →
        ((fileAfter a e name c.writes).length : Int) = a.limit name ∧
        c.received name <+: e.produced name ∧
        a.limit name < (e.files (a.path name)).content.length + (c.received name).length) ∧
      ∀ name, r.bytesWritten name = (data name c.writes).length ∧
        r.totalBytes name = (fileAfter a e name c.writes).length := by
  obtain ⟨d, hd, hwithin, rfl⟩ := captureCommand_ok h
  obtain ⟨hkept, hreported⟩ := run_reported e d a.timeoutSeconds hwithin
  simp only [Environment.captured]
  generalize e.run d a.timeoutSeconds = run at hkept hreported
  constructor
  · intro name writes hprefix
    have hdata := data_prefix name hprefix
    refine ⟨⟨data name writes, ?_, rfl⟩, ?_⟩
    · exact hdata.trans ((hkept name).file.trans (List.take_prefix _ _))
    · have hbounded := (hkept name).bounded
      simp only [hd name] at hbounded
      have hlength := hdata.length_le
      rw [fileAfter, List.length_append]
      push_cast
      omega
  · intro r status hended
    obtain ⟨ending, hending, heq⟩ := Option.map_eq_some_iff.mp hended
    cases heq
    have hr := hreported ending hending
    refine ⟨?_, ?_, ?_⟩
    · intro houtcome name
      rw [fileAfter, hr.complete houtcome name]
    · intro name houtcome
      obtain ⟨hfilled, hexceeded⟩ := hr.limited name houtcome
      simp only [hd name] at hfilled hexceeded
      have hunread := (hkept name).unread.length_le
      refine ⟨?_, List.take_prefix _ _, ?_⟩
      · rw [fileAfter, List.length_append]
        push_cast
        exact hfilled
      · rw [List.length_take]
        omega
    · intro name
      have hcounted := (hkept name).counted
      have hcontent : (d name).initial = (e.files (a.path name)).content := by rw [hd name]
      rw [fileAfter, List.length_append, ← hcontent]
      push_cast
      rw [← hcounted]
      cases name <;> exact ⟨rfl, rfl⟩

namespace Demo

/-- Both streams appended, with room for two more bytes of the standard output. -/
def arguments : Arguments where
  command := [text "run"]
  stdoutPath := text "/out"
  stderrPath := text "/err"
  resultPath := text "/result"
  stdoutLimit := 3
  stderrLimit := 1
  timeoutSeconds := 10
  append := true

/-- A pass in which the standard output has `more` further bytes and the standard error is at its
end. -/
def pass (more : Nat) : Turn where
  signal := none
  now := 0
  selected := true
  first := .stderr
  ready
    | .stdout => some (.ready more)
    | .stderr => some (.ready 0)
  poll := none

/-- A child that writes four bytes after the one byte of an earlier capture. -/
def environment : Environment where
  files path := if path = text "/out" then .regular [7] else .absent
  signal := none
  spawned := true
  produced
    | .stdout => [1, 2, 3, 4]
    | .stderr => []
  started := 0
  turns := [pass 0, pass 5]
  killed := true
  resultWritten := true

/-- The second chunk does not fit: the file is filled up to its limit. -/
theorem captureCommand_exact_limit : ∃ c, captureCommand arguments environment = .ok c ∧
    c.ended = some (⟨.stdoutLimit, none, none, 2, 3, 0, 0⟩, 125) ∧
    ((fileAfter arguments environment .stdout c.writes).length : Int) = 3 ∧
    (3 : Int) < 1 + (c.received .stdout).length := by
  refine ⟨_, rfl, by decide, ?_⟩
  have h := ((captureCommand_exact (a := arguments) (e := environment) rfl).2 _ _ rfl).2.1
    .stdout (by decide)
  exact ⟨h.1, h.2.2⟩

end Demo

end Atcap.Capture
