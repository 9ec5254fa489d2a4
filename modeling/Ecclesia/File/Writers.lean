import Ecclesia.Absl.Strings

namespace Ecclesia.File

open Absl List Option

/-!
# Writing files in full

`ApifsFile` and `LockFile` write and read with loops around system calls that may move fewer bytes
than asked.  The definitions follow `apifs.cc`, `lockfile.cc` and `posix.cc`; what the system calls
answer is given.
-/

/-- The error number of a call that failed. -/
abbrev Errno := { errno : Nat // errno ≠ 0 }

def enoent : Nat := 2
def eintr : Nat := 4
def einval : Nat := 22

/-- The cases of `ErrnoToStatusCode`, with the numbers of Linux. -/
def errnoCases : List (List Nat × StatusCode) :=
  [([22, 36, 7, 89, 33, 14, 84, 92, 60, 88, 25, 91, 29], .invalidArgument),
    ([110, 62], .deadlineExceeded), ([19, 2, 123, 6, 3], .notFound),
    ([17, 99, 114, 76], .alreadyExists), ([1, 13, 126, 30], .permissionDenied),
    ([39, 21, 20, 98, 9, 77, 16, 10, 106, 120, 15, 107, 32, 108, 26, 49], .failedPrecondition),
    ([28, 122, 24, 31, 23, 105, 61, 12, 63, 87], .resourceExhausted),
    ([44, 27, 75, 34], .outOfRange), ([65, 38, 95, 97, 96, 93, 94, 18], .unimplemented),
    ([11, 70, 111, 103, 104, 4, 112, 113, 100, 102, 101, 37, 67, 64], .unavailable),
    ([35, 116], .aborted), ([125], .cancelled)]

def errnoToStatusCode (errno : Nat) : StatusCode :=
  if errno = 0 then .ok
  else
    match errnoCases.find? fun numbers => numbers.1.contains errno with
    | some numbers => numbers.2
    | none => .unknown

lemma errnoToStatusCode_ne_ok (errno : Errno) : errnoToStatusCode errno.val ≠ .ok := by
  rw [errnoToStatusCode, if_neg errno.property]
  split
  · rename_i numbers found
    have noOk : ∀ numbers ∈ errnoCases, numbers.2 ≠ .ok := by decide
    exact noOk numbers (mem_of_find?_eq_some found)
  · exact StatusCode.noConfusion

section

variable (strerror : Nat -> Text)

/-- `PosixErrorToStatus` -/
def posixErrorToStatus (message : Text) (errno : Nat) : Status :=
  ⟨errnoToStatusCode errno, text "[errno: " ++ strCatNat errno ++ text " (" ++ strerror errno ++
    text ")] " ++ message⟩

end

/-- What `write`, `pwrite` or `pread` answers: an error, or what was moved. -/
inductive Answer (Moved : Type) where
  | failed (errno : Errno)
  | done (moved : Moved)

structure Transfer where
  offset : Int
  bytes : Text

variable {errno : Nat}

section

variable {Moved : Type}

/-- How a function uses its system call: the bytes of a call, the error it returns, and what it does
when nothing was moved: try again, fail or stop. -/
structure Use (Moved : Type) where
  chunk : Moved -> Text -> Text
  failed : Nat -> Status
  atZero : Nat -> Option (Except Status Unit)

/-- An offset below zero is an error, and no call moves bytes past the largest offset. -/
def Use.call (use : Use Moved) (offset : Int) (rest : Text) : Answer Moved -> Except Nat Text
  | .failed errno => .error errno.val
  | .done moved =>
    if offset < 0 then .error einval
    else .ok (((use.chunk moved rest).take rest.length).take (2 ^ 63 - 1 - offset).toNat)

/-- The loop, with the bytes left when it ends; there is no result while answers are missing. -/
def Use.loop (use : Use Moved) : List (Answer Moved) -> Nat -> Int -> Text ->
    Option (Except Status Text × List Transfer)
  | _, _, _, [] => some (.ok [], [])
  | [], _, _, _ :: _ => none
  | answer :: answers, errno, offset, rest =>
    match use.call offset rest answer with
    | .error errno =>
      if errno = eintr then use.loop answers errno offset rest
      else some (.error (use.failed errno), [])
    | .ok [] =>
      match use.atZero errno with
      | none => use.loop answers errno offset rest
      | some (.error status) => some (.error status, [])
      | some (.ok _) => some (.ok rest, [])
    | .ok moved =>
      (use.loop answers errno (offset + moved.length) (rest.drop moved.length)).map
        fun (result, log) => (result, ⟨offset, moved⟩ :: log)

/-- Each transfer starts where the one before it ended. -/
def Consecutive (offset : Int) : List Transfer -> Prop
  | [] => True
  | transfer :: log =>
    transfer.offset = offset ∧ Consecutive (offset + transfer.bytes.length) log

def allBytes (log : List Transfer) : Text :=
  log.flatMap Transfer.bytes

/-- What holds when a loop ends without an error. -/
structure Use.Ended (use : Use Moved) (offset : Int) (rest left : Text) (log : List Transfer) :
    Prop where
  consecutive : Consecutive offset log
  length_eq : (allBytes log).length + left.length = rest.length
  offset_nonneg : log ≠ [] -> 0 <= offset
  bytes_eq : (∀ moved rest, use.chunk moved rest <+: rest) -> allBytes log ++ left = rest
  left_eq : (∀ errno, use.atZero errno ≠ some (.ok ())) -> left = []

variable {use : Use Moved} {answer : Answer Moved} {offset : Int} {rest moved left : Text}
  {log : List Transfer}

lemma Use.call_ok (called : use.call offset rest answer = .ok moved) :
    0 <= offset ∧ moved.length <= rest.length ∧
      ((∀ moved rest, use.chunk moved rest <+: rest) -> moved <+: rest) := by
  cases answer with
  | failed errno => cases called
  | done amount =>
    change (if offset < 0 then Except.error einval else Except.ok _) = _ at called
    split at called
    · cases called
    · cases called
      refine ⟨by omega, ?_, fun isPrefix => ?_⟩
      · exact (length_take_le' _ _).trans (length_take_le _ _)
      · exact ((List.take_prefix _ _).trans (List.take_prefix _ _)).trans (isPrefix amount rest)

lemma Use.Ended.cons (ended : use.Ended (offset + moved.length) (rest.drop moved.length) left log)
    (called : use.call offset rest answer = .ok moved) :
    use.Ended offset rest left (⟨offset, moved⟩ :: log) := by
  rcases call_ok called with ⟨nonneg, length_le, isPrefix⟩
  refine ⟨⟨rfl, ended.consecutive⟩, ?_, fun _ => nonneg, fun chunks => ?_, ended.left_eq⟩
  · have lengths := ended.length_eq
    rw [length_drop] at lengths
    change (moved ++ allBytes log).length + _ = _
    rw [length_append]
    omega
  · change (moved ++ allBytes log) ++ left = rest
    rw [append_assoc, ended.bytes_eq chunks]
    exact prefix_iff_eq_append.mp (isPrefix chunks)

lemma Use.ended_nil : use.Ended offset [] [] [] :=
  ⟨trivial, rfl, absurd rfl, fun _ => rfl, fun _ => rfl⟩

/-- The errors of a loop are errors. -/
structure Use.Fails (use : Use Moved) : Prop where
  failed : ∀ errno, errno ≠ 0 -> (use.failed errno).code ≠ .ok
  atZero : ∀ errno status, use.atZero errno = some (.error status) -> status.code ≠ .ok

lemma Use.call_error (called : use.call offset rest answer = .error errno) : errno ≠ 0 := by
  cases answer with
  | failed failed =>
    cases called
    exact failed.property
  | done amount =>
    change (if offset < 0 then Except.error einval else Except.ok _) = _ at called
    split at called
    · cases called
      decide
    · cases called

def Use.Result (use : Use Moved) (offset : Int) (rest : Text) (log : List Transfer) :
    Except Status Text -> Prop
  | .ok left => use.Ended offset rest left log
  | .error status => status.code ≠ .ok

lemma Use.loop_result (fails : use.Fails) (answers : List (Answer Moved)) (errno : Nat)
    {result : Except Status Text} (run : use.loop answers errno offset rest = some (result, log)) :
    use.Result offset rest log result := by
  induction answers generalizing errno offset rest log with
  | nil =>
    cases rest with
    | nil =>
      cases run
      exact ended_nil
    | cons next more => cases run
  | cons answer answers ih =>
    cases rest with
    | nil =>
      cases run
      exact ended_nil
    | cons next more =>
      unfold Use.loop at run
      split at run
      · rename_i errno called
        split at run
        · exact ih _ run
        · cases run
          exact fails.failed errno (call_error called)
      · split at run
        · exact ih _ run
        · rename_i status stops
          cases run
          exact fails.atZero _ status stops
        · rename_i stops
          cases run
          refine ⟨trivial, Nat.zero_add _, absurd rfl, fun _ => rfl, fun never => ?_⟩
          exact absurd stops (never _)
      · rename_i moved _ called
        rcases map_eq_some_iff.mp run with ⟨⟨result', log'⟩, ran, equal⟩
        cases equal
        have others := ih _ ran
        cases result with
        | ok left => exact .cons others called
        | error status => exact others

end

/-- What the system calls answer: an error or what was moved, and `errno` as it was before. -/
structure Calls where
  opened : Option Errno
  ftruncate : Option Errno
  lseek : Option Errno
  fsync : Option Errno
  errno : Nat
  writes : List (Answer Nat)
  reads : List (Answer Text)

structure Outcome where
  status : Status
  truncated : Bool
  log : List Transfer

section

variable (strerror : Nat -> Text) (path : Text) (calls : Calls)

def openError (message : Text) (errno : Nat) : Status :=
  if errno = enoent then .notFound (text "File not found at path: " ++ path)
  else .internal (message ++ path ++ text ", errno: " ++ strCatNat errno)

def callError (message : Text) (errno : Nat) : Status :=
  .internal (message ++ path ++ text ", errno: " ++ strCatNat errno)

def writeUse : Use Nat where
  chunk := fun count rest => rest.take count
  failed := callError path (text "failure while writing to file at path: ")
  atZero := fun errno =>
    if errno = eintr then none
    else some (.error (callError path (text "failure while writing to file at path: ") errno))

/-- `ApifsFile::Write`, which opens the file with `O_TRUNC` -/
def ApifsFile.write (value : Text) : Option Outcome :=
  match calls.opened with
  | some errno =>
    some ⟨openError path (text "unable to open the file at path: ") errno.val, false, []⟩
  | none =>
    ((writeUse path).loop calls.writes calls.errno 0 value).map fun
      | (.ok _, log) => ⟨.okStatus, true, log⟩
      | (.error status, log) => ⟨status, true, log⟩

def rangeStatus (message : Text) : Except Status Text -> Status
  | .error status => status
  | .ok [] => .okStatus
  | .ok rest => .internal (message ++ path ++ text ", delta: " ++ strCatNat rest.length)

def readRangeUse : Use Text where
  chunk := fun bytes _ => bytes
  failed := callError path (text "Failure while reading from file at path: ")
  atZero := fun _ => some (.ok ())

/-- `ApifsFile::ReadRange`, with the contents of `value` afterwards -/
def ApifsFile.readRange (offset : UInt64) (value : Text) : Option (Outcome × Text) :=
  match calls.opened with
  | some errno =>
    some (⟨openError path (text "Unable to open the file at path: ") errno.val, false, []⟩, value)
  | none =>
    ((readRangeUse path).loop calls.reads calls.errno offset.toInt64.toInt value).map fun
      | (result, log) => (⟨rangeStatus path (text ("Specified data length is larger than " ++
          "actual readback length, file path: ")) result, false, log⟩,
        allBytes log ++ value.drop (allBytes log).length)

def writeRangeUse : Use Nat where
  chunk := fun count rest => rest.take count
  failed := callError path (text "Failure while writing file at path: ")
  atZero := fun _ => some (.ok ())

/-- `ApifsFile::WriteRange` -/
def ApifsFile.writeRange (offset : UInt64) (value : Text) : Option Outcome :=
  match calls.opened with
  | some errno =>
    some ⟨openError path (text "Unable to open the file at path: ") errno.val, false, []⟩
  | none =>
    ((writeRangeUse path).loop calls.writes calls.errno offset.toInt64.toInt value).map fun
      | (result, log) => ⟨rangeStatus path (text ("Specified data length is larger than " ++
          "actual write length, file path: ")) result, false, log⟩

def lockWriteUse : Use Nat where
  chunk := fun count rest => rest.take count
  failed := posixErrorToStatus strerror (text "failed to write data to " ++ path)
  atZero := fun _ => none

/-- `LockFile::Write` -/
def LockFile.write (value : Text) : Option Outcome :=
  -- The calls after one that fails are not made.
  let written :=
    if calls.ftruncate = none ∧ calls.lseek = none then
      (lockWriteUse strerror path).loop calls.writes calls.errno 0 value
    else some (.ok value, [])
  written.map fun
    | (.error status, log) => ⟨status, calls.ftruncate.isNone, log⟩
    | (.ok _, log) =>
      match calls.fsync with
      | some errno => ⟨posixErrorToStatus strerror
          (text "unable to write to lockfile " ++ path) errno.val, calls.ftruncate.isNone, log⟩
      | none => ⟨.okStatus, calls.ftruncate.isNone, log⟩

/-- The bytes of the value are moved in order and without gaps, from the offset on. -/
def Whole (offset : Int) (value : Text) (log : List Transfer) : Prop :=
  Consecutive offset log ∧ allBytes log = value

/-- What success of each function promises. -/
structure ReportsWhole (offset : UInt64) (value buffer : Text) : Prop where
  write : ∀ outcome, ApifsFile.write path calls value = some outcome ->
    outcome.status.code = .ok -> outcome.truncated = true ∧ Whole 0 value outcome.log
  writeRange : ∀ outcome, ApifsFile.writeRange path calls offset value = some outcome ->
    outcome.status.code = .ok -> Whole offset.toNat value outcome.log
  readRange : ∀ outcome after,
    ApifsFile.readRange path calls offset buffer = some (outcome, after) ->
    outcome.status.code = .ok -> after.length = buffer.length ∧ Whole offset.toNat after outcome.log
  lockWrite : ∀ outcome, LockFile.write strerror path calls value = some outcome ->
    outcome.status.code = .ok -> outcome.truncated = true ∧ Whole 0 value outcome.log

/-- Nothing that failed goes unreported: where `fsync` succeeds, so did the calls before. -/
def Prepared (value : Text) : Prop :=
  calls.fsync ≠ none ∨ calls.ftruncate = none ∧ (calls.lseek = none ∨ value = [])

end

variable {strerror : Nat -> Text} {path : Text} {calls : Calls}

variable {message : Text}

lemma openError_ne_ok : (openError path message errno).code ≠ .ok := by
  unfold openError
  split <;> exact StatusCode.noConfusion

lemma callError_ne_ok : (callError path message errno).code ≠ .ok := StatusCode.noConfusion

lemma writeUse_fails : (writeUse path).Fails where
  failed := fun _ _ => callError_ne_ok
  atZero := by
    intro errno status stops
    change (if errno = eintr then none else some (Except.error _)) = _ at stops
    split at stops
    · cases stops
    · cases stops
      exact callError_ne_ok

lemma readRangeUse_fails : (readRangeUse path).Fails :=
  ⟨fun _ _ => callError_ne_ok, fun _ _ stops => by cases stops⟩

lemma writeRangeUse_fails : (writeRangeUse path).Fails :=
  ⟨fun _ _ => callError_ne_ok, fun _ _ stops => by cases stops⟩

lemma lockWriteUse_fails : (lockWriteUse strerror path).Fails where
  failed := fun errno isError => errnoToStatusCode_ne_ok ⟨errno, isError⟩
  atZero := by
    intro errno status stops
    cases stops

variable {value : Text} {log : List Transfer}

lemma Use.Ended.whole {use : Use Nat} {offset : Int} (ended : use.Ended offset value [] log)
    (chunk : use.chunk = fun count rest => rest.take count) : Whole offset value log := by
  have bytes_eq := ended.bytes_eq (by rw [chunk]; exact fun count rest => List.take_prefix ..)
  rw [append_nil] at bytes_eq
  exact ⟨ended.consecutive, bytes_eq⟩

variable {offset : UInt64}

/-- A range starts at its offset, also as an `off_t`. -/
lemma Use.Ended.range {Moved : Type} {use : Use Moved} {left : Text}
    (ended : use.Ended offset.toInt64.toInt value left log) : Consecutive offset.toNat log := by
  by_cases empty : log = []
  · rw [empty]
    trivial
  · have nonneg := ended.offset_nonneg empty
    have same : offset.toInt64.toInt = offset.toNat := by
      change 0 <= offset.toBitVec.toInt at nonneg
      change offset.toBitVec.toInt = offset.toBitVec.toNat
      rw [BitVec.toInt] at nonneg ⊢
      split at nonneg <;> omega
    exact same ▸ ended.consecutive

lemma rangeStatus_ok {Moved : Type} {use : Use Moved} {offset : Int} {result : Except Status Text}
    (ended : use.Result offset value log result)
    (isOk : (rangeStatus path message result).code = .ok) : use.Ended offset value [] log := by
  cases result with
  | error status => exact absurd isOk ended
  | ok left =>
    cases left with
    | nil => exact ended
    | cons next more => cases isOk

variable {outcome : Outcome}

lemma ApifsFile.write_whole (run : ApifsFile.write path calls value = some outcome)
    (isOk : outcome.status.code = .ok) : outcome.truncated = true ∧ Whole 0 value outcome.log := by
  unfold ApifsFile.write at run
  split at run
  · cases run
    exact absurd isOk openError_ne_ok
  · rcases map_eq_some_iff.mp run with ⟨⟨result, log⟩, ran, rfl⟩
    have ended := Use.loop_result writeUse_fails _ _ ran
    cases result with
    | error status => exact absurd isOk ended
    | ok left =>
      have never (errno : Nat) : (writeUse path).atZero errno ≠ some (.ok ()) := by
        intro stops
        change (if errno = eintr then none else some (Except.error _)) = _ at stops
        split at stops <;> cases stops
      cases ended.left_eq never
      exact ⟨rfl, ended.whole rfl⟩

lemma ApifsFile.writeRange_whole (run : ApifsFile.writeRange path calls offset value = some outcome)
    (isOk : outcome.status.code = .ok) : Whole offset.toNat value outcome.log := by
  unfold ApifsFile.writeRange at run
  split at run
  · cases run
    exact absurd isOk openError_ne_ok
  · rcases map_eq_some_iff.mp run with ⟨⟨result, log⟩, ran, rfl⟩
    have ended := rangeStatus_ok (Use.loop_result writeRangeUse_fails _ _ ran) isOk
    exact ⟨ended.range, (ended.whole rfl).2⟩

lemma ApifsFile.readRange_whole {buffer after : Text}
    (run : ApifsFile.readRange path calls offset buffer = some (outcome, after))
    (isOk : outcome.status.code = .ok) :
    after.length = buffer.length ∧ Whole offset.toNat after outcome.log := by
  unfold ApifsFile.readRange at run
  split at run
  · cases run
    exact absurd isOk openError_ne_ok
  · rcases map_eq_some_iff.mp run with ⟨⟨result, log⟩, ran, equal⟩
    cases equal
    have ended := rangeStatus_ok (Use.loop_result readRangeUse_fails _ _ ran) isOk
    have filled : (allBytes log).length = buffer.length := ended.length_eq
    rw [filled, drop_length, append_nil]
    exact ⟨filled, ended.range, rfl⟩

lemma LockFile.write_whole (run : LockFile.write strerror path calls value = some outcome)
    (isOk : outcome.status.code = .ok) (prepared : Prepared calls value) :
    outcome.truncated = true ∧ Whole 0 value outcome.log := by
  rcases map_eq_some_iff.mp run with ⟨⟨result, log⟩, ran, rfl⟩
  cases result with
  | error status =>
    split at ran
    · exact absurd isOk (Use.loop_result lockWriteUse_fails _ _ ran)
    · cases ran
  | ok left =>
    cases synced : calls.fsync with
    | some errno =>
      rw [synced] at isOk
      exact absurd isOk (errnoToStatusCode_ne_ok errno)
    | none =>
      rcases prepared with unsynced | ⟨truncated, sought⟩
      · exact absurd synced unsynced
      · rw [truncated]
        refine ⟨rfl, ?_⟩
        split at ran
        · have ended := Use.loop_result lockWriteUse_fails _ _ ran
          cases ended.left_eq fun errno => by rintro ⟨⟩
          exact ended.whole rfl
        · rename_i failed
          cases ran
          rcases sought with sought | empty
          · exact absurd ⟨truncated, sought⟩ failed
          · rw [empty]
            exact ⟨trivial, rfl⟩

/-- Where a call before `fsync` fails, an `fsync` that succeeds hides it. -/
lemma LockFile.write_unprepared (unprepared : ¬ Prepared calls value) :
    ∃ outcome, LockFile.write strerror path calls value = some outcome ∧
      outcome.status.code = .ok ∧ ¬ (outcome.truncated = true ∧ Whole 0 value outcome.log) := by
  have synced : calls.fsync = none := by
    by_contra unsynced
    exact unprepared (.inl unsynced)
  refine ⟨⟨.okStatus, calls.ftruncate.isNone, []⟩, ?_, rfl, ?_⟩
  · have failed : ¬ (calls.ftruncate = none ∧ calls.lseek = none) := by
      rintro ⟨truncated, sought⟩
      exact unprepared (.inr ⟨truncated, .inl sought⟩)
    unfold LockFile.write
    rw [if_neg failed, synced]
    rfl
  · rintro ⟨truncated, _, empty⟩
    exact unprepared (.inr ⟨isNone_iff_eq_none.mp truncated, .inr empty.symm⟩)

/-- Success means the whole value, except that `LockFile::Write` ignores errors of two calls. -/
theorem reportsWhole_iff (strerror : Nat -> Text) (path : Text) (calls : Calls)
    (offset : UInt64) (value buffer : Text) :
    ReportsWhole strerror path calls offset value buffer <-> Prepared calls value := by
  constructor
  · intro reports
    by_contra unprepared
    rcases LockFile.write_unprepared unprepared with ⟨outcome, run, isOk, notWhole⟩
    exact notWhole (reports.lockWrite outcome run isOk)
  · intro prepared
    exact ⟨fun _ => ApifsFile.write_whole, fun _ => ApifsFile.writeRange_whole,
      fun _ _ => ApifsFile.readRange_whole,
      fun _ run isOk => LockFile.write_whole run isOk prepared⟩

/-- A write to a lock file that cannot be truncated. -/
theorem not_reportsWhole : ¬ ∀ (strerror : Nat -> Text) (path : Text) (calls : Calls)
    (offset : UInt64) (value buffer : Text),
    ReportsWhole strerror path calls offset value buffer := by
  intro all
  -- `EIO` of `ftruncate`
  have reports := all (fun _ => []) [] ⟨none, some ⟨5, by decide⟩, none, none, 0, [], []⟩ 0
    (text "a") []
  have truncated := (reports.lockWrite ⟨.okStatus, false, []⟩ rfl rfl).1
  cases truncated

end Ecclesia.File
