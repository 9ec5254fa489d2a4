import Mathlib.Logic.Function.Basic

namespace Ecclesia.File

open Function (update update_self update_of_ne update_eq_self)

/-!
# Lock files

A `LockFile` is an open file that can be locked, and the lock is held by handles that can be moved.
All handles of one `LockFile` share its lock: each of them unlocks it when it is destroyed.

The definitions follow `lockfile.cc`.  Of `flock` it is used that a path has at most one owner, that
the owner may lock again, and that an unlock by the owner frees the path.
-/

section

variable {LockFile Path Handle : Type}

section

variable [DecidableEq LockFile] [DecidableEq Path] (path : LockFile -> Path)
  (owner : Path -> Option LockFile)

/-- `flock(fd, LOCK_EX | LOCK_NB)`: the owners afterwards, if it succeeds. -/
def flockExclusive (file : LockFile) : Option (Path -> Option LockFile) :=
  match owner (path file) with
  | none => some (update owner (path file) (some file))
  | some other => if other = file then some owner else none

/-- `flock(fd, LOCK_UN)` -/
def flockUnlock (file : LockFile) : Path -> Option LockFile :=
  if owner (path file) = some file then update owner (path file) none else owner

end

/-- The owners of the locks, and the handles. A place may be empty, and a handle without a file. -/
structure LockState (LockFile Path Handle : Type) where
  owner : Path -> Option LockFile
  handle : Handle -> Option (Option LockFile)

/-- What is done with lock files and their handles.  A new handle gets an empty place. -/
inductive LockOp (LockFile Handle : Type) where
  | tryLock (file : LockFile) (target : Handle)
  | moveConstruct (target source : Handle)
  | moveAssign (target source : Handle)
  | destroy (handle : Handle)

def noHandles : LockState LockFile Path Handle :=
  ⟨fun _ => none, fun _ => none⟩

section

variable [DecidableEq LockFile] [DecidableEq Path] [DecidableEq Handle] (path : LockFile -> Path)
  (state : LockState LockFile Path Handle)

/-- One operation, where its handles are there. -/
def lockStep : LockOp LockFile Handle -> Option (LockState LockFile Path Handle)
  | .tryLock file target =>
    match state.handle target with
    | some _ => none
    | none =>
      match flockExclusive path state.owner file with
      -- `TryLock` returns an error and no handle.
      | none => some state
      | some owner => some ⟨owner, update state.handle target (some (some file))⟩
  | .moveConstruct target source =>
    match state.handle target, state.handle source with
    | none, some held =>
      some ⟨state.owner, update (update state.handle target (some held)) source (some none)⟩
    | _, _ => none
  | .moveAssign target source =>
    match state.handle target, state.handle source with
    | some _, some held =>
      if target = source then some state
      else
        -- The file of the target is not unlocked.
        some ⟨state.owner, update (update state.handle target (some held)) source (some none)⟩
    | _, _ => none
  | .destroy handle =>
    match state.handle handle with
    | none => none
    | some none => some ⟨state.owner, update state.handle handle none⟩
    | some (some file) =>
      some ⟨flockUnlock path state.owner file, update state.handle handle none⟩

def Holds (handle : Handle) (file : LockFile) : Prop :=
  state.handle handle = some (some file)

/-- A file with a handle excludes the others of its path, and a file without one has no lock. -/
structure Exclusive : Prop where
  excluded : ∀ handle file other, Holds state handle file -> other ≠ file ->
    path other = path file -> flockExclusive path state.owner other = none
  released : ∀ file, (∀ handle, ¬ Holds state handle file) -> state.owner (path file) ≠ some file

/-- A handle is destroyed only if it is the only one of its file, and it is assigned to only if it
is not. -/
def KeepsLocks : LockOp LockFile Handle -> Prop
  | .tryLock _ _ => True
  | .moveConstruct _ _ => True
  | .moveAssign target source => target = source ∨
      ∀ file, Holds state target file -> ∃ other, other ≠ target ∧ Holds state other file
  | .destroy handle => ∀ file, Holds state handle file ->
      ∀ other, Holds state other file -> other = handle

/-- The states of the runs whose steps are all of a kind. -/
inductive Reached (allowed : LockState LockFile Path Handle -> LockOp LockFile Handle -> Prop) :
    LockState LockFile Path Handle -> Prop
  | start : Reached allowed noHandles
  | step {state after : LockState LockFile Path Handle} {op : LockOp LockFile Handle}
      (before : Reached allowed state) (isAllowed : allowed state op)
      (taken : lockStep path state op = some after) : Reached allowed after

def LocksHeld (state : LockState LockFile Path Handle) : Prop :=
  ∀ file, state.owner (path file) = some file <-> ∃ handle, Holds state handle file

end

lemma locksHeld_noHandles (path : LockFile -> Path) :
    LocksHeld path (noHandles : LockState LockFile Path Handle) := by
  intro file
  apply iff_of_false
  · intro owned
    cases owned
  · rintro ⟨handle, holds⟩
    cases holds

variable {file : LockFile} {owner : Path -> Option LockFile}

section

variable [DecidableEq LockFile] [DecidableEq Path] {path : LockFile -> Path}

lemma flockExclusive_none {other : LockFile}
    (owned : owner (path file) = some file) (different : other ≠ file)
    (same : path other = path file) : flockExclusive path owner other = none := by
  rw [flockExclusive, same, owned]
  exact if_neg different.symm

lemma flockExclusive_some {locked : Path -> Option LockFile}
    (success : flockExclusive path owner file = some locked) :
    locked = update owner (path file) (some file) ∧
      (owner (path file) = none ∨ owner (path file) = some file) := by
  unfold flockExclusive at success
  split at success
  · rename_i free
    cases success
    exact ⟨rfl, .inl free⟩
  · rename_i other owned
    split at success
    · rename_i same
      cases success
      subst same
      exact ⟨by rw [<- owned, update_eq_self], .inr owned⟩
    · cases success

lemma LocksHeld.exclusive {state : LockState LockFile Path Handle}
    (held : LocksHeld path state) : Exclusive path state where
  excluded := by
    intro handle file other holds different same
    exact flockExclusive_none ((held file).mpr ⟨handle, holds⟩) different same
  released := by
    intro file none_ owned
    rcases (held file).mp owned with ⟨handle, holds⟩
    exact none_ handle holds

end

lemma exists_holds_of_ne {handles : Handle -> Option (Option LockFile)}
    {place : Handle} (noFile : handles place ≠ some (some file)) :
    (∃ handle, handle ≠ place ∧ handles handle = some (some file)) <->
      ∃ handle, handles handle = some (some file) := by
  constructor
  · rintro ⟨handle, _, holds⟩
    exact ⟨handle, holds⟩
  · rintro ⟨handle, holds⟩
    refine ⟨handle, ?_, holds⟩
    rintro rfl
    exact noFile holds

variable {destroyed : Handle}

section

variable [DecidableEq Handle] {handles : Handle -> Option (Option LockFile)} {file : LockFile}

lemma exists_holds_move {target source : Handle} {held : Option LockFile}
    (isSource : handles source = some held) (different : target ≠ source) :
    (∃ handle, update (update handles target (some held)) source (some none)
        handle = some (some file)) <->
      ∃ handle, handle ≠ target ∧ handles handle = some (some file) := by
  constructor
  · rintro ⟨handle, holds⟩
    by_cases atSource : handle = source
    · rw [atSource, update_self] at holds
      cases holds
    · rw [update_of_ne atSource] at holds
      by_cases atTarget : handle = target
      · rw [atTarget, update_self] at holds
        exact ⟨source, different.symm, isSource.trans holds⟩
      · rw [update_of_ne atTarget] at holds
        exact ⟨handle, atTarget, holds⟩
  · rintro ⟨handle, notTarget, holds⟩
    by_cases atSource : handle = source
    · refine ⟨target, ?_⟩
      rw [update_of_ne different, update_self, <- isSource, <- atSource, holds]
    · refine ⟨handle, ?_⟩
      rw [update_of_ne atSource, update_of_ne notTarget, holds]

lemma exists_holds_destroy :
    (∃ handle, update handles destroyed none handle = some (some file)) <->
      ∃ handle, handle ≠ destroyed ∧ handles handle = some (some file) := by
  constructor
  · rintro ⟨handle, holds⟩
    by_cases gone : handle = destroyed
    · rw [gone, update_self] at holds
      cases holds
    · rw [update_of_ne gone] at holds
      exact ⟨handle, gone, holds⟩
  · rintro ⟨handle, stays, holds⟩
    exact ⟨handle, by rw [update_of_ne stays, holds]⟩

end

variable [DecidableEq LockFile] [DecidableEq Path] [DecidableEq Handle] {path : LockFile -> Path}
  {state after : LockState LockFile Path Handle}

lemma locksHeld_tryLock {target : Handle} {locked : LockFile}
    (held : LocksHeld path state) (empty : state.handle target = none)
    (success : flockExclusive path state.owner locked = some owner) :
    LocksHeld path ⟨owner, update state.handle target (some (some locked))⟩ := by
  rcases flockExclusive_some success with ⟨rfl, free⟩
  intro file
  change update state.owner (path locked) (some locked) (path file) = some file <->
    ∃ handle, update state.handle target (some (some locked)) handle = some (some file)
  by_cases isLocked : file = locked
  · subst isLocked
    exact iff_of_true (update_self ..) ⟨target, update_self ..⟩
  · have holders : (∃ handle,
        update state.handle target (some (some locked)) handle = some (some file)) <->
        ∃ handle, Holds state handle file := by
      constructor
      · rintro ⟨handle, holds⟩
        by_cases atTarget : handle = target
        · rw [atTarget, update_self] at holds
          cases holds
          exact absurd rfl isLocked
        · rw [update_of_ne atTarget] at holds
          exact ⟨handle, holds⟩
      · rintro ⟨handle, holds⟩
        refine ⟨handle, ?_⟩
        have other : handle ≠ target := by
          rintro rfl
          rw [Holds, empty] at holds
          cases holds
        rw [update_of_ne other]
        exact holds
    rw [holders, <- held file]
    by_cases same : path file = path locked
    · rw [same, update_self]
      apply iff_of_false
      · intro equal
        exact isLocked (Option.some.inj equal).symm
      · intro owned
        rcases free with none_ | own
        · rw [none_] at owned
          cases owned
        · rw [own] at owned
          exact isLocked (Option.some.inj owned).symm
    · rw [update_of_ne same]

lemma locksHeld_destroy (held : LocksHeld path state) (holds : Holds state destroyed file)
    (last : ∀ other, Holds state other file -> other = destroyed) :
    LocksHeld path ⟨flockUnlock path state.owner file, update state.handle destroyed none⟩ := by
  have owned := (held file).mpr ⟨destroyed, holds⟩
  intro other
  change flockUnlock path state.owner file (path other) = some other <->
    ∃ handle, update state.handle destroyed none handle = some (some other)
  rw [exists_holds_destroy, flockUnlock, if_pos owned]
  by_cases same : other = file
  · subst same
    rw [update_self]
    apply iff_of_false
    · intro impossible
      cases impossible
    · rintro ⟨handle, stays, alsoHolds⟩
      exact stays (last handle alsoHolds)
  · have noFile : state.handle destroyed ≠ some (some other) := by
      intro alsoOther
      have equal : some (some file) = some (some other) := holds.symm.trans alsoOther
      exact same (Option.some.inj (Option.some.inj equal)).symm
    rw [exists_holds_of_ne noFile]
    refine .trans ?_ (held other)
    by_cases samePath : path other = path file
    · rw [samePath, update_self, owned]
      apply iff_of_false
      · intro impossible
        cases impossible
      · intro equal
        exact same (Option.some.inj equal).symm
    · rw [update_of_ne samePath]

lemma locksHeld_step {op : LockOp LockFile Handle} (held : LocksHeld path state)
    (keeps : KeepsLocks state op) (taken : lockStep path state op = some after) :
    LocksHeld path after := by
  cases op with
  | tryLock file target =>
    rw [lockStep] at taken
    cases empty : state.handle target with
    | some other =>
      rw [empty] at taken
      cases taken
    | none =>
      rw [empty] at taken
      cases success : flockExclusive path state.owner file with
      | none =>
        rw [success] at taken
        cases taken
        exact held
      | some owner =>
        rw [success] at taken
        cases taken
        exact locksHeld_tryLock held empty success
  | moveConstruct target source =>
    rw [lockStep] at taken
    cases isTarget : state.handle target with
    | some other =>
      rw [isTarget] at taken
      cases taken
    | none =>
      rw [isTarget] at taken
      cases isSource : state.handle source with
      | none =>
        rw [isSource] at taken
        cases taken
      | some moved =>
        rw [isSource] at taken
        cases taken
        have different : target ≠ source := by
          rintro rfl
          rw [isTarget] at isSource
          cases isSource
        intro file
        refine (held file).trans ?_
        refine .trans ?_ (exists_holds_move isSource different).symm
        have noFile : state.handle target ≠ some (some file) := by
          rw [isTarget]
          exact nofun
        exact (exists_holds_of_ne noFile).symm
  | moveAssign target source =>
    rw [lockStep] at taken
    cases isTarget : state.handle target with
    | none =>
      rw [isTarget] at taken
      cases taken
    | some old =>
      rw [isTarget] at taken
      cases isSource : state.handle source with
      | none =>
        rw [isSource] at taken
        cases taken
      | some moved =>
        rw [isSource] at taken
        dsimp only at taken
        by_cases same : target = source
        · rw [if_pos same] at taken
          cases taken
          exact held
        · rw [if_neg same] at taken
          cases taken
          intro file
          refine (held file).trans ?_
          refine .trans ?_ (exists_holds_move isSource same).symm
          constructor
          · rintro ⟨handle, holds⟩
            by_cases atTarget : handle = target
            · subst atTarget
              exact (keeps.resolve_left same) file holds
            · exact ⟨handle, atTarget, holds⟩
          · rintro ⟨handle, _, holds⟩
            exact ⟨handle, holds⟩
  | destroy handle =>
    rw [lockStep] at taken
    cases isHandle : state.handle handle with
    | none =>
      rw [isHandle] at taken
      cases taken
    | some moved =>
      rw [isHandle] at taken
      cases moved with
      | none =>
        cases taken
        intro file
        refine (held file).trans ?_
        refine .trans ?_ exists_holds_destroy.symm
        have noFile : state.handle handle ≠ some (some file) := by
          rw [isHandle]
          exact nofun
        exact (exists_holds_of_ne noFile).symm
      | some file =>
        cases taken
        exact locksHeld_destroy held isHandle (keeps file isHandle)

lemma locksHeld_of_reached (reached : Reached path KeepsLocks state) : LocksHeld path state := by
  induction reached with
  | start => exact locksHeld_noHandles path
  | step before keeps taken ih => exact locksHeld_step ih keeps taken

lemma last_of_exclusive {other : LockFile} (held : LocksHeld path state)
    (holds : Holds state destroyed file) (different : other ≠ file) (same : path other = path file)
    (exclusive : Exclusive path ⟨flockUnlock path state.owner file,
      update state.handle destroyed none⟩) :
    ∀ handle, Holds state handle file -> handle = destroyed := by
  intro handle alsoHolds
  by_contra stays
  have owned := (held file).mpr ⟨destroyed, holds⟩
  have stillHolds : Holds (.mk (flockUnlock path state.owner file)
      (update state.handle destroyed none)) handle file :=
    (update_of_ne stays ..).trans alsoHolds
  have refused := exclusive.excluded handle file other stillHolds different same
  have free : flockUnlock path state.owner file (path other) = none := by
    rw [flockUnlock, if_pos owned, same, update_self]
  rw [flockExclusive] at refused
  dsimp only at refused
  rw [free] at refused
  cases refused

lemma exists_other_of_exclusive {target source : Handle} {moved : Option LockFile}
    (held : LocksHeld path state) (holds : Holds state target file)
    (isSource : state.handle source = some moved) (different : target ≠ source)
    (exclusive : Exclusive path ⟨state.owner,
      update (update state.handle target (some moved)) source (some none)⟩) :
    ∃ other, other ≠ target ∧ Holds state other file := by
  by_contra last
  have owned := (held file).mpr ⟨target, holds⟩
  refine exclusive.released file ?_ owned
  intro handle stillHolds
  exact last ((exists_holds_move isSource different).mp ⟨handle, stillHolds⟩)

lemma keepsLocks_of_exclusive {op : LockOp LockFile Handle} (held : LocksHeld path state)
    (shared : ∀ file, ∃ other, other ≠ file ∧ path other = path file)
    (taken : lockStep path state op = some after) (exclusive : Exclusive path after) :
    KeepsLocks state op := by
  cases op with
  | tryLock file target => trivial
  | moveConstruct target source => trivial
  | moveAssign target source =>
    by_cases same : target = source
    · exact .inl same
    · refine .inr ?_
      intro file holds
      rw [lockStep, holds] at taken
      cases isSource : state.handle source with
      | none =>
        rw [isSource] at taken
        cases taken
      | some moved =>
        rw [isSource] at taken
        dsimp only at taken
        rw [if_neg same] at taken
        cases taken
        exact exists_other_of_exclusive held holds isSource same exclusive
  | destroy handle =>
    intro file holds
    rw [lockStep, holds] at taken
    cases taken
    rcases shared file with ⟨other, different, same⟩
    exact last_of_exclusive held holds different same exclusive

end

/-- In the runs in which no handle is destroyed beside another of its file, and no last handle of a
file is assigned to, the handles exclude one another and release. Where every path has a second
file, such a step is the end of it. -/
theorem lockFiles_exclusive : ∀ {LockFile Path Handle : Type} [DecidableEq LockFile]
    [DecidableEq Path] [DecidableEq Handle] (path : LockFile -> Path),
    (∀ state : LockState LockFile Path Handle, Reached path KeepsLocks state ->
      Exclusive path state) ∧
    ((∀ file, ∃ other, other ≠ file ∧ path other = path file) ->
      ∀ (state after : LockState LockFile Path Handle) (op : LockOp LockFile Handle),
        Reached path KeepsLocks state -> lockStep path state op = some after ->
        Exclusive path after -> KeepsLocks state op) := by
  intro LockFile Path Handle _ _ _ path
  constructor
  · intro state reached
    exact (locksHeld_of_reached reached).exclusive
  · intro shared state after op reached taken exclusive
    exact keepsLocks_of_exclusive (locksHeld_of_reached reached) shared taken exclusive

/-- The handle of one locked file takes over that of another: the first file stays locked for good.
-/
theorem lockFiles_assigned_over :
    ¬ (∀ state : LockState Bool Bool Bool, Reached id (fun _ _ => True) state ->
      Exclusive id state) := by
  intro always
  have locked := @Reached.step Bool Bool Bool _ _ _ id (fun _ _ => True) noHandles _
    (.tryLock false false) .start trivial rfl
  have bothLocked := @Reached.step Bool Bool Bool _ _ _ id (fun _ _ => True) _ _
    (.tryLock true true) locked trivial rfl
  have assigned := @Reached.step Bool Bool Bool _ _ _ id (fun _ _ => True) _ _
    (.moveAssign false true) bothLocked trivial rfl
  refine (always _ assigned).released false ?_ (by decide)
  intro handle holds
  revert holds
  rw [Holds]
  cases handle with
  | false => decide
  | true => decide

end Ecclesia.File
