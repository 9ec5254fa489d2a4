import Mathlib.Data.List.Basic
import Mathlib.Algebra.Order.Ring.Int

namespace Ecclesia

/-!
# Texts and statuses

The program passes byte strings and `absl::Status` values between all of its
parts.  A byte string is modelled by its list of characters, so that scanning
loops become structural recursions.  A status keeps both its canonical code
and its message: the query planner branches on the code and copies the
message into the query result.
-/

/-- The contents of a `std::string` or an `absl::string_view`. -/
abbrev Text := List Char

instance : LawfulBEq Text := List.instLawfulBEq

/-- The characters of a literal of the source. -/
def text (literal : String) : Text := literal.toList

/-- The canonical status codes. -/
inductive StatusCode where
  | ok
  | cancelled
  | unknown
  | invalidArgument
  | deadlineExceeded
  | notFound
  | alreadyExists
  | permissionDenied
  | resourceExhausted
  | failedPrecondition
  | aborted
  | outOfRange
  | unimplemented
  | internal
  | unavailable
  | dataLoss
  | unauthenticated
deriving DecidableEq, Repr

/-- An `absl::Status`. -/
structure Status where
  code : StatusCode
  message : Text
deriving DecidableEq, Repr

namespace Status

def okStatus : Status := ⟨.ok, []⟩

def isOk (status : Status) : Bool :=
  decide (status.code = .ok)

def cancelled (message : Text) : Status := ⟨.cancelled, message⟩

def invalidArgument (message : Text) : Status := ⟨.invalidArgument, message⟩

def deadlineExceeded (message : Text) : Status := ⟨.deadlineExceeded, message⟩

def notFound (message : Text) : Status := ⟨.notFound, message⟩

def failedPrecondition (message : Text) : Status := ⟨.failedPrecondition, message⟩

def internal (message : Text) : Status := ⟨.internal, message⟩

@[simp] lemma okStatus_isOk : okStatus.isOk = true := rfl

end Status

/-- An `absl::StatusOr`.  The error carries the status that is returned in
place of a value. -/
abbrev StatusOr (α : Type) := Except Status α

/-- How an evaluation can fail: by a returned status, or by an exception of the JSON library at a
value of the wrong type, which nothing catches. -/
inductive Failure where
  | status (status : Status)
  | exception (what : Text)
deriving DecidableEq, Repr

/-- The outcome of code that evaluates over JSON values. -/
abbrev Evaluation (α : Type) := Except Failure α

def Evaluation.invalidArgument {α : Type} (message : Text) : Evaluation α :=
  .error (.status (.invalidArgument message))

def Evaluation.internal {α : Type} (message : Text) : Evaluation α :=
  .error (.status (.internal message))

end Ecclesia
