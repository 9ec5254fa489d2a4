import Mathlib.Data.List.Nodup

namespace Ecclesia

open List

/-!
# Lists in a memory

From an address the next one can be read, unless the read fails, and one address marks the end.
Such a list need not end, since it may run into a circle.  If it does end then it has no address
twice, and whoever follows it from its start has seen a prefix of it.
-/

variable {Address : Type} (null : Address) (next : Address -> Option Address)

/-- The addresses on the way from a start to a later address. -/
inductive Leads : Address -> List Address -> Address -> Prop
  | here (address : Address) : Leads address [] address
  | step {address following last : Address} {rest : List Address} (present : address ≠ null)
      (read : next address = some following) (later : Leads following rest last) :
      Leads address (address :: rest) last

def IsList (start : Address) (addresses : List Address) : Prop :=
  Leads null next start addresses null

variable {null next}

variable {start : Address} {addresses : List Address}

namespace Leads

lemma isList {last : Address} {whole : List Address}
    (leads : Leads null next start addresses last) (list : IsList null next start whole) :
    ∃ rest, whole = addresses ++ rest ∧ IsList null next last rest := by
  induction leads generalizing whole with
  | here address => exact ⟨whole, rfl, list⟩
  | step first firstRead later ih =>
    cases list with
    | here => exact absurd rfl first
    | step present read behind =>
      rw [firstRead] at read
      cases read
      rcases ih behind with ⟨rest, same, ends⟩
      exact ⟨rest, congrArg (List.cons _) same, ends⟩

lemma split {last : Address} {before after : List Address} {address : Address}
    (leads : Leads null next start (before ++ address :: after) last) :
    ∃ following, Leads null next start before address ∧ address ≠ null ∧
      next address = some following ∧ Leads null next following after last := by
  induction before generalizing start with
  | nil =>
    cases leads with
    | step present read later => exact ⟨_, .here _, present, read, later⟩
  | cons first before ih =>
    cases leads with
    | step present read later =>
      rcases ih later with ⟨following, way, here, next, behind⟩
      exact ⟨following, .step present read way, here, next, behind⟩

end Leads

namespace IsList

lemma nil_of_null (list : IsList null next null addresses) : addresses = [] := by
  cases list with
  | here => rfl
  | step present read later => exact absurd rfl present

lemma null_of_nil (list : IsList null next start []) : start = null := by
  cases list with
  | here => rfl

lemma unique {first second : List Address} (one : IsList null next start first)
    (other : IsList null next start second) : first = second := by
  rcases Leads.isList one other with ⟨rest, same, ends⟩
  rw [same, ends.nil_of_null, append_nil]

lemma nodup (list : IsList null next start addresses) : addresses.Nodup := by
  induction addresses generalizing start with
  | nil => exact nodup_nil
  | cons address rest ih =>
    cases list with
    | step present read later =>
      refine nodup_cons.mpr ⟨?_, ih later⟩
      intro again
      rcases append_of_mem again with ⟨before, after, same⟩
      have shorter : IsList null next address (address :: after) := by
        rw [same] at later
        rcases Leads.split later with ⟨following, _, here, next, behind⟩
        exact .step here next behind
      have equal := shorter.unique (.step present read later)
      have lengths := congrArg List.length equal
      rw [same] at lengths
      simp only [length_cons, length_append] at lengths
      omega

end IsList

end Ecclesia
