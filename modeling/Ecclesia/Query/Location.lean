import Mathlib.Data.List.Infix
import Ecclesia.Library.Assoc
import Ecclesia.Query.Proto

namespace Ecclesia

open List Option

/-!
# Locations in a result

A value is changed at one location of a result.  What is found at another location then
depends on how the two lie: below the change the new value is found, above it the old value
with the change inside, and everywhere else what was there before.
-/

lemma setField_eq_insertOrAssign (name : Text) (value : QueryValue) (fields : QueryResultData) :
    setField name value fields = insertOrAssign name value fields := by
  induction fields with
  | nil => rfl
  | cons entry rest ih =>
    rcases entry with ⟨key, current⟩
    simp only [setField, insertOrAssign, beq_iff_eq, ih]

lemma lookup_setField (name key : Text) (value : QueryValue) (fields : QueryResultData) :
    (setField name value fields).lookup key =
      if key = name then some value else fields.lookup key := by
  rw [setField_eq_insertOrAssign, lookup_insertOrAssign]
  simp only [beq_iff_eq]

lemma nodup_setField (name : Text) (value : QueryValue) {fields : QueryResultData}
    (distinct : (fields.map Prod.fst).Nodup) :
    ((setField name value fields).map Prod.fst).Nodup := by
  rw [setField_eq_insertOrAssign]
  exact (HashMap.assign ⟨fields, distinct⟩ name value).distinct

namespace QueryValue

def part? : QueryValue -> Selector -> Option QueryValue
  | .subquery fields, .field name => fields.lookup name
  | .list values, .element index => values[index]?
  | _, _ => none

def setPart (part : QueryValue) : Selector -> QueryValue -> QueryValue
  | .field name, .subquery fields => .subquery (setField name part fields)
  | .element index, .list values => .list (values.set index part)
  | _, value => value

lemma at?_nil (value : QueryValue) : value.at? [] = some value := by
  cases value <;> rfl

lemma at?_cons (value : QueryValue) (selector : Selector) (rest : Location) :
    value.at? (selector :: rest) = (value.part? selector).bind fun part => part.at? rest := by
  cases value <;> cases selector <;> try rfl
  · rename_i fields name
    simp only [at?, part?]
    cases fields.lookup name <;> rfl
  · rename_i values index
    simp only [at?, part?]
    cases values[index]? <;> rfl

variable {value part : QueryValue} {selector : Selector}

lemma modify_cons (found : value.part? selector = some part) (change : QueryValue -> QueryValue)
    (rest : Location) :
    value.modify change (selector :: rest) = setPart (part.modify change rest) selector value := by
  cases value <;> cases selector <;> try cases found
  · simp only [part?] at found
    simp only [modify, found, setPart]
  · simp only [part?] at found
    simp only [modify, found, setPart]

lemma part?_setPart_self (found : value.part? selector = some part) (new : QueryValue) :
    (setPart new selector value).part? selector = some new := by
  cases value <;> cases selector <;> try cases found
  · simp only [setPart, part?, lookup_setField, if_true]
  · simp only [setPart, part?]
    rw [getElem?_set_self (List.getElem?_eq_some_iff.mp found).1]

lemma part?_setPart_ne (value new : QueryValue) {other : Selector} (differs : other ≠ selector) :
    (setPart new selector value).part? other = value.part? other := by
  cases value <;> cases selector <;> cases other <;> try rfl
  · rename_i fields name key
    have apart : key ≠ name := fun same => differs (congrArg Selector.field same)
    simp only [setPart, part?, lookup_setField, if_neg apart]
  · rename_i values index position
    have apart : index ≠ position := fun same => differs (congrArg Selector.element same.symm)
    simp only [setPart, part?]
    rw [getElem?_set_ne apart]

lemma at?_append (value : QueryValue) (first second : Location) :
    value.at? (first ++ second) = (value.at? first).bind fun part => part.at? second := by
  induction first generalizing value with
  | nil => rw [nil_append, at?_nil, bind_some]
  | cons selector rest ih =>
    rw [cons_append, at?_cons, at?_cons, bind_assoc]
    exact bind_congr fun part _ => ih part

lemma modify_nil (value : QueryValue) (change : QueryValue -> QueryValue) :
    value.modify change [] = change value := by
  cases value <;> rfl

lemma modify_field {fields : QueryResultData} {name : Text}
    (found : fields.lookup name = some part) (change : QueryValue -> QueryValue) (rest : Location) :
    (QueryValue.subquery fields).modify change (.field name :: rest) =
      .subquery (setField name (part.modify change rest) fields) := by
  simp only [modify, found]

variable {old : QueryValue} {root : Location}

section

variable (found : value.at? root = some old) (change : QueryValue -> QueryValue)

include found

lemma modify_const : value.modify (fun _ => change old) root = value.modify change root := by
  induction root generalizing value with
  | nil =>
    rw [modify_nil, modify_nil, some.inj found]
  | cons selector root ih =>
    rw [at?_cons] at found
    rcases bind_eq_some_iff.mp found with ⟨part, isPart, below⟩
    rw [modify_cons isPart, modify_cons isPart, ih below]

lemma at?_modify_append (rest : Location) :
    (value.modify change root).at? (root ++ rest) = (change old).at? rest := by
  induction root generalizing value with
  | nil =>
    rw [modify_nil, some.inj found, nil_append]
  | cons selector root ih =>
    rw [at?_cons] at found
    rcases bind_eq_some_iff.mp found with ⟨part, isPart, below⟩
    rw [modify_cons isPart, cons_append, at?_cons, part?_setPart_self isPart]
    exact ih below

end

lemma at?_modify_of_append {location rest : Location}
    (found : value.at? (location ++ rest) = some old) (change : QueryValue -> QueryValue) :
    (value.modify change (location ++ rest)).at? location =
      (value.at? location).map fun part => part.modify change rest := by
  induction location generalizing value with
  | nil => rw [at?_nil, at?_nil, nil_append, map_some]
  | cons selector location ih =>
    rw [cons_append, at?_cons] at found
    rcases bind_eq_some_iff.mp found with ⟨part, isPart, below⟩
    rw [cons_append, modify_cons isPart, at?_cons, part?_setPart_self isPart, at?_cons, isPart]
    exact ih below

/-- Beside the change nothing is different. -/
lemma at?_modify_apart {location : Location} (found : value.at? root = some old)
    (notBelow : ¬ root <+: location) (notAbove : ¬ location <+: root)
    (change : QueryValue -> QueryValue) :
    (value.modify change root).at? location = value.at? location := by
  induction root generalizing value location with
  | nil => exact absurd nil_prefix notBelow
  | cons selector root ih =>
    cases location with
    | nil => exact absurd nil_prefix notAbove
    | cons other location =>
      rw [at?_cons] at found
      rcases bind_eq_some_iff.mp found with ⟨part, isPart, below⟩
      rw [modify_cons isPart, at?_cons, at?_cons]
      by_cases same : other = selector
      · subst same
        rw [part?_setPart_self isPart, isPart]
        refine ih below ?_ ?_
        · exact fun isPrefix => notBelow (cons_prefix_cons.mpr ⟨rfl, isPrefix⟩)
        · exact fun isPrefix => notAbove (cons_prefix_cons.mpr ⟨rfl, isPrefix⟩)
      · rw [part?_setPart_ne _ _ same]

end QueryValue
end Ecclesia
