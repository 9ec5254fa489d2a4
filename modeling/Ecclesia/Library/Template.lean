import Mathlib.Data.List.Basic

namespace Ecclesia

open List

/-!
# Texts with holes

A template is a text with holes, and every hole says what it stands for.  A template is filled
by a text for each hole.
-/

/-- What stands before each hole, and what follows the last one. -/
structure Template (χ α : Type) where
  segments : List (List χ × α)
  last : List χ

namespace Template

variable {χ α : Type}

/-- A text without holes. -/
def literal (t : List χ) : Template χ α :=
  ⟨[], t⟩

/-- A hole and nothing else. -/
def hole (content : α) : Template χ α :=
  ⟨[([], content)], []⟩

/-- Put some text in front. -/
def behind (front : List χ) (template : Template χ α) : Template χ α :=
  match template.segments with
  | [] => ⟨[], front ++ template.last⟩
  | (before, content) :: rest => ⟨(front ++ before, content) :: rest, template.last⟩

def append (first second : Template χ α) : Template χ α :=
  let moved := second.behind first.last
  ⟨first.segments ++ moved.segments, moved.last⟩

instance : Append (Template χ α) :=
  ⟨append⟩

/-- The contents of the holes. -/
def holes (template : Template χ α) : List α :=
  template.segments.map Prod.snd

def fillSegments (f : α -> List χ) : List (List χ × α) -> List χ -> List χ
  | [], last => last
  | (before, content) :: rest, last => before ++ (f content ++ fillSegments f rest last)

/-- Every hole is filled by the text of its content. -/
def fill (f : α -> List χ) (template : Template χ α) : List χ :=
  fillSegments f template.segments template.last

variable (f : α -> List χ)

lemma fillSegments_append (first second : List (List χ × α)) (last : List χ) :
    fillSegments f (first ++ second) last = fillSegments f first (fillSegments f second last) := by
  induction first with
  | nil => rfl
  | cons segment rest ih => rw [cons_append, fillSegments, fillSegments, ih]

lemma fillSegments_last (segments : List (List χ × α)) (last : List χ) :
    fillSegments f segments last = fillSegments f segments [] ++ last := by
  induction segments with
  | nil => rfl
  | cons segment rest ih =>
    rw [fillSegments, fillSegments, ih, append_assoc, append_assoc]

lemma mem_fillSegments {c : χ} (segments : List (List χ × α)) (last : List χ) :
    c ∈ fillSegments f segments last ↔
      (∃ segment ∈ segments, (c ∈ segment.1 ∨ c ∈ f segment.2)) ∨ c ∈ last := by
  induction segments with
  | nil => simp [fillSegments]
  | cons segment rest ih =>
    rw [fillSegments, mem_append, mem_append, ih]
    simp only [mem_cons, or_and_right, exists_or, exists_eq_left, or_assoc]

lemma fillSegments_congr {f g : α -> List χ} {segments : List (List χ × α)}
    (same : ∀ segment ∈ segments, f segment.2 = g segment.2) (last : List χ) :
    fillSegments f segments last = fillSegments g segments last := by
  induction segments with
  | nil => rfl
  | cons segment rest ih =>
    rw [fillSegments, fillSegments, same segment (.head _),
      ih fun other member => same other (mem_cons_of_mem segment member)]

/-- Text in front of text is put in front at once. -/
lemma behind_behind (first second : List χ) (template : Template χ α) :
    (template.behind second).behind first = template.behind (first ++ second) := by
  rcases template with ⟨segments, last⟩
  cases segments with
  | nil => simp [behind, append_assoc]
  | cons segment rest => simp [behind, append_assoc]

lemma segments_append (first second : Template χ α) :
    (first ++ second).segments = first.segments ++ (second.behind first.last).segments := rfl

end Template
end Ecclesia
