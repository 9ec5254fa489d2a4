import Ecclesia.Library.Report

namespace Ecclesia.Report

open List

/-!
# Computations after an entry

A computation can look at the report, and stop if something has been written.  So it may do
less when it starts behind an entry.  It is steady if that is all the report has to do with
it: behind entries it always writes the same, whichever they are, and this is the beginning
of what it writes into an empty report.

The entries that a computation writes are another thing that its parts decide.
-/

variable {Entry Failure Value Result State Item : Type}

lemma run_bind (first : Report Entry Failure Value) (next : Value -> Report Entry Failure Result)
    (before : List Entry) :
    (first >>= next).run before = match first.run before with
      | (.ok value, more) => (next value).run more
      | (.error failure, more) => (.error failure, more) := rfl

variable {first : Report Entry Failure Value} {before : List Entry}

lemma run_bind_ok {more : List Entry} {value : Value} (ran : first.run before = (.ok value, more))
    (next : Value -> Report Entry Failure Result) :
    (first >>= next).run before = (next value).run more := by
  rw [run_bind, ran]

lemma run_bind_error {more : List Entry}
    {failure : Failure} (ran : first.run before = (.error failure, more))
    (next : Value -> Report Entry Failure Result) :
    (first >>= next).run before = (.error failure, more) := by
  rw [run_bind, ran]

/-- A computation returns a certain value or fails behind entries, and writes certain entries, also
into an empty report. -/
structure SteadyAs (computation : Report Entry Failure Value) (outcome : Option Value)
    (late : List Entry) : Prop where
  behind : ∀ before, before ≠ [] ->
    (computation.run before).1.toOption = outcome ∧ (computation.run before).2 = before ++ late
  begins : late <+: (computation.run []).2
  alone : ∀ value, outcome = some value -> computation.run [] = (.ok value, late)

def Steady (computation : Report Entry Failure Value) : Prop :=
  ∃ outcome late, SteadyAs computation outcome late

lemma steadyAs_pure (value : Value) :
    SteadyAs (pure value : Report Entry Failure Value) (some value) [] where
  behind before _ := ⟨rfl, (append_nil before).symm⟩
  begins := prefix_rfl
  alone := by
    rintro _ ⟨⟩
    rfl

lemma steadyAs_fail (failure : Failure) :
    SteadyAs (fail failure : Report Entry Failure Value) none [] where
  behind before _ := ⟨rfl, (append_nil before).symm⟩
  begins := prefix_rfl
  alone := nofun

lemma steadyAs_write (entry : Entry) :
    SteadyAs (write entry : Report Entry Failure Unit) (some ()) [entry] where
  behind _ _ := ⟨rfl, rfl⟩
  begins := prefix_rfl
  alone _ _ := rfl

variable {late : List Entry}

/-- A computation that fails behind entries hides what comes after it. -/
lemma SteadyAs.bind_none (steady : SteadyAs first none late)
    (next : Value -> Report Entry Failure Result) :
    SteadyAs (first >>= next) none late where
  behind := by
    intro before written
    rcases steady.behind before written with ⟨failed, wrote⟩
    cases ran : first.run before with
    | mk outcome more =>
      rw [ran] at failed wrote
      cases outcome with
      | ok value => cases failed
      | error failure =>
        rw [run_bind_error ran]
        exact ⟨rfl, wrote⟩
  begins := by
    refine steady.begins.trans ?_
    cases ran : first.run [] with
    | mk outcome more =>
      cases outcome with
      | ok value =>
        rw [run_bind_ok ran]
        exact (next value).grows more
      | error failure =>
        rw [run_bind_error ran]
  alone := nofun

variable {next : Value -> Report Entry Failure Result}

lemma SteadyAs.bind_some {value : Value} {outcome : Option Result} {later : List Entry}
    (steady : SteadyAs first (some value) late) (goesOn : SteadyAs (next value) outcome later) :
    SteadyAs (first >>= next) outcome (late ++ later) := by
  have alone : (first >>= next).run [] = (next value).run late :=
    run_bind_ok (steady.alone value rfl) next
  have behind : ∀ before, before ≠ [] ->
      (first >>= next).run before = (next value).run (before ++ late) := by
    intro before written
    rcases steady.behind before written with ⟨returned, wrote⟩
    cases ran : first.run before with
    | mk result more =>
      rw [ran] at returned wrote
      cases result with
      | error failure => cases returned
      | ok found =>
        cases returned
        cases wrote
        exact run_bind_ok ran next
  constructor
  · intro before written
    rw [behind before written, <- append_assoc]
    exact goesOn.behind (before ++ late) (append_ne_nil_of_left_ne_nil written late)
  · rw [alone]
    cases late with
    | nil => exact goesOn.begins
    | cons entry rest =>
      rw [(goesOn.behind (entry :: rest) (cons_ne_nil entry rest)).2]
  · intro result returned
    rw [alone]
    cases late with
    | nil => exact goesOn.alone result returned
    | cons entry rest =>
      rcases goesOn.behind (entry :: rest) (cons_ne_nil entry rest) with ⟨same, wrote⟩
      rw [returned] at same
      cases ran : (next value).run (entry :: rest) with
      | mk found more =>
        rw [ran] at same wrote
        cases found with
        | error failure => cases same
        | ok found =>
          cases same
          cases wrote
          rfl

variable {computation : Report Entry Failure Value}

lemma SteadyAs.steady {outcome : Option Value}
    (steady : SteadyAs computation outcome late) : Steady computation :=
  ⟨outcome, late, steady⟩

lemma Steady.bind (steady : Steady first)
    (goesOn : ∀ value, Steady (next value)) : Steady (first >>= next) := by
  rcases steady with ⟨outcome, late, steady⟩
  cases outcome with
  | none => exact (steady.bind_none next).steady
  | some value =>
    rcases goesOn value with ⟨result, later, goesOn⟩
    exact (steady.bind_some goesOn).steady

variable {round : State -> Item -> Report Entry Failure State}

lemma steady_foldlM (steady : ∀ state item, Steady (round state item)) (items : List Item) :
    ∀ state, Steady (items.foldlM round state) := by
  induction items with
  | nil => exact fun state => (steadyAs_pure state).steady
  | cons item rest ih =>
    intro state
    exact (steady state item).bind ih

lemma Steady.bind_check (steady : Steady first) {check : Value -> Report Entry Failure Result}
    (fails : ∀ value, SteadyAs (check value) none []) : ∃ late,
    SteadyAs (first >>= check) none late := by
  rcases steady with ⟨outcome, late, steady⟩
  cases outcome with
  | none => exact ⟨late, steady.bind_none check⟩
  | some value => exact ⟨late ++ [], steady.bind_some (fails value)⟩

lemma Steady.mem_run_append (steady : Steady computation) (written : before ≠ [])
    (since : List Entry) (entry : Entry) :
    entry ∈ (computation.run (before ++ since)).2 ↔
      entry ∈ since ∨ entry ∈ (computation.run before).2 := by
  rcases steady with ⟨outcome, late, steady⟩
  have more := append_ne_nil_of_left_ne_nil written since
  rw [(steady.behind before written).2, (steady.behind (before ++ since) more).2,
    mem_append, mem_append, mem_append, or_assoc]
  exact or_left_comm

lemma Steady.mem_run_nil (steady : Steady computation) (written : before ≠ []) {entry : Entry}
    (member : entry ∈ (computation.run before).2) :
    entry ∈ before ∨ entry ∈ (computation.run []).2 := by
  rcases steady with ⟨outcome, late, steady⟩
  rw [(steady.behind before written).2, mem_append] at member
  exact member.imp_right fun wrote => steady.begins.subset wrote

lemma Steady.run_of_silent (steady : Steady computation) (silent : (computation.run []).2 = [])
    (before : List Entry) : (computation.run before).2 = before := by
  rcases steady with ⟨outcome, late, steady⟩
  cases before with
  | nil => exact silent
  | cons entry rest =>
    have nothing : late = [] := prefix_nil.mp (silent ▸ steady.begins)
    rw [(steady.behind (entry :: rest) (cons_ne_nil entry rest)).2, nothing, append_nil]

def WritesOnly (Kind : Entry -> Prop) (computation : Report Entry Failure Value) : Prop :=
  ∀ before entry, entry ∈ (computation.run before).2 -> entry ∈ before ∨ Kind entry

variable {Kind : Entry -> Prop}

lemma writesOnly_pure (value : Value) : WritesOnly Kind (pure value : Report Entry Failure Value) :=
  fun _ _ => .inl

lemma writesOnly_fail (failure : Failure) :
    WritesOnly Kind (fail failure : Report Entry Failure Value) :=
  fun _ _ => .inl

lemma writesOnly_entries : WritesOnly Kind (entries : Report Entry Failure (List Entry)) :=
  fun _ _ => .inl

lemma writesOnly_write {entry : Entry} (kind : Kind entry) :
    WritesOnly Kind (write entry : Report Entry Failure Unit) := by
  intro before found member
  rcases mem_append.mp member with member | member
  · exact .inl member
  · rw [mem_singleton.mp member]
    exact .inr kind

lemma WritesOnly.bind (writes : WritesOnly Kind first)
    (goesOn : ∀ value, WritesOnly Kind (next value)) : WritesOnly Kind (first >>= next) := by
  intro before entry member
  cases ran : first.run before with
  | mk outcome more =>
    have start := writes before entry
    rw [ran] at start
    cases outcome with
    | error failure =>
      rw [run_bind_error ran] at member
      exact start member
    | ok value =>
      rw [run_bind_ok ran] at member
      rcases goesOn value more entry member with member | kind
      · exact start member
      · exact .inr kind

lemma WritesOnly.attempt {computation : Report Entry Failure Unit}
    (writes : WritesOnly Kind computation) : WritesOnly Kind computation.attempt := by
  intro before entry member
  have start := writes before entry
  simp only [Report.attempt] at member
  cases ran : computation.run before with
  | mk outcome more =>
    rw [ran] at member start
    cases outcome with
    | ok value => exact start member
    | error failure => exact start member

lemma writesOnly_foldlM (writes : ∀ state item, WritesOnly Kind (round state item))
    (items : List Item) : ∀ state, WritesOnly Kind (items.foldlM round state) := by
  induction items with
  | nil => exact writesOnly_pure
  | cons item rest ih =>
    intro state
    exact (writes state item).bind ih

lemma WritesOnly.mono {Wider : Entry -> Prop} (writes : WritesOnly Kind computation)
    (wider : ∀ entry, Kind entry -> Wider entry) : WritesOnly Wider computation :=
  fun before entry member => (writes before entry member).imp_right (wider entry)

end Ecclesia.Report
