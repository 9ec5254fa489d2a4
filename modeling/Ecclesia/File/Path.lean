import Ecclesia.Absl.Strings

namespace Ecclesia.File

open Absl List Option

/-!
# Joining paths

Paths are joined with slashes, an absolute path overrides those before it, and repeated and trailing
slashes are dropped.

The definitions follow `path.cc`.
-/

def isAbsolute (path : Text) : Bool :=
  path.head? == some '/'

/-- `paths.size() - 1` -/
def lastIndex (paths : List Text) : Nat :=
  if paths.isEmpty then 2 ^ 64 - 1 else paths.length - 1

/-- The scan for the last absolute path, from an index down; none if it reads outside of the span.
-/
def removeOverridden (paths : List Text) : Nat -> Option (List Text)
  | 0 => some paths
  | i + 1 =>
    match paths[i + 1]? with
    | none => none
    | some path => if isAbsolute path then some (paths.drop (i + 1)) else removeOverridden paths i

/-- The text that is overwritten in place, and how much of it is written. -/
structure Collapsing where
  fullPath : Text
  finalSize : Nat
  lastWasSlash : Bool

/-- One turn of the loop over the characters. -/
def Collapsing.next (state : Collapsing) (i : Nat) : Collapsing :=
  let nextChar := state.fullPath.getD i ' '
  if nextChar ≠ '/' ∨ (nextChar = '/' ∧ !state.lastWasSlash) then
    ⟨state.fullPath.set state.finalSize nextChar, state.finalSize + 1, nextChar == '/'⟩
  else ⟨state.fullPath, state.finalSize, nextChar == '/'⟩

/-- The loop, the trim and the crop. -/
def collapseSlashes (fullPath : Text) : Text :=
  let state := (List.range' 1 (fullPath.length - 1)).foldl Collapsing.next
    ⟨fullPath, 1, isAbsolute fullPath⟩
  state.fullPath.take
    (if state.lastWasSlash ∧ 1 < state.finalSize then state.finalSize - 1 else state.finalSize)

def joinKept (kept : List Text) : Text :=
  let fullPath := strJoin (kept.dropWhile List.isEmpty) ['/']
  if fullPath.isEmpty then fullPath else collapseSlashes fullPath

def joinFilePaths (paths : List Text) : Option Text :=
  (removeOverridden paths (lastIndex paths)).map joinKept

/-- What is between the slashes, where there is something. -/
def segments (path : Text) : List Text :=
  (strSplit '/' path).filter fun piece => !piece.isEmpty

def notOverridden : List Text -> List Text
  | [] => []
  | path :: rest => if rest.any isAbsolute then notOverridden rest else path :: rest

/-- The slash in front, if the first path that is not empty has one. -/
def leadingSlash (paths : List Text) : Text :=
  if isAbsolute ((paths.dropWhile List.isEmpty).head?.getD []) then ['/'] else []

/-- The segments behind each other. -/
def normalized (paths : List Text) : Text :=
  leadingSlash (notOverridden paths) ++ strJoin ((notOverridden paths).flatMap segments) ['/']

/-- What the loop writes. -/
def collapsed : Bool -> Text -> Text
  | _, [] => []
  | lastWasSlash, c :: rest =>
    if c ≠ '/' ∨ (c = '/' ∧ !lastWasSlash) then c :: collapsed (c == '/') rest
    else collapsed (c == '/') rest

/-- What a loop over a rest of the text has done. -/
structure Copied (state last : Collapsing) (rest : Text) : Prop where
  written : last.fullPath.take last.finalSize =
    state.fullPath.take state.finalSize ++ collapsed state.lastWasSlash rest
  size : last.finalSize = state.finalSize + (collapsed state.lastWasSlash rest).length
  slash : last.lastWasSlash = (rest.getLast?.map (· == '/')).getD state.lastWasSlash

lemma Copied.cons {state next last : Collapsing} {c : Char} {rest : Text}
    (copied : Copied next last rest) (slash : next.lastWasSlash = (c == '/'))
    (step : (next.fullPath.take next.finalSize ++ collapsed next.lastWasSlash rest =
        state.fullPath.take state.finalSize ++ collapsed state.lastWasSlash (c :: rest)) ∧
      next.finalSize + (collapsed next.lastWasSlash rest).length =
        state.finalSize + (collapsed state.lastWasSlash (c :: rest)).length) :
    Copied state last (c :: rest) where
  written := copied.written.trans step.1
  size := copied.size.trans step.2
  slash := by
    rw [copied.slash, slash, getLast?_cons]
    cases rest.getLast? <;> rfl

/-- The loop writes only behind what it has read. -/
lemma copied_foldl (state : Collapsing) {i count : Nat} (behind : state.finalSize <= i)
    (size : state.fullPath.length = i + count) :
    Copied state ((range' i count).foldl Collapsing.next state) (state.fullPath.drop i) := by
  induction count generalizing state i with
  | zero =>
    have nothing : state.fullPath.drop i = [] := drop_eq_nil_of_le (by omega)
    rw [nothing]
    exact ⟨(append_nil _).symm, rfl, rfl⟩
  | succ count ih =>
    have inside : i < state.fullPath.length := by omega
    have split : state.fullPath.drop i = state.fullPath[i] :: state.fullPath.drop (i + 1) :=
      drop_eq_getElem_cons inside
    have read : state.fullPath.getD i ' ' = state.fullPath[i] := by
      rw [getD_eq_getElem?_getD, getElem?_eq_getElem inside, getD_some]
    rw [split, range'_succ, foldl_cons]
    generalize state.fullPath[i] = c at read
    by_cases writes : c ≠ '/' ∨ (c = '/' ∧ !state.lastWasSlash)
    · have next : state.next i =
          ⟨state.fullPath.set state.finalSize c, state.finalSize + 1, c == '/'⟩ := by
        rw [Collapsing.next, read]
        exact if_pos writes
      have unread : (state.fullPath.set state.finalSize c).drop (i + 1) =
          state.fullPath.drop (i + 1) := drop_set_of_lt (by omega)
      have copied := ih ⟨state.fullPath.set state.finalSize c, state.finalSize + 1, c == '/'⟩
        (Nat.succ_le_succ behind) (by rw [length_set]; omega)
      rw [unread] at copied
      rw [next]
      refine copied.cons rfl ?_
      rw [collapsed, if_pos writes]
      constructor
      · have room : state.finalSize < state.fullPath.length := by omega
        have fresh : (state.fullPath.set state.finalSize c).take (state.finalSize + 1) =
            state.fullPath.take state.finalSize ++ [c] := by
          rw [take_succ_eq_append_getElem (by rwa [length_set]), getElem_set_self,
            take_set, set_eq_of_length_le (length_take_le _ _)]
        rw [fresh, append_assoc]
        rfl
      · exact Nat.add_right_comm _ _ _
    · have next : state.next i = ⟨state.fullPath, state.finalSize, c == '/'⟩ := by
        rw [Collapsing.next, read]
        exact if_neg writes
      rw [next]
      refine (ih ⟨state.fullPath, state.finalSize, c == '/'⟩ (Nat.le_succ_of_le behind)
        (by change state.fullPath.length = i + 1 + count; omega)).cons rfl ?_
      rw [collapsed, if_neg writes]
      exact ⟨rfl, rfl⟩

lemma slash_induction {motive : Text -> Prop} (plain : ∀ word, '/' ∉ word -> motive word)
    (slash : ∀ word rest, '/' ∉ word -> motive rest -> motive (word ++ '/' :: rest)) :
    ∀ t, motive t := by
  intro t
  induction long : t.length using Nat.strong_induction_on generalizing t with
  | h length ih =>
    by_cases member : '/' ∈ t
    · rcases eq_append_cons_of_mem member with ⟨word, rest, rfl, first⟩
      rw [length_append, length_cons] at long
      exact slash word rest first (ih rest.length (by omega) rest rfl)
    · exact plain t member

lemma segments_slash (first second : Text) :
    segments (first ++ '/' :: second) = segments first ++ segments second := by
  rw [segments, strSplit, splitOn_append_cons_self, filter_append]
  rfl

lemma segments_plain {word : Text} (plain : '/' ∉ word) :
    segments word = if word = [] then [] else [word] := by
  rw [segments, strSplit, splitOn_eq_singleton plain]
  cases word <;> rfl

lemma mem_segments (t : Text) : ∀ segment ∈ segments t, segment ≠ [] ∧ '/' ∉ segment := by
  induction t using slash_induction with
  | plain word plain =>
    intro segment member
    rw [segments_plain plain] at member
    split at member
    next => cases member
    next present => exact mem_singleton.mp member ▸ ⟨present, plain⟩
  | slash word rest plain ih =>
    intro segment member
    rw [segments_slash, segments_plain plain] at member
    rcases mem_append.mp member with isWord | later
    · split at isWord
      next => cases isWord
      next present => exact mem_singleton.mp isWord ▸ ⟨present, plain⟩
    · exact ih segment later

lemma getLast?_of_segments_nil {t : Text} (nothing : segments t = []) (present : t ≠ []) :
    t.getLast? = some '/' := by
  induction t using slash_induction with
  | plain word plain =>
    rw [segments_plain plain, if_neg present] at nothing
    cases nothing
  | slash word rest _ ih =>
    rw [segments_slash, append_eq_nil_iff] at nothing
    rw [getLast?_append]
    cases rest with
    | nil => rfl
    | cons c others =>
      rw [getLast?_cons_cons, ih nothing.2 (cons_ne_nil c others)]
      rfl

lemma segments_strJoin (paths : List Text) :
    segments (strJoin paths ['/']) = paths.flatMap segments := by
  induction paths with
  | nil => rfl
  | cons path rest ih =>
    cases rest with
    | nil => rw [strJoin, intercalate_singleton, flatMap_singleton]
    | cons next others =>
      rw [strJoin, intercalate_cons_cons, append_assoc, singleton_append,
        segments_slash, flatMap_cons, <- ih]
      rfl

lemma collapsed_plain {word : Text} (plain : '/' ∉ word) (present : word ≠ []) (lastWasSlash : Bool)
    (rest : Text) : collapsed lastWasSlash (word ++ rest) = word ++ collapsed false rest := by
  induction word generalizing lastWasSlash with
  | nil => exact absurd rfl present
  | cons c others ih =>
    have notSlash : c ≠ '/' := fun same => plain (same ▸ (.head _))
    rw [cons_append, collapsed, if_pos (.inl notSlash), beq_false_of_ne notSlash]
    by_cases last : others = []
    · rw [last]
      rfl
    · rw [ih (fun member => plain (mem_cons_of_mem c member)) last]
      rfl

/-- Behind a slash the segments are left, and a slash behind them if there was one. -/
lemma collapsed_true (t : Text) :
    collapsed true t = strJoin (segments t) ['/'] ++
      if t.getLast? = some '/' ∧ segments t ≠ [] then ['/'] else [] := by
  induction t using slash_induction with
  | plain word plain =>
    by_cases empty : word = []
    · rw [empty]
      rfl
    · have ends : ¬ (word.getLast? = some '/' ∧ segments word ≠ []) :=
        fun both => plain (mem_of_getLast? both.1)
      have copied := collapsed_plain plain empty true []
      rw [append_nil] at copied
      rw [if_neg ends, copied, segments_plain plain, if_neg empty, strJoin, intercalate_singleton]
      rfl
  | slash word rest plain ih =>
    have slashed : collapsed true ('/' :: rest) = collapsed true rest := rfl
    have ends : (word ++ '/' :: rest).getLast? = some '/' ↔
        rest = [] ∨ rest.getLast? = some '/' := by
      rw [getLast?_append]
      cases rest with
      | nil => exact iff_of_true rfl (.inl rfl)
      | cons c others =>
        simp
    simp only [segments_slash, segments_plain plain, ends]
    by_cases empty : word = []
    · have trailing : (rest = [] ∨ rest.getLast? = some '/') ∧ segments rest ≠ [] ↔
          rest.getLast? = some '/' ∧ segments rest ≠ [] := by
        refine and_congr_left fun some_ => or_iff_right ?_
        rintro rfl
        exact some_ rfl
      simp only [empty, if_true, nil_append, trailing]
      exact slashed.trans ih
    · have found : collapsed false ('/' :: rest) = '/' :: collapsed true rest := rfl
      rw [if_neg empty, collapsed_plain plain empty, found, ih]
      by_cases nothing : segments rest = []
      · have trailing : rest = [] ∨ rest.getLast? = some '/' :=
          or_iff_not_imp_left.mpr (getLast?_of_segments_nil nothing)
        have left_ : ¬ (rest.getLast? = some '/' ∧ ([] : List Text) ≠ []) := fun both => both.2 rfl
        rw [nothing, append_nil, if_neg left_, if_pos ⟨trailing, cons_ne_nil _ _⟩,
          strJoin, strJoin, intercalate_singleton]
        rfl
      · have present : rest ≠ [] := fun empty => nothing (empty ▸ rfl)
        rw [strJoin, strJoin, singleton_append, intercalate_cons_of_ne_nil nothing]
        simp only [or_iff_right present, and_iff_left nothing, ne_eq, reduceCtorEq, not_false_iff,
          and_true, append_assoc, cons_append, nil_append]

lemma strJoin_ne_nil {pieces : List Text} (some_ : pieces ≠ [])
    (present : ∀ piece ∈ pieces, piece ≠ []) (separator : Text) :
    strJoin pieces separator ≠ [] := by
  cases pieces with
  | nil => exact absurd rfl some_
  | cons first rest =>
    have notEmpty := present first (.head _)
    cases rest with
    | nil => rwa [strJoin, intercalate_singleton]
    | cons second others =>
      exact append_ne_nil_of_left_ne_nil notEmpty _

lemma first_collapsed {t : Text} (present : t ≠ []) :
    t.take 1 ++ collapsed (isAbsolute t) (t.drop 1) =
      (if isAbsolute t = true then ['/'] else []) ++ collapsed true t := by
  cases t with
  | nil => exact absurd rfl present
  | cons c rest =>
    by_cases slash : c = '/'
    · subst slash
      rfl
    · have relative : isAbsolute (c :: rest) = false :=
        beq_false_of_ne fun same => slash (some.inj same)
      rw [relative, collapsed, if_pos (Or.inl slash), beq_false_of_ne slash]
      rfl

lemma collapseSlashes_eq {t : Text} (present : t ≠ []) :
    collapseSlashes t =
      (if isAbsolute t = true then ['/'] else []) ++ strJoin (segments t) ['/'] := by
  have long : 0 < t.length := length_pos_of_ne_nil present
  have copied := copied_foldl ⟨t, 1, isAbsolute t⟩ (Nat.le_refl 1)
    (by change t.length = 1 + (t.length - 1); omega)
  rw [collapseSlashes]
  generalize (range' 1 (t.length - 1)).foldl Collapsing.next ⟨t, 1, isAbsolute t⟩ = last at copied
  have written : last.fullPath.take last.finalSize =
      (if isAbsolute t = true then ['/'] else []) ++ collapsed true t :=
    copied.written.trans (first_collapsed present)
  have size : last.finalSize = (last.fullPath.take last.finalSize).length := by
    rw [copied.written, length_append, copied.size, length_take, Nat.min_eq_left long]
  have slash : last.lastWasSlash = true ↔ t.getLast? = some '/' := by
    rw [copied.slash]
    cases t with
    | nil => exact absurd rfl present
    | cons c rest =>
      rw [drop_one, tail_cons, getLast?_cons]
      cases rest.getLast? with
      | none => exact beq_iff_eq
      | some final => exact beq_iff_eq.trans some_inj.symm
  rw [collapsed_true] at written
  have joins (some_ : segments t ≠ []) : 0 < (strJoin (segments t) ['/']).length :=
    length_pos_of_ne_nil
      (strJoin_ne_nil some_ (fun piece member => (mem_segments t piece member).1) _)
  by_cases trailing : t.getLast? = some '/' ∧ segments t ≠ []
  · -- The slash behind the last segment is trimmed.
    rw [if_pos trailing, <- append_assoc] at written
    have room := joins trailing.2
    have more : 1 < last.finalSize := by
      rw [size, written, length_append, length_append, length_singleton]
      omega
    have earlier : last.fullPath.take (last.finalSize - 1) =
        (last.fullPath.take last.finalSize).dropLast := by
      rw [dropLast_eq_take, <- size, take_take, Nat.min_eq_left (Nat.sub_le _ _)]
    rw [if_pos ⟨slash.mpr trailing.1, more⟩, earlier, written, dropLast_concat]
  · rw [if_neg trailing, append_nil] at written
    have stays : ¬ (last.lastWasSlash = true ∧ 1 < last.finalSize) := by
      rintro ⟨ends, more⟩
      have nothing : segments t = [] := not_not.mp fun some_ => trailing ⟨slash.mp ends, some_⟩
      rw [size, written, nothing] at more
      split at more <;> exact absurd more (by decide)
    rw [if_neg stays, written]

lemma notOverridden_append {path : Text} {front back : List Text}
    (absolute : isAbsolute path = true) (last : back.any isAbsolute = false) :
    notOverridden (front ++ path :: back) = path :: back := by
  induction front with
  | nil => rw [nil_append, notOverridden, last, if_neg Bool.false_ne_true]
  | cons first rest ih =>
    have later : (rest ++ path :: back).any isAbsolute = true := by
      rw [any_append, any_cons, absolute, Bool.true_or, Bool.or_true]
    rw [cons_append, notOverridden, later, if_pos rfl, ih]

lemma removeOverridden_eq {paths : List Text} {i : Nat} (within : i < paths.length)
    (last : (paths.drop (i + 1)).any isAbsolute = false) :
    removeOverridden paths i = some (notOverridden paths) := by
  induction i with
  | zero =>
    cases paths with
    | nil => cases within
    | cons path rest =>
      have none : rest.any isAbsolute = false := last
      rw [removeOverridden, notOverridden, none, if_neg Bool.false_ne_true]
  | succ i ih =>
    have split := drop_eq_getElem_cons within
    rw [removeOverridden, getElem?_eq_getElem within]
    by_cases absolute : isAbsolute paths[i + 1] = true
    · have whole : notOverridden paths = paths.drop (i + 1) := by
        conv => lhs; rw [<- take_append_drop (i + 1) paths, split]
        rw [notOverridden_append absolute last, split]
      rw [whole]
      exact if_pos absolute
    · refine (if_neg absolute).trans (ih (Nat.lt_of_succ_lt within) ?_)
      rw [split, any_cons, last, Bool.or_false]
      exact Bool.eq_false_of_not_eq_true absolute

lemma flatMap_segments_dropWhile (paths : List Text) :
    (paths.dropWhile List.isEmpty).flatMap segments = paths.flatMap segments := by
  induction paths with
  | nil => rfl
  | cons path rest ih =>
    cases path with
    | nil => exact ih
    | cons c others => rfl

lemma isAbsolute_strJoin (paths : List Text) :
    (if isAbsolute (strJoin (paths.dropWhile List.isEmpty) ['/']) = true then ['/'] else []) =
      leadingSlash paths := by
  induction paths with
  | nil => rfl
  | cons path rest ih =>
    cases path with
    | nil => exact ih
    | cons c others =>
      have begins : ∃ after, strJoin ((c :: others) :: rest) ['/'] = c :: after := by
        cases rest with
        | nil => exact ⟨others, intercalate_singleton⟩
        | cons second more => exact ⟨_, intercalate_cons_cons⟩
      rcases begins with ⟨after, begins⟩
      have first : ((c :: others) :: rest).dropWhile List.isEmpty = (c :: others) :: rest := rfl
      rw [first, begins]
      rfl

lemma joinFilePaths_eq {paths : List Text} (some_ : paths ≠ []) :
    joinFilePaths paths = some (normalized paths) := by
  have long := length_pos_of_ne_nil some_
  have index : lastIndex paths = paths.length - 1 := by
    cases paths with
    | nil => exact absurd rfl some_
    | cons path rest => rfl
  have behind : paths.drop (paths.length - 1 + 1) = [] := drop_eq_nil_of_le (by omega)
  have scanned : removeOverridden paths (lastIndex paths) = some (notOverridden paths) := by
    rw [index]
    exact removeOverridden_eq (by omega) (by rw [behind]; rfl)
  have found := (segments_strJoin _).trans (flatMap_segments_dropWhile (notOverridden paths))
  have lead := isAbsolute_strJoin (notOverridden paths)
  rw [joinFilePaths, scanned, map_some, joinKept, normalized, <- found, <- lead]
  generalize strJoin ((notOverridden paths).dropWhile List.isEmpty) ['/'] = fullPath
  cases fullPath with
  | nil => rfl
  | cons c rest => exact congrArg some (collapseSlashes_eq (cons_ne_nil c rest))

lemma getLast?_strJoin {pieces : List Text} (proper : ∀ piece ∈ pieces, piece ≠ [] ∧ '/' ∉ piece) :
    (strJoin pieces ['/']).getLast? ≠ some '/' := by
  induction pieces with
  | nil => exact nofun
  | cons first rest ih =>
    have later : ∀ piece ∈ rest, piece ≠ [] ∧ '/' ∉ piece :=
      fun piece member => proper piece (mem_cons_of_mem first member)
    by_cases last : rest = []
    · rw [last, strJoin, intercalate_singleton]
      exact fun ends => (proper first (.head _)).2 (mem_of_getLast? ends)
    · have present := strJoin_ne_nil last (fun piece member => (later piece member).1) ['/']
      rw [strJoin, intercalate_cons_of_ne_nil last, getLast?_append]
      rcases exists_cons_of_ne_nil present with ⟨c, others, isCons⟩
      have final := ih later
      rw [isCons, getLast?_cons] at final
      rw [strJoin] at isCons
      rw [isCons, getLast?_cons]
      exact final

/-- The paths are joined without a read outside of them, and there is no slash at the end. -/
def Normalizes (paths : List Text) : Prop :=
  joinFilePaths paths = some (normalized paths) ∧
    ((normalized paths).getLast? = some '/' -> normalized paths = ['/'])

/-- The paths are normalized exactly if there are any: of no paths, one is read. -/
theorem normalizes_iff : ∀ paths, Normalizes paths <-> paths ≠ [] := by
  intro paths
  constructor
  · rintro ⟨joined, -⟩ rfl
    cases joined
  · intro some_
    refine ⟨joinFilePaths_eq some_, ?_⟩
    have proper : ∀ piece ∈ (notOverridden paths).flatMap segments, piece ≠ [] ∧ '/' ∉ piece := by
      intro piece member
      rcases List.mem_flatMap.mp member with ⟨path, -, inPath⟩
      exact mem_segments path piece inPath
    have trailing := getLast?_strJoin proper
    rw [normalized]
    generalize strJoin ((notOverridden paths).flatMap segments) ['/'] = joined at trailing
    rw [leadingSlash]
    cases joined with
    | nil =>
      split
      · exact fun _ => rfl
      · exact nofun
    | cons c rest =>
      rw [List.getLast?_cons] at trailing
      rw [List.getLast?_append, List.getLast?_cons]
      exact fun ends => absurd ends trailing

theorem not_normalizes_nil : ¬ Normalizes [] := by
  rintro ⟨joined, -⟩
  cases joined

end Ecclesia.File
