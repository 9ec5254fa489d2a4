import Ecclesia.Json.PropertyPath
import Mathlib.Data.List.Forall2

namespace Ecclesia.Json

open Absl List
open PathUtil (simpleAtoi32_digits parseDigits_strCatNat strCatNat_digits)

/-!
# Pointers into a value

A pointer is a chain of tokens, each behind a slash, in which a tilde and a slash are escaped.  The
reader is more lenient than that: it drops what is in front of the first slash, a wrong escape does
not matter beside a right one, and an index is read as any number is.

The definitions follow `json_ptr.cc`.
-/

/-- The escapes of a token, of which `StrReplaceAll` must find one if there is a tilde. -/
def unescape (token : Text) : Option Text :=
  if strContains token ['~'] then
    if strContains token ['~', '0'] || strContains token ['~', '1'] then
      some (strReplaceAll token [(['~', '0'], ['~']), (['~', '1'], ['/'])])
    else none
  else some token

/-- The loop over the tokens.  Where there is no result, a discarded value is returned. -/
def followTokens : Json -> List Text -> Option Json
  | json, [] => some json
  | json, token :: rest =>
    match unescape token with
    | none => none
    | some token =>
      match json with
      | .array elements =>
        match simpleAtoi32 token with
        | some arrayIndex =>
          if 0 <= arrayIndex ∧ arrayIndex < elements.length then
            followTokens (elements.getD arrayIndex.toNat .discarded) rest
          else none
        | none => none
      | .object members =>
        match (Json.object members).find token with
        | some next => followTokens next rest
        | none => none
      | _ => none

def handleJsonPtr (json : Json) (pointerStr : Text) : Json :=
  if pointerStr.isEmpty then json
  else
    match strSplit '/' pointerStr with
    | _ :: token :: tokens => (followTokens json (token :: tokens)).getD .discarded
    | _ => .discarded

/-- A step from a value to a part of it. -/
inductive Step where
  | member (name : Text)
  | element (index : Nat)

def step : Json -> Step -> Option Json
  | .object members, .member name => members.lookup name
  | .array elements, .element index => elements[index]?
  | _, _ => none

def locate : Json -> List Step -> Option Json
  | json, [] => some json
  | json, first :: rest => (json.step first).bind fun next => locate next rest

def Step.text : Step -> Text
  | .member name => name
  | .element index => strCatNat index

def escape (t : Text) : Text :=
  t.flatMap fun c => if c = '~' then ['~', '0'] else if c = '/' then ['~', '1'] else [c]

/-- The pointer to a location. -/
def pointerTo (steps : List Step) : Text :=
  strJoin ([] :: steps.map fun step => escape step.text) ['/']

def Reads (token : Text) : Step -> Prop
  | .member name => unescape token = some name
  | .element index => ∃ t, unescape token = some t ∧ simpleAtoi32 t = some (index : Int)

/-- A pointer is read as a location, whatever is in front of its first slash. -/
def ReadsAs (pointerStr : Text) (steps : List Step) : Prop :=
  ∃ first tokens, strSplit '/' pointerStr = first :: tokens ∧ tokens ≠ [] ∧
    List.Forall₂ Reads tokens steps

lemma escape_plain {t : Text} (plain : '~' ∉ escape t) : escape t = t := by
  induction t with
  | nil => rfl
  | cons c rest ih =>
    rw [escape, flatMap_cons, mem_append, not_or] at plain
    have later : escape rest = rest := ih plain.2
    have notTilde : c ≠ '~' := by
      rintro rfl
      exact plain.1 (.head _)
    have notSlash : c ≠ '/' := by
      rintro rfl
      exact plain.1 (.head _)
    change (if c = '~' then _ else _) ++ escape rest = c :: rest
    rw [if_neg notTilde, if_neg notSlash, later]
    rfl

lemma slash_not_mem_escape (t : Text) : '/' ∉ escape t := by
  intro member
  rcases mem_flatMap.mp member with ⟨c, -, inEscape⟩
  split at inEscape
  · exact absurd inEscape (by decide)
  · split at inEscape
    · exact absurd inEscape (by decide)
    · rename_i notSlash
      exact notSlash (mem_singleton.mp inEscape).symm

lemma strReplaceAll_escape (t : Text) :
    strReplaceAll (escape t) [(['~', '0'], ['~']), (['~', '1'], ['/'])] = t := by
  induction t with
  | nil => rfl
  | cons c rest ih =>
    change strReplaceAll ((if c = '~' then _ else _) ++ escape rest) _ = c :: rest
    by_cases tilde : c = '~'
    · rw [tilde]
      exact congrArg (List.cons '~') ih
    · by_cases slash : c = '/'
      · rw [slash]
        exact congrArg (List.cons '/') ih
      · have noMatch : longestMatch [(['~', '0'], ['~']), (['~', '1'], ['/'])]
            (c :: escape rest) = none := by
          have differs : ('~' == c) = false := beq_false_of_ne (.symm tilde)
          simp only [longestMatch, foldl_cons, foldl_nil, List.isPrefixOf, differs,
            Bool.false_and, Bool.false_eq_true, if_false]
        rw [if_neg tilde, if_neg slash, singleton_append, strReplaceAll, strReplaceFrom, noMatch]
        exact congrArg (List.cons c) ih

lemma strContains_iff {t part : Text} : strContains t part = true ↔ part <:+: t := by
  rw [strContains, any_eq_true, infix_iff_prefix_suffix]
  simp only [mem_tails, List.isPrefixOf_iff_prefix, and_comm]

lemma unescape_escape (t : Text) : unescape (escape t) = some t := by
  rw [unescape]
  split
  next tilde =>
    rw [strContains_iff, infix_iff_prefix_suffix] at tilde
    have member : '~' ∈ escape t := by
      rcases tilde with ⟨behind, begins, ends⟩
      exact ends.mem (begins.mem (.head _))
    have found : (strContains (escape t) ['~', '0'] || strContains (escape t) ['~', '1']) = true := by
      rw [Bool.or_eq_true, strContains_iff, strContains_iff]
      rcases mem_flatMap.mp member with ⟨c, inText, inEscape⟩
      rcases append_of_mem inText with ⟨before, after, rfl⟩
      rw [escape, flatMap_append, flatMap_cons]
      split at inEscape
      next isTilde =>
        rw [if_pos isTilde]
        exact .inl ⟨_, _, append_assoc _ _ _⟩
      next notTilde =>
        split at inEscape
        next isSlash =>
          rw [if_neg notTilde, if_pos isSlash]
          exact .inr ⟨_, _, append_assoc _ _ _⟩
        next => exact absurd (mem_singleton.mp inEscape).symm notTilde
    rw [if_pos found, strReplaceAll_escape]
  next noTilde =>
    have plain : '~' ∉ escape t := by
      intro member
      rcases append_of_mem member with ⟨before, after, same⟩
      exact noTilde (strContains_iff.mpr ⟨before, after, by rw [same, append_assoc]; rfl⟩)
    rw [escape_plain plain]

lemma strSplit_pointerTo (steps : List Step) :
    strSplit '/' (pointerTo steps) = [] :: steps.map fun step => escape step.text := by
  refine splitOn_intercalate '/' ?_ (cons_ne_nil _ _)
  intro token member
  rcases mem_cons.mp member with rfl | isToken
  · exact not_mem_nil
  · rcases mem_map.mp isToken with ⟨step, -, rfl⟩
    exact slash_not_mem_escape step.text

variable {steps : List Step} {pointerStr : Text}

lemma simpleAtoi32_index (index : Nat) (value : Int) :
    simpleAtoi32 (strCatNat index) = some value ↔ value = index ∧ index < 2 ^ 31 := by
  rw [simpleAtoi32_digits (strCatNat_digits index), simpleAtoi32.bounded, parseDigits_strCatNat]
  dsimp only
  split
  next small => exact ⟨fun read => ⟨(Option.some.inj read).symm, small⟩, fun both => by rw [both.1]⟩
  next large => exact iff_of_false (Option.some_ne_none _).symm fun both => large both.2

/-- The index of a step is an `int`. -/
def Step.Small : Step -> Prop
  | .member _ => True
  | .element index => index < 2 ^ 31

section

variable {first second : Step} {value next other : Json} (atFirst : value.step first = some next)
  (atSecond : value.step second = some other)

include atFirst atSecond

lemma reads_escape : Reads (escape first.text) second ↔ second = first ∧ first.Small := by
  cases value with
  | object members =>
    cases first with
    | element => cases atFirst
    | member name =>
      cases second with
      | element => cases atSecond
      | member found =>
        rw [Reads, unescape_escape, Option.some_inj, Step.member.injEq]
        exact ⟨fun same => ⟨same.symm, trivial⟩, fun both => both.1.symm⟩
  | array elements =>
    cases first with
    | member => cases atFirst
    | element index =>
      cases second with
      | member => cases atSecond
      | element found =>
        simp only [Reads, unescape_escape, Option.some_inj, exists_eq_left', Step.text,
          simpleAtoi32_index, Int.natCast_inj, Step.element.injEq, Step.Small]
  | _ => cases atFirst

lemma escape_text_inj (same : escape first.text = escape second.text) : first = second := by
  have texts : first.text = second.text :=
    Option.some.inj ((unescape_escape _).symm.trans ((congrArg unescape same).trans
      (unescape_escape _)))
  cases value with
  | object members =>
    cases first with
    | element => cases atFirst
    | member name =>
      cases second with
      | element => cases atSecond
      | member found => exact congrArg Step.member texts
  | array elements =>
    cases first with
    | member => cases atFirst
    | element index =>
      cases second with
      | member => cases atSecond
      | element found => exact congrArg Step.element (strCatNat_injective texts)
  | _ => cases atFirst

end

/-- One turn of the loop. -/
lemma followTokens_cons (json : Json) (token : Text) (rest : List Text) (value : Json) :
    followTokens json (token :: rest) = some value ↔
      ∃ first next, Reads token first ∧ json.step first = some next ∧
        followTokens next rest = some value := by
  rw [followTokens]
  cases read : unescape token with
  | none =>
    refine iff_of_false nofun ?_
    rintro ⟨first, next, reads, -⟩
    cases first with
    | member => cases read.symm.trans reads
    | element =>
      rcases reads with ⟨t, isRead, -⟩
      cases read.symm.trans isRead
  | some t =>
    cases json with
    | array elements =>
      dsimp only
      constructor
      · intro followed
        split at followed
        next arrayIndex isIndex =>
          split at followed
          next inside =>
            have within : arrayIndex.toNat < elements.length := by omega
            have same : ((arrayIndex.toNat : Nat) : Int) = arrayIndex :=
              Int.toNat_of_nonneg inside.1
            rw [getD_eq_getElem?_getD, getElem?_eq_getElem within] at followed
            exact ⟨.element arrayIndex.toNat, _, ⟨t, read, same ▸ isIndex⟩,
              getElem?_eq_getElem within, followed⟩
          next => cases followed
        next => cases followed
      · rintro ⟨first, next, reads, found, followed⟩
        cases first with
        | member => cases found
        | element index =>
          rcases reads with ⟨_, isRead, isIndex⟩
          cases read.symm.trans isRead
          rcases List.getElem?_eq_some_iff.mp found with ⟨within, isNext⟩
          have inside : (0 : Int) <= index ∧ (index : Int) < elements.length := by omega
          rw [isIndex]
          dsimp only
          rw [if_pos inside, Int.toNat_natCast, getD_eq_getElem?_getD,
            getElem?_eq_getElem within, isNext]
          exact followed
    | object members =>
      dsimp only
      constructor
      · intro followed
        split at followed
        next next found => exact ⟨.member t, next, read, found, followed⟩
        next => cases followed
      · rintro ⟨first, next, reads, found, followed⟩
        cases first with
        | element => cases found
        | member name =>
          cases read.symm.trans reads
          have isFound : (Json.object members).find t = some next := found
          rw [isFound]
          exact followed
    | _ =>
      refine iff_of_false nofun ?_
      rintro ⟨first, next, -, found, -⟩
      cases found

lemma followTokens_iff (json : Json) (tokens : List Text) (value : Json) :
    followTokens json tokens = some value ↔
      ∃ steps, Forall₂ Reads tokens steps ∧ json.locate steps = some value := by
  induction tokens generalizing json with
  | nil =>
    constructor
    · exact fun same => ⟨[], Forall₂.nil, same⟩
    · rintro ⟨_, nothing, located⟩
      cases nothing
      exact located
  | cons token rest ih =>
    rw [followTokens_cons]
    constructor
    · rintro ⟨first, next, reads, found, followed⟩
      rcases (ih next).mp followed with ⟨steps, later, located⟩
      refine ⟨first :: steps, Forall₂.cons reads later, ?_⟩
      rw [locate, found, Option.bind_some, located]
    · rintro ⟨_, reads, located⟩
      cases reads with
      | @cons _ first _ steps reads later =>
        rcases Option.bind_eq_some_iff.mp located with ⟨next, found, behind⟩
        exact ⟨first, next, reads, found, (ih next).mpr ⟨steps, later, behind⟩⟩

section

variable {json value other : Json} {found : List Step} (located : json.locate steps = some value)
  (isFound : json.locate found = some other)

include located isFound

/-- What is read as a location is the pointer to it, apart from indices that are no `int`. -/
lemma forall₂_reads :
    Forall₂ Reads (steps.map fun step => escape step.text) found ↔
      found = steps ∧ ∀ step ∈ steps, step.Small := by
  induction steps generalizing json found with
  | nil =>
    rw [map_nil, forall₂_nil_left_iff]
    exact ⟨fun same => ⟨same, nofun⟩, And.left⟩
  | cons first rest ih =>
    rcases Option.bind_eq_some_iff.mp located with ⟨next, atFirst, behind⟩
    cases found with
    | nil =>
      refine iff_of_false nofun ?_
      rintro ⟨same, -⟩
      cases same
    | cons second others =>
      rcases Option.bind_eq_some_iff.mp isFound with ⟨into, atSecond, later⟩
      rw [map_cons, forall₂_cons, reads_escape atFirst atSecond, forall_mem_cons, List.cons.injEq]
      constructor
      · rintro ⟨⟨rfl, small⟩, reads⟩
        cases atFirst.symm.trans atSecond
        rcases (ih behind later).mp reads with ⟨same, allSmall⟩
        exact ⟨⟨rfl, same⟩, small, allSmall⟩
      · rintro ⟨⟨rfl, same⟩, small, allSmall⟩
        cases atFirst.symm.trans atSecond
        exact ⟨⟨rfl, small⟩, (ih behind later).mpr ⟨same, allSmall⟩⟩

lemma pointerTo_inj (same : pointerTo steps = pointerTo found) : steps = found := by
  have tokens := congrArg (strSplit '/') same
  rw [strSplit_pointerTo, strSplit_pointerTo] at tokens
  have texts := (cons.inj tokens).2
  clear same tokens
  induction steps generalizing json found with
  | nil => exact (map_eq_nil_iff.mp texts.symm).symm
  | cons first rest ih =>
    cases found with
    | nil => cases texts
    | cons second others =>
      rcases Option.bind_eq_some_iff.mp located with ⟨next, atFirst, behind⟩
      rcases Option.bind_eq_some_iff.mp isFound with ⟨into, atSecond, later⟩
      have parts := cons.inj texts
      cases escape_text_inj atFirst atSecond parts.1
      cases atFirst.symm.trans atSecond
      rw [ih behind later parts.2]

end

/-- A pointer leads to the location that it is the pointer of, and to a discarded value if there is
none. -/
structure Resolves (json : Json) (pointerStr : Text) : Prop where
  found : ∀ steps value, pointerStr = pointerTo steps -> json.locate steps = some value ->
    handleJsonPtr json pointerStr = value
  absent : (∀ steps, pointerStr = pointerTo steps -> json.locate steps = none) ->
    handleJsonPtr json pointerStr = .discarded

lemma handleJsonPtr_cons {first token : Text} {tokens : List Text} (json : Json)
    (split : strSplit '/' pointerStr = first :: token :: tokens) :
    handleJsonPtr json pointerStr = (followTokens json (token :: tokens)).getD .discarded := by
  have present : pointerStr.isEmpty = false := by
    cases pointerStr with
    | nil => cases split
    | cons => rfl
  rw [handleJsonPtr, present, if_neg Bool.false_ne_true, split]

/-- A value other than a discarded one is returned just where the pointer is read as a location. -/
lemma handleJsonPtr_eq {json value : Json} (present : pointerStr ≠ [])
    (proper : value ≠ .discarded) :
    handleJsonPtr json pointerStr = value ↔
      ∃ steps, ReadsAs pointerStr steps ∧ json.locate steps = some value := by
  cases split : strSplit '/' pointerStr with
  | nil => exact absurd split (splitOn_ne_nil _ _)
  | cons first rest =>
    cases rest with
    | nil =>
      have nothing : handleJsonPtr json pointerStr = .discarded := by
        rw [handleJsonPtr, isEmpty_eq_false_iff.mpr present, if_neg Bool.false_ne_true, split]
      rw [nothing]
      refine iff_of_false (Ne.symm proper) ?_
      rintro ⟨steps, ⟨_, _, same, some_, -⟩, -⟩
      exact some_ (cons.inj (split.symm.trans same)).2.symm
    | cons token tokens =>
      have followed : handleJsonPtr json pointerStr = value ↔
          followTokens json (token :: tokens) = some value := by
        rw [handleJsonPtr_cons json split]
        cases followTokens json (token :: tokens) with
        | none => exact iff_of_false (Ne.symm proper) nofun
        | some found => exact Option.some_inj.symm
      rw [followed, followTokens_iff]
      refine exists_congr fun steps => and_congr_left fun _ => ?_
      constructor
      · exact fun reads => ⟨first, _, split, cons_ne_nil _ _, reads⟩
      · rintro ⟨_, _, same, -, reads⟩
        rw [<- (cons.inj (split.symm.trans same)).2] at reads
        exact reads

lemma pointerTo_ne_nil (some_ : steps ≠ []) : pointerTo steps ≠ [] := by
  intro empty
  have split := strSplit_pointerTo steps
  rw [empty] at split
  exact some_ (map_eq_nil_iff.mp (cons.inj split).2.symm)

lemma readsAs_pointerTo {json value other : Json} {found : List Step} (some_ : steps ≠ [])
    (located : json.locate steps = some value) (isFound : json.locate found = some other) :
    ReadsAs (pointerTo steps) found ↔ found = steps ∧ ∀ step ∈ steps, step.Small := by
  rw [<- forall₂_reads located isFound, ReadsAs, strSplit_pointerTo]
  constructor
  · rintro ⟨_, _, same, -, reads⟩
    rw [<- (cons.inj same).2] at reads
    exact reads
  · exact fun reads => ⟨_, _, rfl, mt map_eq_nil_iff.mp some_, reads⟩

/-- The empty pointer leads to the whole value. -/
lemma resolves_nil (json : Json) : Resolves json [] := by
  have whole {steps : List Step} (same : [] = pointerTo steps) : steps = [] :=
    not_not.mp fun some_ => pointerTo_ne_nil some_ same.symm
  constructor
  · intro steps value same located
    rw [whole same] at located
    exact Option.some.inj located
  · intro none
    cases none [] rfl

/-- The code follows the standard exactly if the indices on the way are `int`s, and nothing but its
own pointer is read as a location. -/
theorem resolves_iff : ∀ (json : Json) (pointerStr : Text),
    Resolves json pointerStr <->
      ∀ steps value, json.locate steps = some value -> value ≠ .discarded ->
        (pointerStr = pointerTo steps -> ∀ step ∈ steps, step.Small) ∧
          (ReadsAs pointerStr steps -> pointerStr = pointerTo steps) := by
  intro json pointerStr
  by_cases empty : pointerStr = []
  · subst empty
    refine iff_of_true (resolves_nil json) fun steps value _ _ => ⟨fun same => ?_, ?_⟩
    · rw [not_not.mp fun some_ => pointerTo_ne_nil some_ same.symm]
      exact nofun
    · rintro ⟨_, _, split, some_, -⟩
      exact absurd (List.cons.inj split).2.symm some_
  have someSteps {steps : List Step} (same : pointerStr = pointerTo steps) : steps ≠ [] := by
    rintro rfl
    exact empty same
  constructor
  · intro resolves steps value located proper
    constructor
    · intro same
      rcases (handleJsonPtr_eq empty proper).mp (resolves.found steps value same located) with
        ⟨found, reads, isFound⟩
      exact ((readsAs_pointerTo (someSteps same) located isFound).mp (same ▸ reads)).2
    · intro reads
      have handled := (handleJsonPtr_eq empty proper).mpr ⟨steps, reads, located⟩
      by_contra differs
      have none : ∀ found, pointerStr = pointerTo found -> json.locate found = none := by
        intro found same
        cases isFound : json.locate found with
        | none => rfl
        | some other =>
          have read := (readsAs_pointerTo (someSteps same) isFound located).mp (same ▸ reads)
          exact absurd (read.1 ▸ same) differs
      exact proper (handled.symm.trans (resolves.absent none))
  · intro condition
    constructor
    · intro steps value same located
      by_cases proper : value = .discarded
      · subst proper
        by_contra differs
        rcases (handleJsonPtr_eq empty differs).mp rfl with ⟨found, reads, isFound⟩
        have isPointer := (condition found _ isFound differs).2 reads
        cases pointerTo_inj located isFound (same.symm.trans isPointer)
        exact differs (Option.some.inj (isFound.symm.trans located))
      · have small := (condition steps value located proper).1 same
        refine (handleJsonPtr_eq empty proper).mpr ⟨steps, ?_, located⟩
        exact same ▸ (readsAs_pointerTo (someSteps same) located located).mpr ⟨rfl, small⟩
    · intro none
      by_contra differs
      rcases (handleJsonPtr_eq empty differs).mp rfl with ⟨found, reads, isFound⟩
      cases (none found ((condition found _ isFound differs).2 reads)).symm.trans isFound

/-- What is in front of the first slash does not matter to the code. -/
theorem not_resolves_noslash :
    ¬ Resolves (.object [(text "foo", .boolean true)]) (text "noslash/foo") := by
  intro resolves
  have split : strSplit '/' (text "noslash/foo") = [text "noslash", text "foo"] := by decide +kernel
  have none : ∀ steps, text "noslash/foo" = pointerTo steps ->
      locate (.object [(text "foo", .boolean true)]) steps = none := by
    intro steps same
    have pieces := strSplit_pointerTo steps
    rw [<- same] at pieces
    exact absurd (List.cons.inj pieces).1 (by decide)
  have handled : handleJsonPtr (.object [(text "foo", .boolean true)]) (text "noslash/foo") =
      .boolean true := by
    rfl
  cases handled.symm.trans (resolves.absent none)

end Ecclesia.Json
