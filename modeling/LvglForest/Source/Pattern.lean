import LvglForest.Source.Arguments
import LvglForest.Text.Word

/-!
# Call patterns

Calls are found in a line by their names alone. A pattern describes the name of the called
function, a whole word followed by an opening parenthesis, and may ask for a variable that the call
is assigned to. The first place where the pattern fits counts, and the groups of the match are the
parts of the name (and the variable) that the pattern leaves open.
-/

namespace LvglForest

/-- The names a pattern accepts. -/
inductive NamePattern where
  /-- One name. -/
  | exactly (name : Text)
  /-- At least one character between the given ends. -/
  | between (first last : Text)
  /-- A beginning and one of the listed endings. -/
  | oneOf (first : Text) (endings : List Text)
  /-- A beginning and at least one character more. -/
  | startingWith (first : Text)

/-- The open part of a name, if the pattern accepts it. -/
def NamePattern.groups? : NamePattern → Text → Option (List Text)
  | .exactly name, w => if w = name then some [] else none
  | .between first last, w =>
    if first.isPrefixOf w && last.isSuffixOf w && first.length + last.length < w.length then
      some [(w.drop first.length).take (w.length - first.length - last.length)]
    else none
  | .oneOf first endings, w =>
    match first.isPrefixOf? w with
    | some r => if endings.contains r then some [r] else none
    | none => none
  | .startingWith first, w =>
    match first.isPrefixOf? w with
    | some r => if r.isEmpty then none else some [r]
    | none => none

/-- What a pattern looks for. -/
inductive CallPattern where
  /-- A call of a function. -/
  | call (name : NamePattern)
  /-- A call whose result is assigned to a variable. -/
  | assignedCall (name : NamePattern)

/-- A place where a pattern fits: the matched text without the parenthesis, the groups, and the rest
of the line from the opening parenthesis on. -/
structure CallSite where
  name : Text
  groups : List Text
  rest : Text

namespace CallPattern

/-- A named call at the start of a text. -/
def callAt? (name : NamePattern) (t : Text) : Option CallSite :=
  let w := t.takeWhile CodePoint.isWord
  let r := t.dropWhile CodePoint.isWord
  match name.groups? w with
  | none => none
  | some groups =>
    let r := r.dropWhile CodePoint.isBlank
    if r.head? = some (.char '(') then some ⟨w, groups, r⟩ else none

/-- The pattern fits at the start of a text, where a word begins. -/
def siteAt? : CallPattern → Text → Option CallSite
  | .call name, t => callAt? name t
  | .assignedCall name, t =>
    let target := t.takeWhile CodePoint.isWord
    let before := t.dropWhile CodePoint.isWord
    match before.dropWhile CodePoint.isBlank with
    | .char '=' :: afterSign =>
      let called := afterSign.dropWhile CodePoint.isBlank
      match callAt? name called with
      | none => none
      | some site =>
        let matched := t.take (t.length - called.length) ++ site.name
        some ⟨matched, target :: site.groups, site.rest⟩
    | _ => none

/-- The first place in a text where the pattern fits. The flag says whether a word goes on at the
start of the text. -/
def search? (pattern : CallPattern) : Bool → Text → Option CallSite
  | _, [] => none
  | inWord, p :: t =>
    if p.isWord ∧ ¬ inWord then
      match siteAt? pattern (p :: t) with
      | some site => some site
      | none => search? pattern true t
    else search? pattern p.isWord t

end CallPattern

/-- A call found in a line. -/
structure Call where
  name : Text
  groups : List Text
  arguments : List Text

/-- The first call in a line that a pattern describes. There is none if the parentheses of that call
are not closed in the line. -/
def CallPattern.find? (pattern : CallPattern) (line : Text) : Option Call :=
  match pattern.search? false line with
  | none => none
  | some site =>
    (Arguments.capture site.rest).map fun inner =>
      ⟨site.name, site.groups, Arguments.split inner⟩

end LvglForest
