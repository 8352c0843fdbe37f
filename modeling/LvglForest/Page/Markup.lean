import LvglForest.Text.Basic

/-!
# Markup

A page as a tree of elements. Text and the values of attributes are escaped where the tree is
written, so that only the elements of the tree make tags.
-/

namespace LvglForest

/-- A part of a page. -/
inductive Markup where
  /-- Text, which is escaped. -/
  | text (t : Text)
  /-- An element that holds nothing and is not closed. -/
  | void (tag : Text) (attributes : List (Text × Text))
  /-- An element with what is in it. -/
  | element (tag : Text) (attributes : List (Text × Text)) (children : List Markup)
  /-- A style sheet, which is written as it is. -/
  | sheet (t : Text)

namespace Markup

/-- A code point in escaped text: the five characters that have a meaning in markup become
references. -/
def escapePoint : CodePoint → Text
  | .char '&' => "&amp;"
  | .char '<' => "&lt;"
  | .char '>' => "&gt;"
  | .char '"' => "&#34;"
  | .char '\'' => "&#39;"
  | p => [p]

/-- Escaped text. -/
def escape (t : Text) : Text := t.flatMap escapePoint

/-- The attributes of an element as they are written. -/
def attributesText (attributes : List (Text × Text)) : Text :=
  attributes.flatMap fun (name, value) => " " ++ name ++ "=\"" ++ escape value ++ "\""

mutual

/-- A part of a page as it is written. -/
def write : Markup → Text
  | .text t => escape t
  | .void tag attributes => "<" ++ tag ++ attributesText attributes ++ ">"
  | .element tag attributes children =>
    "<" ++ tag ++ attributesText attributes ++ ">" ++ writeAll children ++ "</" ++ tag ++ ">"
  | .sheet t => "<style>" ++ t ++ "</style>"

/-- Parts of a page one after the other. -/
def writeAll : List Markup → Text
  | [] => []
  | m :: ms => write m ++ writeAll ms

end

end Markup

end LvglForest
