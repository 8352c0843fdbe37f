import LvglForest.Hierarchy.Attachment

/-!
# Climbing along parents

Whether an identifier may be hung under another one can also be found out without looking into
trees. The parents under which identifiers were hung are kept in a table, and from the new parent
one climbs along this table until the identifier is met or one that was not hung. A climb that runs
in a circle would never end, so the looks at identifiers are counted, and a climb that takes more
looks than there are identifiers has no result.
-/

namespace LvglForest.Attachment

/-- Climbs from an identifier with at most a number of looks. The result is whether another
identifier is met on the way. -/
def climb (parents : Table Text) (id : Text) : Nat → Text → Option Bool
  | 0, _ => none
  | looks + 1, current =>
    if current = id then some true
    else
      match parents.get? current with
      | none => some false
      | some parent => climb parents id looks parent

/-- Identifiers that are being hung, and the parents of those that were. -/
structure Hanging where
  forest : Forest Text
  parents : Table Text := []

/-- Hangs one identifier under the parent that its reference names, if that one was created and the
climb from there does not meet the identifier. -/
def turn (entries : Table Entry) (s : Hanging) (id : Text) (reference : Value) : Option Hanging :=
  match reference with
  | .text parent =>
    if entries.has parent then
      (climb s.parents id entries.length parent).map fun met =>
        match met, s.forest.rooted? id with
        | false, some tree =>
          { forest := Forest.graft parent tree (s.forest.without id)
            parents := s.parents.put id parent }
        | _, _ => s
    else some s
  | _ => some s

/-- Hangs identifiers one after the other. -/
def turns (entries : Table Entry) : Hanging → List (Text × Entry) → Option Hanging
  | s, [] => some s
  | s, (id, e) :: rest => (turn entries s id e.parent).bind fun s => turns entries s rest

end LvglForest.Attachment
