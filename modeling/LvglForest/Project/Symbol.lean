import LvglForest.Decimal.Digits
import LvglForest.Text.Blank
import LvglForest.Text.Digit
import LvglForest.Text.Word
import LvglForest.Value.Basic

/-!
# Symbols

The name of a screen as a name in source and as a file name: every character that belongs to no
word becomes an underscore, a name of nothing becomes `screen`, and an underscore is put before a
digit at the start. Where the symbol is taken already, the first free number from two on is added.
-/

namespace LvglForest.Symbol

/-- The symbol of a name. -/
def ofName (name : Text) : Text :=
  match name.strip.map fun p => if p.isWord then p else .char '_' with
  | [] => "screen"
  | p :: t => if p.isDigit then .char '_' :: p :: t else p :: t

/-- The symbol of a name that must be a text. -/
def ofValue : Value → Except Fault Text
  | .text name => .ok (ofName name)
  | v => .error (.noMember v.shape.name "strip")

/-- A symbol with a number. -/
def numbered (symbol : Text) (n : Nat) : Text := symbol ++ "_" ++ Decimal.ofNat n

/-- The first of a symbol and its numbered forms that is not used. Among one more of them than there
are used symbols there is always one. -/
def free (used : List Text) (symbol : Text) : Text :=
  if symbol ∉ used then symbol
  else
    let candidates := (List.range (used.length + 1)).map fun k => numbered symbol (k + 2)
    (candidates.find? (· ∉ used)).getD symbol

end LvglForest.Symbol
