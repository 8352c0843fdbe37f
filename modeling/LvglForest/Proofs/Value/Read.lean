import LvglForest.Proofs.Table
import LvglForest.Proofs.Value.Display
import LvglForest.Value.Bytes

/-!
# The values that are read

Integers of too many digits are no values of the notation, and floats are bounded, so whatever is
read can be shown (`Value.converts_of_ofBytes?`). The induction is on the fuel, which the reading of
a value, of items and of fields share (`Value.ReadsConverting`).
-/

namespace LvglForest.Value

theorem converts_of_digits {t : Text} (ht : ∀ p ∈ t, isAsciiDigit p = true)
    (hlength : t.length ≤ Decimal.digitLimit) (negative : Bool) :
    Decimal.Converts (if negative then -(digitsValue t : Int) else digitsValue t) := by
  have hdigits : ∀ d ∈ t.map (·.value - 0x30), d < 10 := by
    intro d hd
    obtain ⟨p, hp, rfl⟩ := List.mem_map.1 hd
    have hp := ht p hp
    simp only [isAsciiDigit, Bool.and_eq_true, decide_eq_true_eq] at hp
    omega
  have hlt : digitsValue t < 10 ^ Decimal.digitLimit := by
    refine Nat.lt_of_lt_of_le (Decimal.ofDigits_lt hdigits) ?_
    rw [List.length_map]
    exact Nat.pow_le_pow_right (by decide) hlength
  refine Decimal.converts_of_lt ?_
  split
  · rwa [Int.natAbs_neg, Int.natAbs_natCast]
  · rwa [Int.natAbs_natCast]

/-! ## What reading gives -/

/-- What is read, if anything is, has a property. -/
def Gives {α : Type} (P : α → Prop) (r : Option (α × Text)) : Prop := ∀ x ∈ r, P x.1

section Gives

variable {α β : Type} {P : α → Prop} {Q : β → Prop}

theorem gives_none : Gives P none := fun _ h => nomatch h

theorem gives_some {x : α} {r : Text} (h : P x) : Gives P (some (x, r)) := by
  rintro _ ⟨⟩
  exact h

theorem Gives.map {r : Option (α × Text)} (h : Gives P r) {g : α × Text → β × Text}
    (hg : ∀ x, P x.1 → Q (g x).1) : Gives Q (r.map g) := by
  intro y hy
  obtain ⟨x, hx, rfl⟩ := Option.map_eq_some_iff.1 hy
  exact hg x (h x hx)

theorem gives_true (r : Option (α × Text)) : Gives (fun _ => True) r := fun _ _ => trivial

end Gives

theorem gives_readNumber? (negative : Bool) (t : Text) :
    Gives Converts (readNumber? negative t) := by
  fun_cases readNumber? negative t with
  | case1 => exact gives_none
  | case2 => exact gives_none
  | case3 whole _ _ _ _ _ _ _ _ hlength =>
    refine gives_some (converts_of_digits ?_ (Nat.le_of_not_lt hlength) negative)
    unfold whole
    split
    · decide
    · exact fun p hp => List.mem_takeWhile_imp hp
  | case4 => exact gives_some (Binary64.converts_ofDecimal negative _ _)

/-- A field that converts is put to fields that do. -/
theorem fieldsConvert_put {fs : Table Value} {name : Text} {v : Value} (hfs : FieldsConvert fs)
    (hv : v.Converts) : FieldsConvert (fs.put name v) := by
  rw [fieldsConvert_iff] at hfs ⊢
  exact Table.forall_mem_put hfs hv

/-- With some fuel, only what converts is read. -/
structure ReadsConverting (fuel : Nat) : Prop where
  value : ∀ t, Gives Converts (readValue? fuel t)
  items : ∀ t, Gives ItemsConvert (readItems? fuel t)
  fields : ∀ fs t, FieldsConvert fs → Gives FieldsConvert (readFields? fuel fs t)

section Step

variable {n fuel : Nat} (hn : n = fuel + 1) (h : ReadsConverting fuel)
include hn h

theorem gives_readValue? (t : Text) : Gives Converts (readValue? n t) := by
  fun_cases readValue? n t with
  | case1 => exact gives_none
  | case2 => exact (gives_true _).map fun _ _ => trivial
  | case3 => exact gives_some trivial
  | case4 =>
    cases hn
    exact (h.items _).map fun _ hx => hx
  | case5 => exact gives_some trivial
  | case6 =>
    cases hn
    exact (h.fields [] _ trivial).map fun _ hx => hx
  | case7 => exact gives_some trivial
  | case8 => exact gives_some trivial
  | case9 => exact gives_some trivial
  | case10 => exact gives_some (Binary64.converts_infinity true)
  | case11 => exact gives_readNumber? true _
  | case12 => exact gives_some Binary64.converts_nan
  | case13 => exact gives_some (Binary64.converts_infinity false)
  | case14 => exact gives_readNumber? false _

theorem gives_readItems? (t : Text) : Gives ItemsConvert (readItems? n t) := by
  fun_cases readItems? n t with
  | case3 fuel _ v r hv r' =>
    cases hn
    exact (h.items r').map fun _ hx => ⟨h.value _ _ hv, hx⟩
  | case4 fuel _ v r hv r' =>
    cases hn
    exact gives_some ⟨h.value _ _ hv, trivial⟩
  | _ => exact gives_none

theorem gives_readFields? {fs : Table Value} (hfs : FieldsConvert fs) (t : Text) :
    Gives FieldsConvert (readFields? n fs t) := by
  fun_cases readFields? n fs t with
  | case4 fuel _ _ _ _ name _ _ _ _ v _ hv =>
    cases hn
    exact h.fields _ _ (fieldsConvert_put hfs (h.value _ _ hv))
  | case5 fuel _ _ _ _ name _ _ _ _ v _ hv =>
    cases hn
    exact gives_some (fieldsConvert_put hfs (h.value _ _ hv))
  | _ => exact gives_none

end Step

theorem readsConverting : ∀ fuel, ReadsConverting fuel
  | 0 => ⟨fun _ => gives_none, fun _ => gives_none, fun _ _ _ => gives_none⟩
  | fuel + 1 =>
    have h := readsConverting fuel
    ⟨gives_readValue? rfl h, gives_readItems? rfl h, fun _ t hfs => gives_readFields? rfl h hfs t⟩

/-- **Whatever is read can be shown.** -/
theorem converts_of_ofBytes? {bytes : List UInt8} {v : Value} (h : ofBytes? bytes = some v) :
    v.Converts := by
  obtain ⟨t, -, hread⟩ := Option.bind_eq_some_iff.1 h
  unfold read? at hread
  split at hread
  · next v' r hv =>
    split at hread
    · cases hread
      exact (readsConverting _).value _ _ hv
    · cases hread
  · cases hread

end LvglForest.Value
