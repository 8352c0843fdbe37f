import LvglForest.Proofs.Value.Display
import LvglForest.Proofs.Widget.Exchange
import LvglForest.Service

/-!
# Where reading ends unanswered

For most that can be wrong with the widgets of a document an answer is worded. Reading ends without
one in two places only: at an infinite coordinate, and at an anchor that is a record or has only one
item (`Widget.endsUnanswered_iff`). Reading goes from front to back and from a widget to those below
it, so such a place counts only where nothing before it ends reading (`Tree.endsUnanswered_iff`,
`Screen.endsUnanswered_iff`).
-/

namespace LvglForest

/-- Something ends in a fault for which no answer is worded. -/
def EndsUnanswered {α : Type} (r : Except Fault α) : Prop :=
  ∃ f, r = .error f ∧ Service.isInvalidTree f = false

section Steps

variable {α β : Type}

theorem not_endsUnanswered_ok (a : α) : ¬ EndsUnanswered (.ok a) := fun ⟨_, h, _⟩ => nomatch h

theorem not_endsUnanswered_pure (a : α) : ¬ EndsUnanswered (pure a) := not_endsUnanswered_ok a

theorem not_endsUnanswered_error {f : Fault} (h : Service.isInvalidTree f = true) :
    ¬ EndsUnanswered (.error f : Except Fault α) := by
  rintro ⟨_, ⟨⟩, hf⟩
  exact absurd (h.symm.trans hf) (by decide)

/-- Two steps end in the first one or in the second. -/
theorem endsUnanswered_bind {x : Except Fault α} {g : α → Except Fault β} :
    EndsUnanswered (x >>= g) ↔ EndsUnanswered x ∨ ∃ a, x = .ok a ∧ EndsUnanswered (g a) := by
  cases x with
  | ok a =>
    constructor
    · exact fun h => .inr ⟨a, rfl, h⟩
    · rintro (h | ⟨_, ⟨⟩, h⟩)
      · exact absurd h (not_endsUnanswered_ok a)
      · exact h
  | error f =>
    constructor
    · rintro ⟨_, ⟨⟩, h⟩
      exact .inl ⟨f, rfl, h⟩
    · rintro (⟨_, ⟨⟩, h⟩ | ⟨_, ⟨⟩, _⟩)
      exact ⟨f, rfl, h⟩

theorem endsUnanswered_bind_of_not {x : Except Fault α} {g : α → Except Fault β}
    (hx : ¬ EndsUnanswered x) :
    EndsUnanswered (x >>= g) ↔ ∃ a, x = .ok a ∧ EndsUnanswered (g a) := by
  rw [endsUnanswered_bind, or_iff_right hx]

end Steps

/-! ## Parts of a widget's record -/

namespace Table

/-- A table without a key. -/
def without (key : Text) (table : Table Value) : Table Value := table.filter (·.1 ≠ key)

theorem get?_without {key k : Text} (h : k ≠ key) (table : Table Value) :
    (table.without key).get? k = table.get? k := by
  induction table with
  | nil => rfl
  | cons e table ih =>
    unfold without
    by_cases he : e.1 = key
    · rw [List.filter_cons_of_neg (by simpa using he), get?, if_neg (he ▸ h.symm)]
      exact ih
    · rw [List.filter_cons_of_pos (by simpa using he), get?, get?]
      exact if_congr Iff.rfl rfl ih

theorem get?_without_self (key : Text) (table : Table Value) :
    (table.without key).get? key = none := by
  cases h : (table.without key).get? key with
  | none => rfl
  | some v =>
    have hmem := (List.mem_filter.1 (mem_of_get? h)).2
    simp at hmem

end Table

theorem Decimal.not_endsUnanswered_read (t : Text) : ¬ EndsUnanswered (Decimal.read t) := by
  unfold read
  simp only
  split
  · exact not_endsUnanswered_ok _
  · exact not_endsUnanswered_error rfl
  · exact not_endsUnanswered_error rfl

namespace Value

/-- An infinite float. -/
def IsInfinite (v : Value) : Prop := ∃ negative, v = .real (.infinity negative)

/-- An anchor that is given and has no second item: one item, one character, or a record. -/
inductive IsShort : Value → Prop where
  | list (v : Value) : IsShort (.list [v])
  | text (p : CodePoint) : IsShort (.text [p])
  | record {fs : Table Value} (h : fs ≠ []) : IsShort (.record fs)

theorem IsShort.isTrue {v : Value} (h : v.IsShort) : v.isTrue = true := by
  cases h with
  | list v => rfl
  | text p => rfl
  | record h => simpa [Value.isTrue] using h

theorem not_endsUnanswered_display (v : Value) : ¬ EndsUnanswered v.display := by
  rintro ⟨f, hf, hunanswered⟩
  rw [display_fault hf] at hunanswered
  exact absurd hunanswered (by decide)

theorem exists_field_iff {v : Value} {name : Text} :
    (∃ u, v.field name = .ok u) ↔ ∃ fs, v = .record fs := by
  cases v with
  | record fs => exact iff_of_true ⟨_, rfl⟩ ⟨fs, rfl⟩
  | _ => exact iff_of_false not_exists_ok (by simp)

theorem not_endsUnanswered_field (v : Value) (name : Text) : ¬ EndsUnanswered (v.field name) := by
  cases v with
  | record fs => exact not_endsUnanswered_ok _
  | _ => exact not_endsUnanswered_error rfl

theorem endsUnanswered_toCoordinate_iff {v : Value} :
    EndsUnanswered v.toCoordinate ↔ v.IsInfinite := by
  have hanswered {w : Value} {r : Except Fault Int} (hr : ¬ EndsUnanswered r)
      (hw : ∀ b, w ≠ .real (.infinity b)) : EndsUnanswered r ↔ w.IsInfinite :=
    iff_of_false hr fun ⟨b, hb⟩ => hw b hb
  fun_cases toCoordinate v with
  | case4 => exact hanswered (not_endsUnanswered_error rfl) (by simp)
  | case5 negative => exact iff_of_true ⟨.infinite, rfl, rfl⟩ ⟨negative, rfl⟩
  | case6 x _ hx => exact hanswered (not_endsUnanswered_ok _) fun b hb => hx b (Value.real.inj hb)
  | case8 t => exact hanswered (Decimal.not_endsUnanswered_read t) (by simp)
  | case10 => exact hanswered (not_endsUnanswered_error rfl) (by simp)
  | case12 => exact hanswered (not_endsUnanswered_error rfl) (by simp)
  | _ => exact hanswered (not_endsUnanswered_ok _) (by simp)

theorem not_endsUnanswered_checkHashable (v : Value) : ¬ EndsUnanswered v.checkHashable := by
  cases v with
  | list vs | record fs => exact not_endsUnanswered_error rfl
  | _ => exact not_endsUnanswered_ok _

/-- A given anchor has two items unless it is short. -/
theorem endsUnanswered_items_iff {v : Value} (h : v.isTrue = true) :
    (EndsUnanswered (v.item 0) ∨ ∃ u, v.item 0 = .ok u ∧ EndsUnanswered (v.item 1)) ↔
      v.IsShort := by
  cases v with
  | list vs =>
    match vs with
    | [] => cases h
    | [v] => exact iff_of_true (.inr ⟨v, rfl, .noIndex .list, rfl, rfl⟩) (.list v)
    | v :: w :: vs =>
      refine iff_of_false ?_ fun h => nomatch h
      rintro (⟨_, ⟨⟩, _⟩ | ⟨_, _, _, ⟨⟩, _⟩)
  | text t =>
    match t with
    | [] => cases h
    | [p] => exact iff_of_true (.inr ⟨.text [p], rfl, .noIndex .text, rfl, rfl⟩) (.text p)
    | p :: q :: t =>
      refine iff_of_false ?_ fun h => nomatch h
      rintro (⟨_, ⟨⟩, _⟩ | ⟨_, _, _, ⟨⟩, _⟩)
  | record fs =>
    refine iff_of_true (.inl ⟨.noKey 0, rfl, rfl⟩) (.record ?_)
    rintro rfl
    cases h
  | null | truth b | integer n | real x =>
    refine iff_of_false ?_ fun h => nomatch h
    rintro (⟨_, ⟨⟩, h⟩ | ⟨_, ⟨⟩, _⟩)
    cases h

end Value

theorem Styles.not_endsUnanswered_ofFields (s : Styles) (fs : List (Text × Value)) :
    ¬ EndsUnanswered (s.ofFields fs) := by
  induction fs generalizing s with
  | nil => exact not_endsUnanswered_ok _
  | cons f fs ih =>
    rw [ofFields]
    split
    · exact ih s
    · split
      · next g hg =>
        rintro ⟨_, ⟨⟩, hf⟩
        exact Value.not_endsUnanswered_display _ ⟨_, hg, hf⟩
      · exact ih _

theorem Styles.not_endsUnanswered_ofValue (v : Value) : ¬ EndsUnanswered (Styles.ofValue v) := by
  cases v with
  | record fs => exact Styles.not_endsUnanswered_ofFields _ _
  | _ => exact not_endsUnanswered_error rfl

theorem Size.not_endsUnanswered_ofValue (v : Value) : ¬ EndsUnanswered (Size.ofValue v) := by
  rintro ⟨f, hf, hunanswered⟩
  unfold ofValue at hf
  split at hf
  · cases hf
  · cases hf
  · cases hf
  · exact Value.not_endsUnanswered_display _ ⟨f, Fault.eq_error_of_map hf, hunanswered⟩

/-! ## One widget -/

namespace Widget

/-- What an anchor makes of a widget. It counts only if no alignment is given. -/
def anchored (anchor : Value) (w : Widget) : Except Fault Widget :=
  if w.align.isNull && anchor.isTrue then do
    let horizontal ← anchor.item 0
    let vertical ← anchor.item 1
    horizontal.checkHashable
    vertical.checkHashable
    return w.setAnchor horizontal vertical
  else return w

/-- The anchor is looked at last. -/
theorem ofFields_eq_anchored (fs : Table Value) :
    ofFields fs =
      ofFields (fs.without "anchor") >>= anchored ((fs.get? "anchor").getD .null) := by
  have hget (name : Text) (h : name ≠ "anchor") := Table.get?_without h fs
  unfold ofFields
  simp only [hget "properties" (by decide), hget "size" (by decide), hget "position" (by decide),
    hget "styles" (by decide), hget "kind" (by decide), hget "identifier" (by decide),
    hget "parent_identifier" (by decide), Table.get?_without_self, bind_assoc, Option.getD_none,
    Value.isTrue, Bool.and_false, Bool.false_eq_true, if_false, pure_bind]
  rfl

theorem endsUnanswered_anchored_iff {anchor : Value} {w : Widget} :
    EndsUnanswered (anchored anchor w) ↔ w.align.isNull = true ∧ anchor.IsShort := by
  unfold anchored
  split
  · next h =>
    rw [Bool.and_eq_true] at h
    rw [and_iff_right h.1, ← Value.endsUnanswered_items_iff h.2]
    simp only [endsUnanswered_bind, Value.not_endsUnanswered_checkHashable,
      not_endsUnanswered_pure, and_false, exists_false, or_false]
  · next h =>
    refine iff_of_false (not_endsUnanswered_ok w) fun ⟨halign, hshort⟩ => h ?_
    rw [halign, Bool.true_and]
    exact hshort.isTrue

/-- The part of a widget's record that is given under a name. A part that is not given is empty. -/
def part (name : Text) (fs : Table Value) : Value :=
  ((fs.get? name).getD .null).orElse (.record [])

theorem part_without {name key : Text} (h : name ≠ key) (fs : Table Value) :
    part name (fs.without key) = part name fs := by
  rw [part, Table.get?_without h, part]

/-- A coordinate is infinite, and nothing before it ends reading. -/
def HasInfinitePlace (fs : Table Value) : Prop :=
  (∃ gs, part "properties" fs = .record gs) ∧
    (∃ styles, Styles.ofValue (part "styles" fs) = .ok styles) ∧
      ∃ x, (part "position" fs).field "x" = .ok x ∧
        (x.IsInfinite ∨ ∃ n, x.toCoordinate = .ok n ∧
          ∃ y, (part "position" fs).field "y" = .ok y ∧ y.IsInfinite)

/-- The place is looked at before the anchor. -/
theorem endsUnanswered_iff_hasInfinitePlace {fs : Table Value} (h : fs.get? "anchor" = none) :
    EndsUnanswered (ofFields fs) ↔ HasInfinitePlace fs := by
  unfold ofFields HasInfinitePlace part
  simp only [h, endsUnanswered_bind_of_not (Value.not_endsUnanswered_field _ _),
    endsUnanswered_bind_of_not (Styles.not_endsUnanswered_ofValue _),
    endsUnanswered_bind_of_not (Size.not_endsUnanswered_ofValue _),
    endsUnanswered_bind (x := Value.toCoordinate _), Value.endsUnanswered_toCoordinate_iff,
    Option.getD_none, Value.isTrue, Bool.and_false, Bool.false_eq_true, if_false,
    not_endsUnanswered_pure, and_false, exists_false, or_false, exists_and_right,
    Value.exists_field_iff, and_self_left]

/-- Reading ends at a part of a widget's record for which no answer is worded: an infinite
coordinate, or a short anchor of a widget that is read without it and has no alignment. -/
def EndsReading (fs : Table Value) : Prop :=
  HasInfinitePlace fs ∨ ∃ w, ofFields (fs.without "anchor") = .ok w ∧ w.align.isNull = true ∧
    ((fs.get? "anchor").getD .null).IsShort

/-- **The record of a widget ends reading unanswered** at its place or at its anchor. -/
theorem endsUnanswered_iff (fs : Table Value) : EndsUnanswered (ofFields fs) ↔ EndsReading fs := by
  have hplace := endsUnanswered_iff_hasInfinitePlace (fs.get?_without_self "anchor")
  rw [HasInfinitePlace, part_without (by decide), part_without (by decide),
    part_without (by decide), ← HasInfinitePlace] at hplace
  rw [ofFields_eq_anchored, endsUnanswered_bind, hplace, EndsReading]
  simp only [endsUnanswered_anchored_iff]

end Widget

/-! ## Values one after the other -/

section Lists

variable {α : Type} {ends : Value → Prop} {v : Value} {vs : List Value}

/-- The values before one at which reading ends are read. -/
def EndsAt (readAll : List Value → Except Fault (List α)) (ends : Value → Prop)
    (vs : List Value) : Prop :=
  ∃ before v after ts, vs = before ++ v :: after ∧ readAll before = .ok ts ∧ ends v

theorem not_endsAt_nil (readAll : List Value → Except Fault (List α)) (ends : Value → Prop) :
    ¬ EndsAt readAll ends [] := by
  rintro ⟨before, v, after, ts, h, -⟩
  exact absurd h.symm (by simp)

variable {read : Value → Except Fault α} {readAll : List Value → Except Fault (List α)}
  (hcons : ∀ v vs, readAll (v :: vs) = do
    let t ← read v
    let ts ← readAll vs
    return t :: ts)
include hcons

theorem endsAt_cons (hnil : readAll [] = .ok []) : EndsAt readAll ends (v :: vs) ↔
    ends v ∨ ∃ t, read v = .ok t ∧ EndsAt readAll ends vs := by
  constructor
  · rintro ⟨before, u, after, ts, hvs, hbefore, hends⟩
    cases before with
    | nil =>
      cases hvs
      exact .inl hends
    | cons w before =>
      cases hvs
      rw [hcons] at hbefore
      obtain ⟨t, ht, hbefore⟩ := exists_of_bind_eq_ok hbefore
      obtain ⟨us, hus, -⟩ := exists_of_bind_eq_ok hbefore
      exact .inr ⟨t, ht, before, u, after, us, rfl, hus, hends⟩
  · rintro (hends | ⟨t, ht, before, u, after, ts, rfl, hbefore, hends⟩)
    · exact ⟨[], v, vs, [], rfl, hnil, hends⟩
    · refine ⟨v :: before, u, after, t :: ts, rfl, ?_, hends⟩
      rw [hcons, ht, hbefore]
      rfl

theorem endsUnanswered_cons : EndsUnanswered (readAll (v :: vs)) ↔
    EndsUnanswered (read v) ∨ ∃ t, read v = .ok t ∧ EndsUnanswered (readAll vs) := by
  simp only [hcons, endsUnanswered_bind, not_endsUnanswered_pure, and_false, exists_false, or_false]

end Lists

/-! ## Widgets and screens -/

/-- Reading ends at the record of a widget, or at one below it. -/
inductive Tree.EndsReading : Value → Prop where
  | here {fs : Table Value} (h : Widget.EndsReading fs) : EndsReading (.record fs)
  | child {fs : Table Value} {w : Widget} {before after : List Value} {v : Value}
      {ts : Forest Widget} (hw : Widget.ofFields fs = .ok w)
      (hchildren : fs.get? "children" = some (.list (before ++ v :: after)))
      (hbefore : Forest.ofValues before = .ok ts) (h : EndsReading v) : EndsReading (.record fs)

/-- Reading ends at the record of a widget among those in a field. -/
def Forest.EndsReading (name : Text) (fs : Table Value) : Prop :=
  ∃ vs, fs.get? name = some (.list vs) ∧ EndsAt Forest.ofValues Tree.EndsReading vs

theorem Tree.endsReading_record_iff {fs : Table Value} : EndsReading (.record fs) ↔
    Widget.EndsReading fs ∨
      ∃ w, Widget.ofFields fs = .ok w ∧ Forest.EndsReading "children" fs := by
  constructor
  · rintro (h | ⟨hw, hchildren, hbefore, h⟩)
    · exact .inl h
    · exact .inr ⟨_, hw, _, hchildren, _, _, _, _, rfl, hbefore, h⟩
  · rintro (h | ⟨w, hw, _, hchildren, before, v, after, ts, rfl, hbefore, h⟩)
    · exact .here h
    · exact .child hw hchildren hbefore h

theorem Forest.not_endsUnanswered_ofItems {v : Value} (hv : ∀ vs, v ≠ .list vs) :
    ¬ EndsUnanswered (Forest.ofItems v) := by
  unfold Forest.ofItems
  split
  · exact absurd rfl (hv _)
  · exact not_endsUnanswered_error rfl
  · exact not_endsUnanswered_error rfl
  · split
    · exact not_endsUnanswered_error rfl
    · exact not_endsUnanswered_ok _

theorem Forest.ofValues_cons (v : Value) (vs : List Value) : Forest.ofValues (v :: vs) = (do
    let t ← Tree.ofValue v
    let ts ← Forest.ofValues vs
    return t :: ts) := by
  rw [Forest.ofValues]

mutual

/-- **A widget of a document ends reading unanswered** at its record or at one below it. -/
theorem Tree.endsUnanswered_iff : ∀ v : Value,
    EndsUnanswered (Tree.ofValue v) ↔ Tree.EndsReading v
  | .record fs => by
    rw [Tree.ofValue, Tree.endsReading_record_iff]
    simp only [endsUnanswered_bind, Widget.endsUnanswered_iff, not_endsUnanswered_pure, and_false,
      exists_false, or_false, Forest.endsUnanswered_ofField_iff "children" fs]
  | .null | .truth _ | .integer _ | .real _ | .text _ | .list _ =>
    iff_of_false (not_endsUnanswered_error rfl) fun h => nomatch h

theorem Forest.endsUnanswered_ofField_iff (name : Text) : ∀ fs : List (Text × Value),
    EndsUnanswered (Forest.ofField name fs) ↔ Forest.EndsReading name fs
  | [] => iff_of_false (not_endsUnanswered_ok _) fun ⟨_, h, _⟩ => nomatch h
  | (k, v) :: fs => by
    rw [Forest.ofField, Forest.EndsReading, Table.get?]
    split
    · rw [Forest.endsUnanswered_ofItems_iff v]
      simp only [Option.some.injEq]
    · exact Forest.endsUnanswered_ofField_iff name fs

theorem Forest.endsUnanswered_ofItems_iff : ∀ v : Value,
    EndsUnanswered (Forest.ofItems v) ↔
      ∃ vs, v = .list vs ∧ EndsAt Forest.ofValues Tree.EndsReading vs
  | .list vs => by
    rw [Forest.ofItems, Forest.endsUnanswered_ofValues_iff vs]
    simp only [Value.list.injEq, exists_eq_left']
  | .null | .truth _ | .integer _ | .real _ | .text _ | .record _ =>
    iff_of_false (Forest.not_endsUnanswered_ofItems (by simp)) fun ⟨_, h, _⟩ => nomatch h

theorem Forest.endsUnanswered_ofValues_iff : ∀ vs : List Value,
    EndsUnanswered (Forest.ofValues vs) ↔ EndsAt Forest.ofValues Tree.EndsReading vs
  | [] => iff_of_false (not_endsUnanswered_ok _) (not_endsAt_nil _ _)
  | v :: vs => by
    rw [endsAt_cons Forest.ofValues_cons rfl, endsUnanswered_cons Forest.ofValues_cons,
      Tree.endsUnanswered_iff v, Forest.endsUnanswered_ofValues_iff vs]

end

namespace Screen

/-- Reading ends at a widget of a screen. -/
def EndsReading (v : Value) : Prop := ∃ fs, v = .record fs ∧ Forest.EndsReading "widgets" fs

theorem ofValues_cons (v : Value) (vs : List Value) : ofValues (v :: vs) = (do
    let s ← ofValue v
    let ss ← ofValues vs
    return s :: ss) := by
  rw [ofValues]

theorem endsUnanswered_ofValue_iff (v : Value) : EndsUnanswered (ofValue v) ↔ EndsReading v := by
  cases v with
  | record fs =>
    rw [ofValue, EndsReading]
    simp only [endsUnanswered_bind, Forest.endsUnanswered_ofField_iff, not_endsUnanswered_pure,
      and_false, exists_false, or_false, Value.record.injEq, exists_eq_left']
  | _ =>
    refine iff_of_false (not_endsUnanswered_error rfl) ?_
    rintro ⟨fs, h, -⟩
    cases h

/-- **Screens of a document end reading unanswered** at a widget of one of them, if all before it is
read. -/
theorem endsUnanswered_iff (vs : List Value) :
    EndsUnanswered (ofValues vs) ↔ EndsAt ofValues EndsReading vs := by
  induction vs with
  | nil => exact iff_of_false (not_endsUnanswered_ok _) (not_endsAt_nil _ _)
  | cons v vs ih =>
    rw [endsAt_cons ofValues_cons rfl, endsUnanswered_cons ofValues_cons,
      endsUnanswered_ofValue_iff v, ih]

end Screen

end LvglForest
