import LvglForest.Proofs.Decimal
import LvglForest.Proofs.Disk.Path
import LvglForest.Source.Literal

/-!
# What texts are made of

Whether a text can be written somewhere is a question of its code points one by one. Such a question
goes through all ways in which texts are put together (`Text.madeOf_join`, `Text.madeOf_splitOn`),
and ASCII never decides it, or at least the printable part of it does not (`HoldsOfPrintable`). In
a literal the kept bytes are written in ASCII too, so that only the other code points of the text
count (`Literal.madeOf_encode`).
-/

namespace LvglForest

/-- A property that all ASCII characters have. -/
def HoldsOfAscii (P : CodePoint → Prop) : Prop := ∀ p : CodePoint, p.value < 0x80 → P p

/-- A property that all ASCII characters have but perhaps the control characters. -/
def HoldsOfPrintable (P : CodePoint → Prop) : Prop :=
  ∀ p : CodePoint, 0x20 ≤ p.value → p.value < 0x7F → P p

theorem HoldsOfAscii.printable {P : CodePoint → Prop} (h : HoldsOfAscii P) : HoldsOfPrintable P :=
  fun p _ hp => h p (by omega)

namespace Text

/-- All code points of a text have a property. -/
def MadeOf (P : CodePoint → Prop) (t : Text) : Prop := ∀ p ∈ t, P p

variable {P Q : CodePoint → Prop}

@[simp]
theorem madeOf_nil : MadeOf P [] := fun _ hp => absurd hp List.not_mem_nil

@[simp]
theorem madeOf_cons {p : CodePoint} {t : Text} : MadeOf P (p :: t) ↔ P p ∧ t.MadeOf P :=
  List.forall_mem_cons

@[simp]
theorem madeOf_append {s t : Text} : MadeOf P (s ++ t) ↔ s.MadeOf P ∧ t.MadeOf P :=
  List.forall_mem_append

theorem MadeOf.imp {t : Text} (h : t.MadeOf P) (hPQ : ∀ p, P p → Q p) : t.MadeOf Q :=
  fun p hp => hPQ p (h p hp)

/-- A part of a text is made of what the text is made of. -/
theorem MadeOf.of_subset {s t : Text} (h : t.MadeOf P) (hst : s ⊆ t) : s.MadeOf P :=
  fun p hp => h p (hst hp)

theorem madeOf_flatMap {α : Type} {f : α → Text} {xs : List α} :
    MadeOf P (xs.flatMap f) ↔ ∀ x ∈ xs, (f x).MadeOf P := by
  constructor
  · exact fun h x hx p hp => h p (List.mem_flatMap.2 ⟨x, hx, hp⟩)
  · rintro h p hp
    obtain ⟨x, hx, hp⟩ := List.mem_flatMap.1 hp
    exact h x hx p hp

theorem madeOf_join {sep : Text} (hsep : sep.MadeOf P) {ts : List Text} :
    (join sep ts).MadeOf P ↔ ∀ t ∈ ts, t.MadeOf P := by
  induction ts with
  | nil => simp [join]
  | cons t ts ih =>
    cases ts with
    | nil => simp [join]
    | cons u ts =>
      rw [join, madeOf_append, madeOf_append, ih, and_iff_left hsep, List.forall_mem_cons (a := t)]

theorem madeOf_splitOn {sep : CodePoint} (hsep : P sep) {t : Text} :
    (∀ part ∈ splitOn sep t, part.MadeOf P) ↔ t.MadeOf P := by
  constructor
  · intro h p hp
    by_cases hne : p = sep
    · exact hne ▸ hsep
    · obtain ⟨part, hpart, hmem⟩ := exists_mem_splitOn hp hne
      exact h part hpart p hmem
  · intro h
    induction t with
    | nil => simp [splitOn]
    | cons p t ih =>
      rw [madeOf_cons] at h
      have hrest := ih h.2
      rw [splitOn]
      split
      · exact List.forall_mem_cons.2 ⟨madeOf_nil, hrest⟩
      · split
        · simpa using h.1
        · next part parts hparts =>
          rw [hparts, List.forall_mem_cons] at hrest
          exact List.forall_mem_cons.2 ⟨madeOf_cons.2 ⟨h.1, hrest.1⟩, hrest.2⟩

/-! ## ASCII -/

section Ascii

variable (hP : HoldsOfAscii P)
include hP

theorem madeOf_of_ascii {t : Text} (h : ∀ p ∈ t, p.value < 0x80) : t.MadeOf P :=
  fun p hp => hP p (h p hp)

/-- A text of ASCII characters does not count. -/
theorem madeOf_ascii_iff {t : Text} (h : ∀ p ∈ t, p.value < 0x80) : t.MadeOf P ↔ True :=
  iff_true_intro (madeOf_of_ascii hP h)

end Ascii

section Printable

variable (hP : HoldsOfPrintable P)
include hP

theorem madeOf_of_printable {t : Text} (h : ∀ p ∈ t, 0x20 ≤ p.value ∧ p.value < 0x7F) :
    t.MadeOf P :=
  fun p hp => hP p (h p hp).1 (h p hp).2

/-- A text of printable characters does not count. -/
theorem madeOf_printable_iff {t : Text} (h : ∀ p ∈ t, 0x20 ≤ p.value ∧ p.value < 0x7F) :
    t.MadeOf P ↔ True :=
  iff_true_intro (madeOf_of_printable hP h)

theorem madeOf_decimal (n : Nat) : (Decimal.ofNat n).MadeOf P := by
  refine madeOf_of_printable hP fun p hp => ?_
  obtain ⟨c, hdigit, rfl⟩ := Decimal.mem_ofNat hp
  simp only [Char.isDigit, Bool.and_eq_true, decide_eq_true_eq, UInt32.le_iff_toNat_le] at hdigit
  have hlow : 48 ≤ c.val.toNat := hdigit.1
  have hhigh : c.val.toNat ≤ 57 := hdigit.2
  have hvalue : (CodePoint.char c).value = c.val.toNat := rfl
  omega

end Printable

end Text

/-- The last part of a path is made of what the path is made of. -/
theorem Path.madeOf_name {P : CodePoint → Prop} (hslash : P (.char '/')) {t : Text}
    (h : t.MadeOf P) : (ofText t).name.MadeOf P := by
  rw [name]
  cases hlast : (ofText t).parts.getLast? with
  | none => exact Text.madeOf_nil
  | some part =>
    have hpart := List.mem_of_mem_filter (List.mem_of_getLast? hlast)
    exact (Text.madeOf_splitOn hslash).2 h part hpart

/-! ## Words -/

/-- No surrogate belongs to a word. -/
theorem CodePoint.isSurrogate_of_isWord {p : CodePoint} (h : p.isWord = true) :
    p.isSurrogate = false := by
  have houtside : ∀ r ∈ wideAlphanumericRanges, r.2 < 0xD800 ∨ 0xE000 ≤ r.1 := by decide +kernel
  cases p with
  | char c => rfl
  | surrogate n =>
    have hn := n.isLt
    have hvalue : (surrogate n).value = 0xD800 + n.val := rfl
    rw [isWord, Bool.or_eq_true, decide_eq_true_eq] at h
    rcases h with h | h
    · cases h
    rw [isAlphanumeric, hvalue, if_neg (by omega), Ranges.contains, List.any_eq_true] at h
    obtain ⟨r, hr, hin⟩ := h
    simp only [Bool.and_eq_true, decide_eq_true_eq] at hin
    have hoff := houtside r hr
    omega

/-! ## Literals -/

/-- A code point that keeps a byte. -/
def CodePoint.KeepsByte (p : CodePoint) : Prop := p.strayByte?.isSome = true

theorem CodePoint.keepsByte_iff {p : CodePoint} :
    p.KeepsByte ↔ 0xDC80 ≤ p.value ∧ p.value ≤ 0xDCFF := by
  cases p with
  | char c =>
    have hvalid : c.toNat < 0xD800 ∨ 0xDFFF < c.toNat ∧ c.toNat < 0x110000 := c.valid
    simp only [KeepsByte, strayByte?, value, Option.isSome_none, Bool.false_eq_true, false_iff]
    omega
  | surrogate n =>
    simp only [KeepsByte, strayByte?, value]
    split
    · simp only [Option.isSome_some, true_iff]
      omega
    · simp only [Option.isSome_none, Bool.false_eq_true, false_iff]
      omega

namespace Literal

variable {P : CodePoint → Prop} (hP : HoldsOfAscii P)
include hP

theorem madeOf_octalEscape (n : Nat) : (octalEscape n).MadeOf P := by
  have hdigit : ∀ m < 8, (CodePoint.char (Char.ofNat (48 + m))).value < 0x80 := by decide
  refine Text.madeOf_of_ascii hP ?_
  simp only [octalEscape, List.forall_mem_cons]
  exact ⟨by decide, hdigit _ (by omega), hdigit _ (by omega), hdigit _ (by omega), by simp⟩

theorem madeOf_encodePoint (p : CodePoint) : (encodePoint p).MadeOf P ↔ p.KeepsByte ∨ P p := by
  have hself (h : p.value < 0x80) {t : Text} (ht : t.MadeOf P) : t.MadeOf P ↔ p.KeepsByte ∨ P p :=
    iff_of_true ht (.inr (hP p h))
  unfold encodePoint
  split
  · next hp =>
    have hvalue : p.value < 0x80 := by rcases hp with rfl | rfl <;> decide
    exact hself hvalue (Text.madeOf_cons.2 ⟨hP _ (by decide), by simpa using hP p hvalue⟩)
  split
  · next hp => exact hself (hp ▸ by decide) (Text.madeOf_of_ascii hP (by decide))
  split
  · next hp => exact hself (hp ▸ by decide) (Text.madeOf_of_ascii hP (by decide))
  split
  · next hp => exact hself (hp ▸ by decide) (Text.madeOf_of_ascii hP (by decide))
  split
  · next hp => exact iff_of_true (madeOf_octalEscape hP _) (.inl (CodePoint.keepsByte_iff.2 hp))
  next hkept =>
  split
  · next hp => exact hself (by omega) (madeOf_octalEscape hP _)
  · rw [← CodePoint.keepsByte_iff] at hkept
    simp [hkept]

/-- **The literal of a text** is made of what the text is made of, but for the kept bytes. -/
theorem madeOf_encode (t : Text) : (encode t).MadeOf P ↔ ∀ p ∈ t, p.KeepsByte ∨ P p := by
  have hquote : P (.char '"') := hP _ (by decide)
  rw [encode, List.cons_append, Text.madeOf_cons, Text.madeOf_append, encodeBody,
    Text.madeOf_flatMap]
  simp [hquote, madeOf_encodePoint hP]

end Literal

end LvglForest
