import LvglForest.Source.Operand
import LvglForest.Widget.Size
import LvglForest.Widget.Style
import LvglForest.Proofs.Decimal
import LvglForest.Proofs.Fault
import LvglForest.Proofs.Source.Comment
import LvglForest.Proofs.Source.Pattern
import LvglForest.Proofs.Widget.Style

/-!
# Arguments read back

What is written for a number, a size or a style is a token (`IsToken`): a word, perhaps with a minus
sign or an address operator before it, or with a call around it that makes a percentage or a colour.
Tokens are arguments in every respect: they are taken apart as they were put together, stay in their
line and are no comments.

Each of them is read back as what it was written for: an integer and an expression
(`Value.IsOperand.exists_token`), a size (`Size.IsStated.exists_token`) and the value of a style
(`StyleKey.ofSource_toSource`).
-/

namespace LvglForest

namespace Arguments

/-- What is written for an argument that is no literal. -/
inductive IsToken : Text → Prop
  | word {t : Text} (ht : t.IsWord) : IsToken t
  | marked {p : CodePoint} {t : Text} (hp : p = .char '-' ∨ p = .char '&') (ht : t.IsWord) :
      IsToken (p :: t)
  | wrapped {f t : Text} (hf : f = "LV_PCT" ∨ f = "lv_color_hex") (ht : IsToken t) :
      IsToken (f ++ .char '(' :: t ++ [.char ')'])

namespace IsToken

theorem isWord_wrapper {f : Text} (hf : f = "LV_PCT" ∨ f = "lv_color_hex") : f.IsWord := by
  rcases hf with rfl | rfl <;> exact .ofList (by decide)

theorem nested {t : Text} (h : IsToken t) : Nested false t := by
  induction h with
  | word ht => exact .of_isWord ht
  | marked hp ht =>
    rcases hp with rfl | rfl <;> exact .plain rfl (.inr (by decide)) (.of_isWord ht)
  | wrapped hf _ ih =>
    rw [List.append_assoc]
    exact (Nested.of_isWord (isWord_wrapper hf)).append (.group ih.allow .nil)

theorem isArgument {t : Text} (h : IsToken t) : IsArgument t := by
  refine ⟨?_, ?_, h.nested⟩
  · cases h with
    | word ht => exact ht.ne_nil
    | marked _ _ => exact List.cons_ne_nil _ _
    | wrapped _ _ => simp
  · cases h with
    | word ht => exact ht.isTrimmed
    | @marked p t hp ht =>
      have hblank : p.isBlank = false := by rcases hp with rfl | rfl <;> rfl
      refine .of_all ?_
      rw [List.forall_mem_cons]
      exact ⟨hblank, fun q hq => CodePoint.isBlank_of_isWord (ht.all q hq)⟩
    | @wrapped f t hf _ =>
      obtain ⟨p, f, rfl⟩ := List.exists_cons_of_ne_nil (isWord_wrapper hf).ne_nil
      have hp := CodePoint.isBlank_of_isWord ((isWord_wrapper hf).all p List.mem_cons_self)
      exact .wrap hp rfl (f ++ .char '(' :: t)

theorem inLine {t : Text} (h : IsToken t) : t.InLine := by
  induction h with
  | word ht => exact ht.inLine
  | @marked p t hp ht =>
    have hmark : Text.InLine [p] := by rcases hp with rfl | rfl <;> decide
    exact hmark.append ht.inLine
  | @wrapped f t hf _ ih =>
    have hopen : Text.InLine [.char '('] := by decide
    have hclose : Text.InLine [.char ')'] := by decide
    exact ((isWord_wrapper hf).inLine.append (hopen.append ih)).append hclose

theorem kept {t : Text} (h : IsToken t) : Comment.Kept t := by
  induction h with
  | word ht => exact .of_isWord ht
  | @marked p t hp ht =>
    have hmark : Comment.Kept [p] := .of_isInert (by rcases hp with rfl | rfl <;> decide)
    exact hmark.append (.of_isWord ht)
  | @wrapped f t hf _ ih =>
    have hopen : Comment.Kept [.char '('] := .of_isInert (by decide)
    have hclose : Comment.Kept [.char ')'] := .of_isInert (by decide)
    exact ((Comment.Kept.of_isWord (isWord_wrapper hf)).append (hopen.append ih)).append hclose

theorem passedBy {pattern : CallPattern} (hpercent : pattern.Rejects "LV_PCT")
    (hcolor : pattern.Rejects "lv_color_hex") {t : Text} (h : IsToken t) :
    pattern.PassedBy t := by
  induction h with
  | word ht => exact .of_isWord ht
  | marked hp ht => rcases hp with rfl | rfl <;> exact .cons rfl (.of_isWord ht)
  | @wrapped f t hf _ ih =>
    have hrej : pattern.Rejects f := by rcases hf with rfl | rfl <;> assumption
    exact .call (isWord_wrapper hf) hrej ih

/-- What is written for an integer. -/
theorem ofInt (n : Int) : IsToken (Decimal.ofInt n) := by
  cases n with
  | ofNat n => exact .word (Decimal.isWord_ofNat n)
  | negSucc n => exact .marked (.inl rfl) (Decimal.isWord_ofNat (n + 1))

/-- No parenthesis stands in what is written for an integer. -/
theorem not_mem_ofInt (n : Int) : .char '(' ∉ Decimal.ofInt n := by
  cases n with
  | ofNat n => exact (Decimal.isWord_ofNat n).not_mem rfl
  | negSucc n =>
    rw [Decimal.ofInt, List.mem_cons, not_or]
    exact ⟨by decide, (Decimal.isWord_ofNat (n + 1)).not_mem rfl⟩

end IsToken

end Arguments

open Arguments

/-! ## Numbers -/

/-- A number or an expression that is read back: an integer, or a word that is no integer. -/
def Value.IsOperand : Value → Prop
  | .integer n => Decimal.Converts n
  | .text t => t.IsWord ∧ Operand.ofSource t = .token t
  | _ => False

theorem Operand.ofSource_ofInt {n : Int} (h : Decimal.Converts n) :
    ofSource (Decimal.ofInt n) = .integer n := by
  rw [ofSource, Text.strip_eq_self (IsToken.ofInt n).isArgument.trimmed, Decimal.read_ofInt h]

/-- An operand is written as a token without parentheses and read back. -/
theorem Value.IsOperand.exists_token {v : Value} (h : v.IsOperand) :
    ∃ t, v.display = .ok t ∧ IsToken t ∧ .char '(' ∉ t ∧ (Operand.ofSource t).toValue = v := by
  cases v with
  | integer n =>
    refine ⟨Decimal.ofInt n, Decimal.write_of_converts h, .ofInt n, IsToken.not_mem_ofInt n, ?_⟩
    rw [Operand.ofSource_ofInt h]
    rfl
  | text t => exact ⟨t, rfl, .word h.1, h.1.not_mem rfl, by rw [h.2]; rfl⟩
  | _ => exact h.elim

theorem Value.IsOperand.isNull_eq_false {v : Value} (h : v.IsOperand) : v.isNull = false := by
  cases v with
  | null => exact h.elim
  | _ => rfl

/-! ## Sizes -/

/-- A size that was set and is read back: pixels, a percentage or an expression. -/
def Size.IsStated : Size → Prop
  | .plain v => v.IsOperand ∧ v.isText "auto" = false
  | .percent (.integer n) => Decimal.Converts n
  | .percent _ => False

namespace Size

/-- What source gives for a size. -/
theorem ofSource_cases {t : Text} {s : Size} (h : ofSource t = .ok s) :
    s = auto ∨ (∃ n, Decimal.Converts n ∧ s = .percent (.integer n)) ∨
      s = .plain (Operand.ofSource t.strip).toValue := by
  unfold ofSource at h
  simp only at h
  split at h
  · cases h
    exact .inl rfl
  · split at h
    · next digits _ =>
      obtain ⟨n, hread, rfl⟩ := exists_of_map_eq_ok h
      exact .inr (.inl ⟨n, Decimal.converts_of_read hread, rfl⟩)
    · cases h
      exact .inr (.inr rfl)

theorem percentArgument?_of_not_mem {t : Text} (h : .char '(' ∉ t) : percentArgument? t = none := by
  unfold percentArgument?
  split
  · rfl
  · next r hr =>
    split
    · next s hs => exact absurd (Text.mem_of_isPrefixOf? hr hs) h
    · rfl

theorem takeWhile_isDecimal (n : Nat) :
    (Decimal.ofNat n ++ [CodePoint.char ')']).takeWhile CodePoint.isDecimal = Decimal.ofNat n ∧
      (Decimal.ofNat n ++ [CodePoint.char ')']).dropWhile CodePoint.isDecimal = [.char ')'] := by
  have hall : ∀ p ∈ Decimal.ofNat n, p.isDecimal = true := by
    intro p hp
    obtain ⟨c, hc, rfl⟩ := Decimal.mem_ofNat hp
    rw [CodePoint.isDecimal, (Decimal.digit_char hc).1]
    rfl
  rw [List.takeWhile_append_of_pos hall, List.dropWhile_append_of_pos hall]
  exact ⟨List.append_nil _, rfl⟩

/-- The number inside a percentage is found with its sign. -/
theorem percentArgument?_ofInt (n : Int) :
    percentArgument? (("LV_PCT" : Text) ++ .char '(' :: Decimal.ofInt n ++ [.char ')']) =
      some (Decimal.ofInt n) := by
  have hname : ("LV_PCT" : Text).isPrefixOf?
      (("LV_PCT" : Text) ++ .char '(' :: Decimal.ofInt n ++ [.char ')']) =
        some (.char '(' :: Decimal.ofInt n ++ [.char ')']) := by
    rw [List.isPrefixOf?_eq_some_iff_append_eq, List.append_assoc]
  have hopen : Text.stripStart (.char '(' :: Decimal.ofInt n ++ [.char ')']) =
      .char '(' :: (Decimal.ofInt n ++ [.char ')']) := rfl
  have hinner : Text.stripStart (Decimal.ofInt n ++ [.char ')']) =
      Decimal.ofInt n ++ [.char ')'] := by
    refine Text.stripStart_of_head fun p hp => ?_
    have htoken := (IsToken.ofInt n).isArgument
    obtain ⟨q, t, hq⟩ := List.exists_cons_of_ne_nil htoken.ne_nil
    rw [hq, List.cons_append, List.head?_cons, Option.some.injEq] at hp
    subst hp
    exact htoken.trimmed.head q (by rw [hq]; rfl)
  have hclose : Text.stripStart [.char ')'] = [.char ')'] := rfl
  have hdigits (m : Nat) : (Decimal.ofNat m).isEmpty = false := by
    simpa using (Decimal.isWord_ofNat m).ne_nil
  unfold percentArgument?
  simp only [hname, hopen, hinner]
  cases n with
  | ofNat n =>
    obtain ⟨htake, hdrop⟩ := takeWhile_isDecimal n
    have hsign : (Decimal.ofInt (.ofNat n) ++ [CodePoint.char ')']).head? ≠ some (.char '-') := by
      obtain ⟨p, t, hp⟩ := List.exists_cons_of_ne_nil (Decimal.isWord_ofNat n).ne_nil
      show (Decimal.ofNat n ++ [CodePoint.char ')']).head? ≠ some (.char '-')
      rw [hp]
      rintro ⟨⟩
      cases (Decimal.isWord_ofNat n).all (.char '-') (by simp [hp])
    rw [if_neg hsign]
    simp [Decimal.ofInt, htake, hdrop, hclose, hdigits]
  | negSucc n =>
    obtain ⟨htake, hdrop⟩ := takeWhile_isDecimal (n + 1)
    have hsign : (Decimal.ofInt (.negSucc n) ++ [CodePoint.char ')']).head? = some (.char '-') := rfl
    rw [if_pos hsign]
    simp [Decimal.ofInt, htake, hdrop, hclose, hdigits]

/-- A size that was set is written as a token and read back. -/
theorem IsStated.exists_token {s : Size} (h : s.IsStated) :
    s.isAuto = false ∧ ∃ t, s.toSource = .ok t ∧ IsToken t ∧ ofSource t = .ok s := by
  cases s with
  | plain v =>
    obtain ⟨t, hdisplay, htoken, hparen, hread⟩ := h.1.exists_token
    refine ⟨h.2, t, hdisplay, htoken, ?_⟩
    have hne : t.isEmpty = false := by simpa using htoken.isArgument.ne_nil
    rw [ofSource, Text.strip_eq_self htoken.isArgument.trimmed]
    simp only [hne, percentArgument?_of_not_mem hparen, hread, Bool.false_eq_true, if_false]
  | percent v =>
    cases v with
    | integer n =>
      have htoken : IsToken (("LV_PCT" : Text) ++ .char '(' :: Decimal.ofInt n ++ [.char ')']) :=
        .wrapped (.inl rfl) (.ofInt n)
      refine ⟨rfl, _, ?_, htoken, ?_⟩
      · have hdisplay : (Value.integer n).display = .ok (Decimal.ofInt n) :=
          Decimal.write_of_converts h
        rw [toSource, hdisplay]
        rfl
      · have hne : List.isEmpty
            (("LV_PCT" : Text) ++ .char '(' :: Decimal.ofInt n ++ [.char ')']) = false := by
          simp
        rw [ofSource, Text.strip_eq_self htoken.isArgument.trimmed]
        simp only [hne, percentArgument?_ofInt, Decimal.read_ofInt h, Bool.false_eq_true, if_false]
        rfl
    | _ => exact h.elim

end Size

/-! ## Styles -/

namespace Color

theorem hexArgument?_of_not_mem {t : Text} (h : .char '(' ∉ t) : hexArgument? t = none := by
  unfold hexArgument?
  split
  · rfl
  · next r hr =>
    split
    · next s hs => exact absurd (Text.mem_of_isPrefixOf? hr hs) h
    · rfl

theorem hexArgument?_wrapped {t : Text} (h : isHex t = true) :
    hexArgument? (("lv_color_hex" : Text) ++ .char '(' :: t ++ [.char ')']) = some t := by
  obtain ⟨digits, rfl, hne, hall⟩ : ∃ digits, t = .char '0' :: .char 'x' :: digits ∧
      digits.isEmpty = false ∧ digits.all CodePoint.isHexDigit = true := by
    unfold isHex at h
    split at h
    · next digits =>
      rw [Bool.and_eq_true, Bool.not_eq_true'] at h
      exact ⟨digits, rfl, h⟩
    · cases h
  have hname : ("lv_color_hex" : Text).isPrefixOf? (("lv_color_hex" : Text) ++
      .char '(' :: (.char '0' :: .char 'x' :: digits) ++ [.char ')']) =
        some (.char '(' :: .char '0' :: .char 'x' :: (digits ++ [.char ')'])) := by
    rw [List.isPrefixOf?_eq_some_iff_append_eq, List.append_assoc]
    rfl
  have hopen (r : Text) : Text.stripStart (.char '(' :: r) = .char '(' :: r := rfl
  have hzero (r : Text) : Text.stripStart (.char '0' :: r) = .char '0' :: r := rfl
  have hclose : Text.stripStart [.char ')'] = [.char ')'] := rfl
  have hparen : (CodePoint.char ')').isHexDigit = false := rfl
  rw [List.all_eq_true] at hall
  unfold hexArgument?
  simp only [hname, hopen, hzero, List.takeWhile_append_of_pos hall,
    List.dropWhile_append_of_pos hall]
  simp [hparen, hclose, hne]

/-- A colour is written as a token and read back. -/
theorem ofSource_toSource {t : Text} (ht : t.IsWord) :
    IsToken (toSource t) ∧ ofSource (toSource t) = t := by
  have hnewline : t.dropFinalNewline = t := by
    rw [Text.dropFinalNewline, if_neg]
    intro hlast
    exact ht.not_mem rfl (List.mem_of_getLast? hlast)
  have htoken : IsToken t := .word ht
  unfold toSource
  rw [hnewline]
  split
  · next hhex =>
    have hwrapped : IsToken (("lv_color_hex" : Text) ++ .char '(' :: t ++ [.char ')']) :=
      .wrapped (.inr rfl) htoken
    have hopen : ("lv_color_hex(" : Text) = ("lv_color_hex" : Text) ++ [.char '('] := by
      decide +kernel
    have htext : ("lv_color_hex(" : Text) ++ t ++ (")" : Text) =
        ("lv_color_hex" : Text) ++ .char '(' :: t ++ [.char ')'] := by
      rw [hopen, List.append_assoc ("lv_color_hex" : Text)]
      rfl
    rw [htext]
    refine ⟨hwrapped, ?_⟩
    rw [ofSource, Text.strip_eq_self hwrapped.isArgument.trimmed, hexArgument?_wrapped hhex]
    rfl
  · refine ⟨htoken, ?_⟩
    rw [ofSource, Text.strip_eq_self ht.isTrimmed, hexArgument?_of_not_mem (ht.not_mem rfl)]
    rfl

end Color

/-- The value of a known style is written as a token and read back. -/
theorem StyleKey.ofSource_toSource (k : StyleKey) {t : Text} (ht : t.IsWord) :
    IsToken (k.toSource t) ∧ k.ofSource (k.toSource t) = t := by
  cases k with
  | bgColor => exact Color.ofSource_toSource ht
  | textColor => exact Color.ofSource_toSource ht
  | textFont =>
    have hhead : t.head? ≠ some (.char '&') := fun h => ht.not_mem rfl (List.mem_of_head? h)
    rw [toSource, if_neg hhead, ofSource]
    exact ⟨.marked (.inr rfl) ht, Text.strip_eq_self ht.isTrimmed⟩
  | radius => exact ⟨.word ht, rfl⟩
  | borderOpa => exact ⟨.word ht, rfl⟩

end LvglForest
