import LvglForest.Proofs.Hierarchy.Setting
import LvglForest.Proofs.Source.Numeral

/-!
# Integer literals of widgets

The sizes, values and ranges of the widgets of a source text are set by integer literals, among other
expressions. What is emitted for them again denotes the same numbers, except where a literal is taken
for a decimal one that it is not (`ParsedFile.numerals_kept_iff`).
-/

namespace LvglForest

open Extraction Recognizer

namespace Numeral

/-- A text denotes the same as a literal unless the literal is misread. -/
def Keeps (t u : Text) : Prop := ∀ n, Signed t n → (Signed u n ↔ ¬ IsMisread t n)

/-- A text is a percentage of the same as a literal unless the literal is misread. -/
def KeepsPercent (t u : Text) : Prop :=
  ∀ lit n, IsPercentOf t lit → Signed lit n →
    ((∃ lit', IsPercentOf u lit' ∧ Signed lit' n) ↔ ¬ IsMisread lit n)

theorem keeps_of_operand {t u : Text} (h : (Operand.ofSource t).toValue.display = .ok u) :
    Keeps t u := by
  intro n hn
  obtain ⟨u', hu', hiff⟩ := hn.operand_iff
  cases h.symm.trans hu'
  exact hiff

theorem keeps_of_size {t u : Text} {s : Size} (h : Size.ofSource t = .ok s)
    (hu : s.toSource = .ok u) : Keeps t u := by
  intro n hn
  cases hn.size_eq.symm.trans h
  exact keeps_of_operand hu n hn

theorem keepsPercent_of_size {t u : Text} {s : Size} (h : Size.ofSource t = .ok s)
    (hu : s.toSource = .ok u) : KeepsPercent t u := by
  intro lit n hlit hn
  obtain ⟨u', hu', hiff⟩ := (hn.percent_iff hlit).2 s h
  cases hu.symm.trans hu'
  exact hiff

end Numeral

open Numeral

/-- The sizes, values and ranges that are set of a widget are emitted, and the setters say what is
said in a source text, but for misread literals. -/
structure Widget.KeepsNumerals (source : Text) (w : Widget) : Prop where
  exists_size : w.width.isAuto = false → w.height.isAuto = false → ∀ d id parent,
    ∃ args, .ok (.statement (.call "lv_obj_set_size" args)) ∈ w.emissions d id parent
  size : ∀ d id parent args,
    .ok (.statement (.call "lv_obj_set_size" args)) ∈ w.emissions d id parent →
      ∃ call t u t' u', Finds source sizePattern call ∧ call.arguments = [w.name, t, u] ∧
        args = [id, t', u'] ∧ (Keeps t t' ∧ KeepsPercent t t') ∧ Keeps u u' ∧ KeepsPercent u u'
  exists_value : ∀ k : Kind, Kind.ofValue? w.kind = some k → k.hasValue = true →
    w.value.isNull = false → ∀ d id parent,
      ∃ args, .ok (.statement (.call (("lv_" : Text) ++ k.sourceName ++ "_set_value") args)) ∈
        w.emissions d id parent
  value : ∀ (k : Kind) d id parent args,
    .ok (.statement (.call (("lv_" : Text) ++ k.sourceName ++ "_set_value") args)) ∈
        w.emissions d id parent →
      ∃ call t rest t' more, Finds source valuePattern call ∧
        call.arguments = w.name :: t :: rest ∧ args = id :: t' :: more ∧ Keeps t t'
  exists_range : ∀ k : Kind, Kind.ofValue? w.kind = some k → k.hasValue = true →
    w.rangeMin.isNull = false → w.rangeMax.isNull = false → ∀ d id parent,
      ∃ args, .ok (.statement (.call (("lv_" : Text) ++ k.sourceName ++ "_set_range") args)) ∈
        w.emissions d id parent
  range : ∀ (k : Kind) d id parent args,
    .ok (.statement (.call (("lv_" : Text) ++ k.sourceName ++ "_set_range") args)) ∈
        w.emissions d id parent →
      ∃ call t u t' u', Finds source rangePattern call ∧ call.arguments = [w.name, t, u] ∧
        args = [id, t', u'] ∧ Keeps t t' ∧ Keeps u u'

theorem Widget.IsSetIn.keepsNumerals {source : Text} {w : Widget} (h : w.IsSetIn source) :
    w.KeepsNumerals source where
  exists_size hwidth hheight d id parent := by
    rcases h.size with hauto | ⟨-, t, u, -, -, ht, hu⟩
    · rw [(Prod.mk.inj hauto).1] at hwidth
      cases hwidth
    · obtain ⟨t', ht', -⟩ := Size.exists_spelling ht
      obtain ⟨u', hu', -⟩ := Size.exists_spelling hu
      exact ⟨_, Widget.call_mem_emissions_iff.2 (.size hwidth hheight ht' hu')⟩
  size d id parent args hcall := by
    obtain ⟨call, t, u, t', u', hfound, harguments, rfl, ht, hu, ht', hu'⟩ :=
      h.of_size (Widget.call_mem_emissions_iff.1 hcall)
    exact ⟨call, t, u, t', u', hfound, harguments, rfl,
      ⟨keeps_of_size ht ht', keepsPercent_of_size ht ht'⟩,
      keeps_of_size hu hu', keepsPercent_of_size hu hu'⟩
  exists_value k hkind hhas hset d id parent := by
    rcases h.value with hnull | ⟨-, t, -, -, -, ht⟩
    · rw [hnull] at hset
      cases hset
    · obtain ⟨t', ht', -⟩ := Operand.exists_spelling t
      exact ⟨_, Widget.call_mem_emissions_iff.2 (.value hkind hhas hset (ht ▸ ht'))⟩
  value k d id parent args hcall := by
    obtain ⟨call, t, rest, t', more, hfound, harguments, rfl, ht, ht'⟩ :=
      h.of_value (Widget.call_mem_emissions_iff.1 hcall)
    exact ⟨call, t, rest, t', more, hfound, harguments, rfl, keeps_of_operand (ht ▸ ht')⟩
  exists_range k hkind hhas hmin hmax d id parent := by
    rcases h.range with hnull | ⟨-, t, u, -, -, ht, hu⟩
    · rw [(Prod.mk.inj hnull).1] at hmin
      cases hmin
    · obtain ⟨t', ht', -⟩ := Operand.exists_spelling t
      obtain ⟨u', hu', -⟩ := Operand.exists_spelling u
      exact ⟨_, Widget.call_mem_emissions_iff.2
        (.range hkind hhas hmin hmax (ht ▸ ht') (hu ▸ hu'))⟩
  range k d id parent args hcall := by
    obtain ⟨call, t, u, t', u', hfound, harguments, rfl, ht, hu, ht', hu'⟩ :=
      h.of_range (Widget.call_mem_emissions_iff.1 hcall)
    exact ⟨call, t, u, t', u', hfound, harguments, rfl, keeps_of_operand (ht ▸ ht'),
      keeps_of_operand (hu ▸ hu')⟩

/-- **What becomes of the integer literals of a source text.** For a literal, and for a percentage of
one, a text is written that denotes the same number exactly if the literal is not misread: if it is
not one of octal digits alone that denotes a number from eight on. A percentage of a literal is read
unless the literal has digits alone and too many of them to be converted. Setters of sizes, values
and ranges that are found in a line first give facts about their widgets, the widgets have what the
last of these facts says, and what is emitted for them denotes what stands in the source, but for the
misread literals. -/
theorem ParsedFile.numerals_kept_iff (placeholders file : Value) (source : Text) :
    (∀ t n, Signed t n →
      Size.ofSource t = .ok (.plain (Operand.ofSource t).toValue) ∧
      ∃ u, (Operand.ofSource t).toValue.display = .ok u ∧ (Signed u n ↔ ¬ IsMisread t n)) ∧
    (∀ t lit n, IsPercentOf t lit → Signed lit n →
      ((∃ s, Size.ofSource t = .ok s) ↔
        ¬ (IsPlain lit ∧ Decimal.digitLimit < (unsigned lit).length)) ∧
      ∀ s, Size.ofSource t = .ok s → ∃ u, s.toSource = .ok u ∧
        ((∃ lit', IsPercentOf u lit' ∧ Signed lit' n) ↔ ¬ IsMisread lit n)) ∧
    (∀ line number call id t u rest, id.isIdentifier = true →
      (∀ width height, sizePattern.find? line = some call → call.arguments = [id, t, u] →
        Size.ofSource t = .ok width → Size.ofSource u = .ok height →
        (∀ q ∈ [text], q.find? line number = none) →
          ⟨id, .integer number, .size width height⟩ ∈ factsOf .standard line number) ∧
      (valuePattern.find? line = some call → call.arguments = id :: t :: rest →
        (∀ q ∈ [text, size], q.find? line number = none) →
          ⟨id, .integer number, .value (Operand.ofSource t).toValue⟩ ∈
            factsOf .standard line number) ∧
      (rangePattern.find? line = some call → call.arguments = [id, t, u] →
        (∀ q ∈ [text, size, value], q.find? line number = none) →
          ⟨id, .integer number, .range (Operand.ofSource t).toValue (Operand.ofSource u).toValue⟩ ∈
            factsOf .standard line number)) ∧
    ∀ w ∈ Forest.toList (ofSource placeholders file source).widgets,
      w.IsToldBy file (Fact.own w.name (facts .standard source)) ∧ w.KeepsNumerals source := by
  refine ⟨fun t n h => ⟨h.size_eq, h.operand_iff⟩, fun t lit n ht h => h.percent_iff ht,
    fun line number call id t u rest hid => ⟨?_, ?_, ?_⟩, fun w hw => ?_⟩
  · intro width height hcall harguments ht hu hbefore
    exact size_mem_factsOf hid hcall harguments ht hu hbefore
  · intro hcall harguments hbefore
    exact value_mem_factsOf hid hcall harguments hbefore
  · intro hcall harguments hbefore
    exact range_mem_factsOf hid hcall harguments hbefore
  · exact ⟨isToldBy_of_mem_widgets hw, (isSetIn_of_mem_widgets hw).keepsNumerals⟩

/-- A hexadecimal width beside a percentage of a negative number with blanks around it. -/
theorem ParsedFile.numerals_kept_iff_hexadecimal :
    let source : Text := "b = lv_bar_create(p);\nlv_obj_set_size(b, 0x10, LV_PCT( -50 ));"
    (∃ u, (Operand.ofSource "0x10").toValue.display = .ok u ∧ Signed u 16) ∧
      (∃ u, (Size.percent (.integer (-50))).toSource = .ok u ∧
        ∃ lit, IsPercentOf u lit ∧ Signed lit (-50)) ∧
      ⟨"b", .integer 2, .size (.token "0x10") (.percent (.integer (-50)))⟩ ∈
        factsOf .standard "lv_obj_set_size(b, 0x10, LV_PCT( -50 ));" 2 ∧
      ∃ w ∈ Forest.toList (ofSource (.texts ["p"]) .null source).widgets,
        .ok (.statement (.call "lv_obj_set_size" ["b", "0x10", "LV_PCT(-50)"])) ∈
            w.emissions .concise "b" "p" ∧
          ∃ call t u, Finds source sizePattern call ∧ call.arguments = [w.name, t, u] ∧
            Keeps t "0x10" ∧ KeepsPercent u "LV_PCT(-50)" := by
  repeat rw [Text.ofString_ofList]
  intro source
  obtain ⟨hliterals, hpercents, hlines, hwidgets⟩ :=
    numerals_kept_iff (.texts ["p"]) .null source
  refine ⟨?_, ?_, ?_, ?_⟩
  · have hnumber : Signed "0x10" 16 :=
      .positive (@Unsigned.hexadecimal _ "10" "" (.inl rfl) (by decide) (by decide) (by decide))
    have hletter : ¬ IsMisread "0x10" 16 := fun h => by cases h.plain (.char 'x') (by decide)
    obtain ⟨-, u, hu, hiff⟩ := hliterals "0x10" 16 hnumber
    exact ⟨u, hu, hiff.2 hletter⟩
  · have hnumber : Signed "-50" (-50) :=
      .negative (@Unsigned.decimal "50" "" (by decide) (by decide) (by decide) (by decide))
    have hdecimal : ¬ IsMisread "-50" (-50) := fun h => absurd h.octal (by decide)
    have hcall : IsPercentOf "LV_PCT( -50 )" "-50" := ⟨[], " ", " ", by decide, by decide⟩
    obtain ⟨u, hu, hiff⟩ := (hpercents _ _ _ hcall hnumber).2 (.percent (.integer (-50))) rfl
    exact ⟨u, hu, hiff.2 hdecimal⟩
  · exact (hlines _ 2 ⟨"lv_obj_set_size", [], ["b", "0x10", "LV_PCT( -50 )"]⟩ "b" "0x10"
      "LV_PCT( -50 )" [] (by decide)).1 _ _ rfl rfl rfl rfl
      (List.forall_mem_singleton.2 rfl)
  · obtain ⟨w, hw, hcall⟩ :
        ∃ w ∈ Forest.toList (ofSource (.texts ["p"]) .null source).widgets,
          .call "lv_obj_set_size" ["b", "0x10", "LV_PCT(-50)"] ∈
            (w.emissions .concise "b" "p").statements := by
      repeat rw [Text.ofString_ofList]
      decide +kernel
    have hemitted := Emissions.mem_of_mem_statements hcall
    obtain ⟨call, t, u, t', u', hfound, harguments, hargs, ⟨ht, -⟩, -, hu⟩ :=
      (hwidgets w hw).2.size _ _ _ _ hemitted
    cases hargs
    exact ⟨w, hw, hemitted, call, t, u, hfound, harguments, ht, hu⟩

/-- An octal value comes back as a decimal one. -/
theorem ParsedFile.numerals_not_kept :
    let source : Text := "s = lv_slider_create(p);\nlv_slider_set_value(s, 010, LV_ANIM_OFF);"
    Finds source valuePattern ⟨"lv_slider_set_value", ["slider"], ["s", "010", "LV_ANIM_OFF"]⟩ ∧
      (∃ w ∈ Forest.toList (ofSource (.texts ["p"]) .null source).widgets,
        .ok (.statement (.call "lv_slider_set_value" ["s", "10", "LV_ANIM_OFF"])) ∈
          w.emissions .concise "s" "p") ∧
      Signed "010" 8 ∧ ¬ Signed "10" 8 := by
  repeat rw [Text.ofString_ofList]
  intro source
  refine ⟨?_, ?_, ?_, ?_⟩
  · decide +kernel
  · obtain ⟨w, hw, hcall⟩ :
        ∃ w ∈ Forest.toList (ofSource (.texts ["p"]) .null source).widgets,
          .call "lv_slider_set_value" ["s", "10", "LV_ANIM_OFF"] ∈
            (w.emissions .concise "s" "p").statements := by
      repeat rw [Text.ofString_ofList]
      decide +kernel
    exact ⟨w, hw, Emissions.mem_of_mem_statements hcall⟩
  · exact .positive (@Unsigned.octal "10" "" (by decide) (by decide))
  · have hten : ['1', '0'].map CodePoint.char = Decimal.ofInt 10 := by decide
    rw [hten, signed_ofInt_iff]
    decide

end LvglForest
