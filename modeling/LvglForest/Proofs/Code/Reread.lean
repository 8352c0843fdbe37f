import LvglForest.Proofs.Fact.Setter
import LvglForest.Proofs.Hierarchy.Setting
import LvglForest.Proofs.Source.Reread

/-!
# Widgets are normalized once

The sizes, numbers and colours of a widget of a source text were read off tokens, so each of them is
spelled in a way that is read as itself again. What the emitted setters say of the widget is what
was read in the first place (`ParsedFile.setters_reread`).
-/

namespace LvglForest

/-! ## Setters read again -/

namespace Widget

variable {source id : Text} {w : Widget} {args : List Text} (hset : w.IsSetIn source)
  (hid : id.isIdentifier = true)
include hset hid

theorem saying_of_size (h : w.Setter id "lv_obj_set_size" args) :
    Recognizer.saying "lv_obj_set_size" args = [(id, .size w.width w.height)] := by
  obtain ⟨-, t, u, t', u', -, -, rfl, ht, hu, ht', hu'⟩ := hset.of_size h
  obtain ⟨x, hx, hreread⟩ := Size.exists_spelling ht
  obtain ⟨y, hy, hreread'⟩ := Size.exists_spelling hu
  cases ht'.symm.trans hx
  cases hu'.symm.trans hy
  exact Recognizer.saying_size hid hreread hreread'

theorem saying_of_value {k : Kind}
    (h : w.Setter id (("lv_" : Text) ++ k.sourceName ++ "_set_value") args) :
    Recognizer.saying (("lv_" : Text) ++ k.sourceName ++ "_set_value") args =
      [(id, .value w.value)] := by
  obtain ⟨-, t, -, t', more, -, -, rfl, ht, ht'⟩ := hset.of_value h
  obtain ⟨x, hx, hreread⟩ := Operand.exists_spelling t
  rw [ht] at ht'
  cases ht'.symm.trans hx
  rw [Recognizer.saying_value hid, hreread, ht]

theorem saying_of_range {k : Kind}
    (h : w.Setter id (("lv_" : Text) ++ k.sourceName ++ "_set_range") args) :
    Recognizer.saying (("lv_" : Text) ++ k.sourceName ++ "_set_range") args =
      [(id, .range w.rangeMin w.rangeMax)] := by
  obtain ⟨-, t, u, t', u', -, -, rfl, ht, hu, ht', hu'⟩ := hset.of_range h
  obtain ⟨x, hx, hreread⟩ := Operand.exists_spelling t
  obtain ⟨y, hy, hreread'⟩ := Operand.exists_spelling u
  rw [ht] at ht'
  rw [hu] at hu'
  cases ht'.symm.trans hx
  cases hu'.symm.trans hy
  rw [Recognizer.saying_range hid, hreread, hreread', ht, hu]

theorem saying_of_colour {k : StyleKey} (hk : k = .bgColor ∨ k = .textColor)
    (hstyles : w.styles.AreTexts)
    (h : w.Setter id (("lv_obj_set_style_" : Text) ++ k.name) args) :
    ∃ v, w.styles.known k = some v ∧
      Recognizer.saying (("lv_obj_set_style_" : Text) ++ k.name) args = [(id, .style k.name v)] := by
  obtain ⟨-, t, -, -, -, -, hknown, rfl⟩ := hset.of_style hstyles h
  refine ⟨_, hknown, ?_⟩
  have hreread : k.ofSource (k.toSource (k.ofSource t)) = k.ofSource t := by
    rcases hk with rfl | rfl <;> exact Color.ofSource_spelling t
  rw [Recognizer.saying_knownStyle hid, hreread]

end Widget

/-- **Importing normalizes a token once.** Of any text that is read as a size, and of any text at all
for a number or a colour, what is kept is spelled in one way and read as the same again. So for every
widget of a source text the emitted setters of its size, its value, its range and its colours say
again what was read: another import changes none of them. -/
theorem ParsedFile.setters_reread :
    (∀ t s, Size.ofSource t = .ok s → ∃ u, s.toSource = .ok u ∧ Size.ofSource u = .ok s) ∧
    (∀ t, ∃ u, (Operand.ofSource t).toValue.display = .ok u ∧
      Operand.ofSource u = Operand.ofSource t) ∧
    (∀ t, Color.ofSource (Color.toSource (Color.ofSource t)) = Color.ofSource t) ∧
    ∀ placeholders file source, ∀ w ∈ Forest.toList (ofSource placeholders file source).widgets,
      w.name.isIdentifier = true → ∀ d parent (f : Text) args,
        .ok (.statement (.call f args)) ∈ w.emissions d w.name parent →
          (f = "lv_obj_set_size" →
            Recognizer.saying f args = [(w.name, .size w.width w.height)]) ∧
          (∀ k : Kind, f = ("lv_" : Text) ++ k.sourceName ++ "_set_value" →
            Recognizer.saying f args = [(w.name, .value w.value)]) ∧
          (∀ k : Kind, f = ("lv_" : Text) ++ k.sourceName ++ "_set_range" →
            Recognizer.saying f args = [(w.name, .range w.rangeMin w.rangeMax)]) ∧
          ∀ k : StyleKey, k = .bgColor ∨ k = .textColor →
            f = ("lv_obj_set_style_" : Text) ++ k.name →
              ∃ v, w.styles.known k = some v ∧
                Recognizer.saying f args = [(w.name, .style k.name v)] := by
  refine ⟨fun _ _ => Size.exists_spelling, Operand.exists_spelling, Color.ofSource_spelling, ?_⟩
  intro placeholders file source w hw hid d parent f args h
  have hset := isSetIn_of_mem_widgets hw
  rw [Widget.call_mem_emissions_iff] at h
  refine ⟨?_, fun k => ?_, fun k => ?_, fun k hk => ?_⟩
  · rintro rfl
    exact Widget.saying_of_size hset hid h
  · rintro rfl
    exact Widget.saying_of_value hset hid h
  · rintro rfl
    exact Widget.saying_of_range hset hid h
  · rintro rfl
    exact Widget.saying_of_colour hset hid hk (areTexts_of_mem_widgets hw) h

/-- A percentage with blanks, a sign and a leading zero, beside an expression. -/
theorem ParsedFile.setters_reread_percent :
    let source : Text := "b = lv_bar_create(p);\nlv_obj_set_size(b, LV_PCT( -050 ), w + 1);"
    (∃ u, (Size.percent (.integer (-50))).toSource = .ok u ∧
      Size.ofSource u = .ok (.percent (.integer (-50)))) ∧
    ∃ w ∈ Forest.toList (ofSource (.texts ["p"]) .null source).widgets,
      .ok (.statement (.call "lv_obj_set_size" ["b", "LV_PCT(-50)", "w + 1"])) ∈
          w.emissions .concise w.name "p" ∧
        Recognizer.saying "lv_obj_set_size" ["b", "LV_PCT(-50)", "w + 1"] =
          [(("b" : Text), Assertion.size w.width w.height)] := by
  repeat rw [Text.ofString_ofList]
  intro source
  obtain ⟨hsizes, -, -, hsetters⟩ := setters_reread
  obtain ⟨w, hw, hname, hcall⟩ :
      ∃ w ∈ Forest.toList (ofSource (.texts ["p"]) .null source).widgets, w.name = "b" ∧
        .call "lv_obj_set_size" ["b", "LV_PCT(-50)", "w + 1"] ∈
          (w.emissions .concise w.name "p").statements := by
    repeat rw [Text.ofString_ofList]
    decide +kernel
  have hemitted := Emissions.mem_of_mem_statements hcall
  have hid : w.name.isIdentifier = true := by
    rw [hname]
    decide
  have hsaid := (hsetters _ _ source w hw hid .concise "p" _ _ hemitted).1 rfl
  rw [hname] at hsaid
  exact ⟨hsizes "LV_PCT( -050 )" _ rfl, w, hw, hemitted, hsaid⟩

end LvglForest
