import LvglForest.Proofs.Hierarchy.Setting

/-!
# Fonts and their addresses

The setter of a font takes an address. It is kept without the operator, which comes back when the
setter is generated. So the operator is assumed and not remembered: an argument that is the address
of something else comes back as it was, but for blanks around the operator, and any other argument,
be it a variable, a macro or a call, comes back as an address that it was not
(`StyleKey.font_kept_iff`).

This is what becomes of every font of a source text: the argument of the last setter of a font that
is found about a widget is kept and generated in just this way (`ParsedFile.fonts_kept_iff`).
-/

namespace LvglForest

/-! ## Texts up to blanks around address operators -/

/-- The parts of a text between its address operators, without the blanks around them. Two texts are
the same up to blanks around the operators if they have the same parts. -/
def Text.addressParts (t : Text) : List Text := (t.splitOn (.char '&')).map strip

/-- The address of something that is no address: one operator, and no other one behind it. -/
def Text.IsAddress (t : Text) : Prop :=
  ∃ r, t = .char '&' :: r ∧ (stripStart r).head? ≠ some (.char '&')

namespace Text

theorem addressParts_cons_operator (t : Text) :
    addressParts (.char '&' :: t) = [] :: addressParts t := by
  rw [addressParts, splitOn, if_pos rfl, List.map_cons]
  rfl

/-- The blanks before a text belong to its first part. -/
theorem addressParts_cons_blank {p : CodePoint} (hp : p.isBlank = true) (t : Text) :
    addressParts (p :: t) = addressParts t := by
  have hne : p ≠ .char '&' := by
    rintro rfl
    cases hp
  obtain ⟨part, parts, hparts⟩ := List.exists_cons_of_ne_nil (splitOn_ne_nil (.char '&') t)
  have hstrip : strip (p :: part) = strip part :=
    strip_blank_append (u := [p]) (List.forall_mem_singleton.2 hp) part
  rw [addressParts, addressParts, splitOn, if_neg hne, hparts]
  simp only [List.map_cons, hstrip]

theorem addressParts_stripStart (t : Text) : addressParts t.stripStart = addressParts t := by
  induction t with
  | nil => rfl
  | cons p t ih =>
    rw [stripStart, List.dropWhile_cons]
    split
    · next hp => rw [addressParts_cons_blank hp, ← ih, stripStart]
    · rfl

/-- One operator more makes one part more. -/
theorem addressParts_ne_cons_operator (t : Text) :
    addressParts (.char '&' :: t) ≠ addressParts t := by
  intro h
  rw [addressParts_cons_operator] at h
  exact List.cons_ne_self _ _ h

theorem strip_of_isTrimmed_cons {p : CodePoint} {r : Text} (h : IsTrimmed (p :: r)) :
    strip r = stripStart r := by
  rw [strip, stripEnd_of_last]
  intro q hq
  obtain ⟨u, hu⟩ : stripStart r <:+ r := List.dropWhile_suffix _
  have hne : stripStart r ≠ [] := by
    intro hnil
    rw [hnil] at hq
    cases hq
  apply h.last q
  rw [← hu, ← List.cons_append, List.getLast?_append_of_ne_nil _ hne]
  exact hq

end Text

/-! ## Fonts -/

namespace StyleKey

/-- What is no address is taken for one. -/
theorem toSource_font_of_head? {t : Text} (h : t.head? ≠ some (.char '&')) :
    textFont.toSource (textFont.ofSource t) = .char '&' :: t := by
  have hsource : textFont.ofSource t = t := by
    unfold ofSource
    split
    · next hkey => cases hkey
    · next hkey => cases hkey
    · exact absurd rfl h
    · rfl
  rw [hsource, toSource, if_neg h]

/-- The blanks behind the operator are lost, and so is the operator before another one. -/
theorem toSource_font_operator (r : Text) :
    textFont.toSource (textFont.ofSource (.char '&' :: r)) =
      if (Text.strip r).head? = some (.char '&') then Text.strip r
      else .char '&' :: Text.strip r := rfl

/-- **A font is kept**, up to blanks around the operator, exactly if it is the address of something
that is no address. -/
theorem font_kept_iff {t : Text} (ht : t.IsTrimmed) :
    Text.addressParts (textFont.toSource (textFont.ofSource t)) = Text.addressParts t ↔
      t.IsAddress := by
  by_cases hhead : t.head? = some (.char '&')
  · obtain ⟨r, rfl⟩ : ∃ r, t = .char '&' :: r := List.head?_eq_some_iff.1 hhead
    have hstrip : Text.strip r = Text.stripStart r := Text.strip_of_isTrimmed_cons ht
    rw [toSource_font_operator, hstrip]
    by_cases hr : (Text.stripStart r).head? = some (.char '&')
    · rw [if_pos hr, Text.addressParts_stripStart]
      constructor
      · intro h
        exact absurd h.symm (Text.addressParts_ne_cons_operator r)
      · rintro ⟨r', heq, hr'⟩
        cases heq
        exact absurd hr hr'
    · rw [if_neg hr, Text.addressParts_cons_operator, Text.addressParts_cons_operator,
        Text.addressParts_stripStart]
      exact iff_of_true rfl ⟨r, rfl, hr⟩
  · rw [toSource_font_of_head? hhead]
    constructor
    · intro h
      exact absurd h (Text.addressParts_ne_cons_operator t)
    · rintro ⟨r, rfl, -⟩
      exact absurd rfl hhead

end StyleKey

/-! ## Calls in lines -/

theorem CallPattern.isTrimmed_of_find? {pattern : CallPattern} {line : Text} {call : Call}
    (h : pattern.find? line = some call) : ∀ t ∈ call.arguments, t.IsTrimmed := by
  intro t ht
  unfold find? at h
  split at h
  · cases h
  · obtain ⟨inner, -, rfl⟩ := Option.map_eq_some_iff.1 h
    unfold Arguments.split at ht
    split at ht
    · cases ht
    · obtain ⟨piece, -, rfl⟩ := List.mem_map.1 ht
      exact Text.isTrimmed_strip piece

/-! ## Widgets of source texts -/

/-- A font that is set has a setter. -/
theorem Widget.exists_setter_of_known {w : Widget} (hstyles : w.styles.AreTexts) {k : StyleKey}
    {v : Value} (h : w.styles.known k = some v) (id : Text) :
    ∃ args, w.Setter id (("lv_obj_set_style_" : Text) ++ k.name) args := by
  obtain ⟨t, rfl⟩ := hstyles.known k v h
  exact ⟨_, .style (Styles.mem_items_of_known h) (Styles.argument_name k t)⟩

/-- **What becomes of the fonts of a source text.** A setter of a font that is found in a line gives a
fact about its widget, and the font of a widget is that of the last such fact about it. It has
exactly one setter in generated code, and the argument of this setter is the argument of a setter in
the source, up to blanks around the address operator, exactly if that one is the address of
something that is no address itself. -/
theorem ParsedFile.fonts_kept_iff (placeholders file : Value) (source : Text) :
    (∀ line number call id t rest, Recognizer.knownStylePattern.find? line = some call →
      call.groups = [StyleKey.textFont.name] → call.arguments = id :: t :: rest →
        id.isIdentifier = true →
          ⟨id, .integer number, .style StyleKey.textFont.name
              (.text (StyleKey.textFont.ofSource t))⟩ ∈
            Extraction.factsOf .standard line number ∧
          (Text.addressParts (StyleKey.textFont.toSource (StyleKey.textFont.ofSource t)) =
            Text.addressParts t ↔ t.IsAddress)) ∧
    ∀ w ∈ Forest.toList (ofSource placeholders file source).widgets,
      w.styles.value StyleKey.textFont.name =
        (Fact.latest? (Fact.style? StyleKey.textFont.name)
          (Fact.own w.name (Extraction.facts .standard source))).getD .null ∧
      ∀ v, w.styles.known .textFont = some v → ∃ call t rest,
        Extraction.Finds source Recognizer.knownStylePattern call ∧
        call.groups = [StyleKey.textFont.name] ∧ call.arguments = w.name :: t :: rest ∧
        (Text.addressParts (StyleKey.textFont.toSource (StyleKey.textFont.ofSource t)) =
          Text.addressParts t ↔ t.IsAddress) ∧
        ∀ d id parent args,
          .ok (.statement (.call (("lv_obj_set_style_" : Text) ++ StyleKey.textFont.name) args)) ∈
              w.emissions d id parent ↔
            args = [id, StyleKey.textFont.toSource (StyleKey.textFont.ofSource t), "0"] := by
  refine ⟨?_, fun w hw => ⟨?_, fun v hv => ?_⟩⟩
  · intro line number call id t rest hcall hgroups harguments hid
    refine ⟨Extraction.style_mem_factsOf hid hcall hgroups harguments, ?_⟩
    apply StyleKey.font_kept_iff
    apply CallPattern.isTrimmed_of_find? hcall
    simp [harguments]
  · exact (isToldBy_of_mem_widgets hw).style _
  · have hset := isSetIn_of_mem_widgets hw
    have hstyles := areTexts_of_mem_widgets hw
    obtain ⟨call, t, rest, hcall, hgroups, harguments, rfl⟩ := hset.style .textFont v hv
    refine ⟨call, t, rest, hcall, hgroups, harguments, StyleKey.font_kept_iff ?_, ?_⟩
    · obtain ⟨l, -, hfind⟩ := hcall
      apply CallPattern.isTrimmed_of_find? hfind
      simp [harguments]
    · intro d id parent args
      rw [Widget.call_mem_emissions_iff]
      have hsetter {args : List Text}
          (h : w.Setter id (("lv_obj_set_style_" : Text) ++ StyleKey.textFont.name) args) :
          args = [id, StyleKey.textFont.toSource (StyleKey.textFont.ofSource t), "0"] := by
        obtain ⟨-, t', -, -, -, -, hknown, rfl⟩ := hset.of_style hstyles h
        rw [Value.text.inj (Option.some.inj (hv.symm.trans hknown))]
      constructor
      · exact hsetter
      · rintro rfl
        obtain ⟨args, h⟩ := Widget.exists_setter_of_known hstyles hv id
        exact hsetter h ▸ h

/-- An address with a blank behind the operator. -/
theorem ParsedFile.fonts_kept_iff_address :
    let source : Text := "l = lv_label_create(p);\nlv_obj_set_style_text_font(l, & f, 0);"
    Text.addressParts (StyleKey.textFont.toSource (StyleKey.textFont.ofSource "& f")) =
        Text.addressParts "& f" ∧
      ∃ w ∈ Forest.toList (ofSource (.texts ["p"]) .null source).widgets,
        .ok (.statement (.call "lv_obj_set_style_text_font" ["l", "&f", "0"])) ∈
            w.emissions .concise "l" "p" ∧
          ∃ call t rest, Extraction.Finds source Recognizer.knownStylePattern call ∧
            call.arguments = w.name :: t :: rest ∧
              (Text.addressParts "&f" = Text.addressParts t ↔ t.IsAddress) := by
  repeat rw [Text.ofString_ofList]
  intro source
  obtain ⟨hlines, hwidgets⟩ := fonts_kept_iff (.texts ["p"]) .null source
  have hfind : Recognizer.knownStylePattern.find? "lv_obj_set_style_text_font(l, & f, 0);" =
      some ⟨"lv_obj_set_style_text_font", ["text_font"], ["l", "& f", "0"]⟩ := by
    repeat rw [Text.ofString_ofList]
    decide +kernel
  have hkept := (hlines _ 2 _ "l" "& f" ["0"] hfind rfl rfl (by decide)).2.2 ⟨" f", rfl, by decide⟩
  obtain ⟨w, hw, hset, hcall⟩ :
      ∃ w ∈ Forest.toList (ofSource (.texts ["p"]) .null source).widgets,
        (w.styles.known .textFont).isSome = true ∧
        .call "lv_obj_set_style_text_font" ["l", "&f", "0"] ∈
          (w.emissions .concise "l" "p").statements := by
    repeat rw [Text.ofString_ofList]
    decide +kernel
  have hemitted := Emissions.mem_of_mem_statements hcall
  obtain ⟨v, hv⟩ := Option.isSome_iff_exists.1 hset
  obtain ⟨call, t, rest, hfound, -, harguments, hiff, hsetter⟩ := (hwidgets w hw).2 v hv
  have hargs := (hsetter .concise "l" "p" _).1 hemitted
  have hspelled := (List.cons.inj (List.cons.inj hargs).2).1
  rw [← hspelled] at hiff
  exact ⟨hkept, w, hw, hemitted, call, t, rest, hfound, harguments, hiff⟩

/-- The default font is a macro, and comes back as its address. -/
theorem ParsedFile.fonts_not_kept :
    let source : Text :=
      "l = lv_label_create(p);\nlv_obj_set_style_text_font(l, LV_FONT_DEFAULT, 0);"
    Extraction.Finds source Recognizer.knownStylePattern
        ⟨"lv_obj_set_style_text_font", [StyleKey.textFont.name], ["l", "LV_FONT_DEFAULT", "0"]⟩ ∧
      (∃ w ∈ Forest.toList (ofSource (.texts ["p"]) .null source).widgets,
        .ok (.statement (.call "lv_obj_set_style_text_font" ["l", "&LV_FONT_DEFAULT", "0"])) ∈
          w.emissions .concise "l" "p") ∧
      Text.addressParts "&LV_FONT_DEFAULT" ≠ Text.addressParts "LV_FONT_DEFAULT" := by
  repeat rw [Text.ofString_ofList]
  intro source
  have hfound : Extraction.Finds source Recognizer.knownStylePattern
      ⟨"lv_obj_set_style_text_font", [StyleKey.textFont.name], ["l", "LV_FONT_DEFAULT", "0"]⟩ := by
    repeat rw [Text.ofString_ofList]
    refine ⟨(2, "lv_obj_set_style_text_font(l, LV_FONT_DEFAULT, 0);"), ?_, ?_⟩ <;>
      rw [Text.ofString_ofList]
    · decide +kernel
    · decide +kernel
  obtain ⟨w, hw, hcall⟩ :
      ∃ w ∈ Forest.toList (ofSource (.texts ["p"]) .null source).widgets,
        .call "lv_obj_set_style_text_font" ["l", "&LV_FONT_DEFAULT", "0"] ∈
          (w.emissions .concise "l" "p").statements := by
    repeat rw [Text.ofString_ofList]
    decide +kernel
  exact ⟨hfound, ⟨w, hw, Emissions.mem_of_mem_statements hcall⟩, by decide⟩

end LvglForest
