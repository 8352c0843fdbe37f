import LvglForest.Proofs.Fact.Line

/-!
# What the setters say

For each setter that is generated, what a call of it says (`Recognizer.saying`). The name alone
decides which patterns accept it (`Recognizer.names`), so the setters of sizes, places, ranges,
numbers and known styles are found by evaluation. A style that is not known has an arbitrary name;
it is mistaken for a number or a range only if its own name ends like theirs
(`ending_of_style`), and never for a text, which takes two arguments only.
-/

namespace LvglForest

/-! ## Functions of a kind -/

namespace Kind

theorem isWord_sourceName (k : Kind) : k.sourceName.IsWord := by
  cases k <;> exact .ofList (by decide)

/-- The name of a function of a kind is a word. -/
theorem isWord_function (k : Kind) {ending : Text} (h : ending.IsWord) :
    (("lv_" : Text) ++ k.sourceName ++ ending).IsWord :=
  ((Text.IsWord.ofList (by decide)).append k.isWord_sourceName).append h

end Kind

/-! ## The names of setters -/

namespace Recognizer

/-- The names that the recognizers of setters look for. -/
def names : List NamePattern :=
  [textPattern.name, sizePattern.name, valuePattern.name, rangePattern.name,
    knownStylePattern.name, anyStylePattern.name, alignPattern.name, centerPattern.name,
    positionPattern.name]

/-- The answers to a name, with the words of the patterns in place. -/
theorem map_groups_names (f : Text) :
    names.map (·.groups? f) =
      [(NamePattern.between "lv_" "_set_text").groups? f,
        (NamePattern.exactly "lv_obj_set_size").groups? f,
        (NamePattern.between "lv_" "_set_value").groups? f,
        (NamePattern.between "lv_" "_set_range").groups? f,
        (NamePattern.oneOf "lv_obj_set_style_" (StyleKey.all.map StyleKey.name)).groups? f,
        (NamePattern.startingWith "lv_obj_set_style_").groups? f,
        (NamePattern.exactly "lv_obj_align").groups? f,
        (NamePattern.exactly "lv_obj_center").groups? f,
        (NamePattern.exactly "lv_obj_set_pos").groups? f] := rfl

/-- What a call says, from the answers of all patterns to its name. -/
theorem saying_of_groups {f : Text} {t s v r k a al c p : Option (List Text)}
    (h : names.map (·.groups? f) = [t, s, v, r, k, a, al, c, p]) (args : List Text) :
    saying f args =
      ((t.bind fun gs => (readText ⟨f, gs, args⟩).toOption.join).or <|
        (s.bind fun gs => (readSize ⟨f, gs, args⟩).toOption.join).or <|
          (v.bind fun gs => (readValue ⟨f, gs, args⟩).toOption.join).or <|
            r.bind fun gs => (readRange ⟨f, gs, args⟩).toOption.join).toList ++
      ((k.bind fun gs => (readKnownStyle ⟨f, gs, args⟩).toOption.join).or <|
        a.bind fun gs => (readOtherStyle ⟨f, gs, args⟩).toOption.join).toList ++
      ((al.bind fun gs => (readAlign ⟨f, gs, args⟩).toOption.join).or <|
        (c.bind fun gs => (readCenter ⟨f, gs, args⟩).toOption.join).or <|
          p.bind fun gs => (readPosition ⟨f, gs, args⟩).toOption.join).toList := by
  simp only [names, List.map_cons, List.map_nil, List.cons.injEq, and_true] at h
  obtain ⟨rfl, rfl, rfl, rfl, rfl, rfl, rfl, rfl, rfl⟩ := h
  rfl

section Known

variable {id : Text} (hid : id.isIdentifier = true)
include hid

/-! ## Sizes and places -/

theorem saying_size {w h : Text} {width height : Size} (hw : Size.ofSource w = .ok width)
    (hh : Size.ofSource h = .ok height) :
    saying "lv_obj_set_size" [id, w, h] = [(id, .size width height)] := by
  have hnames : names.map (·.groups? "lv_obj_set_size") =
      [none, some [], none, none, none, none, none, none, none] := by
    rw [map_groups_names]
    repeat rw [Text.ofString_ofList]
    decide
  rw [saying_of_groups hnames]
  simp only [readSize, hid, hw, hh, if_true]
  rfl

theorem saying_position (x y : Text) :
    saying "lv_obj_set_pos" [id, x, y] = [(id, .position (offset x) (offset y))] := by
  have hnames : names.map (·.groups? "lv_obj_set_pos") =
      [none, none, none, none, none, none, none, none, some []] := by
    rw [map_groups_names]
    repeat rw [Text.ofString_ofList]
    decide
  rw [saying_of_groups hnames]
  simp only [readPosition, about, hid, if_true]
  rfl

theorem saying_center : saying "lv_obj_center" [id] = [(id, .center)] := by
  have hnames : names.map (·.groups? "lv_obj_center") =
      [none, none, none, none, none, none, none, some [], none] := by
    rw [map_groups_names]
    repeat rw [Text.ofString_ofList]
    decide
  rw [saying_of_groups hnames]
  simp only [readCenter, about, hid, if_true]
  rfl

theorem saying_align (keyword x y : Text) :
    saying "lv_obj_align" [id, keyword, x, y] =
      [(id, .align (.text keyword) (offset x) (offset y))] := by
  have hnames : names.map (·.groups? "lv_obj_align") =
      [none, none, none, none, none, none, some [], none, none] := by
    rw [map_groups_names]
    repeat rw [Text.ofString_ofList]
    decide
  rw [saying_of_groups hnames]
  simp only [readAlign, about, hid, if_true]
  rfl

/-! ## Ranges and numbers -/

theorem saying_range (k : Kind) (min max : Text) :
    saying (("lv_" : Text) ++ k.sourceName ++ "_set_range") [id, min, max] =
      [(id, .range (Operand.ofSource min).toValue (Operand.ofSource max).toValue)] := by
  have hnames : names.map (·.groups? (("lv_" : Text) ++ k.sourceName ++ "_set_range")) =
      [none, none, none, some [k.sourceName], none, none, none, none, none] := by
    rw [map_groups_names]
    repeat rw [Text.ofString_ofList]
    cases k <;> decide +kernel
  rw [saying_of_groups hnames]
  simp only [readRange, about, hid, if_true]
  rfl

theorem saying_value (k : Kind) (v : Text) (rest : List Text) :
    saying (("lv_" : Text) ++ k.sourceName ++ "_set_value") (id :: v :: rest) =
      [(id, .value (Operand.ofSource v).toValue)] := by
  have hnames : names.map (·.groups? (("lv_" : Text) ++ k.sourceName ++ "_set_value")) =
      [none, none, some [k.sourceName], none, none, none, none, none, none] := by
    rw [map_groups_names]
    repeat rw [Text.ofString_ofList]
    cases k <;> decide +kernel
  rw [saying_of_groups hnames]
  simp only [readValue, about, hid, if_true]
  rfl

/-! ## Styles -/

theorem saying_knownStyle (k : StyleKey) (v : Text) (rest : List Text) :
    saying (("lv_obj_set_style_" : Text) ++ k.name) (id :: v :: rest) =
      [(id, .style k.name (.text (k.ofSource v)))] := by
  have hnames : names.map (·.groups? (("lv_obj_set_style_" : Text) ++ k.name)) =
      [none, none, none, none, some [k.name], some [k.name], none, none, none] := by
    rw [map_groups_names]
    repeat rw [Text.ofString_ofList]
    cases k <;> decide +kernel
  rw [saying_of_groups hnames]
  simp only [readKnownStyle, StyleKey.ofName?_name, Option.bind_some, about, hid, if_true]
  rfl

end Known

/-- The name of a style's setter ends like the setter of a number or a range only if the name of the
style does. -/
theorem ending_of_style {ending key : Text} (hending : ending = "set_value" ∨ ending = "set_range")
    (h : .char '_' :: ending <:+ ("lv_obj_set_style_" : Text) ++ key) : ending <:+ key := by
  have hkey : key <:+ ("lv_obj_set_style_" : Text) ++ key := List.suffix_append _ _
  rcases List.suffix_or_suffix_of_suffix h hkey with hs | ⟨x, hx⟩
  · exact (List.suffix_cons _ _).trans hs
  · have hprefix : x <:+ ("lv_obj_set_style_" : Text) := by
      rw [← hx] at h
      obtain ⟨y, hy⟩ := h
      rw [← List.append_assoc, List.append_cancel_right_eq] at hy
      exact ⟨y, hy⟩
    have hlength : x.length < 11 := by
      have := congrArg List.length hx
      rcases hending with rfl | rfl <;> simp [Text.ofString] at this <;> omega
    have htake : x = (CodePoint.char '_' :: ending).take x.length := by rw [← hx]; simp
    have hdrop : key = (CodePoint.char '_' :: ending).drop x.length := by rw [← hx]; simp
    have hshort : ∀ n < 11,
        (CodePoint.char '_' :: ending).take n <:+ ("lv_obj_set_style_" : Text) →
          ending <:+ (CodePoint.char '_' :: ending).drop n := by
      rcases hending with rfl | rfl
      all_goals
        repeat rw [Text.ofString_ofList]
        decide +kernel
    rw [hdrop]
    exact hshort _ hlength (htake ▸ hprefix)

/-- A style that is not known and whose name ends in neither `set_value` nor `set_range`. -/
structure IsOtherStyle (key : Text) : Prop where
  word : key.IsWord
  unknown : StyleKey.ofName? key = none
  value : ¬ ("set_value" : Text) <:+ key
  range : ¬ ("set_range" : Text) <:+ key

theorem saying_otherStyle {id key : Text} (hid : id.isIdentifier = true) (hkey : IsOtherStyle key)
    (v w : Text) :
    saying (("lv_obj_set_style_" : Text) ++ key) [id, v, w] = [(id, .style key (.text v))] := by
  have hexactly {name : Text} (h : ¬ ("lv_obj_set_style_" : Text) <+: name) :
      (NamePattern.exactly name).groups? (("lv_obj_set_style_" : Text) ++ key) = none := by
    rw [NamePattern.groups?, if_neg]
    rintro rfl
    exact h (List.prefix_append _ _)
  have hsuffix {last : Text} (h : ¬ last <:+ ("lv_obj_set_style_" : Text) ++ key) :
      (NamePattern.between "lv_" last).groups? (("lv_obj_set_style_" : Text) ++ key) = none := by
    cases hgs : (NamePattern.between "lv_" last).groups? (("lv_obj_set_style_" : Text) ++ key) with
    | none => rfl
    | some gs =>
      obtain ⟨e, he, hew⟩ := NamePattern.exists_ending hgs
      rw [NamePattern.endings, List.mem_singleton] at he
      exact absurd (he ▸ hew) h
  have hrest : ("lv_obj_set_style_" : Text).isPrefixOf? (("lv_obj_set_style_" : Text) ++ key) =
      some key := by
    rw [List.isPrefixOf?_eq_some_iff_append_eq]
  have hunknown : (StyleKey.all.map StyleKey.name).contains key = false := by
    have hfind := hkey.unknown
    rw [StyleKey.ofName?, List.find?_eq_none] at hfind
    rw [← Bool.not_eq_true, List.contains_iff_mem]
    intro hmem
    obtain ⟨k, hk, rfl⟩ := List.mem_map.1 hmem
    exact hfind k hk (by simp)
  have hnames : names.map (·.groups? (("lv_obj_set_style_" : Text) ++ key)) =
      [textPattern.name.groups? (("lv_obj_set_style_" : Text) ++ key), none, none, none, none,
        some [key], none, none, none] := by
    have hne : key.isEmpty = false := by simpa using hkey.word.ne_nil
    have hvalue := hsuffix fun h => hkey.value (ending_of_style (.inl rfl) h)
    have hrange := hsuffix fun h => hkey.range (ending_of_style (.inr rfl) h)
    have hknown : knownStylePattern.name.groups? (("lv_obj_set_style_" : Text) ++ key) = none := by
      simp only [knownStylePattern, CallPattern.name, NamePattern.groups?, hrest, hunknown,
        Bool.false_eq_true, if_false]
    have hany : anyStylePattern.name.groups? (("lv_obj_set_style_" : Text) ++ key) =
        some [key] := by
      simp only [anyStylePattern, CallPattern.name, NamePattern.groups?, hrest, hne,
        Bool.false_eq_true, if_false]
    simp only [names, List.map_cons, List.map_nil, hknown, hany]
    simp only [sizePattern, valuePattern, rangePattern, alignPattern, centerPattern,
      positionPattern, CallPattern.name]
    rw [hexactly (by decide +kernel), hexactly (by decide +kernel), hexactly (by decide +kernel),
      hexactly (by decide +kernel)]
    rw [show (Text.ofString "_set_value") = .char '_' :: ("set_value" : Text) from rfl, hvalue]
    rw [show (Text.ofString "_set_range") = .char '_' :: ("set_range" : Text) from rfl, hrange]
  have htext (gs? : Option (List Text)) (f : Text) :
      (gs?.bind fun gs => (readText ⟨f, gs, [id, v, w]⟩).toOption.join) = none := by
    cases gs? <;> rfl
  rw [saying_of_groups hnames, htext]
  simp only [Option.bind_some, readOtherStyle, hkey.unknown, Option.isSome_none, about, hid,
    if_true, Bool.false_eq_true, if_false]
  rfl

/-! ## Texts -/

theorem setsText_kind (k : Kind) :
    SetsText (("lv_" : Text) ++ k.sourceName ++ "_set_text") := by
  have hnames : names.map (·.groups? (("lv_" : Text) ++ k.sourceName ++ "_set_text")) =
      [some [k.sourceName], none, none, none, none, none, none, none, none] := by
    rw [map_groups_names]
    repeat rw [Text.ofString_ofList]
    cases k <;> decide +kernel
  simp only [names, List.map_cons, List.map_nil, List.cons.injEq, and_true] at hnames
  obtain ⟨htext, -, -, -, hknown, hany, halign, hcenter, hposition⟩ := hnames
  refine ⟨k.isWord_function (.ofList (by decide)), ⟨_, htext⟩, ?_⟩
  simp only [List.forall_mem_cons]
  exact ⟨hknown, hany, halign, hcenter, hposition, by simp⟩

end Recognizer

end LvglForest
