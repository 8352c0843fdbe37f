import LvglForest.Proofs.Code.Setter
import LvglForest.Proofs.Fact.Origin
import LvglForest.Proofs.Hierarchy.Latest

/-!
# What the properties of a widget were read off

The size, the value, the range and the known styles of a widget of a source text are those of the
last facts about its name that say something of them, and each of these facts was read off a call in
the source (`ParsedFile.isSetIn_of_mem_widgets`). So a property that was set is the reading of an
argument that stands in the source, and what its setter spells is what was read there
(`Widget.IsSetIn.of_size` and the others).
-/

namespace LvglForest

open Extraction Recognizer

namespace Fact

theorem mem_of_mem_own {id : Text} {fs : List Fact} {f : Fact} (h : f ∈ own id fs) :
    f ∈ fs ∧ f.identifier = id := by
  have hmem := (List.dropWhile_sublist _).subset h
  rw [about, List.mem_filter, decide_eq_true_eq] at hmem
  exact hmem

/-- What the last fact of a kind about an identifier says, some fact about it says, if there is one
at all. -/
theorem eq_or_exists_of_latest? {α : Type} {pick : Fact → Option α} {id : Text} {fs : List Fact}
    {a b : α} (h : a = (latest? pick (own id fs)).getD b) :
    a = b ∨ ∃ f ∈ fs, f.identifier = id ∧ pick f = some a := by
  cases hlatest : latest? pick (own id fs) with
  | none =>
    rw [hlatest] at h
    exact .inl h
  | some c =>
    rw [hlatest, Option.getD_some] at h
    subst h
    obtain ⟨f, hf, hpick⟩ := List.mem_filterMap.1 (List.mem_of_getLast? hlatest)
    obtain ⟨hmem, hid⟩ := mem_of_mem_own hf
    exact .inr ⟨f, hmem, hid, hpick⟩

section Assertions

variable {f : Fact}

theorem assertion_of_size? {width height : Size} (h : f.size? = some (width, height)) :
    f.assertion = .size width height := by
  unfold size? at h
  split at h <;> cases h
  assumption

theorem assertion_of_value? {v : Value} (h : f.value? = some v) : f.assertion = .value v := by
  unfold value? at h
  split at h <;> cases h
  assumption

theorem assertion_of_range? {rangeMin rangeMax : Value} (h : f.range? = some (rangeMin, rangeMax)) :
    f.assertion = .range rangeMin rangeMax := by
  unfold range? at h
  split at h <;> cases h
  assumption

theorem assertion_of_style? {key : Text} {v : Value} (h : f.style? key = some v) :
    f.assertion = .style key v := by
  unfold style? at h
  split at h
  · next hassertion =>
    split at h
    · next hkey =>
      cases h
      rw [hassertion, hkey]
    · cases h
  · cases h

end Assertions

end Fact

/-- The properties of a widget as calls in a source text set them. What no call sets is not set. -/
structure Widget.IsSetIn (source : Text) (w : Widget) : Prop where
  size : (w.width, w.height) = (.auto, .auto) ∨
    ∃ call t u, Finds source sizePattern call ∧ call.arguments = [w.name, t, u] ∧
      Size.ofSource t = .ok w.width ∧ Size.ofSource u = .ok w.height
  value : w.value = .null ∨
    ∃ call t rest, Finds source valuePattern call ∧ call.arguments = w.name :: t :: rest ∧
      w.value = (Operand.ofSource t).toValue
  range : (w.rangeMin, w.rangeMax) = (.null, .null) ∨
    ∃ call t u, Finds source rangePattern call ∧ call.arguments = [w.name, t, u] ∧
      w.rangeMin = (Operand.ofSource t).toValue ∧ w.rangeMax = (Operand.ofSource u).toValue
  style : ∀ (k : StyleKey) v, w.styles.known k = some v →
    ∃ call t rest, Finds source knownStylePattern call ∧ call.groups = [k.name] ∧
      call.arguments = w.name :: t :: rest ∧ v = .text (k.ofSource t)

namespace Widget

variable {source : Text} {file : Value} {w : Widget}

/-- What the facts about a name tell was read off calls. -/
theorem IsToldBy.isSetIn (h : w.IsToldBy file (Fact.own w.name (facts .standard source)))
    (hstyles : w.styles.AreTexts) : w.IsSetIn source where
  size := by
    rcases Fact.eq_or_exists_of_latest? h.size with hauto | ⟨f, hf, hid, hsize⟩
    · exact .inl hauto
    · rw [← hid]
      exact .inr (exists_call_of_size hf (Fact.assertion_of_size? hsize))
  value := by
    rcases Fact.eq_or_exists_of_latest? h.value with hnull | ⟨f, hf, hid, hvalue⟩
    · exact .inl hnull
    · rw [← hid]
      exact .inr (exists_call_of_value hf (Fact.assertion_of_value? hvalue))
  range := by
    rcases Fact.eq_or_exists_of_latest? h.range with hnull | ⟨f, hf, hid, hrange⟩
    · exact .inl hnull
    · rw [← hid]
      exact .inr (exists_call_of_range hf (Fact.assertion_of_range? hrange))
  style := by
    intro k v hv
    have hvalue : w.styles.value k.name = v := by
      rw [Styles.value, Styles.get_name, hv, Option.getD_some]
    rcases Fact.eq_or_exists_of_latest? (h.style k.name) with hnull | ⟨f, hf, hid, hstyle⟩
    · obtain ⟨t, rfl⟩ := hstyles.known k v hv
      cases hvalue.symm.trans hnull
    · rw [← hid]
      rw [hvalue] at hstyle
      exact exists_call_of_style hf (Fact.assertion_of_style? hstyle)

end Widget

/-! ## What the setters spell -/

namespace Styles

theorem argument_name (k : StyleKey) (t : Text) :
    argument k.name (.text t) = .ok (k.toSource t) := by
  rw [argument, k.ofName?_name]
  rfl

end Styles

namespace Widget.IsSetIn

variable {source id : Text} {w : Widget} {args : List Text} (hset : w.IsSetIn source)
include hset

theorem of_size (h : w.Setter id "lv_obj_set_size" args) :
    ∃ call t u t' u', Finds source sizePattern call ∧ call.arguments = [w.name, t, u] ∧
      args = [id, t', u'] ∧ Size.ofSource t = .ok w.width ∧ Size.ofSource u = .ok w.height ∧
      w.width.toSource = .ok t' ∧ w.height.toSource = .ok u' := by
  obtain ⟨t', u', rfl, hwidth, -, ht', hu'⟩ := h.of_size
  rcases hset.size with hauto | ⟨call, t, u, hcall, harguments, ht, hu⟩
  · rw [(Prod.mk.inj hauto).1] at hwidth
    cases hwidth
  · exact ⟨call, t, u, t', u', hcall, harguments, rfl, ht, hu, ht', hu'⟩

theorem of_value {k : Kind}
    (h : w.Setter id (("lv_" : Text) ++ k.sourceName ++ "_set_value") args) :
    ∃ call t rest t' more, Finds source valuePattern call ∧
      call.arguments = w.name :: t :: rest ∧ args = id :: t' :: more ∧
      w.value = (Operand.ofSource t).toValue ∧ w.value.display = .ok t' := by
  obtain ⟨t', more, rfl, hvalue, ht'⟩ := h.of_value
  rcases hset.value with hnull | ⟨call, t, rest, hcall, harguments, ht⟩
  · rw [hnull] at hvalue
    cases hvalue
  · exact ⟨call, t, rest, t', more, hcall, harguments, rfl, ht, ht'⟩

theorem of_range {k : Kind}
    (h : w.Setter id (("lv_" : Text) ++ k.sourceName ++ "_set_range") args) :
    ∃ call t u t' u', Finds source rangePattern call ∧ call.arguments = [w.name, t, u] ∧
      args = [id, t', u'] ∧ w.rangeMin = (Operand.ofSource t).toValue ∧
      w.rangeMax = (Operand.ofSource u).toValue ∧ w.rangeMin.display = .ok t' ∧
      w.rangeMax.display = .ok u' := by
  obtain ⟨t', u', rfl, hmin, -, ht', hu'⟩ := h.of_range
  rcases hset.range with hnull | ⟨call, t, u, hcall, harguments, ht, hu⟩
  · rw [(Prod.mk.inj hnull).1] at hmin
    cases hmin
  · exact ⟨call, t, u, t', u', hcall, harguments, rfl, ht, hu, ht', hu'⟩

theorem of_style {k : StyleKey} (hstyles : w.styles.AreTexts)
    (h : w.Setter id (("lv_obj_set_style_" : Text) ++ k.name) args) :
    ∃ call t rest, Finds source knownStylePattern call ∧ call.groups = [k.name] ∧
      call.arguments = w.name :: t :: rest ∧
      w.styles.known k = some (.text (k.ofSource t)) ∧
      args = [id, k.toSource (k.ofSource t), "0"] := by
  obtain ⟨u, v, rfl, hmem, hu⟩ := h.of_style
  have hknown := hstyles.known_of_mem_items hmem
  obtain ⟨call, t, rest, hcall, hgroups, harguments, rfl⟩ := hset.style k v hknown
  rw [Styles.argument_name] at hu
  cases hu
  exact ⟨call, t, rest, hcall, hgroups, harguments, hknown, rfl⟩

end Widget.IsSetIn

namespace ParsedFile

variable {placeholders file : Value} {source : Text} {w : Widget}
  (h : w ∈ Forest.toList (ofSource placeholders file source).widgets)
include h

/-- A widget of a source text is told by the facts about its name. -/
theorem isToldBy_of_mem_widgets :
    w.IsToldBy file (Fact.own w.name (facts .standard source)) := by
  obtain ⟨id, -, e, he, parent, rfl⟩ := exists_ofOwn_of_mem_widgets h
  exact Entry.isToldBy_toWidget he file id parent

theorem areTexts_of_mem_widgets : w.styles.AreTexts := by
  obtain ⟨⟨id, e⟩, he, p, rfl⟩ := exists_entry_of_mem_widgets h
  exact (isSourced_of_mem_entries source (id, e) he).styles

/-- **What is set of a widget of a source text** was read off calls about it in the source. -/
theorem isSetIn_of_mem_widgets : w.IsSetIn source :=
  (isToldBy_of_mem_widgets h).isSetIn (areTexts_of_mem_widgets h)

end ParsedFile

end LvglForest
