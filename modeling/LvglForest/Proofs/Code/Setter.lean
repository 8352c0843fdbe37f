import LvglForest.Proofs.Code.Emission

/-!
# The setters of a widget

The calls that are emitted for a widget, one by one: what they set, when they are made, and with
which arguments (`Widget.call_mem_emissions_iff`). The name of a call decides what it sets, since no
two setters share a name but those of styles (`Widget.Setter.of_size` and the others).
-/

namespace LvglForest.Widget

/-- The setters that are called for a widget, with their arguments. -/
inductive Setter (id : Text) (w : Widget) : Text → List Text → Prop
  | size {t u : Text} (hwidth : w.width.isAuto = false) (hheight : w.height.isAuto = false)
      (ht : w.width.toSource = .ok t) (hu : w.height.toSource = .ok u) :
      Setter id w "lv_obj_set_size" [id, t, u]
  | position {x y : Text} (halign : w.align.isNull = true) (hx : w.x.display = .ok x)
      (hy : w.y.display = .ok y) : Setter id w "lv_obj_set_pos" [id, x, y]
  | center (halign : w.align.isNull = false)
      (hmiddle : (w.align.isText Anchor.middle.keyword && w.x.isZero && w.y.isZero) = true) :
      Setter id w "lv_obj_center" [id]
  | align {t x y : Text} (halign : w.align.isNull = false)
      (hmiddle : (w.align.isText Anchor.middle.keyword && w.x.isZero && w.y.isZero) = false)
      (ht : w.align.display = .ok t) (hx : w.x.display = .ok x) (hy : w.y.display = .ok y) :
      Setter id w "lv_obj_align" [id, t, x, y]
  | text {k : Kind} {t : Text} (hkind : Kind.ofValue? w.kind = some k) (hhas : k.hasText = true)
      (hset : w.text.isNull = false) (ht : w.text.characters = .ok t) :
      Setter id w (("lv_" : Text) ++ k.sourceName ++ "_set_text") [id, Literal.encode t]
  | range {k : Kind} {t u : Text} (hkind : Kind.ofValue? w.kind = some k)
      (hhas : k.hasValue = true) (hmin : w.rangeMin.isNull = false)
      (hmax : w.rangeMax.isNull = false) (ht : w.rangeMin.display = .ok t)
      (hu : w.rangeMax.display = .ok u) :
      Setter id w (("lv_" : Text) ++ k.sourceName ++ "_set_range") [id, t, u]
  | value {k : Kind} {t : Text} (hkind : Kind.ofValue? w.kind = some k) (hhas : k.hasValue = true)
      (hset : w.value.isNull = false) (ht : w.value.display = .ok t) :
      Setter id w (("lv_" : Text) ++ k.sourceName ++ "_set_value")
        ([id, t] ++ if k.isAnimated then [("LV_ANIM_OFF" : Text)] else [])
  | style {key t : Text} {v : Value} (hset : (key, v) ∈ w.styles.items)
      (ht : Styles.argument key v = .ok t) :
      Setter id w (("lv_obj_set_style_" : Text) ++ key) [id, t, "0"]

/-! ## Calls among the emissions -/

section Calls

variable {d : Detail} {id parent f g : Text} {args : List Text} {w : Widget}

theorem emitCall_eq_iff {as : Except Fault (List Text)} :
    .ok (.statement (.call f args)) = emitCall g as ↔ f = g ∧ as = .ok args := by
  cases as with
  | error e => simp [emitCall, Except.map]
  | ok ts => simp [emitCall, Except.map, eq_comm]

theorem bind_eq_ok_iff {α β : Type} {a : Except Fault α} {h : α → Except Fault β} {b : β} :
    (a >>= h) = .ok b ↔ ∃ x, a = .ok x ∧ h x = .ok b := by
  constructor
  · exact exists_of_bind_eq_ok
  · rintro ⟨x, rfl, hb⟩
    exact hb

theorem call_not_mem_creationEmissions :
    .ok (.statement (.call f args)) ∉ w.creationEmissions d id parent := by
  intro h
  unfold creationEmissions at h
  split at h
  · cases List.mem_singleton.1 h
  · rcases List.mem_append.1 h with h | h
    · cases d with
      | concise => cases h
      | verbose =>
        obtain ⟨kind, -, hkind⟩ := exists_of_map_eq_ok (List.mem_singleton.1 h).symm
        cases hkind
    · cases List.mem_singleton.1 h

theorem setter_of_mem_sizeEmissions (h : .ok (.statement (.call f args)) ∈ w.sizeEmissions id) :
    w.Setter id f args := by
  unfold sizeEmissions at h
  split at h
  · cases h
  · next hauto =>
    rw [Bool.or_eq_true, not_or, Bool.not_eq_true, Bool.not_eq_true] at hauto
    rw [List.mem_singleton, emitCall_eq_iff] at h
    simp only [bind_eq_ok_iff] at h
    obtain ⟨rfl, t, ht, u, hu, hargs⟩ := h
    cases hargs
    exact .size hauto.1 hauto.2 ht hu

theorem setter_of_placeEmission (h : .ok (.statement (.call f args)) = w.placeEmission id) :
    w.Setter id f args := by
  unfold placeEmission at h
  split at h
  · next hnull =>
    rw [emitCall_eq_iff] at h
    simp only [bind_eq_ok_iff] at h
    obtain ⟨rfl, x, hx, y, hy, hargs⟩ := h
    cases hargs
    exact .position hnull hx hy
  · next hnull =>
    rw [Bool.not_eq_true] at hnull
    split at h
    · next hmiddle =>
      obtain ⟨rfl, hargs⟩ := emitCall_eq_iff.1 h
      cases hargs
      exact .center hnull hmiddle
    · next hmiddle =>
      rw [emitCall_eq_iff] at h
      simp only [bind_eq_ok_iff] at h
      obtain ⟨rfl, t, ht, x, hx, y, hy, hargs⟩ := h
      cases hargs
      exact .align hnull (Bool.eq_false_iff.2 hmiddle) ht hx hy

/-- A setting is a call if the kind has the setter. -/
theorem exists_of_settingEmission {setting : Setting} {has : Kind → Bool} {ending : Text}
    {as : Except Fault (List Text)}
    (h : .ok (.statement (.call f args)) = w.settingEmission id setting
      ((Kind.ofValue? w.kind).elim false has)
      (("lv_" : Text) ++ (Kind.orContainer (Kind.ofValue? w.kind)).sourceName ++ ending) as) :
    ∃ k, Kind.ofValue? w.kind = some k ∧ has k = true ∧
      f = ("lv_" : Text) ++ k.sourceName ++ ending ∧ as = .ok args := by
  unfold settingEmission at h
  split at h
  · next hhas =>
    cases hkind : Kind.ofValue? w.kind with
    | none =>
      rw [hkind] at hhas
      cases hhas
    | some k =>
      rw [hkind] at hhas h
      exact ⟨k, rfl, hhas, emitCall_eq_iff.1 h⟩
  · cases h

theorem setter_of_mem_propertyEmissions
    (h : .ok (.statement (.call f args)) ∈ w.propertyEmissions id) : w.Setter id f args := by
  unfold propertyEmissions at h
  simp only [List.mem_append] at h
  rcases h with (h | h) | h
  · split at h
    · cases h
    · next hset =>
      obtain ⟨k, hkind, hhas, rfl, hargs⟩ := exists_of_settingEmission (List.mem_singleton.1 h)
      rw [bind_eq_ok_iff] at hargs
      obtain ⟨t, ht, hargs⟩ := hargs
      cases hargs
      exact .text hkind hhas (Bool.eq_false_iff.2 hset) ht
  · split at h
    · cases h
    · next hset =>
      rw [Bool.or_eq_true, not_or, Bool.not_eq_true, Bool.not_eq_true] at hset
      obtain ⟨k, hkind, hhas, rfl, hargs⟩ := exists_of_settingEmission (List.mem_singleton.1 h)
      simp only [bind_eq_ok_iff] at hargs
      obtain ⟨t, ht, u, hu, hargs⟩ := hargs
      cases hargs
      exact .range hkind hhas hset.1 hset.2 ht hu
  · split at h
    · cases h
    · next hset =>
      obtain ⟨k, hkind, hhas, rfl, hargs⟩ := exists_of_settingEmission (List.mem_singleton.1 h)
      rw [bind_eq_ok_iff] at hargs
      obtain ⟨t, ht, hargs⟩ := hargs
      rw [hkind] at hargs
      cases hargs
      exact .value hkind hhas (Bool.eq_false_iff.2 hset) ht

theorem setter_of_mem_styleEmissions (h : .ok (.statement (.call f args)) ∈ w.styleEmissions id) :
    w.Setter id f args := by
  unfold styleEmissions at h
  obtain ⟨⟨key, v⟩, hset, hcall⟩ := List.mem_map.1 h
  obtain ⟨rfl, hargs⟩ := emitCall_eq_iff.1 hcall.symm
  obtain ⟨t, ht, rfl⟩ := exists_of_map_eq_ok hargs
  exact .style hset ht

/-- **The calls that are emitted for a widget** are those of its setters. -/
theorem call_mem_emissions_iff :
    .ok (.statement (.call f args)) ∈ w.emissions d id parent ↔ w.Setter id f args := by
  constructor
  · intro h
    simp only [emissions, List.mem_append, List.mem_singleton] at h
    rcases h with ((((h | h) | h) | h) | h) | h
    · exact absurd h call_not_mem_creationEmissions
    · exact setter_of_mem_sizeEmissions h
    · exact setter_of_placeEmission h
    · exact setter_of_mem_propertyEmissions h
    · exact setter_of_mem_styleEmissions h
    · cases h
  · intro h
    simp only [emissions, List.mem_append, List.mem_singleton]
    cases h with
    | size hwidth hheight ht hu =>
      left; left; left; left; right
      rw [sizeEmissions, hwidth, hheight, ht, hu]
      exact List.mem_singleton_self _
    | position halign hx hy =>
      left; left; left; right
      rw [placeEmission, halign, hx, hy]
      rfl
    | center halign hmiddle =>
      left; left; left; right
      rw [placeEmission, halign, hmiddle]
      rfl
    | align halign hmiddle ht hx hy =>
      left; left; left; right
      rw [placeEmission, halign, hmiddle, ht, hx, hy]
      rfl
    | text hkind hhas hset ht =>
      left; left; right
      simp only [propertyEmissions, hkind, hset, ht, List.mem_append]
      left; left
      simp only [Option.elim, hhas]
      exact List.mem_singleton_self _
    | range hkind hhas hmin hmax ht hu =>
      left; left; right
      simp only [propertyEmissions, hkind, hmin, hmax, ht, hu, List.mem_append]
      left; right
      simp only [Option.elim, hhas]
      exact List.mem_singleton_self _
    | value hkind hhas hset ht =>
      left; left; right
      simp only [propertyEmissions, hkind, hset, ht, List.mem_append]
      right
      simp only [Option.elim, hhas]
      exact List.mem_singleton_self _
    | style hset ht =>
      left; right
      refine List.mem_map.2 ⟨_, hset, (emitCall_eq_iff.2 ⟨rfl, ?_⟩).symm⟩
      rw [ht]
      rfl

end Calls

/-! ## Setters by name -/

namespace Setter

variable {id : Text} {w : Widget} {args : List Text}

theorem ne_of_suffix {f g u v : Text} (hu : u <:+ f) (hv : v <:+ g)
    (h : ¬ u <:+ v ∧ ¬ v <:+ u) : f ≠ g := by
  rintro rfl
  rcases List.suffix_or_suffix_of_suffix hu hv with huv | hvu
  · exact h.1 huv
  · exact h.2 hvu

theorem ne_style {f key : Text} (h : ¬ ("lv_obj_set_style_" : Text) <+: f) :
    f ≠ ("lv_obj_set_style_" : Text) ++ key := by
  rintro rfl
  exact h (List.prefix_append _ _)

/-- No setter of a kind is named like one of a style. -/
theorem not_prefix_kind (k : Kind) {ending : Text}
    (hending : ending = "_set_text" ∨ ending = "_set_range" ∨ ending = "_set_value") :
    ¬ ("lv_obj_set_style_" : Text) <+: ("lv_" : Text) ++ k.sourceName ++ ending := by
  rcases hending with rfl | rfl | rfl <;> cases k <;> decide

theorem of_size (h : w.Setter id "lv_obj_set_size" args) :
    ∃ t u, args = [id, t, u] ∧ w.width.isAuto = false ∧ w.height.isAuto = false ∧
      w.width.toSource = .ok t ∧ w.height.toSource = .ok u := by
  generalize hf : Text.ofString "lv_obj_set_size" = f at h
  cases h with
  | size hwidth hheight ht hu => exact ⟨_, _, rfl, hwidth, hheight, ht, hu⟩
  | position => exact absurd hf (by decide)
  | center => exact absurd hf (by decide)
  | align => exact absurd hf (by decide)
  | text => exact absurd hf (ne_of_suffix List.suffix_rfl (List.suffix_append _ _) (by decide))
  | range => exact absurd hf (ne_of_suffix List.suffix_rfl (List.suffix_append _ _) (by decide))
  | value => exact absurd hf (ne_of_suffix List.suffix_rfl (List.suffix_append _ _) (by decide))
  | style => exact absurd hf (ne_style (by decide))

theorem of_value {k : Kind}
    (h : w.Setter id (("lv_" : Text) ++ k.sourceName ++ "_set_value") args) :
    ∃ t rest, args = id :: t :: rest ∧ w.value.isNull = false ∧ w.value.display = .ok t := by
  generalize hf : ("lv_" : Text) ++ k.sourceName ++ ("_set_value" : Text) = f at h
  have hlast : ("_set_value" : Text) <:+ f := hf ▸ List.suffix_append _ _
  cases h with
  | size => exact absurd hlast (by decide)
  | position => exact absurd hlast (by decide)
  | center => exact absurd hlast (by decide)
  | align => exact absurd hlast (by decide)
  | text => exact absurd rfl (ne_of_suffix hlast (List.suffix_append _ _) (by decide))
  | range => exact absurd rfl (ne_of_suffix hlast (List.suffix_append _ _) (by decide))
  | value hkind hhas hset ht => exact ⟨_, _, rfl, hset, ht⟩
  | style => exact absurd hf (ne_style (not_prefix_kind k (.inr (.inr rfl))))

theorem of_range {k : Kind}
    (h : w.Setter id (("lv_" : Text) ++ k.sourceName ++ "_set_range") args) :
    ∃ t u, args = [id, t, u] ∧ w.rangeMin.isNull = false ∧ w.rangeMax.isNull = false ∧
      w.rangeMin.display = .ok t ∧ w.rangeMax.display = .ok u := by
  generalize hf : ("lv_" : Text) ++ k.sourceName ++ ("_set_range" : Text) = f at h
  have hlast : ("_set_range" : Text) <:+ f := hf ▸ List.suffix_append _ _
  cases h with
  | size => exact absurd hlast (by decide)
  | position => exact absurd hlast (by decide)
  | center => exact absurd hlast (by decide)
  | align => exact absurd hlast (by decide)
  | text => exact absurd rfl (ne_of_suffix hlast (List.suffix_append _ _) (by decide))
  | range hkind hhas hmin hmax ht hu => exact ⟨_, _, rfl, hmin, hmax, ht, hu⟩
  | value => exact absurd rfl (ne_of_suffix hlast (List.suffix_append _ _) (by decide))
  | style => exact absurd hf (ne_style (not_prefix_kind k (.inr (.inl rfl))))

theorem of_style {key : Text} (h : w.Setter id (("lv_obj_set_style_" : Text) ++ key) args) :
    ∃ t v, args = [id, t, "0"] ∧ (key, v) ∈ w.styles.items ∧ Styles.argument key v = .ok t := by
  generalize hf : ("lv_obj_set_style_" : Text) ++ key = f at h
  have hfirst : ("lv_obj_set_style_" : Text) <+: f := hf ▸ List.prefix_append _ _
  cases h with
  | size => exact absurd hfirst (by decide)
  | position => exact absurd hfirst (by decide)
  | center => exact absurd hfirst (by decide)
  | align => exact absurd hfirst (by decide)
  | text => exact absurd hfirst (not_prefix_kind _ (.inl rfl))
  | range => exact absurd hfirst (not_prefix_kind _ (.inr (.inl rfl)))
  | value => exact absurd hfirst (not_prefix_kind _ (.inr (.inr rfl)))
  | style hset ht =>
    obtain rfl := List.append_cancel_left hf
    exact ⟨_, _, rfl, hset, ht⟩

end Setter

end LvglForest.Widget
