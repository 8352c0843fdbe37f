import LvglForest.Proofs.Table
import LvglForest.Widget.Style

/-!
# Styles set one after the other

Styles are rebuilt by setting what they list (`Styles.foldl_items`): the known properties go to their
places, and the others, which are all different, come one behind the other. Styles that are set to
texts only (`Styles.AreTexts`) are written into a document and read from it as they are
(`Styles.AreTexts.ofValue_toValue`), and whatever a document gives is set to texts
(`Styles.areTexts_ofValue`).
-/

namespace LvglForest

@[simp]
theorem StyleKey.ofName?_name (k : StyleKey) : ofName? k.name = some k := by cases k <;> decide

theorem StyleKey.name_of_ofName? {t : Text} {k : StyleKey} (h : ofName? t = some k) :
    k.name = t := by
  rw [ofName?] at h
  exact of_decide_eq_true (List.find?_some h :)

theorem StyleKey.name_injective : Function.Injective name := by
  intro j k h
  rw [← Option.some.injEq, ← ofName?_name j, h, ofName?_name]

theorem StyleKey.mem_all (k : StyleKey) : k ∈ all := by cases k <;> decide

theorem StyleKey.ofName?_eq_none_iff {t : Text} : ofName? t = none ↔ t ∉ all.map name := by
  rw [ofName?, List.find?_eq_none, List.mem_map]
  simp

namespace Styles

/-! ## One property -/

theorem get_empty (key : Text) : ({} : Styles).get key = none := by
  unfold get
  cases StyleKey.ofName? key <;> rfl

theorem get_name (s : Styles) (k : StyleKey) : s.get k.name = s.known k := by
  rw [get, k.ofName?_name]

/-- A property has the value that it was set to, and the others keep theirs. Null takes a known
property back. -/
theorem get_set (key k : Text) (v : Value) (s : Styles) :
    (s.set k v).get key =
      if k = key then (if (StyleKey.ofName? k).isSome && v.isNull then none else some v)
      else s.get key := by
  unfold get set
  by_cases hkey : k = key
  · subst hkey
    rw [if_pos rfl]
    cases StyleKey.ofName? k with
    | none => simp [Table.get?_put]
    | some j => cases hv : v.isNull <;> simp
  · rw [if_neg hkey]
    cases hk : StyleKey.ofName? k with
    | none =>
      cases StyleKey.ofName? key with
      | none => rw [Table.get?_put, if_neg hkey]
      | some i => rfl
    | some j =>
      cases hi : StyleKey.ofName? key with
      | none => rfl
      | some i =>
        -- Two names of one property would be the same.
        have hne : i ≠ j := by
          rintro rfl
          exact hkey ((StyleKey.name_of_ofName? hk).symm.trans (StyleKey.name_of_ofName? hi))
        simp [hne]

theorem mem_items_of_known {s : Styles} {k : StyleKey} {v : Value} (h : s.known k = some v) :
    (k.name, v) ∈ s.items := by
  refine List.mem_append_left _ (List.mem_filterMap.2 ⟨k, k.mem_all, ?_⟩)
  rw [h, Option.map_some]

/-! ## What is listed -/

/-- Setting known properties that are not null one after the other. -/
theorem foldl_known {known : StyleKey → Option Value}
    (hknown : ∀ k v, known k = some v → v.isNull = false) (ks : List StyleKey) (s : Styles) :
    (ks.filterMap fun k => (known k).map (k.name, ·)).foldl (fun s e => s.set e.1 e.2) s =
      { s with known := fun k => if k ∈ ks then (known k).or (s.known k) else s.known k } := by
  induction ks generalizing s with
  | nil => rfl
  | cons k ks ih =>
    rw [List.filterMap_cons]
    cases hk : known k with
    | none =>
      rw [Option.map_none, ih]
      congr 1
      funext j
      by_cases hj : j = k
      · subst hj
        simp [hk]
      · simp [hj]
    | some v =>
      have hset : s.set k.name v = { s with known := fun j => if j = k then some v else s.known j } := by
        rw [set, StyleKey.ofName?_name]
        simp only [hknown k v hk, Bool.false_eq_true, if_false]
      rw [Option.map_some, List.foldl_cons, ih, hset]
      congr 1
      funext j
      by_cases hj : j = k
      · subst hj
        simp [hk]
      · simp [hj]

/-- Setting new properties that are not known one after the other. -/
theorem foldl_extra {items : Table Value} (hunknown : ∀ e ∈ items, StyleKey.ofName? e.1 = none)
    (s : Styles) (hn : (s.extra ++ items : Table Value).keys.Nodup) :
    items.foldl (fun s e => s.set e.1 e.2) s = { s with extra := s.extra ++ items } := by
  induction items generalizing s with
  | nil => rw [List.foldl_nil, List.append_nil]
  | cons e items ih =>
    obtain ⟨key, v⟩ := e
    rw [List.forall_mem_cons] at hunknown
    have hnew : key ∉ s.extra.keys := by
      rw [Table.keys, List.map_append, List.nodup_append] at hn
      exact fun h => hn.2.2 key h key List.mem_cons_self rfl
    have hset : s.set key v = { s with extra := s.extra ++ [(key, v)] } := by
      rw [set, hunknown.1]
      simp only [Table.put_of_not_mem hnew]
    have hrest : (s.extra ++ [(key, v)] ++ items : Table Value).keys.Nodup := by
      rw [List.append_assoc]
      exact hn
    rw [List.foldl_cons, hset, ih hunknown.2 _ hrest, List.append_assoc]
    rfl

/-- **Styles are rebuilt from their items.** -/
theorem foldl_items {s : Styles} (hknown : ∀ k v, s.known k = some v → v.isNull = false)
    (hunknown : ∀ e ∈ s.extra, StyleKey.ofName? e.1 = none) (hn : s.extra.keys.Nodup) :
    s.items.foldl (fun s e => s.set e.1 e.2) {} = s := by
  have hfirst : ({ known := fun k => if k ∈ StyleKey.all then (s.known k).or none else none } :
      Styles) = { known := s.known } := by
    simp only [StyleKey.mem_all, if_true, Option.or_none]
  rw [items, List.foldl_append, foldl_known hknown, hfirst,
    foldl_extra hunknown { known := s.known } hn]
  rfl

/-! ## Texts only -/

/-- Fields that are texts are set as they are. -/
theorem ofFields_texts {fs : List (Text × Value)} (h : ∀ f ∈ fs, ∃ t, f.2 = .text t)
    (s : Styles) : s.ofFields fs = .ok (fs.foldl (fun s f => s.set f.1 f.2) s) := by
  induction fs generalizing s with
  | nil => rfl
  | cons f fs ih =>
    obtain ⟨k, v⟩ := f
    rw [List.forall_mem_cons] at h
    obtain ⟨t, rfl⟩ := h.1
    rw [List.foldl_cons, ← ih h.2]
    rfl

/-- Styles that come of setting properties to texts: all values are texts, and the properties in the
second group are not known and different from one another. -/
structure AreTexts (s : Styles) : Prop where
  known : ∀ k v, s.known k = some v → ∃ t, v = .text t
  extra : ∀ e ∈ s.extra, ∃ t, e.2 = .text t
  unknown : ∀ e ∈ s.extra, StyleKey.ofName? e.1 = none
  distinct : s.extra.keys.Nodup

namespace AreTexts

theorem empty : AreTexts {} where
  known _ _ h := nomatch h
  extra _ h := nomatch h
  unknown _ h := nomatch h
  distinct := List.nodup_nil

variable {s : Styles} (h : s.AreTexts)
include h

/-- Setting one more property to a text keeps them so. -/
theorem set (key u : Text) : (s.set key (.text u)).AreTexts := by
  unfold Styles.set
  split
  · next j hj =>
    refine ⟨fun k v hk => ?_, h.extra, h.unknown, h.distinct⟩
    simp only at hk
    split at hk
    · cases hk
      exact ⟨u, rfl⟩
    · exact h.known k v hk
  · next hkey =>
    exact ⟨h.known, Table.forall_mem_put h.extra ⟨u, rfl⟩, Table.forall_mem_put h.unknown hkey,
      Table.nodup_keys_put h.distinct _⟩

theorem items : ∀ i ∈ s.items, ∃ t, i.2 = .text t := by
  intro i hi
  rcases List.mem_append.1 hi with hi | hi
  · obtain ⟨k, -, hk⟩ := List.mem_filterMap.1 hi
    obtain ⟨v, hv, rfl⟩ := Option.map_eq_some_iff.1 hk
    exact h.known k v hv
  · exact h.extra i hi

/-- The listed value of a known style. -/
theorem known_of_mem_items {k : StyleKey} {v : Value} (hmem : (k.name, v) ∈ s.items) :
    s.known k = some v := by
  rcases List.mem_append.1 hmem with hmem | hmem
  · obtain ⟨j, -, hj⟩ := List.mem_filterMap.1 hmem
    obtain ⟨u, hu, heq⟩ := Option.map_eq_some_iff.1 hj
    obtain ⟨hkey, rfl⟩ := Prod.mk.inj heq
    obtain rfl := StyleKey.name_injective hkey
    exact hu
  · have hunknown := h.unknown _ hmem
    rw [k.ofName?_name] at hunknown
    cases hunknown

/-- What is listed is what the properties are set to. -/
theorem mem_items_iff {key : Text} {v : Value} : (key, v) ∈ s.items ↔ s.get key = some v := by
  unfold get
  cases hkey : StyleKey.ofName? key with
  | some k =>
    obtain rfl := StyleKey.name_of_ofName? hkey
    exact ⟨h.known_of_mem_items, mem_items_of_known⟩
  | none =>
    have hextra : (key, v) ∈ s.items ↔ (key, v) ∈ s.extra := by
      refine ⟨fun hmem => (List.mem_append.1 hmem).resolve_left fun hmem => ?_,
        List.mem_append_right _⟩
      obtain ⟨k, -, hk⟩ := List.mem_filterMap.1 hmem
      obtain ⟨u, -, heq⟩ := Option.map_eq_some_iff.1 hk
      rw [← (Prod.mk.inj heq).1, k.ofName?_name] at hkey
      cases hkey
    exact hextra.trans ⟨Table.get?_of_mem h.distinct, Table.mem_of_get?⟩

/-- **Styles of texts are read back.** -/
theorem ofValue_toValue : ofValue s.toValue = .ok s := by
  have hknown : ∀ k v, s.known k = some v → v.isNull = false := by
    intro k v hv
    obtain ⟨t, rfl⟩ := h.known k v hv
    rfl
  have hset := foldl_items hknown h.unknown h.distinct
  have hread := ofFields_texts h.items {}
  rw [hset] at hread
  exact hread

end AreTexts

/-- What a document sets, it sets to texts. -/
theorem areTexts_ofFields {fs : List (Text × Value)} {s s' : Styles} (hs : s.AreTexts)
    (h : s.ofFields fs = .ok s') : s'.AreTexts := by
  induction fs generalizing s with
  | nil =>
    cases h
    exact hs
  | cons f fs ih =>
    obtain ⟨k, v⟩ := f
    rw [ofFields] at h
    split at h
    · exact ih hs h
    · split at h
      · cases h
      · next t _ => exact ih (hs.set k t) h

theorem areTexts_ofValue {v : Value} {s : Styles} (h : ofValue v = .ok s) : s.AreTexts := by
  unfold ofValue at h
  split at h
  · cases h
  · exact areTexts_ofFields .empty h

end Styles

end LvglForest
