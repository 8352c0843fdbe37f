import LvglForest.Proofs.Widget.Style
import Mathlib.Data.List.Induction

/-!
# Styles in canonical order

Styles that are set to texts one after the other, every property as often as one likes, are a map
with a fixed order (`Styles.ofSettings_canonical`). One setting changes the value of its own
property (`Styles.get_set`) and adds its key behind the other ones only if it is new and not known
(`Styles.keys_extra_ofSettings`), so that a run of settings can be read off from its end: the last
value of each key counts, and the first time a key that is not known is set gives it its place. The
known properties have their places before, whenever they are set.
-/

namespace LvglForest.Styles

/-- The text that a property is set to last. -/
def lastSet? (key : Text) (settings : List (Text × Text)) : Option Text :=
  ((settings.filter (·.1 = key)).getLast?).map (·.2)

/-- The styles after properties were set to texts, one after the other. -/
def ofSettings (settings : List (Text × Text)) : Styles :=
  settings.foldl (fun s e => s.set e.1 (.text e.2)) {}

/-- **Styles are the canonical map of their settings.** Each property has the text that it was set
to last, and what is listed is what the properties have. The keys are listed once each: the known
ones that were set, in their fixed order, and then the others in the order in which they were first
set. What is written into a document is read as the same styles. -/
structure IsCanonical (settings : List (Text × Text)) (s : Styles) : Prop where
  get : ∀ key, s.get key = (lastSet? key settings).map .text
  items : ∀ key v, (key, v) ∈ s.items ↔ s.get key = some v
  nodup : (s.items.map (·.1)).Nodup
  order : s.items.map (·.1) =
    (StyleKey.all.map StyleKey.name).filter (· ∈ settings.map (·.1)) ++
      Text.distinct ((settings.map (·.1)).filter (· ∉ StyleKey.all.map StyleKey.name))
  rebuilt : ofValue s.toValue = .ok s

theorem ofSettings_concat (settings : List (Text × Text)) (key t : Text) :
    ofSettings (settings ++ [(key, t)]) = (ofSettings settings).set key (.text t) := by
  rw [ofSettings, List.foldl_concat]
  rfl

theorem lastSet?_concat (key k t : Text) (settings : List (Text × Text)) :
    lastSet? key (settings ++ [(k, t)]) = if k = key then some t else lastSet? key settings := by
  rw [lastSet?, List.filter_append, List.filter_singleton]
  by_cases h : k = key
  · simp [h]
  · simp [h, lastSet?]

/-! ## Values -/

/-- The last setting of a property counts. -/
theorem get_ofSettings (settings : List (Text × Text)) (key : Text) :
    (ofSettings settings).get key = (lastSet? key settings).map .text := by
  induction settings using List.reverseRecOn with
  | nil => exact get_empty key
  | append_singleton settings e ih =>
    obtain ⟨k, t⟩ := e
    rw [ofSettings_concat, get_set, lastSet?_concat, ih]
    split
    · simp [Value.isNull]
    · rfl

theorem areTexts_ofSettings (settings : List (Text × Text)) : (ofSettings settings).AreTexts := by
  induction settings using List.reverseRecOn with
  | nil => exact .empty
  | append_singleton settings e ih =>
    rw [ofSettings_concat]
    exact ih.set e.1 e.2

/-- A property is set exactly if it is among the keys of the settings. -/
theorem isSome_lastSet? (key : Text) (settings : List (Text × Text)) :
    (lastSet? key settings).isSome = true ↔ key ∈ settings.map (·.1) := by
  rw [lastSet?, Option.isSome_map, List.getLast?_isSome, List.mem_map]
  simp [List.filter_eq_nil_iff]

/-! ## Keys -/

/-- The keys of what is listed: the known properties that are set, and then the others. -/
theorem keys_items (s : Styles) :
    s.items.map (·.1) =
      (StyleKey.all.filter fun k => (s.known k).isSome).map StyleKey.name ++ s.extra.keys := by
  rw [items, List.map_append, List.map_filterMap]
  congr 1
  generalize StyleKey.all = ks
  induction ks with
  | nil => rfl
  | cons k ks ih =>
    rw [List.filterMap_cons, List.filter_cons, ih]
    cases s.known k <;> rfl

/-- A key that is not known has its place from the first time that it is set. -/
theorem keys_extra_ofSettings (settings : List (Text × Text)) :
    (ofSettings settings).extra.keys =
      Text.distinct ((settings.map (·.1)).filter (· ∉ StyleKey.all.map StyleKey.name)) := by
  induction settings using List.reverseRecOn with
  | nil => rfl
  | append_singleton settings e ih =>
    obtain ⟨key, t⟩ := e
    rw [ofSettings_concat, List.map_append, List.filter_append, List.map_singleton,
      List.filter_singleton, set]
    cases hkey : StyleKey.ofName? key with
    | some k =>
      have hknown : key ∈ StyleKey.all.map StyleKey.name :=
        StyleKey.name_of_ofName? hkey ▸ List.mem_map_of_mem k.mem_all
      simpa [hknown] using ih
    | none =>
      have hunknown := StyleKey.ofName?_eq_none_iff.1 hkey
      have hmem : key ∈ (ofSettings settings).extra.keys ↔
          key ∈ (settings.map (·.1)).filter (· ∉ StyleKey.all.map StyleKey.name) := by
        rw [ih, Text.mem_distinct]
      rw [decide_eq_true hunknown, cond_true, Text.distinct_concat, ← ih]
      by_cases hold : key ∈ (ofSettings settings).extra.keys
      · rw [if_pos (hmem.1 hold), Table.keys_put_of_mem hold]
      · rw [if_neg (mt hmem.2 hold), Table.keys_put_of_not_mem hold]

/-- A known property is set exactly if its name is among the keys of the settings. -/
theorem isSome_known_ofSettings (settings : List (Text × Text)) (k : StyleKey) :
    ((ofSettings settings).known k).isSome = true ↔ k.name ∈ settings.map (·.1) := by
  rw [← get_name, get_ofSettings, Option.isSome_map, isSome_lastSet?]

/-- **Styles that are set to texts**, in whatever order and however often, are the canonical map of
their settings. -/
theorem ofSettings_canonical (settings : List (Text × Text)) :
    IsCanonical settings (ofSettings settings) := by
  have htexts := areTexts_ofSettings settings
  have horder : (ofSettings settings).items.map (·.1) =
      (StyleKey.all.map StyleKey.name).filter (· ∈ settings.map (·.1)) ++
        Text.distinct ((settings.map (·.1)).filter (· ∉ StyleKey.all.map StyleKey.name)) := by
    have hknown : (fun k => ((ofSettings settings).known k).isSome) =
        (fun key => decide (key ∈ settings.map (·.1))) ∘ StyleKey.name := by
      funext k
      rw [Bool.eq_iff_iff, isSome_known_ofSettings, Function.comp_apply, decide_eq_true_iff]
    rw [keys_items, keys_extra_ofSettings, hknown, ← List.filter_map]
  refine ⟨get_ofSettings settings, fun key v => htexts.mem_items_iff, ?_, horder,
    htexts.ofValue_toValue⟩
  have hnames : (StyleKey.all.map StyleKey.name).Nodup := by decide
  rw [horder, List.nodup_append]
  refine ⟨hnames.filter _, Text.nodup_distinct _, fun key hknown u hu => ?_⟩
  rintro rfl
  rw [Text.mem_distinct] at hu
  exact of_decide_eq_true (List.mem_filter.1 hu).2 (List.mem_filter.1 hknown).1

/-- Known properties are listed first, whenever they are set. -/
example : (ofSettings [("pad_all", "8"), ("radius", "4"), ("shadow", "1"), ("bg_color", "0x1"),
    ("pad_all", "9")]).items.map (·.1) = ["bg_color", "radius", "pad_all", "shadow"] := by decide

end LvglForest.Styles
