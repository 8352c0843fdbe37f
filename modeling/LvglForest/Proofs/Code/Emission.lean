import LvglForest.Proofs.Code.Generation
import LvglForest.Proofs.Forest.Pruning

/-!
# Emissions of widgets and forests

What is emitted for one widget creates it below its parent and nothing else, and skips nothing
(`Widget.links_emissions`): all that follows the creation are settings of its variable
(`Widget.isSettingOf_settings`). It can end in a fault only where a value that is shown has no text
(`Widget.fault?_emissions_iff`).

So, node by node, what is emitted for a forest is what is emitted for the forest pruned of the
widgets without legal names (`Forest.unskipped_emissions`), besides one skip for each place where
a tree is taken out (`Forest.skips_emissions`); and without such widgets the creations follow the
links of the forest (`Forest.links_emissions`).
-/

namespace LvglForest

/-! ## Lists of emissions -/

/-- The link that a statement makes: the variable of the parent and the one of the new widget. -/
def Statement.link? : Statement → Option (Text × Text)
  | .create target _ parent => some (parent, target)
  | _ => none

/-- An emission that creates no widget and skips none. -/
def Emission.IsQuiet : Emission → Prop
  | .statement s => s.link? = none
  | .ignored _ _ _ => True
  | .skipped _ _ => False

/-- An emission that sets something of a widget: a call, or a warning in place of one, or the empty
line behind the calls. -/
def Emission.IsSetting : Emission → Prop
  | .statement (.call _ _) | .statement .gap | .ignored _ _ _ => True
  | _ => False

/-- A setting of a variable: its calls have the variable as their first argument. -/
def Emission.IsSettingOf (id : Text) : Emission → Prop
  | .statement (.call _ arguments) => arguments.head? = some id
  | .statement .gap | .ignored _ _ _ => True
  | _ => False

theorem Emission.IsSettingOf.isSetting {id : Text} {x : Emission} (h : x.IsSettingOf id) :
    x.IsSetting := by
  match x, h with
  | .statement (.call _ _), _ => trivial
  | .statement .gap, _ => trivial
  | .ignored _ _ _, _ => trivial

theorem Emission.IsSetting.isQuiet {x : Emission} (h : x.IsSetting) : x.IsQuiet := by
  match x, h with
  | .statement (.call _ _), _ => exact (rfl : Statement.link? (.call _ _) = none)
  | .statement .gap, _ => exact (rfl : Statement.link? .gap = none)
  | .ignored _ _ _, _ => trivial

namespace Emissions

/-- The links that the statements make, in order. -/
def links (es : Emissions) : List (Text × Text) := es.statements.filterMap Statement.link?

theorem identifiers_eq_links (es : Emissions) : es.identifiers = es.links.map (·.2) := by
  rw [identifiers, links, List.map_filterMap]
  refine List.filterMap_congr fun s _ => ?_
  cases s <;> rfl

/-- Emissions without a fault. -/
theorem exists_of_fault? {es : Emissions} (h : es.fault? = none) :
    ∃ xs : List Emission, es = xs.map .ok := by
  induction es with
  | nil => exact ⟨[], rfl⟩
  | cons e es ih =>
    cases e with
    | error f => cases h
    | ok x =>
      obtain ⟨xs, rfl⟩ := ih h
      exact ⟨x :: xs, rfl⟩

theorem completed_map_ok (xs : List Emission) : completed (xs.map .ok) = xs := by
  induction xs with
  | nil => rfl
  | cons x xs ih => rw [List.map_cons, completed, ih]

theorem mem_of_mem_statements {es : Emissions} {s : Statement} (h : s ∈ es.statements) :
    .ok (.statement s) ∈ es := by
  induction es with
  | nil => cases h
  | cons e es ih =>
    match e with
    | .error f => cases h
    | .ok (.statement s') =>
      rcases List.mem_cons.1 (h : s ∈ s' :: statements es) with rfl | h
      · exact List.mem_cons_self
      · exact List.mem_cons_of_mem _ (ih h)
    | .ok (.ignored _ _ _) => exact List.mem_cons_of_mem _ (ih h)
    | .ok (.skipped _ _) => exact List.mem_cons_of_mem _ (ih h)

theorem fault?_append_eq_none {es es' : Emissions} :
    fault? (es ++ es') = none ↔ es.fault? = none ∧ es'.fault? = none := by
  induction es with
  | nil => exact ⟨fun h => ⟨rfl, h⟩, fun h => h.2⟩
  | cons e es ih =>
    cases e with
    | error f =>
      constructor
      · intro h
        cases h
      · rintro ⟨h, -⟩
        cases h
    | ok x => exact ih

theorem completed_append {es : Emissions} (h : es.fault? = none) (es' : Emissions) :
    completed (es ++ es') = es.completed ++ es'.completed := by
  obtain ⟨xs, rfl⟩ := exists_of_fault? h
  rw [completed_map_ok]
  clear h
  induction xs with
  | nil => rfl
  | cons x xs ih => rw [List.map_cons, List.cons_append, completed, ih, List.cons_append]

theorem links_append {es : Emissions} (h : es.fault? = none) (es' : Emissions) :
    links (es ++ es') = es.links ++ es'.links := by
  rw [links, statements, completed_append h, List.filterMap_append, List.filterMap_append]
  rfl

theorem skips_append {es : Emissions} (h : es.fault? = none) (es' : Emissions) :
    skips (es ++ es') = es.skips ++ es'.skips := by
  rw [skips, completed_append h, List.filterMap_append]
  rfl

/-- Quiet emissions make no link and skip nothing. -/
theorem links_skips_of_quiet {es : Emissions} (h : ∀ x, .ok x ∈ es → x.IsQuiet) :
    es.links = [] ∧ es.skips = [] := by
  induction es with
  | nil => exact ⟨rfl, rfl⟩
  | cons e es ih =>
    have hrest := ih fun x hx => h x (List.mem_cons_of_mem _ hx)
    cases e with
    | error f => exact ⟨rfl, rfl⟩
    | ok x =>
      have hx := h x List.mem_cons_self
      cases x with
      | statement s =>
        have hs : s.link? = none := hx
        refine ⟨?_, hrest.2⟩
        show List.filterMap Statement.link? (s :: statements es) = []
        rw [List.filterMap_cons, hs]
        exact hrest.1
      | ignored identifier kind setting => exact hrest
      | skipped path reason => cases hx

/-! ## Without the skipped widgets -/

/-- Whether an emission skips no widget. -/
def staysUnskipped : Except Fault Emission → Bool
  | .ok (.skipped _ _) => false
  | _ => true

/-- The emissions without the skipped widgets. -/
def unskipped (es : Emissions) : Emissions := es.filter staysUnskipped

theorem unskipped_append (es es' : Emissions) :
    unskipped (es ++ es') = es.unskipped ++ es'.unskipped :=
  List.filter_append es es'

theorem unskipped_of_quiet {es : Emissions} (h : ∀ x, .ok x ∈ es → x.IsQuiet) :
    es.unskipped = es := by
  rw [unskipped, List.filter_eq_self]
  intro e he
  match e, he with
  | .error f, _ => rfl
  | .ok (.statement s), _ => rfl
  | .ok (.ignored _ _ _), _ => rfl
  | .ok (.skipped path reason), he => cases h _ he

/-- Leaving out emissions leaves the faults. -/
theorem fault?_filter {keep : Except Fault Emission → Bool} (h : ∀ f, keep (.error f) = true)
    (es : Emissions) : fault? (es.filter keep) = es.fault? := by
  induction es with
  | nil => rfl
  | cons e es ih =>
    rw [List.filter_cons]
    cases e with
    | error f =>
      rw [if_pos (h f)]
      rfl
    | ok x => split <;> exact ih

theorem completed_filter {keep : Except Fault Emission → Bool} (h : ∀ f, keep (.error f) = true)
    (es : Emissions) : completed (es.filter keep) = es.completed.filter fun x => keep (.ok x) := by
  induction es with
  | nil => rfl
  | cons e es ih =>
    rw [List.filter_cons]
    cases e with
    | error f =>
      rw [if_pos (h f)]
      rfl
    | ok x =>
      rw [completed, List.filter_cons]
      split
      · rw [completed, ih]
      · exact ih

theorem fault?_unskipped (es : Emissions) : es.unskipped.fault? = es.fault? :=
  fault?_filter (fun _ => rfl) es

theorem statements_unskipped (es : Emissions) : es.unskipped.statements = es.statements := by
  rw [statements, statements, unskipped, completed_filter fun _ => rfl, List.filterMap_filter]
  exact List.filterMap_congr fun x _ => by cases x <;> rfl

end Emissions

/-! ## One widget -/

namespace Widget

variable (d : Detail) (id parent : Text) (w : Widget)

/-- Arguments that start with a variable, if they can be written. -/
def Leads (id : Text) (args : Except Fault (List Text)) : Prop :=
  ∀ ts, args = .ok ts → ts.head? = some id

section Leads

variable {id}

theorem leads_ok (ts : List Text) : Leads id (.ok (id :: ts)) := by
  rintro _ ⟨⟩
  rfl

theorem Leads.bind {α : Type} {a : Except Fault α} {args : α → Except Fault (List Text)}
    (h : ∀ t, Leads id (args t)) : Leads id (a >>= args) := by
  cases a with
  | error f => exact fun _ hargs => nomatch hargs
  | ok t => exact h t

theorem isSettingOf_emitCall {f : Text} {args : Except Fault (List Text)} (hargs : Leads id args)
    {x : Emission} (h : emitCall f args = .ok x) : x.IsSettingOf id := by
  cases args with
  | error e => cases h
  | ok ts =>
    cases h
    exact hargs ts rfl

theorem isSettingOf_settingEmission {setting : Setting} {has : Bool} {f : Text}
    {args : Except Fault (List Text)} (hargs : Leads id args) {x : Emission}
    (h : w.settingEmission id setting has f args = .ok x) : x.IsSettingOf id := by
  unfold settingEmission at h
  split at h
  · exact isSettingOf_emitCall hargs h
  · cases h
    trivial

end Leads

/-- **What follows the creation of a widget** are settings of its variable. -/
theorem isSettingOf_settings : ∀ x, .ok x ∈ w.sizeEmissions id ++ [w.placeEmission id] ++
    w.propertyEmissions id ++ w.styleEmissions id ++ [.ok (.statement .gap)] →
      x.IsSettingOf id := by
  intro x hx
  simp only [List.mem_append, List.mem_singleton] at hx
  rcases hx with (((hx | hx) | hx) | hx) | hx
  · unfold sizeEmissions at hx
    split at hx
    · cases hx
    · exact isSettingOf_emitCall (.bind fun _ => .bind fun _ => leads_ok _)
        (List.mem_singleton.1 hx).symm
  · unfold placeEmission at hx
    split at hx
    · exact isSettingOf_emitCall (.bind fun _ => .bind fun _ => leads_ok _) hx.symm
    · split at hx
      · exact isSettingOf_emitCall (leads_ok _) hx.symm
      · exact isSettingOf_emitCall (.bind fun _ => .bind fun _ => .bind fun _ => leads_ok _) hx.symm
  · have hsetting {b : Bool} {setting : Setting} {has : Bool} {f : Text}
        {args : Except Fault (List Text)} (hargs : Leads id args)
        (h : .ok x ∈ if b then [] else [w.settingEmission id setting has f args]) :
        x.IsSettingOf id := by
      split at h
      · cases h
      · exact isSettingOf_settingEmission w hargs (List.mem_singleton.1 h).symm
    unfold propertyEmissions at hx
    simp only [List.mem_append] at hx
    rcases hx with (hx | hx) | hx
    · exact hsetting (.bind fun _ => leads_ok _) hx
    · exact hsetting (.bind fun _ => .bind fun _ => leads_ok _) hx
    · exact hsetting (.bind fun _ => leads_ok _) hx
  · unfold styleEmissions at hx
    obtain ⟨e, -, he⟩ := List.mem_map.1 hx
    exact isSettingOf_emitCall (.bind fun _ => leads_ok _) he
  · cases hx
    trivial

/-- What follows the creation of a widget are settings. -/
theorem isSetting_settings : ∀ x, .ok x ∈ w.sizeEmissions id ++ [w.placeEmission id] ++
    w.propertyEmissions id ++ w.styleEmissions id ++ [.ok (.statement .gap)] → x.IsSetting :=
  fun x hx => (isSettingOf_settings id w x hx).isSetting

theorem emissions_eq : w.emissions d id parent = w.creationEmissions d id parent ++
    (w.sizeEmissions id ++ [w.placeEmission id] ++ w.propertyEmissions id ++
      w.styleEmissions id ++ [.ok (.statement .gap)]) := by
  simp only [emissions, List.append_assoc]

/-- **A widget is created once**, below its parent, and nothing is skipped for it. -/
theorem links_emissions (h : (w.emissions d id parent).fault? = none) :
    (w.emissions d id parent).links = [(parent, id)] ∧ (w.emissions d id parent).skips = [] := by
  rw [emissions_eq, Emissions.fault?_append_eq_none] at h
  obtain ⟨hlinks, hskips⟩ := Emissions.links_skips_of_quiet fun x hx =>
    (isSetting_settings id w x hx).isQuiet
  have hcreation : (w.creationEmissions d id parent).links = [(parent, id)] ∧
      (w.creationEmissions d id parent).skips = [] := by
    replace h := h.1
    unfold creationEmissions at h ⊢
    split at h
    · cases h
    · cases d with
      | concise => exact ⟨rfl, rfl⟩
      | verbose =>
        cases hkind : w.kind.display with
        | error f =>
          rw [hkind] at h
          cases h
        | ok t => exact ⟨rfl, rfl⟩
  rw [emissions_eq, Emissions.links_append h.1, Emissions.skips_append h.1, hlinks, hskips,
    hcreation.1, hcreation.2]
  exact ⟨rfl, rfl⟩

theorem unskipped_emissions : (w.emissions d id parent).unskipped = w.emissions d id parent := by
  have hcreation : (w.creationEmissions d id parent).unskipped =
      w.creationEmissions d id parent := by
    unfold creationEmissions
    split
    · rfl
    · cases d with
      | concise => rfl
      | verbose => cases w.kind.display <;> rfl
  rw [emissions_eq, Emissions.unskipped_append, hcreation,
    Emissions.unskipped_of_quiet fun x hx => (isSetting_settings id w x hx).isQuiet]

/-! ## What is shown of a widget -/

/-- A widget whose name, kind, text and styles are texts. -/
structure IsTyped (w : Widget) : Prop where
  identifier : w.identifier = .text w.name
  kind : ∃ t, w.kind = .text t
  text : w.text = .null ∨ ∃ t, w.text = .text t
  known : ∀ k v, w.styles.known k = some v → ∃ t, v = .text t
  extra : ∀ e ∈ w.styles.extra, ∃ t, e.2 = .text t

theorem IsTyped.texts_items {w : Widget} (hw : w.IsTyped) :
    ∀ e ∈ w.styles.items, ∃ t, e.2 = .text t := by
  intro e he
  rcases List.mem_append.1 he with he | he
  · obtain ⟨k, -, he⟩ := List.mem_filterMap.1 he
    obtain ⟨v, hv, rfl⟩ := Option.map_eq_some_iff.1 he
    exact hw.known k v hv
  · exact hw.extra e he

/-- Whether the kind of a widget has setters for a range and a value. -/
def takesValue (w : Widget) : Bool := (Kind.ofValue? w.kind).elim false Kind.hasValue

/-- Whether the kind of a widget has a setter for a text. -/
def takesText (w : Widget) : Bool := (Kind.ofValue? w.kind).elim false Kind.hasText

/-- A widget whose kind and text statements can be made of: the kind is a key, and the text is given
one character after the other, unless no statement sets it. -/
@[mk_iff isUsable_iff]
structure IsUsable (w : Widget) : Prop where
  kind : ∃ u, w.kind.checkHashable = .ok u
  text : w.text.isNull = true ∨ w.takesText = false ∨ ∃ t, w.text.characters = .ok t

/-- What the statements of a widget show besides texts: its size, its place, its range and its
value, where a statement is made for them. -/
def shown (w : Widget) : List (Except Fault Text) :=
  (if w.width.isAuto || w.height.isAuto then [] else [w.width.toSource, w.height.toSource]) ++
  (if w.align.isNull then [w.x.display, w.y.display]
    else if w.align.isText Anchor.middle.keyword && w.x.isZero && w.y.isZero then []
    else [w.align.display, w.x.display, w.y.display]) ++
  (if w.rangeMin.isNull || w.rangeMax.isNull || !w.takesValue then []
    else [w.rangeMin.display, w.rangeMax.display]) ++
  (if w.value.isNull || !w.takesValue then [] else [w.value.display])

/-- A widget of which all that is shown can be written: its numbers do not have too many digits. -/
def IsWritten (w : Widget) : Prop := ∀ r ∈ w.shown, ∃ t, r = .ok t

section Calls

variable {f : Text} {a b c : Except Fault Text}

theorem fault?_emitCall {args : Except Fault (List Text)} :
    Emissions.fault? [emitCall f args] = none ↔ ∃ ts, args = .ok ts := by
  cases args with
  | error e => exact ⟨fun h => (nomatch h), fun ⟨_, h⟩ => (nomatch h)⟩
  | ok ts => exact ⟨fun _ => ⟨ts, rfl⟩, fun _ => rfl⟩

/-! A call shows its arguments, so it can be written if each of them can. -/

theorem fault?_call_one (g : Text → List Text) :
    Emissions.fault? [emitCall f do
      let x ← a
      return g x] = none ↔ ∀ r ∈ [a], ∃ t, r = .ok t := by
  rw [fault?_emitCall, List.forall_mem_singleton]
  cases a with
  | error e => exact ⟨fun ⟨_, h⟩ => (nomatch h), fun ⟨_, h⟩ => (nomatch h)⟩
  | ok x => exact ⟨fun _ => ⟨x, rfl⟩, fun _ => ⟨g x, rfl⟩⟩

theorem fault?_call_two (g : Text → Text → List Text) :
    Emissions.fault? [emitCall f do
      let x ← a
      let y ← b
      return g x y] = none ↔ ∀ r ∈ [a, b], ∃ t, r = .ok t := by
  cases a with
  | error e =>
    rw [fault?_emitCall, List.forall_mem_cons]
    exact ⟨fun ⟨_, h⟩ => (nomatch h), fun ⟨⟨_, h⟩, _⟩ => (nomatch h)⟩
  | ok x =>
    rw [List.forall_mem_cons, ← fault?_call_one (f := f) (g x)]
    exact ⟨fun h => ⟨⟨x, rfl⟩, h⟩, fun h => h.2⟩

theorem fault?_call_three (g : Text → Text → Text → List Text) :
    Emissions.fault? [emitCall f do
      let x ← a
      let y ← b
      let z ← c
      return g x y z] = none ↔ ∀ r ∈ [a, b, c], ∃ t, r = .ok t := by
  cases a with
  | error e =>
    rw [fault?_emitCall, List.forall_mem_cons]
    exact ⟨fun ⟨_, h⟩ => (nomatch h), fun ⟨⟨_, h⟩, _⟩ => (nomatch h)⟩
  | ok x =>
    rw [List.forall_mem_cons, ← fault?_call_two (f := f) (g x)]
    exact ⟨fun h => ⟨⟨x, rfl⟩, h⟩, fun h => h.2⟩

/-- A setting faults only where the kind has a setter for it. -/
theorem fault?_settingEmission {setting : Setting} {has : Bool} {args : Except Fault (List Text)} :
    Emissions.fault? [w.settingEmission id setting has f args] = none ↔
      (has = true → Emissions.fault? [emitCall f args] = none) := by
  cases has with
  | false => exact ⟨fun _ h => (nomatch h), fun _ => rfl⟩
  | true => exact ⟨fun h _ => h, fun h => h rfl⟩

end Calls

section Faults

theorem fault?_sizeEmissions : (w.sizeEmissions id).fault? = none ↔
    ∀ r ∈ if w.width.isAuto || w.height.isAuto then [] else [w.width.toSource, w.height.toSource],
      ∃ t, r = .ok t := by
  unfold sizeEmissions
  split
  · exact ⟨fun _ _ h => absurd h List.not_mem_nil, fun _ => rfl⟩
  · exact fault?_call_two fun x y => [id, x, y]

theorem fault?_placeEmission : Emissions.fault? [w.placeEmission id] = none ↔
    ∀ r ∈ if w.align.isNull then [w.x.display, w.y.display]
      else if w.align.isText Anchor.middle.keyword && w.x.isZero && w.y.isZero then []
      else [w.align.display, w.x.display, w.y.display], ∃ t, r = .ok t := by
  unfold placeEmission
  split
  · exact fault?_call_two fun x y => [id, x, y]
  · split
    · exact ⟨fun _ _ h => absurd h List.not_mem_nil, fun _ => rfl⟩
    · exact fault?_call_three fun align x y => [id, align, x, y]

theorem fault?_creationEmissions (hkind : ∃ t, w.kind.display = .ok t) :
    (w.creationEmissions d id parent).fault? = none ↔ ∃ u, w.kind.checkHashable = .ok u := by
  obtain ⟨t, ht⟩ := hkind
  unfold creationEmissions
  split
  · next f hf =>
    rw [hf]
    exact iff_of_false (fun h => nomatch h) fun ⟨_, h⟩ => nomatch h
  · next u hu =>
    refine iff_of_true ?_ ⟨u, hu⟩
    rw [ht]
    cases d <;> rfl

theorem fault?_propertyEmissions : (w.propertyEmissions id).fault? = none ↔
    (w.text.isNull = true ∨ w.takesText = false ∨ ∃ t, w.text.characters = .ok t) ∧
    (∀ r ∈ if w.rangeMin.isNull || w.rangeMax.isNull || !w.takesValue then []
      else [w.rangeMin.display, w.rangeMax.display], ∃ t, r = .ok t) ∧
    ∀ r ∈ if w.value.isNull || !w.takesValue then [] else [w.value.display],
      ∃ t, r = .ok t := by
  have htext {f : Text} : Emissions.fault? (if w.text.isNull then [] else
      [w.settingEmission id .text w.takesText f do
        let t ← w.text.characters
        return [id, Literal.encode t]]) = none ↔
      w.text.isNull = true ∨ w.takesText = false ∨ ∃ t, w.text.characters = .ok t := by
    cases w.text.isNull with
    | true => exact iff_of_true rfl (.inl rfl)
    | false =>
      rw [if_neg Bool.false_ne_true, fault?_settingEmission, fault?_call_one,
        List.forall_mem_singleton, or_iff_right Bool.false_ne_true]
      cases w.takesText with
      | true => exact ⟨fun h => .inr (h rfl), fun h _ => h.resolve_left (nomatch ·)⟩
      | false => exact iff_of_true (fun h => nomatch h) (.inl rfl)
  have hskip {null : Bool} {setting : Setting} {f : Text} {args : Except Fault (List Text)}
      {shown : List (Except Fault Text)}
      (h : Emissions.fault? [emitCall f args] = none ↔ ∀ r ∈ shown, ∃ t, r = .ok t) :
      Emissions.fault? (if null then [] else [w.settingEmission id setting w.takesValue f args]) =
        none ↔ ∀ r ∈ if null || !w.takesValue then [] else shown, ∃ t, r = .ok t := by
    cases null with
    | true => exact ⟨fun _ _ h => absurd h List.not_mem_nil, fun _ => rfl⟩
    | false =>
      rw [if_neg Bool.false_ne_true, fault?_settingEmission, h]
      cases w.takesValue with
      | true => exact ⟨fun h => h rfl, fun h _ => h⟩
      | false => exact ⟨fun _ _ h => absurd h List.not_mem_nil, fun _ h => (nomatch h)⟩
  unfold propertyEmissions
  simp only
  rw [Emissions.fault?_append_eq_none, Emissions.fault?_append_eq_none, and_assoc]
  exact and_congr htext (and_congr (hskip (fault?_call_two _)) (hskip (fault?_call_one _)))

theorem fault?_styleEmissions (hstyles : ∀ e ∈ w.styles.items, ∃ t, e.2 = .text t) :
    (w.styleEmissions id).fault? = none := by
  unfold styleEmissions
  generalize w.styles.items = items at hstyles
  induction items with
  | nil => rfl
  | cons e items ih =>
    obtain ⟨key, v⟩ := e
    rw [List.forall_mem_cons] at hstyles
    obtain ⟨t, rfl⟩ : ∃ t, v = .text t := hstyles.1
    obtain ⟨argument, hargument⟩ : ∃ u, Styles.argument key (.text t) = .ok u := by
      unfold Styles.argument
      cases StyleKey.ofName? key <;> exact ⟨_, rfl⟩
    rw [List.map_cons]
    simp only [hargument]
    exact ih hstyles.2

/-- A widget whose kind shows and whose styles are texts can be generated exactly if statements can
be made of its kind and its text, and what is shown besides can be written. -/
theorem fault?_emissions_iff_isUsable (hkind : ∃ t, w.kind.display = .ok t)
    (hstyles : ∀ e ∈ w.styles.items, ∃ t, e.2 = .text t) :
    (w.emissions d id parent).fault? = none ↔ w.IsUsable ∧ w.IsWritten := by
  have hgap : Emissions.fault? [.ok (.statement .gap)] = none := rfl
  rw [emissions, IsWritten, shown, isUsable_iff]
  simp only [Emissions.fault?_append_eq_none, List.forall_mem_append,
    fault?_creationEmissions d id parent w hkind, fault?_sizeEmissions, fault?_placeEmission,
    fault?_propertyEmissions, fault?_styleEmissions id w hstyles, hgap, and_true, and_assoc]
  constructor
  · rintro ⟨hkind, hsize, hplace, htext, hrest⟩
    exact ⟨hkind, htext, hsize, hplace, hrest⟩
  · rintro ⟨hkind, htext, hsize, hplace, hrest⟩
    exact ⟨hkind, hsize, hplace, htext, hrest⟩

variable {w} (hw : w.IsTyped)
include hw

theorem IsTyped.display_kind : ∃ t, w.kind.display = .ok t := by
  obtain ⟨t, ht⟩ := hw.kind
  exact ⟨t, ht ▸ rfl⟩

theorem IsTyped.isUsable : w.IsUsable where
  kind := by
    obtain ⟨t, ht⟩ := hw.kind
    exact ⟨(), ht ▸ rfl⟩
  text := by
    rcases hw.text with h | ⟨t, h⟩
    · exact .inl (h ▸ rfl)
    · exact .inr (.inr ⟨t, h ▸ Value.characters_text t⟩)

/-- **Only what is shown can fault.** -/
theorem fault?_emissions_iff : (w.emissions d id parent).fault? = none ↔ w.IsWritten := by
  rw [fault?_emissions_iff_isUsable d id parent w hw.display_kind hw.texts_items,
    and_iff_right hw.isUsable]

end Faults

end Widget

/-! ## Names -/

namespace Widget

/-- Whether the name of a widget is one that a variable can have. -/
def hasLegalName (w : Widget) : Bool := w.name.isIdentifierLine

/-- Why a widget without a legal name is skipped. -/
def skipReason (w : Widget) : SkipReason :=
  if w.name.isEmpty then .unnamed else .illegalName w.name

/-- A widget whose identifier is a text is generated if that is legal, and skipped if not. -/
theorem naming_eq {w : Widget} (h : w.identifier = .text w.name) :
    w.naming = if w.hasLegalName then .legal w.name else .skip w.skipReason := by
  have htrue : (!w.identifier.isTrue) = w.name.isEmpty := by rw [h, Value.isTrue, Bool.not_not]
  unfold naming skipReason hasLegalName
  rw [htrue, h]
  cases hname : w.name with
  | nil => rfl
  | cons p t => rfl

/-! ## Plain widgets -/

/-- A container of a name. -/
def named (name : Text) : Widget where
  kind := .text Kind.container.name
  identifier := .text name

theorem isTyped_named (name : Text) : (named name).IsTyped where
  identifier := rfl
  kind := ⟨_, rfl⟩
  text := .inl rfl
  known _ _ h := nomatch h
  extra _ h := nomatch h

theorem isWritten_named (name : Text) : (named name).IsWritten := by
  have hshown : (named name).shown = [.ok "0", .ok "0"] := rfl
  rw [IsWritten, hshown]
  simp

end Widget

/-! ## Forests -/

section Forests

variable (d : Detail)

theorem Forest.emissions_append (parent : Text) (path : List Nat) (index : Nat)
    (ts us : List (Tree Widget)) :
    Forest.emissions d parent path index (ts ++ us) =
      Forest.emissions d parent path index ts ++
        Forest.emissions d parent path (index + ts.length) us := by
  induction ts generalizing index with
  | nil => rfl
  | cons t ts ih =>
    rw [List.cons_append, Forest.emissions, Forest.emissions, ih, List.append_assoc,
      List.length_cons, Nat.add_right_comm, Nat.add_assoc]

theorem Forest.emissions_singleton (parent : Text) (path : List Nat) (index : Nat)
    (t : Tree Widget) :
    Forest.emissions d parent path index [t] = Tree.emissions d parent (path ++ [index]) t := by
  rw [Forest.emissions, Forest.emissions, List.append_nil]

theorem Tree.emissions_of_legal {w : Widget} (hname : w.identifier = .text w.name)
    (hw : w.hasLegalName = true) (parent : Text) (path : List Nat) (ts : List (Tree Widget)) :
    Tree.emissions d parent path (.node w ts) =
      w.emissions d w.name parent ++ Forest.emissions d w.name path 0 ts := by
  rw [Tree.emissions, Widget.naming_eq hname, hw]
  rfl

theorem Tree.emissions_of_illegal {w : Widget} (hname : w.identifier = .text w.name)
    (hw : w.hasLegalName = false) (parent : Text) (path : List Nat) (ts : List (Tree Widget)) :
    Tree.emissions d parent path (.node w ts) = [.ok (.skipped path w.skipReason)] := by
  rw [Tree.emissions, Widget.naming_eq hname, hw]
  rfl

mutual

theorem Tree.unskipped_emissions : ∀ (parent : Text) (path path' : List Nat) (index : Nat)
    (t : Tree Widget) (_ : ∀ w ∈ t.toList, w.identifier = .text w.name),
    (Tree.emissions d parent path t).unskipped =
      Forest.emissions d parent path' index (Tree.prune Widget.hasLegalName t)
  | parent, path, path', index, .node w ts, h => by
    rw [Tree.toList, List.forall_mem_cons] at h
    rw [Tree.prune]
    cases hw : w.hasLegalName with
    | true =>
      rw [if_pos rfl, Forest.emissions_singleton, Tree.emissions_of_legal d h.1 hw,
        Tree.emissions_of_legal d h.1 hw, Emissions.unskipped_append,
        Widget.unskipped_emissions,
        Forest.unskipped_emissions w.name path (path' ++ [index]) 0 0 ts h.2]
    | false =>
      rw [if_neg Bool.false_ne_true, Tree.emissions_of_illegal d h.1 hw]
      rfl

/-- **What is emitted for a forest** is, but for the skipped widgets, what is emitted for the
forest pruned of them, wherever it stands. -/
theorem Forest.unskipped_emissions : ∀ (parent : Text) (path path' : List Nat)
    (index index' : Nat) (ts : List (Tree Widget))
    (_ : ∀ w ∈ Forest.toList ts, w.identifier = .text w.name),
    (Forest.emissions d parent path index ts).unskipped =
      Forest.emissions d parent path' index' (Forest.prune Widget.hasLegalName ts)
  | _, _, _, _, _, [], _ => rfl
  | parent, path, path', index, index', t :: ts, h => by
    rw [Forest.toList, List.forall_mem_append] at h
    rw [Forest.emissions, Forest.prune, Emissions.unskipped_append, Forest.emissions_append,
      Tree.unskipped_emissions parent (path ++ [index]) path' index' t h.1,
      Forest.unskipped_emissions parent path path' (index + 1) _ ts h.2]

end

mutual

theorem Tree.skips_emissions {above : List Widget} (habove : above.all Widget.hasLegalName = true) :
    ∀ (parent : Text) (path : List Nat) (t : Tree Widget)
      (_ : ∀ w ∈ t.toList, w.identifier = .text w.name)
      (_ : (Tree.emissions d parent path t).fault? = none),
      (Tree.emissions d parent path t).skips =
        ((t.nodes path above).filter (Forest.Node.isCut Widget.hasLegalName)).map
          fun n => (n.path, n.label.skipReason)
  | parent, path, .node w ts, h, hfault => by
    rw [Tree.toList, List.forall_mem_cons] at h
    have hroot : Forest.Node.isCut Widget.hasLegalName ⟨path, above, w⟩ = !w.hasLegalName := by
      rw [Forest.Node.isCut, habove, Bool.and_true]
    rw [Tree.nodes, List.filter_cons, hroot]
    cases hw : w.hasLegalName with
    | true =>
      have hbelow : (w :: above).all Widget.hasLegalName = true := by
        rw [List.all_cons, hw, habove, Bool.and_true]
      rw [Tree.emissions_of_legal d h.1 hw] at hfault ⊢
      rw [Emissions.fault?_append_eq_none] at hfault
      rw [Emissions.skips_append hfault.1, (Widget.links_emissions d w.name parent w hfault.1).2,
        Forest.skips_emissionsFrom hbelow w.name path 0 ts h.2 hfault.2]
      rfl
    | false =>
      -- One skip stands for the whole tree: below the root nothing is a place of pruning.
      have hbelow : (w :: above).all Widget.hasLegalName = false := by
        rw [List.all_cons, hw, Bool.false_and]
      rw [Tree.emissions_of_illegal d h.1 hw,
        (Forest.filter_nodesFrom_of_cut Widget.hasLegalName hbelow 0 ts).2]
      rfl

theorem Forest.skips_emissionsFrom {above : List Widget}
    (habove : above.all Widget.hasLegalName = true) :
    ∀ (parent : Text) (path : List Nat) (index : Nat) (ts : List (Tree Widget))
      (_ : ∀ w ∈ Forest.toList ts, w.identifier = .text w.name)
      (_ : (Forest.emissions d parent path index ts).fault? = none),
      (Forest.emissions d parent path index ts).skips =
        ((Forest.nodesFrom path above index ts).filter
          (Forest.Node.isCut Widget.hasLegalName)).map fun n => (n.path, n.label.skipReason)
  | _, _, _, [], _, _ => rfl
  | parent, path, index, t :: ts, h, hfault => by
    rw [Forest.toList, List.forall_mem_append] at h
    rw [Forest.emissions, Emissions.fault?_append_eq_none] at hfault
    rw [Forest.emissions, Forest.nodesFrom, Emissions.skips_append hfault.1, List.filter_append,
      List.map_append, Tree.skips_emissions habove parent (path ++ [index]) t h.1 hfault.1,
      Forest.skips_emissionsFrom habove parent path (index + 1) ts h.2 hfault.2]

end

/-- **The skipped widgets of a forest** are those where pruning takes out a tree, in document
order and with their paths. -/
theorem Forest.skips_emissions {parent : Text} {ts : Forest Widget}
    (h : ∀ w ∈ Forest.toList ts, w.identifier = .text w.name)
    (hfault : (Forest.emissions d parent [] 0 ts).fault? = none) :
    (Forest.emissions d parent [] 0 ts).skips =
      ((Forest.nodes ts).filter (Forest.Node.isCut Widget.hasLegalName)).map
        fun n => (n.path, n.label.skipReason) :=
  Forest.skips_emissionsFrom d List.all_nil parent [] 0 ts h hfault

mutual

theorem Tree.links_emissions : ∀ (parent : Text) (path : List Nat) (t : Tree Widget)
    (_ : ∀ w ∈ t.toList, w.identifier = .text w.name ∧ w.hasLegalName = true)
    (_ : (Tree.emissions d parent path t).fault? = none),
    (Tree.emissions d parent path t).links =
      (t.links Widget.name parent).map fun (p, w) => (p, w.name)
  | parent, path, .node w ts, h, hfault => by
    rw [Tree.toList, List.forall_mem_cons] at h
    rw [Tree.emissions_of_legal d h.1.1 h.1.2] at hfault ⊢
    rw [Emissions.fault?_append_eq_none] at hfault
    rw [Emissions.links_append hfault.1, (Widget.links_emissions d w.name parent w hfault.1).1,
      Tree.links, Forest.links_emissions w.name path 0 ts h.2 hfault.2]
    rfl

/-- **The creations of a forest** in which all names are legal follow its links. -/
theorem Forest.links_emissions : ∀ (parent : Text) (path : List Nat) (index : Nat)
    (ts : List (Tree Widget))
    (_ : ∀ w ∈ Forest.toList ts, w.identifier = .text w.name ∧ w.hasLegalName = true)
    (_ : (Forest.emissions d parent path index ts).fault? = none),
    (Forest.emissions d parent path index ts).links =
      (Forest.links Widget.name parent ts).map fun (p, w) => (p, w.name)
  | _, _, _, [], _, _ => rfl
  | parent, path, index, t :: ts, h, hfault => by
    rw [Forest.toList, List.forall_mem_append] at h
    rw [Forest.emissions, Emissions.fault?_append_eq_none] at hfault
    rw [Forest.emissions, Forest.links, Emissions.links_append hfault.1, List.map_append,
      Tree.links_emissions parent (path ++ [index]) t h.1 hfault.1,
      Forest.links_emissions parent path (index + 1) ts h.2 hfault.2]

end

mutual

theorem Tree.fault?_emissions_iff : ∀ (parent : Text) (path : List Nat) (t : Tree Widget)
    (_ : ∀ w ∈ t.toList, w.IsTyped),
    (Tree.emissions d parent path t).fault? = none ↔
      ∀ w ∈ Forest.toList (Tree.prune Widget.hasLegalName t), w.IsWritten
  | parent, path, .node w ts, h => by
    rw [Tree.toList, List.forall_mem_cons] at h
    rw [Tree.prune]
    cases hw : w.hasLegalName with
    | true =>
      rw [if_pos rfl, Tree.emissions_of_legal d h.1.identifier hw,
        Emissions.fault?_append_eq_none, Widget.fault?_emissions_iff d w.name parent h.1,
        Forest.fault?_emissions_iff w.name path 0 ts h.2, Forest.toList, Forest.toList,
        Tree.toList, List.append_nil, List.forall_mem_cons]
    | false =>
      rw [if_neg Bool.false_ne_true, Tree.emissions_of_illegal d h.1.identifier hw]
      exact ⟨fun _ _ hmem => absurd hmem List.not_mem_nil, fun _ => rfl⟩

/-- **Generation ends without a fault** exactly if what it shows of the widgets that are left
after pruning can be written. -/
theorem Forest.fault?_emissions_iff : ∀ (parent : Text) (path : List Nat) (index : Nat)
    (ts : List (Tree Widget)) (_ : ∀ w ∈ Forest.toList ts, w.IsTyped),
    (Forest.emissions d parent path index ts).fault? = none ↔
      ∀ w ∈ Forest.toList (Forest.prune Widget.hasLegalName ts), w.IsWritten
  | _, _, _, [], _ => ⟨fun _ _ hmem => absurd hmem List.not_mem_nil, fun _ => rfl⟩
  | parent, path, index, t :: ts, h => by
    rw [Forest.toList, List.forall_mem_append] at h
    rw [Forest.emissions, Forest.prune, Emissions.fault?_append_eq_none, Forest.toList_append,
      List.forall_mem_append, Tree.fault?_emissions_iff parent (path ++ [index]) t h.1,
      Forest.fault?_emissions_iff parent path (index + 1) ts h.2]

end

/-- The variables of a forest are those of the widgets that are left after pruning. -/
theorem Forest.identifiers_emissions {parent : Text} {ts : Forest Widget}
    (h : ∀ w ∈ Forest.toList ts, w.identifier = .text w.name)
    (hfault : (Forest.emissions d parent [] 0 ts).fault? = none) :
    (Forest.emissions d parent [] 0 ts).identifiers =
      (Forest.toList (Forest.prune Widget.hasLegalName ts)).map Widget.name := by
  have hunskipped := Forest.unskipped_emissions d parent [] [] 0 0 ts h
  have hleft : ∀ w ∈ Forest.toList (Forest.prune Widget.hasLegalName ts),
      w.identifier = .text w.name ∧ w.hasLegalName = true := by
    intro w hw
    obtain ⟨hlegal, hmem⟩ := Forest.keep_of_mem_prune Widget.hasLegalName ts hw
    exact ⟨h w hmem, hlegal⟩
  -- The pruned forest has the same statements, and there the variables can be read off the links.
  rw [← Emissions.fault?_unskipped, hunskipped] at hfault
  rw [Emissions.identifiers, ← Emissions.statements_unskipped, hunskipped, ← Emissions.identifiers,
    Emissions.identifiers_eq_links, Forest.links_emissions d parent [] 0 _ hleft hfault,
    List.map_map, ← Forest.map_snd_links Widget.name parent, List.map_map]
  rfl

end Forests

end LvglForest
