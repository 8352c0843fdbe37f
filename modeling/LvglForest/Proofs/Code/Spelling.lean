import LvglForest.Proofs.Code.Emission
import LvglForest.Proofs.Text.MadeOf

/-!
# What generated code is made of

The words of generated source are ASCII. All other code points stand in the names, kinds, numbers,
texts and styles that the widgets are given, so the code is made of what these are made of
(`Widget.madeOf_emissions_iff`, `Forest.madeOf_emissions_iff`).
-/

namespace LvglForest

variable {P : CodePoint → Prop} (hP : HoldsOfAscii P)

/-! ## Statements -/

/-- The texts that a statement is put together from. -/
def Statement.parts : Statement → List Text
  | .comment identifier kind => [identifier, kind]
  | .create target sourceName parent => [target, sourceName, parent]
  | .call function arguments => function :: arguments
  | .gap => []

/-- A statement is made of what its parts are made of, if the printable characters of ASCII do not
count. -/
theorem Statement.madeOf_text_iff {P : CodePoint → Prop}
    (hP : ∀ p : CodePoint, 0x20 ≤ p.value → p.value < 0x7F → P p) (s : Statement) :
    s.text.MadeOf P ↔ ∀ t ∈ s.parts, t.MadeOf P := by
  have hmade {t : Text} (ht : ∀ p ∈ t, 0x20 ≤ p.value ∧ p.value < 0x7F) : t.MadeOf P :=
    fun p hp => hP p (ht p hp).1 (ht p hp).2
  have hword {t : Text} (ht : ∀ p ∈ t, 0x20 ≤ p.value ∧ p.value < 0x7F) : t.MadeOf P ↔ True :=
    iff_true_intro (hmade ht)
  cases s with
  | comment identifier kind =>
    simp (disch := decide) only [text, parts, Text.madeOf_append, hword, true_and, and_true,
      List.forall_mem_cons, List.not_mem_nil, false_imp_iff, implies_true]
  | create target sourceName parent =>
    simp (disch := decide) only [text, parts, Text.madeOf_append, hword, and_true,
      List.forall_mem_cons, List.not_mem_nil, false_imp_iff, implies_true, and_assoc]
  | call function arguments =>
    have hcomma : Text.MadeOf P ", " := hmade (by decide)
    simp (disch := decide) only [text, parts, Text.madeOf_append, hword, and_true,
      Text.madeOf_join hcomma, List.forall_mem_cons]
  | gap => exact iff_of_true Text.madeOf_nil (fun _ h => absurd h List.not_mem_nil)

include hP in
theorem Statement.madeOf_text (s : Statement) : s.text.MadeOf P ↔ ∀ t ∈ s.parts, t.MadeOf P :=
  s.madeOf_text_iff fun p _ hp => hP p (Nat.lt_succ_of_lt hp)

namespace Emissions

/-- The statements are put together from texts that are made of certain code points. -/
def MadeOf (P : CodePoint → Prop) (es : Emissions) : Prop :=
  ∀ s ∈ es.statements, ∀ t ∈ s.parts, t.MadeOf P

theorem statements_append {es : Emissions} (h : es.fault? = none) (es' : Emissions) :
    statements (es ++ es') = es.statements ++ es'.statements := by
  rw [statements, completed_append h, List.filterMap_append]
  rfl

theorem madeOf_nil : MadeOf P [] := fun _ hs => absurd hs List.not_mem_nil

theorem madeOf_append {es es' : Emissions} (h : es.fault? = none) :
    MadeOf P (es ++ es') ↔ es.MadeOf P ∧ es'.MadeOf P := by
  rw [MadeOf, statements_append h, List.forall_mem_append]
  rfl

theorem madeOf_statement {s : Statement} :
    MadeOf P [.ok (.statement s)] ↔ ∀ t ∈ s.parts, t.MadeOf P :=
  List.forall_mem_singleton

end Emissions

/-! ## Widgets -/

namespace Widget

/-- What a widget shows in its statements is made of certain code points. -/
structure Spells (P : CodePoint → Prop) (d : Detail) (w : Widget) : Prop where
  name : w.name.MadeOf P
  /-- The kind is shown by the comments of the verbose form. -/
  kind : d = .verbose → ∀ t, w.kind = .text t → t.MadeOf P
  shown : ∀ t, .ok t ∈ w.shown → t.MadeOf P
  /-- A text is shown as a literal, which has escapes for the kept bytes. -/
  text : w.takesText = true → ∀ t, w.text = .text t → ∀ p ∈ t, p.KeepsByte ∨ P p
  styles : ∀ e ∈ w.styles.items, e.1.MadeOf P ∧ ∀ t, e.2 = .text t → t.MadeOf P

/-- What can be written of some parts is made of certain code points. -/
def ShownMadeOf (P : CodePoint → Prop) (rs : List (Except Fault Text)) : Prop :=
  ∀ t, .ok t ∈ rs → t.MadeOf P

theorem shownMadeOf_nil : ShownMadeOf P [] := fun _ h => absurd h List.not_mem_nil

theorem shownMadeOf_append {rs rs' : List (Except Fault Text)} :
    ShownMadeOf P (rs ++ rs') ↔ ShownMadeOf P rs ∧ ShownMadeOf P rs' := by
  simp only [ShownMadeOf, List.mem_append, or_imp, forall_and]

theorem shownMadeOf_ok {t : Text} {rs : List (Except Fault Text)} :
    ShownMadeOf P (.ok t :: rs) ↔ t.MadeOf P ∧ ShownMadeOf P rs := by
  simp [ShownMadeOf]

section Calls

variable {f id : Text} {a b c : Except Fault Text}

/-- A call is made of its function and its arguments. -/
theorem madeOf_call {args : List Text} (hf : f.MadeOf P) :
    Emissions.MadeOf P [emitCall f (.ok args)] ↔ ∀ t ∈ args, t.MadeOf P := by
  rw [emitCall, Except.map, Emissions.madeOf_statement, Statement.parts, List.forall_mem_cons,
    and_iff_right hf]

/-- A setting is made of what its call is made of, where the kind has a setter for it. -/
theorem madeOf_setting {w : Widget} {null has : Bool} {setting : Setting}
    {args : Except Fault (List Text)} {rs : List (Except Fault Text)}
    (hcall : Emissions.fault? [emitCall f args] = none →
      (Emissions.MadeOf P [emitCall f args] ↔ ShownMadeOf P rs))
    (hfault : Emissions.fault? (if null then [] else
      [w.settingEmission id setting has f args]) = none) :
    Emissions.MadeOf P (if null then [] else [w.settingEmission id setting has f args]) ↔
      ShownMadeOf P (if null || !has then [] else rs) := by
  cases null with
  | true => exact iff_of_true Emissions.madeOf_nil shownMadeOf_nil
  | false =>
    rw [if_neg Bool.false_ne_true, fault?_settingEmission] at hfault
    rw [if_neg Bool.false_ne_true]
    cases has with
    | true => exact hcall (hfault rfl)
    | false => exact iff_of_true Emissions.madeOf_nil shownMadeOf_nil

variable (hf : f.MadeOf P) (hid : id.MadeOf P)
include hf hid

/-! A call for a widget shows its other arguments. -/

theorem madeOf_call_one {rest : List Text} (hrest : ∀ t ∈ rest, t.MadeOf P)
    (hfault : Emissions.fault? [emitCall f do
      let x ← a
      return [id, x] ++ rest] = none) :
    Emissions.MadeOf P [emitCall f do
      let x ← a
      return [id, x] ++ rest] ↔ ShownMadeOf P [a] := by
  obtain ⟨x, rfl⟩ := (fault?_call_one fun x => [id, x] ++ rest).1 hfault a List.mem_cons_self
  refine (madeOf_call hf).trans ?_
  simpa [shownMadeOf_ok, shownMadeOf_nil, hid] using fun _ => hrest

theorem madeOf_call_two
    (hfault : Emissions.fault? [emitCall f do
      let x ← a
      let y ← b
      return [id, x, y]] = none) :
    Emissions.MadeOf P [emitCall f do
      let x ← a
      let y ← b
      return [id, x, y]] ↔ ShownMadeOf P [a, b] := by
  have hshown := (fault?_call_two fun x y => [id, x, y]).1 hfault
  simp only [List.forall_mem_cons] at hshown
  obtain ⟨⟨x, rfl⟩, ⟨y, rfl⟩, -⟩ := hshown
  refine (madeOf_call hf).trans ?_
  simp [shownMadeOf_ok, shownMadeOf_nil, hid]

theorem madeOf_call_three
    (hfault : Emissions.fault? [emitCall f do
      let x ← a
      let y ← b
      let z ← c
      return [id, x, y, z]] = none) :
    Emissions.MadeOf P [emitCall f do
      let x ← a
      let y ← b
      let z ← c
      return [id, x, y, z]] ↔ ShownMadeOf P [a, b, c] := by
  have hshown := (fault?_call_three fun x y z => [id, x, y, z]).1 hfault
  simp only [List.forall_mem_cons] at hshown
  obtain ⟨⟨x, rfl⟩, ⟨y, rfl⟩, ⟨z, rfl⟩, -⟩ := hshown
  refine (madeOf_call hf).trans ?_
  simp [shownMadeOf_ok, shownMadeOf_nil, hid]

end Calls

/-! ### The parts of a widget -/

section Parts

variable (d : Detail) {id parent : Text} {w : Widget} (hid : id.MadeOf P)
include hP hid

theorem madeOf_sizeEmissions (hfault : (w.sizeEmissions id).fault? = none) :
    (w.sizeEmissions id).MadeOf P ↔ ShownMadeOf P
      (if w.width.isAuto || w.height.isAuto then [] else [w.width.toSource, w.height.toSource]) := by
  unfold sizeEmissions at hfault ⊢
  split
  · exact iff_of_true Emissions.madeOf_nil shownMadeOf_nil
  · next hauto =>
    rw [if_neg hauto] at hfault
    exact madeOf_call_two (Text.madeOf_of_ascii hP (by decide)) hid hfault

theorem madeOf_placeEmission (hfault : Emissions.fault? [w.placeEmission id] = none) :
    Emissions.MadeOf P [w.placeEmission id] ↔ ShownMadeOf P
      (if w.align.isNull then [w.x.display, w.y.display]
        else if w.align.isText Anchor.middle.keyword && w.x.isZero && w.y.isZero then []
        else [w.align.display, w.x.display, w.y.display]) := by
  unfold placeEmission at hfault ⊢
  split at hfault
  · next hnull =>
    rw [if_pos hnull, if_pos hnull]
    exact madeOf_call_two (Text.madeOf_of_ascii hP (by decide)) hid hfault
  · next hnull =>
    rw [if_neg hnull, if_neg hnull]
    split at hfault
    · next hcenter =>
      rw [if_pos hcenter, if_pos hcenter]
      refine iff_of_true ?_ shownMadeOf_nil
      exact (madeOf_call (Text.madeOf_of_ascii hP (by decide))).2 (by simpa using hid)
    · next hcenter =>
      rw [if_neg hcenter, if_neg hcenter]
      exact madeOf_call_three (Text.madeOf_of_ascii hP (by decide)) hid hfault

theorem madeOf_propertyEmissions (htext : w.text = .null ∨ ∃ t, w.text = .text t)
    (hfault : (w.propertyEmissions id).fault? = none) :
    (w.propertyEmissions id).MadeOf P ↔
      (w.takesText = true → ∀ t, w.text = .text t → ∀ p ∈ t, p.KeepsByte ∨ P p) ∧
      ShownMadeOf P (if w.rangeMin.isNull || w.rangeMax.isNull || !w.takesValue then []
        else [w.rangeMin.display, w.rangeMax.display]) ∧
      ShownMadeOf P (if w.value.isNull || !w.takesValue then [] else [w.value.display]) := by
  have hkind : ∀ k : Kind, ∀ p ∈ k.sourceName, p.value < 0x80 := fun k => by cases k <;> decide
  have hstem {end' : Text} (hend : ∀ p ∈ end', p.value < 0x80) :
      (("lv_" : Text) ++ (Kind.orContainer (Kind.ofValue? w.kind)).sourceName ++ end').MadeOf P := by
    rw [Text.madeOf_append, Text.madeOf_append]
    exact ⟨⟨Text.madeOf_of_ascii hP (by decide), Text.madeOf_of_ascii hP (hkind _)⟩,
      Text.madeOf_of_ascii hP hend⟩
  unfold propertyEmissions at hfault ⊢
  simp only at hfault ⊢
  rw [Emissions.fault?_append_eq_none, Emissions.fault?_append_eq_none] at hfault
  rw [Emissions.madeOf_append (Emissions.fault?_append_eq_none.2 hfault.1),
    Emissions.madeOf_append hfault.1.1, and_assoc]
  refine and_congr ?_ (and_congr ?_ ?_)
  · rcases htext with h | ⟨t, h⟩
    · rw [h]
      exact iff_of_true Emissions.madeOf_nil fun _ _ h => (nomatch h)
    · have hcharacters : (Value.text t).characters = .ok t := Value.characters_text t
      rw [h, if_neg (by simp [Value.isNull]), hcharacters, settingEmission]
      change Emissions.MadeOf P [if w.takesText = true then _ else _] ↔ _
      split
      · next htakes =>
        refine (madeOf_call (hstem (by decide))).trans ?_
        simp [htakes, hid, Literal.madeOf_encode hP]
      · next htakes => exact iff_of_true Emissions.madeOf_nil fun h => absurd h htakes
  · exact madeOf_setting (madeOf_call_two (hstem (by decide)) hid) hfault.1.2
  · refine madeOf_setting (madeOf_call_one (hstem (by decide)) hid ?_) hfault.2
    split
    · exact List.forall_mem_singleton.2 (Text.madeOf_of_ascii hP (by decide))
    · exact fun _ h => absurd h List.not_mem_nil

omit hid in
theorem madeOf_toSource (k : StyleKey) (t : Text) : (k.toSource t).MadeOf P ↔ t.MadeOf P := by
  have hcolor : (Color.toSource t).MadeOf P ↔ t.MadeOf P := by
    unfold Color.toSource
    split
    · rw [Text.madeOf_append, Text.madeOf_append,
        and_iff_right (Text.madeOf_of_ascii hP (by decide)),
        and_iff_left (Text.madeOf_of_ascii hP (by decide))]
    · rfl
  cases k with
  | bgColor => exact hcolor
  | textColor => exact hcolor
  | textFont =>
    have hfont : StyleKey.textFont.toSource t =
        if t.head? = some (.char '&') then t else .char '&' :: t := rfl
    rw [hfont]
    split
    · rfl
    · rw [Text.madeOf_cons, and_iff_right (hP _ (by decide))]
  | radius => rfl
  | borderOpa => rfl

theorem madeOf_style (key t : Text) :
    Emissions.fault? [emitCall ("lv_obj_set_style_" ++ key)
      ((Styles.argument key (.text t)).map fun argument => [id, argument, "0"])] = none ∧
    (Emissions.MadeOf P [emitCall ("lv_obj_set_style_" ++ key)
      ((Styles.argument key (.text t)).map fun argument => [id, argument, "0"])] ↔
        key.MadeOf P ∧ t.MadeOf P) := by
  obtain ⟨argument, hargument, hmade⟩ : ∃ u, Styles.argument key (.text t) = .ok u ∧
      (u.MadeOf P ↔ t.MadeOf P) := by
    unfold Styles.argument
    cases StyleKey.ofName? key with
    | some k => exact ⟨_, rfl, madeOf_toSource hP k t⟩
    | none => exact ⟨_, rfl, .rfl⟩
  have hzero : Text.MadeOf P "0" := Text.madeOf_of_ascii hP (by decide)
  rw [hargument]
  refine ⟨rfl, ?_⟩
  rw [emitCall, Except.map, Except.map, Emissions.madeOf_statement, Statement.parts,
    List.forall_mem_cons, Text.madeOf_append, and_iff_right (Text.madeOf_of_ascii hP (by decide))]
  simp [hid, hzero, hmade]

theorem madeOf_styleEmissions (hw : w.IsTyped) :
    (w.styleEmissions id).MadeOf P ↔
      ∀ e ∈ w.styles.items, e.1.MadeOf P ∧ ∀ t, e.2 = .text t → t.MadeOf P := by
  have hitems := hw.texts_items
  unfold styleEmissions
  generalize w.styles.items = items at hitems
  induction items with
  | nil => exact iff_of_true Emissions.madeOf_nil fun _ h => absurd h List.not_mem_nil
  | cons e items ih =>
    obtain ⟨key, v⟩ := e
    rw [List.forall_mem_cons] at hitems
    obtain ⟨t, rfl⟩ : ∃ t, v = .text t := hitems.1
    obtain ⟨hfault, hmade⟩ := madeOf_style hP hid key t
    rw [List.map_cons, List.forall_mem_cons, ← List.singleton_append]
    refine (Emissions.madeOf_append hfault).trans (and_congr (hmade.trans ?_) (ih hitems.2))
    simp

omit hid in
theorem madeOf_creationEmissions (hname : ∃ t, w.kind = .text t) (hid : id.MadeOf P)
    (hparent : parent.MadeOf P) :
    (w.creationEmissions d id parent).MadeOf P ↔
      (d = .verbose → ∀ t, w.kind = .text t → t.MadeOf P) := by
  obtain ⟨kind, hkind⟩ := hname
  have hsource : ∀ k : Kind, k.sourceName.MadeOf P := fun k =>
    Text.madeOf_of_ascii hP (by cases k <;> decide)
  have hcreate {k : Kind} :
      Emissions.MadeOf P [.ok (.statement (.create id k.sourceName parent))] :=
    Emissions.madeOf_statement.2 (by simp [Statement.parts, hid, hsource, hparent])
  unfold creationEmissions
  rw [hkind]
  cases d with
  | concise => exact iff_of_true hcreate (by simp)
  | verbose =>
    have hcomment : Emissions.MadeOf P [.ok (.statement (.comment id kind))] ↔ kind.MadeOf P := by
      rw [Emissions.madeOf_statement]
      simp [Statement.parts, hid]
    have hquiet : Emissions.fault? [.ok (.statement (.comment id kind))] = none := rfl
    refine (Emissions.madeOf_append hquiet).trans ?_
    rw [hcomment, and_iff_left hcreate]
    simp

end Parts

/-- The statement that creates a widget names it. -/
theorem name_of_madeOf_emissions {d : Detail} {id parent : Text} {w : Widget}
    (hfault : (w.emissions d id parent).fault? = none) (h : (w.emissions d id parent).MadeOf P) :
    id.MadeOf P := by
  have hlink : (parent, id) ∈ (w.emissions d id parent).links := by
    rw [(links_emissions d id parent w hfault).1]
    exact List.mem_cons_self
  obtain ⟨s, hs, hlink⟩ := List.mem_filterMap.1 hlink
  cases s with
  | create target sourceName parent' =>
    cases hlink
    exact h _ hs id List.mem_cons_self
  | comment => cases hlink
  | call => cases hlink
  | gap => cases hlink

include hP in
/-- **The statements of a widget** are made of what the widget shows. -/
theorem madeOf_emissions_iff (d : Detail) {w : Widget} (hw : w.IsTyped) {parent : Text}
    (hparent : parent.MadeOf P) (hfault : (w.emissions d w.name parent).fault? = none) :
    (w.emissions d w.name parent).MadeOf P ↔ w.Spells P d := by
  have hname := name_of_madeOf_emissions (P := P) hfault
  have hgap : Emissions.MadeOf P [.ok (.statement .gap)] :=
    Emissions.madeOf_statement.2 fun _ h => absurd h List.not_mem_nil
  unfold emissions at hfault hname ⊢
  simp only [Emissions.fault?_append_eq_none] at hfault
  obtain ⟨⟨⟨⟨⟨hcreation, hsize⟩, hplace⟩, hproperties⟩, hstyles⟩, -⟩ := hfault
  have hparts : ∀ _ : w.name.MadeOf P, _ := fun hid => and_congr (and_congr (and_congr (and_congr
    (madeOf_creationEmissions hP d hw.kind hid hparent) (madeOf_sizeEmissions hP hid hsize))
      (madeOf_placeEmission hP hid hplace)) (madeOf_propertyEmissions hP hid hw.text hproperties))
        (madeOf_styleEmissions hP hid hw)
  simp (disch := simp only [Emissions.fault?_append_eq_none, hcreation, hsize, hplace, hproperties,
    hstyles, and_self]) only [Emissions.madeOf_append, and_iff_left hgap] at hname ⊢
  constructor
  · intro hall
    obtain ⟨⟨⟨⟨hkind, hsize⟩, hplace⟩, htext, hrange, hvalue⟩, hstyles⟩ :=
      (hparts (hname hall)).1 hall
    refine ⟨hname hall, hkind, ?_, htext, hstyles⟩
    rw [shown]
    exact shownMadeOf_append.2 ⟨shownMadeOf_append.2 ⟨shownMadeOf_append.2 ⟨hsize, hplace⟩, hrange⟩,
      hvalue⟩
  · intro h
    have hshown : ShownMadeOf P w.shown := h.shown
    rw [shown, shownMadeOf_append, shownMadeOf_append, shownMadeOf_append] at hshown
    obtain ⟨⟨⟨hsize, hplace⟩, hrange⟩, hvalue⟩ := hshown
    exact (hparts h.name).2 ⟨⟨⟨⟨h.kind, hsize⟩, hplace⟩, h.text, hrange, hvalue⟩, h.styles⟩

include hP in
/-- A container shows its name. -/
theorem spells_named (d : Detail) {name : Text} (hname : name.MadeOf P) :
    (named name).Spells P d where
  name := hname
  kind _ t ht := by
    cases ht
    exact Text.madeOf_of_ascii hP (by decide)
  shown t ht := by
    have hshown : (named name).shown = [.ok "0", .ok "0"] := rfl
    rw [hshown] at ht
    simp only [List.mem_cons, List.not_mem_nil, or_false, or_self, Except.ok.injEq] at ht
    rw [ht]
    exact Text.madeOf_of_ascii hP (by decide)
  text _ _ h := nomatch h
  styles _ h := nomatch h

end Widget

/-! ## Forests -/

mutual

theorem Tree.madeOf_emissions_iff (hP : HoldsOfAscii P) (d : Detail) : ∀ {parent : Text}
    (_ : parent.MadeOf P) (path : List Nat) (t : Tree Widget) (_ : ∀ w ∈ t.toList, w.IsTyped)
    (_ : (Tree.emissions d parent path t).fault? = none),
    (Tree.emissions d parent path t).MadeOf P ↔
      ∀ w ∈ Forest.toList (Tree.prune Widget.hasLegalName t), w.Spells P d
  | parent, hparent, path, .node w ts, h, hfault => by
    rw [Tree.toList, List.forall_mem_cons] at h
    rw [Tree.prune]
    cases hw : w.hasLegalName with
    | true =>
      rw [Tree.emissions_of_legal d h.1.identifier hw] at hfault ⊢
      rw [Emissions.fault?_append_eq_none] at hfault
      rw [if_pos rfl, Emissions.madeOf_append hfault.1,
        Widget.madeOf_emissions_iff hP d h.1 hparent hfault.1, Forest.toList, Forest.toList,
        Tree.toList, List.append_nil, List.forall_mem_cons]
      exact and_congr_right fun hspells =>
        Forest.madeOf_emissions_iff hP d hspells.name path 0 ts h.2 hfault.2
    | false =>
      rw [if_neg Bool.false_ne_true, Tree.emissions_of_illegal d h.1.identifier hw]
      exact iff_of_true Emissions.madeOf_nil fun _ hmem => absurd hmem List.not_mem_nil

/-- **The statements of a forest** are made of what the widgets show that are left after pruning. -/
theorem Forest.madeOf_emissions_iff (hP : HoldsOfAscii P) (d : Detail) : ∀ {parent : Text}
    (_ : parent.MadeOf P) (path : List Nat) (index : Nat) (ts : List (Tree Widget))
    (_ : ∀ w ∈ Forest.toList ts, w.IsTyped)
    (_ : (Forest.emissions d parent path index ts).fault? = none),
    (Forest.emissions d parent path index ts).MadeOf P ↔
      ∀ w ∈ Forest.toList (Forest.prune Widget.hasLegalName ts), w.Spells P d
  | _, _, _, _, [], _, _ =>
    iff_of_true Emissions.madeOf_nil fun _ hmem => absurd hmem List.not_mem_nil
  | parent, hparent, path, index, t :: ts, h, hfault => by
    rw [Forest.toList, List.forall_mem_append] at h
    rw [Forest.emissions, Emissions.fault?_append_eq_none] at hfault
    rw [Forest.emissions, Forest.prune, Emissions.madeOf_append hfault.1, Forest.toList_append,
      List.forall_mem_append,
      Tree.madeOf_emissions_iff hP d hparent (path ++ [index]) t h.1 hfault.1,
      Forest.madeOf_emissions_iff hP d hparent path (index + 1) ts h.2 hfault.2]

end

end LvglForest
