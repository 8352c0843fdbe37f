import LvglForest.Project.Rendering
import LvglForest.Proofs.Code.Generation
import LvglForest.Proofs.Table

/-!
# The drafts of screens and what their files say

Around the statements of a screen, its file has the line that includes the header, the definitions
of the variables and the frame of the function. The definitions say what they declare, one line of
the frame states the size of the parent that is passed in, and the others say nothing; so the file
says this and what the statements say (`Rendering.Draft.contents_file`). The symbols of screens are
words whatever the screens are called (`Symbol.isWord_ofName`, `Symbol.isWord_free`), which is all
that the frame depends on.

The drafts have what is generated for their screens, under symbols that are all different
(`Rendering.drafts_eq_ok`), since each of them is fresh (`Symbol.free_not_mem`).
-/

namespace LvglForest

open Extraction

/-- The header has a name that can be shown. -/
def ExportOptions.ShowsHeader (o : ExportOptions) : Prop := ∃ name, o.headerName.display = .ok name

/-! ## Symbols -/

namespace Symbol

theorem isWord_ofName (name : Text) : (ofName name).IsWord := by
  have hall : ∀ p ∈ name.strip.map fun p => if p.isWord then p else .char '_',
      p.isWord = true := by
    intro p hp
    obtain ⟨q, -, rfl⟩ := List.mem_map.1 hp
    split
    · next h => exact h
    · rfl
  unfold ofName
  split
  · exact .ofList (by decide)
  · next p t hname =>
    rw [hname] at hall
    split
    · exact ⟨List.cons_ne_nil _ _, List.forall_mem_cons.2 ⟨rfl, hall⟩⟩
    · exact ⟨List.cons_ne_nil _ _, hall⟩

theorem isWord_free (used : List Text) {symbol : Text} (h : symbol.IsWord) :
    (free used symbol).IsWord := by
  have hnumbered : ∀ n, (numbered symbol n).IsWord := fun n =>
    (h.append (.ofList (by decide))).append (Decimal.isWord_ofNat n)
  unfold free
  split
  · exact h
  · simp only
    cases hfind : List.find? (· ∉ used)
        ((List.range (used.length + 1)).map fun k => numbered symbol (k + 2)) with
    | none => exact h
    | some t =>
      obtain ⟨k, -, rfl⟩ := List.mem_map.1 (List.mem_of_find?_eq_some hfind)
      exact hnumbered (k + 2)

theorem isWord_of_ofValue {v : Value} {symbol : Text} (h : ofValue v = .ok symbol) :
    symbol.IsWord := by
  cases v with
  | text name =>
    cases h
    exact isWord_ofName name
  | _ => cases h

theorem numbered_injective (symbol : Text) : Function.Injective (numbered symbol) :=
  fun _ _ h => Decimal.ofNat_injective (List.append_cancel_left h)

/-- There are more candidates than used symbols, so one of them is free. -/
theorem exists_candidate (used : List Text) (symbol : Text) :
    ∃ t ∈ (List.range (used.length + 1)).map fun k => numbered symbol (k + 2), t ∉ used := by
  by_contra hall
  simp only [not_exists, not_and, not_not] at hall
  have hnodup : ((List.range (used.length + 1)).map fun k => numbered symbol (k + 2)).Nodup :=
    List.nodup_range.map fun _ _ h => Nat.add_right_cancel (numbered_injective symbol h)
  have hlength := (List.subperm_of_subset hnodup hall).length_le
  rw [List.length_map, List.length_range] at hlength
  omega

/-- **The symbol of a screen is fresh.** -/
theorem free_not_mem (used : List Text) (symbol : Text) : free used symbol ∉ used := by
  unfold free
  split
  · next h => exact h
  · simp only
    obtain ⟨t, ht, hfree⟩ := exists_candidate used symbol
    obtain ⟨u, hu⟩ := Option.isSome_iff_exists.1
      (List.find?_isSome.2 ⟨t, ht, decide_eq_true hfree⟩ :
        (List.find? (fun t => decide (t ∉ used)) _).isSome = true)
    rw [hu, Option.getD_some]
    simpa using List.find?_some hu

end Symbol

namespace Rendering

/-! ## The frame of a function -/

/-- The whole of the parent's own parent, which the parent is made to fill. -/
def whole : Size := .percent (.integer 100)

/-- What is said of the size of the parent. -/
def filling : Text × Assertion := ("parent", .size whole whole)

/-- What the definitions of variables say. -/
def declaring (ids : List Text) : List (Text × Assertion) :=
  ids.map fun id => (id, .declared (.text "lv_obj_t"))

theorem says_include : Says (Draft.includeLine {}) [] :=
  .silent (by decide) (by decide) (by decide)

section Frame

variable (d : Detail)

theorem says_clean : Says (d.indent ++ (Statement.call "lv_obj_clean" ["parent"]).text) [] := by
  have hargs : ∀ x ∈ [("parent" : Text)], Arguments.IsToken x := by
    rw [List.forall_mem_singleton]
    exact .word (.ofList (by decide))
  have hnames : Recognizer.names.map (·.groups? "lv_obj_clean") =
      [none, none, none, none, none, none, none, none, none] := by
    rw [Recognizer.map_groups_names]
    simp only [Text.ofString, String.reduceToList]
    decide
  have hspeaks := Says.call d.isBlank_indent d.inLine_indent (f := "lv_obj_clean")
    (.ofList (by decide)) (by decide) hargs
  rw [Recognizer.saying_of_groups hnames] at hspeaks
  exact hspeaks

theorem says_fill : Says
    (d.indent ++ (Statement.call "lv_obj_set_size" ["parent", "LV_PCT(100)", "LV_PCT(100)"]).text)
    [filling] := by
  have hpercent : Arguments.IsToken "LV_PCT(100)" :=
    .wrapped (.inl rfl) (t := "100") (.word (.ofList (by decide)))
  have hargs : ∀ x ∈ [("parent" : Text), "LV_PCT(100)", "LV_PCT(100)"], Arguments.IsToken x := by
    simp only [List.forall_mem_cons]
    exact ⟨.word (.ofList (by decide)), hpercent, hpercent, by simp⟩
  have hwhole : Size.ofSource "LV_PCT(100)" = .ok whole := by rfl
  have hspeaks := Says.call d.isBlank_indent d.inLine_indent (f := "lv_obj_set_size")
    (.ofList (by decide)) (by decide) hargs
  rw [Recognizer.saying_size (by decide) hwhole hwhole] at hspeaks
  exact hspeaks

end Frame

/-! ## The file of a screen -/

namespace Draft

variable {d : Detail} {draft : Draft} {ids : List Text} {said : List (Text × Assertion)}

/-- The body of a function says what the statements say. -/
theorem says_body (h : Emissions.Say d draft.emissions ids said) :
    ∃ saids, List.Forall₂ Says
      (draft.bodyLines.map fun line => if line.isEmpty then [] else d.indent ++ line) saids ∧
        saids.flatten = said := by
  obtain ⟨saids, hspeaks, hsaid⟩ := h.forall₂_says
  have hlines : (draft.emissions.statements.map Statement.text).map
      (fun line => if line.isEmpty then [] else d.indent ++ line) =
        draft.emissions.statements.map (Statement.line d) := by
    rw [List.map_map]
    rfl
  have hnewline : ∀ t ∈ draft.emissions.statements.map Statement.text, .char '\n' ∉ t := by
    intro t ht
    obtain ⟨s, hs, rfl⟩ := List.mem_map.1 ht
    exact (h.inLine_text s hs).not_mem rfl
  unfold bodyLines Emissions.code
  simp only
  split
  · next hempty =>
    exact ⟨[], .nil, (h.eq_nil_of_code (List.isEmpty_iff.1 hempty)).symm⟩
  · next hcode =>
    have hne : draft.emissions.statements.map Statement.text ≠ [] := by
      rintro hnil
      rw [hnil] at hcode
      exact hcode rfl
    rw [show Text.ofString "\n" = [.char '\n'] from rfl, Text.splitOn_join hne hnewline, hlines]
    exact ⟨saids, hspeaks, hsaid⟩

theorem says_definitions (hids : ∀ id ∈ ids, id.IsWord) :
    List.Forall₂ Says (ids.map fun id => ("lv_obj_t * " : Text) ++ id ++ " = NULL;")
      (ids.map fun id => [(id, .declared (.text "lv_obj_t"))]) := by
  induction ids with
  | nil => exact .nil
  | cons id ids ih =>
    rw [List.forall_mem_cons] at hids
    exact .cons (Says.definition hids.1) (ih hids.2)

/-- **The file of a screen** says which variables it declares, how large the parent is, and what the
statements say. -/
theorem contents_file (hsymbol : draft.symbol.IsWord) (h : Emissions.Say d draft.emissions ids said)
    (hn : ids.Nodup) (hids : ∀ id ∈ ids, id.IsWord) :
    (facts .standard (draft.file { detail := d }).code).map Fact.content =
      declaring ids ++ filling :: said := by
  obtain ⟨saids, hbody, hsaid⟩ := says_body h
  have hidentifiers : draft.identifiers = ids := by
    rw [identifiers, h.identifiers_eq, Text.distinct_of_nodup hn]
  have hsignature : draft.signature { detail := d } ++ (" \x7b" : Text) =
      functionLine draft.symbol := by
    simp only [signature, functionName, functionLine, List.append_assoc]
    rfl
  have hopening : List.Forall₂ Says (openingLines { detail := d })
      [[], [filling], []] := by
    have hclean : (Statement.call "lv_obj_clean" ["parent"]).text =
        ("lv_obj_clean(" : Text) ++ "parent" ++ ");" := rfl
    have hfill : (Statement.call "lv_obj_set_size" ["parent", "LV_PCT(100)", "LV_PCT(100)"]).text =
        ("lv_obj_set_size(" : Text) ++ "parent" ++ ", LV_PCT(100), LV_PCT(100));" := rfl
    have hcleans := says_clean d
    have hfills := says_fill d
    rw [hclean, ← List.append_assoc, ← List.append_assoc] at hcleans
    rw [hfill, ← List.append_assoc, ← List.append_assoc] at hfills
    exact .cons hcleans (.cons hfills (.cons Says.nil .nil))
  have hbrace : Says ("\x7d" : Text) [] :=
    .silent (by decide) (by decide) (by decide)
  have hhead : List.Forall₂ Says [includeLine { detail := d }, []] [[], []] :=
    .cons says_include (.cons Says.nil .nil)
  have hfunction : List.Forall₂ Says [[], functionLine draft.symbol] [[], []] :=
    .cons Says.nil (.cons (Says.function hsymbol) .nil)
  have hspeaks := List.rel_append (List.rel_append (List.rel_append (List.rel_append (List.rel_append
    hhead (says_definitions hids)) hfunction) hopening) hbody) (.cons hbrace .nil)
  have hlines : draft.lines { detail := d } = ([includeLine { detail := d }, []] ++
      (ids.map fun id => ("lv_obj_t * " : Text) ++ id ++ " = NULL;") ++
        [[], functionLine draft.symbol] ++ openingLines { detail := d } ++
          (draft.bodyLines.map fun line => if line.isEmpty then [] else d.indent ++ line) ++
            [("\x7d" : Text)]) ++ [[]] := by
    rw [lines, definitions, hidentifiers, hsignature, List.append_assoc _ [_] [_]]
    rfl
  have hflatten : (ids.map fun id => [(id, Assertion.declared (.text "lv_obj_t"))]).flatten =
      declaring ids := by
    rw [← List.flatMap_def, declaring, List.map_eq_flatMap]
  rw [file, hlines, contents_of_says hspeaks]
  simp only [List.flatten_append, List.flatten_cons, List.flatten_nil, hflatten, hsaid,
    List.nil_append, List.append_nil, List.append_assoc, List.cons_append]

end Draft

/-! ## The drafts of screens -/

/-- The draft of a screen has a word for its symbol, and what is generated for its widgets. -/
structure Draft.IsOf (o : ExportOptions) (s : Screen) (d : Draft) : Prop where
  symbol : d.symbol.IsWord
  emissions : d.emissions = Forest.emissions o.detail o.parentName [] 0 s.widgets

/-- Screens with names have drafts, under fresh symbols. -/
theorem exists_drafts_of_names (o : ExportOptions) {screens : List Screen}
    (h : ∀ s ∈ screens, ∃ t, s.name = .text t) (used : List Text) :
    ∃ ds : List Draft, drafts o used screens = ds.map .ok := by
  induction screens generalizing used with
  | nil => exact ⟨[], rfl⟩
  | cons s screens ih =>
    rw [List.forall_mem_cons] at h
    obtain ⟨name, hname⟩ := h.1
    obtain ⟨ds, hds⟩ := ih h.2 (Symbol.free used (Symbol.ofName name) :: used)
    refine ⟨⟨Symbol.ofName name, Symbol.free used (Symbol.ofName name),
      Forest.emissions o.detail o.parentName [] 0 s.widgets⟩ :: ds, ?_⟩
    rw [drafts, hname, Symbol.ofValue, List.map_cons, ← hds]

/-- The drafts of screens have what is generated for these, in order and under distinct symbols. -/
theorem drafts_eq_ok (o : ExportOptions) {screens : List Screen} {used : List Text}
    {ds : List Draft} (h : drafts o used screens = ds.map .ok) :
    List.Forall₂ (Draft.IsOf o) screens ds ∧ (ds.map Draft.symbol).Nodup ∧
      ∀ d ∈ ds, d.symbol ∉ used := by
  induction screens generalizing used ds with
  | nil =>
    cases ds with
    | nil => exact ⟨.nil, List.nodup_nil, fun _ hd => absurd hd List.not_mem_nil⟩
    | cons d ds => cases h
  | cons s screens ih =>
    rw [drafts] at h
    split at h
    · next wanted hwanted =>
      -- The symbol is fresh against all that are taken, and those after it are fresh against it.
      cases ds with
      | nil => cases h
      | cons d ds =>
        rw [List.map_cons, List.cons.injEq, Except.ok.injEq] at h
        obtain ⟨rfl, h⟩ := h
        obtain ⟨hof, hnodup, hfresh⟩ := ih h
        have hword := Symbol.isWord_free used (Symbol.isWord_of_ofValue hwanted)
        refine ⟨.cons ⟨hword, rfl⟩ hof, ?_,
          List.forall_mem_cons.2 ⟨Symbol.free_not_mem used wanted, ?_⟩⟩
        · rw [List.map_cons, List.nodup_cons]
          refine ⟨fun hmem => ?_, hnodup⟩
          obtain ⟨d, hd, hsymbol⟩ := List.mem_map.1 hmem
          exact hfresh d hd (hsymbol ▸ List.mem_cons_self)
        · exact fun d hd hmem => hfresh d hd (List.mem_cons_of_mem _ hmem)
    · next f hf =>
      cases ds with
      | nil => cases h
      | cons d ds => cases h

theorem forall₂_isOf {o : ExportOptions} {screens : List Screen} {ds : List Draft}
    (hof : List.Forall₂ (Draft.IsOf o) screens ds)
    (hfault : ∀ d ∈ ds, d.emissions.fault? = none) :
    List.Forall₂ (fun s d => d.IsOf o s ∧ d.emissions.fault? = none) screens ds := by
  induction hof with
  | nil => exact .nil
  | cons hd _ ih =>
    rw [List.forall_mem_cons] at hfault
    exact .cons ⟨hd, hfault.1⟩ (ih hfault.2)

/-- The draft of a screen whose widgets source can express. -/
structure Drafts (d : Detail) (s : Screen) (draft : Draft) : Prop where
  expressible : s.IsExpressible
  symbol : draft.symbol.IsWord
  emissions : draft.emissions = Forest.emissions d "parent" [] 0 s.widgets

theorem exists_drafts (d : Detail) {screens : List Screen} (h : ∀ s ∈ screens, s.IsExpressible)
    (used : List Text) :
    ∃ ds : List Draft, drafts { detail := d } used screens = ds.map .ok ∧
      List.Forall₂ (Drafts d) screens ds := by
  obtain ⟨ds, hds⟩ := exists_drafts_of_names { detail := d } (fun s hs => (h s hs).name) used
  have hall := (List.forall₂_and_left _ _).2 ⟨h, (drafts_eq_ok _ hds).1⟩
  exact ⟨ds, hds, hall.imp fun s draft ⟨hs, hdraft⟩ => ⟨hs, hdraft.symbol, hdraft.emissions⟩⟩

/-- Under a header with a name that can be shown drafts end where their statements do. -/
theorem Draft.fault?_of_showsHeader {o : ExportOptions} (ho : o.ShowsHeader) (d : Draft) :
    d.fault? o = d.emissions.fault? := by
  obtain ⟨name, hname⟩ := ho
  unfold fault?
  rw [hname]
  cases d.emissions.fault? <;> rfl

theorem Draft.fault?_eq_none_iff {o : ExportOptions} {d : Draft} :
    d.fault? o = none ↔ o.ShowsHeader ∧ d.emissions.fault? = none := by
  cases hname : o.headerName.display with
  | ok name =>
    have ho : o.ShowsHeader := ⟨name, hname⟩
    rw [Draft.fault?_of_showsHeader ho, and_iff_right ho]
  | error f =>
    have ho : ¬ o.ShowsHeader := by
      rintro ⟨name, h⟩
      rw [hname] at h
      cases h
    refine iff_of_false ?_ fun h => ho h.1
    unfold fault?
    rw [hname]
    cases d.emissions.fault? <;> exact fun h => nomatch h

theorem settled_of_fault? {o : ExportOptions} {ds : List Draft} (h : ∀ d ∈ ds, d.fault? o = none) :
    settled o (ds.map .ok) = .ok ds := by
  induction ds with
  | nil => rfl
  | cons d ds ih =>
    rw [List.forall_mem_cons] at h
    rw [List.map_cons, settled, h.1, ih h.2]
    rfl

/-- Drafts are settled if there is one for each screen and no fault ends any of them. -/
theorem settled_eq_ok {o : ExportOptions} {rs : List (Except Fault Draft)} {ds : List Draft} :
    settled o rs = .ok ds ↔ rs = ds.map .ok ∧ ∀ d ∈ ds, d.fault? o = none := by
  refine ⟨fun h => ?_, fun ⟨hrs, h⟩ => hrs ▸ settled_of_fault? h⟩
  induction rs generalizing ds with
  | nil =>
    cases h
    exact ⟨rfl, fun _ hd => absurd hd List.not_mem_nil⟩
  | cons r rs ih =>
    cases r with
    | error f => cases h
    | ok d =>
      rw [settled] at h
      split at h
      · cases h
      · next hfault =>
        cases hrs : settled o rs with
        | error f =>
          rw [hrs] at h
          cases h
        | ok ds' =>
          rw [hrs] at h
          cases h
          obtain ⟨rfl, hrest⟩ := ih hrs
          exact ⟨rfl, List.forall_mem_cons.2 ⟨hfault, hrest⟩⟩

end Rendering

end LvglForest
