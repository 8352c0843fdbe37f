import LvglForest.Proofs.Project.Definition

/-!
# Header and files agree

The body of each function creates the variables of the widgets that are left of its screen without
the skipped ones. Its file defines these, the header declares those of all files, and it declares
the functions of the files, each once and in order (`Project.ofScreens_agrees`). Nothing in the
files comes from a skipped widget: they are the files of the screens without such widgets.
-/

namespace LvglForest

/-- A screen that has a name and typed widgets. -/
structure Screen.IsTyped (s : Screen) : Prop where
  name : ∃ t, s.name = .text t
  widgets : ∀ w ∈ Forest.toList s.widgets, w.IsTyped

/-- What is left of a screen without the widgets that generation skips. -/
def Screen.unskipped (s : Screen) : Screen :=
  { s with widgets := Forest.prune Widget.hasLegalName s.widgets }

/-- A header agrees with the files of screens. -/
structure Declaration.Agrees (h : Declaration) (o : ExportOptions) (screens : List Screen)
    (fs : List Definition) : Prop where
  /-- The bodies create the widgets that are not skipped. -/
  created : List.Forall₂
    (fun s f => f.body.filterMap Statement.created? =
      (Forest.toList s.unskipped.widgets).map Widget.name) screens fs
  /-- The files define what their bodies create. -/
  defined : ∀ f ∈ fs, Text.IsFirstSeen (f.body.filterMap Statement.created?) f.names
  /-- The header declares what the files define. -/
  declared : Text.IsFirstSeen (fs.flatMap Definition.names) h.names
  /-- The header declares the functions that the files define. -/
  prototypes : h.functions = fs.map (Definition.function o)
  distinct : h.functions.Nodup

/-! ## Screens without their skipped widgets -/

namespace Rendering

variable (o : ExportOptions)

/-- A draft without the reports on skipped widgets. -/
def Draft.unskipped (d : Draft) : Draft := { d with emissions := d.emissions.unskipped }

theorem Draft.definition_unskipped (d : Draft) : d.unskipped.definition = d.definition := by
  simp only [definition, identifiers, Emissions.identifiers, unskipped,
    Emissions.statements_unskipped]

theorem drafts_unskipped {screens : List Screen} (ht : ∀ s ∈ screens, s.IsTyped)
    {used : List Text} {ds : List Draft} (h : drafts o used screens = ds.map .ok) :
    drafts o used (screens.map Screen.unskipped) = (ds.map Draft.unskipped).map .ok := by
  induction screens generalizing used ds with
  | nil =>
    cases ds with
    | nil => rfl
    | cons d ds => cases h
  | cons s screens ih =>
    rw [List.forall_mem_cons] at ht
    obtain ⟨name, hname⟩ := ht.1.name
    rw [drafts, hname, Symbol.ofValue] at h
    cases ds with
    | nil => cases h
    | cons d ds =>
      rw [List.map_cons, List.cons.injEq, Except.ok.injEq] at h
      obtain ⟨rfl, h⟩ := h
      have hunskipped := Forest.unskipped_emissions o.detail o.parentName [] [] 0 0 s.widgets
        fun w hw => (ht.1.widgets w hw).identifier
      rw [List.map_cons, drafts, Screen.unskipped, hname, Symbol.ofValue]
      simp only
      rw [ih ht.2 h, List.map_cons, List.map_cons, Draft.unskipped, hunskipped]

variable {o} {screens : List Screen} {ds : List Draft}
  (hof : List.Forall₂ (Draft.IsOf o) screens ds) (ht : ∀ s ∈ screens, s.IsTyped)
include hof ht

/-- No fault ends the drafts exactly if what they show can be written. -/
theorem forall_fault?_iff : (∀ d ∈ ds, d.emissions.fault? = none) ↔
    ∀ s ∈ screens, ∀ w ∈ Forest.toList s.unskipped.widgets, w.IsWritten := by
  induction hof with
  | nil => exact ⟨fun _ _ h => absurd h List.not_mem_nil, fun _ _ h => absurd h List.not_mem_nil⟩
  | cons hd _ ih =>
    rw [List.forall_mem_cons] at ht
    rw [List.forall_mem_cons, List.forall_mem_cons, ih ht.2, hd.emissions,
      Forest.fault?_emissions_iff o.detail o.parentName [] 0 _ ht.1.widgets]
    rfl

omit ht in
/-- The variables of the drafts are those of the widgets that are not skipped. -/
theorem forall₂_identifiers
    (hnames : ∀ s ∈ screens, ∀ w ∈ Forest.toList s.widgets, w.identifier = .text w.name)
    (hfault : ∀ d ∈ ds, d.emissions.fault? = none) :
    List.Forall₂ (fun s d => d.emissions.identifiers =
      (Forest.toList s.unskipped.widgets).map Widget.name) screens ds := by
  have hall := (List.forall₂_and_left _ _).2 ⟨hnames, forall₂_isOf hof hfault⟩
  refine hall.imp fun s d ⟨hs, hd, hdfault⟩ => ?_
  rw [hd.emissions] at hdfault ⊢
  exact Forest.identifiers_emissions o.detail hs hdfault

end Rendering

/-! ## Agreement -/

/-- What is declared for drafts agrees with their files. -/
theorem Declaration.ofDefinitions_agrees (o : ExportOptions) {screens : List Screen}
    {ds : List Rendering.Draft} (ht : ∀ s ∈ screens, s.IsTyped)
    (hdrafts : Rendering.drafts o [] screens = ds.map .ok)
    (hfault : ∀ d ∈ ds, d.emissions.fault? = none) :
    (ofDefinitions o (ds.map Rendering.Draft.definition)).Agrees o screens
      (ds.map Rendering.Draft.definition) where
  created := by
    rw [List.forall₂_map_right_iff]
    exact Rendering.forall₂_identifiers (Rendering.drafts_eq_ok o hdrafts).1
      (fun s hs w hw => ((ht s hs).widgets w hw).identifier) hfault
  defined := by
    rw [List.forall_mem_map]
    exact fun d _ => Text.isFirstSeen_distinct d.emissions.identifiers
  declared := Text.isFirstSeen_distinct _
  prototypes := rfl
  distinct := by
    have hsymbols := (Rendering.drafts_eq_ok o hdrafts).2.1
    have hfunctions : (ofDefinitions o (ds.map Rendering.Draft.definition)).functions =
        (ds.map Rendering.Draft.symbol).map (· ++ o.functionSuffix) := by
      rw [ofDefinitions, List.map_map, List.map_map]
      rfl
    rw [hfunctions]
    exact hsymbols.map (List.append_left_injective _)

namespace Project

/-- There are drafts exactly where there are screens. -/
theorem drafts_ne_nil_iff {o : ExportOptions} {screens : List Screen} {ds : List Rendering.Draft}
    (hdrafts : Rendering.drafts o [] screens = ds.map .ok) : ds ≠ [] ↔ screens ≠ [] := by
  have hlength := (Rendering.drafts_eq_ok o hdrafts).1.length_eq
  rw [← List.length_pos_iff, ← List.length_pos_iff, hlength]

/-- Typed screens are rendered exactly if what is shown of the widgets that are not skipped can be
written, the library is included by a line, and the header that the files include has a name that
can be shown. -/
theorem exists_ofScreens_iff (o : ExportOptions) {screens : List Screen}
    (ht : ∀ s ∈ screens, s.IsTyped) :
    (∃ p, ofScreens o screens = .ok p) ↔ (∃ library, o.includeLine = .text library) ∧
      (screens ≠ [] → o.ShowsHeader) ∧
      ∀ s ∈ screens, ∀ w ∈ Forest.toList s.unskipped.widgets, w.IsWritten := by
  constructor
  · rintro ⟨p, hp⟩
    obtain ⟨library, ds, hline, hheader, hdrafts, hfault, -⟩ := ofScreens_eq_ok.1 hp
    exact ⟨⟨library, hline⟩, fun hne => hheader ((drafts_ne_nil_iff hdrafts).2 hne),
      (Rendering.forall_fault?_iff (Rendering.drafts_eq_ok o hdrafts).1 ht).1 hfault⟩
  · rintro ⟨⟨library, hline⟩, hheader, hwritten⟩
    obtain ⟨ds, hdrafts⟩ :=
      Rendering.exists_drafts_of_names o (fun s hs => (ht s hs).name) []
    have hfault := (Rendering.forall_fault?_iff (Rendering.drafts_eq_ok o hdrafts).1 ht).2 hwritten
    exact ⟨_, ofScreens_eq_ok.2 ⟨library, ds, hline,
      fun hne => hheader ((drafts_ne_nil_iff hdrafts).1 hne), hdrafts, hfault, rfl⟩⟩

/-- Screens of plain widgets are rendered. -/
theorem exists_ofScreens_of_named (screens : List Screen)
    (h : ∀ s ∈ screens, (∃ t, s.name = .text t) ∧
      ∀ w ∈ Forest.toList s.widgets, ∃ name, w = .named name) :
    (∀ s ∈ screens, s.IsTyped) ∧ ∃ p, ofScreens {} screens = .ok p := by
  have htyped : ∀ s ∈ screens, s.IsTyped := by
    intro s hs
    refine ⟨(h s hs).1, fun w hw => ?_⟩
    obtain ⟨name, rfl⟩ := (h s hs).2 w hw
    exact Widget.isTyped_named name
  refine ⟨htyped, (exists_ofScreens_iff {} htyped).2
    ⟨⟨_, rfl⟩, fun _ => ⟨_, rfl⟩, fun s hs w hw => ?_⟩⟩
  obtain ⟨name, rfl⟩ := (h s hs).2 w (Forest.keep_of_mem_prune _ _ hw).2
  exact Widget.isWritten_named name

/-- **Header and files agree.** Typed screens are rendered exactly if what is shown of the widgets
that are not skipped can be written, the library is included by a line, and the header that the
files include has a name that can be shown. The parts of the header and the parts of the files then
agree, and without the skipped widgets the same files are made. -/
theorem ofScreens_agrees (o : ExportOptions) {screens : List Screen}
    (ht : ∀ s ∈ screens, s.IsTyped) :
    ((∃ p, ofScreens o screens = .ok p) ↔ (∃ library, o.includeLine = .text library) ∧
      (screens ≠ [] → o.ShowsHeader) ∧
      ∀ s ∈ screens, ∀ w ∈ Forest.toList s.unskipped.widgets, w.IsWritten) ∧
    ∀ p, ofScreens o screens = .ok p →
      (∃ (library : Text) (h : Declaration) (fs : List Definition), o.includeLine = .text library ∧
        p.files = h.file o library :: fs.map (Definition.file o) ∧ h.Agrees o screens fs) ∧
      ∃ p', ofScreens o (screens.map Screen.unskipped) = .ok p' ∧ p'.files = p.files := by
  refine ⟨exists_ofScreens_iff o ht, fun p hp => ?_⟩
  obtain ⟨library, ds, hline, hheader, hdrafts, hfault, rfl⟩ := ofScreens_eq_ok.1 hp
  refine ⟨⟨library, _, _, hline, files_ofDrafts o library ds,
    Declaration.ofDefinitions_agrees o ht hdrafts hfault⟩, ?_⟩
  have hunskipped : ∀ d ∈ ds.map Rendering.Draft.unskipped, d.emissions.fault? = none := by
    rw [List.forall_mem_map]
    intro d hd
    rw [Rendering.Draft.unskipped, Emissions.fault?_unskipped]
    exact hfault d hd
  have hdefinitions : (ds.map Rendering.Draft.unskipped).map Rendering.Draft.definition =
      ds.map Rendering.Draft.definition := by
    rw [List.map_map]
    exact List.map_congr_left fun d _ => d.definition_unskipped
  refine ⟨_, ofScreens_eq_ok.2 ⟨library, _, hline, fun hne => hheader fun hnil => hne ?_,
    Rendering.drafts_unskipped o ht hdrafts, hunskipped, rfl⟩, ?_⟩
  · rw [hnil, List.map_nil]
  rw [files_ofDrafts, files_ofDrafts, hdefinitions]

/-- Two screens of one name share a variable, one repeats another, and both have skipped widgets. -/
theorem ofScreens_agrees_shared :
    let screens : List Screen :=
      [⟨.text "main", [.node (.named "page") [.node (.named "ok") [],
          .node (.named "two words") [.node (.named "lost") []]], .node (.named "ok") []]⟩,
        ⟨.text "main", [.node (.named "") [], .node (.named "ok") [.node (.named "last") []]]⟩]
    (∀ s ∈ screens, s.IsTyped) ∧
      ∃ p, ofScreens {} screens = .ok p ∧
        ∃ (library : Text) (h : Declaration) (fs : List Definition),
          p.files = h.file {} library :: fs.map (Definition.file {}) ∧ h.Agrees {} screens fs := by
  intro screens
  obtain ⟨htyped, p, hp⟩ := exists_ofScreens_of_named screens (by
    simp [screens, Forest.toList, Tree.toList])
  obtain ⟨-, hall⟩ := ofScreens_agrees {} htyped
  obtain ⟨⟨library, h, fs, -, hfiles, hagrees⟩, -⟩ := hall p hp
  exact ⟨htyped, p, hp, library, h, fs, hfiles, hagrees⟩

end Project

end LvglForest
