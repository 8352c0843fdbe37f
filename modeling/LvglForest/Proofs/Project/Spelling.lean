import LvglForest.Proofs.Code.Spelling
import LvglForest.Proofs.Project.Agreement
import LvglForest.Proofs.Project.Symbol

/-!
# What the files of a project are made of

Besides what is generated for its widgets, the file of a screen shows the symbol of the screen and
the texts of the options; the header shows nothing else but the line that includes the library. So
all files are made of certain code points exactly if these texts are (`Project.madeOf_files_iff`).
-/

namespace LvglForest

variable {P : CodePoint → Prop} (hP : HoldsOfAscii P)

/-- The texts that the options put into the file of a screen. -/
def ExportOptions.frame (o : ExportOptions) : List Text :=
  [o.headerName.display.toOption.getD [], o.functionSuffix, o.parentName]

/-- What the file of a screen shows is made of certain code points. -/
structure Screen.Spells (P : CodePoint → Prop) (o : ExportOptions) (s : Screen) : Prop where
  frame : ∀ t ∈ o.frame, t.MadeOf P
  symbol : ∀ name, s.name = .text name → (Symbol.ofName name).MadeOf P
  widgets : ∀ w ∈ Forest.toList s.unskipped.widgets, w.Spells P o.detail

section Files

variable (o : ExportOptions)
include hP

theorem Definition.madeOf_bodyLines (f : Definition) :
    (∀ line ∈ f.bodyLines, Text.MadeOf P (if line.isEmpty then [] else o.detail.indent ++ line)) ↔
      ∀ s ∈ f.body, ∀ t ∈ s.parts, t.MadeOf P := by
  have hindent : o.detail.indent.MadeOf P :=
    Text.madeOf_of_ascii hP (by cases o.detail <;> decide)
  have hnewline : P (.char '\n') := hP _ (by decide)
  have hcode : (Text.join "\n" (f.body.map Statement.text)).MadeOf P ↔
      ∀ s ∈ f.body, ∀ t ∈ s.parts, t.MadeOf P := by
    rw [Text.madeOf_join (Text.madeOf_of_ascii hP (by decide)), List.forall_mem_map]
    exact forall₂_congr fun s _ => s.madeOf_text hP
  have hline (line : Text) :
      Text.MadeOf P (if line.isEmpty then [] else o.detail.indent ++ line) ↔ line.MadeOf P := by
    cases line with
    | nil => rfl
    | cons p line => exact Text.madeOf_append.trans (and_iff_right hindent)
  simp only [hline, ← hcode]
  unfold bodyLines
  simp only
  split
  · next hempty => simp [List.isEmpty_iff.1 hempty]
  · exact Text.madeOf_splitOn hnewline

/-- The file of a screen is made of its parts. -/
theorem Definition.madeOf_file (f : Definition) : (f.file o).code.MadeOf P ↔
    (∀ t ∈ o.frame, t.MadeOf P) ∧ f.symbol.MadeOf P ∧ (∀ t ∈ f.names, t.MadeOf P) ∧
      ∀ s ∈ f.body, ∀ t ∈ s.parts, t.MadeOf P := by
  have hindent : o.detail.indent.MadeOf P :=
    Text.madeOf_of_ascii hP (by cases o.detail <;> decide)
  rw [file]
  simp only
  rw [Text.madeOf_join (Text.madeOf_of_ascii hP (by decide))]
  simp (disch := decide) only [List.forall_mem_append, List.forall_mem_cons, List.forall_mem_map,
    List.not_mem_nil, false_imp_iff, implies_true, true_and, and_true, madeOf_bodyLines hP o f,
    Rendering.Draft.includeLine, Rendering.Draft.openingLines, ExportOptions.signature,
    ExportOptions.frame, function, Text.madeOf_append, Text.madeOf_ascii_iff hP, hindent]
  tauto

/-- The header is made of the names that it declares. -/
theorem Declaration.madeOf_file (library : Text) (h : Declaration) :
    (h.file o library).code.MadeOf P ↔ library.MadeOf P ∧ (∀ t ∈ h.names, t.MadeOf P) ∧
      ∀ t ∈ h.functions, t.MadeOf P ∧ o.parentName.MadeOf P := by
  rw [file]
  simp only
  rw [Text.madeOf_join (Text.madeOf_of_ascii hP (by decide))]
  simp (disch := decide) only [List.forall_mem_append, List.forall_mem_cons, List.forall_mem_map,
    List.not_mem_nil, false_imp_iff, implies_true, true_and, and_true, ExportOptions.signature,
    Text.madeOf_append, Text.madeOf_ascii_iff hP, and_assoc]

end Files

/-! ## Symbols -/

theorem Symbol.madeOf_candidate (hP : HoldsOfAscii P) (wanted : Text) (n : Nat) :
    (candidate wanted n).MadeOf P ↔ wanted.MadeOf P := by
  cases n with
  | zero => rfl
  | succ n =>
    rw [candidate, numbered, Text.madeOf_append, Text.madeOf_append,
      and_iff_left (Text.madeOf_decimal hP.printable _),
      and_iff_left (Text.madeOf_of_ascii hP (by decide))]

/-- The symbol that a screen gets is made of what the symbol of its name is made of. -/
theorem Rendering.madeOf_symbols (hP : HoldsOfAscii P) {o : ExportOptions} {screens : List Screen}
    {used : List Text} {ds : List Draft} (h : drafts o used screens = ds.map .ok) :
    List.Forall₂ (fun s d => d.symbol.MadeOf P ↔
      ∀ name, s.name = .text name → (Symbol.ofName name).MadeOf P) screens ds := by
  induction screens generalizing used ds with
  | nil =>
    cases ds with
    | nil => exact .nil
    | cons d ds => cases h
  | cons s screens ih =>
    rw [drafts] at h
    cases ds with
    | nil => split at h <;> cases h
    | cons d ds =>
      split at h
      · next wanted hwanted =>
        rw [List.map_cons, List.cons.injEq, Except.ok.injEq] at h
        obtain ⟨rfl, h⟩ := h
        refine .cons ?_ (ih h)
        obtain ⟨-, n, hn, -⟩ := Symbol.isFirstFree_free used wanted
        show (Symbol.free used wanted).MadeOf P ↔ _
        rw [← hn, Symbol.madeOf_candidate hP]
        cases hname : s.name with
        | text name =>
          rw [hname] at hwanted
          cases hwanted
          simp
        | _ => rw [hname] at hwanted; cases hwanted
      · cases h

/-! ## Projects -/

namespace Project

variable {o : ExportOptions}

/-- **The file of a screen** is made of what the screen shows. -/
theorem madeOf_draft (hP : HoldsOfAscii P) {s : Screen} {d : Rendering.Draft} (hs : s.IsTyped)
    (hd : d.IsOf o s) (hfault : d.emissions.fault? = none)
    (hsymbol : d.symbol.MadeOf P ↔ ∀ name, s.name = .text name → (Symbol.ofName name).MadeOf P) :
    (d.definition.file o).code.MadeOf P ↔ s.Spells P o := by
  have hidentifiers : d.identifiers =
      Text.distinct ((Forest.toList s.unskipped.widgets).map Widget.name) := by
    rw [Rendering.Draft.identifiers]
    rw [hd.emissions] at hfault ⊢
    rw [Forest.identifiers_emissions o.detail (fun w hw => (hs.widgets w hw).identifier) hfault]
    rfl
  rw [hd.emissions] at hfault
  have hstatements (hparent : o.parentName.MadeOf P) : d.emissions.MadeOf P ↔
      ∀ w ∈ Forest.toList s.unskipped.widgets, w.Spells P o.detail := by
    rw [hd.emissions]
    exact Forest.madeOf_emissions_iff hP o.detail hparent [] 0 s.widgets hs.widgets hfault
  rw [Definition.madeOf_file hP]
  constructor
  · rintro ⟨hframe, hs, -, hmade⟩
    exact ⟨hframe, hsymbol.1 hs, (hstatements (hframe _ (by simp [ExportOptions.frame]))).1 hmade⟩
  · rintro ⟨hframe, hs, hwidgets⟩
    refine ⟨hframe, hsymbol.2 hs, ?_,
      (hstatements (hframe _ (by simp [ExportOptions.frame]))).2 hwidgets⟩
    intro t ht
    rw [Rendering.Draft.definition, hidentifiers, Text.mem_distinct] at ht
    obtain ⟨w, hw, rfl⟩ := List.mem_map.1 ht
    exact (hwidgets w hw).name

theorem madeOf_drafts (hP : HoldsOfAscii P) {screens : List Screen} {ds : List Rendering.Draft}
    (h : List.Forall₂ (fun s d => s.IsTyped ∧ (d.IsOf o s ∧ d.emissions.fault? = none) ∧
      (d.symbol.MadeOf P ↔ ∀ name, s.name = .text name → (Symbol.ofName name).MadeOf P))
        screens ds) :
    (∀ d ∈ ds, (d.definition.file o).code.MadeOf P) ↔ ∀ s ∈ screens, s.Spells P o := by
  induction h with
  | nil => exact ⟨fun _ _ h => absurd h List.not_mem_nil, fun _ _ h => absurd h List.not_mem_nil⟩
  | cons h _ ih =>
    obtain ⟨hs, ⟨hd, hfault⟩, hsymbol⟩ := h
    rw [List.forall_mem_cons, List.forall_mem_cons, ih, madeOf_draft hP hs hd hfault hsymbol]

/-- **The files of a project** are made of what the options and the screens show. -/
theorem madeOf_files_iff (hP : HoldsOfAscii P) {screens : List Screen} {p : Project}
    (ht : ∀ s ∈ screens, s.IsTyped) (hp : ofScreens o screens = .ok p) :
    (∀ f ∈ p.files, f.code.MadeOf P) ↔
      (∀ library, o.includeLine = .text library → library.MadeOf P) ∧
        ∀ s ∈ screens, s.Spells P o := by
  obtain ⟨library, ds, hline, -, hdrafts, hfault, rfl⟩ := ofScreens_eq_ok.1 hp
  have hof := Rendering.forall₂_isOf (Rendering.drafts_eq_ok o hdrafts).1 hfault
  have hscreens := madeOf_drafts hP ((List.forall₂_and_left _ _).2
    ⟨ht, hof.mp (fun _ _ h h' => ⟨h, h'⟩) (Rendering.madeOf_symbols hP hdrafts)⟩)
  rw [files_ofDrafts, List.forall_mem_cons, List.forall_mem_map, List.forall_mem_map, hscreens,
    hline, Declaration.madeOf_file hP]
  constructor
  · rintro ⟨⟨hlibrary, -⟩, hspells⟩
    exact ⟨fun _ h => by cases h; exact hlibrary, hspells⟩
  · rintro ⟨hlibrary, hspells⟩
    refine ⟨⟨hlibrary library rfl, ?_, ?_⟩, hspells⟩
    -- What the header declares is shown by the files of the screens.
    · intro t ht
      rw [Declaration.ofDefinitions, Text.mem_distinct] at ht
      obtain ⟨f, hf, ht⟩ := List.mem_flatMap.1 ht
      obtain ⟨d, hd, rfl⟩ := List.mem_map.1 hf
      obtain ⟨-, -, hnames, -⟩ := (Definition.madeOf_file hP o _).1 (hscreens.2 hspells d hd)
      exact hnames t ht
    · intro t ht
      obtain ⟨f, hf, rfl⟩ := List.mem_map.1 ht
      obtain ⟨d, hd, rfl⟩ := List.mem_map.1 hf
      obtain ⟨hframe, hsymbol, -⟩ := (Definition.madeOf_file hP o _).1 (hscreens.2 hspells d hd)
      simp only [ExportOptions.frame, List.forall_mem_cons] at hframe
      exact ⟨Text.madeOf_append.2 ⟨hsymbol, hframe.2.1⟩, hframe.2.2.1⟩

end Project

end LvglForest
