import LvglForest.Proofs.Project.Agreement
import LvglForest.Proofs.Project.Symbol

/-!
# Names in the files of a project

A symbol is a word, but only some words are names in source. The symbol of a screen, and with it the
name of its function, is an identifier exactly if the screen's name starts plainly
(`Project.ofScreens_symbols`): a digit at the start gets an underscore before it, a letter or a
number of another kind does not.

The header declares the variables of the widgets and the functions of the screens. Each of the two
lists is without repetitions, but nothing keeps them apart. They are distinct exactly if no widget
is named like a function (`Project.ofScreens_nodup_iff`).
-/

namespace LvglForest

/-! ## Symbols as identifiers -/

namespace Symbol

/-- A name that starts, blanks apart, with an ASCII letter, an underscore, a digit of any script, or
with something that belongs to no word. The name of nothing but blanks does, too. -/
def StartsPlainly (name : Text) : Prop :=
  ∀ p ∈ name.strip.head?, p.isWord = true → p.startsIdentifier = true ∨ p.isDigit = true

instance (name : Text) : Decidable (StartsPlainly name) :=
  inferInstanceAs (Decidable (∀ p ∈ name.strip.head?, _ → _ ∨ _))

/-- **The symbol of a name** is an identifier exactly if the name starts plainly. -/
theorem isIdentifier_ofName_iff (name : Text) :
    (ofName name).isIdentifier = true ↔ StartsPlainly name := by
  rw [Text.isIdentifier_iff_head? (isWord_ofName name), StartsPlainly, ofName]
  cases name.strip with
  | nil => exact iff_of_true (by decide) fun p hp => nomatch hp
  | cons q t =>
    have hunderscore : (CodePoint.char '_').startsIdentifier = true := rfl
    have hplain : (CodePoint.char '_').isDigit = false := by decide
    simp only [List.map_cons, List.head?_cons, Option.mem_def, Option.some.injEq, forall_eq']
    by_cases hword : q.isWord = true
    · by_cases hdigit : q.isDigit = true
      · simp [hword, hdigit, hunderscore]
      · simp [hword, hdigit]
    · simp [hword, hplain, hunderscore]

/-- The number of a symbol does not count to whether it is an identifier. -/
theorem isIdentifier_candidate {wanted : Text} (h : wanted.IsWord) (n : Nat) :
    (candidate wanted n).isIdentifier = wanted.isIdentifier := by
  cases n with
  | zero => rfl
  | succ n =>
    have hunderscore : ∀ p ∈ ("_" : Text), p.isWord = true := by decide
    rw [candidate, numbered, List.append_assoc]
    refine Text.isIdentifier_append h fun p hp => ?_
    rcases List.mem_append.1 hp with hp | hp
    · exact hunderscore p hp
    · exact (Decimal.isWord_ofNat _).all p hp

/-- The symbols that names get are words, and identifiers where the names start plainly. -/
theorem Assigned.isIdentifier_iff {used names symbols : List Text}
    (h : Assigned used names symbols) :
    List.Forall₂ (fun name symbol => symbol.IsWord ∧
      (symbol.isIdentifier = true ↔ StartsPlainly name)) names symbols := by
  induction h with
  | nil => exact .nil
  | @cons used names symbols name symbol first _ ih =>
    obtain ⟨-, n, rfl, -⟩ := first
    have hword := isWord_ofName name
    refine .cons ⟨isWord_candidate hword n, ?_⟩ ih
    rw [isIdentifier_candidate hword, isIdentifier_ofName_iff]

end Symbol

/-! ## The names of a header -/

/-- No name in a header stands for two things if no variable is named like a function. -/
theorem Declaration.nodup_iff {h : Declaration} (hnames : h.names.Nodup)
    (hfunctions : h.functions.Nodup) :
    (h.names ++ h.functions).Nodup ↔ ∀ id ∈ h.names, id ∉ h.functions := by
  rw [List.nodup_append, and_iff_right hnames, and_iff_right hfunctions]
  constructor
  · intro hne id hid hfunction
    exact hne id hid id hfunction rfl
  · rintro hnot id hid _ hfunction rfl
    exact hnot id hid hfunction

namespace Rendering

theorem mem_names_ofDrafts {o : ExportOptions} {ds : List Draft} {id : Text} :
    id ∈ (Declaration.ofDefinitions o (ds.map Draft.definition)).names ↔
      id ∈ ds.flatMap fun d => d.emissions.identifiers := by
  simp only [Declaration.ofDefinitions, Text.mem_distinct, List.flatMap_map, List.mem_flatMap,
    Draft.definition, Draft.identifiers]

theorem symbols_ofDrafts (ds : List Draft) :
    (ds.map Draft.definition).map Definition.symbol = ds.map Draft.symbol := by
  rw [List.map_map]
  rfl

theorem functions_ofDrafts (o : ExportOptions) (ds : List Draft) :
    (Declaration.ofDefinitions o (ds.map Draft.definition)).functions =
      (ds.map Draft.symbol).map (· ++ o.functionSuffix) := by
  rw [Declaration.ofDefinitions, List.map_map, List.map_map]
  rfl

/-- The variables of all drafts are those of the widgets that are not skipped on any screen. -/
theorem flatMap_identifiers {screens : List Screen} {ds : List Draft}
    (h : List.Forall₂ (fun s d => d.emissions.identifiers =
      (Forest.toList s.unskipped.widgets).map Widget.name) screens ds) :
    (ds.flatMap fun d => d.emissions.identifiers) =
      screens.flatMap fun s => (Forest.toList s.unskipped.widgets).map Widget.name := by
  induction h with
  | nil => rfl
  | cons hd _ ih => rw [List.flatMap_cons, List.flatMap_cons, hd, ih]

end Rendering

namespace Project

variable {o : ExportOptions} {screens : List Screen} {names : List Text}
  (hnames : screens.map Screen.name = names.map Value.text)
include hnames

/-- **Symbols as names in source.** Screens that have texts for names get symbols, one after the
other, whatever else they hold. With a suffix of word characters both the symbol and the function
of a screen are words, and they are legal names exactly if the name of the screen starts plainly.
The files of the screens and the functions in the header have these names. -/
theorem ofScreens_symbols (hsuffix : ∀ p ∈ o.functionSuffix, p.isWord = true) :
    ∃ symbols, Symbol.Assigned [] names symbols ∧
      List.Forall₂ (fun name symbol =>
        ∀ t ∈ [symbol, symbol ++ o.functionSuffix], t.IsWord ∧
          (t.isIdentifierLine = true ↔ Symbol.StartsPlainly name) ∧
          (t.isIdentifier = true ↔ Symbol.StartsPlainly name)) names symbols ∧
      ∀ p, ofScreens o screens = .ok p →
        ∃ (library : Text) (h : Declaration) (fs : List Definition),
          p.files = h.file o library :: fs.map (Definition.file o) ∧
          fs.map Definition.symbol = symbols ∧
          h.functions = symbols.map (· ++ o.functionSuffix) := by
  have htexts : ∀ s ∈ screens, ∃ t, s.name = .text t := by
    intro s hs
    have hname : s.name ∈ names.map Value.text := hnames ▸ List.mem_map_of_mem hs
    obtain ⟨t, -, ht⟩ := List.mem_map.1 hname
    exact ⟨t, ht.symm⟩
  obtain ⟨ds, hdrafts⟩ := Rendering.exists_drafts_of_names o htexts []
  have hassigned := Rendering.assigned_drafts o hnames hdrafts
  refine ⟨ds.map Rendering.Draft.symbol, hassigned, ?_, fun p hp => ?_⟩
  · refine hassigned.isIdentifier_iff.imp fun name symbol ⟨hword, hiff⟩ => ?_
    have hfunction : (symbol ++ o.functionSuffix).IsWord := by
      refine ⟨by simp [hword.ne_nil], fun p hp => ?_⟩
      exact (List.mem_append.1 hp).elim (hword.all p) (hsuffix p)
    rw [List.forall_mem_cons, List.forall_mem_singleton, Text.isIdentifierLine_of_isWord hword,
      Text.isIdentifierLine_of_isWord hfunction, Text.isIdentifier_append hword hsuffix]
    exact ⟨⟨hword, hiff, hiff⟩, hfunction, hiff, hiff⟩
  · obtain ⟨library, ds', -, -, hdrafts', -, rfl⟩ := ofScreens_eq_ok.1 hp
    have hsame : ds' = ds :=
      List.map_injective_iff.2 (fun _ _ => Except.ok.inj) (hdrafts'.symm.trans hdrafts)
    subst hsame
    exact ⟨library, _, _, files_ofDrafts o library ds', Rendering.symbols_ofDrafts ds',
      Rendering.functions_ofDrafts o ds'⟩

omit hnames in
/-- A fraction at the start of a name is no letter, and no underscore is put before it; before a
digit there is one. -/
theorem ofScreens_symbols_mixed :
    let names : List Text := ["home page", "½ page", "2nd", "½ page"]
    let screens : List Screen := names.map fun name => ⟨.text name, []⟩
    screens.map Screen.name = names.map Value.text ∧
      (∀ p ∈ ({} : ExportOptions).functionSuffix, p.isWord = true) ∧
      ∃ symbols, Symbol.Assigned [] names symbols ∧
        symbols.map Text.isIdentifierLine = [true, false, true, false] := by
  intro names screens
  have hnames : screens.map Screen.name = names.map Value.text := rfl
  have hsuffix : ∀ p ∈ ({} : ExportOptions).functionSuffix, p.isWord = true := by decide
  obtain ⟨symbols, hassigned, hlegal, -⟩ := ofScreens_symbols hnames hsuffix
  refine ⟨hnames, hsuffix, symbols, hassigned, ?_⟩
  have hplain : names.map (fun name => decide (Symbol.StartsPlainly name)) =
      [true, false, true, false] := by
    decide
  have hsame : List.Forall₂ (· = ·) (symbols.map Text.isIdentifierLine)
      (names.map fun name => decide (Symbol.StartsPlainly name)) := by
    rw [List.forall₂_map_left_iff, List.forall₂_map_right_iff]
    refine hlegal.flip.imp fun symbol name h => ?_
    have hiff := (h symbol List.mem_cons_self).2.1
    rw [Bool.eq_iff_iff, hiff, decide_eq_true_iff]
  rw [List.forall₂_eq_eq_eq] at hsame
  exact hsame.trans hplain

omit hnames in
/-- A screen whose name starts with a fraction gets a function that has no name in source. -/
theorem ofScreens_symbols_fraction :
    ∃ p, ofScreens {} [⟨.text "½ page", []⟩] = .ok p ∧
      p.files.map GeneratedFile.name = [.text "ui.h", .text "½_page.cpp"] ∧
      (∃ f ∈ p.files, ("void ½_page_create(lv_obj_t * parent);" : Text) ∈ Text.lines f.code) ∧
      Text.isIdentifierLine "½_page" = false ∧ Text.isIdentifierLine "½_page_create" = false := by
  repeat rw [Text.ofString_ofList]
  refine ⟨_, rfl, ?_, ⟨_, List.mem_cons_self, ?_⟩, ?_, ?_⟩
  · rfl
  · decide +kernel
  · decide
  · decide

/-- **Names in the header.** The header of screens whose widgets are named by texts declares a
variable for each name that is not skipped and a function for each symbol, and repeats none of them.
All names in it are distinct exactly if no widget is named like a function, for which it is enough
that no name of a widget ends in the suffix of the functions. -/
theorem ofScreens_nodup_iff
    (ht : ∀ s ∈ screens, ∀ w ∈ Forest.toList s.widgets, w.identifier = .text w.name) {p : Project}
    (hp : ofScreens o screens = .ok p) :
    ∃ (library : Text) (h : Declaration) (fs : List Definition),
      p.files = h.file o library :: fs.map (Definition.file o) ∧
      Symbol.Assigned [] names (fs.map Definition.symbol) ∧
      h.functions = fs.map (Definition.function o) ∧
      (∀ id, id ∈ h.names ↔
        ∃ s ∈ screens, ∃ w ∈ Forest.toList s.unskipped.widgets, w.name = id) ∧
      h.names.Nodup ∧ h.functions.Nodup ∧
      ((h.names ++ h.functions).Nodup ↔
        ∀ s ∈ screens, ∀ w ∈ Forest.toList s.unskipped.widgets, w.name ∉ h.functions) ∧
      ((∀ s ∈ screens, ∀ w ∈ Forest.toList s.unskipped.widgets, ¬ o.functionSuffix <:+ w.name) →
        (h.names ++ h.functions).Nodup) := by
  obtain ⟨library, ds, -, -, hdrafts, hfault, rfl⟩ := ofScreens_eq_ok.1 hp
  have hassigned := Rendering.assigned_drafts o hnames hdrafts
  have hcreated := Rendering.flatMap_identifiers
    (Rendering.forall₂_identifiers (Rendering.drafts_eq_ok o hdrafts).1 ht hfault)
  have hmem : ∀ id, id ∈ (Declaration.ofDefinitions o (ds.map Rendering.Draft.definition)).names ↔
      ∃ s ∈ screens, ∃ w ∈ Forest.toList s.unskipped.widgets, w.name = id := by
    intro id
    rw [Rendering.mem_names_ofDrafts, hcreated]
    simp only [List.mem_flatMap, List.mem_map]
  have hvariables : (Declaration.ofDefinitions o (ds.map Rendering.Draft.definition)).names.Nodup :=
    Text.nodup_distinct _
  have hnodup :
      (Declaration.ofDefinitions o (ds.map Rendering.Draft.definition)).functions.Nodup := by
    rw [Rendering.functions_ofDrafts]
    exact hassigned.nodup.map (List.append_left_injective _)
  have hfiles := files_ofDrafts o library ds
  have hfunctions : (Declaration.ofDefinitions o (ds.map Rendering.Draft.definition)).functions =
      (ds.map Rendering.Draft.definition).map (Definition.function o) := rfl
  generalize Declaration.ofDefinitions o (ds.map Rendering.Draft.definition) = h at *
  have hiff : (h.names ++ h.functions).Nodup ↔
      ∀ s ∈ screens, ∀ w ∈ Forest.toList s.unskipped.widgets, w.name ∉ h.functions := by
    rw [Declaration.nodup_iff hvariables hnodup]
    constructor
    · intro hnot s hs w hw
      exact hnot w.name ((hmem w.name).2 ⟨s, hs, w, hw, rfl⟩)
    · intro hnot id hid
      obtain ⟨s, hs, w, hw, rfl⟩ := (hmem id).1 hid
      exact hnot s hs w hw
  rw [← Rendering.symbols_ofDrafts] at hassigned
  refine ⟨library, h, _, hfiles, hassigned, hfunctions, hmem, hvariables, hnodup, hiff,
    fun hsuffix => hiff.2 ?_⟩
  intro s hs w hw hfunction
  rw [hfunctions] at hfunction
  obtain ⟨f, -, hf⟩ := List.mem_map.1 hfunction
  exact hsuffix s hs w hw ⟨f.symbol, hf⟩

omit hnames in
/-- Two screens of one name share a variable with the suffix of the functions in its midst. -/
theorem ofScreens_nodup_iff_shared :
    let screens : List Screen :=
      [⟨.text "main", [.node (.named "page") [.node (.named "x_create_y") []]]⟩,
        ⟨.text "main", [.node (.named "x_create_y") [], .node (.named "two words") []]⟩]
    screens.map Screen.name = [("main" : Text), "main"].map Value.text ∧
      (∀ s ∈ screens, ∀ w ∈ Forest.toList s.widgets, w.identifier = .text w.name) ∧
      ∃ p, ofScreens {} screens = .ok p ∧
        ∃ (library : Text) (h : Declaration) (fs : List Definition),
          p.files = h.file {} library :: fs.map (Definition.file {}) ∧
          (h.names ++ h.functions).Nodup := by
  intro screens
  obtain ⟨htyped, p, hp⟩ := exists_ofScreens_of_named screens (by
    simp [screens, Forest.toList, Tree.toList])
  have ht : ∀ s ∈ screens, ∀ w ∈ Forest.toList s.widgets, w.identifier = .text w.name :=
    fun s hs w hw => ((htyped s hs).widgets w hw).identifier
  have hnames : screens.map Screen.name = [("main" : Text), "main"].map Value.text := rfl
  obtain ⟨library, h, fs, hfiles, -, -, -, -, -, -, hsuffix⟩ := ofScreens_nodup_iff hnames ht hp
  refine ⟨hnames, ht, p, hp, library, h, fs, hfiles, hsuffix ?_⟩
  decide

omit hnames in
/-- A widget can be named like the function of its screen. -/
theorem ofScreens_nodup_iff_clash :
    let screens : List Screen := [⟨.text "main", [.node (.named "main_create") []]⟩]
    (∀ s ∈ screens, ∀ w ∈ Forest.toList s.widgets, w.name.isIdentifier = true) ∧
      ∃ p, ofScreens {} screens = .ok p ∧
        ∃ f ∈ p.files, f.name = .text "ui.h" ∧
          ("extern lv_obj_t * main_create;" : Text) ∈ Text.lines f.code ∧
          ("void main_create(lv_obj_t * parent);" : Text) ∈ Text.lines f.code := by
  repeat rw [Text.ofString_ofList]
  intro screens
  refine ⟨by decide, _, rfl, _, List.mem_cons_self, rfl, ?_, ?_⟩
  · decide +kernel
  · decide +kernel

end Project

end LvglForest
