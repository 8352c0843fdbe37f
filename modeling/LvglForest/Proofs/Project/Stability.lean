import LvglForest.Proofs.Project.Export
import LvglForest.Proofs.Project.Name
import LvglForest.Proofs.Project.Reexport
import Mathlib.Data.Set.List
import Mathlib.Logic.Relation

/-!
# Stable names

A symbol is a word that does not start with a digit, and it is its own symbol
(`Symbol.ofName_eq_self_iff`). The numbered forms are symbols as well, and the file of a symbol has it
for its stem (`Path.stem_fileName`). So a file of a project that is read under its own name becomes a
screen of the same symbol, and alone nothing keeps this symbol from it: whatever stands in the files,
their names and those of their functions stay the same in all rounds (`Project.ofScreens_stable`).
-/

namespace LvglForest

/-! ## Symbols of symbols -/

namespace Symbol

/-- What is made of a name: a word that does not start with a digit. -/
structure IsSymbol (t : Text) : Prop where
  isWord : t.IsWord
  head : ∀ p ∈ t.head?, p.isDigit = false

theorem isSymbol_ofName (name : Text) : IsSymbol (ofName name) := by
  refine ⟨isWord_ofName name, ?_⟩
  unfold ofName
  split
  · decide
  · next p t _ =>
    have hunderscore : (CodePoint.char '_').isDigit = false := by decide
    split
    · simpa using hunderscore
    · next hdigit => simpa using hdigit

/-- **Symbols** are the names that stay as they are. -/
theorem ofName_eq_self_iff {t : Text} : ofName t = t ↔ IsSymbol t := by
  refine ⟨fun h => h ▸ isSymbol_ofName t, fun h => ?_⟩
  have hmap : (t.map fun p => if p.isWord then p else .char '_') = t :=
    (List.map_congr_left fun p hp => if_pos (h.isWord.all p hp)).trans (List.map_id t)
  obtain ⟨p, u, rfl⟩ := List.exists_cons_of_ne_nil h.isWord.ne_nil
  have hdigit : p.isDigit = false := h.head p rfl
  rw [ofName, Text.strip_eq_self h.isWord.isTrimmed, hmap]
  simp [hdigit]

theorem IsSymbol.candidate {wanted : Text} (h : IsSymbol wanted) (n : Nat) :
    IsSymbol (candidate wanted n) := by
  refine ⟨isWord_candidate h.isWord n, ?_⟩
  obtain ⟨p, t, rfl⟩ := List.exists_cons_of_ne_nil h.isWord.ne_nil
  cases n <;> exact h.head

theorem Assigned.isSymbol {used names symbols : List Text} (h : Assigned used names symbols) :
    ∀ symbol ∈ symbols, IsSymbol symbol := by
  induction h with
  | nil => exact fun _ hs => absurd hs List.not_mem_nil
  | cons first _ ih =>
    obtain ⟨-, n, rfl, -⟩ := first
    exact List.forall_mem_cons.2 ⟨(isSymbol_ofName _).candidate n, ih⟩

/-- A symbol that stands alone is kept. -/
theorem Assigned.eq_singleton {symbol : Text} (h : IsSymbol symbol) {symbols : List Text}
    (hassigned : Assigned [] [symbol] symbols) : symbols = [symbol] := by
  cases hassigned with
  | cons first rest =>
    cases rest
    obtain ⟨-, n, rfl, hbefore⟩ := first
    cases n with
    | zero => rw [candidate, ofName_eq_self_iff.2 h]
    | succ n => exact absurd (hbefore 0 n.succ_pos) List.not_mem_nil

end Symbol

/-! ## Stems -/

namespace Path

/-- **The stem** of the file of a symbol is the symbol. -/
theorem stem_fileName {symbol : Text} (h : symbol.IsWord) :
    (ofText (Symbol.fileName symbol)).stem = symbol := by
  have hne : symbol.isEmpty = false := by simpa using h.ne_nil
  have hname : (ofText (Symbol.fileName symbol)).name = symbol ++ .char '.' :: ("cpp" : Text) := by
    rw [Export.ofText_fileName h]
    rfl
  have hsuffix : ¬ (CodePoint.char '.' :: ("cpp" : Text)).length ≤ 1 := by decide
  rw [stem, hname, splitLastDot_append (by decide)]
  simp only [hne, Bool.false_eq_true, hsuffix, or_self, if_false]

end Path

/-! ## Rounds -/

/-- The file of a screen is read under its own name and rendered alone, which gives the file of
another screen. -/
def Definition.IsRound (o : ExportOptions) (placeholders : List Text) (f g : Definition) : Prop :=
  ∃ parsed project library h,
    ParsedFile.parse (.texts placeholders) (f.file o).name (f.file o).code = .ok parsed ∧
      Project.ofSubject o (.parsed parsed) = .ok project ∧
      project.files = [Declaration.file o library h, g.file o] ∧ h.functions = [g.function o]

/-- A parsed file with the name of a symbol's file is a screen with the symbol for its name. -/
theorem Subject.screens_parsed_fileName (o : ExportOptions) {p : ParsedFile} {symbol : Text}
    (hsymbol : symbol.IsWord) (h : p.fileName = .text (Symbol.fileName symbol)) :
    (Subject.parsed p).screens o = .ok [⟨.text symbol, p.widgets⟩] := by
  have hne : symbol.isEmpty = false := by simpa using hsymbol.ne_nil
  have hscreen : p.toScreen = .ok ⟨.text symbol, p.widgets⟩ := by
    rw [ParsedFile.toScreen, ParsedFile.path, h]
    simp only [Except.map, Path.stem_fileName hsymbol, hne, Bool.false_eq_true, if_false]
  unfold Subject.screens
  simp only [Subject.sortOut, hscreen]
  rfl

namespace Project

/-- Screens that are rendered have names, and the files have the symbols that these get. -/
theorem exists_definitions {o : ExportOptions} {screens : List Screen} {p : Project}
    (hp : ofScreens o screens = .ok p) :
    ∃ library names fs, o.includeLine = .text library ∧ (fs ≠ [] → o.ShowsHeader) ∧
      screens.map Screen.name = names.map Value.text ∧
      p.files = (Declaration.ofDefinitions o fs).file o library :: fs.map (Definition.file o) ∧
      Symbol.Assigned [] names (fs.map Definition.symbol) := by
  obtain ⟨library, ds, hline, hheader, hdrafts, -, rfl⟩ := ofScreens_eq_ok.1 hp
  have hnamed : screens.map Screen.name ∈ Set.range (List.map Value.text) := by
    rw [Set.range_list_map]
    intro v hv
    obtain ⟨s, hs, rfl⟩ := List.mem_map.1 hv
    obtain ⟨name, hname⟩ := Rendering.name_of_drafts hdrafts s hs
    exact ⟨name, hname.symm⟩
  obtain ⟨names, hnames⟩ := hnamed
  refine ⟨library, names, _, hline, fun hne => hheader (mt (fun hnil => by rw [hnil]; rfl) hne),
    hnames.symm, files_ofDrafts o library ds, ?_⟩
  rw [Rendering.symbols_ofDrafts]
  exact Rendering.assigned_drafts o hnames.symm hdrafts

/-- Read under the name of a symbol's file, a source is rendered under the symbol. -/
theorem exists_definition_parsed {o : ExportOptions} {parsed : ParsedFile} {project : Project}
    {symbol : Text} (hsymbol : Symbol.IsSymbol symbol)
    (hname : parsed.fileName = .text (Symbol.fileName symbol))
    (hproject : ofSubject o (.parsed parsed) = .ok project) :
    ∃ library g, project.files = [(Declaration.ofDefinitions o [g]).file o library, g.file o] ∧
      g.symbol = symbol := by
  rw [ofSubject, Subject.screens_parsed_fileName o hsymbol.isWord hname] at hproject
  obtain ⟨library, names, fs, -, -, hnames, hfiles, hassigned⟩ := exists_definitions hproject
  obtain ⟨name, rfl, hsame⟩ := List.map_eq_singleton_iff.1 hnames.symm
  cases Value.text.inj hsame
  obtain ⟨g, rfl, hg⟩ := List.map_eq_singleton_iff.1 (hassigned.eq_singleton hsymbol)
  exact ⟨library, g, hfiles, hg⟩

variable {o : ExportOptions} {placeholders : List Text} {f g : Definition}

/-- **One round** keeps the symbol, whatever stands in the file. -/
theorem symbol_of_isRound (hf : Symbol.IsSymbol f.symbol) (h : f.IsRound o placeholders g) :
    g.symbol = f.symbol := by
  obtain ⟨parsed, project, library, header, hparsed, hproject, hfiles, -⟩ := h
  rw [ParsedFile.parse_texts, Except.ok.injEq] at hparsed
  obtain ⟨library', g', hfiles', hsymbol⟩ :=
    exists_definition_parsed hf (by rw [← hparsed]; rfl) hproject
  rw [hfiles', List.cons.injEq, List.cons.injEq] at hfiles
  have hnames := congrArg GeneratedFile.name hfiles.2.1
  rw [← hsymbol]
  exact (Symbol.fileName_injective (Value.text.inj hnames)).symm

/-- **Any number of rounds** keeps it. -/
theorem symbol_of_rounds (hf : Symbol.IsSymbol f.symbol)
    (h : Relation.ReflTransGen (Definition.IsRound o placeholders) f g) : g.symbol = f.symbol := by
  induction h with
  | refl => rfl
  | tail _ hround ih => rw [symbol_of_isRound (ih.symm ▸ hf) hround, ih]

/-- After every file of a symbol there is a next round. -/
theorem exists_isRound {library : Text} (hline : o.includeLine = .text library)
    (hheader : o.ShowsHeader) (hf : Symbol.IsSymbol f.symbol) :
    ∃ g, f.IsRound o placeholders g := by
  obtain ⟨project, _, hexported⟩ := ParsedFile.exists_isExported hline hheader rfl fun w hw =>
    ParsedFile.isSourced_of_mem_widgets (.texts placeholders) (f.file o).name (f.file o).code
      (w := w) hw
  obtain ⟨library', g, hfiles, -⟩ := exists_definition_parsed hf rfl hexported.rendered
  exact ⟨g, _, project, library', _, ParsedFile.parse_texts _ _ placeholders, hexported.rendered,
    hfiles, rfl⟩

/-- **Names are stable.** A symbol is its own symbol, and the stem of its file. Whatever the names of
screens are, in any number of rounds each file of their project keeps its name and the name of its
function, and there is always a next round. -/
theorem ofScreens_stable (o : ExportOptions) (placeholders : List Text) :
    (∀ name, Symbol.ofName (Symbol.ofName name) = Symbol.ofName name ∧
      (Path.ofText (Symbol.fileName (Symbol.ofName name))).stem = Symbol.ofName name) ∧
    ∀ screens p, ofScreens o screens = .ok p →
      ∃ (library : Text) (h : Declaration) (fs : List Definition),
        p.files = h.file o library :: fs.map (Definition.file o) ∧
        h.functions = fs.map (Definition.function o) ∧
        ∀ f ∈ fs, ∀ g, Relation.ReflTransGen (Definition.IsRound o placeholders) f g →
          (g.file o).name = (f.file o).name ∧ g.function o = f.function o ∧
          ∃ next, g.IsRound o placeholders next := by
  refine ⟨fun name => ?_, fun screens p hp => ?_⟩
  · have hsymbol := Symbol.isSymbol_ofName name
    exact ⟨Symbol.ofName_eq_self_iff.2 hsymbol, Path.stem_fileName hsymbol.isWord⟩
  · obtain ⟨library, names, fs, hline, hheader, -, hfiles, hassigned⟩ := exists_definitions hp
    refine ⟨library, _, fs, hfiles, rfl, fun f hf g hrounds => ?_⟩
    have hsymbol := hassigned.isSymbol f.symbol (List.mem_map_of_mem hf)
    have hsame := symbol_of_rounds hsymbol hrounds
    have hnext : ∃ next, g.IsRound o placeholders next :=
      exists_isRound hline (hheader (List.ne_nil_of_mem hf)) (hsame.symm ▸ hsymbol)
    refine ⟨?_, ?_, hnext⟩
    · rw [Definition.file, Definition.file, hsame]
    · rw [Definition.function, Definition.function, hsame]

/-- Two screens of one name that starts with a digit, a name that starts with a fraction, and a name
of nothing. -/
theorem ofScreens_stable_numbered :
    let screens : List Screen := [⟨.text "2nd", [.node (.named "panel") []]⟩, ⟨.text " 2nd ", []⟩,
      ⟨.text "½ a.b", []⟩, ⟨.text "", []⟩]
    ∃ p, ofScreens {} screens = .ok p ∧
      p.files.map GeneratedFile.name =
        [.text "ui.h", .text "_2nd.cpp", .text "_2nd_2.cpp", .text "½_a_b.cpp",
          .text "screen.cpp"] ∧
      ∃ (library : Text) (h : Declaration) (fs : List Definition),
        p.files = h.file {} library :: fs.map (Definition.file {}) ∧
        ∀ f ∈ fs, ∃ g, f.IsRound {} ["parent"] g ∧
          (g.file {}).name = (f.file {}).name ∧ g.function {} = f.function {} := by
  intro screens
  obtain ⟨p, hp⟩ : ∃ p, ofScreens {} screens = .ok p := ⟨_, rfl⟩
  obtain ⟨library, h, fs, hfiles, -, hstable⟩ := (ofScreens_stable {} ["parent"]).2 screens p hp
  refine ⟨p, hp, ?_, library, h, fs, hfiles, fun f hf => ?_⟩
  · cases hp
    rfl
  · obtain ⟨-, -, next, hnext⟩ := hstable f hf f .refl
    obtain ⟨hname, hfunction, -⟩ := hstable f hf next (.single hnext)
    exact ⟨next, hnext, hname, hfunction⟩

end Project

end LvglForest
