import LvglForest.Proofs.Code.Emission
import LvglForest.Value.Read

/-!
# Skipped widgets are isolated

A widget without a legal name is skipped with everything below it, and nothing else changes: what is
generated is what is generated for the forest pruned of such widgets, and each of them that stands
only below legal names is reported once, by a path that leads to it
(`Generation.ofSubject_isolated`). The path is a text, and its numbers can be read off it
(`pathNumbers_pathText`).
-/

namespace LvglForest

/-! ## Paths as texts -/

/-- The child numbers that a path below a name writes. -/
def pathNumbers (root path : Text) : List Nat :=
  ((Text.splitOn (.char '/') (path.drop root.length)).drop 1).map Value.digitsValue

theorem digitsValue_ofNat (n : Nat) : Value.digitsValue (Decimal.ofNat n) = n := by
  have hdigits : (Decimal.ofNat n).map (fun p => p.value - 0x30) =
      (Nat.toDigits 10 n).map fun c => c.toNat - 48 := by
    rw [Decimal.ofNat, List.map_map]
    rfl
  rw [Value.digitsValue, hdigits, Decimal.ofDigits_toDigits]

/-- A slash stands before every number, and none within. -/
theorem splitOn_slashes {t : Text} (ht : .char '/' ∉ t) (path : List Nat) :
    Text.splitOn (.char '/') (t ++ path.flatMap fun n => .char '/' :: Decimal.ofNat n) =
      t :: path.map Decimal.ofNat := by
  induction path generalizing t with
  | nil => rw [List.flatMap_nil, List.append_nil, Text.splitOn_of_not_mem ht, List.map_nil]
  | cons n path ih =>
    have hn : .char '/' ∉ Decimal.ofNat n := (Decimal.isWord_ofNat n).not_mem rfl
    rw [List.flatMap_cons, List.cons_append, Text.splitOn_append_sep ht, ih hn, List.map_cons]

/-- **The numbers of a path can be read off its text.** -/
theorem pathNumbers_pathText (root : Text) (path : List Nat) :
    pathNumbers root (pathText root path) = path := by
  have hsplit := splitOn_slashes (t := []) List.not_mem_nil path
  rw [List.nil_append] at hsplit
  rw [pathNumbers, pathText, List.drop_left, hsplit, List.drop_one, List.tail_cons, List.map_map]
  exact List.map_id'' digitsValue_ofNat path

/-! ## Subjects that hold widgets -/

/-- The subjects that source is generated from, with the name that paths start with and the
widgets. -/
inductive Subject.Holds : Subject → Text → Forest Widget → Prop
  | screen (name : Text) (ts : Forest Widget) : Holds (.screen ⟨.text name, ts⟩) name ts
  | list (ts : Forest Widget) : Holds (.list (ts.map .widget)) [] ts
  | widget (t : Tree Widget) : Holds (.widget t) [] [t]

namespace Generation

variable (d : Detail) (parent : Text)

theorem ofWidgets_map (index : Nat) (ts : Forest Widget) :
    ofWidgets d parent index (ts.map .widget) = Forest.emissions d parent [] index ts := by
  induction ts generalizing index with
  | nil => rfl
  | cons t ts ih =>
    rw [List.map_cons, ofWidgets, Forest.emissions, ih]
    rfl

/-- All subjects that hold the same widgets are generated alike, the name in the reports apart. -/
theorem ofSubject_of_holds {s : Subject} {root : Text} {ts : Forest Widget}
    (h : s.Holds root ts) : ∃ g, ofSubject d parent s = .ok g ∧
      g.emissions = Forest.emissions d parent [] 0 ts ∧
      g.emissions.issues g.root = g.emissions.issues root := by
  cases h with
  | screen name ts =>
    cases ts with
    | nil => exact ⟨⟨[], []⟩, rfl, rfl, rfl⟩
    | cons t ts => exact ⟨⟨root, Forest.emissions d parent [] 0 (t :: ts)⟩, rfl, rfl, rfl⟩
  | list ts =>
    exact ⟨⟨[], ofWidgets d parent 0 (ts.map .widget)⟩, rfl, ofWidgets_map d parent 0 ts, rfl⟩
  | widget t =>
    exact ⟨⟨[], Tree.emissions d parent [0] t⟩, rfl,
      (Forest.emissions_singleton d parent [] 0 t).symm, rfl⟩

end Generation

/-! ## Isolation -/

/-- A report on a node of a forest: it gives the reason why the widget is skipped, and the numbers
of its path lead from the roots to this very node. -/
structure Issue.Reports (root : Text) (ts : Forest Widget) (i : Issue)
    (n : Forest.Node Widget) : Prop where
  message : i.message = n.label.skipReason.message
  path : i.path = pathText root n.path
  numbers : pathNumbers root i.path = n.path
  reaches : (Forest.at? ts (pathNumbers root i.path)).map Tree.label = some n.label

/-- What is generated is right about the skipped widgets of a forest: variables are made for the
widgets with legal names below such, and there is one report for every other widget below such,
both in document order. -/
structure Generation.Isolates (g : Generation) (root : Text) (ts : Forest Widget) : Prop where
  identifiers : g.emissions.identifiers =
    ((Forest.nodes ts).filter (Forest.Node.isLeft Widget.hasLegalName)).map (·.label.name)
  issues : List.Forall₂ (Issue.Reports root ts) (g.emissions.issues g.root)
    ((Forest.nodes ts).filter (Forest.Node.isCut Widget.hasLegalName))

/-- The reports on a forest are on the widgets where pruning takes out a tree. -/
theorem Forest.reports_issues (d : Detail) (parent root : Text) {ts : Forest Widget}
    (h : ∀ w ∈ Forest.toList ts, w.identifier = .text w.name)
    (hfault : (Forest.emissions d parent [] 0 ts).fault? = none) :
    List.Forall₂ (Issue.Reports root ts) ((Forest.emissions d parent [] 0 ts).issues root)
      ((Forest.nodes ts).filter (Forest.Node.isCut Widget.hasLegalName)) := by
  rw [Emissions.issues, Forest.skips_emissions d h hfault, List.map_map, List.forall₂_map_left_iff,
    List.forall₂_same]
  intro n hn
  have hpath := pathNumbers_pathText root n.path
  refine ⟨rfl, rfl, hpath, ?_⟩
  show (Forest.at? ts (pathNumbers root (pathText root n.path))).map Tree.label = some n.label
  rw [hpath]
  exact Forest.at?_of_mem_nodes (List.mem_of_mem_filter hn)

/-- **Skipped widgets are isolated.** From any subject that holds typed widgets source is generated,
unless a number that is to be shown has more digits than `Decimal.digitLimit`: on typed widgets this
is the only way in which generation can fail, and only widgets that are not skipped can bring it
about. It makes variables for the widgets with legal names below such and reports every other widget
below such once. The code, the variables and a fault are those of the widgets that are left without
the skipped ones, in whatever subject these are held. -/
theorem Generation.ofSubject_isolated (d : Detail) (parent : Text) {s : Subject} {root : Text}
    {ts : Forest Widget} (hs : s.Holds root ts) (ht : ∀ w ∈ Forest.toList ts, w.IsTyped) :
    ∃ g, ofSubject d parent s = .ok g ∧
      (g.emissions.fault? = none ↔
        ∀ w ∈ Forest.toList (Forest.prune Widget.hasLegalName ts), w.IsWritten) ∧
      (g.emissions.fault? = none → g.Isolates root ts) ∧
      ∀ left root', left.Holds root' (Forest.prune Widget.hasLegalName ts) →
        ∃ g', ofSubject d parent left = .ok g' ∧ g'.emissions.code = g.emissions.code ∧
          g'.emissions.identifiers = g.emissions.identifiers ∧
          g'.emissions.fault? = g.emissions.fault? := by
  have hnames : ∀ w ∈ Forest.toList ts, w.identifier = .text w.name :=
    fun w hw => (ht w hw).identifier
  obtain ⟨g, hg, hes, hissues⟩ := ofSubject_of_holds d parent hs
  refine ⟨g, hg, ?_, fun hfault => ⟨?_, ?_⟩, fun left root' hleft => ?_⟩
  · rw [hes]
    exact Forest.fault?_emissions_iff d parent [] 0 ts ht
  · rw [hes] at hfault ⊢
    rw [Forest.identifiers_emissions d hnames hfault, ← Forest.labels_left, List.map_map]
    rfl
  · rw [hissues]
    rw [hes] at hfault ⊢
    exact Forest.reports_issues d parent root hnames hfault
  · obtain ⟨g', hg', hes', -⟩ := ofSubject_of_holds d parent hleft
    have hunskipped : g'.emissions = g.emissions.unskipped := by
      rw [hes', hes, Forest.unskipped_emissions d parent [] [] 0 0 ts hnames]
    refine ⟨g', hg', ?_, ?_, ?_⟩
    · rw [Emissions.code, hunskipped, Emissions.statements_unskipped, ← Emissions.code]
    · rw [Emissions.identifiers, hunskipped, Emissions.statements_unskipped,
        ← Emissions.identifiers]
    · rw [hunskipped, Emissions.fault?_unskipped]

/-- Two widgets below the first root are skipped, one of them deeper down, and the whole second
root. -/
theorem Generation.ofSubject_isolated_nested :
    let ts : Forest Widget :=
      [.node (.named "page") [.node (.named "ok") [],
          .node (.named "two words") [.node (.named "lost") []],
          .node (.named "panel") [.node (.named "1st") [], .node (.named "last") []]],
        .node (.named "") [.node (.named "gone") []]]
    (∀ w ∈ Forest.toList ts, w.IsTyped) ∧
      ∃ g, ofSubject .verbose "parent" (.screen ⟨.text "main", ts⟩) = .ok g ∧
        g.emissions.fault? = none ∧ g.emissions.identifiers = ["page", "ok", "panel", "last"] ∧
        (g.emissions.issues g.root).map Issue.path = ["main/0/1", "main/0/2/0", "main/1"] := by
  intro ts
  have hnamed : ∀ w ∈ Forest.toList ts, ∃ name, w = .named name := by
    simp [ts, Forest.toList, Tree.toList]
  have htyped : ∀ w ∈ Forest.toList ts, w.IsTyped := by
    intro w hw
    obtain ⟨name, rfl⟩ := hnamed w hw
    exact Widget.isTyped_named name
  obtain ⟨g, hg, hiff, hisolates, -⟩ :=
    ofSubject_isolated .verbose "parent" (.screen "main" ts) htyped
  have hfault : g.emissions.fault? = none := by
    refine hiff.2 fun w hw => ?_
    obtain ⟨name, rfl⟩ := hnamed w (Forest.keep_of_mem_prune _ ts hw).2
    exact Widget.isWritten_named name
  obtain ⟨hidentifiers, hissues⟩ := hisolates hfault
  refine ⟨htyped, g, hg, hfault, hidentifiers.trans (by rfl), ?_⟩
  have hpaths : List.Forall₂ (· = ·) ((g.emissions.issues g.root).map Issue.path)
      (((Forest.nodes ts).filter (Forest.Node.isCut Widget.hasLegalName)).map
        fun n => pathText "main" n.path) := by
    rw [List.forall₂_map_left_iff, List.forall₂_map_right_iff]
    exact hissues.imp fun i n h => h.path
  rw [List.forall₂_eq_eq_eq] at hpaths
  exact hpaths.trans (by rfl)

end LvglForest
