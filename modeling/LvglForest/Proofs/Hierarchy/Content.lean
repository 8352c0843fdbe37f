import LvglForest.Proofs.Hierarchy.Entry
import LvglForest.Proofs.Hierarchy.ParsedFile

/-!
# Files that say the same

Where widgets are hung depends only on the parents that entries name
(`Attachment.forest_mapValues`), so lines apart a built file depends only on what its facts say
(`ParsedFile.build_of_contents`).
-/

namespace LvglForest

/-! ## Entries that name the same parents -/

namespace Attachment

variable {f : Entry → Entry} (hf : ∀ e, (f e).parent = e.parent)

theorem isMovable_mapValues (f : Entry → Entry) (entries : Table Entry) (ts : Forest Text)
    (id : Text) (reference : Value) :
    isMovable (entries.mapValues f) ts id reference = isMovable entries ts id reference := by
  cases reference <;> simp only [isMovable, movable?, Table.has_mapValues]

theorem attach_mapValues (f : Entry → Entry) (entries : Table Entry) (ts : Forest Text)
    (id : Text) (reference : Value) :
    attach (entries.mapValues f) ts id reference = attach entries ts id reference := by
  cases reference <;> simp only [attach, movable?, Table.has_mapValues]

theorem seeds_mapValues (f : Entry → Entry) (entries : Table Entry) :
    seeds (entries.mapValues f) = seeds entries := by
  rw [seeds, seeds, Table.keys_mapValues]

include hf

theorem attachAll_mapValues (entries : Table Entry) (ts : Forest Text)
    (rest : List (Text × Entry)) :
    attachAll (entries.mapValues f) ts (Table.mapValues f rest) = attachAll entries ts rest := by
  induction rest generalizing ts with
  | nil => rfl
  | cons e rest ih =>
    obtain ⟨id, e⟩ := e
    have hcons : Table.mapValues f ((id, e) :: rest) = (id, f e) :: Table.mapValues f rest := rfl
    rw [hcons, attachAll, attachAll, attach_mapValues, hf, ih]

/-- **Hanging depends on the parents** that entries name, and on nothing else in them. -/
theorem forest_mapValues (entries : Table Entry) :
    forest (entries.mapValues f) = forest entries := by
  rw [forest, seeds_mapValues, attachAll_mapValues hf, forest]

theorem fault?_mapValues (placeholders : Value) (entries : Table Entry) (ts : Forest Text)
    (rest : List (Text × Entry)) :
    fault? placeholders (entries.mapValues f) ts (Table.mapValues f rest) =
      fault? placeholders entries ts rest := by
  induction rest generalizing ts with
  | nil => rfl
  | cons e rest ih =>
    obtain ⟨id, e⟩ := e
    have hcons : Table.mapValues f ((id, e) :: rest) = (id, f e) :: Table.mapValues f rest := rfl
    have hstanding : standing placeholders (entries.mapValues f) ts id e.parent =
        standing placeholders entries ts id e.parent := by
      rw [standing, standing, isMovable_mapValues]
    rw [hcons, fault?, fault?, hf, hstanding, attach_mapValues, ih]

end Attachment

/-! ## Parsed files without lines -/

/-- A widget without the lines that speak of it. -/
def Widget.withoutLines (w : Widget) : Widget := { w with source := { file := w.source.file } }

namespace ParsedFile

/-- A file without the lines that speak of its widgets. -/
def withoutLines (p : ParsedFile) : ParsedFile :=
  { p with widgets := Forest.relabel Widget.withoutLines p.widgets }

theorem withoutLines_widget_unplaced (file : Value) (entries : Table Entry) (id : Text)
    (parent : Value) :
    (widget file (entries.mapValues Entry.unplaced) id parent).withoutLines =
      (widget file entries id parent).withoutLines := by
  rw [widget, widget, Table.get?_mapValues]
  cases entries.get? id <;> rfl

theorem relabel_dressTree_unplaced (file : Value) (entries : Table Entry) (t : Tree Text)
    (parent : Value) :
    Tree.relabel Widget.withoutLines (dressTree file (entries.mapValues Entry.unplaced) parent t) =
      Tree.relabel Widget.withoutLines (dressTree file entries parent t) := by
  induction t using Tree.ind generalizing parent with
  | node id ts ih =>
    rw [dressTree, dressTree, Tree.relabel, Tree.relabel, withoutLines_widget_unplaced,
      dressChildren_eq_map, dressChildren_eq_map, Forest.relabel_eq_map, Forest.relabel_eq_map,
      List.map_map, List.map_map]
    exact congrArg _ (List.map_congr_left fun t ht => ih t ht _)

theorem elim_get?_unplaced {β : Type} {g : Entry → β} (hg : ∀ e, g e.unplaced = g e)
    (entries : Table Entry) (id : Text) (other : β) :
    ((entries.mapValues Entry.unplaced).get? id).elim other g = (entries.get? id).elim other g := by
  rw [Table.get?_mapValues]
  cases entries.get? id with
  | none => rfl
  | some e => exact hg e

/-- The lines of entries are seen in the lines of widgets only. -/
theorem withoutLines_ofCollection (placeholders file : Value) (c : Collection) :
    (ofCollection placeholders file c.unplaced).withoutLines =
      (ofCollection placeholders file c).withoutLines := by
  have hdeclarations : c.unplaced.declarations = c.declarations :=
    List.map_congr_left fun d _ =>
      congrArg (d.1, ·) (elim_get?_unplaced (fun _ => rfl) c.entries d.1 d.2)
  simp only [withoutLines, ofCollection, Forest.relabel_eq_map, List.map_map]
  rw [hdeclarations, Collection.unplaced, Attachment.forest_mapValues (f := .unplaced) fun _ => rfl]
  simp only [Function.comp_def, elim_get?_unplaced (g := Entry.parent) fun _ => rfl,
    relabel_dressTree_unplaced]

theorem fault?_unplaced (placeholders : Value) (c : Collection) :
    Attachment.fault? placeholders c.unplaced.entries (Attachment.seeds c.unplaced.entries)
        c.unplaced.entries =
      Attachment.fault? placeholders c.entries (Attachment.seeds c.entries) c.entries := by
  rw [Collection.unplaced, Attachment.seeds_mapValues]
  exact Attachment.fault?_mapValues (f := .unplaced) (fun _ => rfl) placeholders c.entries _
    c.entries

/-- **Files that say the same** are built to the same widgets and declarations, lines apart, or
fail alike. -/
theorem build_of_contents {fs gs : List Fact} (h : fs.map Fact.content = gs.map Fact.content)
    (placeholders file : Value) :
    (build placeholders file fs).map withoutLines =
      (build placeholders file gs).map withoutLines := by
  have hunplaced : (Collection.ofFacts fs).unplaced = (Collection.ofFacts gs).unplaced := by
    rw [Collection.unplaced_ofFacts, Collection.unplaced_ofFacts, h]
  have hfault : Attachment.fault? placeholders (Collection.ofFacts fs).entries
        (Attachment.seeds (Collection.ofFacts fs).entries) (Collection.ofFacts fs).entries =
      Attachment.fault? placeholders (Collection.ofFacts gs).entries
        (Attachment.seeds (Collection.ofFacts gs).entries) (Collection.ofFacts gs).entries := by
    rw [← fault?_unplaced, hunplaced, fault?_unplaced]
  have hfile : (ofFacts placeholders file fs).withoutLines =
      (ofFacts placeholders file gs).withoutLines := by
    rw [ofFacts, ofFacts, ← withoutLines_ofCollection, hunplaced, withoutLines_ofCollection]
  unfold build
  simp only [hfault]
  split
  · rfl
  · exact congrArg Except.ok hfile

end ParsedFile

end LvglForest
