import LvglForest.Proofs.Hierarchy.Entry
import LvglForest.Proofs.Hierarchy.Links
import LvglForest.Proofs.Hierarchy.ParsedFile
import LvglForest.Proofs.Project.Rendering
import LvglForest.Proofs.Widget.Exchange

/-!
# Projects read back

Screens whose widgets source can express are rendered without a fault and without a report on a
skipped widget, and the file of each screen is read back as its widgets (`Project.ofSubject_readsAs`). What
the file says is known (`Rendering.Draft.contents_file`), and so are the entries that this makes
(`Rendering.Drafts.unplaced_ofFacts`); their references are the links of the forest, so hanging them gives
its form (`Attachment.forest_of_links`), and dressing it its widgets (`ParsedFile.relabel_dressChildren`).
-/

namespace LvglForest

/-! ## Settled forests -/

mutual

/-- A tree below a parent: each widget names what stands above it, and none was found anywhere. -/
def Tree.settle (parent : Value) : Tree Widget → Tree Widget
  | .node w ts => .node { w with parent, source := {} } (Forest.settle w.identifier ts)

/-- A forest below a parent. -/
def Forest.settle (parent : Value) : List (Tree Widget) → List (Tree Widget)
  | [] => []
  | t :: ts => Tree.settle parent t :: Forest.settle parent ts

end

/-! ## Dressing a forest of names -/

namespace ParsedFile

/-- A widget is known to entries if one of them has its properties. -/
def Knows (entries : Table Entry) (w : Widget) : Prop :=
  w.identifier = .text w.name ∧
    ∃ e parent, entries.get? w.name = some e ∧ e.unplaced = w.entry parent

theorem withoutSource_widget (file : Value) {entries : Table Entry} {w : Widget}
    (h : Knows entries w) (parent : Value) :
    (widget file entries w.name parent).withoutSource = { w with parent, source := {} } := by
  obtain ⟨hname, e, q, he, hentry⟩ := h
  have hsource : (e.toWidget file w.name parent).withoutSource =
      (e.unplaced.toWidget file w.name parent).withoutSource := rfl
  rw [widget, he, Option.elim_some, hsource, hentry, hname]
  rfl

mutual

/-- Dressing the names of a tree whose widgets the entries know gives the tree. -/
theorem relabel_dressTree (file : Value) {entries : Table Entry} : ∀ (parent : Value)
    (t : Tree Widget) (_ : ∀ w ∈ t.toList, Knows entries w),
    Tree.relabel Widget.withoutSource
      (dressTree file entries parent (Tree.relabel Widget.name t)) = Tree.settle parent t
  | parent, .node w ts, h => by
    rw [Tree.toList, List.forall_mem_cons] at h
    rw [Tree.relabel, dressTree, Tree.relabel, Tree.settle, withoutSource_widget file h.1, ← h.1.1,
      relabel_dressChildren file w.identifier ts h.2]

theorem relabel_dressChildren (file : Value) {entries : Table Entry} : ∀ (parent : Value)
    (ts : List (Tree Widget)) (_ : ∀ w ∈ Forest.toList ts, Knows entries w),
    Forest.relabel Widget.withoutSource
      (dressChildren file entries parent (Forest.relabel Widget.name ts)) =
        Forest.settle parent ts
  | _, [], _ => rfl
  | parent, t :: ts, h => by
    rw [Forest.toList, List.forall_mem_append] at h
    rw [Forest.relabel, dressChildren, Forest.relabel, Forest.settle,
      relabel_dressTree file parent t h.1, relabel_dressChildren file parent ts h.2]

end

/-! ## Building from the entries of a forest -/

section Entries

variable {entries : Table Entry} {ts : Forest Widget}
  (hentries : entries.mapValues Entry.unplaced =
    (Forest.links Widget.name "parent" ts).map fun (p, w) => (w.name, w.entry p))
  (hn : ((Forest.toList ts).map Widget.name).Nodup)
include hentries

theorem keys_of_links : entries.keys = (Forest.toList ts).map Widget.name := by
  have hkeys := congrArg Table.keys hentries
  rw [Table.keys_mapValues] at hkeys
  rw [hkeys, ← Forest.map_snd_links Widget.name "parent" ts, Table.keys, List.map_map, List.map_map]
  rfl

include hn

/-- The entry of a widget has the name above it for a parent. -/
theorem exists_entry {p : Text} {w : Widget}
    (h : (p, w) ∈ Forest.links Widget.name "parent" ts) :
    ∃ e, entries.get? w.name = some e ∧ e.unplaced = w.entry p := by
  have hkeys : (entries.mapValues Entry.unplaced).keys.Nodup := by
    rw [Table.keys_mapValues, keys_of_links hentries]
    exact hn
  have hmem : (w.name, w.entry p) ∈ entries.mapValues Entry.unplaced := by
    rw [hentries]
    exact List.mem_map_of_mem (f := fun l => (l.2.name, l.2.entry l.1)) h
  have hget := Table.get?_of_mem hkeys hmem
  rw [Table.get?_mapValues] at hget
  exact Option.map_eq_some_iff.1 hget

theorem forest_of_entries (hparent : ∀ w ∈ Forest.toList ts, w.name ≠ "parent") :
    Attachment.forest entries = Forest.relabel Widget.name ts := by
  have hrefs : entries.map (fun e => (e.2.parent, e.1)) =
      (Forest.links id ("parent" : Text) (Forest.relabel Widget.name ts)).map
        fun l => (.text l.1, l.2) := by
    have hunplaced : entries.map (fun e => (e.2.parent, e.1)) =
        (entries.mapValues Entry.unplaced).map fun e => (e.2.parent, e.1) := by
      rw [Table.mapValues, List.map_map]
      rfl
    rw [hunplaced, hentries, Forest.links_relabel, List.map_map, List.map_map]
    rfl
  refine Attachment.forest_of_links hrefs ?_ ?_ <;> rw [Forest.toList_relabel]
  · intro hmem
    obtain ⟨w, hw, hname⟩ := List.mem_map.1 hmem
    exact hparent w hw hname
  · exact hn

end Entries

/-- **Entries of a forest build the forest.** -/
theorem build_of_entries {fs : List Fact} {ts : Forest Widget} {type : Value}
    (hc : (Collection.ofFacts fs).unplaced =
      ⟨(Forest.links Widget.name "parent" ts).map fun (p, w) => (w.name, w.entry p),
        (Forest.toList ts).map fun w => (w.name, type)⟩)
    (hnames : ∀ w ∈ Forest.toList ts, w.identifier = .text w.name ∧ w.name ≠ "parent")
    (hn : ((Forest.toList ts).map Widget.name).Nodup) (file : Value) :
    ∃ p, build Attachment.defaultPlaceholders file fs = .ok p ∧
      Forest.relabel Widget.withoutSource p.widgets = Forest.settle .null ts ∧
      p.declarations = (Forest.toList ts).map fun w => (w.name, w.kind) := by
  have hentries : (Collection.ofFacts fs).entries.mapValues Entry.unplaced =
      (Forest.links Widget.name "parent" ts).map fun (p, w) => (w.name, w.entry p) :=
    congrArg Collection.entries hc
  have hdeclared : (Collection.ofFacts fs).declared =
      (Forest.toList ts).map fun w => (w.name, type) :=
    congrArg Collection.declared hc
  generalize hgen : (Collection.ofFacts fs) = c at hentries hdeclared
  have hlink : ∀ w ∈ Forest.toList ts, ∃ p, (p, w) ∈ Forest.links Widget.name "parent" ts := by
    intro w hw
    rw [← Forest.map_snd_links Widget.name "parent" ts] at hw
    obtain ⟨l, hl, rfl⟩ := List.mem_map.1 hw
    exact ⟨l.1, hl⟩
  have hknows : ∀ w ∈ Forest.toList ts, Knows c.entries w := by
    intro w hw
    obtain ⟨p, hp⟩ := hlink w hw
    obtain ⟨e, he, hentry⟩ := exists_entry hentries hn hp
    exact ⟨(hnames w hw).1, e, p, he, hentry⟩
  have hroots : ∀ t ∈ Forest.relabel Widget.name ts, rootParent Attachment.defaultPlaceholders
      ((c.entries.get? t.label).elim .null Entry.parent) = .null := by
    intro t ht
    rw [Forest.relabel_eq_map] at ht
    obtain ⟨u, hu, rfl⟩ := List.mem_map.1 ht
    obtain ⟨e, he, hentry⟩ :=
      exists_entry hentries hn (Forest.mem_links_of_mem Widget.name hu "parent")
    have hlabel : (Tree.relabel Widget.name u).label = u.label.name := by cases u; rfl
    have hreference : e.parent = .text "parent" := congrArg Entry.parent hentry
    rw [hlabel, he, Option.elim_some, hreference]
    rfl
  have hfault : Attachment.fault? Attachment.defaultPlaceholders c.entries
      (Attachment.seeds c.entries) c.entries = none := by
    refine Attachment.fault?_texts ["parent"] c.entries (fun e he => ?_) _
    have hmem : (e.1, e.2.unplaced) ∈ c.entries.mapValues Entry.unplaced :=
      List.mem_map_of_mem (f := fun e => (e.1, e.2.unplaced)) he
    rw [hentries] at hmem
    obtain ⟨l, -, hl⟩ := List.mem_map.1 hmem
    exact ⟨l.1, (congrArg (fun x => x.2.parent) hl).symm⟩
  refine ⟨ofFacts Attachment.defaultPlaceholders file fs, ?_, ?_, ?_⟩
  · unfold build
    simp only [hgen, hfault]
  · have hdress := List.map_congr_left fun t ht =>
      congrArg (dressTree file c.entries · t) (hroots t ht)
    rw [ofFacts, ofCollection, hgen, forest_of_entries hentries hn fun w hw => (hnames w hw).2]
    refine (congrArg _ (hdress.trans (dressChildren_eq_map file c.entries .null _).symm)).trans ?_
    exact relabel_dressChildren file .null ts hknows
  · rw [ofFacts, ofCollection, hgen, Collection.declarations, hdeclared, List.map_map]
    refine List.map_congr_left fun w hw => ?_
    obtain ⟨-, e, p, he, hentry⟩ := hknows w hw
    have hkind : e.kind = w.kind := congrArg Entry.kind hentry
    show (w.name, (c.entries.get? w.name).elim type Entry.kind) = (w.name, w.kind)
    rw [he, Option.elim_some, hkind]

end ParsedFile

/-! ## The file of a screen -/

namespace Rendering

theorem foldl_hear_declaring (declared : Table Value) {ids : List Text}
    (hn : (declared.keys ++ ids).Nodup) :
    (declaring ids).foldl Collection.hear ⟨[], declared⟩ =
      ⟨[], declared ++ ids.map (·, .text "lv_obj_t")⟩ := by
  induction ids generalizing declared with
  | nil => rw [List.map_nil, List.append_nil]; rfl
  | cons id ids ih =>
    have hid : id ∉ declared.keys := by
      rw [List.nodup_append] at hn
      exact fun h => hn.2.2 id h id List.mem_cons_self rfl
    have hdeclare : Collection.hear ⟨[], declared⟩ (id, .declared (.text "lv_obj_t")) =
        ⟨[], declared ++ [(id, .text "lv_obj_t")]⟩ :=
      congrArg (Collection.mk []) (Table.put_of_not_mem hid _)
    have hrest : (Table.keys (declared ++ [(id, .text "lv_obj_t")]) ++ ids).Nodup := by
      rw [Table.keys, List.map_append, List.append_assoc]
      exact hn
    have hsplit : declaring (id :: ids) = (id, .declared (.text "lv_obj_t")) :: declaring ids := rfl
    rw [hsplit, List.foldl_cons, hdeclare, ih _ hrest, List.append_assoc]
    rfl

section File

variable {d : Detail} {s : Screen} {draft : Draft} (hd : Drafts d s draft)
include hd

theorem Drafts.say : Emissions.Say d draft.emissions ((Forest.toList s.widgets).map Widget.name)
    (Widget.assertionsOf (Forest.links Widget.name "parent" s.widgets)) := by
  rw [hd.emissions]
  exact Forest.say_emissions d (.ofList (by decide)) [] 0 s.widgets hd.expressible.widgets

/-- Lines apart, the file of a screen makes the entries of its widgets and declares them. -/
theorem Drafts.unplaced_ofFacts :
    (Collection.ofFacts (Extraction.facts .standard (draft.file { detail := d }).code)).unplaced =
      ⟨(Forest.links Widget.name "parent" s.widgets).map fun (p, w) => (w.name, w.entry p),
        (Forest.toList s.widgets).map fun w => (w.name, .text "lv_obj_t")⟩ := by
  have hs := hd.expressible
  have hwords : ∀ id ∈ (Forest.toList s.widgets).map Widget.name, id.IsWord := by
    intro id hid
    obtain ⟨w, hw, rfl⟩ := List.mem_map.1 hid
    exact (hs.widgets w hw).identifier_eq.2.1
  have hsnd := Forest.map_snd_links Widget.name "parent" s.widgets
  have hlinks : ∀ l ∈ Forest.links Widget.name "parent" s.widgets, l.2.IsExpressible := by
    intro l hl
    exact hs.widgets l.2 (hsnd ▸ List.mem_map_of_mem hl)
  have hnames : ((Forest.links Widget.name "parent" s.widgets).map (·.2.name)).Nodup := by
    have hnodup := hs.nodup_names
    rw [← hsnd, List.map_map] at hnodup
    exact hnodup
  rw [Collection.unplaced_ofFacts,
    Draft.contents_file hd.symbol hd.say hs.nodup_names hwords, List.foldl_append,
    List.foldl_cons, foldl_hear_declaring [] hs.nodup_names, List.map_map]
  exact Collection.foldl_assertionsOf _ hlinks hnames

end File

end Rendering

/-- A file that is read back as a screen: its widgets below the parents that they have in the
screen, and a declaration for each of them. -/
def GeneratedFile.ReadsAs (f : GeneratedFile) (s : Screen) : Prop :=
  ∃ p, ParsedFile.parse Attachment.defaultPlaceholders f.name f.code = .ok p ∧
    Forest.relabel Widget.withoutSource p.widgets = Forest.settle .null s.widgets ∧
    p.declarations = (Forest.toList s.widgets).map fun w => (w.name, w.kind)

/-- The file of a screen is read back as the screen. -/
theorem Rendering.Drafts.readsAs {d : Detail} {s : Screen} {draft : Rendering.Draft}
    (hd : Rendering.Drafts d s draft) : (draft.file { detail := d }).ReadsAs s :=
  ParsedFile.build_of_entries hd.unplaced_ofFacts
    (fun w hw => ⟨(hd.expressible.widgets w hw).identifier_eq.1,
      (hd.expressible.widgets w hw).identifier_eq.2.2⟩)
    hd.expressible.nodup_names _

/-! ## Projects -/

theorem Subject.screens_of_screens (o : ExportOptions) (screens : List Screen) :
    (Subject.list (screens.map .screen)).screens o = .ok screens := by
  have hsort : Subject.sortOut (screens.map .screen) = .ok (screens, []) := by
    induction screens with
    | nil => rfl
    | cons s screens ih =>
      rw [List.map_cons, sortOut, ih]
      rfl
  unfold Subject.screens
  simp only [hsort]
  rfl

namespace Project

/-- **Round trip of projects.** Screens of any names whose widgets source can express are rendered,
whatever the level of detail, as a project without reports: a header and a file for each screen,
which is read back as the screen. -/
theorem ofSubject_readsAs (d : Detail) {screens : List Screen} (h : ∀ s ∈ screens, s.IsExpressible) :
    ∃ header files,
      ofSubject { detail := d } (.list (screens.map .screen)) = .ok ⟨header :: files, []⟩ ∧
      List.Forall₂ GeneratedFile.ReadsAs files screens := by
  obtain ⟨ds, hds, hdrafts⟩ := Rendering.exists_drafts d h []
  have hsay : ∀ draft ∈ ds, ∃ ids said, Emissions.Say d draft.emissions ids said := by
    clear h hds
    induction hdrafts with
    | nil => exact fun draft hdraft => nomatch hdraft
    | cons hd _ ih => exact List.forall_mem_cons.2 ⟨⟨_, _, hd.say⟩, ih⟩
  have hheader : ExportOptions.ShowsHeader { detail := d } := ⟨_, rfl⟩
  have hsettled := Rendering.settled_of_fault? fun draft hdraft => by
    obtain ⟨_, _, hsay⟩ := hsay draft hdraft
    exact Rendering.Draft.fault?_eq_none_iff.2 ⟨hheader, hsay.fault?_eq_none⟩
  have hissues : ds.flatMap Rendering.Draft.issues = [] := by
    rw [List.flatMap_eq_nil_iff]
    intro draft hdraft
    obtain ⟨_, _, hsay⟩ := hsay draft hdraft
    rw [Rendering.Draft.issues, Emissions.issues, hsay.skips_eq_nil, List.map_nil]
  refine ⟨Rendering.header { detail := d } "#include \"lvgl/lvgl.h\"" ds,
    ds.map (Rendering.Draft.file { detail := d }), ?_, ?_⟩
  · rw [ofSubject, Subject.screens_of_screens]
    simp only [ofScreens, hds, hsettled, ofDrafts, hissues]
  · rw [List.forall₂_map_left_iff]
    exact hdrafts.flip.imp fun draft s hd => hd.readsAs

/-- A panel with a colour and a padding. -/
def panel : Widget where
  kind := .text Kind.container.name
  identifier := .text "panel"
  align := .text "LV_ALIGN_TOP_MID"
  styles :=
    { known := fun k => if k = .bgColor then some (.text "0x202020") else none
      extra := [((Text.ofString "pad_all"), .text "8")] }
  width := .percent (.integer 100)
  height := .pixels 40

/-- A label with a quotation in its text. -/
def title : Widget where
  kind := .text Kind.label.name
  identifier := .text "title"
  text := .text "\"Hi\""
  x := .integer 10
  y := .integer (-4)

theorem isExpressible_panel : panel.IsExpressible where
  identifier := ⟨"panel", rfl, by decide, by decide⟩
  kind := ⟨.container, rfl, .inl rfl, .inl rfl, .inl ⟨rfl, rfl⟩⟩
  size := .inr ⟨(by decide : Decimal.Converts 100), (by decide : Decimal.Converts 40), rfl⟩
  align := .inr ⟨_, rfl, by decide⟩
  place := ⟨0, 0, rfl, rfl, by decide, by decide⟩
  known k v h := by
    cases k <;> cases h
    exact ⟨_, rfl, by decide⟩
  extra := by
    unfold panel
    rw [List.forall_mem_singleton]
    exact ⟨⟨by decide, by decide, by decide, by decide⟩, _, rfl, by decide⟩
  distinct := List.nodup_singleton _

theorem isDecoded_title : Literal.IsDecoded "\"Hi\"" := by
  have hbytes : Utf8.encode? "\"Hi\"" = some [0x22, 0x48, 0x69, 0x22] := by decide
  refine ⟨Literal.encode "\"Hi\"", (Literal.decode?_encode hbytes).trans ?_⟩
  rfl

theorem isExpressible_title : title.IsExpressible where
  identifier := ⟨"title", rfl, by decide, by decide⟩
  kind := ⟨.label, rfl, .inr ⟨rfl, _, rfl, isDecoded_title, by decide, by decide⟩, .inl rfl,
    .inl ⟨rfl, rfl⟩⟩
  size := .inl ⟨rfl, rfl⟩
  align := .inl rfl
  place := ⟨10, -4, rfl, rfl, by decide, by decide⟩
  known _ _ h := by cases h
  extra _ he := by cases he
  distinct := List.nodup_nil

theorem ofSubject_readsAs_panel :
    let screens : List Screen := [⟨.text "1 day", [.node panel [.node title []]]⟩]
    (∀ s ∈ screens, s.IsExpressible) ∧ ∃ header files,
      ofSubject {} (.list (screens.map .screen)) = .ok ⟨header :: files, []⟩ ∧
      List.Forall₂ GeneratedFile.ReadsAs files screens := by
  have hscreens : ∀ s ∈ [Screen.mk (.text "1 day") [.node panel [.node title []]]],
      s.IsExpressible := by
    rw [List.forall_mem_singleton]
    have htoList : Forest.toList [.node panel [.node title []]] = [panel, title] := rfl
    refine ⟨⟨_, rfl⟩, ?_, ?_⟩ <;> simp only [htoList]
    · exact List.forall_mem_cons.2 ⟨isExpressible_panel, by simpa using isExpressible_title⟩
    · exact List.Nodup.map (f := Value.text) (fun _ _ => Value.text.inj)
        (by decide : [(Text.ofString "panel"), "title"].Nodup)
  exact ⟨hscreens, ofSubject_readsAs .verbose hscreens⟩

end Project

end LvglForest
