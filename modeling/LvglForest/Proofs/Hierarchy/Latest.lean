import LvglForest.Proofs.Hierarchy.Order
import LvglForest.Proofs.Hierarchy.Source

/-!
# The last fact counts

An entry is made of the facts about its identifier from the first creation on (`Fact.own`), one
after the other (`Collection.get?_ofFacts`), and a step sets what its fact is about and nothing
else. So each property has what the last fact about it says (`Entry.latest_foldl_take`), whichever
facts come between, and other identifiers play no part (`ParsedFile.build_latest`).
-/

namespace LvglForest

/-! ## What a fact is about -/

namespace Fact

/-- The facts about an identifier from its first creation on. -/
def own (id : Text) (fs : List Fact) : List Fact :=
  (about id fs).dropWhile fun f => f.created?.isNone

/-- What the last fact says that says something of a kind. -/
def latest? {α : Type} (pick : Fact → Option α) (fs : List Fact) : Option α :=
  (fs.filterMap pick).getLast?

/-- The kind that a creation gives. -/
def kind? (f : Fact) : Option Value :=
  match f.assertion with
  | .created kind _ _ => some kind
  | _ => none

/-- The text that a fact sets. -/
def text? (f : Fact) : Option Value :=
  match f.assertion with
  | .text t => some t
  | _ => none

/-- The size that a fact sets. -/
def size? (f : Fact) : Option (Size × Size) :=
  match f.assertion with
  | .size width height => some (width, height)
  | _ => none

/-- The value that a fact sets. -/
def value? (f : Fact) : Option Value :=
  match f.assertion with
  | .value v => some v
  | _ => none

/-- The range that a fact sets. -/
def range? (f : Fact) : Option (Value × Value) :=
  match f.assertion with
  | .range rangeMin rangeMax => some (rangeMin, rangeMax)
  | _ => none

/-- The style that a fact sets under a key. -/
def style? (key : Text) (f : Fact) : Option Value :=
  match f.assertion with
  | .style k v => if k = key then some v else none
  | _ => none

/-- The alignment and the position that a fact sets. A position alone takes the alignment back. -/
def place? (f : Fact) : Option (Value × Value × Value) :=
  match f.assertion with
  | .align keyword x y => some (keyword, x, y)
  | .center => some (.text Anchor.middle.keyword, .integer 0, .integer 0)
  | .position x y => some (.null, x, y)
  | _ => none

/-- The line of a fact that is no declaration. -/
def line? (f : Fact) : Option Value :=
  match f.assertion with
  | .declared _ => none
  | _ => some f.line

theorem latest?_cons {α : Type} (pick : Fact → Option α) (f : Fact) (fs : List Fact) :
    latest? pick (f :: fs) = (latest? pick fs).or (pick f) := by
  rw [latest?, latest?, List.filterMap_cons]
  cases hf : pick f with
  | none => rw [Option.or_none]
  | some a =>
    rw [List.getLast?_cons]
    cases (List.filterMap pick fs).getLast? <;> rfl

theorem own_concat_of_ne {id : Text} {f : Fact} (h : f.identifier ≠ id) (fs : List Fact) :
    own id (fs ++ [f]) = own id fs := by
  rw [own, about_concat_of_ne h, own]

/-- A fact about a created identifier is added to the others; before the creation only the creation
counts. -/
theorem own_concat (fs : List Fact) (f : Fact) :
    own f.identifier (fs ++ [f]) =
      if own f.identifier fs = [] then (if f.created?.isNone then [] else [f])
      else own f.identifier fs ++ [f] := by
  rw [own, about_concat, List.dropWhile_append, own]
  simp only [List.isEmpty_iff, List.dropWhile_cons, List.dropWhile_nil]

end Fact

/-! ## Entries step by step -/

namespace Entry

/-- Changes an entry by a fact about its identifier. A declaration comes too late. -/
def take (e : Entry) (f : Fact) : Entry :=
  match f.assertion with
  | .declared _ => e
  | _ => e.apply f

/-- The entry of facts about one identifier, the first of which creates it. -/
def ofOwn : List Fact → Option Entry
  | [] => none
  | f :: fs =>
    match f.assertion with
    | .created kind _ parent => some (fs.foldl take (.start kind parent f.line))
    | _ => none

theorem ofOwn_concat {fs : List Fact} (h : fs ≠ []) (f : Fact) :
    ofOwn (fs ++ [f]) = (ofOwn fs).map (·.take f) := by
  obtain ⟨g, fs, rfl⟩ := List.exists_cons_of_ne_nil h
  rw [List.cons_append, ofOwn, ofOwn]
  split
  · rw [List.foldl_concat, Option.map_some]
  · rfl

/-- **The last fact counts** for whatever a step sets if its fact is about it, and keeps if not. -/
theorem latest_foldl_take {α : Type} {g : Entry → α} {pick : Fact → Option α}
    (hstep : ∀ e f, g (take e f) = (pick f).getD (g e)) (fs : List Fact) (e : Entry) :
    g (fs.foldl take e) = (Fact.latest? pick fs).getD (g e) := by
  induction fs generalizing e with
  | nil => rfl
  | cons f fs ih =>
    rw [List.foldl_cons, ih, hstep, Fact.latest?_cons]
    cases Fact.latest? pick fs <;> rfl

/-- The same for all facts, of which the first one starts the entry. -/
theorem latest_of_start {α : Type} {g : Entry → α} {pick : Fact → Option α}
    (hstep : ∀ e f, g (take e f) = (pick f).getD (g e)) {f : Fact} {fs : List Fact} {e : Entry}
    {a : α} (hstart : g e = (pick f).getD a) :
    g (fs.foldl take e) = (Fact.latest? pick (f :: fs)).getD a := by
  rw [latest_foldl_take hstep, hstart, Fact.latest?_cons]
  cases Fact.latest? pick fs <;> rfl

/-- The same for what the first fact says. -/
theorem latest?_of_start {α : Type} {g : Entry → α} {pick : Fact → Option α}
    (hstep : ∀ e f, g (take e f) = (pick f).getD (g e)) {f : Fact} {fs : List Fact} {e : Entry}
    (hstart : pick f = some (g e)) :
    Fact.latest? pick (f :: fs) = some (g (fs.foldl take e)) := by
  rw [latest_foldl_take hstep, Fact.latest?_cons, hstart]
  cases Fact.latest? pick fs <;> rfl

section Steps

variable (e : Entry) (f : Fact)

theorem kind_take : (e.take f).kind = f.kind?.getD e.kind := by
  obtain ⟨id, line, a⟩ := f
  cases a <;> rfl

theorem text_take : (e.take f).text = f.text?.getD e.text := by
  obtain ⟨id, line, a⟩ := f
  cases a <;> rfl

theorem size_take :
    ((e.take f).width, (e.take f).height) = f.size?.getD (e.width, e.height) := by
  obtain ⟨id, line, a⟩ := f
  cases a <;> rfl

theorem value_take : (e.take f).value = f.value?.getD e.value := by
  obtain ⟨id, line, a⟩ := f
  cases a <;> rfl

theorem range_take :
    ((e.take f).rangeMin, (e.take f).rangeMax) = f.range?.getD (e.rangeMin, e.rangeMax) := by
  obtain ⟨id, line, a⟩ := f
  cases a <;> rfl

theorem place_take :
    ((e.take f).align, (e.take f).x, (e.take f).y) = f.place?.getD (e.align, e.x, e.y) := by
  obtain ⟨id, line, a⟩ := f
  cases a <;> rfl

theorem firstLine_take : (e.take f).firstLine = e.firstLine := by
  obtain ⟨id, line, a⟩ := f
  cases a <;> rfl

theorem lastLine_take : (e.take f).lastLine = f.line?.getD e.lastLine := by
  obtain ⟨id, line, a⟩ := f
  cases a <;> rfl

end Steps

end Entry

namespace Styles

/-- The value of a style, null if it is not set. -/
def value (key : Text) (s : Styles) : Value := (s.get key).getD .null

theorem value_empty (key : Text) : ({} : Styles).value key = .null := by
  rw [value, get_empty, Option.getD_none]

/-- A style has the value that it was set to, and the others keep theirs. -/
theorem value_set (key k : Text) (v : Value) (s : Styles) :
    (s.set k v).value key = if k = key then v else s.value key := by
  rw [value, get_set, value]
  split
  · split
    · next hnull =>
      cases v with
      | null => rfl
      | _ => simp [Value.isNull] at hnull
    · rfl
  · rfl

end Styles

theorem Entry.style_take (key : Text) (e : Entry) (f : Fact) :
    (e.take f).styles.value key = (f.style? key).getD (e.styles.value key) := by
  obtain ⟨id, line, a⟩ := f
  cases a with
  | style k v =>
    show (e.styles.set k v).value key = (if k = key then some v else none).getD _
    rw [Styles.value_set]
    split <;> rfl
  | _ => rfl

/-! ## Collections -/

namespace Collection

/-- One more fact about an identifier. -/
theorem get?_add (c : Collection) (f : Fact) :
    (c.add f).entries.get? f.identifier =
      match c.entries.get? f.identifier with
      | some e => some (e.take f)
      | none => Entry.ofOwn [f] := by
  obtain ⟨id, line, a⟩ := f
  cases hget : c.entries.get? id with
  | none =>
    have hhas : c.entries.has id = false := by rw [Table.has, hget]; rfl
    cases a with
    | declared type =>
      simp only [add, hhas, Bool.false_eq_true, if_false, hget]
      rfl
    | created kind sourceName parent =>
      simp only [add, hhas, Bool.false_eq_true, if_false, Table.get?_put, if_true]
      rfl
    | _ =>
      simp only [add, Table.get?_adjust, if_true, hget]
      rfl
  | some e =>
    have hhas : c.entries.has id = true := by rw [Table.has, hget]; rfl
    cases a with
    | declared type =>
      simp only [add, hhas, if_true, hget]
      rfl
    | created kind sourceName parent =>
      simp only [add, hhas, if_true, Table.get?_adjust, hget]
      rfl
    | _ =>
      simp only [add, Table.get?_adjust, if_true, hget]
      rfl

/-- **An entry is made of its own facts.** -/
theorem get?_ofFacts (fs : List Fact) (id : Text) :
    (ofFacts fs).entries.get? id = Entry.ofOwn (Fact.own id fs) := by
  -- Facts are collected from the left, so the induction takes the last one away.
  induction fs using List.reverseRecOn with
  | nil => rfl
  | append_singleton fs f ih =>
    rw [ofFacts_concat]
    by_cases h : f.identifier = id
    · subst h
      rw [get?_add, ih, Fact.own_concat]
      by_cases hown : Fact.own f.identifier fs = []
      · rw [hown, if_pos rfl]
        obtain ⟨id, line, a⟩ := f
        cases a <;> rfl
      · rw [if_neg hown, Entry.ofOwn_concat hown]
        obtain ⟨g, gs, hgs⟩ := List.exists_cons_of_ne_nil hown
        have hcreated : g.created?.isNone = false := by
          have hhead := List.head?_dropWhile_not (fun f : Fact => f.created?.isNone)
            (Fact.about f.identifier fs)
          rw [show List.dropWhile _ _ = g :: gs from hgs] at hhead
          exact hhead
        rw [hgs]
        obtain ⟨id, line, a⟩ := g
        cases a with
        | created kind sourceName parent => rfl
        | _ => cases hcreated
    · rw [Fact.own_concat_of_ne h, ← ih]
      exact congrArg Prod.fst (view_add_of_ne h (ofFacts fs))

/-- The entries after a fact depend on the entries before it. -/
theorem entries_add_congr {c c' : Collection} (h : c.entries = c'.entries) (f : Fact) :
    (c.add f).entries = (c'.add f).entries := by
  unfold add
  rw [h]
  split
  · split
    · exact h
    · rfl
  · split <;> rfl
  · rfl

/-- A fact about an identifier that is not created yet is lost to the entries. -/
theorem entries_add_of_not_mem {c : Collection} {f : Fact} (hcreated : f.created? = none)
    (h : f.identifier ∉ c.entries.keys) : (c.add f).entries = c.entries := by
  have hadjust : ∀ g : Entry → Entry, c.entries.adjust f.identifier g = c.entries :=
    Table.adjust_of_not_mem h
  obtain ⟨id, line, a⟩ := f
  cases a with
  | declared type =>
    unfold add
    dsimp only
    split <;> rfl
  | created kind sourceName parent => cases hcreated
  | _ => exact hadjust _

/-- **Facts before the creation are lost**, and so are those about what is never created. -/
theorem entries_ofFacts_lost {before : List Fact} {f : Fact}
    (h : ∀ g ∈ before ++ [f], g.created? ≠ some f.identifier) (after : List Fact) :
    (ofFacts (before ++ f :: after)).entries = (ofFacts (before ++ after)).entries := by
  have hcreated : f.created? = none := by
    have hf := h f (List.mem_append_right _ List.mem_cons_self)
    obtain ⟨id, line, a⟩ := f
    cases a with
    | created kind sourceName parent => exact absurd rfl hf
    | _ => rfl
  have hnew : f.identifier ∉ (ofFacts before).entries.keys := by
    rw [keys_entries_ofFacts, Fact.mem_createdIn]
    rintro ⟨g, hg, hid⟩
    exact h g (List.mem_append_left _ hg) hid
  have hrest : ∀ {c c' : Collection}, c.entries = c'.entries →
      (after.foldl (fun c f => c.add f) c).entries =
        (after.foldl (fun c f => c.add f) c').entries := by
    induction after with
    | nil => exact fun hc => hc
    | cons g after ih => exact fun hc => ih (entries_add_congr hc g)
  rw [ofFacts, ofFacts, List.foldl_append, List.foldl_append, List.foldl_cons]
  exact hrest (entries_add_of_not_mem hcreated hnew)

end Collection

/-! ## Widgets -/

/-- Facts about one identifier, from its creation on, tell what a widget is: of whatever several of
them say, the last one counts. -/
structure Widget.IsToldBy (file : Value) (own : List Fact) (w : Widget) : Prop where
  kind : Fact.latest? Fact.kind? own = some w.kind
  text : w.text = (Fact.latest? Fact.text? own).getD .null
  size : (w.width, w.height) = (Fact.latest? Fact.size? own).getD (.auto, .auto)
  value : w.value = (Fact.latest? Fact.value? own).getD .null
  range : (w.rangeMin, w.rangeMax) = (Fact.latest? Fact.range? own).getD (.null, .null)
  style : ∀ key, w.styles.value key = (Fact.latest? (Fact.style? key) own).getD .null
  place : (w.align, w.x, w.y) =
    (Fact.latest? Fact.place? own).getD (.null, .integer 0, .integer 0)
  file : w.source.file = file
  /-- The first line is the one of the first creation. -/
  first : own.head?.map Fact.line = some w.source.first
  last : Fact.latest? Fact.line? own = some w.source.last

/-- The widget of an entry is told by the facts that the entry is made of. -/
theorem Entry.isToldBy_toWidget {own : List Fact} {e : Entry} (h : ofOwn own = some e)
    (file : Value) (id : Text) (parent : Value) :
    (e.toWidget file id parent).IsToldBy file own := by
  cases own with
  | nil => cases h
  | cons f fs =>
    obtain ⟨name, line, a⟩ := f
    cases a with
    | created kind sourceName reference =>
      cases h
      have hline : (fs.foldl take (start kind reference line)).firstLine = line :=
        List.foldlRecOn (motive := fun e => e.firstLine = line) fs take rfl
          fun e he f _ => (firstLine_take e f).trans he
      refine ⟨latest?_of_start (g := Entry.kind) kind_take rfl,
        latest_of_start (g := Entry.text) text_take rfl,
        latest_of_start (g := fun e => (e.width, e.height)) size_take rfl,
        latest_of_start (g := Entry.value) value_take rfl,
        latest_of_start (g := fun e => (e.rangeMin, e.rangeMax)) range_take rfl,
        fun key => latest_of_start (g := fun e => e.styles.value key) (style_take key)
          (Styles.value_empty key),
        latest_of_start (g := fun e => (e.align, e.x, e.y)) place_take rfl, rfl,
        congrArg some hline.symm, latest?_of_start (g := Entry.lastLine) lastLine_take rfl⟩
    | _ => cases h

namespace ParsedFile

/-- A widget of a built file is the one of the entry of its own facts. -/
theorem exists_ofOwn_of_mem_widgets {placeholders file : Value} {fs : List Fact} {w : Widget}
    (h : w ∈ Forest.toList (ofFacts placeholders file fs).widgets) :
    ∃ id ∈ Fact.createdIn fs, ∃ e, Entry.ofOwn (Fact.own id fs) = some e ∧
      ∃ parent, w = e.toWidget file id parent := by
  obtain ⟨⟨id, e⟩, he, parent, rfl⟩ := exists_entry_of_mem_widgets h
  refine ⟨id, ?_, e, ?_, parent, rfl⟩
  · rw [← Collection.keys_entries_ofFacts]
    exact List.mem_map_of_mem (f := (·.1)) he
  · rw [← Collection.get?_ofFacts]
    exact Table.get?_of_mem (Collection.nodup_keys_entries fs) he

/-- **The last fact counts, for each widget and each property.** A built file has a widget for every
created identifier and no others, and each is told by the facts about its identifier from the first
creation on; the facts about other identifiers say no more than its parent. Facts about an
identifier that is not created before them leave all widgets as they are. And with texts for parents
and for placeholders the file is always built. -/
theorem build_latest (placeholders file : Value) (fs : List Fact) :
    (∀ p, build placeholders file fs = .ok p →
      (∀ id ∈ Fact.createdIn fs, ∃ w ∈ Forest.toList p.widgets, w.identifier = .text id) ∧
      ∀ w ∈ Forest.toList p.widgets, ∃ id ∈ Fact.createdIn fs,
        w.identifier = .text id ∧ w.IsToldBy file (Fact.own id fs)) ∧
    (∀ p, build placeholders file fs = .ok p →
      ∀ others gs q, build others file gs = .ok q →
        ∀ id, Fact.own id fs = Fact.own id gs →
          ∀ v ∈ Forest.toList p.widgets, v.identifier = .text id →
            ∀ w ∈ Forest.toList q.widgets, w.identifier = .text id →
              { v with parent := .null } = { w with parent := .null }) ∧
    (∀ before f after, fs = before ++ f :: after →
      (∀ g ∈ before ++ [f], g.created? ≠ some f.identifier) →
        (build placeholders file fs).map widgets =
          (build placeholders file (before ++ after)).map widgets) ∧
    ((∀ f ∈ fs, f.HasTextParent) → ∀ names, ∃ p, build (.texts names) file fs = .ok p) := by
  refine ⟨fun p hp => ?_, fun p hp others gs q hq id hown v hv hvid w hw hwid => ?_, ?_,
    fun hparents names => ?_⟩
  · obtain ⟨rfl, -⟩ := build_eq_ok.1 hp
    constructor
    · intro id hid
      have hmem := (forestOf_ofFacts placeholders file fs).perm.symm.subset
        (List.mem_map_of_mem hid)
      obtain ⟨w, hw, hwid⟩ := List.mem_map.1 hmem
      exact ⟨w, hw, hwid⟩
    · intro w hw
      obtain ⟨id, hid, e, he, parent, rfl⟩ := exists_ofOwn_of_mem_widgets hw
      exact ⟨id, hid, rfl, Entry.isToldBy_toWidget he file id parent⟩
  · obtain ⟨rfl, -⟩ := build_eq_ok.1 hp
    obtain ⟨rfl, -⟩ := build_eq_ok.1 hq
    obtain ⟨id₁, -, e₁, he₁, parent₁, rfl⟩ := exists_ofOwn_of_mem_widgets hv
    obtain ⟨id₂, -, e₂, he₂, parent₂, rfl⟩ := exists_ofOwn_of_mem_widgets hw
    cases hvid
    cases hwid
    have he : e₁ = e₂ := Option.some.inj (he₁.symm.trans ((congrArg _ hown).trans he₂))
    rw [he]
    rfl
  · rintro before f after rfl hlost
    have hentries := Collection.entries_ofFacts_lost hlost after
    unfold build
    simp only [hentries]
    split
    · rfl
    · simp only [Except.map, ofFacts, ofCollection, hentries]
  · exact ⟨_, build_eq_ok.2
      ⟨rfl, Attachment.fault?_texts names _ (Collection.parent_ofFacts hparents) _⟩⟩

/-- Facts about a bar that change their mind: a text before the creation, two creations, two values,
two radii, an alignment that a position takes back, and a type that comes too late. -/
def revised : List Fact :=
  let about (line : Int) (a : Assertion) : Fact := ⟨"bar", .integer line, a⟩
  [about 1 (.text (.text "lost")),
    about 2 (.created (.text "slider") [] (.text "parent")),
    about 3 (.value (.integer 10)),
    about 4 (.style "radius" (.text "4")),
    about 5 (.align (.text "LV_ALIGN_CENTER") (.integer 1) (.integer 2)),
    ⟨"page", .integer 6, .created (.text "container") [] (.text "parent")⟩,
    about 7 (.created (.text "bar") [] (.text "page")),
    about 8 (.style "radius" (.text "8")),
    about 9 (.position (.integer 30) (.integer 40)),
    about 10 (.value (.integer 20)),
    about 11 (.declared (.text "slider"))]

theorem build_latest_revised :
    ∃ p q, build Attachment.defaultPlaceholders .null revised = .ok p ∧
      build Attachment.defaultPlaceholders .null (Fact.about "bar" revised) = .ok q ∧
      (build Attachment.defaultPlaceholders .null revised.tail).map widgets = .ok p.widgets ∧
      ∃ v ∈ Forest.toList p.widgets, ∃ w ∈ Forest.toList q.widgets,
        { v with parent := .null } = { w with parent := .null } ∧
          v.kind = .text "bar" ∧ v.text = .null ∧ v.value = .integer 20 ∧
          v.styles.value "radius" = .text "8" ∧
          (v.align, v.x, v.y) = (.null, .integer 30, .integer 40) ∧
          v.source.first = .integer 2 ∧ v.source.last = .integer 10 := by
  obtain ⟨hlatest, hdepends, hlost, htexts⟩ :=
    build_latest Attachment.defaultPlaceholders .null revised
  obtain ⟨hlatest', -, -, htexts'⟩ :=
    build_latest Attachment.defaultPlaceholders .null (Fact.about "bar" revised)
  obtain ⟨p, hp⟩ := htexts (by simp [revised, Fact.HasTextParent]) ["parent"]
  obtain ⟨q, hq⟩ := htexts' (by simp [revised, Fact.about, Fact.HasTextParent]) ["parent"]
  obtain ⟨v, hv, hvid⟩ := (hlatest p hp).1 "bar" (by decide)
  obtain ⟨w, hw, hwid⟩ := (hlatest' q hq).1 "bar" (by decide)
  have hsame := hdepends p hp _ _ q hq "bar" (by rfl) v hv hvid w hw hwid
  have htail := hlost [] _ revised.tail rfl (by simp [Fact.created?])
  rw [show build Attachment.defaultPlaceholders .null revised = .ok p from hp] at htail
  obtain ⟨id, -, hid, htold⟩ := (hlatest p hp).2 v hv
  obtain rfl : id = "bar" := Value.text.inj (hid.symm.trans hvid)
  exact ⟨p, q, hp, hq, htail.symm, v, hv, w, hw, hsame, Option.some.inj htold.kind.symm, htold.text,
    htold.value, htold.style _, htold.place, Option.some.inj htold.first.symm,
    Option.some.inj htold.last.symm⟩

end ParsedFile

end LvglForest
