import LvglForest.Page.Markup
import Mathlib.Data.List.Infix

/-!
# The tags in a text

A reader of markup goes through a text code point by code point and finds the tags in it, each with
the names of its attributes (`Markup.tagsIn`). It knows of quoted and bare values, of comments and
declarations, and of elements that hold nothing but text, in which only their own end is a tag. It is
made for any text, not just for pages that are written here.

Escaped text has no sign in it that the reader takes for more than text
(`Markup.not_mem_escape`), and so the reader comes out of an attribute or an element as it went in,
whatever stands in there (`Markup.reads_attributes`, `Markup.reads_content`). So it finds in a written
part of a page exactly the tags of that part (`Markup.reads_write`).
-/

namespace LvglForest.Markup

/-! ## Tags -/

/-- A tag as it is read. Names are in small letters, and the values of attributes are left out. -/
structure Tag where
  closes : Bool := false
  name : Text
  attributes : List Text := []
  deriving DecidableEq

/-- The elements that hold nothing but text. -/
def textElements : List Text :=
  ["title", "textarea", "style", "script", "xmp", "iframe", "noembed", "noframes"]

/-- A code point with a capital letter of ASCII as the small one. -/
def small (p : CodePoint) : CodePoint :=
  if 0x41 ≤ p.value && p.value ≤ 0x5A then .ofNat (p.value + 0x20) else p

/-- A code point that separates the attributes of a tag. -/
def isGap (p : CodePoint) : Bool :=
  [CodePoint.char ' ', .char '\t', .char '\n', .char '\x0c', .char '\r'].contains p

namespace Tag

/-- A tag with a longer name. -/
def extendName (tag : Tag) (p : CodePoint) : Tag := { tag with name := tag.name ++ [small p] }

/-- A tag with one attribute more. -/
def addAttribute (tag : Tag) (p : CodePoint) : Tag :=
  { tag with attributes := tag.attributes ++ [[small p]] }

/-- A tag with a longer name of its last attribute. -/
def extendAttribute (tag : Tag) (p : CodePoint) : Tag :=
  { tag with attributes :=
      tag.attributes.dropLast ++ [tag.attributes.getLast?.getD [] ++ [small p]] }

/-- The element that starts with a tag, if it holds nothing but text. -/
def holder (tag : Tag) : Option Text :=
  if !tag.closes && textElements.contains tag.name then some tag.name else none

end Tag

/-! ## The reader -/

/-- Where a reader stands in a comment. -/
inductive CommentPlace where
  | start | startDash | inside | dash | dashes | bang

namespace CommentPlace

/-- Where a reader stands one code point later. -/
def next : CommentPlace → CodePoint → Option CommentPlace
  | start, .char '-' => some startDash
  | start, .char '>' => none
  | startDash, .char '-' => some dashes
  | startDash, .char '>' => none
  | inside, .char '-' => some dash
  | dash, .char '-' => some dashes
  | dashes, .char '-' => some dashes
  | dashes, .char '!' => some bang
  | dashes, .char '>' => none
  | bang, .char '-' => some dash
  | bang, .char '>' => none
  | _, _ => some inside

end CommentPlace

/-- Where a reader stands in a text. -/
inductive Place where
  /-- Outside of tags, in the named element if that holds nothing but text. -/
  | content (holder : Option Text)
  /-- After a less-than sign. -/
  | less (holder : Option Text)
  /-- After a less-than sign and a slash. -/
  | slash (holder : Option Text)
  /-- In what may become the end of an element that holds nothing but text. -/
  | ending (holder name : Text)
  /-- In the name of a tag. -/
  | name (tag : Tag)
  /-- In a tag, where an attribute may start. -/
  | between (tag : Tag)
  /-- In the name of the last attribute of a tag. -/
  | attributeName (tag : Tag)
  /-- After the name of an attribute. -/
  | behind (tag : Tag)
  /-- After the equals sign of an attribute. -/
  | equals (tag : Tag)
  /-- In the value of an attribute, which goes on to the given quote or to a gap. -/
  | value (quote : Option CodePoint) (tag : Tag)
  /-- After a less-than sign and an exclamation mark. -/
  | mark
  /-- After these and a dash. -/
  | markDash
  /-- In a comment. -/
  | comment (place : CommentPlace)
  /-- In a declaration, which goes on to the next greater-than sign. -/
  | declaration

namespace Place

/-- A step outside of tags. -/
def inContent (holder : Option Text) (p : CodePoint) : Place × Option Tag :=
  if p = .char '<' then (less holder, none) else (content holder, none)

/-- A step in a tag where an attribute may start. -/
def inTag (tag : Tag) (p : CodePoint) : Place × Option Tag :=
  if isGap p || p = .char '/' then (between tag, none)
  else if p = .char '>' then (content tag.holder, some tag)
  else (attributeName (tag.addAttribute p), none)

/-- Whether a name in a tag ends at a code point. -/
def endsName (p : CodePoint) : Bool := isGap p || p = .char '/' || p = .char '>'

/-- Where a reader stands one code point later, and the tag that ends with it, if one does. -/
def next : Place → CodePoint → Place × Option Tag
  | content holder, p => inContent holder p
  | less none, p =>
    if p = .char '/' then (slash none, none)
    else if p = .char '!' then (mark, none)
    else if p = .char '?' then (declaration, none)
    else if p.isAsciiLetter then (name { name := [small p] }, none)
    else inContent none p
  | less (some holder), p =>
    if p = .char '/' then (slash (some holder), none) else inContent (some holder) p
  | slash none, p =>
    if p.isAsciiLetter then (name { closes := true, name := [small p] }, none)
    else if p = .char '>' then (content none, none)
    else (declaration, none)
  | slash (some holder), p =>
    if p.isAsciiLetter then (ending holder [small p], none) else inContent (some holder) p
  | ending holder found, p =>
    if p.isAsciiLetter then (ending holder (found ++ [small p]), none)
    else if found = holder && endsName p then inTag { closes := true, name := found } p
    else inContent (some holder) p
  | name tag, p => if endsName p then inTag tag p else (name (tag.extendName p), none)
  | between tag, p => inTag tag p
  | attributeName tag, p =>
    if p = .char '=' then (equals tag, none)
    else if isGap p then (behind tag, none)
    else if endsName p then inTag tag p
    else (attributeName (tag.extendAttribute p), none)
  | behind tag, p =>
    if p = .char '=' then (equals tag, none)
    else if isGap p then (behind tag, none)
    else inTag tag p
  | equals tag, p =>
    if isGap p then (equals tag, none)
    else if p = .char '"' || p = .char '\'' then (value (some p) tag, none)
    else if p = .char '>' then inTag tag p
    else (value none tag, none)
  | value (some quote) tag, p =>
    if p = quote then (between tag, none) else (value (some quote) tag, none)
  | value none tag, p =>
    if isGap p || p = .char '>' then inTag tag p else (value none tag, none)
  | mark, p =>
    if p = .char '-' then (markDash, none)
    else if p = .char '>' then (content none, none)
    else (declaration, none)
  | markDash, p =>
    if p = .char '-' then (comment .start, none)
    else if p = .char '>' then (content none, none)
    else (declaration, none)
  | comment place, p =>
    match place.next p with
    | some place => (comment place, none)
    | none => (content none, none)
  | declaration, p => if p = .char '>' then (content none, none) else (declaration, none)

end Place

/-- What is read from a place on: where the reader stands at the end, and the tags it has found. -/
def read : Place → Text → Place × List Tag
  | place, [] => (place, [])
  | place, p :: t =>
    let (following, tag?) := place.next p
    let (last, tags) := read following t
    (last, tag?.toList ++ tags)

/-- The tags in a text. -/
def tagsIn (t : Text) : List Tag := (read (.content none) t).2

/-- A comment and a tag in an element of text are no tags, and values may be quoted or bare. -/
example : tagsIn "<!-- <b> --><A href='>' x=1><title><i></title></A>" =
    [{ name := "a", attributes := ["href", "x"] }, { name := "title" },
      { closes := true, name := "title" }, { closes := true, name := "a" }] := by decide

/-! ## Reading on -/

/-- From one place to another the reader finds the given tags. -/
def Reads (place : Place) (t : Text) (tags : List Tag) (last : Place) : Prop :=
  read place t = (last, tags)

namespace Reads

theorem nil (place : Place) : Reads place [] [] place := rfl

theorem cons {place following last : Place} {p : CodePoint} {t : Text} {tag? : Option Tag}
    {tags : List Tag} (hp : place.next p = (following, tag?)) (ht : Reads following t tags last) :
    Reads place (p :: t) (tag?.toList ++ tags) last := by
  unfold Reads at ht ⊢
  rw [read, hp]
  simp only [ht]

theorem append {first second third : Place} {u v : Text} {tags tags' : List Tag}
    (hu : Reads first u tags second) (hv : Reads second v tags' third) :
    Reads first (u ++ v) (tags ++ tags') third := by
  induction u generalizing first tags with
  | nil =>
    cases hu
    exact hv
  | cons p u ih =>
    unfold Reads at hu
    rw [read] at hu
    cases hrest : read (first.next p).1 u with
    | mk last found =>
      simp only [hrest, Prod.mk.injEq] at hu
      obtain ⟨rfl, rfl⟩ := hu
      rw [List.append_assoc]
      exact cons rfl (ih hrest)

theorem tagsIn_eq {t : Text} {tags : List Tag} {last : Place}
    (h : Reads (.content none) t tags last) : tagsIn t = tags := by
  rw [tagsIn, h]

end Reads

/-! ## Escaped text -/

/-- The signs that tags and quoted values are told apart by do not stand in escaped text. -/
theorem not_mem_escape {p : CodePoint}
    (hp : p ∈ [CodePoint.char '<', .char '>', .char '"', .char '\'']) (t : Text) :
    p ∉ escape t := by
  intro hmem
  obtain ⟨q, -, hq⟩ := List.mem_flatMap.1 hmem
  have hplain : p ∉ ("&amp;" : Text) ∧ p ∉ ("&lt;" : Text) ∧ p ∉ ("&gt;" : Text) ∧
      p ∉ ("&#34;" : Text) ∧ p ∉ ("&#39;" : Text) := by
    clear hmem hq
    revert p
    decide
  unfold escapePoint at hq
  split at hq
  case h_1 => exact hplain.1 hq
  case h_2 => exact hplain.2.1 hq
  case h_3 => exact hplain.2.2.1 hq
  case h_4 => exact hplain.2.2.2.1 hq
  case h_5 => exact hplain.2.2.2.2 hq
  case h_6 =>
    -- A code point that is kept is none of the four, each of which has a case of its own.
    rw [List.mem_singleton] at hq
    subst hq
    simp only [List.mem_cons, List.not_mem_nil, or_false] at hp
    rcases hp with rfl | rfl | rfl | rfl <;> simp_all

/-- Text without a less-than sign has no tags. -/
theorem reads_content {t : Text} (ht : .char '<' ∉ t) (holder : Option Text) :
    Reads (.content holder) t [] (.content holder) := by
  induction t with
  | nil => exact .nil _
  | cons p t ih =>
    rw [List.mem_cons, not_or] at ht
    have hp : (Place.content holder).next p = (.content holder, none) := by
      rw [Place.next, Place.inContent, if_neg (Ne.symm ht.1)]
    exact .cons hp (ih ht.2)

theorem reads_escape (t : Text) (holder : Option Text) :
    Reads (.content holder) (escape t) [] (.content holder) :=
  reads_content (not_mem_escape (by decide) t) holder

/-- A value goes on to its quote. -/
theorem reads_value {quote : CodePoint} {t : Text} (ht : quote ∉ t) (tag : Tag) :
    Reads (.value (some quote) tag) t [] (.value (some quote) tag) := by
  induction t with
  | nil => exact .nil _
  | cons p t ih =>
    rw [List.mem_cons, not_or] at ht
    have hp : (Place.value (some quote) tag).next p = (.value (some quote) tag, none) := by
      rw [Place.next, if_neg (Ne.symm ht.1)]
    exact .cons hp (ih ht.2)

/-! ## Written tags -/

/-- A code point of the names of tags and attributes that pages are written with. -/
def isNamePoint (p : CodePoint) : Bool :=
  (0x61 ≤ p.value && p.value ≤ 0x7A) || (0x30 ≤ p.value && p.value ≤ 0x39)

/-- A name that pages are written with. -/
def isName : Text → Bool
  | [] => false
  | p :: t => p.isAsciiLetter && isNamePoint p && t.all isNamePoint

section NamePoint

variable {p : CodePoint} (h : isNamePoint p = true)
include h

theorem ne_of_isNamePoint {q : CodePoint} (hq : isNamePoint q = false) : p ≠ q := by
  rintro rfl
  rw [h] at hq
  cases hq

theorem small_of_isNamePoint : small p = p := by
  simp only [isNamePoint, Bool.or_eq_true, Bool.and_eq_true, decide_eq_true_eq] at h
  rw [small, if_neg]
  simp only [Bool.and_eq_true, decide_eq_true_eq]
  omega

theorem isGap_of_isNamePoint : isGap p = false := by
  have hgaps : ∀ q ∈ [CodePoint.char ' ', .char '\t', .char '\n', .char '\x0c', .char '\r'],
      isNamePoint q = false := by decide
  rw [← Bool.not_eq_true, isGap, List.contains_iff_mem]
  exact fun hmem => ne_of_isNamePoint h (hgaps p hmem) rfl

theorem endsName_of_isNamePoint : Place.endsName p = false := by
  rw [Place.endsName, isGap_of_isNamePoint h, decide_eq_false (ne_of_isNamePoint h (by decide)),
    decide_eq_false (ne_of_isNamePoint h (by decide))]
  rfl

end NamePoint

theorem exists_of_isName {name : Text} (h : isName name = true) :
    ∃ p t, name = p :: t ∧ p.isAsciiLetter = true ∧ isNamePoint p = true ∧
      ∀ q ∈ t, isNamePoint q = true := by
  cases name with
  | nil => cases h
  | cons p t =>
    rw [isName, Bool.and_eq_true, Bool.and_eq_true, List.all_eq_true] at h
    exact ⟨p, t, rfl, h.1.1, h.1.2, h.2⟩

/-- The name of a tag goes on to what ends it. -/
theorem reads_name {t : Text} (ht : ∀ p ∈ t, isNamePoint p = true) (tag : Tag) :
    Reads (.name tag) t [] (.name { tag with name := tag.name ++ t }) := by
  induction t generalizing tag with
  | nil =>
    rw [List.append_nil]
    exact .nil _
  | cons p t ih =>
    rw [List.forall_mem_cons] at ht
    have hp : (Place.name tag).next p = (.name { tag with name := tag.name ++ [p] }, none) := by
      rw [Place.next, endsName_of_isNamePoint ht.1, if_neg Bool.false_ne_true, Tag.extendName,
        small_of_isNamePoint ht.1]
    have hrest := ih ht.2 { tag with name := tag.name ++ [p] }
    rw [List.append_assoc] at hrest
    exact .cons hp hrest

/-- The name of an attribute goes on to what ends it. -/
theorem reads_attributeName {t : Text} (ht : ∀ p ∈ t, isNamePoint p = true) (tag : Tag)
    (names : List Text) (name : Text) :
    Reads (.attributeName { tag with attributes := names ++ [name] }) t []
      (.attributeName { tag with attributes := names ++ [name ++ t] }) := by
  induction t generalizing name with
  | nil =>
    rw [List.append_nil]
    exact .nil _
  | cons p t ih =>
    rw [List.forall_mem_cons] at ht
    have hp : (Place.attributeName { tag with attributes := names ++ [name] }).next p =
        (.attributeName { tag with attributes := names ++ [name ++ [p]] }, none) := by
      rw [Place.next, if_neg (ne_of_isNamePoint ht.1 (by decide)), isGap_of_isNamePoint ht.1,
        if_neg Bool.false_ne_true, endsName_of_isNamePoint ht.1, if_neg Bool.false_ne_true,
        Tag.extendAttribute, small_of_isNamePoint ht.1, List.dropLast_concat,
        List.getLast?_concat, Option.getD_some]
    have hrest := ih ht.2 (name ++ [p])
    rw [List.append_assoc] at hrest
    exact .cons hp hrest

/-- In a tag, where an attribute can follow. -/
def IsIn (tag : Tag) (place : Place) : Prop := place = .name tag ∨ place = .between tag

/-- An attribute is read with its name, whatever its value is. -/
theorem reads_attribute {tag : Tag} {place : Place} (hplace : IsIn tag place) {name : Text}
    (hname : isName name = true) (value : Text) :
    Reads place (" " ++ name ++ "=\"" ++ escape value ++ "\"") []
      (.between { tag with attributes := tag.attributes ++ [name] }) := by
  obtain ⟨p, t, rfl, -, hp, ht⟩ := exists_of_isName hname
  have hgap : Reads place " " [] (.between tag) := by
    rcases hplace with rfl | rfl <;> rfl
  have hfirst : (Place.between tag).next p =
      (.attributeName { tag with attributes := tag.attributes ++ [[p]] }, none) := by
    rw [Place.next, Place.inTag, isGap_of_isNamePoint hp,
      decide_eq_false (ne_of_isNamePoint hp (by decide)), Bool.or_false, if_neg Bool.false_ne_true,
      if_neg (ne_of_isNamePoint hp (by decide)), Tag.addAttribute, small_of_isNamePoint hp]
  have hattribute := Reads.cons hfirst (reads_attributeName ht tag tag.attributes [p])
  have hopen (tag : Tag) : Reads (.attributeName tag) "=\"" [] (.value (some (.char '"')) tag) := rfl
  have hclose (tag : Tag) : Reads (.value (some (.char '"')) tag) "\"" [] (.between tag) := rfl
  have hvalue := reads_value (not_mem_escape (p := .char '"') (by decide) value)
  exact ((((hgap.append hattribute).append (hopen _)).append (hvalue _))).append (hclose _)

theorem reads_attributes (tag : Tag) {place : Place} (hplace : IsIn tag place)
    {attributes : List (Text × Text)} (hnames : ∀ a ∈ attributes, isName a.1 = true) :
    ∃ last, IsIn { tag with attributes := tag.attributes ++ attributes.map (·.1) } last ∧
      Reads place (attributesText attributes) [] last := by
  induction attributes generalizing tag place with
  | nil =>
    rw [List.map_nil, List.append_nil]
    exact ⟨place, hplace, .nil place⟩
  | cons a attributes ih =>
    rw [List.forall_mem_cons] at hnames
    obtain ⟨last, hlast, hreads⟩ :=
      ih { tag with attributes := tag.attributes ++ [a.1] } (.inr rfl) hnames.2
    rw [List.append_assoc] at hlast
    exact ⟨last, hlast, (reads_attribute hplace hnames.1 a.2).append hreads⟩

/-- A tag that starts an element is read with the names of its attributes. -/
theorem reads_start {name : Text} (hname : isName name = true) {attributes : List (Text × Text)}
    (hnames : ∀ a ∈ attributes, isName a.1 = true) :
    Reads (.content none) ("<" ++ name ++ attributesText attributes ++ ">")
      [{ name, attributes := attributes.map (·.1) }]
      (.content (Tag.holder { name, attributes := attributes.map (·.1) })) := by
  obtain ⟨p, t, rfl, hletter, hp, ht⟩ := exists_of_isName hname
  have hfirst : (Place.less none).next p = (.name { name := [p] }, none) := by
    rw [Place.next, if_neg (ne_of_isNamePoint hp (by decide)),
      if_neg (ne_of_isNamePoint hp (by decide)), if_neg (ne_of_isNamePoint hp (by decide)),
      if_pos hletter, small_of_isNamePoint hp]
  have hless : Reads (.content none) "<" [] (.less none) := rfl
  have hpart := hless.append (.cons hfirst (reads_name ht { name := [p] }))
  obtain ⟨last, hlast, hreads⟩ := reads_attributes { name := p :: t } (.inl rfl) hnames
  have hend : Reads last ">" [{ name := p :: t, attributes := attributes.map (·.1) }]
      (.content (Tag.holder { name := p :: t, attributes := attributes.map (·.1) })) := by
    rcases hlast with rfl | rfl <;> rfl
  exact (hpart.append hreads).append hend

/-- A tag that ends an element is read as such. -/
theorem reads_end {name : Text} (hname : isName name = true) :
    Reads (.content none) ("</" ++ name ++ ">") [{ closes := true, name }] (.content none) := by
  obtain ⟨p, t, rfl, hletter, hp, ht⟩ := exists_of_isName hname
  have hfirst : (Place.slash none).next p = (.name { closes := true, name := [p] }, none) := by
    rw [Place.next, if_pos hletter, small_of_isNamePoint hp]
  have hslash : Reads (.content none) "</" [] (.slash none) := rfl
  have hpart := hslash.append (.cons hfirst (reads_name ht { closes := true, name := [p] }))
  exact hpart.append rfl

/-- An element that holds nothing but text ends with its own tag. -/
theorem reads_ending {name : Text} (hname : name ∈ textElements) :
    Reads (.content (some name)) ("</" ++ name ++ ">") [{ closes := true, name }]
      (.content none) := by
  simp only [textElements, List.mem_cons, List.not_mem_nil, or_false] at hname
  rcases hname with rfl | rfl | rfl | rfl | rfl | rfl | rfl | rfl <;> rfl

/-! ## Written parts of pages -/

/-- The tags of an element with those of what is in it. -/
def within (name : Text) (attributes : List Text) (tags : List Tag) : List Tag :=
  { name, attributes } :: (tags ++ [{ closes := true, name }])

mutual

/-- The tags of a part of a page in their order. -/
def tags : Markup → List Tag
  | .text _ => []
  | .void name attributes => [{ name, attributes := attributes.map (·.1) }]
  | .element name attributes children => within name (attributes.map (·.1)) (tagsAll children)
  | .sheet _ => within "style" [] []

/-- The tags of parts of a page one after the other. -/
def tagsAll : List Markup → List Tag
  | [] => []
  | m :: ms => tags m ++ tagsAll ms

end

theorem tags_element (name : Text) (attributes : List (Text × Text)) (children : List Markup) :
    (element name attributes children).tags =
      within name (attributes.map (·.1)) (tagsAll children) := by
  rw [tags]

theorem tagsAll_nil : tagsAll [] = [] := by rw [tagsAll]

theorem tagsAll_text (t : Text) (ms : List Markup) : tagsAll (.text t :: ms) = tagsAll ms := by
  rw [tagsAll, tags, List.nil_append]

theorem tagsAll_void (name : Text) (attributes : List (Text × Text)) (ms : List Markup) :
    tagsAll (.void name attributes :: ms) =
      { name, attributes := attributes.map (·.1) } :: tagsAll ms := by
  rw [tagsAll, tags, List.singleton_append]

theorem tagsAll_element (name : Text) (attributes : List (Text × Text))
    (children ms : List Markup) :
    tagsAll (.element name attributes children :: ms) =
      within name (attributes.map (·.1)) (tagsAll children) ++ tagsAll ms := by
  rw [tagsAll, tags]

theorem tagsAll_sheet (t : Text) (ms : List Markup) :
    tagsAll (.sheet t :: ms) = within "style" [] [] ++ tagsAll ms := by
  rw [tagsAll, tags]

theorem tagsAll_append (ms ns : List Markup) : tagsAll (ms ++ ns) = tagsAll ms ++ tagsAll ns := by
  induction ms with
  | nil => rfl
  | cons m ms ih => rw [List.cons_append, tagsAll, tagsAll, ih, List.append_assoc]

mutual

/-- A part of a page that can be read: it has names that end where they should, and an element of
text holds text only. -/
def IsReadable : Markup → Prop
  | .text _ => True
  | .void name attributes =>
    isName name = true ∧ name ∉ textElements ∧ ∀ a ∈ attributes, isName a.1 = true
  | .element name attributes children =>
    isName name = true ∧ (∀ a ∈ attributes, isName a.1 = true) ∧
      ((name ∈ textElements ∧ ∃ ts : List Text, children = ts.map .text) ∨
        (name ∉ textElements ∧ AreReadable children))
  | .sheet t => .char '<' ∉ t

/-- Parts of a page that can be read. -/
def AreReadable : List Markup → Prop
  | [] => True
  | m :: ms => IsReadable m ∧ AreReadable ms

end

theorem areReadable_iff {ms : List Markup} : AreReadable ms ↔ ∀ m ∈ ms, m.IsReadable := by
  induction ms with
  | nil => simp [AreReadable]
  | cons m ms ih => rw [AreReadable, ih, List.forall_mem_cons]

theorem areReadable_append {ms ns : List Markup} :
    AreReadable (ms ++ ns) ↔ AreReadable ms ∧ AreReadable ns := by
  simp only [areReadable_iff, List.forall_mem_append]

theorem tagsAll_texts (ts : List Text) : tagsAll (ts.map .text) = [] := by
  induction ts with
  | nil => rfl
  | cons t ts ih => rw [List.map_cons, tagsAll_text, ih]

/-- Texts in an element are read as text, and the element goes on. -/
theorem reads_texts (ts : List Text) (holder : Option Text) :
    Reads (.content holder) (writeAll (ts.map .text)) [] (.content holder) := by
  induction ts with
  | nil => exact .nil _
  | cons t ts ih => exact (reads_escape t holder).append ih

theorem holder_of_mem {name : Text} (h : name ∈ textElements) (attributes : List Text) :
    Tag.holder { name, attributes } = some name := by
  rw [Tag.holder, Bool.not_false, Bool.true_and, if_pos (List.contains_iff_mem.2 h)]

theorem holder_of_not_mem {name : Text} (h : name ∉ textElements) (attributes : List Text) :
    Tag.holder { name, attributes } = none := by
  rw [Tag.holder, Bool.not_false, Bool.true_and,
    if_neg fun hcontains => h (List.contains_iff_mem.1 hcontains)]

mutual

/-- **A part of a page is read as it is meant**: its tags are found, whatever its texts and the values
of its attributes are. -/
theorem reads_write : ∀ (m : Markup), m.IsReadable →
    Reads (.content none) m.write m.tags (.content none)
  | .text t, _ => reads_escape t none
  | .void name attributes, h => by
    obtain ⟨hname, htext, hnames⟩ := h
    have hstart := reads_start hname hnames
    rw [holder_of_not_mem htext] at hstart
    exact hstart
  | .element name attributes children, h => by
    obtain ⟨hname, hnames, hchildren⟩ := h
    have hstart := reads_start hname hnames
    have hbody : Reads (.content (Tag.holder { name, attributes := attributes.map (·.1) }))
        (writeAll children ++ ("</" ++ name ++ ">"))
        (tagsAll children ++ [{ closes := true, name }]) (.content none) := by
      rcases hchildren with ⟨htext, ts, rfl⟩ | ⟨htext, hchildren⟩
      · rw [holder_of_mem htext, tagsAll_texts]
        exact (reads_texts ts _).append (reads_ending htext)
      · rw [holder_of_not_mem htext]
        exact (reads_writeAll children hchildren).append (reads_end hname)
    have helement := hstart.append hbody
    simp only [write, List.append_assoc] at helement ⊢
    exact helement
  | .sheet t, h => by
    have hstart : Reads (.content none) "<style>" [{ name := "style" }] (.content (some "style")) :=
      rfl
    have hend : Reads (.content (some "style")) "</style>" [{ closes := true, name := "style" }]
        (.content none) := rfl
    exact (hstart.append (reads_content h _)).append hend

/-- Parts of a page are read one after the other. -/
theorem reads_writeAll : ∀ (ms : List Markup), AreReadable ms →
    Reads (.content none) (writeAll ms) (tagsAll ms) (.content none)
  | [], _ => .nil _
  | m :: ms, h => (reads_write m h.1).append (reads_writeAll ms h.2)

end

end LvglForest.Markup
