import LvglForest.Source.Pattern
import LvglForest.Proofs.Source.Arguments
import LvglForest.Proofs.Text.Infix

/-!
# Calls in a line

The search for a pattern goes from word to word. At a word that stands before neither an opening
parenthesis nor an equals sign nothing is found (`search?_uncalled`), so the search passes over
arguments (`PassedBy`) and what is found in a line with one call depends on the name of that call
alone (`find?_call`).

Every name that a pattern accepts has the beginning that the pattern asks for
(`NamePattern.first_prefix`), so nothing is found in a text where that beginning does not occur
(`search?_of_not_infix`).
-/

namespace LvglForest

/-! ## Names -/

namespace NamePattern

/-- What every accepted name starts with. -/
def first : NamePattern → Text
  | .exactly name => name
  | .between first _ => first
  | .oneOf first _ => first
  | .startingWith first => first

theorem first_prefix {n : NamePattern} {w : Text} {gs : List Text} (h : n.groups? w = some gs) :
    n.first <+: w := by
  cases n with
  | exactly name =>
    rw [groups?] at h
    split at h
    · next hw => rw [first, hw]
    · cases h
  | between start last =>
    rw [groups?] at h
    split at h
    · next hw =>
      simp only [Bool.and_eq_true] at hw
      exact List.isPrefixOf_iff_prefix.1 hw.1.1
    · cases h
  | oneOf start endings =>
    rw [groups?] at h
    split at h
    · next r hr => exact ⟨r, (List.isPrefixOf?_eq_some_iff_append_eq.1 hr)⟩
    · cases h
  | startingWith start =>
    rw [groups?] at h
    split at h
    · next r hr => exact ⟨r, (List.isPrefixOf?_eq_some_iff_append_eq.1 hr)⟩
    · cases h

/-- What accepted names end in: one of these. -/
def endings : NamePattern → List Text
  | .exactly name => [name]
  | .between _ last => [last]
  | .oneOf first endings => endings.map (first ++ ·)
  | .startingWith _ => [[]]

theorem exists_ending {n : NamePattern} {w : Text} {gs : List Text} (h : n.groups? w = some gs) :
    ∃ e ∈ n.endings, e <:+ w := by
  cases n with
  | exactly name =>
    rw [groups?] at h
    split at h
    · next hw => exact ⟨name, List.mem_singleton_self _, by rw [hw]⟩
    · cases h
  | between start last =>
    rw [groups?] at h
    split at h
    · next hw =>
      simp only [Bool.and_eq_true] at hw
      exact ⟨last, List.mem_singleton_self _, List.isSuffixOf_iff_suffix.1 hw.1.2⟩
    · cases h
  | oneOf start list =>
    rw [groups?] at h
    split at h
    · next r hr =>
      split at h
      · next hmem =>
        have hr := List.isPrefixOf?_eq_some_iff_append_eq.1 hr
        exact ⟨start ++ r, List.mem_map_of_mem (List.contains_iff_mem.1 hmem), by rw [hr]⟩
      · cases h
    · cases h
  | startingWith start => exact ⟨[], List.mem_singleton_self _, List.nil_suffix⟩

/-- A name that ends otherwise than every accepted name is not accepted. -/
theorem groups?_of_ending {n : NamePattern} {w last : Text} (hlast : last <:+ w)
    (h : ∀ e ∈ n.endings, ¬ e <:+ last ∧ ¬ last <:+ e) : n.groups? w = none := by
  cases hgs : n.groups? w with
  | none => rfl
  | some gs =>
    obtain ⟨e, he, hew⟩ := exists_ending hgs
    rcases List.suffix_or_suffix_of_suffix hew hlast with hs | hs
    · exact absurd hs (h e he).1
    · exact absurd hs (h e he).2

end NamePattern

namespace CallPattern

/-- The names that a pattern looks for. -/
def name : CallPattern → NamePattern
  | .call n => n
  | .assignedCall n => n

/-- A call of a function of the given name alone is not what the pattern looks for. -/
def Rejects (pattern : CallPattern) (f : Text) : Prop :=
  match pattern with
  | .call n => n.groups? f = none
  | .assignedCall _ => True

instance (pattern : CallPattern) (f : Text) : Decidable (pattern.Rejects f) :=
  match pattern with
  | .call n => inferInstanceAs (Decidable (n.groups? f = none))
  | .assignedCall _ => inferInstanceAs (Decidable True)

/-! ## From word to word -/

variable (pattern : CallPattern)

theorem search?_cons {p : CodePoint} (hp : p.isWord = false) (inWord : Bool) (t : Text) :
    search? pattern inWord (p :: t) = search? pattern false t := by
  rw [search?, if_neg (by simp [hp]), hp]

theorem search?_endsWord {r : Text} (hr : r.EndsWord) (inWord : Bool) :
    search? pattern inWord r = search? pattern false r := by
  cases r with
  | nil => cases inWord <;> rfl
  | cons p r => rw [search?_cons pattern (hr p rfl), search?_cons pattern (hr p rfl)]

theorem search?_inWord {w r : Text} (hw : ∀ p ∈ w, p.isWord = true) (hr : r.EndsWord) :
    search? pattern true (w ++ r) = search? pattern false r := by
  induction w with
  | nil => exact search?_endsWord pattern hr true
  | cons p w ih =>
    rw [List.forall_mem_cons] at hw
    rw [List.cons_append, search?, if_neg (by simp), hw.1, ih hw.2]

/-- At a word the pattern fits or the search goes on after the word. -/
theorem search?_word {w r : Text} (hw : w.IsWord) (hr : r.EndsWord) :
    search? pattern false (w ++ r) = (siteAt? pattern (w ++ r)).or (search? pattern false r) := by
  obtain ⟨p, w, rfl⟩ := List.exists_cons_of_ne_nil hw.ne_nil
  have hall := List.forall_mem_cons.1 hw.all
  rw [List.cons_append, search?, if_pos ⟨hall.1, by simp⟩, search?_inWord pattern hall.2 hr]
  cases siteAt? pattern (p :: (w ++ r)) <;> rfl

theorem callAt?_word (n : NamePattern) {w r : Text} (hw : w.IsWord) (hr : r.EndsWord) :
    callAt? n (w ++ r) =
      (n.groups? w).bind fun gs =>
        if (r.dropWhile CodePoint.isBlank).head? = some (.char '(') then
          some ⟨w, gs, r.dropWhile CodePoint.isBlank⟩ else none := by
  rw [callAt?, Text.takeWhile_word hw.all hr, Text.dropWhile_word hw.all hr]
  cases n.groups? w <;> rfl

/-- After blanks, a text goes on neither with a parenthesis nor with an equals sign. -/
def Uncalled (r : Text) : Prop :=
  ∀ p, (r.dropWhile CodePoint.isBlank).head? = some p → p ≠ .char '(' ∧ p ≠ .char '='

theorem siteAt?_uncalled {w r : Text} (hw : w.IsWord) (hr : r.EndsWord) (hu : Uncalled r) :
    siteAt? pattern (w ++ r) = none := by
  cases pattern with
  | call n =>
    rw [siteAt?, callAt?_word n hw hr]
    simp only [if_neg fun h => (hu _ h).1 rfl]
    cases n.groups? w <;> rfl
  | assignedCall n =>
    simp only [siteAt?, Text.takeWhile_word hw.all hr, Text.dropWhile_word hw.all hr]
    split
    · next hs => exact absurd rfl (hu (.char '=') (by rw [hs]; rfl)).2
    · rfl

theorem search?_uncalled {w r : Text} (hw : w.IsWord) (hr : r.EndsWord) (hu : Uncalled r) :
    search? pattern false (w ++ r) = search? pattern false r := by
  rw [search?_word pattern hw hr, siteAt?_uncalled pattern hw hr hu, Option.none_or]

/-- A call is found only before a parenthesis. -/
theorem search?_call_uncalled (n : NamePattern) {w r : Text} (hw : w.IsWord) (hr : r.EndsWord)
    (hu : (r.dropWhile CodePoint.isBlank).head? ≠ some (.char '(')) :
    search? (.call n) false (w ++ r) = search? (.call n) false r := by
  have hsite : siteAt? (.call n) (w ++ r) = none := by
    rw [siteAt?, callAt?_word n hw hr]
    simp only [if_neg hu]
    cases n.groups? w <;> rfl
  rw [search?_word _ hw hr, hsite, Option.none_or]

/-- At a call of a rejected name the search goes on after the parenthesis. -/
theorem search?_rejected {w : Text} (hw : w.IsWord) (hrej : pattern.Rejects w) (t : Text) :
    search? pattern false (w ++ .char '(' :: t) = search? pattern false t := by
  have hr : Text.EndsWord (.char '(' :: t) := Text.endsWord_cons rfl t
  have hsite : siteAt? pattern (w ++ .char '(' :: t) = none := by
    cases pattern with
    | call n =>
      rw [siteAt?, callAt?_word n hw hr, show n.groups? w = none from hrej]
      rfl
    | assignedCall n =>
      simp only [siteAt?, Text.takeWhile_word hw.all hr, Text.dropWhile_word hw.all hr]
      rfl
  rw [search?_word pattern hw hr, hsite, Option.none_or, search?_cons pattern rfl]

/-! ## Arguments -/

/-- A text between parentheses and commas in which nothing is found. -/
def PassedBy (u : Text) : Prop :=
  ∀ p t, p = .char ',' ∨ p = .char ')' →
    search? pattern false (u ++ p :: t) = search? pattern false t

variable {pattern}

theorem PassedBy.of_isWord {w : Text} (hw : w.IsWord) : pattern.PassedBy w := by
  intro p t hp
  have hword : p.isWord = false := by rcases hp with rfl | rfl <;> rfl
  have hu : Uncalled (p :: t) := by
    intro q hq
    rcases hp with rfl | rfl <;> cases hq <;> decide
  rw [search?_uncalled pattern hw (Text.endsWord_cons hword t) hu, search?_cons pattern hword]

/-- A sign or an address operator before an argument changes nothing. -/
theorem PassedBy.cons {p : CodePoint} (hp : p.isWord = false) {u : Text}
    (hu : pattern.PassedBy u) : pattern.PassedBy (p :: u) := by
  intro q t hq
  rw [List.cons_append, search?_cons pattern hp, hu q t hq]

/-- Nor does a call of a rejected name around one. -/
theorem PassedBy.call {w u : Text} (hw : w.IsWord) (hrej : pattern.Rejects w)
    (hu : pattern.PassedBy u) : pattern.PassedBy (w ++ .char '(' :: u ++ [.char ')']) := by
  intro p t hp
  have hword : p.isWord = false := by rcases hp with rfl | rfl <;> rfl
  rw [List.append_assoc, List.append_assoc, List.cons_append, search?_rejected pattern hw hrej]
  exact (hu _ _ (.inr rfl)).trans (search?_cons pattern hword false t)

/-- The search passes over arguments up to a comma or the closing parenthesis. -/
theorem search?_join {args : List Text} (h : ∀ a ∈ args, pattern.PassedBy a) {p : CodePoint}
    (hp : p = .char ',' ∨ p = .char ')') (t : Text) :
    search? pattern false (Text.join ", " args ++ p :: t) = search? pattern false t := by
  have hword : p.isWord = false := by rcases hp with rfl | rfl <;> rfl
  induction args with
  | nil => exact search?_cons pattern hword false t
  | cons a args ih =>
    rw [List.forall_mem_cons] at h
    cases args with
    | nil => exact h.1 p t hp
    | cons b args =>
      have hjoin : Text.join ", " (a :: b :: args) ++ p :: t =
          a ++ .char ',' :: (.char ' ' :: (Text.join ", " (b :: args) ++ p :: t)) := by
        rw [Text.join]
        simp only [List.append_assoc]
        rfl
      rw [hjoin, h.1 _ _ (.inl rfl), search?_cons pattern rfl, ih h.2]

/-! ## Lines with one call -/

/-- What is found depends on where the search ends. -/
theorem find?_congr {line line' : Text}
    (h : search? pattern false line = search? pattern false line') :
    pattern.find? line = pattern.find? line' := by
  rw [find?, find?, h]

theorem find?_of_search? {line : Text} (h : search? pattern false line = none) :
    pattern.find? line = none := by
  rw [find?, h]

/-- At a call of an accepted name the search ends. -/
theorem search?_accepted {n : NamePattern} {f : Text} {gs : List Text} (hf : f.IsWord)
    (hgs : n.groups? f = some gs) (r : Text) :
    search? (.call n) false (f ++ .char '(' :: r) = some ⟨f, gs, .char '(' :: r⟩ := by
  have hr : Text.EndsWord (.char '(' :: r) := Text.endsWord_cons rfl r
  have hblank : (CodePoint.char '(').isBlank = false := rfl
  rw [search?_word _ hf hr, siteAt?, callAt?_word n hf hr, hgs]
  simp only [Option.bind_some, List.dropWhile_cons, hblank, Bool.false_eq_true, if_false,
    List.head?_cons, if_true, Option.some_or]

/-- A call that is not closed is not found, and nothing behind it is. -/
theorem find?_unclosed {n : NamePattern} {f : Text} {gs : List Text} (hf : f.IsWord)
    (hgs : n.groups? f = some gs) {r : Text} (hr : Arguments.capture (.char '(' :: r) = none) :
    (CallPattern.call n).find? (f ++ .char '(' :: r) = none := by
  rw [find?, search?_accepted hf hgs]
  simp only [hr, Option.map_none]

/-- **A call of an accepted name is found with its arguments.** -/
theorem find?_call {n : NamePattern} {f a : Text} {gs args : List Text} (hf : f.IsWord)
    (hgs : n.groups? f = some gs) (hargs : ∀ x ∈ a :: args, Arguments.IsArgument x) (r : Text) :
    (CallPattern.call n).find? (f ++ .char '(' :: (Text.join ", " (a :: args) ++ .char ')' :: r)) =
      some ⟨f, gs, a :: args⟩ := by
  have hnested : Arguments.Nested true (Text.join ", " (a :: args)) :=
    .join fun x hx => (hargs x hx).nested
  have hcapture := Arguments.capture_group hnested r
  rw [List.cons_append] at hcapture
  rw [find?, search?_accepted hf hgs]
  simp only [hcapture, Option.map_some, Arguments.split_join hargs]

/-! ## Lines without a parenthesis or the beginning of a name -/

theorem callAt?_mem {n : NamePattern} {t : Text} {s : CallSite} (h : callAt? n t = some s) :
    .char '(' ∈ t := by
  simp only [callAt?] at h
  split at h
  · cases h
  · split at h
    · next hopen =>
      exact (List.dropWhile_suffix _).subset
        ((List.dropWhile_suffix _).subset (List.mem_of_head? hopen))
    · cases h

theorem siteAt?_mem {t : Text} {s : CallSite} (h : siteAt? pattern t = some s) :
    .char '(' ∈ t := by
  cases pattern with
  | call n => exact callAt?_mem h
  | assignedCall n =>
    simp only [siteAt?] at h
    split at h
    · next afterSign hs =>
      split at h
      · cases h
      · next site hsite =>
        have hafter : .char '(' ∈ afterSign := (List.dropWhile_suffix _).subset (callAt?_mem hsite)
        have hbefore := List.mem_cons_of_mem (.char '=') hafter
        rw [← hs] at hbefore
        exact (List.dropWhile_suffix _).subset ((List.dropWhile_suffix _).subset hbefore)
    · cases h

theorem search?_of_not_mem {t : Text} (h : .char '(' ∉ t) (inWord : Bool) :
    search? pattern inWord t = none := by
  induction t generalizing inWord with
  | nil => rfl
  | cons p t ih =>
    have hrest : .char '(' ∉ t := fun ht => h (List.mem_cons_of_mem p ht)
    rw [search?]
    split
    · cases hs : siteAt? pattern (p :: t) with
      | none => exact ih hrest true
      | some s => exact absurd (siteAt?_mem hs) h
    · exact ih hrest _

theorem infix_of_callAt? {n : NamePattern} {t : Text} {s : CallSite} (h : callAt? n t = some s) :
    n.first <:+: t := by
  simp only [callAt?] at h
  split at h
  · cases h
  · next gs hgs =>
    exact (NamePattern.first_prefix hgs).isInfix.trans (List.takeWhile_prefix _).isInfix

theorem infix_of_siteAt? {t : Text} {s : CallSite} (h : siteAt? pattern t = some s) :
    pattern.name.first <:+: t := by
  cases pattern with
  | call n => exact infix_of_callAt? h
  | assignedCall n =>
    simp only [siteAt?] at h
    split at h
    · next afterSign hs =>
      split at h
      · cases h
      · next site hsite =>
        have hafter : afterSign <:+: t :=
          ((List.suffix_cons _ _).trans (hs ▸ List.dropWhile_suffix _)).isInfix.trans
            (List.dropWhile_suffix _).isInfix
        exact ((infix_of_callAt? hsite).trans (List.dropWhile_suffix _).isInfix).trans hafter
    · cases h

/-- **Nothing is found where the beginning of the names does not occur.** -/
theorem search?_of_not_infix {t : Text} (h : ¬ pattern.name.first <:+: t) (inWord : Bool) :
    search? pattern inWord t = none := by
  induction t generalizing inWord with
  | nil => rfl
  | cons p t ih =>
    have hrest : ¬ pattern.name.first <:+: t := fun ht => h (ht.trans (List.suffix_cons p t).isInfix)
    rw [search?]
    split
    · cases hs : siteAt? pattern (p :: t) with
      | none => exact ih hrest true
      | some s => exact absurd (infix_of_siteAt? hs) h
    · exact ih hrest _

end CallPattern

end LvglForest
