import LvglForest.Proofs.Source.Comment
import LvglForest.Proofs.Source.Pattern
import LvglForest.Source.Color

/-!
# What is read off a source

All that is read off a source text has its code points from there: the lines, the names and the
arguments of the calls (`CallPattern.subset_of_find?`), and the colours in them. Where a block
comment is taken out, a blank is new (`Comment.subset_strip`).
-/

namespace LvglForest

namespace Text

theorem strip_subset (t : Text) : t.strip ⊆ t := by
  obtain ⟨w, hw, -⟩ := exists_eq_stripEnd_append t.stripStart
  have hprefix : t.strip <+: t.stripStart := ⟨w, hw.symm⟩
  exact List.Subset.trans hprefix.subset (List.dropWhile_suffix _).subset

theorem subset_of_isPrefixOf? {f t r : Text} (h : f.isPrefixOf? t = some r) : r ⊆ t :=
  List.IsSuffix.subset ⟨f, List.isPrefixOf?_eq_some_iff_append_eq.1 h⟩

/-- A code point that is put before the first of some parts is the only one that is new. -/
theorem subset_of_mem_ontoFirst {p : CodePoint} {t part : Text} {parts : List Text}
    (h : ∀ u ∈ parts, u ⊆ t) (hpart : part ∈ ontoFirst p parts) : part ⊆ p :: t := by
  cases parts with
  | nil =>
    rw [ontoFirst, List.mem_singleton] at hpart
    rw [hpart]
    exact List.cons_subset_cons p (List.nil_subset t)
  | cons first rest =>
    rw [List.forall_mem_cons] at h
    rw [ontoFirst, List.mem_cons] at hpart
    rcases hpart with rfl | hpart
    · exact List.cons_subset_cons p h.1
    · exact List.subset_cons_of_subset p (h.2 part hpart)

/-- The code points of a line come from the text. -/
theorem subset_of_mem_lines (t : Text) : ∀ line ∈ lines t, line ⊆ t := by
  have hcons {p : CodePoint} {t : Text} (h : ∀ line ∈ lines t, line ⊆ t) :
      ∀ line ∈ [] :: lines t, line ⊆ p :: t :=
    List.forall_mem_cons.2 ⟨List.nil_subset _, fun line hline =>
      List.subset_cons_of_subset p (h line hline)⟩
  induction t using lines.induct with
  | case1 => exact fun line hline => absurd hline List.not_mem_nil
  | case2 t ih =>
    rw [lines]
    exact fun line hline => List.subset_cons_of_subset _ (hcons ih line hline)
  | case3 p t hpair hbreak ih =>
    rw [lines, if_pos hbreak]
    · exact hcons ih
    · exact hpair
  | case4 p t hpair hbreak ih =>
    rw [lines, if_neg hbreak]
    · exact fun line => subset_of_mem_ontoFirst ih
    · exact hpair

end Text

/-! ## Comments -/

namespace Comment

/-- Of what a line keeps only a blank may be new. -/
theorem subset_stripped : (∀ t, (stripBlock t).1 ⊆ .char ' ' :: t) ∧
    ∀ s t, (stripCode s t).1 ⊆ .char ' ' :: t := by
  have hskip {p : CodePoint} {t u : Text} (h : u ⊆ .char ' ' :: t) : u ⊆ .char ' ' :: p :: t :=
    List.Subset.trans h (List.cons_subset_cons _ (List.subset_cons_self p t))
  have hkeep {p : CodePoint} {t u : Text} (h : u ⊆ .char ' ' :: t) :
      p :: u ⊆ .char ' ' :: p :: t :=
    List.cons_subset.2 ⟨List.mem_cons_of_mem _ List.mem_cons_self, hskip h⟩
  apply stripBlock.mutual_induct
  case case1 => exact List.nil_subset _
  case case2 => exact fun t ih => List.cons_subset.2 ⟨List.mem_cons_self, hskip (hskip ih)⟩
  case case3 =>
    intro p t hend ih
    rw [stripBlock]
    · exact hskip ih
    · exact hend
  case case4 => exact fun s => List.nil_subset _
  case case5 => exact fun t => List.nil_subset _
  case case6 => exact fun t ih => hskip (hskip ih)
  case case7 =>
    intro s p t hline hblock ih
    rw [stripCode]
    · exact hkeep ih
    · exact hline
    · exact hblock

theorem subset_strip (inBlock : Bool) (line : Text) :
    (strip inBlock line).1 ⊆ .char ' ' :: line := by
  cases inBlock with
  | true => exact subset_stripped.1 line
  | false => exact subset_stripped.2 .code line

end Comment

/-! ## Calls -/

namespace Arguments

theorem subset_of_upToClosing {s : Lexical} {depth : Int} {t u : Text}
    (h : upToClosing s depth t = some u) : u ⊆ t := by
  have hkeep {p : CodePoint} {t : Text} {r : Option Text} (ih : ∀ u, r = some u → u ⊆ t) {u : Text}
      (h : r.map (p :: ·) = some u) : u ⊆ p :: t := by
    obtain ⟨v, hv, rfl⟩ := Option.map_eq_some_iff.1 h
    exact List.cons_subset_cons p (ih v hv)
  induction t generalizing s depth u with
  | nil => cases s <;> cases h
  | cons p t ih =>
    by_cases hs : s = .code
    · rw [hs, upToClosing] at h
      split at h
      · split at h
        · cases h
          exact List.nil_subset _
        · exact hkeep (fun _ => ih) h
      · exact hkeep (fun _ => ih) h
    · rw [upToClosing_in hs] at h
      exact hkeep (fun _ => ih) h

theorem subset_of_capture {t u : Text} (h : capture t = some u) : u ⊆ t := by
  obtain ⟨v, hv, rfl⟩ := Option.map_eq_some_iff.1 h
  exact List.Subset.trans (List.drop_subset 1 v) (subset_of_upToClosing hv)

theorem subset_of_mem_pieces {s : Lexical} {depth : Int} {t part : Text}
    (h : part ∈ pieces s depth t) : part ⊆ t := by
  induction t generalizing s depth part with
  | nil =>
    have hnil : pieces s depth [] = [[]] := by cases s <;> rfl
    rw [hnil, List.mem_singleton] at h
    rw [h]
    exact List.nil_subset []
  | cons p t ih =>
    by_cases hs : s = .code
    · rw [hs, pieces] at h
      split at h
      · rcases List.mem_cons.1 h with rfl | h
        · exact List.nil_subset _
        · exact List.subset_cons_of_subset p (ih h)
      · exact Text.subset_of_mem_ontoFirst (fun _ => ih) h
    · rw [pieces_in hs] at h
      exact Text.subset_of_mem_ontoFirst (fun _ => ih) h

theorem subset_of_mem_split {t a : Text} (h : a ∈ split t) : a ⊆ t := by
  unfold split at h
  split at h
  · cases h
  · obtain ⟨part, hpart, rfl⟩ := List.mem_map.1 h
    exact List.Subset.trans (Text.strip_subset part) (subset_of_mem_pieces hpart)

end Arguments

theorem NamePattern.subset_of_groups? {n : NamePattern} {w : Text} {gs : List Text}
    (h : n.groups? w = some gs) : ∀ g ∈ gs, g ⊆ w := by
  cases n with
  | exactly name =>
    rw [groups?] at h
    split at h <;> cases h
    exact fun g hg => absurd hg List.not_mem_nil
  | between first last =>
    rw [groups?] at h
    split at h <;> cases h
    exact List.forall_mem_singleton.2
      (List.Subset.trans (List.take_subset _ _) (List.drop_subset _ _))
  | oneOf first endings =>
    rw [groups?] at h
    split at h
    · next r hr =>
      split at h <;> cases h
      exact List.forall_mem_singleton.2 (Text.subset_of_isPrefixOf? hr)
    · cases h
  | startingWith first =>
    rw [groups?] at h
    split at h
    · next r hr =>
      split at h <;> cases h
      exact List.forall_mem_singleton.2 (Text.subset_of_isPrefixOf? hr)
    · cases h

namespace CallPattern

/-- The groups of a place and what follows come from a text. -/
def Within (t : Text) (s : CallSite) : Prop := (∀ g ∈ s.groups, g ⊆ t) ∧ s.rest ⊆ t

theorem Within.trans {t u : Text} {s : CallSite} (h : Within u s) (htu : u ⊆ t) : Within t s :=
  ⟨fun g hg => List.Subset.trans (h.1 g hg) htu, List.Subset.trans h.2 htu⟩

theorem within_of_callAt? {n : NamePattern} {t : Text} {s : CallSite}
    (h : callAt? n t = some s) : Within t s := by
  simp only [callAt?] at h
  split at h
  · cases h
  · next groups hgroups =>
    split at h <;> cases h
    refine ⟨fun g hg => ?_, ?_⟩
    · exact List.Subset.trans (NamePattern.subset_of_groups? hgroups g hg)
        (List.takeWhile_prefix _).subset
    · exact List.Subset.trans (List.dropWhile_suffix _).subset (List.dropWhile_suffix _).subset

theorem within_of_siteAt? {pattern : CallPattern} {t : Text} {s : CallSite}
    (h : siteAt? pattern t = some s) : Within t s := by
  cases pattern with
  | call n => exact within_of_callAt? h
  | assignedCall n =>
    simp only [siteAt?] at h
    split at h
    · next afterSign hs =>
      split at h
      · cases h
      · next site hsite =>
        cases h
        have hsign : .char '=' :: afterSign ⊆ t := hs ▸
          List.Subset.trans (List.dropWhile_suffix _).subset (List.dropWhile_suffix _).subset
        have hafter : afterSign ⊆ t := List.Subset.trans (List.subset_cons_self _ _) hsign
        obtain ⟨hgroups, hrest⟩ :=
          ((within_of_callAt? hsite).trans (List.dropWhile_suffix _).subset).trans hafter
        exact ⟨List.forall_mem_cons.2 ⟨(List.takeWhile_prefix _).subset, hgroups⟩, hrest⟩
    · cases h

theorem within_of_search? {pattern : CallPattern} {inWord : Bool} {t : Text} {s : CallSite}
    (h : pattern.search? inWord t = some s) : Within t s := by
  induction t generalizing inWord with
  | nil => cases h
  | cons p t ih =>
    rw [search?] at h
    split at h
    · split at h
      · next hsite =>
        cases h
        exact within_of_siteAt? hsite
      · exact (ih h).trans (List.subset_cons_self p t)
    · exact (ih h).trans (List.subset_cons_self p t)

/-- **The groups and the arguments of a call** come from the line. -/
theorem subset_of_find? {pattern : CallPattern} {line : Text} {call : Call}
    (h : pattern.find? line = some call) :
    (∀ g ∈ call.groups, g ⊆ line) ∧ ∀ a ∈ call.arguments, a ⊆ line := by
  unfold find? at h
  split at h
  · cases h
  · next site hsite =>
    obtain ⟨inner, hinner, rfl⟩ := Option.map_eq_some_iff.1 h
    obtain ⟨hgroups, hrest⟩ := within_of_search? hsite
    have harguments : inner ⊆ line := List.Subset.trans (Arguments.subset_of_capture hinner) hrest
    exact ⟨hgroups, fun a ha => List.Subset.trans (Arguments.subset_of_mem_split ha) harguments⟩

end CallPattern

/-! ## Colours -/

theorem Color.subset_of_hexArgument? {t u : Text} (h : hexArgument? t = some u) : u ⊆ t := by
  unfold hexArgument? at h
  split at h
  · cases h
  · next r hr =>
    split at h
    · next s hs =>
      split at h
      · next digits hdigits =>
        have hstart : .char '0' :: .char 'x' :: digits ⊆ t :=
          calc _ ⊆ s := hdigits ▸ (List.dropWhile_suffix _).subset
            _ ⊆ .char '(' :: s := List.subset_cons_self _ _
            _ ⊆ r := hs ▸ (List.dropWhile_suffix _).subset
            _ ⊆ t := Text.subset_of_isPrefixOf? hr
        simp only at h
        split at h
        · cases h
        · split at h <;> cases h
          exact List.Subset.trans (List.cons_subset_cons _ (List.cons_subset_cons _
            (List.takeWhile_prefix _).subset)) hstart
      · cases h
    · cases h

theorem Color.ofSource_subset (t : Text) : ofSource t ⊆ t := by
  unfold ofSource
  cases h : hexArgument? t.strip with
  | none => exact t.strip_subset
  | some u => exact List.Subset.trans (subset_of_hexArgument? h) t.strip_subset

end LvglForest
