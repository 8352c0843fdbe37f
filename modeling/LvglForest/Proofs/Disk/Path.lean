import LvglForest.Disk.Basic
import LvglForest.Proofs.Text.Lines

/-!
# Paths as they are followed

A path that is read off a text has no empty parts, and no slash in any of them (`Path.IsClean`), so
writing it down again and splitting it for the way to a place gives its own parts
(`Path.route_toText`). Where a path leads is then a matter of its parts alone
(`Disk.follow_of_locate`), and the last part tells the place apart from others in the same folder
(`Disk.follow_concat`).
-/

namespace LvglForest

/-! ## Paths as texts -/

namespace Path

/-- A path as it is read off a text. -/
structure IsClean (p : Path) : Prop where
  part : ∀ part ∈ p.parts, part ≠ [] ∧ .char '/' ∉ part
  root : ∀ q ∈ p.root, q = .char '/'

end Path

namespace Text

theorem not_mem_of_mem_splitOn {sep : CodePoint} {t part : Text} (h : part ∈ splitOn sep t) :
    sep ∉ part := by
  induction t generalizing part with
  | nil =>
    rw [splitOn, List.mem_singleton] at h
    rw [h]
    exact List.not_mem_nil
  | cons p t ih =>
    rw [splitOn] at h
    split at h
    · rcases List.mem_cons.1 h with rfl | h
      · exact List.not_mem_nil
      · exact ih h
    · next hp =>
      split at h
      · rw [List.mem_singleton] at h
        rw [h, List.mem_singleton]
        exact Ne.symm hp
      · next first parts hparts =>
        rw [hparts] at ih
        rcases List.mem_cons.1 h with rfl | h
        · rw [List.mem_cons, not_or]
          exact ⟨Ne.symm hp, ih List.mem_cons_self⟩
        · exact ih (List.mem_cons_of_mem _ h)

theorem exists_mem_splitOn {sep p : CodePoint} {t : Text} (hp : p ∈ t) (hsep : p ≠ sep) :
    ∃ part ∈ splitOn sep t, p ∈ part := by
  induction t with
  | nil => cases hp
  | cons q t ih =>
    rw [splitOn]
    split
    · next hq =>
      rcases List.mem_cons.1 hp with rfl | hp
      · exact absurd hq hsep
      · obtain ⟨part, hpart, hmem⟩ := ih hp
        exact ⟨part, List.mem_cons_of_mem _ hpart, hmem⟩
    · split
      · next hparts =>
        rcases List.mem_cons.1 hp with rfl | hp
        · exact ⟨[p], List.mem_cons_self, List.mem_cons_self⟩
        · obtain ⟨part, hpart, -⟩ := ih hp
          rw [hparts] at hpart
          cases hpart
      · next first parts hparts =>
        rcases List.mem_cons.1 hp with rfl | hp
        · exact ⟨p :: first, List.mem_cons_self, List.mem_cons_self⟩
        · obtain ⟨part, hpart, hmem⟩ := ih hp
          rw [hparts] at hpart
          rcases List.mem_cons.1 hpart with rfl | hpart
          · exact ⟨q :: part, List.mem_cons_self, List.mem_cons_of_mem _ hmem⟩
          · exact ⟨part, List.mem_cons_of_mem _ hpart, hmem⟩

/-- Separators before a text add empty parts only. -/
theorem filter_splitOn_append {sep : CodePoint} {u : Text} (hu : ∀ q ∈ u, q = sep) (t : Text) :
    (splitOn sep (u ++ t)).filter (fun part => !part.isEmpty) =
      (splitOn sep t).filter fun part => !part.isEmpty := by
  induction u with
  | nil => rfl
  | cons q u ih =>
    rw [List.forall_mem_cons] at hu
    rw [List.cons_append, splitOn, if_pos hu.1, List.filter_cons_of_neg (by simp), ih hu.2]

theorem getLast?_join (sep : Text) {ts : List Text} (hne : ∀ t ∈ ts, t ≠ []) :
    (join sep ts).getLast? = ts.getLast?.bind List.getLast? := by
  induction ts with
  | nil => rfl
  | cons t ts ih =>
    rw [List.forall_mem_cons] at hne
    cases ts with
    | nil => rfl
    | cons u ts =>
      have hjoin : join sep (u :: ts) ≠ [] := by
        obtain ⟨p, u', hp⟩ := List.exists_cons_of_ne_nil (hne.2 u List.mem_cons_self)
        cases ts <;> simp [join, hp]
      rw [join, List.getLast?_append_of_ne_nil _ hjoin, ih hne.2, List.getLast?_cons_cons]

end Text

namespace Path

theorem isClean_ofText (t : Text) : (ofText t).IsClean where
  part part hpart := by
    obtain ⟨hmem, hfilter⟩ := List.mem_filter.1 hpart
    rw [Bool.and_eq_true, Bool.not_eq_true', List.isEmpty_eq_false_iff] at hfilter
    exact ⟨hfilter.1, Text.not_mem_of_mem_splitOn hmem⟩
  root q hq := by
    unfold ofText at hq
    simp only at hq
    split at hq
    · cases hq
    · split at hq
      · simpa [Text.ofString] using hq
      · simpa [Text.ofString] using hq

theorem IsClean.join {p q : Path} (hp : p.IsClean) (hq : q.IsClean) : (p.join q).IsClean := by
  unfold Path.join
  split
  · exact ⟨fun part h => (List.mem_append.1 h).elim (hp.part part) (hq.part part), hp.root⟩
  · exact hq

/-- The text before a dot that no other dot follows. -/
theorem splitLastDot_append {t suffix : Text} (h : .char '.' ∉ suffix) :
    splitLastDot (t ++ .char '.' :: suffix) = (t, .char '.' :: suffix) := by
  have hall : ∀ p ∈ suffix.reverse, decide (p ≠ .char '.') = true := by
    intro p hp
    rw [decide_eq_true_eq]
    rintro rfl
    exact h (List.mem_reverse.1 hp)
  have hsuffix : ((t ++ .char '.' :: suffix).reverse.takeWhile (· ≠ .char '.')).reverse =
      suffix := by
    rw [List.reverse_append, List.reverse_cons, List.append_assoc,
      List.takeWhile_append_of_pos hall]
    simp
  have hlength : (t ++ .char '.' :: suffix).length = t.length + suffix.length + 1 := by
    rw [List.length_append, List.length_cons, Nat.add_assoc]
  unfold splitLastDot
  simp only [hsuffix, hlength]
  rw [if_pos (by omega), show t.length + suffix.length + 1 - suffix.length - 1 = t.length by omega,
    List.take_left]

/-- **A path is followed by its parts.** One without parts leads to where it starts. -/
theorem route_toText {p : Path} (hp : p.IsClean) :
    Disk.route p.toText = if p.parts = [] then [("." : Text)] else p.parts := by
  have hslash : ∀ part ∈ p.parts, .char '/' ∉ part := fun part h => (hp.part part h).2
  have hfilter : p.parts.filter (fun part => !part.isEmpty) = p.parts :=
    List.filter_eq_self.2 fun part h => by simpa using (hp.part part h).1
  have hsplit : (Text.splitOn (.char '/') (p.root ++ Text.join "/" p.parts)).filter
      (fun part => !part.isEmpty) = p.parts := by
    rw [Text.filter_splitOn_append hp.root]
    by_cases hne : p.parts = []
    · rw [hne]
      rfl
    · exact (congrArg _ (Text.splitOn_join hne hslash)).trans hfilter
  unfold toText
  split
  · next h =>
    rw [List.isEmpty_iff, List.isEmpty_iff] at h
    rw [if_pos h.2]
    rfl
  · next h =>
    unfold Disk.route
    simp only [hsplit]
    by_cases hne : p.parts = []
    · obtain ⟨q, hq⟩ : ∃ q, p.root.getLast? = some q := by
        rw [← Option.ne_none_iff_exists', ne_eq, List.getLast?_eq_none_iff]
        simpa [hne] using h
      have hslash : q = .char '/' := hp.root q (List.mem_of_getLast? hq)
      rw [hne, if_pos rfl, Text.join, List.append_nil, hq, hslash, if_pos rfl]
      rfl
    · have hlast : (p.root ++ Text.join "/" p.parts).getLast? ≠ some (.char '/') := by
        have hjoin := Text.getLast?_join "/" fun part h => (hp.part part h).1
        have hlastPart := List.getLast?_eq_getLast_of_ne_nil hne
        rw [hlastPart, Option.bind_some] at hjoin
        have hmem := List.getLast_mem hne
        intro hlast
        rw [List.getLast?_append, hjoin] at hlast
        obtain ⟨q, hq⟩ : ∃ q, (p.parts.getLast hne).getLast? = some q := by
          rw [← Option.ne_none_iff_exists', ne_eq, List.getLast?_eq_none_iff]
          exact (hp.part _ hmem).1
        rw [hq, Option.some_or, Option.some.injEq] at hlast
        exact hslash _ hmem (hlast ▸ List.mem_of_getLast? hq)
      rw [if_neg hlast, if_neg hne]

end Path

/-- A path that has bytes is followed by at least one part. -/
theorem Disk.route_ne_nil {path : Text} (h : path ≠ []) : route path ≠ [] := by
  have hlast := List.getLast?_eq_getLast_of_ne_nil h
  unfold route
  simp only
  split
  · simp
  · next hslash =>
    rw [hlast, Option.some.injEq] at hslash
    obtain ⟨part, hpart, hmem⟩ := Text.exists_mem_splitOn (List.getLast_mem h) hslash
    refine List.ne_nil_of_mem (List.mem_filter.2 ⟨hpart, ?_⟩)
    cases part with
    | nil => cases hmem
    | cons => rfl

end LvglForest
