import LvglForest.Proofs.Code.Emission
import LvglForest.Proofs.Fact.Reading

/-!
# Statements with and without their comments

What is emitted in the concise form is what is emitted in the verbose form without its comments
(`Forest.emissions_concise`). Statements that stand one below the other are read as if their
comments were not there, as long as each comment is one line that ends no block comment
(`Extraction.read_uncommented`), and they are read alike in both indentations
(`Extraction.map_trim_stackedLines_indent`).
-/

namespace LvglForest

/-! ## Statements without their comments -/

namespace Statement

/-- Whether a statement is a comment. -/
def isComment : Statement → Bool
  | .comment _ _ => true
  | _ => false

/-- Statements without the comments among them. -/
def uncommented (ss : List Statement) : List Statement := ss.filter fun s => !s.isComment

/-- The lines of statements. -/
def lines (ss : List Statement) : List Text := Text.stackedLines (ss.map text)

theorem lines_cons (s : Statement) (ss : List Statement) :
    lines (s :: ss) = lines [s] ++ lines ss :=
  Text.stackedLines_append [s.text] (ss.map text)

/-- A statement that is no comment unless it stays one: it is a line, and it does not end a block
comment that goes on. -/
def StaysComment (inBlock : Bool) (s : Statement) : Prop :=
  s.isComment = true → s.text.InLine ∧ (inBlock = true → ¬ ("*/" : Text) <:+: s.text)

instance (inBlock : Bool) (s : Statement) : Decidable (s.StaysComment inBlock) :=
  inferInstanceAs (Decidable (_ → _ ∧ (_ → ¬ _)))

/-- All comments among statements stay comments where they stand. -/
def CommentsStay : Bool → List Statement → Prop
  | _, [] => True
  | inBlock, s :: ss =>
    s.StaysComment inBlock ∧ CommentsStay (Extraction.openAfter inBlock (lines [s])) ss

instance decidableCommentsStay : (inBlock : Bool) → (ss : List Statement) →
    Decidable (CommentsStay inBlock ss)
  | _, [] => inferInstanceAs (Decidable True)
  | inBlock, s :: ss =>
    have := decidableCommentsStay (Extraction.openAfter inBlock (lines [s])) ss
    inferInstanceAs (Decidable (s.StaysComment inBlock ∧ _))

end Statement

namespace Extraction

/-- Indented texts are read as without their indentation. -/
theorem map_trim_stackedLines_indent (d : Detail) (ts : List Text) :
    (Text.stackedLines (ts.map fun t => if t.isEmpty then [] else d.indent ++ t)).map trim =
      (Text.stackedLines ts).map trim := by
  rw [Text.stackedLines, Text.stackedLines, List.flatMap_map, List.map_flatMap, List.map_flatMap]
  refine List.flatMap_congr fun t _ => ?_
  split
  · next h => rw [List.isEmpty_iff.1 h]
  · rw [List.append_assoc, map_trim_lines_append d.isBlank_indent d.inLine_indent (by simp)]

/-- A comment that stays one says nothing. -/
theorem silent_comment {inBlock : Bool} {s : Statement} (hcomment : s.isComment = true)
    (h : s.StaysComment inBlock) : Silent inBlock (Statement.lines [s]) inBlock := by
  obtain ⟨hline, hclose⟩ := h hcomment
  have hlines : Statement.lines [s] = Text.lines (s.text ++ [.char '\n']) := List.append_nil _
  rw [hlines]
  -- Outside a block comment the line starts a comment of its own, inside it is swallowed as it is.
  cases inBlock with
  | false =>
    obtain ⟨c, hc⟩ : ∃ c : Text, s.text = ("//" ++ c : Text) := by
      cases s with
      | comment id kind =>
        exact ⟨" " ++ id ++ " (" ++ kind ++ ")", by simp [Statement.text, Text.ofString]⟩
      | _ => cases hcomment
    rw [hc] at hline ⊢
    exact silent_line fun p hp => hline p (List.mem_append_right _ hp)
  | true =>
    rw [Text.lines_append_newline hline]
    exact silent_inside (List.forall_mem_singleton.2 (hclose rfl))

/-- **Comments need not be there**, if they stay comments. -/
theorem read_uncommented {inBlock : Bool} {ss : List Statement}
    (h : Statement.CommentsStay inBlock ss) :
    read inBlock (Statement.lines ss) =
      read inBlock (Statement.lines (Statement.uncommented ss)) := by
  -- Each statement decides whether a block comment is open before the next one.
  induction ss generalizing inBlock with
  | nil => rfl
  | cons s ss ih =>
    obtain ⟨hs, hss⟩ := h
    have hrest := ih hss
    rw [Statement.lines_cons, Statement.uncommented, List.filter_cons]
    cases hcomment : s.isComment with
    | true => exact read_append_congr (silent_comment hcomment hs).read_eq hrest
    | false =>
      have hkept : Statement.lines (s :: Statement.uncommented ss) =
          Statement.lines [s] ++ Statement.lines (Statement.uncommented ss) :=
        Statement.lines_cons s _
      exact (read_append_congr rfl hrest).trans (congrArg (read inBlock) hkept.symm)

end Extraction

/-! ## Concise emissions -/

namespace Emissions

/-- Whether an emission is no comment. -/
def isUncommented : Except Fault Emission → Bool
  | .ok (.statement s) => !s.isComment
  | _ => true

/-- The emissions without the comments among them. -/
def uncommented (es : Emissions) : Emissions := es.filter isUncommented

theorem uncommented_append (es es' : Emissions) :
    uncommented (es ++ es') = es.uncommented ++ es'.uncommented :=
  List.filter_append es es'

theorem uncommented_of_settings {es : Emissions} (h : ∀ x, .ok x ∈ es → x.IsSetting) :
    es.uncommented = es := by
  rw [uncommented, List.filter_eq_self]
  intro e he
  match e, he with
  | .error f, _ => rfl
  | .ok (.statement (.call _ _)), _ => rfl
  | .ok (.statement .gap), _ => rfl
  | .ok (.statement (.comment _ _)), he => cases h _ he
  | .ok (.statement (.create _ _ _)), he => cases h _ he
  | .ok (.ignored _ _ _), _ => rfl
  | .ok (.skipped _ _), _ => rfl

theorem fault?_uncommented (es : Emissions) : es.uncommented.fault? = es.fault? :=
  fault?_filter (fun _ => rfl) es

theorem statements_uncommented (es : Emissions) :
    es.uncommented.statements = Statement.uncommented es.statements := by
  rw [statements, statements, uncommented, completed_filter fun _ => rfl, List.filterMap_filter,
    Statement.uncommented, List.filter_filterMap]
  refine List.filterMap_congr fun x _ => ?_
  cases x with
  | statement s => cases s <;> rfl
  | _ => rfl

/-- Comments create nothing. -/
theorem identifiers_uncommented (es : Emissions) : es.uncommented.identifiers = es.identifiers := by
  rw [identifiers, identifiers, statements_uncommented, Statement.uncommented,
    List.filterMap_filter]
  exact List.filterMap_congr fun s _ => by cases s <;> rfl

/-- Comments skip nothing. -/
theorem skips_uncommented (es : Emissions) : es.uncommented.skips = es.skips := by
  rw [skips, skips, uncommented, completed_filter fun _ => rfl, List.filterMap_filter]
  refine List.filterMap_congr fun x _ => ?_
  cases x with
  | statement s => cases s <;> rfl
  | _ => rfl

end Emissions

theorem Widget.emissions_concise {w : Widget} (hkind : ∃ t, w.kind.display = .ok t)
    (id parent : Text) :
    w.emissions .concise id parent = (w.emissions .verbose id parent).uncommented := by
  have hcreation : w.creationEmissions .concise id parent =
      (w.creationEmissions .verbose id parent).uncommented := by
    obtain ⟨t, ht⟩ := hkind
    unfold creationEmissions
    split
    · rfl
    · simp only [ht]
      rfl
  rw [emissions_eq, emissions_eq, Emissions.uncommented_append, ← hcreation,
    Emissions.uncommented_of_settings (isSetting_settings id w)]

mutual

theorem Tree.emissions_concise : ∀ (parent : Text) (path : List Nat) (t : Tree Widget)
    (_ : ∀ w ∈ t.toList, w.IsTyped),
    Tree.emissions .concise parent path t = (Tree.emissions .verbose parent path t).uncommented
  | parent, path, .node w ts, h => by
    rw [Tree.toList, List.forall_mem_cons] at h
    cases hw : w.hasLegalName with
    | true =>
      rw [Tree.emissions_of_legal _ h.1.identifier hw, Tree.emissions_of_legal _ h.1.identifier hw,
        Emissions.uncommented_append, Widget.emissions_concise h.1.display_kind,
        Forest.emissions_concise w.name path 0 ts h.2]
    | false =>
      rw [Tree.emissions_of_illegal _ h.1.identifier hw,
        Tree.emissions_of_illegal _ h.1.identifier hw]
      rfl

/-- **The concise form leaves out the comments**, and nothing else. -/
theorem Forest.emissions_concise : ∀ (parent : Text) (path : List Nat) (index : Nat)
    (ts : List (Tree Widget)) (_ : ∀ w ∈ Forest.toList ts, w.IsTyped),
    Forest.emissions .concise parent path index ts =
      (Forest.emissions .verbose parent path index ts).uncommented
  | _, _, _, [], _ => rfl
  | parent, path, index, t :: ts, h => by
    rw [Forest.toList, List.forall_mem_append] at h
    rw [Forest.emissions, Forest.emissions, Emissions.uncommented_append,
      Tree.emissions_concise parent (path ++ [index]) t h.1,
      Forest.emissions_concise parent path (index + 1) ts h.2]

end

/-! ## Comments of widgets -/

/-- A widget whose comment stays one, wherever it stands. -/
structure Widget.HasInertComment (w : Widget) : Prop where
  name : w.name.InLine
  kind : ∃ kind, w.kind = .text kind ∧ kind.InLine ∧ ¬ ("*/" : Text) <:+: kind

theorem Widget.eq_of_comment_mem_emissions {d : Detail} {w : Widget} (hw : w.IsTyped)
    {id parent id' kind : Text}
    (h : .ok (.statement (.comment id' kind)) ∈ w.emissions d id parent) :
    id' = id ∧ w.kind = .text kind := by
  obtain ⟨t, ht⟩ := hw.kind
  rw [emissions_eq, List.mem_append] at h
  rcases h with h | h
  · have hhashable : w.kind.checkHashable = .ok () := ht ▸ rfl
    have hdisplay : w.kind.display = .ok t := ht ▸ rfl
    unfold creationEmissions at h
    simp only [hhashable, hdisplay] at h
    cases d with
    | concise => simp at h
    | verbose =>
      simp only [Except.map, List.cons_append, List.nil_append, List.mem_cons, Except.ok.injEq,
        Emission.statement.injEq, Statement.comment.injEq, reduceCtorEq, List.not_mem_nil,
        or_false] at h
      exact ⟨h.1, h.2 ▸ ht⟩
  · cases isSetting_settings id w _ h

mutual

theorem Tree.exists_of_comment_mem_emissions {d : Detail} {id kind : Text} : ∀ (parent : Text)
    (path : List Nat) (t : Tree Widget) (_ : ∀ w ∈ t.toList, w.IsTyped)
    (_ : .ok (.statement (.comment id kind)) ∈ Tree.emissions d parent path t),
    ∃ w ∈ Forest.toList (Tree.prune Widget.hasLegalName t), w.name = id ∧ w.kind = .text kind
  | parent, path, .node w ts, h, hmem => by
    rw [Tree.toList, List.forall_mem_cons] at h
    rw [Tree.prune]
    cases hw : w.hasLegalName with
    | true =>
      rw [if_pos rfl, Forest.toList, Forest.toList, Tree.toList, List.append_nil]
      rw [Tree.emissions_of_legal d h.1.identifier hw, List.mem_append] at hmem
      rcases hmem with hmem | hmem
      · obtain ⟨hid, hkind⟩ := Widget.eq_of_comment_mem_emissions h.1 hmem
        exact ⟨w, List.mem_cons_self, hid.symm, hkind⟩
      · obtain ⟨v, hv, hkind⟩ := Forest.exists_of_comment_mem_emissions w.name path 0 ts h.2 hmem
        exact ⟨v, List.mem_cons_of_mem _ hv, hkind⟩
    | false =>
      rw [Tree.emissions_of_illegal d h.1.identifier hw] at hmem
      simp at hmem

/-- A comment names a widget that is not skipped, with its kind. -/
theorem Forest.exists_of_comment_mem_emissions {d : Detail} {id kind : Text} : ∀ (parent : Text)
    (path : List Nat) (index : Nat) (ts : List (Tree Widget))
    (_ : ∀ w ∈ Forest.toList ts, w.IsTyped)
    (_ : .ok (.statement (.comment id kind)) ∈ Forest.emissions d parent path index ts),
    ∃ w ∈ Forest.toList (Forest.prune Widget.hasLegalName ts), w.name = id ∧ w.kind = .text kind
  | _, _, _, [], _, hmem => absurd hmem List.not_mem_nil
  | parent, path, index, t :: ts, h, hmem => by
    rw [Forest.toList, List.forall_mem_append] at h
    rw [Forest.prune, Forest.toList_append]
    rcases List.mem_append.1 hmem with hmem | hmem
    · obtain ⟨w, hw, hkind⟩ :=
        Tree.exists_of_comment_mem_emissions parent (path ++ [index]) t h.1 hmem
      exact ⟨w, List.mem_append_left _ hw, hkind⟩
    · obtain ⟨w, hw, hkind⟩ :=
        Forest.exists_of_comment_mem_emissions parent path (index + 1) ts h.2 hmem
      exact ⟨w, List.mem_append_right _ hw, hkind⟩

end

namespace Statement

/-- A comment of one line ends a block comment only if its kind does. -/
theorem staysComment_of_kind (inBlock : Bool) {id kind : Text} (hid : id.InLine)
    (hstar : .char '*' ∉ id) (hkind : kind.InLine) (hclose : ¬ ("*/" : Text) <:+: kind) :
    (comment id kind).StaysComment inBlock := by
  refine fun _ => ⟨?_, fun _ h => ?_⟩
  · exact .append (.append (.append (.append (by decide) hid) (by decide)) hkind) (by decide)
  -- There is no star before the kind, and the parenthesis after it is no slash.
  · have hfront : .char '*' ∉ ("// " ++ id ++ " (" : Text) := by
      rw [List.mem_append, List.mem_append, not_or, not_or]
      exact ⟨⟨by decide, hstar⟩, by decide⟩
    rw [text, List.append_assoc _ kind] at h
    rcases List.infix_concat_iff.1 (Text.infix_of_infix_append hfront h) with ⟨t, ht⟩ | h
    · have hlast := congrArg List.getLast? ht
      rw [List.getLast?_append, List.getLast?_concat] at hlast
      exact absurd (Option.some.inj hlast) (by decide)
    · exact hclose h

theorem commentsStay_of_forall {ss : List Statement}
    (h : ∀ s ∈ ss, ∀ inBlock, s.StaysComment inBlock) (inBlock : Bool) :
    CommentsStay inBlock ss := by
  induction ss generalizing inBlock with
  | nil => trivial
  | cons s ss ih =>
    rw [List.forall_mem_cons] at h
    exact ⟨h.1 inBlock, ih h.2 _⟩

end Statement

/-- The comments of a forest stay comments if those of its widgets do. -/
theorem Forest.commentsStay_statements {ts : Forest Widget} (ht : ∀ w ∈ Forest.toList ts, w.IsTyped)
    (h : ∀ w ∈ Forest.toList (Forest.prune Widget.hasLegalName ts), w.HasInertComment)
    (d : Detail) (parent : Text) (inBlock : Bool) :
    Statement.CommentsStay inBlock (Forest.emissions d parent [] 0 ts).statements := by
  refine Statement.commentsStay_of_forall (fun s hs inBlock => ?_) inBlock
  cases s with
  | comment id kind =>
    obtain ⟨w, hw, rfl, hkind⟩ := Forest.exists_of_comment_mem_emissions parent [] 0 ts ht
      (Emissions.mem_of_mem_statements hs)
    have hlegal := (Forest.keep_of_mem_prune Widget.hasLegalName ts hw).1
    obtain ⟨kind', hkind', hline, hclose⟩ := (h w hw).kind
    rw [hkind, Value.text.injEq] at hkind'
    subst hkind'
    exact Statement.staysComment_of_kind inBlock (h w hw).name
      (Text.not_mem_of_isIdentifierLine hlegal rfl (by decide)) hline hclose
  | _ => exact fun hcomment => nomatch hcomment

end LvglForest
