import LvglForest.Code.Generation
import LvglForest.Proofs.Fact.Setter

/-!
# What the other lines of a generated file say

Besides the setters, a generated file has lines that create a widget, define its variable or start
the function of a screen, and comments. The name of a creating function and of the function of a
screen ends in `_create`, which no setter does (`rejects_create`): so a creation says only that it
creates, and the first line of a function says nothing, whatever the screen is called.
-/

namespace LvglForest

open Extraction

namespace Recognizer

/-- The recognizers of setters. -/
def setters : List Recognizer :=
  [text, size, value, range, knownStyle, otherStyle, align, center, position]

theorem find?_of_pattern {pattern : CallPattern} {line : Text} (h : pattern.find? line = none)
    (read : Call → Except Fault (Option (Text × Assertion))) (number : Int) :
    (ofCall pattern read line number).toOption.join = none := by
  rw [toOption_ofCall, h]
  rfl

/-- Where no setter is found, only declarations and creations are. -/
theorem lineFacts_of_setters {line : Text} {number : Int}
    (h : ∀ r ∈ setters, r.find? line number = none) :
    Registry.standard.lineFacts line number =
      (declaration.find? line number).toList ++ (creation.find? line number).toList := by
  simp only [setters, List.forall_mem_cons] at h
  obtain ⟨htext, hsize, hvalue, hrange, hknown, hother, halign, hcenter, hposition, -⟩ := h
  rw [Registry.lineFacts_standard]
  simp only [findFirst?_cons, findFirst?_nil, htext, hsize, hvalue, hrange, hknown, hother, halign,
    hcenter, hposition, Option.or_none, Option.toList_none, List.append_nil]

/-- The setters are found by patterns of plain calls. -/
theorem exists_call {pattern : CallPattern} (h : pattern ∈ patterns.tail) :
    ∃ n, pattern = .call n := by
  revert pattern
  simp only [patterns, List.tail_cons, List.forall_mem_cons]
  exact ⟨⟨_, rfl⟩, ⟨_, rfl⟩, ⟨_, rfl⟩, ⟨_, rfl⟩, ⟨_, rfl⟩, ⟨_, rfl⟩, ⟨_, rfl⟩, ⟨_, rfl⟩, ⟨_, rfl⟩,
    by simp⟩

theorem find?_setters {line : Text} (h : ∀ pattern ∈ patterns.tail, pattern.find? line = none)
    (number : Int) : ∀ r ∈ setters, r.find? line number = none := by
  simp only [patterns, List.tail_cons, List.forall_mem_cons] at h
  obtain ⟨htext, hsize, hvalue, hrange, hknown, hany, halign, hcenter, hposition, -⟩ := h
  simp only [setters, List.forall_mem_cons]
  exact ⟨find?_of_pattern htext readText number, find?_of_pattern hsize readSize number,
    find?_of_pattern hvalue readValue number, find?_of_pattern hrange readRange number,
    find?_of_pattern hknown readKnownStyle number, find?_of_pattern hany readOtherStyle number,
    find?_of_pattern halign readAlign number, find?_of_pattern hcenter readCenter number,
    find?_of_pattern hposition readPosition number, by simp⟩

/-! ## Names that end in `_create` -/

/-- Only the setter of an arbitrary style may have a name like that. -/
theorem rejects_create {f : Text} (hf : ("_create" : Text) <:+ f) :
    ∀ pattern ∈ [creationPattern, textPattern, sizePattern, valuePattern, rangePattern,
      knownStylePattern, alignPattern, centerPattern, positionPattern], pattern.Rejects f := by
  have hending {n : NamePattern}
      (h : ∀ e ∈ n.endings, ¬ e <:+ ("_create" : Text) ∧ ¬ ("_create" : Text) <:+ e) :
      (CallPattern.call n).Rejects f := NamePattern.groups?_of_ending hf h
  simp only [List.forall_mem_cons]
  exact ⟨trivial, hending (by decide), hending (by decide), hending (by decide),
    hending (by decide), hending (by decide), hending (by decide), hending (by decide),
    hending (by decide), by simp⟩

/-- The name of the function that creates a widget of a kind. -/
def creator (k : Kind) : Text := ("lv_" : Text) ++ k.sourceName ++ "_create"

theorem isWord_creator (k : Kind) : (creator k).IsWord := k.isWord_function (.ofList (by decide))

theorem rejects_creator (k : Kind) : ∀ pattern ∈ patterns, pattern.Rejects (creator k) := by
  have hany : anyStylePattern.Rejects (creator k) := by cases k <;> decide
  have hothers := rejects_create (f := creator k) (List.suffix_append _ _)
  simp only [List.forall_mem_cons] at hothers
  obtain ⟨hcreation, htext, hsize, hvalue, hrange, hknown, hplaces⟩ := hothers
  simp only [patterns, List.forall_mem_cons]
  exact ⟨hcreation, htext, hsize, hvalue, hrange, hknown, hany, hplaces⟩

end Recognizer

/-! ## Creations -/

theorem Statement.text_create (target parent : Text) (k : Kind) :
    (Statement.create target k.sourceName parent).text =
      target ++ .char ' ' :: .char '=' :: .char ' ' ::
        (Recognizer.creator k ++ .char '(' :: (parent ++ (");" : Text))) := by
  simp only [text, Recognizer.creator, List.append_assoc]
  rfl

section Creation

variable {target parent : Text} (k : Kind) (htarget : target.IsWord) (hparent : parent.IsWord)
include htarget hparent

/-- No setter is found in a creation. -/
theorem find?_create {pattern : CallPattern} (hpattern : pattern ∈ Recognizer.patterns.tail) :
    pattern.find? (Statement.create target k.sourceName parent).text = none := by
  have hrej := Recognizer.rejects_creator k _ (List.mem_of_mem_tail hpattern)
  obtain ⟨n, rfl⟩ := Recognizer.exists_call hpattern
  have hsign (t : Text) : ((CodePoint.char ' ' :: .char '=' :: t).dropWhile
      CodePoint.isBlank).head? ≠ some (.char '(') := by
    rw [show (CodePoint.char ' ' :: .char '=' :: t).dropWhile CodePoint.isBlank =
      .char '=' :: t from rfl]
    simp
  refine CallPattern.find?_of_search? ?_
  rw [Statement.text_create,
    CallPattern.search?_call_uncalled n htarget (Text.endsWord_cons rfl _) (hsign _),
    CallPattern.search?_cons _ rfl, CallPattern.search?_cons _ rfl, CallPattern.search?_cons _ rfl,
    CallPattern.search?_rejected _ (Recognizer.isWord_creator k) hrej]
  exact CallPattern.PassedBy.of_isWord hparent _ _ (.inr rfl)

/-- The creation is found with its variable, its kind and its parent. -/
theorem find?_creation : ∃ name,
    Recognizer.creationPattern.find? (Statement.create target k.sourceName parent).text =
      some ⟨name, [target, k.sourceName], [parent]⟩ := by
  have hends (t : Text) : Text.EndsWord (.char ' ' :: t) := Text.endsWord_cons rfl t
  have hsign (t : Text) : (CodePoint.char ' ' :: .char '=' :: t).dropWhile CodePoint.isBlank =
      .char '=' :: t := rfl
  have hcalled (t : Text) : (CodePoint.char ' ' :: (Recognizer.creator k ++ t)).dropWhile
      CodePoint.isBlank = Recognizer.creator k ++ t := rfl
  have hgroups : (NamePattern.between "lv_" "_create").groups? (Recognizer.creator k) =
      some [k.sourceName] := by
    cases k <;> decide
  have hparen (t : Text) : Text.EndsWord (.char '(' :: t) := Text.endsWord_cons rfl t
  have hopen (t : Text) : (CodePoint.char '(' :: t).dropWhile CodePoint.isBlank =
      .char '(' :: t := rfl
  have hnested : Arguments.Nested true parent := .of_isWord hparent
  have hcapture : Arguments.capture (.char '(' :: (parent ++ (");" : Text))) = some parent :=
    Arguments.capture_group hnested [.char ';']
  have hargument : ∀ x ∈ [parent], Arguments.IsArgument x := by
    simpa using Arguments.IsArgument.of_isWord hparent
  have hsplit : Arguments.split parent = [parent] := Arguments.split_join hargument
  rw [Statement.text_create, CallPattern.find?, CallPattern.search?_word _ htarget (hends _)]
  simp only [Recognizer.creationPattern, CallPattern.siteAt?,
    Text.takeWhile_word htarget.all (hends _), Text.dropWhile_word htarget.all (hends _), hsign,
    hcalled, CallPattern.callAt?_word _ (Recognizer.isWord_creator k) (hparen _), hgroups,
    Option.bind_some, hopen, List.head?_cons, if_true, Option.some_or, hcapture, Option.map_some,
    hsplit]
  exact ⟨_, rfl⟩

theorem lineFacts_create (number : Int) :
    Registry.standard.lineFacts (Statement.create target k.sourceName parent).text number =
      [Recognizer.said number (target, .created (.text k.name) k.sourceName (.text parent))] := by
  have hnone : ∀ pattern ∈ Recognizer.patterns.tail,
      pattern.find? (Statement.create target k.sourceName parent).text = none :=
    fun pattern hpattern => find?_create k htarget hparent hpattern
  have hdeclaration :
      Recognizer.declaration.find? (Statement.create target k.sourceName parent).text number =
        none := by
    refine Recognizer.find?_declaration ?_ number
    rw [Statement.text_create]
    exact Recognizer.declared?_of_isWord htarget (Text.endsWord_cons rfl _) rfl (by decide)
      fun _ => by decide
  have hsource : Kind.ofSourceName? k.sourceName = some k := by cases k <;> decide
  obtain ⟨name, hfind⟩ := find?_creation k htarget hparent
  rw [Recognizer.lineFacts_of_setters (Recognizer.find?_setters hnone number), hdeclaration]
  have hcreation :
      Recognizer.creation.find? (Statement.create target k.sourceName parent).text number =
        some (Recognizer.said number
          (target, .created (.text k.name) k.sourceName (.text parent))) := by
    show (Recognizer.ofCall _ _ _ _).toOption.join = _
    rw [Recognizer.toOption_ofCall, hfind, Option.bind_some, Recognizer.readCreation]
    simp only [hsource]
    rfl
  rw [hcreation]
  rfl

/-- **A creation says that it creates.** -/
theorem Extraction.Says.create {u : Text} (hblank : ∀ q ∈ u, q.isBlank = true) (hu : u.InLine) :
    Says (u ++ (Statement.create target k.sourceName parent).text)
      [(target, .created (.text k.name) k.sourceName (.text parent))] := by
  obtain ⟨p, t, hp⟩ := List.exists_cons_of_ne_nil htarget.ne_nil
  have hword : p.isWord = true := htarget.all p (by simp [hp])
  have hsource := k.isWord_sourceName
  have hhead : (Statement.create target k.sourceName parent).text.head? = some p := by
    rw [Statement.text, hp]
    rfl
  have hlast : (Statement.create target k.sourceName parent).text.getLast? =
      some (.char ';') := by
    rw [Statement.text, List.getLast?_append]
    rfl
  refine Says.of_code hblank hu ?_
    (.of_ends hhead hlast (CodePoint.isBlank_of_isWord hword) rfl) ?_ hhead hword ?_
    fun number => lineFacts_create k htarget hparent number
  · exact .append (.append (.append (.append (.append htarget.inLine (by decide)) hsource.inLine)
      (by decide)) hparent.inLine) (by decide)
  · exact .append (.append (.append (.append (.append (.of_isWord htarget)
      (.of_isInert (by decide))) (.of_isWord hsource)) (.of_isInert (by decide)))
      (.of_isWord hparent)) (.of_isInert (by decide))
  · rw [Statement.text_create]
    exact ⟨target ++ (" = " : Text), _, by
      simp only [Recognizer.creator, List.append_assoc]
      rfl⟩

end Creation

/-! ## Comments -/

theorem Extraction.Says.comment {u id kind : Text} (hblank : ∀ q ∈ u, q.isBlank = true)
    (hu : u.InLine) (hid : id.InLine) (hkind : kind.InLine) :
    Says (u ++ (Statement.comment id kind).text) [] := by
  have hcomment : Comment.strip false (trim (u ++ (Statement.comment id kind).text)) =
      ([], false) := by
    have hlast : (Statement.comment id kind).text.getLast? = some (.char ')') := by
      rw [Statement.text, List.getLast?_append]
      rfl
    have hmark : (Statement.comment id kind).text.head? ≠ some (.char '\uFEFF') := by
      rw [show (Statement.comment id kind).text.head? = some (.char '/') from rfl]
      decide
    rw [trim_blank_append hblank, trim_of_isTrimmed (.of_ends rfl hlast rfl rfl) hmark]
    rfl
  have hcode : codeOf (u ++ (Statement.comment id kind).text) = [] := by
    rw [codeOf, hcomment]
    rfl
  refine .silent (hu.append ?_) ?_ ?_
  · exact .append (.append (.append (.append (by decide) hid) (by decide)) hkind) (by decide)
  · rw [IsClosed, hcomment]
  · rw [hcode]
    decide

/-! ## Definitions -/

/-- The definition of a variable. -/
def definition (id : Text) : Text := ("lv_obj_t * " : Text) ++ id ++ " = NULL;"

theorem declared?_definition {id : Text} (hid : id.IsWord) :
    Recognizer.declared? (definition id) = some id := by
  have hends : Text.EndsWord (" = NULL;" : Text) := Text.endsWord_cons rfl _
  have hstatic : ("static" : Text).isPrefixOf? (definition id) = none := rfl
  have htype : ("lv_obj_t" : Text).isPrefixOf? (definition id) =
      some (.char ' ' :: .char '*' :: .char ' ' :: (id ++ (" = NULL;" : Text))) := by
    rw [List.isPrefixOf?_eq_some_iff_append_eq, definition, List.append_assoc]
    rfl
  have hstar : Recognizer.skip? "*"
      (.char ' ' :: .char '*' :: .char ' ' :: (id ++ (" = NULL;" : Text))) =
        some (.char ' ' :: (id ++ (" = NULL;" : Text))) := rfl
  have hspace : Text.stripStart (.char ' ' :: (id ++ (" = NULL;" : Text))) =
      id ++ (" = NULL;" : Text) := by
    obtain ⟨p, t, rfl⟩ := List.exists_cons_of_ne_nil hid.ne_nil
    refine Text.stripStart_of_head (t := (p :: t) ++ (" = NULL;" : Text)) fun q hq => ?_
    cases hq
    exact CodePoint.isBlank_of_isWord (hid.all p List.mem_cons_self)
  have hsign : Recognizer.skip? "=" " = NULL;" = some (" NULL;" : Text) := by decide
  have hnull : Recognizer.skip? "NULL" " NULL;" = some (";" : Text) := by decide
  have hend : Recognizer.skip? ";" ";" = some [] := by decide
  have hne : id.isEmpty = false := by simpa using hid.ne_nil
  unfold Recognizer.declared?
  simp only [hstatic, bind, htype, Option.bind_some, hstar, hspace, Text.takeWhile_word hid.all hends,
    Text.dropWhile_word hid.all hends, hsign, hnull, Option.some_or, hend, hne, Bool.false_eq_true,
    if_false]

/-- A definition says what it declares. -/
theorem Extraction.Says.definition {id : Text} (hid : id.IsWord) :
    Says (LvglForest.definition id) [(id, .declared (.text "lv_obj_t"))] := by
  have hlast : (LvglForest.definition id).getLast? = some (.char ';') := by
    rw [LvglForest.definition, List.getLast?_append]
    rfl
  have hparen : .char '(' ∉ LvglForest.definition id := by
    rw [LvglForest.definition, List.mem_append, List.mem_append, not_or, not_or]
    exact ⟨⟨by decide, hid.not_mem rfl⟩, by decide⟩
  have hfind (pattern : CallPattern) : pattern.find? (LvglForest.definition id) = none :=
    CallPattern.find?_of_search? (CallPattern.search?_of_not_mem hparen false)
  have hhead : (LvglForest.definition id).head? = some (.char 'l') := rfl
  have hlv : ("lv_" : Text) <:+: LvglForest.definition id := by
    rw [LvglForest.definition, List.append_assoc]
    exact (show ("lv_" : Text) <:+: ("lv_obj_t * " : Text) by decide).trans
      (List.prefix_append _ _).isInfix
  change Says ([] ++ LvglForest.definition id) _
  refine Says.of_code (by simp) (by decide) ?_ (.of_ends hhead hlast rfl rfl) ?_ hhead rfl hlv
    fun number => ?_
  · exact .append (.append (by decide) hid.inLine) (by decide)
  · exact .append (.append (.of_isInert (by decide)) (.of_isWord hid)) (.of_isInert (by decide))
  · have hcreation : Recognizer.creation.find? (LvglForest.definition id) number = none :=
      Recognizer.find?_of_pattern (hfind _) Recognizer.readCreation number
    have hdeclaration : Recognizer.declaration.find? (LvglForest.definition id) number =
        some (Recognizer.said number (id, .declared (.text "lv_obj_t"))) := by
      show ((Recognizer.declared? (LvglForest.definition id)).map _) = _
      rw [declared?_definition hid]
      rfl
    rw [Recognizer.lineFacts_of_setters
      (Recognizer.find?_setters (fun pattern _ => hfind pattern) number), hdeclaration, hcreation]
    rfl

/-! ## The first line of a function -/

/-- The first line of the function of a screen. -/
def functionLine (symbol : Text) : Text :=
  "void " ++ (symbol ++ "_create") ++ "(lv_obj_t * parent) \x7b"

section Function

variable {symbol : Text} (hsymbol : symbol.IsWord)
include hsymbol

theorem isWord_function : (symbol ++ ("_create" : Text)).IsWord :=
  hsymbol.append (.ofList (by decide))

/-- Before the name of the function nothing is found. -/
theorem search?_functionLine (pattern : CallPattern) :
    pattern.search? false (functionLine symbol) = pattern.search? false
      (symbol ++ ("_create" : Text) ++ .char '(' :: ("lv_obj_t * parent) \x7b" : Text)) := by
  have hf := isWord_function hsymbol
  obtain ⟨p, t, hp⟩ := List.exists_cons_of_ne_nil hf.ne_nil
  have hword : p.isWord = true := hf.all p (by simp [hp])
  have hvoid : Text.IsWord "void" := .ofList (by decide)
  have htext : functionLine symbol = ("void" : Text) ++ .char ' ' ::
      (symbol ++ ("_create" : Text) ++ .char '(' :: ("lv_obj_t * parent) \x7b" : Text)) := by
    simp only [functionLine, List.append_assoc]
    rfl
  have huncalled : CallPattern.Uncalled (.char ' ' ::
      (symbol ++ ("_create" : Text) ++ .char '(' :: ("lv_obj_t * parent) \x7b" : Text))) := by
    intro q hq
    have hspace : (CodePoint.char ' ').isBlank = true := rfl
    rw [hp, List.dropWhile_cons, if_pos hspace, List.cons_append, List.dropWhile_cons,
      CodePoint.isBlank_of_isWord hword] at hq
    cases hq
    constructor <;> rintro rfl <;> cases hword
  rw [htext, CallPattern.search?_uncalled pattern hvoid (Text.endsWord_cons rfl _) huncalled,
    CallPattern.search?_cons pattern rfl]

theorem find?_functionLine {pattern : CallPattern}
    (hrej : pattern.Rejects (symbol ++ ("_create" : Text))) :
    pattern.find? (functionLine symbol) = none := by
  refine CallPattern.find?_of_search? ?_
  rw [search?_functionLine hsymbol, CallPattern.search?_rejected _ (isWord_function hsymbol) hrej]
  exact CallPattern.search?_of_not_mem (by decide) false

/-- The function may be called like the setter of a style, but has one parameter only. -/
theorem find?_otherStyle_functionLine (number : Int) :
    Recognizer.otherStyle.find? (functionLine symbol) number = none := by
  have hargs : ∀ x ∈ [("lv_obj_t * parent" : Text)], Arguments.IsArgument x := by
    rw [List.forall_mem_singleton]
    exact ⟨by decide, .of_ends rfl rfl rfl rfl, .of_plain (by decide)⟩
  show (Recognizer.ofCall _ _ _ _).toOption.join = none
  cases hgs : Recognizer.anyStylePattern.name.groups? (symbol ++ ("_create" : Text)) with
  | none =>
    have hrej : Recognizer.anyStylePattern.Rejects (symbol ++ ("_create" : Text)) := hgs
    exact Recognizer.find?_of_pattern (find?_functionLine hsymbol hrej) _ number
  | some gs =>
    have hfind : Recognizer.anyStylePattern.find? (functionLine symbol) =
        some ⟨symbol ++ ("_create" : Text), gs, [("lv_obj_t * parent" : Text)]⟩ := by
      rw [CallPattern.find?_congr (search?_functionLine hsymbol _)]
      exact CallPattern.find?_call (isWord_function hsymbol) hgs hargs (" \x7b" : Text)
    have hread : Recognizer.readOtherStyle
        ⟨symbol ++ ("_create" : Text), gs, [("lv_obj_t * parent" : Text)]⟩ = .ok none := by
      rcases gs with _ | ⟨g, _ | ⟨g', gs⟩⟩ <;> rfl
    rw [Recognizer.toOption_ofCall, hfind, Option.bind_some, hread]
    rfl

theorem find?_declaration_functionLine (number : Int) :
    Recognizer.declaration.find? (functionLine symbol) number = none := by
  have hf := isWord_function hsymbol
  obtain ⟨p, t, hp⟩ := List.exists_cons_of_ne_nil hf.ne_nil
  have hword : p.isWord = true := hf.all p (by simp [hp])
  have hvoid : Text.IsWord "void" := .ofList (by decide)
  have htext : functionLine symbol = ("void" : Text) ++ .char ' ' ::
      (p :: t ++ ("(lv_obj_t * parent) \x7b" : Text)) := by
    rw [← hp]
    simp only [functionLine, List.append_assoc]
    rfl
  have hstart : Text.stripStart (.char ' ' :: (p :: t ++ ("(lv_obj_t * parent) \x7b" : Text))) =
      p :: (t ++ ("(lv_obj_t * parent) \x7b" : Text)) := by
    rw [Text.stripStart, List.dropWhile_cons, if_pos (by decide), List.cons_append,
      List.dropWhile_cons, CodePoint.isBlank_of_isWord hword, if_neg Bool.false_ne_true]
  refine Recognizer.find?_declaration ?_ number
  rw [htext]
  refine Recognizer.declared?_of_isWord hvoid (Text.endsWord_cons rfl _) hstart ?_ ?_
  · rintro rfl
    cases hword
  · exact fun h => absurd h (by decide)

/-- **The first line of a function says nothing.** -/
theorem Extraction.Says.function : Says (functionLine symbol) [] := by
  have hf := isWord_function hsymbol
  have hlast : (functionLine symbol).getLast? = some (.char '\x7b') := by
    rw [functionLine, List.getLast?_append]
    rfl
  have hhead : (functionLine symbol).head? = some (.char 'v') := rfl
  have hlv : ("lv_" : Text) <:+: functionLine symbol :=
    (show ("lv_" : Text) <:+: ("(lv_obj_t * parent) \x7b" : Text) by decide).trans
      (List.suffix_append _ _).isInfix
  change Says ([] ++ functionLine symbol) _
  refine Says.of_code (by simp) (by decide) ?_ (.of_ends hhead hlast rfl rfl) ?_ hhead rfl hlv
    fun number => ?_
  · exact .append (.append (by decide) hf.inLine) (by decide)
  · exact .append (.append (.of_isInert (by decide)) (.of_isWord hf)) (.of_isInert (by decide))
  have hothers := Recognizer.rejects_create (f := symbol ++ ("_create" : Text))
    (List.suffix_append _ _)
  simp only [List.forall_mem_cons] at hothers
  obtain ⟨hcreation, htext, hsize, hvalue, hrange, hknown, halign, hcenter, hposition, -⟩ := hothers
  have hnone {pattern : CallPattern} (hrej : pattern.Rejects (symbol ++ ("_create" : Text)))
      (read : Call → Except Fault (Option (Text × Assertion))) :
      (Recognizer.ofCall pattern read (functionLine symbol) number).toOption.join = none :=
    Recognizer.find?_of_pattern (find?_functionLine hsymbol hrej) read number
  have hsetters : ∀ r ∈ Recognizer.setters, r.find? (functionLine symbol) number = none := by
    simp only [Recognizer.setters, List.forall_mem_cons]
    exact ⟨hnone htext _, hnone hsize _, hnone hvalue _, hnone hrange _, hnone hknown _,
      find?_otherStyle_functionLine hsymbol number, hnone halign _, hnone hcenter _,
      hnone hposition _, by simp⟩
  have hcreated : Recognizer.creation.find? (functionLine symbol) number = none :=
    hnone hcreation Recognizer.readCreation
  rw [Recognizer.lineFacts_of_setters hsetters, find?_declaration_functionLine hsymbol, hcreated]
  rfl

end Function

end LvglForest
