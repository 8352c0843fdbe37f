import LvglForest.Proofs.Fault
import LvglForest.Proofs.Source.Literal

/-!
# Sequences of literals

A sequence is made of literals and of blanks around and between them (`IsSequence`). Literals are
read one after the other up to the first thing that is neither, so that exactly the sequences are
read to their end (`bodies_eq_true_iff`), and a sequence is read before what follows it
(`IsSequence.bodies_append`). The bytes of the literals are put together before they are read as a
text. So a token stands for a text exactly if it is a sequence of at least one literal and no
surrogate stands in it, and sequences that follow each other stand for their bytes one after the
other (`decode?_isSequence`).
-/

namespace LvglForest.Literal

/-! ## What a sequence is -/

/-- Literals with the given insides, one after the other, and any blanks around and between them. -/
inductive IsSequence : List Text → Text → Prop
  | nil : IsSequence [] []
  | blank {p : CodePoint} {bs : List Text} {t : Text} (hp : p.isBlank = true)
      (ht : IsSequence bs t) : IsSequence bs (p :: t)
  | literal {b : Text} {bs : List Text} {t : Text} (hb : IsBody (.char '"') b)
      (ht : IsSequence bs t) : IsSequence (b :: bs) (.char '"' :: b ++ .char '"' :: t)

namespace IsSequence

theorem append {bs cs : List Text} {s t : Text} (hs : IsSequence bs s) (ht : IsSequence cs t) :
    IsSequence (bs ++ cs) (s ++ t) := by
  induction hs with
  | nil => exact ht
  | blank hp _ ih => exact .blank hp ih
  | literal hb _ ih =>
    have h := IsSequence.literal hb ih
    simpa only [List.cons_append, List.append_assoc] using h

theorem blanks {s : Text} (hs : ∀ p ∈ s, p.isBlank = true) : IsSequence [] s := by
  induction s with
  | nil => exact .nil
  | cons p s ih =>
    rw [List.forall_mem_cons] at hs
    exact .blank hs.1 (ih hs.2)

theorem of_cons_blank {p : CodePoint} (hp : p.isBlank = true) {bs : List Text} {t : Text}
    (h : IsSequence bs (p :: t)) : IsSequence bs t := by
  cases h with
  | blank _ ht => exact ht
  | literal => cases hp

/-- A sequence that ends in a blank is one without it: no literal ends in a blank. -/
theorem of_concat_blank {p : CodePoint} (hp : p.isBlank = true) {bs : List Text} {t : Text}
    (h : IsSequence bs (t ++ [p])) : IsSequence bs t := by
  generalize hu : t ++ [p] = u at h
  induction h generalizing t with
  | nil => simp at hu
  | @blank q bs u hq hseq ih =>
    cases t with
    | nil =>
      cases hu
      exact hseq
    | cons r t =>
      cases hu
      exact .blank hq (ih rfl)
  | @literal b bs u hb hseq ih =>
    rcases List.eq_nil_or_concat' u with rfl | ⟨v, q, rfl⟩
    · obtain ⟨-, hlast⟩ := List.append_inj' hu rfl
      cases hlast
      cases hp
    · have hsplit : t ++ [p] = (.char '"' :: b ++ .char '"' :: v) ++ [q] := by
        simpa using hu
      obtain ⟨rfl, hlast⟩ := List.append_inj' hsplit rfl
      cases hlast
      exact .literal hb (ih rfl)

end IsSequence

/-! ### Blanks around a sequence -/

theorem isSequence_stripStart_iff {bs : List Text} {t : Text} :
    IsSequence bs t.stripStart ↔ IsSequence bs t := by
  induction t with
  | nil => rfl
  | cons p t ih =>
    rw [Text.stripStart, List.dropWhile_cons]
    split
    · next hp =>
      exact ih.trans ⟨.blank hp, .of_cons_blank hp⟩
    · rfl

theorem isSequence_stripEnd_iff {bs : List Text} {t : Text} :
    IsSequence bs t.stripEnd ↔ IsSequence bs t := by
  obtain ⟨w, hw, hblank⟩ := Text.exists_eq_stripEnd_append t
  have hiff : IsSequence bs t.stripEnd ↔ IsSequence bs (t.stripEnd ++ w) := by
    clear hw
    generalize t.stripEnd = u
    induction w generalizing u with
    | nil => rw [List.append_nil]
    | cons p w ih =>
      rw [List.forall_mem_cons] at hblank
      rw [List.append_cons, ← ih hblank.2]
      refine ⟨fun h => ?_, .of_concat_blank hblank.1⟩
      have hlonger := h.append (.blank hblank.1 .nil)
      rwa [List.append_nil] at hlonger
  rw [hiff, ← hw]

/-- The blanks around a sequence do not count. -/
theorem isSequence_strip_iff {bs : List Text} {t : Text} :
    IsSequence bs t.strip ↔ IsSequence bs t :=
  isSequence_stripEnd_iff.trans isSequence_stripStart_iff

/-! ## Reading a sequence -/

/-- **A literal is read** up to the quote that closes it, if there is one. -/
theorem body?_eq_some_iff {t b r : Text} :
    body? t = some (b, r) ↔ IsBody (.char '"') b ∧ t = b ++ .char '"' :: r := by
  constructor
  · intro h
    fun_induction body? t generalizing b r with
    | case1 => cases h
    | case2 t =>
      cases h
      exact ⟨.nil, rfl⟩
    | case3 p t ih =>
      obtain ⟨⟨b', r'⟩, h', e⟩ := Option.map_eq_some_iff.1 h
      cases e
      obtain ⟨hb, rfl⟩ := ih h'
      exact ⟨.escape p hb, rfl⟩
    | case4 => cases h
    | case5 p t hquote _ hescape ih =>
      obtain ⟨⟨b', r'⟩, h', e⟩ := Option.map_eq_some_iff.1 h
      cases e
      obtain ⟨hb, rfl⟩ := ih h'
      exact ⟨.plain hquote hescape hb, rfl⟩
  · rintro ⟨hb, rfl⟩
    exact body?_of_isBody hb r

/-- How a sequence is read from its first code point that is no blank. -/
theorem bodies_eq (u : Text) :
    bodies u =
      match u.stripStart with
      | [] => ([], true)
      | p :: t =>
        if p = .char '"' then
          match body? t with
          | none => ([], false)
          | some (b, r) => (b :: (bodies r).1, (bodies r).2)
        else ([], false) := by
  rw [bodies]
  split
  · next h => rw [h]
  · next p t h =>
    conv_rhs => rw [h]
    simp only
    split
    · split
      · next hb => rw [hb]
      · next b r hb => rw [hb]
    · rfl

theorem bodies_cons_blank {p : CodePoint} (hp : p.isBlank = true) (t : Text) :
    bodies (p :: t) = bodies t := by
  rw [bodies_eq, bodies_eq t, Text.stripStart, List.dropWhile_cons_of_pos hp]
  rfl

theorem bodies_literal {b : Text} (hb : IsBody (.char '"') b) (t : Text) :
    bodies (.char '"' :: b ++ .char '"' :: t) = (b :: (bodies t).1, (bodies t).2) :=
  bodies_of_body? rfl (body?_of_isBody hb t)

/-- A sequence is read before what follows it. -/
theorem IsSequence.bodies_append {bs : List Text} {s : Text} (hs : IsSequence bs s) (t : Text) :
    bodies (s ++ t) = (bs ++ (bodies t).1, (bodies t).2) := by
  induction hs with
  | nil => rfl
  | blank hp _ ih => rw [List.cons_append, bodies_cons_blank hp, ih]
  | literal hb _ ih =>
    rw [List.append_assoc, @List.cons_append _ _ _ t, bodies_literal hb, ih]
    rfl

/-- What is read of a text is a sequence that it starts with, and the whole text if nothing else
follows. -/
theorem exists_isSequence_bodies (u : Text) :
    ∃ s t, u = s ++ t ∧ IsSequence (bodies u).1 s ∧ ((bodies u).2 = true → t = []) := by
  -- What is left behind a blank or a literal is shorter.
  induction hn : u.length using Nat.strong_induction_on generalizing u with
  | h n ih =>
    subst hn
    cases u with
    | nil => exact ⟨[], [], rfl, by rw [bodies_nil]; exact .nil, fun _ => rfl⟩
    | cons p u =>
      by_cases hp : p.isBlank = true
      · obtain ⟨s, t, rfl, hs, ht⟩ := ih u.length (Nat.lt_succ_self _) u rfl
        rw [bodies_cons_blank hp]
        exact ⟨p :: s, t, rfl, .blank hp hs, ht⟩
      · have hstrip : Text.stripStart (p :: u) = p :: u := List.dropWhile_cons_of_neg hp
        have hread := bodies_eq (p :: u)
        rw [hstrip] at hread
        simp only at hread
        split at hread
        · next hquote =>
          split at hread
          · exact ⟨[], p :: u, rfl, by rw [hread]; exact .nil, by rw [hread]; simp⟩
          · next b r hb =>
            subst hquote
            obtain ⟨hbody, rfl⟩ := body?_eq_some_iff.1 hb
            obtain ⟨s, t, hr, hs, ht⟩ := ih r.length (by simp only [List.length_cons, List.length_append]; omega) r rfl
            rw [hread]
            refine ⟨.char '"' :: b ++ .char '"' :: s, t, ?_, .literal hbody hs, ht⟩
            conv => lhs; rw [hr]
            simp
        · exact ⟨[], p :: u, rfl, by rw [hread]; exact .nil, by rw [hread]; simp⟩

/-- **Exactly the sequences of literals** are read to their end. -/
theorem bodies_eq_true_iff {bs : List Text} {t : Text} :
    bodies t = (bs, true) ↔ IsSequence bs t := by
  constructor
  · intro h
    obtain ⟨s, r, hsplit, hs, hr⟩ := exists_isSequence_bodies t
    rw [h] at hs hr
    rw [hsplit, hr rfl, List.append_nil]
    exact hs
  · intro h
    have hread := h.bodies_append []
    rwa [List.append_nil, bodies_nil, List.append_nil] at hread

/-! ## The bytes of a sequence -/

theorem exists_prepend_iff {bytes : List UInt8} {r : Except Fault (List UInt8)} :
    (∃ d, prepend bytes r = .ok d) ↔ ∃ d, r = .ok d := Fault.exists_map_iff

theorem exists_plainBytes_iff {p : CodePoint} :
    (∃ bytes, plainBytes p = .ok bytes) ↔ p.isSurrogate = false := by
  cases p with
  | char c => exact iff_of_true ⟨_, rfl⟩ rfl
  | surrogate n => exact iff_of_false not_exists_ok Bool.noConfusion

theorem isSurrogate_of_simpleEscape? {p : CodePoint} {b : UInt8} (h : simpleEscape? p = some b) :
    p.isSurrogate = false := by
  cases p with
  | char c => rfl
  | surrogate n => cases h

theorem isSurrogate_of_isHexDigit {p : CodePoint} (h : p.isHexDigit = true) :
    p.isSurrogate = false := by
  cases p with
  | char c => rfl
  | surrogate n => cases h

theorem isSurrogate_of_isOctal {p : CodePoint} (h : isOctal p = true) :
    p.isSurrogate = false := by
  cases p with
  | char c => rfl
  | surrogate n =>
    simp only [isOctal, CodePoint.value, Bool.and_eq_true] at h
    exact absurd (of_decide_eq_true h.2) (by omega)

theorem isSurrogate_of_plainBytes_error {p : CodePoint} {f : Fault} (h : plainBytes p = .error f) :
    p.isSurrogate = true := by
  cases p with
  | char c => cases h
  | surrogate n => rfl

theorem isSurrogate_of_plainBytes {p : CodePoint} {d : List UInt8} (h : plainBytes p = .ok d) :
    p.isSurrogate = false := exists_plainBytes_iff.1 ⟨d, h⟩

theorem exists_decodeBody_iff (b : Text) :
    (∃ d, decodeBody b = .ok d) ↔ ∀ p ∈ b, p.isSurrogate = false := by
  have hbackslash : (CodePoint.char '\\').isSurrogate = false := rfl
  have hx : (CodePoint.char 'x').isSurrogate = false := rfl
  fun_induction decodeBody b <;>
    simp_all [exists_prepend_iff, exists_plainBytes_iff, isSurrogate_of_simpleEscape?,
      isSurrogate_of_isHexDigit, isSurrogate_of_isOctal, isSurrogate_of_plainBytes,
      isSurrogate_of_plainBytes_error]

/-- The bytes that literals with the given insides stand for together. -/
def joinBodies (bs : List Text) : Except Fault (List UInt8) :=
  (bs.mapM decodeBody).map List.flatten

theorem joinBodies_append {bs cs : List Text} {x y : List UInt8} (hx : joinBodies bs = .ok x)
    (hy : joinBodies cs = .ok y) : joinBodies (bs ++ cs) = .ok (x ++ y) := by
  obtain ⟨xs, hxs, rfl⟩ := exists_of_map_eq_ok hx
  obtain ⟨ys, hys, rfl⟩ := exists_of_map_eq_ok hy
  rw [joinBodies, List.mapM_append, hxs, hys, ← List.flatten_append]
  rfl

theorem exists_joinBodies_iff (bs : List Text) :
    (∃ d, joinBodies bs = .ok d) ↔ ∀ b ∈ bs, ∀ p ∈ b, p.isSurrogate = false := by
  rw [joinBodies, Fault.exists_map_iff]
  have h : Yields (fun ds => ∀ d ∈ ds, (fun _ => True) d) (bs.mapM decodeBody) ↔
      ∀ b ∈ bs, Yields (fun _ => True) (decodeBody b) := yields_mapM
  simp only [Yields, implies_true, and_true, exists_decodeBody_iff] at h
  exact h

theorem bytes?_eq (t : Text) : bytes? t = (joinBodies (bodies t.strip).1).map fun d =>
    if (bodies t.strip).2 && !(bodies t.strip).1.isEmpty then some d else none := by
  rw [bytes?]
  obtain ⟨bs, complete⟩ := bodies t.strip
  simp only [joinBodies]
  cases bs.mapM decodeBody <;> rfl

theorem bytes?_eq_ok_some_iff {t : Text} {d : List UInt8} : bytes? t = .ok (some d) ↔
    ∃ bs, bs ≠ [] ∧ IsSequence bs t ∧ joinBodies bs = .ok d := by
  rw [bytes?_eq]
  constructor
  · intro h
    obtain ⟨x, hx, hif⟩ := exists_of_map_eq_ok h
    obtain ⟨hread, hd⟩ := Option.ite_none_right_eq_some.1 hif
    simp only [Bool.and_eq_true, Bool.not_eq_true', List.isEmpty_eq_false_iff] at hread
    cases hd
    exact ⟨_, hread.2, isSequence_strip_iff.1 (bodies_eq_true_iff.1 (Prod.ext rfl hread.1)), hx⟩
  · rintro ⟨bs, hne, hseq, hd⟩
    rw [bodies_eq_true_iff.2 (isSequence_strip_iff.2 hseq), hd]
    simp [Except.map, hne]

/-- Reading fails exactly if a surrogate stands in one of the literals that a token starts with. -/
theorem exists_decode?_error_iff (t : Text) : (∃ f, decode? t = .error f) ↔
    ∃ bs s r, t.strip = s ++ r ∧ IsSequence bs s ∧ ∃ b ∈ bs, ∃ p ∈ b, p.isSurrogate = true := by
  have hfails : (∃ f, decode? t = .error f) ↔ ¬ ∃ d, joinBodies (bodies t.strip).1 = .ok d := by
    rw [decode?, bytes?_eq]
    cases joinBodies (bodies t.strip).1 with
    | ok d => simp [Except.map]
    | error f => simp [Except.map]
  rw [hfails, exists_joinBodies_iff]
  constructor
  · intro h
    simp only [not_forall, Bool.not_eq_false] at h
    obtain ⟨b, hb, p, hp, hsurrogate⟩ := h
    obtain ⟨s, r, hsplit, hs, -⟩ := exists_isSequence_bodies t.strip
    exact ⟨_, s, r, hsplit, hs, b, hb, p, hp, hsurrogate⟩
  · rintro ⟨bs, s, r, hsplit, hs, b, hb, p, hp, hsurrogate⟩ hall
    rw [hsplit, hs.bodies_append] at hall
    have hplain := hall b (List.mem_append_left _ hb) p hp
    rw [hsurrogate] at hplain
    cases hplain

/-- A token stands for a text exactly if it is a sequence of at least one literal whose bytes are
those of the text. -/
theorem decode?_eq_ok_some_iff {t u : Text} : decode? t = .ok (some u) ↔
    ∃ bs d, bs ≠ [] ∧ IsSequence bs t ∧ joinBodies bs = .ok d ∧ Utf8.decode d = u := by
  constructor
  · intro h
    obtain ⟨bytes, hbytes, hsome⟩ := exists_of_map_eq_ok h
    obtain ⟨d, rfl, hd⟩ := Option.map_eq_some_iff.1 hsome
    obtain ⟨bs, hne, hseq, hjoin⟩ := bytes?_eq_ok_some_iff.1 hbytes
    exact ⟨bs, d, hne, hseq, hjoin, hd⟩
  · rintro ⟨bs, d, hne, hseq, hjoin, rfl⟩
    rw [decode?, bytes?_eq_ok_some_iff.2 ⟨bs, hne, hseq, hjoin⟩]
    rfl

/-- **Sequences of literals.** Reading a token fails exactly if a surrogate stands in one of the
literals that the token starts with. Otherwise the token stands for a text exactly if it is, without
the blanks around it, one or more literals with nothing but blanks between them. Two tokens with
blanks between them stand for the bytes of the first and then those of the second, so that a
character whose bytes stand in both is read as that character. -/
theorem decode?_isSequence :
    (∀ t, (∃ f, decode? t = .error f) ↔
      ∃ bs s r, t.strip = s ++ r ∧ IsSequence bs s ∧ ∃ b ∈ bs, ∃ p ∈ b, p.isSurrogate = true) ∧
    (∀ t, (∀ f, decode? t ≠ .error f) →
      ((∃ u, decode? t = .ok (some u)) ↔ ∃ bs, bs ≠ [] ∧ IsSequence bs t.strip)) ∧
    ∀ a s b u v, decode? a = .ok (some u) → (∀ p ∈ s, p.isBlank = true) →
      decode? b = .ok (some v) →
      ∃ x y w, Utf8.encode? u = some x ∧ Utf8.encode? v = some y ∧
        decode? (a ++ s ++ b) = .ok (some w) ∧ Utf8.encode? w = some (x ++ y) ∧
        ∀ t : Text, (∀ p ∈ t, p.isSurrogate = false) → Utf8.encode? t = some (x ++ y) → w = t := by
  refine ⟨exists_decode?_error_iff, fun t hfail => ?_, fun a s b u v ha hs hb => ?_⟩
  · constructor
    · rintro ⟨u, hu⟩
      obtain ⟨bs, -, hne, hseq, -⟩ := decode?_eq_ok_some_iff.1 hu
      exact ⟨bs, hne, isSequence_strip_iff.2 hseq⟩
    · rintro ⟨bs, hne, hseq⟩
      have hplain : ∀ b ∈ bs, ∀ p ∈ b, p.isSurrogate = false := by
        intro b hb p hp
        rw [← Bool.not_eq_true]
        intro hsurrogate
        obtain ⟨f, hf⟩ := (exists_decode?_error_iff t).2
          ⟨bs, t.strip, [], (List.append_nil _).symm, hseq, b, hb, p, hp, hsurrogate⟩
        exact hfail f hf
      obtain ⟨d, hd⟩ := (exists_joinBodies_iff bs).2 hplain
      exact ⟨_, decode?_eq_ok_some_iff.2 ⟨bs, d, hne, isSequence_strip_iff.1 hseq, hd, rfl⟩⟩
  · obtain ⟨bs, x, hne, haseq, hx, rfl⟩ := decode?_eq_ok_some_iff.1 ha
    obtain ⟨cs, y, -, hbseq, hy, rfl⟩ := decode?_eq_ok_some_iff.1 hb
    have hseq : IsSequence (bs ++ cs) (a ++ s ++ b) := by
      simpa using (haseq.append (.blanks hs)).append hbseq
    refine ⟨x, y, Utf8.decode (x ++ y), Utf8.encode?_decode x, Utf8.encode?_decode y, ?_,
      Utf8.encode?_decode _, fun t ht hbytes => Utf8.decode_of_encode? ht hbytes⟩
    exact decode?_eq_ok_some_iff.2
      ⟨bs ++ cs, x ++ y, by simp [hne], hseq, joinBodies_append hx hy, rfl⟩

/-- A character whose bytes stand in two literals, the second with an escaped quote and blanks
around it. -/
theorem decode?_isSequence_split :
    let a : Text := "\"\\xC3\""
    let b : Text := " \"\\251\\\"\" "
    (∀ f, decode? a ≠ .error f) ∧ (∃ bs, bs ≠ [] ∧ IsSequence bs a.strip) ∧
      decode? a = .ok (some [.ofStrayByte 0xC3]) ∧
      (∀ p ∈ ("\t" : Text), p.isBlank = true) ∧
      decode? b = .ok (some [.ofStrayByte 0xA9, .char '"']) ∧
      decode? (a ++ "\t" ++ b) = .ok (some "é\"") := by
  repeat rw [Text.ofString_ofList]
  intro a b
  have hfirst : IsSequence ["\\xC3"] a := by
    have hsplit : a = .char '"' :: ("\\xC3" : Text) ++ .char '"' :: [] := by decide
    have hread : body? "\\xC3\"" = some (("\\xC3" : Text), []) := by decide
    rw [hsplit]
    exact .literal (body?_eq_some_iff.1 hread).1 .nil
  have ha : decode? a = .ok (some [.ofStrayByte 0xC3]) :=
    decode?_eq_ok_some_iff.2 ⟨_, [0xC3], List.cons_ne_nil _ _, hfirst, rfl, by decide⟩
  have hb : decode? b = .ok (some [.ofStrayByte 0xA9, .char '"']) := by
    have hsplit : b = .char ' ' :: (.char '"' :: ("\\251\\\"" : Text) ++ .char '"' :: " ") := by
      decide
    have hread : body? "\\251\\\"\"" = some (("\\251\\\"" : Text), []) := by decide
    have hsecond : IsSequence ["\\251\\\""] b := by
      rw [hsplit]
      exact .blank rfl (.literal (body?_eq_some_iff.1 hread).1 (.blank rfl .nil))
    have hbytes : decodeBody "\\251\\\"" = .ok [0xA9, 0x22] := by
      have hpieces : ("\\251\\\"" : Text) = octalEscape 0xA9 ++ .char '\\' :: .char '"' :: [] := by
        decide
      rw [hpieces, decodeBody_octalEscape (by decide), decodeBody_escape (b := 0x22) rfl]
      rfl
    have hjoined : joinBodies ["\\251\\\""] = .ok [0xA9, 0x22] := by
      simp only [joinBodies, List.mapM_cons, List.mapM_nil, hbytes]
      rfl
    exact decode?_eq_ok_some_iff.2
      ⟨_, [0xA9, 0x22], List.cons_ne_nil _ _, hsecond, hjoined, by decide⟩
  have hfail : ∀ f, decode? a ≠ .error f := by
    intro f hf
    rw [ha] at hf
    cases hf
  have hblank : ∀ p ∈ ("\t" : Text), p.isBlank = true := by decide
  obtain ⟨-, haccepts, hjoins⟩ := decode?_isSequence
  obtain ⟨x, y, w, hx, hy, hw, -, hchars⟩ := hjoins a "\t" b _ _ ha hblank hb
  have hx' : x = [0xC3] := (Option.some.inj hx).symm
  have hy' : y = [0xA9, 0x22] := (Option.some.inj hy).symm
  have hjoined : w = "é\"" := by
    refine hchars "é\"" (by decide) ?_
    rw [hx', hy']
    decide
  rw [hjoined] at hw
  exact ⟨hfail, (haccepts a hfail).1 ⟨_, ha⟩, ha, hblank, hb, hw⟩

end LvglForest.Literal
