import LvglForest.Source.Literal
import LvglForest.Proofs.Text.Blank
import LvglForest.Proofs.Text.Infix
import LvglForest.Proofs.Text.Lines
import LvglForest.Proofs.Text.Utf8

/-!
# Literals read back

The inside of a literal (`IsBody`) is a sequence of code points that are neither a quote nor a
backslash and of backslashes with the code point after them. What is written for a text is such an
inside, so the reader of literals ends exactly at its closing quote (`body?_of_isBody`).

Each code point is written so that it is read back alone, whatever follows it
(`decodeBody_encodePoint_append`): a control character and a kept byte take three octal digits,
which no digit after them can extend. So a written text stands for its own bytes
(`decodeBody_encodeBody`), and a text that was read from literals is read back from its own literal
(`roundTrip`). A literal is written in one line (`inLine_encodeBody`) and names no `lv_` that its
text does not name (`not_infix_encodeBody`).
-/

namespace LvglForest.Literal

/-! ## The inside of a literal -/

/-- What can stand between two quotes of the given kind. -/
inductive IsBody (quote : CodePoint) : Text → Prop
  | nil : IsBody quote []
  | plain {p : CodePoint} {t : Text} (hquote : p ≠ quote) (hescape : p ≠ .char '\\')
      (ht : IsBody quote t) : IsBody quote (p :: t)
  | escape (p : CodePoint) {t : Text} (ht : IsBody quote t) : IsBody quote (.char '\\' :: p :: t)

theorem IsBody.append {quote : CodePoint} {s t : Text} (hs : IsBody quote s)
    (ht : IsBody quote t) : IsBody quote (s ++ t) := by
  induction hs with
  | nil => exact ht
  | plain hquote hescape _ ih => exact .plain hquote hescape ih
  | escape p _ ih => exact .escape p ih

/-- A literal is read up to the quote that closes it. -/
theorem body?_of_isBody {b : Text} (hb : IsBody (.char '"') b) (r : Text) :
    body? (b ++ .char '"' :: r) = some (b, r) := by
  induction hb with
  | nil => rfl
  | @plain p t hquote hescape _ ih =>
    simp only [List.cons_append]
    rw [body?, if_neg hescape, ih]
    · rfl
    · exact fun h => hquote h
    · exact fun x s h _ => hescape h
  | @escape p t _ ih =>
    simp only [List.cons_append]
    rw [body?, ih]
    rfl

theorem bodies_nil : bodies [] = ([], true) := by
  rw [bodies]
  rfl

/-- The first literal of a sequence is read before the others. -/
theorem bodies_of_body? {u t b rest : Text} (hs : u.stripStart = .char '"' :: t)
    (hb : body? t = some (b, rest)) : bodies u = (b :: (bodies rest).1, (bodies rest).2) := by
  rw [bodies]
  split
  · next h => rw [hs] at h; cases h
  · next p r h =>
    rw [hs] at h
    cases h
    rw [if_pos rfl]
    split
    · next hn => rw [hb] at hn; cases hn
    · next b' rest' hs =>
      rw [hb] at hs
      cases hs
      rfl

/-! ## Written code points -/

theorem prepend_ok (bytes rest : List UInt8) : prepend bytes (.ok rest) = .ok (bytes ++ rest) := rfl

theorem decodeBody_escape {q : CodePoint} {b : UInt8} (h : simpleEscape? q = some b) (t : Text) :
    decodeBody (.char '\\' :: q :: t) = prepend [b] (decodeBody t) := by
  rw [decodeBody.eq_def]
  simp only [if_true, h]

theorem decodeBody_plain {p : CodePoint} {bytes : List UInt8} (hp : p ≠ .char '\\')
    (h : plainBytes p = .ok bytes) (t : Text) :
    decodeBody (p :: t) = prepend bytes (decodeBody t) := by
  cases t with
  | nil => rw [decodeBody, decodeBody, h, prepend_ok, List.append_nil]
  | cons q t =>
    rw [decodeBody.eq_def]
    simp only [if_neg hp, h]

/-- An octal digit is no letter of an escape. -/
theorem octalDigit {m : Nat} (hm : m < 8) :
    simpleEscape? (.char (Char.ofNat (48 + m))) = none ∧
      CodePoint.char (Char.ofNat (48 + m)) ≠ .char 'x' ∧
      isOctal (.char (Char.ofNat (48 + m))) = true ∧
      octalValue (.char (Char.ofNat (48 + m))) = m := by
  revert m
  decide

/-- Three octal digits are read as one byte, whatever comes after them. -/
theorem decodeBody_octalEscape {n : Nat} (hn : n < 0x100) (t : Text) :
    decodeBody (octalEscape n ++ t) = prepend [.ofNat n] (decodeBody t) := by
  obtain ⟨hs, hx, ho, hv⟩ := octalDigit (m := n / 64 % 8) (by omega)
  obtain ⟨-, -, ho', hv'⟩ := octalDigit (m := n / 8 % 8) (by omega)
  obtain ⟨-, -, ho'', hv''⟩ := octalDigit (m := n % 8) (by omega)
  have hn : n / 64 % 8 * 64 + n / 8 % 8 * 8 + n % 8 = n := by omega
  simp only [octalEscape, List.cons_append, List.nil_append]
  rw [decodeBody.eq_def]
  simp only [if_true, hs, if_neg hx, ho, ho', ho'', hv, hv', hv'', hn]

/-- **A code point is read back alone**: what is written for it stands for its bytes before any
text. -/
theorem decodeBody_encodePoint_append {p : CodePoint} {bytes : List UInt8}
    (h : Utf8.encodePoint? p = some bytes) (t : Text) :
    decodeBody (encodePoint p ++ t) = prepend bytes (decodeBody t) := by
  unfold encodePoint
  split
  · next hp =>
    rcases hp with rfl | rfl <;> cases h <;> exact decodeBody_escape rfl t
  next hp =>
  rw [not_or] at hp
  split
  · next hn => subst hn; cases h; exact decodeBody_escape rfl t
  split
  · next ht => subst ht; cases h; exact decodeBody_escape rfl t
  split
  · next hr => subst hr; cases h; exact decodeBody_escape rfl t
  split
  · next hd =>
    rw [decodeBody_octalEscape (by omega)]
    cases p with
    | char c =>
      have hc := c.valid
      simp only [CodePoint.value, Char.toNat, UInt32.isValidChar, Nat.isValidChar] at hd hc
      omega
    | surrogate n =>
      simp only [CodePoint.value] at hd
      simp only [Utf8.encodePoint?, CodePoint.strayByte?, if_pos (show 0x480 ≤ n.val ∧ n.val < 0x500 by omega),
        Option.map_some, Option.some.injEq] at h
      rw [← h]
      simp only [CodePoint.value, show 0xD800 + n.val - 0xDC00 = n.val - 0x400 by omega]
  next hd =>
  split
  · next hc =>
    rw [decodeBody_octalEscape (by omega)]
    cases p with
    | char c =>
      simp only [CodePoint.value] at hc
      simp only [Utf8.encodePoint?, Utf8.encodeChar, if_pos (show c.toNat < 0x80 by omega),
        Option.some.injEq] at h
      rw [← h]
      rfl
    | surrogate n => simp only [CodePoint.value] at hc; omega
  · cases p with
    | char c =>
      cases h
      exact decodeBody_plain hp.1 rfl t
    | surrogate n =>
      simp only [CodePoint.value] at hd
      simp only [Utf8.encodePoint?, CodePoint.strayByte?,
        if_neg (show ¬ (0x480 ≤ n.val ∧ n.val < 0x500) by omega), Option.map_none] at h
      cases h

theorem isBody_octalEscape (n : Nat) : IsBody (.char '"') (octalEscape n) := by
  have key : ∀ m < 8, CodePoint.char (Char.ofNat (48 + m)) ≠ .char '"' ∧
      CodePoint.char (Char.ofNat (48 + m)) ≠ .char '\\' := by
    decide
  have h1 := key (n / 8 % 8) (by omega)
  have h2 := key (n % 8) (by omega)
  exact .escape _ (.plain h1.1 h1.2 (.plain h2.1 h2.2 .nil))

/-- What is written for a code point can stand inside a literal. -/
theorem isBody_encodePoint (p : CodePoint) : IsBody (.char '"') (encodePoint p) := by
  unfold encodePoint
  split
  · exact .escape p .nil
  next hp =>
  rw [not_or] at hp
  split
  · exact .escape _ .nil
  split
  · exact .escape _ .nil
  split
  · exact .escape _ .nil
  split
  · exact isBody_octalEscape _
  split
  · exact isBody_octalEscape _
  · exact .plain hp.2 hp.1 .nil

/-! ## Written texts -/

theorem encodeBody_cons (p : CodePoint) (t : Text) :
    encodeBody (p :: t) = encodePoint p ++ encodeBody t := List.flatMap_cons

theorem isBody_encodeBody (t : Text) : IsBody (.char '"') (encodeBody t) := by
  induction t with
  | nil => exact .nil
  | cons p t ih => exact (isBody_encodePoint p).append ih

/-- A text stands for its own bytes. -/
theorem decodeBody_encodeBody {t : Text} {bytes : List UInt8} (h : Utf8.encode? t = some bytes) :
    decodeBody (encodeBody t) = .ok bytes := by
  induction t generalizing bytes with
  | nil => cases h; rfl
  | cons p t ih =>
    rw [Utf8.encode?_cons, Option.bind_eq_some_iff] at h
    obtain ⟨first, hp, h⟩ := h
    obtain ⟨rest, ht, rfl⟩ := Option.map_eq_some_iff.1 h
    rw [encodeBody_cons, decodeBody_encodePoint_append hp, ih ht, prepend_ok]

theorem bodies_encode (t : Text) : bodies (encode t) = ([encodeBody t], true) := by
  rw [encode, List.cons_append, bodies_of_body? rfl (body?_of_isBody (isBody_encodeBody t) []),
    bodies_nil]

/-- The literal of a text stands for the text of its bytes. -/
theorem decode?_encode {t : Text} {bytes : List UInt8} (h : Utf8.encode? t = some bytes) :
    decode? (encode t) = .ok (some (Utf8.decode bytes)) := by
  have hs : (encode t).strip = encode t := Text.strip_eq_self (.wrap rfl rfl _)
  rw [decode?, bytes?, hs, bodies_encode]
  simp only [List.mapM_cons, List.mapM_nil, decodeBody_encodeBody h]
  simp [bind, Except.bind, pure, Except.pure, Except.map]

/-! ## Written texts in a line -/

/-- A code point is written as itself or as a backslash and other characters of ASCII. -/
theorem encodePoint_cases (p : CodePoint) :
    (encodePoint p = [p] ∧ 0x20 ≤ p.value ∧ p ≠ .char '\\') ∨
      ∃ x, encodePoint p = .char '\\' :: x ∧
        ∀ q ∈ x, 0x20 ≤ q.value ∧ q.value < 0x75 ∧ q ≠ .char 'l' := by
  have hdigits (n : Nat) : ∀ q ∈ (octalEscape n).tail,
      0x20 ≤ q.value ∧ q.value < 0x75 ∧ q ≠ .char 'l' := by
    have key : ∀ m < 8, 0x20 ≤ (CodePoint.char (Char.ofNat (48 + m))).value ∧
        (CodePoint.char (Char.ofNat (48 + m))).value < 0x75 ∧
        CodePoint.char (Char.ofNat (48 + m)) ≠ .char 'l' := by
      decide
    simp only [octalEscape, List.tail_cons, List.forall_mem_cons]
    exact ⟨key _ (by omega), key _ (by omega), key _ (by omega), by simp⟩
  unfold encodePoint
  split
  · next hp => exact .inr ⟨[p], rfl, by rcases hp with rfl | rfl <;> decide⟩
  next hp =>
  rw [not_or] at hp
  split
  · exact .inr ⟨[.char 'n'], rfl, by decide⟩
  split
  · exact .inr ⟨[.char 't'], rfl, by decide⟩
  split
  · exact .inr ⟨[.char 'r'], rfl, by decide⟩
  split
  · exact .inr ⟨_, rfl, hdigits _⟩
  split
  · exact .inr ⟨_, rfl, hdigits _⟩
  · next hc =>
    rw [not_or, Nat.not_lt] at hc
    exact .inl ⟨rfl, hc.1, hp.1⟩

/-- No code point that ends a line without being a control character of ASCII: the next line U+0085
and the separators U+2028 and U+2029 are written as they are. -/
def HasNoWideBreak (t : Text) : Prop :=
  ∀ p ∈ t, p.value ≠ 0x85 ∧ p.value ≠ 0x2028 ∧ p.value ≠ 0x2029

instance (t : Text) : Decidable (HasNoWideBreak t) :=
  inferInstanceAs (Decidable (∀ p ∈ t, p.value ≠ 0x85 ∧ p.value ≠ 0x2028 ∧ p.value ≠ 0x2029))

theorem HasNoWideBreak.of_inLine {t : Text} (h : t.InLine) : HasNoWideBreak t := by
  intro p hp
  have hbreak := h p hp
  simp only [CodePoint.isLineBreak, Bool.or_eq_false_iff, beq_eq_false_iff_ne] at hbreak
  exact ⟨hbreak.1.1.2, hbreak.1.2, hbreak.2⟩

/-- A text is written in one line. -/
theorem inLine_encodeBody {t : Text} (h : HasNoWideBreak t) : (encodeBody t).InLine := by
  have hvisible {q : CodePoint} (hlow : 0x20 ≤ q.value)
      (hq : q.value ≠ 0x85 ∧ q.value ≠ 0x2028 ∧ q.value ≠ 0x2029) : q.isLineBreak = false := by
    simp only [CodePoint.isLineBreak, Bool.or_eq_false_iff, Bool.and_eq_false_iff,
      decide_eq_false_iff_not, beq_eq_false_iff_ne]
    omega
  intro q hq
  obtain ⟨p, hp, hq⟩ := List.mem_flatMap.1 hq
  rcases encodePoint_cases p with ⟨he, hlow, -⟩ | ⟨x, he, hx⟩
  · rw [he, List.mem_singleton] at hq
    subst hq
    exact hvisible hlow (h q hp)
  · rw [he, List.mem_cons] at hq
    rcases hq with rfl | hq
    · rfl
    · obtain ⟨hlow, hhigh, -⟩ := hx q hq
      exact hvisible hlow (by omega)

/-- What a written text starts with, up to quotes and backslashes, the text starts with. -/
theorem prefix_of_prefix_encodeBody {u t r : Text} (hu : ∀ q ∈ u, q ≠ .char '"' ∧ q ≠ .char '\\')
    (h : u <+: encodeBody t ++ .char '"' :: r) : u <+: t := by
  induction u generalizing t with
  | nil => exact List.nil_prefix
  | cons q u ih =>
    rw [List.forall_mem_cons] at hu
    cases t with
    | nil =>
      rw [show encodeBody [] = [] from rfl, List.nil_append, List.cons_prefix_cons] at h
      exact absurd h.1 hu.1.1
    | cons p t =>
      rw [encodeBody_cons, List.append_assoc] at h
      rcases encodePoint_cases p with ⟨he, -, -⟩ | ⟨x, he, -⟩
      · rw [he, List.singleton_append, List.cons_prefix_cons] at h
        rw [List.cons_prefix_cons]
        exact ⟨h.1, ih hu.2 h.2⟩
      · rw [he, List.cons_append, List.cons_prefix_cons] at h
        exact absurd h.1 hu.1.2

/-- Where a text does not name `lv_`, its literal does not. -/
theorem not_infix_encodeBody {t r : Text} (ht : ¬ ("lv_" : Text) <:+: t)
    (hr : ¬ ("lv_" : Text) <:+: r) : ¬ ("lv_" : Text) <:+: encodeBody t ++ .char '"' :: r := by
  intro h
  induction t with
  | nil => exact hr (Text.infix_of_infix_append (s := [.char '"']) (by decide) h)
  | cons p t ih =>
    have hp : ¬ ("lv_" : Text) <:+: t := fun hin => ht (hin.trans (List.suffix_cons p t).isInfix)
    have hsplit := h
    rw [encodeBody_cons, List.append_assoc] at hsplit
    rcases encodePoint_cases p with ⟨he, -, -⟩ | ⟨x, he, hx⟩
    · rw [he, List.singleton_append, List.infix_cons_iff] at hsplit
      rcases hsplit with hpre | hin
      · have hall : ("lv_" : Text) <+: encodeBody (p :: t) ++ .char '"' :: r := by
          rw [encodeBody_cons, he, List.append_assoc, List.singleton_append]
          exact hpre
        exact ht (prefix_of_prefix_encodeBody (by decide) hall).isInfix
      · exact ih hp hin
    · have hnot : .char 'l' ∉ encodePoint p := by
        rw [he, List.mem_cons, not_or]
        exact ⟨by decide, fun hmem => (hx _ hmem).2.2 rfl⟩
      exact ih hp (Text.infix_of_infix_append hnot hsplit)

/-! ## Texts that come from literals -/

/-- A text that some sequence of literals stands for. -/
def IsDecoded (t : Text) : Prop := ∃ token, decode? token = .ok (some t)

/-- Such a text has bytes, and they are read as the text again. -/
theorem IsDecoded.exists_bytes {t : Text} (h : IsDecoded t) :
    ∃ bytes, Utf8.encode? t = some bytes ∧ Utf8.decode bytes = t := by
  obtain ⟨token, h⟩ := h
  unfold decode? at h
  cases hb : bytes? token with
  | error f => rw [hb] at h; cases h
  | ok bytes? =>
    rw [hb] at h
    simp only [Except.map, Except.ok.injEq, Option.map_eq_some_iff] at h
    obtain ⟨bytes, -, rfl⟩ := h
    exact ⟨bytes, Utf8.encode?_decode bytes, rfl⟩

theorem IsDecoded.decode?_encode {t : Text} (h : IsDecoded t) :
    decode? (encode t) = .ok (some t) := by
  obtain ⟨bytes, he, hd⟩ := h.exists_bytes
  rw [Literal.decode?_encode he, hd]

/-- A text of characters and kept bytes has bytes. -/
theorem exists_encode? {t : Text}
    (h : ∀ p ∈ t, p.isSurrogate = false ∨ 0xDC80 ≤ p.value ∧ p.value ≤ 0xDCFF) :
    ∃ bytes, Utf8.encode? t = some bytes := by
  induction t with
  | nil => exact ⟨[], rfl⟩
  | cons p t ih =>
    obtain ⟨rest, hrest⟩ := ih fun q hq => h q (List.mem_cons_of_mem _ hq)
    have hp : ∃ bytes, Utf8.encodePoint? p = some bytes := by
      cases p with
      | char c => exact ⟨_, rfl⟩
      | surrogate n =>
        rcases h _ List.mem_cons_self with hs | hs
        · cases hs
        · simp only [CodePoint.value] at hs
          have hn : 0x480 ≤ n.val ∧ n.val < 0x500 := by omega
          simp only [Utf8.encodePoint?, CodePoint.strayByte?, if_pos hn]
          exact ⟨_, rfl⟩
    obtain ⟨bytes, hbytes⟩ := hp
    exact ⟨bytes ++ rest, by rw [Utf8.encode?_cons, hbytes, hrest]; rfl⟩

/-- **The codec of literals**: a text that was read from literals is read back from the literal
written for it; and the inside of the literal of any text of characters and kept bytes stands for
exactly the bytes of that text. -/
theorem roundTrip :
    (∀ token t, decode? token = .ok (some t) → decode? (encode t) = .ok (some t)) ∧
      ∀ t : Text, (∀ p ∈ t, p.isSurrogate = false ∨ 0xDC80 ≤ p.value ∧ p.value ≤ 0xDCFF) →
        ∃ body bytes, encode t = .char '"' :: body ++ [.char '"'] ∧
          decodeBody body = .ok bytes ∧ Utf8.encode? t = some bytes := by
  refine ⟨fun token t h => IsDecoded.decode?_encode ⟨token, h⟩, fun t h => ?_⟩
  obtain ⟨bytes, hbytes⟩ := exists_encode? h
  exact ⟨encodeBody t, bytes, rfl, decodeBody_encodeBody hbytes, hbytes⟩

/-- A character whose bytes stand in two literals, before digits, and a byte that is no
character before digits. -/
theorem roundTrip_split :
    decode? "\"\\xC3\" \"\\2517\\3777\"" =
        .ok (some (("é7" : Text) ++ [.ofStrayByte 0xFF] ++ ("7" : Text))) ∧
      decode? (encode (("é7" : Text) ++ [.ofStrayByte 0xFF] ++ ("7" : Text))) =
        .ok (some (("é7" : Text) ++ [.ofStrayByte 0xFF] ++ ("7" : Text))) ∧
      ∃ body bytes, encode (("é7" : Text) ++ [.ofStrayByte 0xFF] ++ ("7" : Text)) =
          .char '"' :: body ++ [.char '"'] ∧
        decodeBody body = .ok bytes ∧
        Utf8.encode? (("é7" : Text) ++ [.ofStrayByte 0xFF] ++ ("7" : Text)) = some bytes := by
  have h : decode? "\"\\xC3\" \"\\2517\\3777\"" =
      .ok (some (("é7" : Text) ++ [.ofStrayByte 0xFF] ++ ("7" : Text))) := by
    have hstrip : Text.strip "\"\\xC3\" \"\\2517\\3777\"" = "\"\\xC3\" \"\\2517\\3777\"" := by
      decide
    have hquote : Text.stripStart "\"\\xC3\" \"\\2517\\3777\"" =
        .char '"' :: ("\\xC3\" \"\\2517\\3777\"" : Text) := by decide
    have hfirst : body? "\\xC3\" \"\\2517\\3777\"" =
        some (("\\xC3" : Text), (" \"\\2517\\3777\"" : Text)) := by decide
    have hspace : Text.stripStart " \"\\2517\\3777\"" =
        .char '"' :: ("\\2517\\3777\"" : Text) := by decide
    have hsecond : body? "\\2517\\3777\"" = some (("\\2517\\3777" : Text), ([] : Text)) := by
      decide
    have hleft : decodeBody "\\xC3" = .ok [0xC3] := by rfl
    have hseven (t : Text) : decodeBody (.char '7' :: t) = prepend [0x37] (decodeBody t) :=
      decodeBody_plain (by decide) rfl t
    have hright : decodeBody "\\2517\\3777" = .ok [0xA9, 0x37, 0xFF, 0x37] := by
      have hpieces : ("\\2517\\3777" : Text) =
          octalEscape 0xA9 ++ .char '7' :: (octalEscape 0xFF ++ [.char '7']) := by decide
      rw [hpieces, decodeBody_octalEscape (by decide), hseven, decodeBody_octalEscape (by decide),
        hseven]
      rfl
    have hdecode : Utf8.decode [0xC3, 0xA9, 0x37, 0xFF, 0x37] =
        ("é7" : Text) ++ [.ofStrayByte 0xFF] ++ ("7" : Text) := by decide
    rw [decode?, bytes?, hstrip, bodies_of_body? hquote hfirst, bodies_of_body? hspace hsecond,
      bodies_nil, ← hdecode]
    simp only [List.mapM_cons, List.mapM_nil, hleft, hright]
    rfl
  exact ⟨h, roundTrip.1 _ _ h, roundTrip.2 _ (by decide)⟩

end LvglForest.Literal
