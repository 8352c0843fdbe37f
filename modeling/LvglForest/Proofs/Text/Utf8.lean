import LvglForest.Text.Utf8
import Mathlib.Data.List.Basic

/-!
# Bytes kept through decoding

Decoding keeps every byte: what is read as a character is the encoding of that character and of no
other, and a byte that starts no character comes back from the surrogate that keeps it. So encoding
gives back any bytes that were decoded (`encode?_decode`), whatever they are. The other way round a
text of characters is read from its bytes (`decode_of_encode?`); kept bytes that make up a character
are read as that character.
-/

namespace LvglForest.Utf8

/-! ## Bytes of one character -/

theorem toNat_charOfNat {n : Nat} (h : n < 0xD800 ∨ 0xDFFF < n ∧ n < 0x110000) :
    (Char.ofNat n).toNat = n := by
  have hv : n.isValidChar := h
  rw [Char.ofNat, dif_pos hv]
  rfl

theorem ofNat_eq_of_toNat {a : UInt8} {n : Nat} (h : n = a.toNat) : UInt8.ofNat n = a := by
  rw [h, UInt8.ofNat_toNat]

theorem isContinuation_iff {b : UInt8} :
    isContinuation b = true ↔ 0x80 ≤ b.toNat ∧ b.toNat < 0xC0 := by
  simp [isContinuation, UInt8.le_iff_toNat_le, UInt8.lt_iff_toNat_lt]

/-- What `mayFollow` leaves out: overlong forms, surrogates and too large numbers. -/
theorem bounds_of_mayFollow {a b : UInt8} (h : mayFollow a b = true) :
    (0x80 ≤ b.toNat ∧ b.toNat < 0xC0) ∧ (a.toNat = 0xE0 → 0xA0 ≤ b.toNat) ∧
      (a.toNat = 0xED → b.toNat < 0xA0) ∧ (a.toNat = 0xF0 → 0x90 ≤ b.toNat) ∧
      (a.toNat = 0xF4 → b.toNat < 0x90) := by
  have key : ∀ n : Nat, n < 256 → (a.toNat = n ↔ a = UInt8.ofNat n) := by
    intro n hn
    rw [← UInt8.toNat_inj, UInt8.toNat_ofNat_of_lt' hn]
  rw [key 0xE0 (by omega), key 0xED (by omega), key 0xF0 (by omega), key 0xF4 (by omega)]
  simp only [mayFollow, Bool.and_eq_true, isContinuation_iff] at h
  refine ⟨h.1, ?_, ?_, ?_, ?_⟩ <;> rintro rfl <;>
    simpa [UInt8.le_iff_toNat_le, UInt8.lt_iff_toNat_lt] using h.2

theorem encodeChar_one {a : UInt8} (ha : a.toNat < 0x80) :
    encodeChar (Char.ofNat a.toNat) = [a] := by
  have hn := toNat_charOfNat (n := a.toNat) (by omega)
  simp only [encodeChar, hn, if_pos ha, UInt8.ofNat_toNat]

theorem encodeChar_two {a b : UInt8} (ha : 0xC2 ≤ a.toNat ∧ a.toNat < 0xE0)
    (hb : 0x80 ≤ b.toNat ∧ b.toNat < 0xC0) :
    encodeChar (Char.ofNat (a.toNat % 0x20 * 0x40 + payload b)) = [a, b] := by
  unfold payload
  have hn := toNat_charOfNat (n := a.toNat % 0x20 * 0x40 + b.toNat % 0x40) (by omega)
  simp only [encodeChar, hn]
  rw [if_neg (by omega), if_pos (by omega), ofNat_eq_of_toNat (a := a) (by omega),
    ofNat_eq_of_toNat (a := b) (by omega)]

theorem encodeChar_three {a b c : UInt8} (ha : 0xE0 ≤ a.toNat ∧ a.toNat < 0xF0)
    (hb : mayFollow a b = true) (hc : 0x80 ≤ c.toNat ∧ c.toNat < 0xC0) :
    encodeChar (Char.ofNat (a.toNat % 0x10 * 0x1000 + payload b * 0x40 + payload c)) =
      [a, b, c] := by
  obtain ⟨hb, he0, hed, -, -⟩ := bounds_of_mayFollow hb
  unfold payload
  have hn := toNat_charOfNat
    (n := a.toNat % 0x10 * 0x1000 + b.toNat % 0x40 * 0x40 + c.toNat % 0x40) (by omega)
  simp only [encodeChar, hn]
  rw [if_neg (by omega), if_neg (by omega), if_pos (by omega),
    ofNat_eq_of_toNat (a := a) (by omega), ofNat_eq_of_toNat (a := b) (by omega),
    ofNat_eq_of_toNat (a := c) (by omega)]

theorem encodeChar_four {a b c d : UInt8} (ha : 0xF0 ≤ a.toNat ∧ a.toNat < 0xF5)
    (hb : mayFollow a b = true) (hc : 0x80 ≤ c.toNat ∧ c.toNat < 0xC0)
    (hd : 0x80 ≤ d.toNat ∧ d.toNat < 0xC0) :
    encodeChar (Char.ofNat (a.toNat % 0x08 * 0x40000 + payload b * 0x1000 + payload c * 0x40 +
      payload d)) = [a, b, c, d] := by
  obtain ⟨hb, -, -, hf0, hf4⟩ := bounds_of_mayFollow hb
  unfold payload
  have hn := toNat_charOfNat
    (n := a.toNat % 0x08 * 0x40000 + b.toNat % 0x40 * 0x1000 + c.toNat % 0x40 * 0x40 +
      d.toNat % 0x40) (by omega)
  simp only [encodeChar, hn]
  rw [if_neg (by omega), if_neg (by omega), if_neg (by omega),
    ofNat_eq_of_toNat (a := a) (by omega), ofNat_eq_of_toNat (a := b) (by omega),
    ofNat_eq_of_toNat (a := c) (by omega), ofNat_eq_of_toNat (a := d) (by omega)]

/-- The character that bytes start with is the one whose encoding they start with. -/
theorem encodeChar_append_of_first? {a : UInt8} {r : List UInt8} {c : Char} {n : Nat}
    (h : first? (a :: r) = some (c, n)) : encodeChar c ++ r.drop (n - 1) = a :: r := by
  simp only [first?, UInt8.lt_iff_toNat_lt, UInt8.reduceToNat] at h
  split at h
  · next h1 =>
    cases h
    rw [encodeChar_one h1]
    rfl
  split at h
  · cases h
  next h2 =>
  split at h
  · next h3 =>
    split at h
    · next b s =>
      split at h
      · next hb =>
        cases h
        rw [encodeChar_two (by omega) (isContinuation_iff.1 hb)]
        rfl
      · cases h
    · cases h
  next h3 =>
  split at h
  · next h4 =>
    split at h
    · next b c s =>
      split at h
      · next hbc =>
        cases h
        rw [Bool.and_eq_true, isContinuation_iff] at hbc
        rw [encodeChar_three (by omega) hbc.1 hbc.2]
        rfl
      · cases h
    · cases h
  next h4 =>
  split at h
  · next h5 =>
    split at h
    · next b c d s =>
      split at h
      · next hbcd =>
        cases h
        rw [Bool.and_eq_true, Bool.and_eq_true, isContinuation_iff, isContinuation_iff] at hbcd
        rw [encodeChar_four (by omega) hbcd.1.1 hbcd.1.2 hbcd.2]
        rfl
      · cases h
    · cases h
  · cases h

/-- A byte that starts no character is none of ASCII. -/
theorem le_toNat_of_first?_eq_none {b : UInt8} {r : List UInt8} (h : first? (b :: r) = none) :
    0x80 ≤ b.toNat := by
  simp only [first?] at h
  split at h
  · cases h
  · next hb => simpa [UInt8.lt_iff_toNat_lt] using hb

/-- The surrogate of a byte gives it back. -/
theorem encodePoint?_ofStrayByte {b : UInt8} (h : 0x80 ≤ b.toNat) :
    encodePoint? (.ofStrayByte b) = some [b] := by
  have hb := b.toNat_lt
  have hs : 0xD800 ≤ 0xDC00 + b.toNat ∧ 0xDC00 + b.toNat < 0xE000 := by omega
  simp only [CodePoint.ofStrayByte, CodePoint.ofNat, dif_pos hs, encodePoint?,
    CodePoint.strayByte?]
  rw [if_pos (by omega), ofNat_eq_of_toNat (a := b) (by omega)]
  rfl

/-! ## Bytes of a text -/

theorem encode?_nil : encode? [] = some [] := rfl

theorem encode?_cons (p : CodePoint) (t : Text) :
    encode? (p :: t) = (encodePoint? p).bind fun bytes => (encode? t).map (bytes ++ ·) := by
  simp only [encode?, List.mapM_cons]
  cases encodePoint? p with
  | none => rfl
  | some bytes => cases List.mapM encodePoint? t <;> rfl

theorem encode?_decodeFrom (skip : Nat) (bytes : List UInt8) :
    encode? (decodeFrom skip bytes) = some (bytes.drop skip) := by
  fun_induction decodeFrom skip bytes with
  | case1 skip => rw [List.drop_nil]; exact encode?_nil
  | case2 skip b r ih => exact ih
  | case3 b r c n h ih =>
    rw [encode?_cons, ih]
    simpa [encodePoint?] using encodeChar_append_of_first? h
  | case4 b r h ih =>
    rw [encode?_cons, ih, encodePoint?_ofStrayByte (le_toNat_of_first?_eq_none h)]
    rfl

/-- **No byte is lost**: encoding gives back any bytes that were decoded. -/
theorem encode?_decode (bytes : List UInt8) : encode? (decode bytes) = some bytes :=
  encode?_decodeFrom 0 bytes


/-! ## Texts of characters -/

theorem toNat_byteOfNat {n : Nat} (h : n < 0x100) : (UInt8.ofNat n).toNat = n :=
  UInt8.toNat_ofNat_of_lt' h

theorem isContinuation_ofNat (k : Nat) : isContinuation (.ofNat (0x80 + k % 0x40)) = true := by
  rw [isContinuation_iff, toNat_byteOfNat (by omega)]
  omega

theorem payload_ofNat (k : Nat) : payload (.ofNat (0x80 + k % 0x40)) = k % 0x40 := by
  rw [payload, toNat_byteOfNat (by omega)]
  omega

theorem mayFollow_of_bounds {a b : UInt8} (h : isContinuation b = true)
    (he0 : a.toNat = 0xE0 → 0xA0 ≤ b.toNat) (hed : a.toNat = 0xED → b.toNat < 0xA0)
    (hf0 : a.toNat = 0xF0 → 0x90 ≤ b.toNat) (hf4 : a.toNat = 0xF4 → b.toNat < 0x90) :
    mayFollow a b = true := by
  have hbyte {n : Nat} (hn : n < 256) (h : (a == UInt8.ofNat n) = true) : a.toNat = n := by
    rw [beq_iff_eq] at h
    rw [h, toNat_byteOfNat hn]
  rw [mayFollow, h, Bool.true_and]
  split
  · next h => exact decide_eq_true (UInt8.le_iff_toNat_le.2 (he0 (hbyte (by decide) h)))
  split
  · next h => exact decide_eq_true (UInt8.lt_iff_toNat_lt.2 (hed (hbyte (by decide) h)))
  split
  · next h => exact decide_eq_true (UInt8.le_iff_toNat_le.2 (hf0 (hbyte (by decide) h)))
  split
  · next h => exact decide_eq_true (UInt8.lt_iff_toNat_lt.2 (hf4 (hbyte (by decide) h)))
  · rfl

/-- The bytes of a character are read as that character, whatever follows them. -/
theorem first?_encodeChar_append (c : Char) (r : List UInt8) :
    first? (encodeChar c ++ r) = some (c, (encodeChar c).length) := by
  have hvalid : c.toNat < 0xD800 ∨ 0xDFFF < c.toNat ∧ c.toNat < 0x110000 := c.valid
  have hc : Char.ofNat c.toNat = c := Char.ofNat_toNat c
  simp only [encodeChar]
  split
  · next h1 =>
    have ha := toNat_byteOfNat (n := c.toNat) (by omega)
    simp [first?, UInt8.lt_iff_toNat_lt, ha, h1, hc]
  split
  · next h1 h2 =>
    have ha := toNat_byteOfNat (n := 0xC0 + c.toNat / 0x40) (by omega)
    have hn : (0xC0 + c.toNat / 0x40) % 0x20 * 0x40 + c.toNat % 0x40 = c.toNat := by omega
    simp only [first?, List.cons_append, UInt8.lt_iff_toNat_lt, UInt8.reduceToNat, ha,
      isContinuation_ofNat, payload_ofNat, hn, hc]
    rw [if_neg (by omega), if_neg (by omega), if_pos (by omega)]
    rfl
  split
  · next h1 h2 h3 =>
    have ha := toNat_byteOfNat (n := 0xE0 + c.toNat / 0x1000) (by omega)
    have hb := toNat_byteOfNat (n := 0x80 + c.toNat / 0x40 % 0x40) (by omega)
    have hn : (0xE0 + c.toNat / 0x1000) % 0x10 * 0x1000 + c.toNat / 0x40 % 0x40 * 0x40 +
        c.toNat % 0x40 = c.toNat := by omega
    have hfollow : mayFollow (.ofNat (0xE0 + c.toNat / 0x1000))
        (.ofNat (0x80 + c.toNat / 0x40 % 0x40)) = true := by
      apply mayFollow_of_bounds (isContinuation_ofNat _) <;> rw [ha, hb] <;> omega
    simp only [first?, List.cons_append, UInt8.lt_iff_toNat_lt, UInt8.reduceToNat, ha,
      isContinuation_ofNat, payload_ofNat, hfollow, hn, hc]
    rw [if_neg (by omega), if_neg (by omega), if_neg (by omega), if_pos (by omega)]
    rfl
  · next h1 h2 h3 =>
    have ha := toNat_byteOfNat (n := 0xF0 + c.toNat / 0x40000) (by omega)
    have hb := toNat_byteOfNat (n := 0x80 + c.toNat / 0x1000 % 0x40) (by omega)
    have hn : (0xF0 + c.toNat / 0x40000) % 0x08 * 0x40000 + c.toNat / 0x1000 % 0x40 * 0x1000 +
        c.toNat / 0x40 % 0x40 * 0x40 + c.toNat % 0x40 = c.toNat := by omega
    have hfollow : mayFollow (.ofNat (0xF0 + c.toNat / 0x40000))
        (.ofNat (0x80 + c.toNat / 0x1000 % 0x40)) = true := by
      apply mayFollow_of_bounds (isContinuation_ofNat _) <;> rw [ha, hb] <;> omega
    simp only [first?, List.cons_append, UInt8.lt_iff_toNat_lt, UInt8.reduceToNat, ha,
      isContinuation_ofNat, payload_ofNat, hfollow, hn, hc]
    rw [if_neg (by omega), if_neg (by omega), if_neg (by omega), if_neg (by omega),
      if_pos (by omega)]
    rfl

theorem decodeFrom_append (x : List UInt8) (y : List UInt8) :
    decodeFrom x.length (x ++ y) = decode y := by
  induction x with
  | nil => rfl
  | cons b x ih => exact ih

theorem decode_encodeChar_append (c : Char) (r : List UInt8) :
    decode (encodeChar c ++ r) = .char c :: decode r := by
  have hfirst := first?_encodeChar_append c r
  obtain ⟨b, x, hx⟩ : ∃ b x, encodeChar c = b :: x := by
    refine List.exists_cons_of_ne_nil fun hnil => ?_
    have hempty := first?_encodeChar_append c []
    rw [hnil] at hempty
    cases hempty
  rw [hx, List.cons_append] at hfirst
  rw [hx, List.cons_append, decode, decodeFrom, hfirst]
  simp only [List.length_cons, Nat.add_sub_cancel, decodeFrom_append]

/-- **A text of characters** is read from its bytes. -/
theorem decode_of_encode? {t : Text} {bytes : List UInt8}
    (ht : ∀ p ∈ t, p.isSurrogate = false) (h : encode? t = some bytes) : decode bytes = t := by
  induction t generalizing bytes with
  | nil => cases h; rfl
  | cons p t ih =>
    rw [List.forall_mem_cons] at ht
    rw [encode?_cons, Option.bind_eq_some_iff] at h
    obtain ⟨first, hp, h⟩ := h
    obtain ⟨rest, hrest, rfl⟩ := Option.map_eq_some_iff.1 h
    cases p with
    | surrogate n => cases ht.1
    | char c =>
      cases hp
      rw [decode_encodeChar_append, ih ht.2 hrest]

end LvglForest.Utf8
