import LvglForest.Disk.Encoding
import LvglForest.Proofs.Fault
import LvglForest.Proofs.Text.MadeOf

/-!
# What has bytes in an encoding

A text has bytes exactly if each of its code points has (`Encoding.exists_encode_iff`): the common
encoding leaves out the surrogates, ASCII leaves out everything above it.
-/

namespace LvglForest

namespace Encoding

/-- A code point has bytes in an encoding. -/
def Has : Encoding → CodePoint → Prop
  | utf8, p => p.isSurrogate = false
  | ascii, p => p.value < 0x80

theorem holdsOfAscii_has (e : Encoding) : HoldsOfAscii e.Has := by
  intro p hp
  cases e with
  | utf8 =>
    cases p with
    | char c => exact rfl
    | surrogate n => exact absurd hp (by simp only [CodePoint.value]; omega)
  | ascii => exact hp

theorem encodeStrict_utf8 (t : Text) :
    (∃ bytes, Utf8.encodeStrict t = .ok bytes) ↔ t.MadeOf utf8.Has := by
  induction t with
  | nil => exact iff_of_true ⟨_, rfl⟩ Text.madeOf_nil
  | cons p t ih =>
    cases p with
    | char c =>
      rw [Text.madeOf_cons, ← ih, Utf8.encodeStrict]
      cases Utf8.encodeStrict t with
      | ok bytes => exact iff_of_true ⟨_, rfl⟩ ⟨rfl, _, rfl⟩
      | error q => exact iff_of_false not_exists_ok fun h => not_exists_ok h.2
    | surrogate n =>
      refine iff_of_false not_exists_ok fun h => ?_
      cases (Text.madeOf_cons.1 h).1

theorem encodeStrict_ascii (t : Text) :
    (∃ bytes, Ascii.encodeStrict t = .ok bytes) ↔ t.MadeOf ascii.Has := by
  induction t with
  | nil => exact iff_of_true ⟨_, rfl⟩ Text.madeOf_nil
  | cons p t ih =>
    rw [Text.madeOf_cons, ← ih, Ascii.encodeStrict]
    split
    · next hp =>
      cases Ascii.encodeStrict t with
      | ok bytes => exact iff_of_true ⟨_, rfl⟩ ⟨hp, _, rfl⟩
      | error q => exact iff_of_false not_exists_ok fun h => not_exists_ok h.2
    · next hp => exact iff_of_false not_exists_ok fun h => hp h.1

/-- A text of characters has no surrogates. -/
theorem madeOf_ofString (s : String) : (Text.ofString s).MadeOf utf8.Has := by
  intro p hp
  obtain ⟨c, -, rfl⟩ := List.mem_map.1 hp
  rfl

theorem madeOf_of_isWord {t : Text} (h : t.IsWord) : t.MadeOf utf8.Has :=
  fun p hp => CodePoint.isSurrogate_of_isWord (h.all p hp)

/-- **A text has bytes in an encoding** exactly if all its code points have. -/
theorem exists_encode_iff (e : Encoding) (t : Text) :
    (∃ bytes, e.encode t = .ok bytes) ↔ t.MadeOf e.Has := by
  cases e with
  | utf8 =>
    rw [← encodeStrict_utf8]
    unfold encode
    cases Utf8.encodeStrict t with
    | ok bytes => exact iff_of_true ⟨_, rfl⟩ ⟨_, rfl⟩
    | error q => exact iff_of_false not_exists_ok not_exists_ok
  | ascii =>
    rw [← encodeStrict_ascii]
    unfold encode
    cases Ascii.encodeStrict t with
    | ok bytes => exact iff_of_true ⟨_, rfl⟩ ⟨_, rfl⟩
    | error q => exact iff_of_false not_exists_ok not_exists_ok

theorem kind_of_encode {e : Encoding} {t : Text} {f : Fault} (h : e.encode t = .error f) :
    f.kind = .unencodable := by
  unfold encode at h
  simp only at h
  split at h <;> cases h
  rfl

theorem get_standard (e : Encoding) : Codecs.standard.get e.name = .ok e.codec := by
  cases e <;> rfl

end Encoding

end LvglForest
