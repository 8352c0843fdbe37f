import LvglForest.Proofs.Decimal.Binary64
import LvglForest.Proofs.Fault
import LvglForest.Value.Display

/-!
# Which values show

A value shows as a text if its numbers are not too long, however deep they are in lists and records
(`Value.exists_display`), and nothing but an integer with too many digits is ever in the way
(`Value.display_fault`).
-/

namespace LvglForest

namespace Value

/-! ## Values whose numbers can be written -/

mutual

/-- The integers in a value and the integer parts of its floats do not have too many digits. -/
def Converts : Value → Prop
  | .integer n => Decimal.Converts n
  | .real x => x.Converts
  | .list vs => ItemsConvert vs
  | .record fs => FieldsConvert fs
  | .null | .truth _ | .text _ => True

/-- The numbers in values do not have too many digits. -/
def ItemsConvert : List Value → Prop
  | [] => True
  | v :: vs => v.Converts ∧ ItemsConvert vs

/-- The numbers in the fields of a record do not have too many digits. -/
def FieldsConvert : List (Text × Value) → Prop
  | [] => True
  | (_, v) :: fs => v.Converts ∧ FieldsConvert fs

end

theorem itemsConvert_iff {vs : List Value} : ItemsConvert vs ↔ ∀ v ∈ vs, v.Converts := by
  induction vs with
  | nil => simp [ItemsConvert]
  | cons v vs ih => rw [ItemsConvert, ih, List.forall_mem_cons]

theorem fieldsConvert_iff {fs : List (Text × Value)} :
    FieldsConvert fs ↔ ∀ f ∈ fs, f.2.Converts := by
  induction fs with
  | nil => simp [FieldsConvert]
  | cons f fs ih => rw [FieldsConvert, ih, List.forall_mem_cons]

/-! ## Showing -/

mutual

theorem exists_written : ∀ v : Value, v.Converts → ∃ t, v.written = .ok t
  | .null, _ => ⟨_, rfl⟩
  | .truth true, _ => ⟨_, rfl⟩
  | .truth false, _ => ⟨_, rfl⟩
  | .integer n, h => ⟨_, Decimal.write_of_converts h⟩
  | .real _, _ => ⟨_, rfl⟩
  | .text _, _ => ⟨_, rfl⟩
  | .list vs, h => by
    obtain ⟨ts, hts⟩ := exists_writtenItems vs h
    exact ⟨_, by rw [written, hts]; rfl⟩
  | .record fs, h => by
    obtain ⟨ts, hts⟩ := exists_writtenFields fs h
    exact ⟨_, by rw [written, hts]; rfl⟩

theorem exists_writtenItems : ∀ vs : List Value, ItemsConvert vs → ∃ ts, writtenItems vs = .ok ts
  | [], _ => ⟨_, rfl⟩
  | v :: vs, h => by
    obtain ⟨t, ht⟩ := exists_written v h.1
    obtain ⟨ts, hts⟩ := exists_writtenItems vs h.2
    exact ⟨_, by rw [writtenItems, ht, hts]; rfl⟩

theorem exists_writtenFields : ∀ fs : List (Text × Value), FieldsConvert fs →
    ∃ ts, writtenFields fs = .ok ts
  | [], _ => ⟨_, rfl⟩
  | (k, v) :: fs, h => by
    obtain ⟨t, ht⟩ := exists_written v h.1
    obtain ⟨ts, hts⟩ := exists_writtenFields fs h.2
    exact ⟨_, by rw [writtenFields, ht, hts]; rfl⟩

end

/-- **A value shows if its numbers do.** -/
theorem exists_display {v : Value} (h : v.Converts) : ∃ t, v.display = .ok t := by
  cases v with
  | text t => exact ⟨t, rfl⟩
  | _ => exact exists_written _ h

mutual

theorem written_fault {f : Fault} : ∀ v : Value, v.written = .error f → f = .digitLimit none
  | .null, h => nomatch h
  | .truth true, h => nomatch h
  | .truth false, h => nomatch h
  | .integer n, h => by
    rw [written, Decimal.write] at h
    split at h <;> cases h
    rfl
  | .real _, h => nomatch h
  | .text _, h => nomatch h
  | .list vs, h => by
    rw [written] at h
    exact writtenItems_fault vs (Fault.eq_error_of_map h)
  | .record fs, h => by
    rw [written] at h
    exact writtenFields_fault fs (Fault.eq_error_of_map h)

theorem writtenItems_fault {f : Fault} : ∀ vs : List Value,
    writtenItems vs = .error f → f = .digitLimit none
  | [], h => nomatch h
  | v :: vs, h => by
    rw [writtenItems] at h
    cases hv : v.written with
    | error g =>
      rw [hv] at h
      cases h
      exact written_fault v hv
    | ok t =>
      rw [hv] at h
      exact writtenItems_fault vs (Fault.eq_error_of_map h)

theorem writtenFields_fault {f : Fault} : ∀ fs : List (Text × Value),
    writtenFields fs = .error f → f = .digitLimit none
  | [], h => nomatch h
  | (k, v) :: fs, h => by
    rw [writtenFields] at h
    cases hv : v.written with
    | error g =>
      rw [hv] at h
      cases h
      exact written_fault v hv
    | ok t =>
      rw [hv] at h
      exact writtenFields_fault fs (Fault.eq_error_of_map h)

end

/-- Only an integer with too many digits does not show. -/
theorem display_fault {v : Value} {f : Fault} (h : v.display = .error f) :
    f = .digitLimit none := by
  cases v with
  | text t => cases h
  | _ => exact written_fault _ h

end Value

end LvglForest
