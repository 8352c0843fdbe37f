import LvglForest.Table
import Mathlib.Data.List.Nodup

/-!
# Tables and distinct keys

A table keeps its keys in the order in which they were first put, and no change of a value moves
one (`keys_put_of_not_mem`, `keys_adjust`). `Text.distinct` gives the same order for a list of texts: adding a
text at the end adds it to the distinct ones unless it is there already (`distinct_concat`), and
they stand in the order in which they were first seen (`isFirstSeen_distinct`).
-/

namespace LvglForest

namespace Table

variable {α : Type}

theorem has_iff_mem_keys {key : Text} {table : Table α} : table.has key = true ↔ key ∈ table.keys := by
  induction table with
  | nil => simp [has, get?, keys]
  | cons e table ih =>
    obtain ⟨k, v⟩ := e
    by_cases h : k = key
    · simp [has, get?, keys, h]
    · have h' : key ≠ k := fun e => h e.symm
      simpa [has, get?, keys, h, h'] using ih

theorem has_eq_false_iff {key : Text} {table : Table α} :
    table.has key = false ↔ key ∉ table.keys := by
  rw [← has_iff_mem_keys, Bool.not_eq_true]

theorem exists_get? {key : Text} {table : Table α} (h : key ∈ table.keys) :
    ∃ v, table.get? key = some v := by
  rw [← has_iff_mem_keys, has, Option.isSome_iff_exists] at h
  exact h

theorem mem_of_get? {key : Text} {v : α} {table : Table α} (h : table.get? key = some v) :
    (key, v) ∈ table := by
  induction table with
  | nil => cases h
  | cons e table ih =>
    obtain ⟨k, w⟩ := e
    rw [get?] at h
    split at h
    · next hk =>
      cases h
      exact hk ▸ List.mem_cons_self
    · exact List.mem_cons_of_mem _ (ih h)

theorem keys_adjust (key : Text) (f : α → α) (table : Table α) :
    (table.adjust key f).keys = table.keys := by
  induction table with
  | nil => rfl
  | cons e table ih =>
    obtain ⟨k, v⟩ := e
    simp only [keys] at ih ⊢
    rw [adjust]
    split <;> simp [ih]

theorem adjust_of_not_mem {key : Text} {table : Table α} (h : key ∉ table.keys) (f : α → α) :
    table.adjust key f = table := by
  induction table with
  | nil => rfl
  | cons e table ih =>
    obtain ⟨k, v⟩ := e
    simp only [keys, List.map_cons, List.mem_cons, not_or] at h
    rw [adjust, if_neg (Ne.symm h.1), ih h.2]

theorem forall_adjust {P : α → Prop} {key : Text} {f : α → α} {table : Table α}
    (h : ∀ e ∈ table, P e.2) (hf : ∀ v, P v → P (f v)) : ∀ e ∈ table.adjust key f, P e.2 := by
  induction table with
  | nil => exact h
  | cons e table ih =>
    obtain ⟨k, v⟩ := e
    rw [List.forall_mem_cons] at h
    rw [adjust]
    split
    · exact List.forall_mem_cons.2 ⟨hf v h.1, h.2⟩
    · exact List.forall_mem_cons.2 ⟨h.1, ih h.2⟩

/-- What holds of all entries and of a new one still holds after it is put. -/
theorem forall_mem_put {P : Text × α → Prop} {key : Text} {v : α} {table : Table α}
    (h : ∀ e ∈ table, P e) (hv : P (key, v)) : ∀ e ∈ table.put key v, P e := by
  induction table with
  | nil => exact List.forall_mem_singleton.2 hv
  | cons e table ih =>
    obtain ⟨k, w⟩ := e
    rw [List.forall_mem_cons] at h
    rw [put]
    split
    · next hk => exact List.forall_mem_cons.2 ⟨hk ▸ hv, h.2⟩
    · exact List.forall_mem_cons.2 ⟨h.1, ih h.2⟩

/-- A key that is new comes last. -/
theorem put_of_not_mem {key : Text} {table : Table α} (h : key ∉ table.keys) (v : α) :
    table.put key v = table ++ [(key, v)] := by
  induction table with
  | nil => rfl
  | cons e table ih =>
    obtain ⟨k, w⟩ := e
    simp only [keys, List.map_cons, List.mem_cons, not_or] at h
    rw [put, if_neg (fun hk => h.1 hk.symm), ih h.2, List.cons_append]

theorem get?_put (key k : Text) (v : α) (table : Table α) :
    (table.put key v).get? k = if key = k then some v else table.get? k := by
  induction table with
  | nil => rfl
  | cons e table ih =>
    obtain ⟨j, w⟩ := e
    rw [put]
    split
    · next hj =>
      subst hj
      rw [get?, get?]
      split <;> rfl
    · next hj =>
      rw [get?, get?, ih]
      split
      · next hk =>
        subst hk
        rw [if_neg (Ne.symm hj)]
      · rfl

theorem get?_adjust (key k : Text) (f : α → α) (table : Table α) :
    (table.adjust key f).get? k = if key = k then (table.get? k).map f else table.get? k := by
  induction table with
  | nil => split <;> rfl
  | cons e table ih =>
    obtain ⟨j, v⟩ := e
    rw [adjust]
    split
    · next hj =>
      subst hj
      rw [get?, get?]
      split <;> rfl
    · next hj =>
      rw [get?, get?, ih]
      by_cases hk : j = k
      · rw [if_pos hk, if_pos hk, if_neg fun h => hj (hk.trans h.symm)]
      · rw [if_neg hk, if_neg hk]

theorem keys_put_of_not_mem {key : Text} {table : Table α} (h : key ∉ table.keys) (v : α) :
    (table.put key v).keys = table.keys ++ [key] := by
  rw [put_of_not_mem h]
  simp [keys]

theorem keys_put_of_mem {key : Text} {table : Table α} (h : key ∈ table.keys) (v : α) :
    (table.put key v).keys = table.keys := by
  induction table with
  | nil => cases h
  | cons e table ih =>
    obtain ⟨k, w⟩ := e
    rw [put]
    split
    · rfl
    · next hk =>
      have hrest : key ∈ keys table := (List.mem_cons.1 h).resolve_left (Ne.symm hk)
      exact congrArg (k :: ·) (ih hrest)

theorem nodup_keys_put {key : Text} {table : Table α} (h : table.keys.Nodup) (v : α) :
    (table.put key v).keys.Nodup := by
  by_cases hkey : key ∈ table.keys
  · rwa [keys_put_of_mem hkey]
  · rw [keys_put_of_not_mem hkey]
    rw [← List.concat_eq_append]
    exact h.concat hkey

/-! ## Other values -/

variable {β : Type}

/-- A table with other values. -/
def mapValues (f : α → β) (table : Table α) : Table β := List.map (fun e => (e.1, f e.2)) table

theorem keys_mapValues (f : α → β) (table : Table α) : (table.mapValues f).keys = table.keys := by
  rw [keys, keys, mapValues, List.map_map]
  rfl

theorem get?_mapValues (f : α → β) (key : Text) (table : Table α) :
    (table.mapValues f).get? key = (table.get? key).map f := by
  induction table with
  | nil => rfl
  | cons e table ih =>
    obtain ⟨k, v⟩ := e
    show (if k = key then some (f v) else get? key (mapValues f table)) = _
    rw [get?]
    split
    · rfl
    · exact ih

theorem has_mapValues (f : α → β) (key : Text) (table : Table α) :
    (table.mapValues f).has key = table.has key := by
  rw [has, has, get?_mapValues, Option.isSome_map]

theorem mapValues_put (f : α → β) (key : Text) (v : α) (table : Table α) :
    (table.put key v).mapValues f = (table.mapValues f).put key (f v) := by
  induction table with
  | nil => rfl
  | cons e table ih =>
    obtain ⟨k, w⟩ := e
    show mapValues f (put key v ((k, w) :: table)) =
      if k = key then (k, f v) :: mapValues f table else (k, f w) :: put key (f v) (mapValues f table)
    rw [put, ← ih]
    split <;> rfl

theorem mapValues_adjust {f : α → β} {g : α → α} {h : β → β} (hfg : ∀ v, f (g v) = h (f v))
    (key : Text) (table : Table α) :
    (table.adjust key g).mapValues f = (table.mapValues f).adjust key h := by
  induction table with
  | nil => rfl
  | cons e table ih =>
    obtain ⟨k, v⟩ := e
    show mapValues f (adjust key g ((k, v) :: table)) =
      if k = key then (k, h (f v)) :: mapValues f table
      else (k, f v) :: adjust key h (mapValues f table)
    rw [adjust, ← ih, ← hfg]
    split <;> rfl

/-- The last entry of a table is changed if its key is new. -/
theorem adjust_concat {key : Text} {table : Table α} (h : key ∉ table.keys) (v : α) (g : α → α) :
    adjust key g (table ++ [(key, v)]) = table ++ [(key, g v)] := by
  induction table with
  | nil => rw [List.nil_append, adjust, if_pos rfl, List.nil_append]
  | cons e table ih =>
    obtain ⟨k, w⟩ := e
    simp only [keys, List.map_cons, List.mem_cons, not_or] at h
    rw [List.cons_append, adjust, if_neg (Ne.symm h.1), ih h.2, List.cons_append]

theorem get?_of_mem {key : Text} {v : α} {table : Table α} (hn : table.keys.Nodup)
    (h : (key, v) ∈ table) : table.get? key = some v := by
  induction table with
  | nil => cases h
  | cons e table ih =>
    obtain ⟨k, w⟩ := e
    rw [keys, List.map_cons, List.nodup_cons] at hn
    rw [get?]
    rcases List.mem_cons.1 h with heq | h
    · cases heq
      rw [if_pos rfl]
    · have hne : k ≠ key := by
        rintro rfl
        exact hn.1 (List.mem_map_of_mem (f := (·.1)) h)
      rw [if_neg hne, ih hn.2 h]

end Table

namespace Text

theorem mem_distinct {t : Text} {ts : List Text} : t ∈ distinct ts ↔ t ∈ ts := by
  induction ts with
  | nil => simp [distinct]
  | cons u ts ih =>
    by_cases h : t = u
    · simp [distinct, h]
    · simp [distinct, h, ih]

theorem nodup_distinct (ts : List Text) : (distinct ts).Nodup := by
  induction ts with
  | nil => exact List.nodup_nil
  | cons u ts ih =>
    rw [distinct, List.nodup_cons]
    exact ⟨by simp, ih.filter _⟩

/-- A text at the end is kept unless it came before. -/
theorem distinct_concat (ts : List Text) (t : Text) :
    distinct (ts ++ [t]) = if t ∈ ts then distinct ts else distinct ts ++ [t] := by
  induction ts with
  | nil => rfl
  | cons u ts ih =>
    rw [List.cons_append, distinct, ih, distinct]
    by_cases hu : t = u
    · subst hu
      split <;> simp
    · by_cases ht : t ∈ ts <;> simp [ht, hu]

theorem distinct_of_nodup {ts : List Text} (h : ts.Nodup) : distinct ts = ts := by
  induction ts with
  | nil => rfl
  | cons u ts ih =>
    rw [List.nodup_cons] at h
    rw [distinct, ih h.2, List.filter_eq_self.2]
    intro t ht
    have : t ≠ u := fun e => h.1 (e ▸ ht)
    simpa using this

/-- Texts are what a list of texts has, each once, in the order in which they first stand there. -/
structure IsFirstSeen (all ts : List Text) : Prop where
  mem : ∀ t, t ∈ ts ↔ t ∈ all
  nodup : ts.Nodup
  order : ts.Pairwise fun t u => all.idxOf t < all.idxOf u

theorem isFirstSeen_distinct (ts : List Text) : IsFirstSeen ts (distinct ts) where
  mem _ := mem_distinct
  nodup := nodup_distinct ts
  order := by
    induction ts with
    | nil => exact .nil
    | cons u ts ih =>
      have hlater : ∀ t ∈ (distinct ts).filter (· ≠ u),
          (u :: ts).idxOf t = ts.idxOf t + 1 := by
        intro t ht
        have hne : t ≠ u := of_decide_eq_true (List.mem_filter.1 ht).2
        exact List.idxOf_cons_ne ts hne.symm
      rw [distinct, List.pairwise_cons]
      refine ⟨fun t ht => ?_, (ih.filter _).imp_of_mem fun ht hu h => ?_⟩
      · rw [hlater t ht, List.idxOf_cons_self]
        exact Nat.succ_pos _
      · rw [hlater _ ht, hlater _ hu]
        exact Nat.succ_lt_succ h

end Text

end LvglForest
