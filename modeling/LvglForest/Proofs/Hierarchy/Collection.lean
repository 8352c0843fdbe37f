import LvglForest.Hierarchy.Collection
import LvglForest.Proofs.Table
import Mathlib.Data.List.Induction

/-!
# Which widgets a collection has

The entries of a collection are the created identifiers, each once, in the order of first creation
(`keys_entries_ofFacts`); no other fact adds or moves an entry. What holds of every entry of a
collection is shown fact by fact (`forall_entries_ofFacts`).
-/

namespace LvglForest

/-- The identifier that a fact creates. -/
def Fact.created? (f : Fact) : Option Text :=
  match f.assertion with
  | .created _ _ _ => some f.identifier
  | _ => none

/-- The identifiers that facts create, in the order of first creation. -/
def Fact.createdIn (fs : List Fact) : List Text := Text.distinct (fs.filterMap Fact.created?)

theorem Fact.mem_createdIn {id : Text} {fs : List Fact} :
    id ∈ Fact.createdIn fs ↔ ∃ f ∈ fs, f.created? = some id := by
  rw [createdIn, Text.mem_distinct, List.mem_filterMap]

namespace Collection

theorem ofFacts_concat (fs : List Fact) (f : Fact) :
    ofFacts (fs ++ [f]) = (ofFacts fs).add f := by
  rw [ofFacts, List.foldl_concat]
  rfl

/-- Only a first creation adds an entry. -/
theorem keys_entries_add (c : Collection) (f : Fact) :
    (c.add f).entries.keys =
      match f.created? with
      | none => c.entries.keys
      | some id => if id ∈ c.entries.keys then c.entries.keys else c.entries.keys ++ [id] := by
  obtain ⟨id, line, a⟩ := f
  cases a with
  | created kind sourceName parent =>
    by_cases h : id ∈ c.entries.keys
    · simp only [add, Table.has_iff_mem_keys.2 h, Fact.created?, if_pos h, if_true,
        Table.keys_adjust]
    · simp only [add, Table.has_eq_false_iff.2 h, Fact.created?, if_neg h, Bool.false_eq_true,
        if_false, Table.keys_put_of_not_mem h]
  | declared type =>
    simp only [add, Fact.created?]
    split <;> rfl
  | _ => exact Table.keys_adjust _ _ _

theorem keys_entries_ofFacts (fs : List Fact) :
    (ofFacts fs).entries.keys = Fact.createdIn fs := by
  induction fs using List.reverseRecOn with
  | nil => rfl
  | append_singleton fs f ih =>
    rw [ofFacts_concat, keys_entries_add, ih, Fact.createdIn, Fact.createdIn,
      List.filterMap_append]
    cases hf : f.created? with
    | none => simp [hf]
    | some id =>
      simp only [List.filterMap_cons, hf, List.filterMap_nil, Text.distinct_concat,
        Text.mem_distinct]

theorem nodup_keys_entries (fs : List Fact) : (ofFacts fs).entries.keys.Nodup := by
  rw [keys_entries_ofFacts]
  exact Text.nodup_distinct _

/-- A statement about entries that a creation establishes and every fact keeps holds of all entries
of a collection. -/
theorem forall_entries_ofFacts {P : Entry → Prop} {fs : List Fact}
    (start : ∀ f ∈ fs, ∀ kind sourceName parent, f.assertion = .created kind sourceName parent →
      P (.start kind parent f.line))
    (apply : ∀ f ∈ fs, ∀ e, P e → P (e.apply f)) :
    ∀ e ∈ (ofFacts fs).entries, P e.2 := by
  induction fs using List.reverseRecOn with
  | nil => exact fun e he => absurd he List.not_mem_nil
  | append_singleton fs f ih =>
    have hold := ih (fun g hg => start g (List.mem_append_left _ hg))
      (fun g hg => apply g (List.mem_append_left _ hg))
    have hf : f ∈ fs ++ [f] := List.mem_append_right _ List.mem_cons_self
    have hadjust : ∀ e ∈ (ofFacts fs).entries.adjust f.identifier (·.apply f), P e.2 :=
      Table.forall_adjust hold fun e he => apply f hf e he
    rw [ofFacts_concat]
    unfold add
    split
    · split <;> exact hold
    · next kind sourceName parent ha =>
      split
      · exact hadjust
      · next h =>
        rw [Bool.not_eq_true, Table.has_eq_false_iff] at h
        rw [Table.put_of_not_mem h]
        intro e he
        rcases List.mem_append.1 he with he | he
        · exact hold e he
        · rw [List.mem_singleton] at he
          subst he
          exact start f hf kind sourceName parent ha
    · exact hadjust

end Collection

end LvglForest
