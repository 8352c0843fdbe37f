import LvglForest.Fault

/-!
# Results

Steps that may fail, one after the other. A success is one of every step (`exists_of_bind_eq_ok`,
`exists_mapM`), and whether there is a result of a kind is asked step by step (`yields_bind`,
`yields_mapM`).
-/

namespace LvglForest

variable {α β : Type}

/-! ## Successes -/

/-- A failure is no success. -/
theorem not_exists_ok {ε : Type} {e : ε} : ¬ ∃ a : α, Except.error e = Except.ok a := by
  rintro ⟨a, h⟩
  cases h

theorem eq_ok_of_toOption {r : Except Fault α} {a : α} (h : r.toOption = some a) : r = .ok a := by
  cases r with
  | error e => cases h
  | ok b => exact congrArg _ (Option.some.inj h)

/-- A step that succeeds is one that succeeds and then another one. -/
theorem exists_of_bind_eq_ok {x : Except Fault α} {f : α → Except Fault β} {b : β}
    (h : x >>= f = .ok b) : ∃ a, x = .ok a ∧ f a = .ok b := by
  cases x with
  | error e => cases h
  | ok a => exact ⟨a, rfl, h⟩

theorem exists_of_map_eq_ok {x : Except Fault α} {f : α → β} {b : β} (h : x.map f = .ok b) :
    ∃ a, x = .ok a ∧ f a = b := by
  cases x with
  | error e => cases h
  | ok a => exact ⟨a, rfl, Except.ok.inj h⟩

theorem exists_mapM {f : α → Except Fault β} {as : List α} (h : ∀ a ∈ as, ∃ b, f a = .ok b) :
    ∃ bs, as.mapM f = .ok bs := by
  induction as with
  | nil => exact ⟨[], rfl⟩
  | cons a as ih =>
    rw [List.forall_mem_cons] at h
    obtain ⟨b, hb⟩ := h.1
    obtain ⟨bs, hbs⟩ := ih h.2
    exact ⟨b :: bs, by rw [List.mapM_cons, hb, hbs]; rfl⟩

/-- What is read off each result is known from what the result is of. -/
theorem map_eq_of_mapM {γ : Type} {f : α → Except Fault β} {m : β → γ} {g : α → γ} {as : List α}
    {bs : List β} (h : ∀ a ∈ as, ∀ b, f a = .ok b → m b = g a) (hbs : as.mapM f = .ok bs) :
    bs.map m = as.map g := by
  induction as generalizing bs with
  | nil =>
    cases hbs
    rfl
  | cons a as ih =>
    rw [List.forall_mem_cons] at h
    rw [List.mapM_cons] at hbs
    obtain ⟨b, hb, hbs⟩ := exists_of_bind_eq_ok hbs
    obtain ⟨others, hothers, hsame⟩ := exists_of_bind_eq_ok hbs
    cases hsame
    rw [List.map_cons, List.map_cons, h.1 b hb, ih h.2 hothers]

theorem Fault.exists_map_iff {r : Except Fault α} {g : α → β} :
    (∃ y, r.map g = .ok y) ↔ ∃ x, r = .ok x := by
  cases r with
  | ok x => exact iff_of_true ⟨_, rfl⟩ ⟨_, rfl⟩
  | error f => exact iff_of_false not_exists_ok not_exists_ok

/-- A fault of a mapped result is one of the result. -/
theorem Fault.eq_error_of_map {r : Except Fault α} {g : α → β} {f : Fault}
    (h : r.map g = .error f) : r = .error f := by
  cases r with
  | ok x => cases h
  | error f => exact congrArg _ (Except.error.inj h)

/-- What holds of all results holds of those that are not left out. -/
theorem forall_mem_unless {Q : α → Prop} {b : Bool} {xs : List α} (h : ∀ x ∈ xs, Q x) :
    ∀ x ∈ if b then [] else xs, Q x := by
  cases b with
  | true => exact fun x hx => absurd hx List.not_mem_nil
  | false => exact h

/-! ## Results with a property -/

/-- There is a result, and it has a property. -/
def Yields (Q : α → Prop) (r : Except Fault α) : Prop := ∃ x, r = .ok x ∧ Q x

variable {Q : α → Prop}

@[simp]
theorem yields_ok {x : α} : Yields Q (.ok x) ↔ Q x :=
  ⟨fun ⟨_, h, hQ⟩ => Except.ok.inj h ▸ hQ, fun hQ => ⟨x, rfl, hQ⟩⟩

@[simp]
theorem yields_pure {x : α} : Yields Q (pure x) ↔ Q x := yields_ok

@[simp]
theorem yields_error {f : Fault} : ¬ Yields Q (.error f) := fun ⟨_, h, _⟩ => nomatch h

theorem yields_congr {Q' : α → Prop} {r : Except Fault α} (h : ∀ x, Q x ↔ Q' x) :
    Yields Q r ↔ Yields Q' r :=
  exists_congr fun x => and_congr_right fun _ => h x

theorem yields_bind {Q : β → Prop} {r : Except Fault α} {f : α → Except Fault β} :
    Yields Q (r >>= f) ↔ Yields (fun x => Yields Q (f x)) r := by
  cases r with
  | ok x => exact (yields_ok (Q := fun x => Yields Q (f x))).symm
  | error e => exact iff_of_false yields_error yields_error

theorem yields_map {Q : β → Prop} {r : Except Fault α} {g : α → β} :
    Yields Q (r.map g) ↔ Yields (fun x => Q (g x)) r := by
  cases r with
  | ok x => exact yields_ok.trans (yields_ok (Q := fun x => Q (g x))).symm
  | error e => exact iff_of_false yields_error yields_error

theorem yields_and {c : Prop} {r : Except Fault α} :
    Yields (fun x => Q x ∧ c) r ↔ Yields Q r ∧ c := by
  cases r with
  | ok x => simp
  | error e => exact iff_of_false yields_error fun h => yields_error h.1

theorem and_yields {c : Prop} {r : Except Fault α} :
    Yields (fun x => c ∧ Q x) r ↔ c ∧ Yields Q r := by
  rw [and_comm, ← yields_and]
  exact yields_congr fun _ => and_comm

theorem yields_mapM {Q : β → Prop} {f : α → Except Fault β} {as : List α} :
    Yields (fun bs => ∀ b ∈ bs, Q b) (as.mapM f) ↔ ∀ a ∈ as, Yields Q (f a) := by
  induction as with
  | nil => simp
  | cons a as ih =>
    simp only [List.mapM_cons, yields_bind, yields_pure, List.forall_mem_cons, and_yields,
      yields_and, ih]

end LvglForest
