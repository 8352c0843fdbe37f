import LvglForest.Proofs.Project.Rendering

/-!
# The search for symbols

The symbol of a screen is searched among the one that is wanted and its numbered forms. There are
more of these than used symbols, so the search ends (`Symbol.isFirstFree_free`), and it gives every
screen a symbol of its own, whatever the names of the screens are (`Rendering.assigned_drafts`).
-/

namespace LvglForest

namespace Symbol

theorem exists_text_of_ofValue {v : Value} {t : Text} (h : ofValue v = .ok t) :
    ∃ name, v = .text name := by
  cases v with
  | text name => exact ⟨name, rfl⟩
  | _ => cases h

/-- The symbols that are tried one after the other: the wanted one, and then its numbered forms from
two on. -/
def candidate (wanted : Text) : Nat → Text
  | 0 => wanted
  | n + 1 => numbered wanted (n + 2)

theorem isWord_candidate {wanted : Text} (h : wanted.IsWord) (n : Nat) :
    (candidate wanted n).IsWord := by
  cases n with
  | zero => exact h
  | succ n => exact (h.append (.ofList (by decide))).append (Decimal.isWord_ofNat (n + 2))

/-- A symbol is the first one tried that is not used. -/
def IsFirstFree (used : List Text) (wanted symbol : Text) : Prop :=
  symbol ∉ used ∧ ∃ n, candidate wanted n = symbol ∧ ∀ m < n, candidate wanted m ∈ used

/-- **The search for a symbol ends**, with the first one that is free. -/
theorem isFirstFree_free (used : List Text) (wanted : Text) :
    IsFirstFree used wanted (free used wanted) := by
  refine ⟨free_not_mem used wanted, ?_⟩
  unfold free
  split
  · exact ⟨0, rfl, fun m hm => absurd hm (Nat.not_lt_zero m)⟩
  · next hused =>
    obtain ⟨t, ht, hfree⟩ := exists_candidate used wanted
    obtain ⟨u, hu⟩ := Option.isSome_iff_exists.1
      (List.find?_isSome.2 ⟨t, ht, decide_eq_true hfree⟩ :
        (List.find? (fun t => decide (t ∉ used)) _).isSome = true)
    simp only [hu, Option.getD_some]
    obtain ⟨-, n, hn, hget, hbefore⟩ := List.find?_eq_some_iff_getElem.1 hu
    rw [List.getElem_map, List.getElem_range] at hget
    refine ⟨n + 1, hget, fun m hm => ?_⟩
    cases m with
    | zero => exact not_not.1 hused
    | succ m =>
      have hm := hbefore m (Nat.lt_of_succ_lt_succ hm)
      rw [List.getElem_map, List.getElem_range] at hm
      simpa [candidate] using hm

/-- The name of the file of a screen with a symbol. -/
def fileName (symbol : Text) : Text := symbol ++ ".cpp"

theorem fileName_injective : Function.Injective fileName := fun _ _ h => List.append_cancel_right h

/-- Names get their symbols in order, each the first one that is free against all before it. -/
inductive Assigned : List Text → List Text → List Text → Prop
  | nil (used : List Text) : Assigned used [] []
  | cons {used names symbols : List Text} {name symbol : Text}
      (first : IsFirstFree used (ofName name) symbol)
      (rest : Assigned (symbol :: used) names symbols) :
      Assigned used (name :: names) (symbol :: symbols)

theorem Assigned.isWord {used names symbols : List Text} (h : Assigned used names symbols) :
    ∀ symbol ∈ symbols, symbol.IsWord := by
  induction h with
  | nil => exact fun _ hs => absurd hs List.not_mem_nil
  | cons first _ ih =>
    obtain ⟨-, n, rfl, -⟩ := first
    exact List.forall_mem_cons.2 ⟨isWord_candidate (isWord_ofName _) n, ih⟩

theorem Assigned.not_mem {used names symbols : List Text} (h : Assigned used names symbols) :
    ∀ symbol ∈ symbols, symbol ∉ used := by
  induction h with
  | nil => exact fun _ hs => absurd hs List.not_mem_nil
  | cons first _ ih =>
    exact List.forall_mem_cons.2
      ⟨first.1, fun symbol hs hused => ih symbol hs (List.mem_cons_of_mem _ hused)⟩

/-- No two names get one symbol. -/
theorem Assigned.nodup {used names symbols : List Text} (h : Assigned used names symbols) :
    symbols.Nodup := by
  induction h with
  | nil => exact List.nodup_nil
  | cons _ rest ih =>
    exact List.nodup_cons.2 ⟨fun hmem => rest.not_mem _ hmem List.mem_cons_self, ih⟩

end Symbol

namespace Rendering

/-- Screens with drafts have texts for names. -/
theorem name_of_drafts {o : ExportOptions} {screens : List Screen} {used : List Text}
    {ds : List Draft} (h : drafts o used screens = ds.map .ok) :
    ∀ s ∈ screens, ∃ name, s.name = .text name := by
  induction screens generalizing used ds with
  | nil => exact fun _ hs => absurd hs List.not_mem_nil
  | cons s screens ih =>
    rw [drafts] at h
    split at h
    · next wanted hwanted =>
      cases ds with
      | nil => cases h
      | cons d ds =>
        exact List.forall_mem_cons.2
          ⟨Symbol.exists_text_of_ofValue hwanted, ih (List.cons.inj h).2⟩
    · cases ds <;> cases h

/-- Drafts have the symbols that are assigned to the names of their screens. -/
theorem assigned_drafts (o : ExportOptions) {screens : List Screen} {names : List Text}
    (hnames : screens.map Screen.name = names.map Value.text) {used : List Text} {ds : List Draft}
    (h : drafts o used screens = ds.map .ok) :
    Symbol.Assigned used names (ds.map Draft.symbol) := by
  induction screens generalizing names used ds with
  | nil =>
    cases names with
    | nil =>
      cases ds with
      | nil => exact .nil used
      | cons d ds => cases h
    | cons name names => cases hnames
  | cons s screens ih =>
    cases names with
    | nil => cases hnames
    | cons name names =>
      rw [List.map_cons, List.map_cons, List.cons.injEq] at hnames
      rw [drafts, hnames.1, Symbol.ofValue] at h
      cases ds with
      | nil => cases h
      | cons d ds =>
        rw [List.map_cons, List.cons.injEq, Except.ok.injEq] at h
        obtain ⟨rfl, h⟩ := h
        exact .cons (Symbol.isFirstFree_free used _) (ih hnames.2 h)

end Rendering

end LvglForest
