import LvglForest.Proofs.Code.Emission
import LvglForest.Proofs.Value.Display

/-!
# Why generation fails

Where identifiers, kinds, texts and styles are texts, all that is left to fail in generation is a
number that is shown and has too many digits (`Widget.fault_of_mem_emissions`,
`Forest.fault_of_mem_emissions`).
-/

namespace LvglForest

/-- The fault that ends emissions is one of them. -/
theorem Emissions.mem_of_fault? {es : Emissions} {f : Fault} (h : es.fault? = some f) :
    .error f ∈ es := by
  induction es with
  | nil => cases h
  | cons e es ih =>
    cases e with
    | error g =>
      cases h
      exact List.mem_cons_self
    | ok x => exact List.mem_cons_of_mem _ (ih h)

theorem Emissions.not_mem_of_fault? {es : Emissions} (h : es.fault? = none) (f : Fault) :
    .error f ∉ es := by
  obtain ⟨xs, rfl⟩ := exists_of_fault? h
  simp

namespace Widget

variable {f g : Fault} {function : Text} {a b c : Except Fault Text}

/-- All that can be wrong with some texts is that a number in them has too many digits. -/
def OnlyTooLong (rs : List (Except Fault Text)) : Prop :=
  ∀ f, .error f ∈ rs → f = .digitLimit none

/-! A call fails where one of the texts it shows does. -/

theorem fault_of_call_one (g : Text → List Text) (h : OnlyTooLong [a])
    (hf : emitCall function (do
      let x ← a
      return g x) = .error f) : f = .digitLimit none := by
  cases a with
  | error e =>
    cases hf
    exact h f (by simp)
  | ok x => cases hf

theorem fault_of_call_two (g : Text → Text → List Text) (h : OnlyTooLong [a, b])
    (hf : emitCall function (do
      let x ← a
      let y ← b
      return g x y) = .error f) : f = .digitLimit none := by
  cases a with
  | error e =>
    cases hf
    exact h f (by simp)
  | ok x =>
    exact fault_of_call_one (g x) (fun e he => h e (List.mem_cons_of_mem _ he)) hf

theorem fault_of_call_three (g : Text → Text → Text → List Text) (h : OnlyTooLong [a, b, c])
    (hf : emitCall function (do
      let x ← a
      let y ← b
      let z ← c
      return g x y z) = .error f) : f = .digitLimit none := by
  cases a with
  | error e =>
    cases hf
    exact h f (by simp)
  | ok x =>
    exact fault_of_call_two (g x) (fun e he => h e (List.mem_cons_of_mem _ he)) hf

theorem onlyTooLong_displays (vs : List Value) : OnlyTooLong (vs.map Value.display) := by
  intro f hf
  obtain ⟨v, -, hv⟩ := List.mem_map.1 hf
  exact Value.display_fault hv

theorem onlyTooLong_sizes (ss : List Size) : OnlyTooLong (ss.map Size.toSource) := by
  intro f hf
  obtain ⟨s, -, hs⟩ := List.mem_map.1 hf
  cases s with
  | plain v => exact Value.display_fault hs
  | percent v => exact Value.display_fault (Fault.eq_error_of_map hs)

theorem fault_of_setting {w : Widget} {id : Text} {setting : Setting} {null has : Bool}
    {args : Except Fault (List Text)}
    (hcall : ∀ f, emitCall function args = .error f → f = .digitLimit none)
    (hf : .error f ∈ (if null then [] else [w.settingEmission id setting has function args])) :
    f = .digitLimit none := by
  split at hf
  · cases hf
  · have hf := List.mem_singleton.1 hf
    unfold settingEmission at hf
    split at hf
    · exact hcall f hf.symm
    · cases hf

/-- **A widget fails in generation** for a number with too many digits only. -/
theorem fault_of_mem_emissions {d : Detail} {id parent : Text} {w : Widget} (hw : w.IsTyped)
    (hf : .error f ∈ w.emissions d id parent) : f = .digitLimit none := by
  simp only [emissions, List.mem_append, List.mem_singleton, reduceCtorEq, or_false] at hf
  rcases hf with (((hf | hf) | hf) | hf) | hf
  · have hcreation := (fault?_creationEmissions d id parent w hw.display_kind).2 hw.isUsable.kind
    exact absurd hf (Emissions.not_mem_of_fault? hcreation f)
  · unfold sizeEmissions at hf
    split at hf
    · cases hf
    · exact fault_of_call_two _ (onlyTooLong_sizes [_, _]) (List.mem_singleton.1 hf).symm
  · unfold placeEmission at hf
    split at hf
    · exact fault_of_call_two _ (onlyTooLong_displays [_, _]) hf.symm
    · split at hf
      · cases hf
      · exact fault_of_call_three _ (onlyTooLong_displays [_, _, _]) hf.symm
  · unfold propertyEmissions at hf
    simp only [List.mem_append] at hf
    rcases hf with (hf | hf) | hf
    · rcases hw.text with htext | ⟨t, htext⟩
      · rw [htext] at hf
        cases hf
      · have hcharacters : (Value.text t).characters = .ok t := Value.characters_text t
        rw [htext, hcharacters] at hf
        exact fault_of_setting (fun _ hcall => by cases hcall) hf
    · exact fault_of_setting (fun f hf => fault_of_call_two _ (onlyTooLong_displays [_, _]) hf) hf
    · exact fault_of_setting (fun f hf => fault_of_call_one _ (onlyTooLong_displays [_]) hf) hf
  · exact absurd hf (Emissions.not_mem_of_fault? (fault?_styleEmissions id w hw.texts_items) f)

end Widget

/-! ## Forests -/

mutual

theorem Tree.fault_of_mem_emissions {d : Detail} {f : Fault} : ∀ {parent : Text} {path : List Nat}
    (t : Tree Widget) (_ : ∀ w ∈ t.toList, w.IsTyped)
    (_ : .error f ∈ Tree.emissions d parent path t), f = .digitLimit none
  | parent, path, .node w ts, h, hf => by
    rw [Tree.toList, List.forall_mem_cons] at h
    cases hw : w.hasLegalName with
    | true =>
      rw [Tree.emissions_of_legal d h.1.identifier hw] at hf
      rcases List.mem_append.1 hf with hf | hf
      · exact Widget.fault_of_mem_emissions h.1 hf
      · exact Forest.fault_of_mem_emissions ts h.2 hf
    | false =>
      rw [Tree.emissions_of_illegal d h.1.identifier hw] at hf
      simp at hf

/-- **Generation fails** for a number with too many digits only. -/
theorem Forest.fault_of_mem_emissions {d : Detail} {f : Fault} : ∀ {parent : Text}
    {path : List Nat} {index : Nat} (ts : List (Tree Widget))
    (_ : ∀ w ∈ Forest.toList ts, w.IsTyped)
    (_ : .error f ∈ Forest.emissions d parent path index ts), f = .digitLimit none
  | _, _, _, [], _, hf => absurd hf List.not_mem_nil
  | parent, path, index, t :: ts, h, hf => by
    rw [Forest.toList, List.forall_mem_append] at h
    rw [Forest.emissions] at hf
    rcases List.mem_append.1 hf with hf | hf
    · exact Tree.fault_of_mem_emissions t h.1 hf
    · exact Forest.fault_of_mem_emissions ts h.2 hf

end

end LvglForest
