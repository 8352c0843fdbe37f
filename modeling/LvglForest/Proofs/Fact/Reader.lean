import LvglForest.Proofs.Fact.Registry
import LvglForest.Proofs.Fault

/-!
# What is read off a call

Each reader says something of calls of one shape only, and what it says follows from the groups and
the arguments of the call. This is shown once for each reader, and later proofs open none of them. A
creation is about the first group of its call; a setter is about the first argument, which is an
identifier.
-/

namespace LvglForest.Recognizer

variable {call : Call} {id : Text} {a : Assertion}

theorem run_of_find? {r : Recognizer} {line : Text} {number : Int} {f : Fact}
    (h : r.find? line number = some f) : r.run line number = .ok (some f) := by
  unfold find? at h
  cases hrun : r.run line number with
  | error e =>
    rw [hrun] at h
    cases h
  | ok found =>
    rw [hrun] at h
    exact congrArg Except.ok h

/-- What is found through a pattern is read off a call that the pattern describes. -/
theorem exists_call_of_ofCall {pattern : CallPattern}
    {read : Call → Except Fault (Option (Text × Assertion))} {line : Text} {number : Int} {f : Fact}
    (h : ofCall pattern read line number = .ok (some f)) :
    ∃ call, pattern.find? line = some call ∧
      read call = .ok (some (f.identifier, f.assertion)) := by
  unfold ofCall at h
  split at h
  · cases h
  · next call hcall =>
    obtain ⟨said, hread, hsaid⟩ := exists_of_map_eq_ok h
    obtain ⟨⟨id, a⟩, rfl, rfl⟩ := Option.map_eq_some_iff.1 hsaid
    exact ⟨call, hcall, hread⟩

theorem about_eq_some_iff {target : Text} {b : Assertion} :
    about target b = some (id, a) ↔ target.isIdentifier = true ∧ target = id ∧ b = a := by
  unfold about
  split
  · next h => simp [h]
  · next h => simp [h]

/-! ## Creations -/

theorem exists_of_readCreation (h : readCreation call = .ok (some (id, a))) :
    ∃ sourceName, call.groups = [id, sourceName] ∧
      a = .created (.text ((Kind.ofSourceName? sourceName).elim sourceName Kind.name)) sourceName
        (.text (call.arguments.headD [])) := by
  unfold readCreation at h
  split at h
  · next target sourceName hgroups =>
    cases h
    exact ⟨sourceName, hgroups, rfl⟩
  · cases h

/-! ## Properties -/

theorem exists_of_readText (h : readText call = .ok (some (id, a))) :
    id.isIdentifier = true ∧ ∃ literal t, call.arguments = [id, literal] ∧
      Literal.decode? literal = .ok (some t) ∧ a = .text (.text t) := by
  unfold readText at h
  split at h
  · next target literal harguments =>
    obtain ⟨text?, hdecode, htext⟩ := exists_of_map_eq_ok h
    obtain ⟨t, rfl, habout⟩ := Option.bind_eq_some_iff.1 htext
    obtain ⟨hid, rfl, rfl⟩ := about_eq_some_iff.1 habout
    exact ⟨hid, literal, t, harguments, hdecode, rfl⟩
  · cases h

theorem exists_of_readSize (h : readSize call = .ok (some (id, a))) :
    id.isIdentifier = true ∧ ∃ width height w ht, call.arguments = [id, width, height] ∧
      Size.ofSource width = .ok w ∧ Size.ofSource height = .ok ht ∧ a = .size w ht := by
  unfold readSize at h
  split at h
  · next target width height harguments =>
    split at h
    · next hid =>
      obtain ⟨w, hw, h⟩ := exists_of_bind_eq_ok h
      obtain ⟨ht, hht, h⟩ := exists_of_bind_eq_ok h
      cases h
      exact ⟨hid, width, height, w, ht, harguments, hw, hht, rfl⟩
    · cases h
  · cases h

theorem exists_of_readValue (h : readValue call = .ok (some (id, a))) :
    id.isIdentifier = true ∧ ∃ v rest, call.arguments = id :: v :: rest ∧
      a = .value (Operand.ofSource v).toValue := by
  unfold readValue at h
  split at h
  · next target v rest harguments =>
    obtain ⟨hid, rfl, rfl⟩ := about_eq_some_iff.1 (Except.ok.inj h)
    exact ⟨hid, v, rest, harguments, rfl⟩
  · cases h

theorem exists_of_readRange (h : readRange call = .ok (some (id, a))) :
    id.isIdentifier = true ∧ ∃ min max, call.arguments = [id, min, max] ∧
      a = .range (Operand.ofSource min).toValue (Operand.ofSource max).toValue := by
  unfold readRange at h
  split at h
  · next target min max harguments =>
    obtain ⟨hid, rfl, rfl⟩ := about_eq_some_iff.1 (Except.ok.inj h)
    exact ⟨hid, min, max, harguments, rfl⟩
  · cases h

/-! ## Styles -/

theorem exists_of_readKnownStyle (h : readKnownStyle call = .ok (some (id, a))) :
    id.isIdentifier = true ∧ ∃ (key : StyleKey) (v : Text) (rest : List Text),
      call.groups = [key.name] ∧ call.arguments = id :: v :: rest ∧
      a = .style key.name (.text (key.ofSource v)) := by
  unfold readKnownStyle at h
  split at h
  · next name target v rest hgroups harguments =>
    obtain ⟨key, hkey, habout⟩ := Option.bind_eq_some_iff.1 (Except.ok.inj h)
    obtain ⟨hid, rfl, rfl⟩ := about_eq_some_iff.1 habout
    have hname : key.name = name := by simpa using List.find?_some hkey
    exact ⟨hid, key, v, rest, hname ▸ hgroups, harguments, rfl⟩
  · cases h

theorem exists_of_readOtherStyle (h : readOtherStyle call = .ok (some (id, a))) :
    id.isIdentifier = true ∧ ∃ name v rest,
      call.groups = [name] ∧ call.arguments = id :: v :: rest ∧ a = .style name (.text v) := by
  unfold readOtherStyle at h
  split at h
  · next name target v rest hgroups harguments =>
    split at h
    · cases h
    · obtain ⟨hid, rfl, rfl⟩ := about_eq_some_iff.1 (Except.ok.inj h)
      exact ⟨hid, name, v, rest, hgroups, harguments, rfl⟩
  · cases h

/-- A style that is known is read by its own reader only. -/
theorem ofName?_of_readOtherStyle {name : Text} {v : Value}
    (h : readOtherStyle call = .ok (some (id, .style name v))) : StyleKey.ofName? name = none := by
  unfold readOtherStyle at h
  split at h
  · split at h
    · cases h
    · next hknown =>
      obtain ⟨-, -, ha⟩ := about_eq_some_iff.1 (Except.ok.inj h)
      cases ha
      exact Option.not_isSome_iff_eq_none.1 hknown
  · cases h

/-! ## Places -/

theorem exists_of_readAlign (h : readAlign call = .ok (some (id, a))) :
    id.isIdentifier = true ∧ ∃ keyword x y, call.arguments = [id, keyword, x, y] ∧
      a = .align (.text keyword) (offset x) (offset y) := by
  unfold readAlign at h
  split at h
  · next target keyword x y harguments =>
    obtain ⟨hid, rfl, rfl⟩ := about_eq_some_iff.1 (Except.ok.inj h)
    exact ⟨hid, keyword, x, y, harguments, rfl⟩
  · cases h

theorem exists_of_readCenter (h : readCenter call = .ok (some (id, a))) :
    id.isIdentifier = true ∧ call.arguments = [id] ∧ a = .center := by
  unfold readCenter at h
  split at h
  · next target harguments =>
    obtain ⟨hid, rfl, rfl⟩ := about_eq_some_iff.1 (Except.ok.inj h)
    exact ⟨hid, harguments, rfl⟩
  · cases h

theorem exists_of_readPosition (h : readPosition call = .ok (some (id, a))) :
    id.isIdentifier = true ∧ ∃ x y, call.arguments = [id, x, y] ∧
      a = .position (offset x) (offset y) := by
  unfold readPosition at h
  split at h
  · next target x y harguments =>
    obtain ⟨hid, rfl, rfl⟩ := about_eq_some_iff.1 (Except.ok.inj h)
    exact ⟨hid, x, y, harguments, rfl⟩
  · cases h

end LvglForest.Recognizer
