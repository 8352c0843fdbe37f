import LvglForest.Proofs.Value.Read
import LvglForest.Service.Framework

/-!
# What a framework is relied on for

The routes with one path are reached by their paths and methods and in no other way, and numbers in
a document do not have too many digits. The framework that is worked out keeps to this
(`Framework.isLawful_standard`).
-/

namespace LvglForest

/-- A framework leads requests by their paths and methods, and reads numbers that can be written. -/
structure Framework.IsLawful (w : Framework) : Prop where
  lead_of_path : ∀ {r : Request} {route : Route}, route.path? = some r.target.path →
    route.takes r.verb = true → r.target.isSocket = false → w.lead r = .ok route
  path_of_lead : ∀ {r : Request} {route : Route}, w.lead r = .ok route →
    (∀ path ∈ route.path?, r.target.path = path) ∧ route.takes r.verb = true
  converts_document : ∀ {r : Request} {v : Value}, w.document r = .ok v → v.Converts

/-! ## Routes -/

namespace Route

/-- A path leads to the route that it is the path of. -/
theorem ofPath?_of_path? {route : Route} {path : Text} (h : route.path? = some path) :
    ofPath? path = some route := by
  cases route with
  | asset => cases h
  | page | importing | exporting =>
    cases h
    decide

/-- A route with one path is found by no other. -/
theorem path_of_ofPath? {route : Route} {path : Text} (h : ofPath? path = some route) :
    ∀ p ∈ route.path?, path = p := by
  unfold ofPath? at h
  split at h
  · next hpath =>
    cases h
    rintro p ⟨⟩
    exact hpath
  split at h
  · next hpath =>
    cases h
    rintro p ⟨⟩
    exact hpath
  split at h
  · next hpath =>
    cases h
    rintro p ⟨⟩
    exact hpath
  -- Whatever is left are the assets, which have many paths.
  split at h
  · split at h <;> cases h
    rintro p ⟨⟩
  · cases h

end Route

namespace Routing

theorem ofPath_eq_found {isSocket : Bool} {method path : Text} {route : Route}
    (h : ofPath isSocket method path = .found route) :
    Route.ofPath? path = some route ∧ route.takes method = true := by
  unfold ofPath at h
  split at h
  · next hattempt =>
    cases h
    unfold attempt at hattempt
    split at hattempt
    · cases hattempt
    · next hroute =>
      split at hattempt
      · cases hattempt
      · next htakes =>
        split at hattempt <;> cases hattempt
        exact ⟨hroute, by simpa using htakes⟩
  · split at h
    · cases h
    · split at h <;> cases h

theorem outcome_eq_ok {routing : Routing} {route : Route} (h : routing.outcome = .ok route) :
    routing = .found route := by
  cases routing with
  | found => cases h; rfl
  | redirected => cases h
  | refused => cases h

end Routing

/-! ## The framework -/

/-- Whatever a body carries has numbers that are not too long. -/
theorem RequestBody.converts_value (b : RequestBody) : b.value.Converts := by
  unfold value
  split
  · next contentType content =>
    split
    · cases h : Value.ofBytes? content with
      | none => trivial
      | some v => exact Value.converts_of_ofBytes? h
    · trivial
  · trivial

/-- **The framework that is worked out** is lawful. -/
theorem Framework.isLawful_standard : Framework.standard.IsLawful where
  lead_of_path := by
    intro r route hpath htakes hsocket
    have hattempt : Routing.attempt r.target.isSocket r.verb r.target.path = .ok route := by
      simp only [Routing.attempt, Route.ofPath?_of_path? hpath, hsocket, htakes, Bool.not_true,
        Bool.false_eq_true, if_false]
    show (Routing.ofPath r.target.isSocket r.verb r.target.path).outcome = .ok route
    rw [Routing.ofPath, hattempt]
    rfl
  path_of_lead := by
    intro r route h
    obtain ⟨hroute, htakes⟩ := Routing.ofPath_eq_found (Routing.outcome_eq_ok h)
    exact ⟨Route.path_of_ofPath? hroute, htakes⟩
  converts_document := by
    intro r v h
    cases h
    exact r.body.converts_value

end LvglForest
