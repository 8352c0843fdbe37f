import LvglForest.Service.Request
import LvglForest.Service.Route

/-!
# Frameworks

What the service leaves to a web framework: to lead a request to one of the routes, and to read the
document or the form that it carries. A framework may also answer by itself, as one does that
refuses a body for its length; it then gives the status of its answer.

One framework is worked out: it answers nothing by itself but requests that lead nowhere.
-/

namespace LvglForest

/-- A web framework, which gives a status where it answers by itself. -/
structure Framework where
  /-- The route that a request is led to. -/
  lead : Request → Except Nat Route
  /-- The value of the document in a request, which is null if there is none that can be read. -/
  document : Request → Except Nat Value
  /-- The fields of the form in a request. -/
  form : Request → Except Nat (List (Text × Text))

/-- A framework without limits of its own. -/
def Framework.standard : Framework where
  lead r := (Routing.ofPath r.target.isSocket r.verb r.target.path).outcome
  document r := .ok r.body.value
  form r := .ok r.body.fields

end LvglForest
