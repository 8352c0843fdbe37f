import LvglForest.Text.Basic

/-!
# Routes

The places that requests can be sent to, each with its methods. A path that leads nowhere is tried
once more with all slashes in a row made one; if it leads somewhere then, and also if only the
slash of the first page is missing, the request is sent on to the better path.
-/

namespace LvglForest

/-- The places that requests can be sent to. -/
inductive Route where
  | page
  | importing
  | exporting
  /-- A file that comes with the page; there is none. -/
  | asset
  deriving DecidableEq

namespace Route

/-- Whether the rest of a path names a file: it does not start with a slash, and a line feed stands
nowhere but at its start. -/
def isAssetName : Text → Bool
  | [] => false
  | p :: t => p ≠ .char '/' && !t.contains (.char '\n')

/-- The route of a path. -/
def ofPath? (path : Text) : Option Route :=
  if path = "/" then some .page
  else if path = "/api/import" then some .importing
  else if path = "/api/export" then some .exporting
  else
    match ("/static/" : Text).isPrefixOf? path with
    | some name => if isAssetName name then some .asset else none
    | none => none

/-- The path of a route that has one path. -/
def path? : Route → Option Text
  | .page => some "/"
  | .importing => some "/api/import"
  | .exporting => some "/api/export"
  | .asset => none

/-- The methods of a route. -/
def methods : Route → List Text
  | .page => ["GET", "HEAD", "POST", "OPTIONS"]
  | .importing | .exporting => ["POST", "OPTIONS"]
  | .asset => ["GET", "HEAD", "OPTIONS"]

/-- Whether a route has a method. -/
def takes (method : Text) (r : Route) : Bool := r.methods.contains method

/-- A text in which slashes in a row are one. -/
def mergeSlashes : Text → Text
  | [] => []
  | p :: t =>
    let rest := mergeSlashes t
    if p = .char '/' && rest.head? = some (.char '/') then rest else p :: rest

end Route

/-- Why a path leads nowhere. -/
inductive Mismatch where
  | path
  /-- The path is known, but not with this method. -/
  | method
  /-- The path and the method are known, but not for a lasting connection. -/
  | connection
  deriving DecidableEq

/-- The status for a request that leads nowhere. -/
def Mismatch.status : Mismatch → Nat
  | .path => 404
  | .method => 405
  | .connection => 400

/-- Where a request is led. -/
inductive Routing where
  | found (r : Route)
  | redirected
  | refused (m : Mismatch)

namespace Routing

/-- The route of a path that takes a method. -/
def attempt (isSocket : Bool) (method path : Text) : Except Mismatch Route :=
  match Route.ofPath? path with
  | none => .error .path
  | some r =>
    if !r.takes method then .error .method
    else if isSocket then .error .connection
    else .ok r

/-- The reason that is given if there are two. -/
def worse (a b : Mismatch) : Mismatch :=
  if a = .method || b = .method then .method
  else if a = .connection || b = .connection then .connection
  else .path

/-- Where a request with a method and a path is led. -/
def ofPath (isSocket : Bool) (method path : Text) : Routing :=
  match attempt isSocket method path with
  | .ok r => .found r
  | .error first =>
    if path.isEmpty && Route.page.takes method && !isSocket then .redirected
    else
      match attempt isSocket method (Route.mergeSlashes path) with
      | .ok _ => .redirected
      | .error second => .refused (worse first second)

/-- The route that a request is led to, or the status of the answer without one. -/
def outcome : Routing → Except Nat Route
  | .found route => .ok route
  | .redirected => .error 308
  | .refused m => .error m.status

end Routing

end LvglForest
