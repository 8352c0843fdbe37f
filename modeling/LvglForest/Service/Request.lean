import LvglForest.Service.Form
import LvglForest.Service.Multipart
import LvglForest.Service.Target
import LvglForest.Value.Bytes

/-!
# Requests

What is sent to the service: a method, a target and a body. The content type of a body says how it
is read; a body that is not what its content type says counts as empty.
-/

namespace LvglForest

/-- What a request carries. -/
inductive RequestBody where
  | nothing
  /-- The fields of a form, the first of each name counting. -/
  | form (fields : List (Text × Text))
  /-- Bytes with their content type. -/
  | document (contentType : Text) (content : List UInt8)

namespace RequestBody

/-- Why a body cannot be sent, if it cannot. -/
def fault? : RequestBody → Option Fault
  | .nothing => none
  | .form fields =>
    (fields.findSome? fun (name, value) => (name ++ value).find? CodePoint.isSurrogate).map
      (.unencodable "utf-8")
  | .document contentType _ =>
    if contentType.any fun p => p = .char '\r' || p = .char '\n' then some .headerLineEnd else none

/-- Whether a media type is one of the exchange format. -/
def isValueType (mediaType : Text) : Bool :=
  mediaType = "application/json" ||
    (("application/" : Text).isPrefixOf mediaType && ("+json" : Text).isSuffixOf mediaType)

/-- The value that a body carries, which is null if it carries none. -/
def value : RequestBody → Value
  | .document contentType content =>
    if isValueType (HeaderValue.ofText contentType).mediaType then
      (Value.ofBytes? content).getD .null
    else .null
  | _ => .null

/-- The fields of the form that a body carries. -/
def fields : RequestBody → List (Text × Text)
  | .nothing => []
  | .form fields => fields
  | .document contentType content =>
    let v := HeaderValue.ofText contentType
    if v.mediaType = "application/x-www-form-urlencoded" then Form.ofBytes content
    else if v.mediaType = "multipart/form-data" then Multipart.ofBytes v content
    else []

end RequestBody

/-- The capitals of a code point where these are letters in ASCII, and otherwise the code point. -/
def CodePoint.asciiCapitals : CodePoint → Text
  | .char 'ß' => "SS"
  | .char 'ı' => "I"
  | .char 'ſ' => "S"
  | .char 'ﬀ' => "FF"
  | .char 'ﬁ' => "FI"
  | .char 'ﬂ' => "FL"
  | .char 'ﬃ' => "FFI"
  | .char 'ﬄ' => "FFL"
  | .char 'ﬅ' => "ST"
  | .char 'ﬆ' => "ST"
  | .char c => [.char c.toUpper]
  | p => [p]

/-- A request. -/
structure Request where
  /-- The method as it is sent. -/
  method : Text := "GET"
  target : Target
  body : RequestBody := .nothing

namespace Request

/-- The method, which may be written in small letters. -/
def verb (r : Request) : Text := r.method.flatMap CodePoint.asciiCapitals

/-- A request to the target that a text names. It must be possible to send it. -/
def make (method path : Text) (body : RequestBody) : Except Fault Request := do
  let target ← Target.ofText path
  match body.fault? with
  | some f => throw f
  | none => return { method, target, body }

end Request

end LvglForest
