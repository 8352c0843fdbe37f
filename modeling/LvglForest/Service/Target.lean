import LvglForest.Service.Authority

/-!
# Request targets

Where a request goes: the text that a client is given is a reference with a scheme, an authority, a
path and a query, all optional. The client takes the reference apart, puts the path together with
the query and takes that apart again, twice; so two slashes at the start of a path, which announce
an authority, are seen at each of these steps. What is left of the path is percent decoded. The
client does not ask the host, but it must be possible to ask it.
-/

namespace LvglForest

/-- The parts of a reference. What follows a number sign is no part of it. -/
structure Reference where
  scheme : Text := []
  authority : Text := []
  path : Text := []
  query : Text := []

namespace Reference

/-- A control character or a blank, as they are left out before a reference. -/
def isLeading (p : CodePoint) : Bool := p.value ≤ 0x20

/-- Characters that are left out of a reference wherever they stand. -/
def isIgnored (p : CodePoint) : Bool := p = .char '\t' || p = .char '\r' || p = .char '\n'

/-- A code point of a scheme. -/
def isSchemePoint (p : CodePoint) : Bool :=
  p.isAsciiLetter || (0x30 ≤ p.value && p.value ≤ 0x39) || ("+-." : Text).contains p

/-- The scheme before the first colon, and the rest. A scheme starts with a letter. -/
def splitScheme (t : Text) : Text × Text :=
  let scheme := t.takeWhile (· ≠ .char ':')
  match scheme, t.drop scheme.length with
  | p :: _, _ :: r =>
    if p.isAsciiLetter && scheme.all isSchemePoint then (Text.lower scheme, r) else ([], t)
  | _, _ => ([], t)

/-- The authority after two slashes, and the rest. -/
def splitAuthority (t : Text) : Text × Text :=
  match t with
  | .char '/' :: .char '/' :: r =>
    let authority := r.takeWhile fun p => p ≠ .char '/' && p ≠ .char '?' && p ≠ .char '#'
    (authority, r.drop authority.length)
  | t => ([], t)

/-- The reference that a text writes. -/
def ofText (t : Text) : Except Fault Reference :=
  let (scheme, r) := splitScheme ((t.dropWhile isLeading).filter (!isIgnored ·))
  let (authority, r) := splitAuthority r
  let r := r.takeWhile (· ≠ .char '#')
  match Authority.defect? authority with
  | some defect => .error (.authority defect)
  | none =>
    .ok
      { scheme, authority
        path := r.takeWhile (· ≠ .char '?')
        query := (r.dropWhile (· ≠ .char '?')).drop 1 }

/-- A path and a query in one text. -/
def resource (r : Reference) : Text :=
  if r.query.isEmpty then r.path else r.path ++ .char '?' :: r.query

/-- A reference without a query as a text. -/
def write (r : Reference) : Text :=
  (if r.scheme.isEmpty then [] else r.scheme ++ [.char ':']) ++
    (if r.authority.isEmpty then [] else .char '/' :: .char '/' :: r.authority) ++ r.path

end Reference

/-- Where a request goes: the path, and whether a lasting connection is asked for. -/
structure Target where
  path : Text
  isSocket : Bool := false

namespace Target

/-- The bytes that stay in a path are those of its characters; a surrogate has none. -/
def checkPoints (t : Text) : Except Fault Unit :=
  match t.find? CodePoint.isSurrogate with
  | some p => .error (.unencodable "utf-8" p)
  | none => .ok ()

/-- A path with one slash before it. An empty path stays empty. -/
def rooted (path : Text) : Text :=
  if path.isEmpty then [] else .char '/' :: path.dropWhile (· = .char '/')

/-- The path that is asked for, with an authority in it as it is asked. -/
def innerPath (inner : Reference) : Except Fault Text := do
  checkPoints inner.path
  let authority ← (Authority.ofText inner.authority).toAscii
  return { inner with authority := authority.toText }.write

/-- The authority that is asked. Its written form must be well formed again. -/
def asked (outer : Reference) : Except Fault Authority := do
  let authority ← (Authority.ofText outer.authority).toAscii
  match Authority.defect? authority.toText with
  | some defect => throw (.authority defect)
  | none => return authority

/-- The target that a text names. -/
def ofText (t : Text) : Except Fault Target := do
  let outer ← Reference.ofText t
  let middle ← Reference.ofText outer.resource
  let path ← innerPath (← Reference.ofText middle.path)
  let authority ← asked outer
  checkPoints outer.resource
  if !authority.isReadable then throw (.authority .label)
  return {
    path := rooted (Utf8.decode (Percent.bytes path))
    isSocket := outer.scheme = "ws" || outer.scheme = "wss" }

end Target

end LvglForest
