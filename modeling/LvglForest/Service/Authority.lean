import LvglForest.Decimal.Integer
import LvglForest.Fault
import LvglForest.Service.Label
import LvglForest.Service.Percent

/-!
# Authorities

Who is asked for a resource: a host, with the number of a service at it if one is chosen, and
perhaps a user with a password before it. A host between brackets is an address in colons or of a
form yet to come. Some defects are seen when a reference is taken apart, the others when its host is
asked.
-/

namespace LvglForest

/-! ## Addresses -/

namespace Address

/-- An ASCII digit. -/
def isDigit (p : CodePoint) : Bool := 0x30 ≤ p.value && p.value ≤ 0x39

/-- The number that ASCII digits write. -/
def number (t : Text) : Nat := Decimal.ofDigits (t.map (·.value - 0x30))

/-- A number below 256 without leading zeros. -/
def isOctet (t : Text) : Bool :=
  !t.isEmpty && t.length ≤ 3 && t.all isDigit && number t < 256 &&
    (t.length = 1 || t.head? ≠ some (.char '0'))

/-- Four numbers between dots. -/
def isDotted (t : Text) : Bool :=
  let parts := Text.splitOn (.char '.') t
  parts.length = 4 && parts.all isOctet

/-- One to four hexadecimal digits. -/
def isGroup (t : Text) : Bool := !t.isEmpty && t.length ≤ 4 && t.all CodePoint.isHexDigit

/-- The number of groups on one side of two colons, if they are all well formed. A side may be
empty. -/
def sideCount? (groups : List Text) : Option Nat :=
  if groups = [[]] then some 0
  else if groups.all isGroup then some groups.length
  else none

/-- Whether parts between colons are an address: eight groups, or fewer of them around one place
with two colons. -/
def areGroups (parts : List Text) : Bool :=
  let first := parts.take 1
  let front := (parts.drop 1).dropLast.takeWhile (!·.isEmpty)
  if front.length + 2 = parts.length then parts.length = 8 && parts.all isGroup
  else
    match sideCount? (first ++ front), sideCount? (parts.drop (front.length + 2)) with
    | some m, some n => m + n < 8
    | _, _ => false

/-- Parts between colons, in which a last one of four numbers counts as two groups. -/
def withoutDots? (parts : List Text) : Option (List Text) :=
  match parts.getLast? with
  | some last =>
    if last.contains (.char '.') then
      let group : Text := "0"
      if isDotted last then some (parts.dropLast ++ [group, group]) else none
    else some parts
  | none => some parts

/-- Groups between colons, followed by the name of a zone or not. -/
def isColons (t : Text) : Bool :=
  let address := t.takeWhile (· ≠ .char '%')
  let zone := t.drop address.length
  let parts := Text.splitOn (.char ':') address
  (zone.isEmpty || (1 < zone.length && !(zone.drop 1).contains (.char '%'))) &&
    2 < parts.length && (withoutDots? parts).elim false areGroups

/-- A version in hexadecimal digits, a dot and at least one more character. -/
def isFuture (t : Text) : Bool :=
  let version := (t.drop 1).takeWhile CodePoint.isHexDigit
  t.head? = some (.char 'v') && !version.isEmpty &&
    (match t.drop (version.length + 1) with
      | .char '.' :: _ :: _ => true
      | _ => false)

end Address

/-! ## Parts of an authority -/

/-- Who is asked for a resource. What is empty is not given. -/
structure Authority where
  user : Text := []
  password : Text := []
  host : Text := []
  service : Text := []

namespace Authority

/-- The part after the last at sign. -/
def afterUser (t : Text) : Text := (t.reverse.takeWhile (· ≠ .char '@')).reverse

/-- The part up to a code point and the part behind it. -/
def cut (p : CodePoint) (t : Text) : Text × Text :=
  let before := t.takeWhile (· ≠ p)
  (before, t.drop (before.length + 1))

/-- The authority that a text writes. -/
def ofText (t : Text) : Authority :=
  let rest := afterUser t
  let (user, password) := cut (.char ':') (t.take (t.length - rest.length - 1))
  let (host, service) :=
    if rest.contains (.char '[') then
      let (host, r) := cut (.char ']') (cut (.char '[') rest).2
      (host, (cut (.char ':') r).2)
    else cut (.char ':') rest
  { user, password, host, service }

/-! ## Defects of the text -/

/-- Characters that are a delimiter of references in another form, or hold one. -/
def hiddenDelimiters : List Nat :=
  [0x2047, 0x2048, 0x2049, 0x2100, 0x2101, 0x2105, 0x2106, 0x2A74, 0xFE13, 0xFE16, 0xFE55, 0xFE56,
    0xFE5F, 0xFE6B, 0xFF03, 0xFF0F, 0xFF1A, 0xFF1F, 0xFF20]

/-- Whether a text with brackets has them around an address, nothing before them and only the number
of a service behind them. -/
def hasBracketedHost (t : Text) : Bool :=
  let rest := afterUser t
  let (before, bracketed) := cut (.char '[') rest
  let (host, behind) :=
    if rest.contains (.char '[') then cut (.char ']') bracketed
    else ((cut (.char ':') rest).1, [])
  let isClear := !rest.contains (.char '[') ||
    (before.isEmpty && (behind.isEmpty || behind.head? = some (.char ':')))
  isClear &&
    (if host.head? = some (.char 'v') then Address.isFuture host else Address.isColons host)

/-- The defect of a text that no authority can be read from. -/
def defect? (t : Text) : Option AuthorityDefect :=
  let opens := t.contains (.char '[')
  let closes := t.contains (.char ']')
  if opens != closes || (opens && !hasBracketedHost t) then some .bracket
  else if t.any fun p => hiddenDelimiters.contains p.value then some .character
  else none

/-! ## Asking the host -/

/-- The host in small letters, except for the name of a zone. -/
def lowerHost (a : Authority) : Text :=
  let address := a.host.takeWhile (· ≠ .char '%')
  Text.lower address ++ a.host.drop address.length

/-- The number of the service, zero if none is given. -/
def serviceNumber (a : Authority) : Except Fault Nat :=
  if !a.service.all Address.isDigit then .error (.authority .service)
  else
    let n := Address.number a.service
    if n < 0x10000 then .ok n else .error (.authority .service)

/-- A text that is percent escaped where this is needed. It can hold no surrogates. -/
def escaped (t : Text) : Except Fault Text :=
  match t.find? CodePoint.isSurrogate with
  | some p => .error (.unencodable "utf-8" p)
  | none =>
    .ok (t.flatMap fun p =>
      if p.isAsciiLetter || Address.isDigit p || ("_.-~%!$&'()*+,;=" : Text).contains p then [p]
      else ((Utf8.encodePoint? p).getD []).flatMap Percent.escape)

/-- The authority in ASCII, as it is asked: the host by its labels, the service in plain digits. -/
def toAscii (a : Authority) : Except Fault Authority := do
  let host ←
    match Label.encodeHost? a.lowerHost with
    | some host => pure host
    | none => throw (.authority .label)
  let service ← a.serviceNumber
  let user ← escaped a.user
  let password ← if user.isEmpty then pure [] else escaped a.password
  let digits := if service = 0 then [] else Decimal.ofNat service
  return { user, password, host, service := digits }

/-- An authority as a text. -/
def toText (a : Authority) : Text :=
  let user :=
    if a.user.isEmpty then []
    else
      a.user ++ (if a.password.isEmpty then [] else .char ':' :: a.password) ++ [.char '@']
  let host := if a.host.contains (.char ':') then .char '[' :: a.host ++ [.char ']'] else a.host
  user ++ host ++ (if a.service.isEmpty then [] else .char ':' :: a.service)

/-- A code point of a plain name of a host. -/
def isNamePoint (p : CodePoint) : Bool :=
  p.isAsciiLetter || Address.isDigit p || p = .char '.' || p = .char '-'

/-- Whether the host can be read back. Only plain names without a user are read back. -/
def isReadable (a : Authority) : Bool :=
  !a.user.isEmpty || !a.host.all isNamePoint || Label.isReadableHost a.host

end Authority

end LvglForest
