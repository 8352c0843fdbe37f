import LvglForest.Decimal.Digits
import LvglForest.Text.Quoted
import LvglForest.Text.Utf8
import LvglForest.Value.Shape

/-!
# Faults

Why an operation on loosely typed data, on numbers or on a disk fails, and how each cause is
worded. The kinds group the causes: what is reported to a caller and what ends an operation depends
on the kind alone.
-/

namespace LvglForest

/-- Why a disk refuses an operation. -/
inductive DiskCause where
  | missing
  | exists
  | notDirectory
  | isDirectory
  | nameTooLong
  deriving DecidableEq

/-- The number and the wording of a cause. -/
def DiskCause.message : DiskCause → Text
  | .missing => "[Errno 2] No such file or directory"
  | .exists => "[Errno 17] File exists"
  | .notDirectory => "[Errno 20] Not a directory"
  | .isDirectory => "[Errno 21] Is a directory"
  | .nameTooLong => "[Errno 36] File name too long"

/-- Why nobody can be asked for a resource. -/
inductive AuthorityDefect where
  /-- The brackets around a host are not well formed. -/
  | bracket
  /-- A character is a delimiter in another form. -/
  | character
  /-- The service at the host has no number that a service can have. -/
  | service
  /-- A label of the host has no form that can be asked for. -/
  | label
  deriving DecidableEq

/-- The wording of a defect. -/
def AuthorityDefect.message : AuthorityDefect → Text
  | .bracket => "Invalid IPv6 URL"
  | .character => "netloc contains invalid characters under NFKC normalization"
  | .service => "number of the service is not in the range from 0 to 65535"
  | .label => "label empty or too long"

/-- What an operation was asked to take and cannot. -/
inductive Consumer where
  | outline
  | generation
  | exporting
  deriving DecidableEq

/-- The cause of a failure. -/
inductive Fault where
  /-- More digits than are converted, with their count if they were read. -/
  | digitLimit (count : Option Nat)
  /-- A text that writes no integer. -/
  | notInteger (t : Text)
  /-- A value of this shape is no number. -/
  | notNumber (shape : Shape)
  /-- A float that is not a number has no integer part. -/
  | noIntegerPart
  /-- An infinite float has no integer part. -/
  | infinite
  /-- Values of this shape have no such member. -/
  | noMember (shape : Text) (member : Text)
  /-- Values of this shape have no items. -/
  | notIterable (shape : Shape)
  /-- Values of this shape are not indexed. -/
  | notIndexable (shape : Shape)
  /-- The list or text is too short. -/
  | noIndex (shape : Shape)
  /-- The record has no such key. -/
  | noKey (index : Nat)
  /-- Values of this shape are no keys. -/
  | notHashable (shape : Shape)
  /-- Nothing is looked for in values of this shape. -/
  | notContainer (shape : Shape)
  /-- A value of this shape is no part of a text. -/
  | notPart (shape : Shape)
  /-- A text is needed in place of a value of this shape. -/
  | notText (shape : Shape)
  /-- A character is needed in place of a text of this length. -/
  | notCharacter (length : Nat)
  /-- A character is needed in place of a value of this shape. -/
  | characterExpected (shape : Shape)
  /-- A path is needed in place of a value of this shape. -/
  | notPath (shape : Shape)
  /-- The name of a file is needed in place of a value of this shape. -/
  | notFileName (shape : Shape)
  /-- The name of an encoding is needed in place of a value of this shape. -/
  | notEncoding (shape : Shape)
  /-- A line is needed in place of a value of this shape. -/
  | notLine (shape : Shape)
  /-- A path holds the character NUL. -/
  | nullByte
  /-- A code point has no encoding. -/
  | unencodable (encoding : Text) (p : CodePoint)
  /-- Bytes have no decoding. -/
  | undecodable (encoding : Text) (e : Utf8.DecodeError)
  /-- There is no encoding of this name. -/
  | unknownEncoding (name : Text)
  /-- There is no category of this name. -/
  | unknownCategory (name : Text)
  /-- The consumer takes no data of the named type. -/
  | notAccepted (consumer : Consumer) (type : Text)
  /-- Nobody can be asked for a resource. -/
  | authority (defect : AuthorityDefect)
  /-- A header value holds a line end. -/
  | headerLineEnd
  /-- The disk refuses a path. -/
  | disk (cause : DiskCause) (path : Text)
  /-- A cause that some other party words itself. -/
  | other (message : Text)

/-- The wording of a defect of bytes. -/
def Utf8.Defect.message : Utf8.Defect → Text
  | .invalidStart => "invalid start byte"
  | .invalidContinuation => "invalid continuation byte"
  | .unexpectedEnd => "unexpected end of data"
  | .notAscii => "ordinal not in range(128)"

/-- The wording of the place where decoding ends and of the reason. -/
def Utf8.DecodeError.message (e : Utf8.DecodeError) : Text :=
  let place : Text :=
    if e.length = 1 then
      "byte 0x" ++ hexText 2 e.byte.toNat ++ " in position " ++ Decimal.ofNat e.position
    else
      "bytes in position " ++ Decimal.ofNat e.position ++ "-" ++
        Decimal.ofNat (e.position + e.length - 1)
  place ++ ": " ++ e.defect.message

/-- The kinds of faults. -/
inductive FaultKind where
  | wrongType
  | wrongValue
  | unencodable
  | undecodable
  | wrongLabel
  | noMember
  | noIndex
  | noKey
  | tooLarge
  | unknownName
  | disk
  | other
  deriving DecidableEq

namespace Fault

/-- The kind of a fault. -/
def kind : Fault → FaultKind
  | .digitLimit _ | .notInteger _ | .noIntegerPart | .nullByte | .unknownCategory _
  | .headerLineEnd => .wrongValue
  | .authority .label => .wrongLabel
  | .authority _ => .wrongValue
  | .notNumber _ | .notIterable _ | .notIndexable _ | .notHashable _ | .notContainer _ | .notPart _
  | .notText _ | .notCharacter _ | .characterExpected _ | .notPath _ | .notFileName _
  | .notEncoding _ | .notLine _ => .wrongType
  | .notAccepted .exporting _ => .wrongType
  | .notAccepted _ _ => .wrongValue
  | .infinite => .tooLarge
  | .noMember _ _ => .noMember
  | .noIndex _ => .noIndex
  | .noKey _ => .noKey
  | .unencodable _ _ => .unencodable
  | .undecodable _ _ => .undecodable
  | .unknownEncoding _ => .unknownName
  | .disk _ _ => .disk
  | .other _ => .other

/-- The wording of a fault. -/
def message : Fault → Text
  | .digitLimit none =>
    "Exceeds the limit (4300 digits) for integer string conversion; " ++
      "use sys.set_int_max_str_digits() to increase the limit"
  | .digitLimit (some count) =>
    "Exceeds the limit (4300 digits) for integer string conversion: value has " ++
      Decimal.ofNat count ++
      " digits; use sys.set_int_max_str_digits() to increase the limit"
  | .notInteger t => "invalid literal for int() with base 10: " ++ t.quoted.take 200
  | .notNumber shape =>
    "int() argument must be a string, a bytes-like object or a real number, not '" ++
      shape.name ++ "'"
  | .noIntegerPart => "cannot convert float NaN to integer"
  | .infinite => "cannot convert float infinity to integer"
  | .noMember shape member => "'" ++ shape ++ "' object has no attribute '" ++ member ++ "'"
  | .notIterable shape => "'" ++ shape.name ++ "' object is not iterable"
  | .notIndexable shape => "'" ++ shape.name ++ "' object is not subscriptable"
  | .noIndex .text => "string index out of range"
  | .noIndex shape => shape.name ++ " index out of range"
  | .noKey index => Decimal.ofNat index
  | .notHashable shape => "unhashable type: '" ++ shape.name ++ "'"
  | .notContainer shape => "argument of type '" ++ shape.name ++ "' is not iterable"
  | .notPart shape => "'in <string>' requires string as left operand, not " ++ shape.name
  | .notText shape => "expected string or bytes-like object, got '" ++ shape.name ++ "'"
  | .notCharacter length =>
    "ord() expected a character, but string of length " ++ Decimal.ofNat length ++
      " found"
  | .characterExpected shape =>
    "ord() expected string of length 1, but " ++ shape.name ++ " found"
  | .notPath shape => "expected str, bytes or os.PathLike object, not " ++ shape.name
  | .notFileName shape =>
    "unsupported operand type(s) for /: 'PosixPath' and '" ++ shape.name ++ "'"
  | .notEncoding shape => "open() argument 'encoding' must be str or None, not " ++ shape.name
  | .notLine shape => "sequence item 1: expected str instance, " ++ shape.name ++ " found"
  | .nullByte => "embedded null byte"
  | .unencodable encoding p =>
    "'" ++ encoding ++ "' codec can't encode character " ++ Text.quoted [p] ++
      " in position 0: surrogates not allowed"
  | .undecodable encoding e => "'" ++ encoding ++ "' codec can't decode " ++ e.message
  | .unknownEncoding name => "unknown encoding: " ++ name
  | .unknownCategory name => "未知的识别器类别: " ++ name
  | .notAccepted .outline type =>
    "WidgetTreeFormatter只能格式化Widget、ParsedFile或Screen，收到: " ++ type
  | .notAccepted .generation type =>
    "CodeGenerator只能格式化Widget、Widget列表或Screen，收到: " ++ type
  | .notAccepted .exporting type => "无法导出类型 " ++ type
  | .authority defect => defect.message
  | .headerLineEnd => "Header values must not contain newline characters."
  | .disk cause path => cause.message ++ ": " ++ path.quoted
  | .other message => message

end Fault

end LvglForest
