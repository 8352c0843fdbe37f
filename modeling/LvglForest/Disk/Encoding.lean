import LvglForest.Value.Basic

/-!
# Encodings of files

A file is read and written with the codec of a named encoding. Which codecs there are is not a
matter of this library, and what is shown of the files that are written holds with any of them. Two
encodings are worked out here. Both are strict: bytes that are no text, and code points that have no
bytes, are faults.
-/

namespace LvglForest

/-- An encoding of texts. -/
inductive Encoding where
  | utf8
  | ascii
  deriving DecidableEq

namespace Encoding

/-- The name of an encoding. -/
def name : Encoding → Text
  | utf8 => "utf-8"
  | ascii => "ascii"

/-- The encoding of a name. -/
def ofName (t : Text) : Except Fault Encoding :=
  if t = utf8.name then .ok utf8
  else if t = ascii.name then .ok ascii
  else .error (.unknownEncoding t)

/-- The name that a value gives. Null stands for the usual encoding. -/
def nameOf : Value → Except Fault Text
  | .text t => .ok t
  | .null => .ok utf8.name
  | v => .error (.notEncoding v.shape)

/-- The text of bytes, as they are. -/
def decode (e : Encoding) (bytes : List UInt8) : Except Fault Text :=
  let decoded :=
    match e with
    | utf8 => Utf8.decodeStrict bytes
    | ascii => Ascii.decodeStrictFrom 0 bytes
  match decoded with
  | .ok t => .ok t
  | .error d => .error (.undecodable e.name d)

/-- The bytes of a text. -/
def encode (e : Encoding) (t : Text) : Except Fault (List UInt8) :=
  let encoded :=
    match e with
    | utf8 => Utf8.encodeStrict t
    | ascii => Ascii.encodeStrict t
  match encoded with
  | .ok bytes => .ok bytes
  | .error p => .error (.unencodable e.name p)

end Encoding

/-! ## Codecs -/

/-- How texts are kept in a file. -/
structure Codec where
  /-- The bytes that a new file gets from a text that is written into it. -/
  encode : Text → Except Fault (List UInt8)
  /-- The text that is read from a file with given bytes, with the line ends as they are. -/
  decode : List UInt8 → Except Fault Text

/-- The codecs that are known, by the names of their encodings. -/
structure Codecs where
  get : Text → Except Fault Codec

/-- The codec of an encoding. -/
def Encoding.codec (e : Encoding) : Codec where
  encode := e.encode
  decode := e.decode

/-- The codecs of the encodings that are worked out, under their own names. -/
def Codecs.standard : Codecs where
  get name := (Encoding.ofName name).map Encoding.codec

end LvglForest
