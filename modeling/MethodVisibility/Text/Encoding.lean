/-
  Encodings of files.

  Four encodings are known, each by its proper name and some by aliases. Names are
  compared after all that is neither letter, digit nor point has become a single
  underscore and letters are in lower case.

  `Encoding.decode` gives the text of octets or the first octets that are no text. In
  the encoding with a byte order mark, the mark is dropped and positions count from
  behind it; the beginning of a mark and nothing else is an empty text.
-/
import MethodVisibility.Text.Quoted
import MethodVisibility.Text.Utf8

namespace MethodVisibility

/-- How octets are read as text. -/
inductive Encoding where
  | utf8
  /-- UTF-8 after an optional byte order mark. -/
  | utf8Marked
  /-- Each octet is the code point of its number. -/
  | latin1
  | ascii
deriving DecidableEq, Repr

/-- Why octets are no text. -/
inductive Undecodable where
  | utf8 (flaw : Utf8.Flaw)
  | notAscii
deriving DecidableEq, Repr

/-- The first octets that are no text. -/
structure DecodeError where
  cause : Undecodable
  /-- The first of the octets. -/
  octet : UInt8
  position : Nat
  width : Nat
deriving DecidableEq, Repr

/-- The name of an encoding in a decoding error. -/
def Undecodable.codec : Undecodable → String
  | .utf8 _ => "utf-8"
  | .notAscii => "ascii"

/-- What is wrong, in words. -/
def Undecodable.reason : Undecodable → String
  | .utf8 .badStart => "invalid start byte"
  | .utf8 .badContinuation => "invalid continuation byte"
  | .utf8 .cutOff => "unexpected end of data"
  | .notAscii => "ordinal not in range(128)"

/-- The place of a decoding error: one octet is shown, of several only the positions. -/
def DecodeError.place (e : DecodeError) : String :=
  if e.width = 1 then
    String.join ["byte 0x", String.ofList (Text.hex 2 e.octet.toNat), " in position ",
      toString e.position]
  else
    String.join ["bytes in position ", toString e.position, "-",
      toString (e.position + e.width - 1)]

/-- The text of a decoding error. -/
def DecodeError.message (e : DecodeError) : String :=
  String.join ["'", e.cause.codec, "' codec can't decode ", e.place, ": ", e.cause.reason]

namespace Encoding

/-- The parts of a name between characters that are neither letter, digit nor point. -/
def nameParts (cs : List Char) : List (List Char) :=
  (cs.splitOnP fun c => !(c.isAlphanum || c = '.')).filter (· ≠ [])

/-- The form in which names are compared. -/
def normalName (name : String) : String :=
  String.intercalate "_" ((nameParts (name.toList.map Char.toLower)).map String.ofList)

/-- The proper name of an encoding. -/
def properName : Encoding → String
  | .utf8 => "utf_8"
  | .utf8Marked => "utf_8_sig"
  | .latin1 => "latin_1"
  | .ascii => "ascii"

/-- The other names of an encoding. -/
def aliases : Encoding → List String
  | .utf8 => ["u8", "utf", "utf8", "utf8_ucs2", "utf8_ucs4", "cp65001"]
  | .utf8Marked => []
  | .latin1 =>
    ["8859", "cp819", "csisolatin1", "ibm819", "iso8859", "iso8859_1", "iso_8859_1",
     "iso_8859_1_1987", "iso_ir_100", "l1", "latin", "latin1"]
  | .ascii =>
    ["646", "ansi_x3.4_1968", "ansi_x3_4_1968", "ansi_x3.4_1986", "cp367", "csascii", "ibm367",
     "iso646_us", "iso_646.irv_1991", "iso_ir_6", "us", "us_ascii"]

/-- A name with its points read as underscores. -/
def withoutPoints (name : String) : String :=
  String.ofList (name.toList.map fun c => if c = '.' then '_' else c)

/-- Whether a name in normal form means an encoding. The points of an alias may be read
    as underscores, those of a proper name may not. -/
def isCalled (encoding : Encoding) (name : String) : Bool :=
  name = encoding.properName || name ∈ encoding.aliases || withoutPoints name ∈ encoding.aliases

/-- The encoding of a name. One name stands for the encoding of the system. -/
def ofName? (name : String) : Option Encoding :=
  if name = "locale" then some .utf8
  else [Encoding.utf8, .utf8Marked, .latin1, .ascii].find? (·.isCalled (normalName name))

/-- Reads UTF-8. -/
def decodeUtf8 (octets : List UInt8) : Except DecodeError String :=
  match Utf8.decode octets with
  | .ok text => .ok text
  | .error d =>
    .error ⟨.utf8 d.flaw, octets.getD d.position 0, d.position, d.width⟩

/-- The octets of a byte order mark. -/
def mark : List UInt8 := [0xEF, 0xBB, 0xBF]

/-- Reads ASCII from octets that start at `position`. -/
def asciiChars (position : Nat) : List UInt8 → Except DecodeError (List Char)
  | [] => .ok []
  | b :: rest =>
    if b < 0x80 then (asciiChars (position + 1) rest).map (Char.ofNat b.toNat :: ·)
    else .error ⟨.notAscii, b, position, 1⟩

/-- Reads octets as text. -/
def decode (encoding : Encoding) (octets : List UInt8) : Except DecodeError String :=
  match encoding with
  | .utf8 => decodeUtf8 octets
  | .utf8Marked =>
    if octets.length < mark.length && octets.isPrefixOf mark then .ok ""
    else if mark.isPrefixOf octets then decodeUtf8 (octets.drop mark.length)
    else decodeUtf8 octets
  | .latin1 => .ok (String.ofList (octets.map fun b => Char.ofNat b.toNat))
  | .ascii => (asciiChars 0 octets).map String.ofList

end Encoding

end MethodVisibility
