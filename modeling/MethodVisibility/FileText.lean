/-
  Reading files.

  `FileSystem.read` reads the file of a path: its extension must be one of files that are
  read, it must be found, not be too large, not be a directory and be readable, and its
  octets must be text in the encoding that is set; line ends are unified.
-/
import MethodVisibility.FileSystem
import MethodVisibility.Settings
import MethodVisibility.Text.Encoding
import MethodVisibility.Text.LineEnds

namespace MethodVisibility

/-- Why a file has no resolution. -/
inductive FileError where
  | unsupported (path : Path)
  /-- A NUL character in the path. -/
  | nulInPath
  | refused (path : Path) (cause : AccessError)
  | tooLarge (path : Path) (size : Nat) (limit : Int)
  /-- A NUL character in the name of the encoding. -/
  | nulInEncoding
  | unknownEncoding (name : String)
  | undecodable (path : Path) (error : DecodeError)
deriving DecidableEq, Repr

/-- The text of an error with a file. -/
def FileError.message : FileError → String
  | .unsupported path => path.unsupportedText
  | .nulInPath => "embedded null byte"
  | .refused path cause =>
    String.join ["Cannot read ", path.text, ": ", cause.message path.text]
  | .tooLarge path size limit =>
    String.join ["File too large: ", path.text, " (", toString size, " bytes, limit ",
      toString limit, ")"]
  | .nulInEncoding => "embedded null character"
  | .unknownEncoding name => String.join ["unknown encoding: ", name]
  | .undecodable path error => String.join ["Cannot read ", path.text, ": ", error.message]

/-- Reads octets in the encoding that is set, with unified line ends. -/
def Settings.textOf (s : Settings) (path : Path) (octets : List UInt8) :
    Except FileError String :=
  match Encoding.ofName? s.encoding with
  | none => .error (.unknownEncoding s.encoding)
  | some encoding =>
    match encoding.decode octets with
    | .error e => .error (.undecodable path e)
    | .ok text => .ok (Text.unifyLineEnds text)

namespace DiskEntry

/-- The size of an entry in bytes. -/
def size : DiskEntry → Nat
  | .file octets _ => octets.length
  | .directory size _ _ => size

/-- Reads an entry that is not too large. -/
def read (e : DiskEntry) (s : Settings) (path : Path) : Except FileError String :=
  if s.encoding.toList.contains '\x00' then .error .nulInEncoding
  else
    match e with
    | .directory _ readable _ =>
      .error (.refused path (if readable then .isDirectory else .denied))
    | .file octets readable =>
      if readable then s.textOf path octets else .error (.refused path .denied)

end DiskEntry

/-- Reads the file of a path. -/
def FileSystem.read (fs : FileSystem) (s : Settings) (path : Path) : Except FileError String :=
  if !path.isSupported then .error (.unsupported path)
  else if path.text.toList.contains '\x00' then .error .nulInPath
  else
    match fs.find path with
    | .error cause => .error (.refused path cause)
    | .ok e =>
      if s.sizeLimit < e.size then .error (.tooLarge path e.size s.sizeLimit)
      else e.read s path

end MethodVisibility
