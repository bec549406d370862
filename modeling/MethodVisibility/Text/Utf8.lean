/-
  Reading octets as UTF-8.

  A small machine reads one octet at a time. Between characters it is idle; inside a
  character it knows the bits read so far, how many octets are still due and the
  range in which the next one must lie. The range after the first octet excludes
  overlong forms, surrogates and values past the last code point, so that an octet is
  refused at the first place where no character can follow.

  `pieces` cuts any list of octets into characters and ill-formed stretches. An
  ill-formed stretch is as long as possible while it still starts some character
  (a lone bad octet counts as one stretch). `decodeLossy` puts one replacement
  character for each stretch; `decode` stops at the first one.
-/

namespace MethodVisibility.Utf8

/-- Why a stretch of octets is no character. -/
inductive Flaw where
  /-- No character starts with this octet. -/
  | badStart
  /-- An octet came that does not go on with the character. -/
  | badContinuation
  /-- The octets ended inside a character. -/
  | cutOff
deriving DecidableEq, Repr

/-- A character that is not complete yet. -/
structure Partial where
  /-- Octets read so far. -/
  taken : Nat
  /-- Bits read so far. -/
  bits : Nat
  /-- Octets still due after the next one. -/
  due : Nat
  /-- The least next octet. -/
  low : Nat
  /-- The greatest next octet. -/
  high : Nat
deriving DecidableEq, Repr

/-- A character or an ill-formed stretch of octets. -/
inductive Piece where
  | char (c : Char)
  | bad (width : Nat) (flaw : Flaw)
deriving DecidableEq, Repr

/-- How many octets a piece covers. -/
def Piece.width : Piece → Nat
  | .char c => c.utf8Size
  | .bad width _ => width

/-- What the first octet of a piece tells. -/
inductive Start where
  | done (piece : Piece)
  | more (partway : Partial)

/-- Reads the first octet of a piece. -/
def start (octet : UInt8) : Start :=
  let b := octet.toNat
  if b < 0x80 then .done (.char (Char.ofNat b))
  else if b < 0xC2 then .done (.bad 1 .badStart)
  else if b < 0xE0 then .more ⟨1, b - 0xC0, 0, 0x80, 0xBF⟩
  else if b = 0xE0 then .more ⟨1, 0, 1, 0xA0, 0xBF⟩
  else if b = 0xED then .more ⟨1, 0xD, 1, 0x80, 0x9F⟩
  else if b < 0xF0 then .more ⟨1, b - 0xE0, 1, 0x80, 0xBF⟩
  else if b = 0xF0 then .more ⟨1, 0, 2, 0x90, 0xBF⟩
  else if b < 0xF4 then .more ⟨1, b - 0xF0, 2, 0x80, 0xBF⟩
  else if b = 0xF4 then .more ⟨1, 4, 2, 0x80, 0x8F⟩
  else .done (.bad 1 .badStart)

/-- Whether an octet goes on with a character. -/
def Partial.accepts (p : Partial) (octet : UInt8) : Bool :=
  p.low ≤ octet.toNat && octet.toNat ≤ p.high

/-- The bits once an octet is added. -/
def Partial.bitsWith (p : Partial) (octet : UInt8) : Nat :=
  p.bits * 64 + octet.toNat % 64

/-- A character one octet further. -/
def Partial.advance (p : Partial) (octet : UInt8) : Partial :=
  ⟨p.taken + 1, p.bitsWith octet, p.due - 1, 0x80, 0xBF⟩

/-- The pieces of a list of octets, from a state between or inside characters. -/
def piecesFrom : Option Partial → List UInt8 → List Piece
  | none, [] => []
  | some p, [] => [.bad p.taken .cutOff]
  | none, b :: rest =>
    match start b with
    | .done piece => piece :: piecesFrom none rest
    | .more p => piecesFrom (some p) rest
  | some p, b :: rest =>
    if p.accepts b then
      if p.due = 0 then .char (Char.ofNat (p.bitsWith b)) :: piecesFrom none rest
      else piecesFrom (some (p.advance b)) rest
    else
      .bad p.taken .badContinuation ::
        match start b with
        | .done piece => piece :: piecesFrom none rest
        | .more q => piecesFrom (some q) rest

/-- The pieces of a list of octets. -/
def pieces (octets : List UInt8) : List Piece :=
  piecesFrom none octets

/-- The octets of a text. -/
def encode (text : String) : List UInt8 :=
  text.toList.flatMap String.utf8EncodeChar

/-- The character that stands for an ill-formed stretch. -/
def replacement : Char := '\uFFFD'

/-- The character that is shown for a piece. -/
def Piece.shown : Piece → Char
  | .char c => c
  | .bad _ _ => replacement

/-- The text of octets, with a replacement for each ill-formed stretch. -/
def decodeLossy (octets : List UInt8) : String :=
  String.ofList ((pieces octets).map Piece.shown)

/-- The first ill-formed stretch: where it starts, how long it is and what is wrong. -/
structure Defect where
  position : Nat
  width : Nat
  flaw : Flaw
deriving DecidableEq, Repr

/-- The characters of pieces that start at `position`, if none is ill-formed. -/
def charsOf (position : Nat) : List Piece → Except Defect (List Char)
  | [] => .ok []
  | .char c :: rest => (charsOf (position + c.utf8Size) rest).map (c :: ·)
  | .bad width flaw :: _ => .error ⟨position, width, flaw⟩

/-- The text of octets, or the first defect. -/
def decode (octets : List UInt8) : Except Defect String :=
  (charsOf 0 (pieces octets)).map String.ofList

end MethodVisibility.Utf8
