import Amalgam.Text.Lines

/-!
# Reading bytes as UTF-8

A byte sequence is read character by character.  Where it is not UTF-8, the reader meets a
*defect*: the longest run of bytes that begins a character but cannot be completed, or a single byte
that begins none.  `decode` stops at the first defect and tells where it is; `decodeLossy` puts one
replacement character in the place of each.
-/

set_option autoImplicit false

namespace Amalgam.Utf8

/-- Why some bytes are not the encoding of a character. -/
inductive Defect where
  | start
  | continuation
  | truncated
  deriving DecidableEq, Repr

/-- What the bytes at hand begin with. -/
inductive Step where
  /-- A character in `size` bytes. -/
  | char (c : Char) (size : Nat)
  /-- A defect of `size` bytes. -/
  | bad (why : Defect) (size : Nat)
  deriving DecidableEq, Repr

/-- Whether a byte can follow the first byte of a character. -/
def isContinuation (b : UInt8) : Bool := 0x80 ≤ b.toNat && b.toNat < 0xC0

/-- Whether `b` can be the second byte of a character that begins with `lead`: overlong forms,
surrogates and code points beyond U+10FFFF are excluded here. -/
def isSecond (lead b : UInt8) : Bool :=
  isContinuation b &&
    !(lead.toNat == 0xE0 && b.toNat < 0xA0) && !(lead.toNat == 0xED && 0xA0 ≤ b.toNat) &&
    !(lead.toNat == 0xF0 && b.toNat < 0x90) && !(lead.toNat == 0xF4 && 0x90 ≤ b.toNat)

/-- The low six bits that a continuation byte carries. -/
def payload (b : UInt8) : Nat := b.toNat % 0x40

/-- The character or defect that starts with `lead`. -/
def step (lead : UInt8) (rest : List UInt8) : Step :=
  let n := lead.toNat
  if n < 0x80 then .char (Char.ofNat n) 1
  else if n < 0xC2 || 0xF5 ≤ n then .bad .start 1
  else
    match rest with
    | [] => .bad .truncated 1
    | b :: rest =>
      if !isSecond lead b then .bad .continuation 1
      else if n < 0xE0 then .char (Char.ofNat ((n % 0x20) * 0x40 + payload b)) 2
      else
        match rest with
        | [] => .bad .truncated 2
        | c :: rest =>
          if !isContinuation c then .bad .continuation 2
          else if n < 0xF0 then
            .char (Char.ofNat (((n % 0x10) * 0x40 + payload b) * 0x40 + payload c)) 3
          else
            match rest with
            | [] => .bad .truncated 3
            | d :: _ =>
              if !isContinuation d then .bad .continuation 3
              else
                .char (Char.ofNat ((((n % 0x08) * 0x40 + payload b) * 0x40 + payload c) * 0x40
                  + payload d)) 4

/-- Where and why a byte sequence is not UTF-8. -/
structure Error where
  why : Defect
  offset : Nat
  size : Nat
  lead : UInt8
  deriving DecidableEq, Repr

/-- The text of a defect. -/
def Defect.message : Defect → String
  | .start => "invalid start byte"
  | .continuation => "invalid continuation byte"
  | .truncated => "unexpected end of data"

/-- The text of a decoding error: one byte is named by its value, several by their place. -/
def Error.message (e : Error) : String :=
  let what :=
    if e.size ≤ 1 then
      "byte 0x" ++ String.ofList (Nat.toDigits 16 e.lead.toNat) ++ " in position " ++
        toString e.offset
    else "bytes in position " ++ toString e.offset ++ "-" ++ toString (e.offset + e.size - 1)
  "'utf-8' codec can't decode " ++ what ++ ": " ++ e.why.message

/-- Reads the bytes from `offset` on, after skipping `skip` of them that belong to the character
before. -/
def decodeFrom (offset : Nat) : (skip : Nat) → List UInt8 → Except Error (List Char)
  | _, [] => .ok []
  | skip + 1, _ :: bytes => decodeFrom (offset + 1) skip bytes
  | 0, b :: bytes =>
    match step b bytes with
    | .char c size => (decodeFrom (offset + 1) (size - 1) bytes).map (c :: ·)
    | .bad why size => .error ⟨why, offset, size, b⟩

/-- The characters of a byte sequence, if it is UTF-8. -/
def decode (bytes : List UInt8) : Except Error (List Char) := decodeFrom 0 0 bytes

/-- As `decodeFrom`, with a replacement character for each defect. -/
def decodeLossyFrom : (skip : Nat) → List UInt8 → List Char
  | _, [] => []
  | skip + 1, _ :: bytes => decodeLossyFrom skip bytes
  | 0, b :: bytes =>
    match step b bytes with
    | .char c size => c :: decodeLossyFrom (size - 1) bytes
    | .bad _ size => '\ufffd' :: decodeLossyFrom (size - 1) bytes

/-- The characters of a byte sequence, with U+FFFD for each defect. -/
def decodeLossy (bytes : List UInt8) : List Char := decodeLossyFrom 0 bytes

/-- The text of a file, with all line ends as newlines. -/
def readText (bytes : List UInt8) : Except Error String :=
  (decode bytes).map fun cs => String.ofList (unifyNewlines cs)

/-- The text of a file that may have defects, with all line ends as newlines. -/
def readTextLossy (bytes : List UInt8) : String :=
  String.ofList (unifyNewlines (decodeLossy bytes))

/-- The bytes of a text. -/
def encode (s : String) : List UInt8 := s.toUTF8.toList

end Amalgam.Utf8
