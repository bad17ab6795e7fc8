/-!
# Reading broken UTF-8

Bytes are read character by character. Where the bytes are no UTF-8, each longest start of a
character that cannot go on is one broken piece, and reading goes on with the byte after it.
-/

namespace SyntaxExport.Utf8

/-- A part of a byte string. -/
inductive Piece where
  | char (c : Char)
  /-- Bytes that start no character, or one that is not ended. -/
  | broken (bytes : List UInt8)
  deriving DecidableEq, Repr

/-- A character that was begun: the value and the bytes so far, the number of bytes it still needs,
and the least and greatest byte that may come next. -/
structure Partial where
  value : Nat
  bytes : List UInt8
  missing : Nat
  low : Nat
  high : Nat
  deriving DecidableEq, Repr

/-- The character begun by a byte. The bounds on the byte after it exclude long forms, surrogates
and values above U+10FFFF. -/
def start? (byte : UInt8) : Option Partial :=
  let b := byte.toNat
  if 0xc2 ≤ b ∧ b ≤ 0xdf then some ⟨b - 0xc0, [byte], 1, 0x80, 0xbf⟩
  else if b = 0xe0 then some ⟨0, [byte], 2, 0xa0, 0xbf⟩
  else if b = 0xed then some ⟨0xd, [byte], 2, 0x80, 0x9f⟩
  else if 0xe1 ≤ b ∧ b ≤ 0xef then some ⟨b - 0xe0, [byte], 2, 0x80, 0xbf⟩
  else if b = 0xf0 then some ⟨0, [byte], 3, 0x90, 0xbf⟩
  else if 0xf1 ≤ b ∧ b ≤ 0xf3 then some ⟨b - 0xf0, [byte], 3, 0x80, 0xbf⟩
  else if b = 0xf4 then some ⟨4, [byte], 3, 0x80, 0x8f⟩
  else none

/-- Reads a byte between characters: the pieces that are complete, and the character begun. -/
def first (byte : UInt8) : List Piece × Option Partial :=
  if byte.toNat < 0x80 then ([.char (Char.ofNat byte.toNat)], none)
  else
    match start? byte with
    | some p => ([], some p)
    | none => ([.broken [byte]], none)

/-- Reads a byte: the pieces that are complete with it, and the character begun. -/
def step : Option Partial → UInt8 → List Piece × Option Partial
  | none, byte => first byte
  | some p, byte =>
    let b := byte.toNat
    if p.low ≤ b ∧ b ≤ p.high then
      let value := p.value * 64 + (b - 0x80)
      if p.missing ≤ 1 then ([.char (Char.ofNat value)], none)
      else ([], some ⟨value, p.bytes ++ [byte], p.missing - 1, 0x80, 0xbf⟩)
    else
      let (pieces, next) := first byte
      (.broken p.bytes :: pieces, next)

/-- Reads bytes up to the end, after a character that may have been begun. -/
def readFrom : Option Partial → List UInt8 → List Piece
  | none, [] => []
  | some p, [] => [.broken p.bytes]
  | p, byte :: rest =>
    let (pieces, next) := step p byte
    pieces ++ readFrom next rest

/-- The pieces of a byte string, in order. -/
def pieces (bytes : ByteArray) : List Piece :=
  readFrom none bytes.toList

/-- The character that a piece is shown as: U+FFFD for a broken one. -/
def Piece.shown : Piece → Char
  | .char c => c
  | .broken _ => '\uFFFD'

/-- The text of bytes, with U+FFFD for what is broken. -/
def decodeLossy (bytes : ByteArray) : String :=
  match String.fromUTF8? bytes with
  | some s => s
  | none => String.ofList ((pieces bytes).map Piece.shown)

end SyntaxExport.Utf8
