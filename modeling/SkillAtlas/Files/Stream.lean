import SkillAtlas.Files.Store
import SkillAtlas.Yaml.Cursor

/-!
# Files that are read piece by piece

A reader of documents takes its text in pieces of 4096 characters, the first two together. A piece with a
character that no document may hold is refused. The file decodes its bytes in chunks of 8192, or of more if the
rest of a piece takes more at the rate of the chunk before. What is no text spoils the chunk in which it stands,
and with it the piece for which the chunk is read. The pieces before can still be had.
-/

namespace SkillAtlas.Files

open Yaml (Source isAllowed)

/-- The number of characters in a piece. -/
def pieceSize : Nat := 4096

/-- The least number of bytes in a chunk. -/
def chunkSize : Nat := 8192

/-- How many of some characters stand in whole pieces. -/
def wholePieces (n : Nat) : Nat :=
  if n < 2 * pieceSize then 0 else n - n % pieceSize

/-- Characters in pieces, as far as documents may hold them. -/
def inPieces (cs : List Char) (beyond : Option Fault) : Source :=
  match cs.findIdx? (!isAllowed ·) with
  | none => ⟨cs, beyond⟩
  | some i => ⟨cs.take (wholePieces i), some .malformed⟩

/-- What a decoder knows between two bytes. -/
structure Decoder where
  /-- how many bytes of the current character have been read -/
  held : Nat := 0
  /-- how many bytes it lacks -/
  lacking : Nat := 0
  /-- the bounds of the next byte -/
  least : UInt8 := 0x80
  greatest : UInt8 := 0xBF

/-- Reads a byte, unless no character goes on with it. -/
def Decoder.next? (d : Decoder) (b : UInt8) : Option Decoder :=
  match d.lacking with
  | 0 =>
    if b < 0x80 then some {}
    else if b < 0xC2 then none
    else if b < 0xE0 then some { held := 1, lacking := 1 }
    else if b < 0xF0 then
      some {
        held := 1, lacking := 2
        least := if b == 0xE0 then 0xA0 else 0x80, greatest := if b == 0xED then 0x9F else 0xBF }
    else if b < 0xF5 then
      some {
        held := 1, lacking := 3
        least := if b == 0xF0 then 0x90 else 0x80, greatest := if b == 0xF4 then 0x8F else 0xBF }
    else none
  | n + 1 =>
    if b < d.least || d.greatest < b then none
    else if n == 0 then some {} else some { held := d.held + 1, lacking := n }

/-- The characters of the first bytes. A carriage return at their end waits for what follows, as does a
character that is not complete. -/
def charsIn? (bytes : ByteArray) (n : Nat) : Option (List Char) := do
  let d ← (bytes.extract 0 n).toList.foldlM Decoder.next? {}
  let s ← String.fromUTF8? (bytes.extract 0 (n - d.held))
  let cs := s.toList
  return Text.withPlainLineEnds (if cs.getLast? == some '\r' then cs.dropLast else cs)

/-- How many bytes are read for some characters, after a chunk of `size` bytes that made `made` characters. -/
def nextChunk (size made wanted : Nat) : Nat :=
  if made == 0 then chunkSize
  else max chunkSize (Float.ofNat size / Float.ofNat made * Float.ofNat wanted).toUInt64.toNat

/-- The characters before the chunk that cannot be decoded, or before the end if a character is not complete
there. Some bytes are decoded to `cs`; the last `size` of them made `made` characters. -/
def charsBeforeFault (bytes : ByteArray) : Nat → (decoded size made : Nat) → List Char → List Char
  | 0, _, _, _, cs => cs
  | fuel + 1, decoded, size, made, cs =>
    let n := min bytes.size (decoded + nextChunk size made (pieceSize - cs.length % pieceSize))
    if n == decoded then cs
    else match charsIn? bytes n with
      | none => cs
      | some all => charsBeforeFault bytes fuel n (n - decoded) (all.length - cs.length) all

/-- The text of bytes, as far as a reader of documents gets it. -/
def sourceOf (bytes : ByteArray) : Source :=
  match textOf bytes with
  | .ok text => inPieces text.toList none
  | .error f =>
    let cs := charsBeforeFault bytes (bytes.size + 1) 0 0 0 []
    inPieces (cs.take (wholePieces cs.length)) (some f)

def source (s : Files) (p : Path) : Except Fault Source :=
  match s.bytes? p with
  | some bytes => .ok (sourceOf bytes)
  | none => .error (if s.isThere p then .isFolder else .noFile)

end SkillAtlas.Files
