/-
  GifEdit.Render.Png
  ──────────────────
  **MASKS AS PNG FILES.**

  A PNG file is a signature and a list of chunks, each with its length, its name and
  a checksum.  Pixels are written with eight bits for each of red, green, blue and
  alpha, row by row, in stored blocks: nothing is compressed.
-/
import GifEdit.Render.Mask

namespace GifEdit.Png

/-! ## §1. Checksums. -/

/-- One bit of the cyclic checksum. -/
def crcBit (c : UInt32) : UInt32 :=
  if c &&& 1 = 1 then (c >>> 1) ^^^ 0xEDB88320 else c >>> 1

/-- One byte of the cyclic checksum. -/
def crcByte (c : UInt32) (b : UInt8) : UInt32 :=
  (List.range 8).foldl (fun c _ => crcBit c) (c ^^^ b.toUInt32)

/-- The cyclic checksum of the bytes of a chunk. -/
def crc (bytes : List UInt8) : UInt32 := bytes.foldl crcByte 0xFFFFFFFF ^^^ 0xFFFFFFFF

/-- The running sums of the checksum of the pixel data, modulo a prime. -/
def adlerByte (s : Nat × Nat) (b : UInt8) : Nat × Nat :=
  let low := (s.1 + b.toNat) % 65521
  (low, (s.2 + low) % 65521)

/-- The checksum of the pixel data. -/
def adler (bytes : List UInt8) : Nat :=
  let (low, high) := bytes.foldl adlerByte (1, 0)
  high * 65536 + low

/-! ## §2. Chunks. -/

/-- A number in four bytes, most significant first. -/
def bigEndian (n : Nat) : List UInt8 :=
  [.ofNat (n / 16777216), .ofNat (n / 65536), .ofNat (n / 256), .ofNat n]

/-- A number in two bytes, least significant first. -/
def littleEndian (n : Nat) : List UInt8 := [.ofNat n, .ofNat (n / 256)]

/-- The bytes of a text of ASCII characters. -/
def ascii (s : String) : List UInt8 := s.toList.map fun c => .ofNat c.toNat

/-- A chunk with its length before it and its checksum after it. -/
def chunk (name : String) (content : List UInt8) : List UInt8 :=
  let body := ascii name ++ content
  bigEndian content.length ++ body ++ bigEndian (crc body).toNat

/-! ## §3. Pixel data. -/

/-- The most bytes a stored block holds. -/
def blockSize : Nat := 65535

/-- Bytes in stored blocks, of which the last is marked. -/
def storedBlocks (bytes : List UInt8) : List UInt8 :=
  if blockSize < bytes.length then
    block 0 (bytes.take blockSize) ++ storedBlocks (bytes.drop blockSize)
  else block 1 bytes
termination_by bytes.length
decreasing_by simp only [List.length_drop, blockSize] at *; omega
where
  /-- One block: a mark, the length and its complement, and the bytes. -/
  block (mark : UInt8) (content : List UInt8) : List UInt8 :=
    mark :: (littleEndian content.length ++ littleEndian (blockSize - content.length) ++ content)

/-- Bytes as a stream of stored blocks with its header and checksum. -/
def stored (bytes : List UInt8) : List UInt8 :=
  [0x78, 0x01] ++ storedBlocks bytes ++ bigEndian (adler bytes)

/-! ## §4. Files. -/

/-- The eight bytes every file starts with. -/
def signature : List UInt8 := [0x89, 0x50, 0x4E, 0x47, 0x0D, 0x0A, 0x1A, 0x0A]

/-- The header: the sides, eight bits a channel, color with alpha, and the standard
compression, filter and order. -/
def header (width height : Nat) : List UInt8 :=
  bigEndian width ++ bigEndian height ++ [8, 6, 0, 0, 0]

/-- The bytes of a pixel. -/
def channels (p : Pixel) : List UInt8 := [p.red, p.green, p.blue, p.alpha]

/-- A row of pixels after the mark of an unfiltered row. -/
def row (pixels : List Pixel) : List UInt8 := 0 :: pixels.flatMap channels

/-- The file of a picture. -/
def ofPixels (width height : Nat) (rows : List (List Pixel)) : List UInt8 :=
  signature ++ chunk "IHDR" (header width height) ++
    chunk "IDAT" (stored (rows.flatMap row)) ++ chunk "IEND" []

end GifEdit.Png

namespace GifEdit

/-- The file of a mask. -/
def MaskShape.png (α : Type) [Scalar α] [SquareRoot α] (m : MaskShape) :
    Except Failure (List UInt8) :=
  m.check.map fun _ => Png.ofPixels m.width m.height (m.pixels α)

end GifEdit
