import BuildBoard.Progress.Image

/-!
# Pictures as PNG files

The pixels are stored without compression.
-/

namespace BuildBoard.Png

/-! ## Checksums -/

def crcStep (crc : UInt32) (b : UInt8) : UInt32 :=
  (List.range 8).foldl
    (fun c _ => if c &&& 1 = 1 then (c >>> 1) ^^^ 0xEDB88320 else c >>> 1) (crc ^^^ b.toUInt32)

def crc (data : List UInt8) : UInt32 := data.foldl crcStep 0xFFFFFFFF ^^^ 0xFFFFFFFF

def adler (data : List UInt8) : UInt32 :=
  let (a, b) := data.foldl (fun (a, b) (x : UInt8) =>
    let a := (a + x.toNat) % 65521
    (a, (b + a) % 65521)) (1, 0)
  UInt32.ofNat (b * 65536 + a)

/-! ## Chunks -/

def bigEndian (n : Nat) : List UInt8 :=
  [UInt8.ofNat (n / 16777216), UInt8.ofNat (n / 65536), UInt8.ofNat (n / 256), UInt8.ofNat n]

def littleEndian16 (n : Nat) : List UInt8 := [UInt8.ofNat n, UInt8.ofNat (n / 256)]

def ascii (s : String) : List UInt8 := s.toList.map fun c => UInt8.ofNat c.toNat

def chunk (name : String) (data : List UInt8) : List UInt8 :=
  let body := ascii name ++ data
  bigEndian data.length ++ body ++ bigEndian (crc body).toNat

/-- The longest block that is stored at once. -/
def maxBlock : Nat := 65535

/-- The data in stored blocks, the last one marked; the first argument bounds their number. -/
def blocks : Nat → List UInt8 → List UInt8
  | 0, _ => []
  | fuel + 1, data =>
    let block := data.take maxBlock
    let rest := data.drop maxBlock
    let length := block.length
    (if rest.isEmpty then 1 else 0) :: littleEndian16 length ++
      littleEndian16 (maxBlock - length) ++ block ++
      (if rest.isEmpty then [] else blocks fuel rest)

def stored (data : List UInt8) : List UInt8 :=
  [0x78, 0x01] ++ blocks (data.length / maxBlock + 1) data ++ bigEndian (adler data).toNat

/-! ## Pictures -/

def hexNat (cs : List Char) : Nat :=
  cs.foldl (fun n c => 16 * n + (if c.isDigit then c.toNat - 48 else c.toNat - 87)) 0

/-- The four bytes of a colour in eight hexadecimal digits. -/
def colorBytes (color : String) : List UInt8 := bigEndian (hexNat color.toList)

/-- A pixel row, after the mark for a row stored as it is. -/
def rowBytes (runs : List (Nat × String)) : List UInt8 :=
  0 :: runs.flatMap fun (n, color) => (List.replicate n (colorBytes color)).flatten

/-- The file of a bar's picture. -/
def ofBar (bar : Progress.Bar) : ByteArray :=
  let rows := bar.pixelRows
  let header := bigEndian bar.width ++ bigEndian rows.length ++ [8, 6, 0, 0, 0]
  let bytes := [0x89, 0x50, 0x4E, 0x47, 0x0D, 0x0A, 0x1A, 0x0A] ++ chunk "IHDR" header ++
    chunk "IDAT" (stored (rows.flatMap rowBytes)) ++ chunk "IEND" []
  ⟨bytes.toArray⟩

end BuildBoard.Png
