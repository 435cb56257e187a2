/-!
Files that hold a database without any table: those of at most one byte, and those whose first
page has the header of a database and the root of an empty schema after it. Numbers in a header
are big-endian.
-/

namespace PaymentFees.CommandLine

structure Pages where
  content : ByteArray

namespace Pages

def byte (file : Pages) (position : Nat) : Nat := (file.content.data.getD position 0).toNat

def half (file : Pages) (position : Nat) : Nat :=
  file.byte position * 256 + file.byte (position + 1)

def word (file : Pages) (position : Nat) : Nat :=
  file.half position * 65536 + file.half (position + 2)

def magic : List UInt8 := "SQLite format 3".toUTF8.data.toList ++ [0]

def pageSizes : List Nat := [512, 1024, 2048, 4096, 8192, 16384, 32768, 65536]

/-- The size of a page; the largest one is written as one. -/
def pageSize (file : Pages) : Nat := file.byte 16 * 256 + file.byte 17 * 65536

/-- What a page can hold: some bytes at its end are reserved. -/
def usableSize (file : Pages) : Nat := file.pageSize - file.byte 20

def filePages (file : Pages) : Nat := (file.content.size + file.pageSize - 1) / file.pageSize

def pages (file : Pages) : Nat :=
  if file.word 28 = 0 ∨ file.word 24 ≠ file.word 92 then file.filePages else file.word 28

/-- Versions that can be read and written, and the fractions that every header has. -/
def isFormatKnown (file : Pages) : Bool :=
  file.byte 18 ≤ 2 && file.byte 19 ≤ 2 && file.byte 47 ≤ 4
    && (file.byte 21, file.byte 22, file.byte 23) == (64, 32, 32)

/-- The largest root page, if it is kept, is the last page; of two pages the second holds none. -/
def isLargestRootSound (file : Pages) : Bool :=
  file.word 52 == 0 || file.word 52 == file.pages || (file.word 52 == 1 && file.pages == 2)

def cellStart (file : Pages) : Nat := if file.half 105 = 0 then 65536 else file.half 105

def isSchemaEmpty (file : Pages) : Bool :=
  let free := file.cellStart + file.byte 107
  file.byte 100 == 13 && file.half 101 == 0 && file.half 103 == 0
    && 108 ≤ free && free ≤ file.usableSize

def isEmptyDatabase (file : Pages) : Bool :=
  file.content.data.toList.take magic.length == magic && pageSizes.contains file.pageSize
    && 480 ≤ file.usableSize && file.isFormatKnown && file.pages ≤ file.filePages
    && file.word 36 == 0 && file.isLargestRootSound && file.isSchemaEmpty

end Pages

def holdsNothing (content : ByteArray) : Bool :=
  content.size ≤ 1 || Pages.isEmptyDatabase ⟨content⟩

end PaymentFees.CommandLine
