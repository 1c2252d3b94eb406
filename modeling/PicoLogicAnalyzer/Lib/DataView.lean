import PicoLogicAnalyzer.Lib.Word

/-
  Reading packed little-endian records out of byte buffers.

  `DataView.slice` and `DataView.getUint` are the checked
  accesses of a `DataView`; `none` stands for the exception
  an access outside the buffer raises.

  Key definitions include:
    * `DataView.slice`
    * `DataView.getUint`
    * `Packed.encode` and `Packed.offset`

  Key theorems include:
    * `DataView.slice_append`
    * `DataView.getUint_packed`
-/

------------------------------------------------------------
-- Checked Accesses
------------------------------------------------------------

namespace DataView

open Word

/- The view of `length` bytes from `offset` on. -/
def slice
    (buffer : List UInt8)
    (offset length : Nat) :
    Option (List UInt8) :=
  if offset + length ≤ buffer.length then
    some ((buffer.drop offset).take length)
  else
    none

/- The unsigned number of `width` bytes at `offset`. -/
def getUint
    (width : Nat)
    (view : List UInt8)
    (offset : Nat) :
    Option Nat :=
  (slice view offset width).map ofLittleEndian

theorem slice_of_le
    {buffer : List UInt8}
    {offset length : Nat}
    (hInside : offset + length ≤ buffer.length) :
    slice buffer offset length =
      some ((buffer.drop offset).take length) :=
  if_pos hInside

/- A part is found behind what precedes it. -/
theorem slice_append
    (front part rest : List UInt8) :
    slice (front ++ (part ++ rest)) front.length
      part.length = some part := by
  rw [slice_of_le]
  · rw [List.drop_left, List.take_left]
  · simp

theorem getUint_of_le
    {width offset : Nat}
    {view : List UInt8}
    (hInside : offset + width ≤ view.length) :
    getUint width view offset =
      some (ofLittleEndian ((view.drop offset).take width)) := by
  rw [getUint, slice_of_le hInside, Option.map_some]

/- A word is read where it was written. -/
theorem getUint_append
    (front rest : List UInt8)
    {width n : Nat}
    (hWord : n < 256 ^ width) :
    getUint width (front ++ (toLittleEndian width n ++ rest))
      front.length = some n := by
  have hSlice :=
    slice_append front (toLittleEndian width n) rest
  rw [length_toLittleEndian] at hSlice
  rw [getUint, hSlice, Option.map_some,
    ofLittleEndian_toLittleEndian, Nat.mod_eq_of_lt hWord]

end DataView

------------------------------------------------------------
-- Packed Records
------------------------------------------------------------

/- A record is a list of fields: width in bytes and value. -/
namespace Packed

open Word

def encode : List (Nat × Nat) → List UInt8
| [] => []
| field :: fields =>
    toLittleEndian field.1 field.2 ++ encode fields

/- Where a field starts. -/
def offset : List (Nat × Nat) → Nat → Nat
| [], _ => 0
| _ :: _, 0 => 0
| field :: fields, index + 1 =>
    field.1 + offset fields index

theorem getUint_encode
    {fields : List (Nat × Nat)}
    {index width n : Nat}
    (hField : fields[index]? = some (width, n))
    (hWord : n < 256 ^ width)
    (front rest : List UInt8) :
    DataView.getUint width
      (front ++ (encode fields ++ rest))
      (front.length + offset fields index) = some n := by
  induction fields generalizing index front with
  | nil => cases hField
  | cons field fields ih =>
      cases index with
      | zero =>
          cases hField
          simp only [encode, offset, Nat.add_zero,
            List.append_assoc]
          exact
            DataView.getUint_append front
              (encode fields ++ rest) hWord
      | succ index =>
          have hRest :=
            ih hField
              (front ++ toLittleEndian field.1 field.2)
          simp only [List.length_append,
            length_toLittleEndian, List.append_assoc]
            at hRest
          simp only [encode, offset, List.append_assoc,
            ← Nat.add_assoc]
          exact hRest

end Packed

/- Every field of a record can be read back at its place. -/
theorem DataView.getUint_packed
    {fields : List (Nat × Nat)}
    {index width n : Nat}
    (hField : fields[index]? = some (width, n))
    (hWord : n < 256 ^ width)
    (rest : List UInt8) :
    DataView.getUint width (Packed.encode fields ++ rest)
      (Packed.offset fields index) = some n := by
  have hRead := Packed.getUint_encode hField hWord [] rest
  simpa using hRead
