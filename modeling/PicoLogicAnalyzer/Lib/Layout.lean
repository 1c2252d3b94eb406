import Mathlib.Data.List.Basic
import Mathlib.Tactic.Common

/-
  Byte records of a fixed size and the fields in them.

  A field is a place inside a record, so reading and writing
  fields cannot leave the record. Writing one field keeps
  every field that shares no byte with it.

  Key definitions include:
    * `Layout.Record`
    * `Layout.Field`
    * `Record.read`, `Record.write` and `Record.overlay`

  Key theorems include:
    * `Record.read_write`
    * `Record.read_write_of_disjoint`
    * `Record.read_overlay`
-/

------------------------------------------------------------
-- Records
------------------------------------------------------------

namespace Layout

/- Byte strings of a fixed size. -/
@[ext]
structure Record (size : Nat) where
  bytes : List UInt8
  length_eq : bytes.length = size
deriving DecidableEq

/- A place of `width` bytes inside records of a size. -/
structure Field (size width : Nat) where
  offset : Nat
  inside : offset + width ≤ size

namespace Record

variable {size width : Nat}

/- A record of one repeated byte. -/
def fill (size : Nat) (byte : UInt8) : Record size where
  bytes := List.replicate size byte
  length_eq := List.length_replicate

/- One byte of a record. -/
def get
    (record : Record size)
    (index : Nat)
    (hInside : index < size) :
    UInt8 :=
  record.bytes.get ⟨index, by rwa [record.length_eq]⟩

def read
    (record : Record size)
    (field : Field size width) :
    Record width where
  bytes := (record.bytes.drop field.offset).take width
  length_eq := by
    have hInside := field.inside
    rw [List.length_take, List.length_drop,
      record.length_eq]
    omega

def write
    (record : Record size)
    (field : Field size width)
    (value : Record width) :
    Record size where
  bytes :=
    record.bytes.take field.offset ++
      (value.bytes ++
        record.bytes.drop (field.offset + width))
  length_eq := by
    have hInside := field.inside
    simp only [List.length_append, List.length_take,
      List.length_drop, record.length_eq, value.length_eq]
    omega

/- Copy a text over the front of a record. -/
def overlay
    (record : Record size)
    (text : List UInt8) :
    Record size where
  bytes := text.take size ++ record.bytes.drop text.length
  length_eq := by
    simp only [List.length_append, List.length_take,
      List.length_drop, record.length_eq]
    omega

end Record

end Layout

------------------------------------------------------------
-- Reading Back
------------------------------------------------------------

namespace Layout

/- Fields that share no byte. -/
def Field.Disjoint
    {size width width' : Nat}
    (field : Field size width)
    (other : Field size width') :
    Prop :=
  field.offset + width ≤ other.offset ∨
    other.offset + width' ≤ field.offset

instance
    {size width width' : Nat}
    (field : Field size width)
    (other : Field size width') :
    Decidable (field.Disjoint other) :=
  inferInstanceAs (Decidable (_ ∨ _))

namespace Record

variable {size width width' : Nat}

/- A field holds what was written to it. -/
@[simp] theorem read_write
    (record : Record size)
    (field : Field size width)
    (value : Record width) :
    (record.write field value).read field = value := by
  have hInside := field.inside
  have hFront :
      (record.bytes.take field.offset).length =
        field.offset := by
    rw [List.length_take, record.length_eq]
    omega
  ext1
  simp only [read, write]
  rw [List.drop_left' hFront, List.take_left' value.length_eq]

/- Other fields hold what they held. -/
theorem read_write_of_disjoint
    (record : Record size)
    {field : Field size width}
    {other : Field size width'}
    (hDisjoint : field.Disjoint other)
    (value : Record width) :
    (record.write field value).read other =
      record.read other := by
  have hInside := field.inside
  have hOther := other.inside
  ext1
  simp only [read, write]
  apply List.ext_getElem?
  intro i
  by_cases hIndex : i < width'
  · rw [List.getElem?_take_of_lt hIndex,
      List.getElem?_take_of_lt hIndex, List.getElem?_drop,
      List.getElem?_drop]
    rcases hDisjoint with hAfter | hBefore
    · rw [List.getElem?_append_right
        (by rw [List.length_take, record.length_eq]; omega),
        List.getElem?_append_right
        (by
          rw [List.length_take, record.length_eq,
            value.length_eq]
          omega),
        List.getElem?_drop, List.length_take,
        record.length_eq, value.length_eq]
      congr 1
      omega
    · rw [List.getElem?_append_left
        (by rw [List.length_take, record.length_eq]; omega),
        List.getElem?_take_of_lt (by omega)]
  · rw [List.getElem?_take_eq_none (by omega),
      List.getElem?_take_eq_none (by omega)]

/- A field that a text covers is read from the text. -/
theorem read_overlay
    (record : Record size)
    {field : Field size width}
    {text : List UInt8}
    (hCovered : field.offset + width ≤ text.length) :
    ((record.overlay text).read field).bytes =
      (text.drop field.offset).take width := by
  have hInside := field.inside
  simp only [read, overlay]
  rw [List.drop_append_of_le_length
    (by rw [List.length_take]; omega),
    List.take_append_of_le_length
    (by rw [List.length_drop, List.length_take]; omega),
    List.drop_take, List.take_take]
  congr 1
  omega

/- A text that fits is found at the front. -/
theorem bytes_overlay
    (record : Record size)
    {text : List UInt8}
    (hFits : text.length ≤ size) :
    (record.overlay text).bytes =
      text ++ record.bytes.drop text.length := by
  simp only [overlay]
  rw [List.take_of_length_le hFits]

end Record

end Layout
