import Mathlib.Data.List.Basic
import Mathlib.Data.Nat.Init
import Mathlib.Tactic.Common

/-
  Lists of items, each a tag, a length byte and a value.

  A text is searched for the first item with a tag by
  skipping whole items. The search succeeds when the text
  starts with whole items of other tags followed by a whole
  item of this one, and fails at an incomplete item.

  Key definitions include:
    * `Tlv.Item` and `Tlv.encode`
    * `Tlv.uncons`
    * `Tlv.find`

  Key theorems include:
    * `Tlv.find_encode`
    * `Tlv.find_eq_none`
-/

------------------------------------------------------------
-- Items
------------------------------------------------------------

namespace Tlv

/- The length of a value fits its byte. -/
@[ext]
structure Item where
  tag : UInt8
  value : List UInt8
  short : value.length < 256
deriving DecidableEq

def Item.encode (item : Item) : List UInt8 :=
  item.tag :: UInt8.ofNat item.value.length :: item.value

def encode (items : List Item) : List UInt8 :=
  items.flatMap Item.encode

@[simp] theorem encode_nil : encode [] = [] :=
  rfl

@[simp] theorem encode_cons
    (item : Item)
    (items : List Item) :
    encode (item :: items) = item.encode ++ encode items :=
  List.flatMap_cons

theorem encode_append (items items' : List Item) :
    encode (items ++ items') = encode items ++ encode items' :=
  List.flatMap_append

@[simp] theorem Item.length_encode (item : Item) :
    item.encode.length = item.value.length + 2 :=
  rfl

/- The whole item at the front of a text. -/
def uncons : List UInt8 → Option (Item × List UInt8)
| tag :: length :: rest =>
    if length.toNat ≤ rest.length then
      some
        ({ tag := tag
           value := rest.take length.toNat
           short :=
            Nat.lt_of_le_of_lt (List.length_take_le _ _)
              length.toNat_lt },
          rest.drop length.toNat)
    else
      none
| _ => none

theorem uncons_encode
    (item : Item)
    (rest : List UInt8) :
    uncons (item.encode ++ rest) = some (item, rest) := by
  have hLength :
      (UInt8.ofNat item.value.length).toNat =
        item.value.length := by
    rw [UInt8.toNat_ofNat']
    exact Nat.mod_eq_of_lt item.short
  simp [uncons, Item.encode, hLength]

theorem uncons_of_length_le
    {text : List UInt8}
    (hShort : text.length ≤ 1) :
    uncons text = none := by
  cases text with
  | nil => rfl
  | cons tag rest =>
      rw [List.length_cons] at hShort
      rw [List.length_eq_zero_iff.mp (by omega : rest.length = 0)]
      rfl

end Tlv

------------------------------------------------------------
-- Search
------------------------------------------------------------

namespace Tlv

/-
  Where the first item with a tag starts, counted from
  `position`. One unit of fuel is enough for each item.
-/
def find (tag : UInt8) : Nat → List UInt8 → Nat → Option Nat
| 0, _, _ => none
| fuel + 1, text, position =>
    match uncons text with
    | none => none
    | some (item, rest) =>
        if item.tag = tag then some position
        else find tag fuel rest (position + item.encode.length)

variable {tag : UInt8}

/- Items with other tags are skipped. -/
theorem find_append
    {before : List Item}
    (hBefore : ∀ item ∈ before, item.tag ≠ tag)
    (fuel : Nat)
    (rest : List UInt8)
    (position : Nat) :
    find tag (fuel + before.length) (encode before ++ rest)
        position =
      find tag fuel rest
        (position + (encode before).length) := by
  induction before generalizing position with
  | nil => simp
  | cons item before ih =>
      rw [List.forall_mem_cons] at hBefore
      rw [List.length_cons, ← Nat.add_assoc, encode_cons,
        List.append_assoc, find, uncons_encode]
      simp only [if_neg hBefore.1]
      rw [ih hBefore.2]
      congr 1
      rw [List.length_append]
      omega

theorem length_le_length_encode (items : List Item) :
    items.length ≤ (encode items).length := by
  induction items with
  | nil => exact Nat.le_refl 0
  | cons item items ih =>
      rw [encode_cons, List.length_append, List.length_cons,
        Item.length_encode]
      omega

/- The first item with the tag is found. -/
theorem find_encode
    {before : List Item}
    (hBefore : ∀ item ∈ before, item.tag ≠ tag)
    {item : Item}
    (hTag : item.tag = tag)
    (rest : List UInt8)
    {fuel : Nat}
    (hFuel : before.length < fuel) :
    find tag fuel (encode before ++ (item.encode ++ rest)) 0 =
      some (encode before).length := by
  rcases Nat.exists_eq_add_of_lt hFuel with ⟨more, rfl⟩
  rw [show before.length + more + 1 =
      (more + 1) + before.length by omega,
    find_append hBefore, find, uncons_encode]
  simp [hTag]

/- A search ends without a result at an incomplete item. -/
theorem find_eq_none
    {items : List Item}
    (hItems : ∀ item ∈ items, item.tag ≠ tag)
    {rest : List UInt8}
    (hRest : uncons rest = none)
    (fuel position : Nat) :
    find tag fuel (encode items ++ rest) position = none := by
  induction fuel generalizing items position with
  | zero => rfl
  | succ fuel ih =>
      cases items with
      | nil =>
          rw [encode_nil, List.nil_append, find, hRest]
      | cons item items =>
          rw [List.forall_mem_cons] at hItems
          rw [encode_cons, List.append_assoc, find,
            uncons_encode]
          simp only [if_neg hItems.1]
          exact ih hItems.2 _

/- Zeros are empty items, up to one byte. -/
theorem replicate_zero_eq (count : Nat) :
    ∃ items rest,
      List.replicate count 0 = encode items ++ rest ∧
        (∀ item ∈ items, Item.tag item = 0) ∧
        uncons rest = none := by
  induction count using Nat.twoStepInduction with
  | zero => exact ⟨[], [], rfl, List.forall_mem_nil _, rfl⟩
  | one => exact ⟨[], [0], rfl, List.forall_mem_nil _, rfl⟩
  | more count ih _ =>
      rcases ih with ⟨items, rest, hZeros, hTags, hRest⟩
      refine ⟨⟨0, [], Nat.zero_lt_succ _⟩ :: items, rest, ?_,
        ?_, hRest⟩
      · rw [List.replicate_succ, List.replicate_succ, hZeros]
        rfl
      · exact List.forall_mem_cons.mpr ⟨rfl, hTags⟩

/- So is a mark followed by zeros. -/
theorem mark_replicate_zero_eq
    (mark : UInt8)
    (count : Nat) :
    ∃ items rest,
      mark :: List.replicate count 0 = encode items ++ rest ∧
        (∀ item ∈ items,
          Item.tag item = mark ∨ item.tag = 0) ∧
        uncons rest = none := by
  cases count with
  | zero => exact ⟨[], [mark], rfl, List.forall_mem_nil _, rfl⟩
  | succ count =>
      rcases replicate_zero_eq count with
        ⟨items, rest, hZeros, hTags, hRest⟩
      refine ⟨⟨mark, [], Nat.zero_lt_succ _⟩ :: items, rest,
        ?_, ?_, hRest⟩
      · rw [List.replicate_succ, hZeros]
        rfl
      · refine List.forall_mem_cons.mpr ⟨Or.inl rfl, ?_⟩
        intro item hMember
        exact Or.inr (hTags item hMember)

end Tlv
