import Mathlib.Data.List.Basic
import Mathlib.Tactic.Common

/-
  Names as lists of labels.

  On the wire every label follows a byte with its length and
  a zero ends the name. As a text the labels are joined by a
  separator. A wire name says which labels it holds; a text
  does so when no label holds the separator.

  Key definitions include:
    * `Labels.Label` and `Labels.encode`
    * `Labels.joined`
    * `Labels.read`

  Key theorems include:
    * `Labels.encode_zero_inj`
    * `Labels.joined_concat`
    * `Labels.joined_inj`
    * `Labels.read_encode`
-/

------------------------------------------------------------
-- Labels On The Wire
------------------------------------------------------------

namespace Labels

/- The length of a label fits its byte and is not zero. -/
@[ext]
structure Label where
  bytes : List UInt8
  nonempty : bytes ≠ []
  short : bytes.length < 256

namespace Label

/- The length byte. -/
def size (label : Label) : UInt8 :=
  UInt8.ofNat label.bytes.length

@[simp] theorem toNat_size (label : Label) :
    label.size.toNat = label.bytes.length := by
  rw [size, UInt8.toNat_ofNat']
  exact Nat.mod_eq_of_lt label.short

theorem length_pos (label : Label) :
    0 < label.bytes.length :=
  List.length_pos_of_ne_nil label.nonempty

theorem size_ne_zero (label : Label) : label.size ≠ 0 := by
  intro hZero
  have hLength := label.toNat_size
  rw [hZero] at hLength
  have hPos := label.length_pos
  have hNone : (0 : UInt8).toNat = 0 := rfl
  omega

def encode (label : Label) : List UInt8 :=
  label.size :: label.bytes

@[simp] theorem length_encode (label : Label) :
    label.encode.length = label.bytes.length + 1 :=
  rfl

/- What a length byte announces is no longer than it says. -/
theorem length_front_lt
    (size : UInt8)
    (text : List UInt8) :
    (text.take size.toNat).length < 256 :=
  Nat.lt_of_le_of_lt (List.length_take_le _ _)
    size.toNat_lt

/- The label that a length byte announces. -/
def front
    (size : UInt8)
    (text : List UInt8)
    (hSome : size ≠ 0)
    (hWhole : size.toNat ≤ text.length) :
    Label where
  bytes := text.take size.toNat
  nonempty := by
    intro hNone
    have hLength := congrArg List.length hNone
    rw [List.length_take, List.length_nil] at hLength
    have hPos : size.toNat ≠ 0 := fun hZero =>
      hSome (UInt8.toNat_inj.mp hZero)
    omega
  short := length_front_lt size text

theorem size_front
    {size : UInt8}
    {text : List UInt8}
    (hSome : size ≠ 0)
    (hWhole : size.toNat ≤ text.length) :
    (front size text hSome hWhole).size = size := by
  rw [← UInt8.toNat_inj, toNat_size, front, List.length_take]
  exact Nat.min_eq_left hWhole

/- A text starts with the label its length byte announces. -/
theorem encode_front
    {size : UInt8}
    {text : List UInt8}
    (hSome : size ≠ 0)
    (hWhole : size.toNat ≤ text.length) :
    (front size text hSome hWhole).encode ++
        text.drop size.toNat =
      size :: text := by
  rw [encode, size_front, List.cons_append, front,
    List.take_append_drop]

theorem front_encode
    (label : Label)
    (rest : List UInt8)
    (hWhole : label.size.toNat ≤ (label.bytes ++ rest).length) :
    front label.size (label.bytes ++ rest) label.size_ne_zero
        hWhole =
      label := by
  ext1
  simp only [front, toNat_size]
  exact List.take_left

end Label

def encode (labels : List Label) : List UInt8 :=
  labels.flatMap Label.encode

@[simp] theorem encode_nil : encode [] = [] :=
  rfl

@[simp] theorem encode_cons
    (label : Label)
    (labels : List Label) :
    encode (label :: labels) =
      label.encode ++ encode labels :=
  List.flatMap_cons

theorem length_le_length_encode (labels : List Label) :
    labels.length ≤ (encode labels).length := by
  induction labels with
  | nil => exact Nat.le_refl 0
  | cons label labels ih =>
      rw [encode_cons, List.length_append, List.length_cons,
        Label.length_encode]
      omega

/- A wire name that does not end at once has a label. -/
theorem encode_zero_uncons
    {size : UInt8}
    {text rest : List UInt8}
    {labels : List Label}
    (hSome : size ≠ 0)
    (hName : size :: text = encode labels ++ 0 :: rest) :
    ∃ label labels',
      labels = label :: labels' ∧ size = label.size ∧
        text = label.bytes ++ (encode labels' ++ 0 :: rest) := by
  cases labels with
  | nil =>
      exact absurd (List.head_eq_of_cons_eq hName) hSome
  | cons label labels =>
      rw [encode_cons, List.append_assoc, Label.encode,
        List.cons_append, List.cons.injEq] at hName
      exact ⟨label, labels, rfl, hName.1, hName.2⟩

/- Labels of one size in front of a text are the same. -/
theorem Label.eq_of_append
    {label label' : Label}
    (hSize : label.size = label'.size)
    {rest rest' : List UInt8}
    (hSame : label.bytes ++ rest = label'.bytes ++ rest') :
    label = label' ∧ rest = rest' := by
  have hLength :
      label.bytes.length = label'.bytes.length := by
    rw [← label.toNat_size, ← label'.toNat_size, hSize]
  rcases List.append_inj hSame hLength with ⟨hBytes, hRest⟩
  exact ⟨Label.ext hBytes, hRest⟩

/- A wire name and what follows it are determined. -/
theorem encode_zero_inj
    {labels labels' : List Label}
    {rest rest' : List UInt8}
    (hSame :
      encode labels ++ 0 :: rest =
        encode labels' ++ 0 :: rest') :
    labels = labels' ∧ rest = rest' := by
  induction labels generalizing labels' with
  | nil =>
      cases labels' with
      | nil => exact ⟨rfl, List.tail_eq_of_cons_eq hSame⟩
      | cons label' labels' =>
          have hHead := List.head_eq_of_cons_eq hSame
          exact absurd hHead.symm label'.size_ne_zero
  | cons label labels ih =>
      rw [encode_cons, List.append_assoc, Label.encode,
        List.cons_append] at hSame
      rcases encode_zero_uncons label.size_ne_zero hSame with
        ⟨label', labels', rfl, hSize, hTail⟩
      rcases Label.eq_of_append hSize hTail with ⟨rfl, hRest⟩
      rcases ih hRest with ⟨rfl, rfl⟩
      exact ⟨rfl, rfl⟩

end Labels

------------------------------------------------------------
-- Joined Labels
------------------------------------------------------------

namespace Labels

variable (separator : UInt8)

/- The text of a name. -/
def joined (labels : List Label) : List UInt8 :=
  [separator].intercalate (labels.map Label.bytes)

/- The text of labels that follow others. -/
def following (labels : List Label) : List UInt8 :=
  labels.flatMap (fun label => separator :: label.bytes)

@[simp] theorem following_nil : following separator [] = [] :=
  rfl

@[simp] theorem following_cons
    (label : Label)
    (labels : List Label) :
    following separator (label :: labels) =
      separator :: (label.bytes ++
        following separator labels) :=
  List.flatMap_cons

theorem joined_cons
    (label : Label)
    (labels : List Label) :
    joined separator (label :: labels) =
      label.bytes ++ following separator labels := by
  induction labels generalizing label with
  | nil => simp [joined]
  | cons next labels ih =>
      have hNext := ih next
      simp only [joined, List.map_cons] at hNext ⊢
      rw [List.intercalate_cons_cons, hNext, following_cons,
        List.append_assoc]
      rfl

/- What stands between labels and the next one. -/
def gap (labels : List Label) : List UInt8 :=
  if labels = [] then [] else [separator]

theorem joined_concat
    (labels : List Label)
    (label : Label) :
    joined separator (labels ++ [label]) =
      joined separator labels ++ gap separator labels ++
        label.bytes := by
  cases labels with
  | nil => simp [joined, gap]
  | cons first labels =>
      rw [List.cons_append, joined_cons, joined_cons]
      simp [gap, following]

/- More labels make no shorter text. -/
theorem length_joined_le
    (labels more : List Label) :
    (joined separator labels).length ≤
      (joined separator (labels ++ more)).length := by
  cases labels with
  | nil => exact Nat.zero_le _
  | cons label labels =>
      rw [List.cons_append, joined_cons, joined_cons]
      simp [following]

/- A wire name is at most one byte longer than its text. -/
theorem length_encode_le (labels : List Label) :
    (encode labels).length ≤
      (joined separator labels).length + 1 := by
  have hFollowing :
      ∀ labels : List Label,
        (encode labels).length =
          (following separator labels).length := by
    intro labels
    induction labels with
    | nil => rfl
    | cons label labels ih =>
        rw [encode_cons, following_cons, List.length_append,
          ih, Label.length_encode, List.length_cons,
          List.length_append]
        omega
  cases labels with
  | nil => exact Nat.zero_le _
  | cons label labels =>
      rw [joined_cons, encode_cons, List.length_append,
        List.length_append, hFollowing labels,
        Label.length_encode]
      omega

/- A label is no longer than the text. -/
theorem length_le_length_joined
    {labels : List Label}
    {label : Label}
    (hMember : label ∈ labels) :
    label.bytes.length ≤ (joined separator labels).length := by
  have hFollowing :
      ∀ labels : List Label, label ∈ labels →
        label.bytes.length ≤
          (following separator labels).length := by
    intro labels hMember
    have hInside :=
      List.sublist_flatten_of_mem
        (List.mem_map_of_mem
          (f := fun label : Label => separator :: label.bytes)
          hMember)
    have hLength := hInside.length_le
    rw [List.length_cons] at hLength
    exact Nat.le_of_succ_le hLength
  cases labels with
  | nil => cases hMember
  | cons first labels =>
      rw [joined_cons, List.length_append]
      rcases List.mem_cons.mp hMember with rfl | hLater
      · exact Nat.le_add_right _ _
      · exact
          Nat.le_trans (hFollowing labels hLater)
            (Nat.le_add_left _ _)

variable {separator}

/- What a text consists of. -/
theorem mem_joined
    {labels : List Label}
    {byte : UInt8}
    (hMember : byte ∈ joined separator labels) :
    byte = separator ∨
      ∃ label ∈ labels, byte ∈ label.bytes := by
  cases labels with
  | nil => cases hMember
  | cons first labels =>
      rw [joined_cons, List.mem_append] at hMember
      rcases hMember with hFirst | hLater
      · exact Or.inr ⟨first, List.mem_cons_self, hFirst⟩
      · rcases List.mem_flatMap.mp hLater with
          ⟨label, hLabel, hByte⟩
        rcases List.mem_cons.mp hByte with hHere | hInside
        · exact Or.inl hHere
        · exact Or.inr
            ⟨label, List.mem_cons_of_mem first hLabel, hInside⟩

theorem joined_ne_nil
    {labels : List Label}
    (hSome : labels ≠ []) :
    joined separator labels ≠ [] := by
  cases labels with
  | nil => exact absurd rfl hSome
  | cons label labels =>
      rw [joined_cons]
      exact List.append_ne_nil_of_left_ne_nil label.nonempty _

/- The text determines labels without separators. -/
theorem joined_inj
    {labels labels' : List Label}
    (hFree : ∀ label ∈ labels, separator ∉ label.bytes)
    (hFree' : ∀ label ∈ labels', separator ∉ label.bytes)
    (hSame :
      joined separator labels = joined separator labels') :
    labels = labels' := by
  have hSplit :
      ∀ labels : List Label,
        (∀ label ∈ labels, separator ∉ label.bytes) →
          labels ≠ [] →
            (joined separator labels).splitOn separator =
              labels.map Label.bytes := by
    intro labels hFree hSome
    apply List.splitOn_intercalate
    · intro bytes hMember
      rcases List.mem_map.mp hMember with
        ⟨label, hLabel, rfl⟩
      exact hFree label hLabel
    · intro hNone
      exact hSome (List.map_eq_nil_iff.mp hNone)
  have hBytes : Function.Injective Label.bytes :=
    fun _ _ => Label.ext
  by_cases hNone : labels = []
  · subst hNone
    by_contra hOther
    exact joined_ne_nil (Ne.symm hOther) hSame.symm
  · by_cases hNone' : labels' = []
    · subst hNone'
      exact absurd hSame (joined_ne_nil hNone)
    · apply List.map_injective_iff.mpr hBytes
      rw [← hSplit labels hFree hNone, hSame,
        hSplit labels' hFree' hNone']

end Labels

------------------------------------------------------------
-- Reading Names
------------------------------------------------------------

namespace Labels

/- Labels, followed by those of an earlier name if any. -/
structure Name where
  labels : List Label
  pointer : Option Nat

/-
  A reader of names. A length byte from 192 on is the first
  byte of a pointer to an earlier name, and labels have at
  most 63 bytes. One unit of fuel is enough for each label.
-/
def read : Nat → List UInt8 → Option (Name × List UInt8)
| 0, _ => none
| _ + 1, [] => none
| fuel + 1, size :: text =>
    if hZero : size = 0 then
      some (⟨[], none⟩, text)
    else if 192 ≤ size.toNat then
      text.head?.map
        (fun low =>
          (⟨[], some ((size.toNat - 192) * 256 + low.toNat)⟩,
            text.tail))
    else if hWhole : size.toNat ≤ text.length then
      if size.toNat ≤ 63 then
        (read fuel (text.drop size.toNat)).map
          (fun (name, text') =>
            (⟨.front size text hZero hWhole :: name.labels,
              name.pointer⟩, text'))
      else
        none
    else
      none

/- One label is read. -/
theorem read_cons
    {label : Label}
    (hSmall : label.bytes.length < 192)
    (fuel : Nat)
    (text : List UInt8) :
    read (fuel + 1) (label.encode ++ text) =
      if label.bytes.length ≤ 63 then
        (read fuel text).map
          (fun (name, text') =>
            (⟨label :: name.labels, name.pointer⟩, text'))
      else
        none := by
  have hWhole :
      label.size.toNat ≤ (label.bytes ++ text).length := by
    rw [label.toNat_size, List.length_append]
    exact Nat.le_add_right _ _
  have hLabel : ¬ 192 ≤ label.size.toNat := by
    rw [label.toNat_size]
    exact Nat.not_le.mpr hSmall
  rw [Label.encode, List.cons_append, read,
    dif_neg label.size_ne_zero, if_neg hLabel, dif_pos hWhole,
    label.front_encode, label.toNat_size, List.drop_left]

/-
  A name whose labels are no pointers is read when they have
  at most 63 bytes each.
-/
theorem read_encode
    {labels : List Label}
    (hSmall : ∀ label ∈ labels, label.bytes.length < 192)
    {fuel : Nat}
    (hFuel : labels.length < fuel)
    (rest : List UInt8) :
    read fuel (encode labels ++ 0 :: rest) =
      if ∀ label ∈ labels, label.bytes.length ≤ 63 then
        some (⟨labels, none⟩, rest)
      else
        none := by
  induction labels generalizing fuel with
  | nil =>
      rcases Nat.exists_eq_add_of_lt hFuel with ⟨more, rfl⟩
      rw [if_pos (List.forall_mem_nil _)]
      simp [read]
  | cons label labels ih =>
      rw [List.forall_mem_cons] at hSmall
      rcases Nat.exists_eq_add_of_lt hFuel with ⟨more, rfl⟩
      rw [encode_cons, List.append_assoc,
        read_cons hSmall.1, ih hSmall.2 (by simp; omega)]
      simp only [List.forall_mem_cons]
      by_cases hFirst : label.bytes.length ≤ 63
      · rw [if_pos hFirst]
        by_cases hRest :
            ∀ label ∈ labels, label.bytes.length ≤ 63
        · rw [if_pos hRest, if_pos ⟨hFirst, hRest⟩]
          rfl
        · rw [if_neg hRest, if_neg (fun h => hRest h.2)]
          rfl
      · rw [if_neg hFirst, if_neg (fun h => hFirst h.1)]

end Labels
