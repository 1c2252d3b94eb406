import Mathlib.Data.List.Nodup
import Mathlib.Data.Nat.ModEq
import Mathlib.Logic.Function.Basic

/-
  Ring memories addressed by absolute positions.

  Position `a` of an unbounded sequence is stored at cell
  `a % size`. A window of positions that does not wrap is
  one range of cells, and a cell holds its latest position
  until a whole ring has been written after it.

  Key definitions include:
    * `Ring.window`
    * `Ring.write`
    * `Ring.Holds`

  Key theorems include:
    * `Ring.nodup_window`
    * `Ring.slot_disjoint`
    * `Ring.Holds.write`
    * `Ring.Holds.read`
-/

------------------------------------------------------------
-- Windows And Ranges
------------------------------------------------------------

namespace Ring

/- Inside the ring a window continues where it starts. -/
theorem mod_add_of_le
    {size start length i : Nat}
    (hFits : start % size + length ≤ size)
    (hIndex : i < length) :
    (start + i) % size = start % size + i := by
  rw [Nat.add_mod, Nat.mod_eq_of_lt (a := i) (by omega)]
  exact Nat.mod_eq_of_lt (by omega)

/- Cells of `length` positions from `start` on. -/
def window (size start length : Nat) : List Nat :=
  (List.range length).map (fun i => (start + i) % size)

/- One more position. -/
theorem window_succ (size start length : Nat) :
    window size start (length + 1) =
      window size start length ++
        [(start + length) % size] := by
  simp [window, List.range_succ]

/- Within one ring no cell is met twice. -/
theorem nodup_window
    {size length : Nat}
    (start : Nat)
    (hFits : length ≤ size) :
    (window size start length).Nodup := by
  apply List.Nodup.map_on _ List.nodup_range
  intro i hi j hj hSame
  rw [List.mem_range] at hi hj
  have hMod : i ≡ j [MOD size] :=
    Nat.ModEq.add_left_cancel' start hSame
  exact Nat.ModEq.eq_of_lt_of_lt hMod
    (hi.trans_le hFits) (hj.trans_le hFits)

/- A window may be counted from any copy of its start. -/
theorem window_mod (size start length : Nat) :
    window size (start % size) length =
      window size start length := by
  simp [window]

variable {size chunk : Nat}

/- Slots of a ring tiled by chunks. -/
theorem slot_mul
    (hDvd : chunk ∣ size)
    (index : Nat) :
    index % (size / chunk) * chunk = index * chunk % size := by
  rcases hDvd with ⟨slots, rfl⟩
  rcases Nat.eq_zero_or_pos chunk with rfl | hPos
  · simp
  · rw [Nat.mul_div_cancel_left slots hPos,
      Nat.mul_comm chunk slots, Nat.mul_mod_mul_right]

/- A chunk never wraps. -/
theorem slot_fits
    (hSize : 0 < size)
    (hDvd : chunk ∣ size)
    (index : Nat) :
    index * chunk % size + chunk ≤ size := by
  have hSlots : 0 < size / chunk := by
    rcases hDvd with ⟨slots, rfl⟩
    have hChunk : 0 < chunk := Nat.pos_of_mul_pos_right hSize
    rw [Nat.mul_div_cancel_left slots hChunk]
    exact Nat.pos_of_mul_pos_left hSize
  have hSlot := Nat.mod_lt index hSlots
  rw [← slot_mul hDvd]
  calc
    index % (size / chunk) * chunk + chunk
      = (index % (size / chunk) + 1) * chunk := by
        rw [Nat.add_mul, Nat.one_mul]
    _ ≤ size / chunk * chunk :=
        Nat.mul_le_mul_right chunk hSlot
    _ = size := Nat.div_mul_cancel hDvd

/- A position inside a chunk. -/
theorem slot_position
    (hSize : 0 < size)
    (hDvd : chunk ∣ size)
    (index : Nat)
    {r : Nat}
    (hInside : r < chunk) :
    (index * chunk + r) % size =
      index % (size / chunk) * chunk + r := by
  rw [mod_add_of_le (slot_fits hSize hDvd index) hInside,
    slot_mul hDvd]

/-
  Two chunks less than a ring apart have different slots, so
  no position of the one is stored in the slot of the other.
-/
theorem slot_disjoint
    (hSize : 0 < size)
    (hDvd : chunk ∣ size)
    {m c r : Nat}
    (hLater : m < c)
    (hRecent : c < m + size / chunk)
    (hInside : r < chunk) :
    (c * chunk + r) % size < m % (size / chunk) * chunk ∨
      m % (size / chunk) * chunk + chunk ≤
        (c * chunk + r) % size := by
  have hSlots : c % (size / chunk) ≠ m % (size / chunk) := by
    intro hSame
    have hMultiple : size / chunk ∣ c - m :=
      (Nat.modEq_iff_dvd' hLater.le).mp hSame.symm
    have hZero :=
      Nat.eq_zero_of_dvd_of_lt hMultiple (by omega)
    omega
  rw [slot_position hSize hDvd c hInside]
  rcases Nat.lt_or_gt_of_ne hSlots with hBelow | hAbove
  · left
    have hNext :=
      Nat.mul_le_mul_right chunk (Nat.succ_le_of_lt hBelow)
    rw [Nat.succ_mul] at hNext
    omega
  · right
    have hNext :=
      Nat.mul_le_mul_right chunk (Nat.succ_le_of_lt hAbove)
    rw [Nat.succ_mul] at hNext
    omega

end Ring

------------------------------------------------------------
-- Memory Contents
------------------------------------------------------------

namespace Ring

universe u

variable {α : Type u}

/- Store the value of position `written`. -/
def write
    (size : Nat)
    (memory : Nat → α)
    (written : Nat)
    (value : α) :
    Nat → α :=
  Function.update memory (written % size) value

/-
  The memory holds the last `size` positions of `input`
  below `written`.
-/
def Holds
    (size : Nat)
    (memory input : Nat → α)
    (written : Nat) : Prop :=
  ∀ a, a < written → written ≤ a + size →
    memory (a % size) = input a

theorem holds_zero
    (size : Nat)
    (memory input : Nat → α) :
    Holds size memory input 0 := by
  intro a hBound
  omega

/- The next write displaces the position one ring earlier. -/
theorem Holds.write
    {size written : Nat}
    {memory input : Nat → α}
    (h : Holds size memory input written) :
    Holds size
      (Ring.write size memory written (input written))
      input (written + 1) := by
  intro a hBound hRecent
  unfold Ring.write
  by_cases hNew : a = written
  · subst hNew
    exact Function.update_self ..
  · have hOther : a % size ≠ written % size := by
      intro hSame
      have hDvd : size ∣ written - a :=
        (Nat.modEq_iff_dvd' (by omega)).mp hSame
      have hZero :=
        Nat.eq_zero_of_dvd_of_lt hDvd (by omega)
      omega
    rw [Function.update_of_ne hOther]
    exact h a (by omega) (by omega)

/- A complete window that is still held is read unchanged. -/
theorem Holds.read
    {size written start length : Nat}
    {memory input : Nat → α}
    (h : Holds size memory input written)
    (hFits : start % size + length ≤ size)
    (hWritten : start + length ≤ written)
    (hHeld : written ≤ start + size)
    {i : Nat}
    (hIndex : i < length) :
    memory (start % size + i) = input (start + i) := by
  rw [← mod_add_of_le hFits hIndex]
  exact h (start + i) (by omega) (by omega)

end Ring
