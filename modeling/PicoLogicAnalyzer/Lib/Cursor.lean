import Mathlib.Data.List.Basic

/-
  Cursors that skip.

  A consumer takes elements of an unbounded sequence in order
  and may skip elements it has missed. The log of the indices
  it took determines how many it skipped before each.

  Key definitions include:
    * `Cursor.Log`

  Key theorems include:
    * `Cursor.Log.take`
    * `Cursor.Log.index_le`
    * `Cursor.Log.gap`
-/

------------------------------------------------------------
-- Logs Of Taken Indices
------------------------------------------------------------

namespace Cursor

/- Indices taken in increasing order, all below `next`. -/
structure Log (taken : List Nat) (next : Nat) : Prop where
  increasing : taken.Pairwise (· < ·)
  below : ∀ n ∈ taken, n < next

namespace Log

variable {taken : List Nat} {next : Nat}

theorem nil (next : Nat) : Log [] next where
  increasing := List.Pairwise.nil
  below := by simp

/- Take element `n`, skipping those from `next` on. -/
theorem take
    (h : Log taken next)
    {n : Nat}
    (hSkip : next ≤ n) :
    Log (taken ++ [n]) (n + 1) := by
  constructor
  · rw [List.pairwise_append]
    refine ⟨h.increasing, List.pairwise_singleton _ _, ?_⟩
    intro a hOld b hNew
    rw [List.mem_singleton.mp hNew]
    exact Nat.lt_of_lt_of_le (h.below a hOld) hSkip
  · intro a hMember
    rcases List.mem_append.mp hMember with hOld | hNew
    · have hBound := h.below a hOld
      omega
    · rw [List.mem_singleton.mp hNew]
      exact Nat.lt_succ_self n

/- Between two taken elements at least the positions lie. -/
theorem add_le_add
    (h : Log taken next)
    {i j m n : Nat}
    (hOrder : i ≤ j)
    (hFirst : taken[i]? = some m)
    (hSecond : taken[j]? = some n) :
    m + j ≤ n + i := by
  induction hOrder generalizing n with
  | refl =>
      rw [hFirst] at hSecond
      cases hSecond
      exact Nat.le_refl _
  | @step j hOrder ih =>
      rcases List.getElem?_eq_some_iff.mp hSecond with
        ⟨hIndex, hLast⟩
      have hBefore : j < taken.length := by
        omega
      have hStep : taken[j] < taken[j + 1] :=
        List.pairwise_iff_getElem.mp h.increasing j (j + 1)
          hBefore hIndex (Nat.lt_succ_self j)
      have hPrevious :=
        ih (List.getElem?_eq_getElem hBefore)
      have hSame : taken[j + 1] = n := hLast
      omega

/- Element `i` of the log was preceded by at least `i`. -/
theorem index_le
    (h : Log taken next)
    {i n : Nat}
    (hTaken : taken[i]? = some n) :
    i ≤ n := by
  rcases List.getElem?_eq_some_iff.mp hTaken with
    ⟨hIndex, _⟩
  have hPos : 0 < taken.length := by
    omega
  have hDistance :=
    h.add_le_add (Nat.zero_le i)
      (List.getElem?_eq_getElem hPos) hTaken
  omega

/- The elements taken fit below the cursor. -/
theorem length_le (h : Log taken next) :
    taken.length ≤ next := by
  rcases Nat.eq_zero_or_pos taken.length with hEmpty | hPos
  · omega
  · have hLast : taken.length - 1 < taken.length := by
      omega
    have hIndex :=
      h.index_le (List.getElem?_eq_getElem hLast)
    have hBound :=
      h.below _ (List.getElem_mem hLast)
    omega

/-
  The elements skipped between two consecutive takes are what
  the numbers skipped before each differ by.
-/
theorem gap
    (h : Log taken next)
    {i m n : Nat}
    (hFirst : taken[i]? = some m)
    (hSecond : taken[i + 1]? = some n) :
    m < n ∧ n - (i + 1) = (m - i) + (n - m - 1) := by
  have hIndex := h.index_le hFirst
  have hDistance :=
    h.add_le_add (Nat.le_succ i) hFirst hSecond
  omega

end Log

end Cursor
