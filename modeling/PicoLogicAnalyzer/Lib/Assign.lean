import Mathlib.Logic.Function.Basic
import Mathlib.Tactic.Common

/-
  Resources and their owners.

  Every resource has one owner, or the vacant key. An owner
  gives back what it has before it is granted something, so
  it never has two resources. What the owners have been told
  is kept apart from the assignment; the two agree when each
  owner believes it has exactly what it has.

  Key definitions include:
    * `Assign.release` and `Assign.grant`
    * `Assign.Single`
    * `Assign.Agrees`

  Key theorems include:
    * `Agrees.release` and `Agrees.grant`
    * `Agrees.exclusive`
-/

------------------------------------------------------------
-- Assignments
------------------------------------------------------------

namespace Assign

universe u v

variable {α : Type u} {κ : Type v}

/- No key other than the vacant one has two resources. -/
def Single (vacant : κ) (owner : α → κ) : Prop :=
  ∀ a a', owner a = owner a' → owner a ≠ vacant → a = a'

section Release

variable [DecidableEq κ]

/- The key gives back what it has. -/
def release
    (vacant : κ)
    (owner : α → κ)
    (key : κ) :
    α → κ :=
  fun a => if owner a = key then vacant else owner a

variable {vacant key : κ} {owner : α → κ}

theorem release_ne
    (hKey : key ≠ vacant)
    (a : α) :
    release vacant owner key a ≠ key := by
  unfold release
  split
  · exact hKey.symm
  · assumption

/- Other keys keep what they have. -/
theorem release_eq_iff
    {other : κ}
    (hOther : other ≠ key)
    (hVacant : other ≠ vacant)
    (a : α) :
    release vacant owner key a = other ↔ owner a = other := by
  unfold release
  split
  · rename_i hOwner
    rw [hOwner]
    exact iff_of_false hVacant.symm hOther.symm
  · exact Iff.rfl

theorem Single.release
    (hSingle : Single vacant owner)
    (key : κ) :
    Single vacant (release vacant owner key) := by
  intro a a' hSame hOwned
  unfold Assign.release at hSame hOwned
  split at hOwned
  · exact absurd rfl hOwned
  · rename_i hKept
    rw [if_neg hKept] at hSame
    split at hSame
    · exact absurd hSame hOwned
    · exact hSingle a a' hSame hOwned

end Release

section Grant

variable [DecidableEq α]

/- The resource goes to the key. -/
def grant (owner : α → κ) (a : α) (key : κ) : α → κ :=
  Function.update owner a key

/- A key that has nothing may be given a resource. -/
theorem Single.grant
    {vacant key : κ}
    {owner : α → κ}
    (hSingle : Single vacant owner)
    (hFree : key ≠ vacant → ∀ a, owner a ≠ key)
    (a : α) :
    Single vacant (grant owner a key) := by
  intro b b' hSame hOwned
  unfold Assign.grant at hSame hOwned
  by_cases hFirst : b = a
  · by_cases hSecond : b' = a
    · rw [hFirst, hSecond]
    · rw [hFirst, Function.update_self] at hSame hOwned
      rw [Function.update_of_ne hSecond] at hSame
      exact absurd hSame.symm (hFree hOwned b')
  · rw [Function.update_of_ne hFirst] at hSame hOwned
    by_cases hSecond : b' = a
    · rw [hSecond, Function.update_self] at hSame
      rw [hSame] at hOwned
      exact absurd hSame (hFree hOwned b)
    · rw [Function.update_of_ne hSecond] at hSame
      exact hSingle b b' hSame hOwned

end Grant

end Assign

------------------------------------------------------------
-- What Owners Believe
------------------------------------------------------------

namespace Assign

universe u v

variable {α : Type u} {κ : Type v}

/- Every key believes that it has exactly what it has. -/
def Agrees
    (vacant : κ)
    (held : κ → Option α)
    (owner : α → κ) :
    Prop :=
  ∀ key, key ≠ vacant →
    ∀ a, held key = some a ↔ owner a = key

namespace Agrees

variable {vacant key : κ} {held : κ → Option α}
variable {owner : α → κ}

/- No two keys believe that they have the same resource. -/
theorem exclusive
    (hAgrees : Agrees vacant held owner)
    {other : κ}
    (hKey : key ≠ vacant)
    (hOther : other ≠ vacant)
    {a : α}
    (hHeld : held key = some a)
    (hToo : held other = some a) :
    key = other :=
  ((hAgrees key hKey a).mp hHeld).symm.trans
    ((hAgrees other hOther a).mp hToo)

variable [DecidableEq κ]

theorem release
    (hAgrees : Agrees vacant held owner)
    (key : κ) :
    Agrees vacant (Function.update held key none)
      (release vacant owner key) := by
  intro other hOther a
  by_cases hSame : other = key
  · subst hSame
    rw [Function.update_self]
    exact iff_of_false (Option.some_ne_none a).symm
      (release_ne hOther a)
  · rw [Function.update_of_ne hSame,
      release_eq_iff hSame hOther]
    exact hAgrees other hOther a

theorem grant
    [DecidableEq α]
    (hAgrees : Agrees vacant held owner)
    (hFree : key ≠ vacant → ∀ a, owner a ≠ key)
    {a : α}
    (hVacant : owner a = vacant) :
    Agrees vacant (Function.update held key (some a))
      (grant owner a key) := by
  intro other hOther b
  unfold Assign.grant
  by_cases hSame : other = key
  · subst hSame
    rw [Function.update_self, Option.some_inj]
    by_cases hHere : b = a
    · subst hHere
      rw [Function.update_self]
      exact iff_of_true rfl rfl
    · rw [Function.update_of_ne hHere]
      exact iff_of_false (Ne.symm hHere) (hFree hOther b)
  · rw [Function.update_of_ne hSame]
    by_cases hHere : b = a
    · subst hHere
      rw [Function.update_self, hAgrees other hOther,
        hVacant]
      exact iff_of_false hOther.symm (Ne.symm hSame)
    · rw [Function.update_of_ne hHere]
      exact hAgrees other hOther b

end Agrees

end Assign
