import Mathlib.Data.List.Basic

/-
  Deterministic machines with outputs.

  A step function maps a state and an input to a state and
  the list of outputs the step produces, in order. All
  nondeterminism of an environment is carried by the inputs.

  Key definitions include:
    * `Machine.run`
    * `Machine.Guarded`
    * `Machine.Each`

  The induction rules are:
    * `Machine.run_invariant`
    * `Machine.run_outputs`
    * `Machine.run_trace_invariant`
    * `Machine.Guarded.invariant`
    * `Machine.Guarded.outputs`
    * `Machine.run_each`
-/

------------------------------------------------------------
-- Runs
------------------------------------------------------------

namespace Machine

universe u v w

variable {σ : Type u} {ι : Type v} {ο : Type w}

/- Run a machine over an input list, collecting outputs. -/
def run
    (step : σ → ι → σ × List ο) :
    σ → List ι → σ × List ο
| s, [] => (s, [])
| s, i :: is =>
    ((run step (step s i).1 is).1,
      (step s i).2 ++ (run step (step s i).1 is).2)

@[simp] theorem run_nil
    (step : σ → ι → σ × List ο)
    (s : σ) :
    run step s [] = (s, []) :=
  rfl

@[simp] theorem run_cons
    (step : σ → ι → σ × List ο)
    (s : σ)
    (i : ι)
    (is : List ι) :
    run step s (i :: is) =
      ((run step (step s i).1 is).1,
        (step s i).2 ++ (run step (step s i).1 is).2) :=
  rfl

/- A run over a concatenation is the two runs in sequence. -/
theorem run_append
    (step : σ → ι → σ × List ο)
    (s : σ)
    (is js : List ι) :
    run step s (is ++ js) =
      ((run step (run step s is).1 js).1,
        (run step s is).2 ++
          (run step (run step s is).1 js).2) := by
  induction is generalizing s with
  | nil => simp
  | cons i is ih =>
      simp [ih]

/- A state predicate kept by every step holds after a run. -/
theorem run_invariant
    {step : σ → ι → σ × List ο}
    {P : σ → Prop}
    (hStep : ∀ s i, P s → P (step s i).1)
    {s : σ}
    (hInit : P s)
    (is : List ι) :
    P (run step s is).1 := by
  induction is generalizing s with
  | nil => exact hInit
  | cons i is ih =>
      exact ih (hStep s i hInit)

/-
  When an invariant makes every output of one step satisfy
  `Q`, every output of a run satisfies `Q`.
-/
theorem run_outputs
    {step : σ → ι → σ × List ο}
    {P : σ → Prop}
    {Q : ο → Prop}
    (hStep : ∀ s i, P s → P (step s i).1)
    (hOut : ∀ s i, P s → ∀ o ∈ (step s i).2, Q o)
    {s : σ}
    (hInit : P s)
    (is : List ι) :
    ∀ o ∈ (run step s is).2, Q o := by
  induction is generalizing s with
  | nil =>
      intro o hMember
      simp at hMember
  | cons i is ih =>
      intro o hMember
      rw [run_cons, List.mem_append] at hMember
      rcases hMember with hHere | hLater
      · exact hOut s i hInit o hHere
      · exact ih (hStep s i hInit) o hLater

/-
  A predicate of the outputs so far and the state, kept by
  every step, holds at the end of every run.
-/
theorem run_trace_invariant
    {step : σ → ι → σ × List ο}
    {P : List ο → σ → Prop}
    (hStep :
      ∀ trace s i, P trace s →
        P (trace ++ (step s i).2) (step s i).1)
    {trace : List ο}
    {s : σ}
    (hInit : P trace s)
    (is : List ι) :
    P (trace ++ (run step s is).2) (run step s is).1 := by
  induction is generalizing trace s with
  | nil => simpa using hInit
  | cons i is ih =>
      have hNext := ih (hStep trace s i hInit)
      simpa [List.append_assoc] using hNext

/- The state after a run does not depend on the outputs. -/
theorem run_state_congr
    {ο' : Type w}
    {step : σ → ι → σ × List ο}
    {step' : σ → ι → σ × List ο'}
    (hSame : ∀ s i, (step s i).1 = (step' s i).1)
    (s : σ)
    (is : List ι) :
    (run step s is).1 = (run step' s is).1 := by
  induction is generalizing s with
  | nil => rfl
  | cons i is ih =>
      rw [run_cons, run_cons, ← hSame s i]
      exact ih _

end Machine

------------------------------------------------------------
-- Guarded Runs
------------------------------------------------------------

namespace Machine

universe u v w

variable {σ : Type u} {ι : Type v} {ο : Type w}

/-
  Every step of a run meets `guard` in the state in which it
  is taken.
-/
def Guarded
    (step : σ → ι → σ × List ο)
    (guard : σ → ι → Prop) :
    σ → List ι → Prop
| _, [] => True
| s, i :: is =>
    guard s i ∧ Guarded step guard (step s i).1 is

instance Guarded.decidable
    (step : σ → ι → σ × List ο)
    (guard : σ → ι → Prop)
    [∀ s i, Decidable (guard s i)] :
    (s : σ) → (is : List ι) →
      Decidable (Guarded step guard s is)
| _, [] => isTrue trivial
| s, i :: is =>
    have := Guarded.decidable step guard (step s i).1 is
    inferInstanceAs (Decidable (guard s i ∧ _))

namespace Guarded

variable {step : σ → ι → σ × List ο}
variable {guard : σ → ι → Prop}

/- Inputs that meet the guard in every state. -/
theorem of_forall
    {is : List ι}
    (hInputs : ∀ i ∈ is, ∀ s, guard s i)
    (s : σ) :
    Guarded step guard s is := by
  induction is generalizing s with
  | nil => trivial
  | cons i is ih =>
      rw [List.forall_mem_cons] at hInputs
      exact ⟨hInputs.1 s, ih hInputs.2 _⟩

/- Two guarded runs in sequence. -/
theorem append
    {s : σ}
    {is js : List ι}
    (hFirst : Guarded step guard s is)
    (hSecond : Guarded step guard (run step s is).1 js) :
    Guarded step guard s (is ++ js) := by
  induction is generalizing s with
  | nil => exact hSecond
  | cons i is ih =>
      exact ⟨hFirst.1, ih hFirst.2 hSecond⟩

/- A predicate kept by every guarded step holds after one. -/
theorem invariant
    {P : σ → Prop}
    (hStep : ∀ s i, P s → guard s i → P (step s i).1)
    {s : σ}
    (hInit : P s)
    {is : List ι}
    (hGuarded : Guarded step guard s is) :
    P (run step s is).1 := by
  induction is generalizing s with
  | nil => exact hInit
  | cons i is ih =>
      exact ih (hStep s i hInit hGuarded.1) hGuarded.2

/- Output rule for guarded runs. -/
theorem outputs
    {P : σ → Prop}
    {Q : ο → Prop}
    (hStep : ∀ s i, P s → guard s i → P (step s i).1)
    (hOut :
      ∀ s i, P s → guard s i →
        ∀ o ∈ (step s i).2, Q o)
    {s : σ}
    (hInit : P s)
    {is : List ι}
    (hGuarded : Guarded step guard s is) :
    ∀ o ∈ (run step s is).2, Q o := by
  induction is generalizing s with
  | nil =>
      intro o hMember
      simp at hMember
  | cons i is ih =>
      intro o hMember
      rw [run_cons, List.mem_append] at hMember
      rcases hMember with hHere | hLater
      · exact hOut s i hInit hGuarded.1 o hHere
      · exact
          ih (hStep s i hInit hGuarded.1) hGuarded.2
            o hLater

/- Trace rule for guarded runs. -/
theorem trace_invariant
    {P : List ο → σ → Prop}
    (hStep :
      ∀ trace s i, P trace s → guard s i →
        P (trace ++ (step s i).2) (step s i).1)
    {trace : List ο}
    {s : σ}
    (hInit : P trace s)
    {is : List ι}
    (hGuarded : Guarded step guard s is) :
    P (trace ++ (run step s is).2) (run step s is).1 := by
  induction is generalizing trace s with
  | nil => simpa using hInit
  | cons i is ih =>
      have hNext :=
        ih (hStep trace s i hInit hGuarded.1) hGuarded.2
      simpa [List.append_assoc] using hNext

end Guarded

end Machine

------------------------------------------------------------
-- Outputs Judged By Their Past
------------------------------------------------------------

namespace Machine

universe u v w

variable {σ : Type u} {ι : Type v} {ο : Type w}

/- Every output satisfies `Q` with the outputs before it. -/
def Each
    (Q : List ο → ο → Prop) :
    List ο → List ο → Prop
| _, [] => True
| past, o :: os => Q past o ∧ Each Q (past ++ [o]) os

theorem each_append
    (Q : List ο → ο → Prop)
    (past os ps : List ο) :
    Each Q past (os ++ ps) ↔
      Each Q past os ∧ Each Q (past ++ os) ps := by
  induction os generalizing past with
  | nil => simp [Each]
  | cons o os ih =>
      simp [Each, ih, and_assoc]

/- The predicate at one position of the trace. -/
theorem each_split
    {Q : List ο → ο → Prop}
    {past before after : List ο}
    {o : ο}
    (hEach : Each Q past (before ++ o :: after)) :
    Q (past ++ before) o := by
  rw [each_append] at hEach
  exact hEach.2.1

theorem each_of_forall
    {Q : List ο → ο → Prop}
    {past os : List ο}
    (hAll : ∀ p, ∀ o ∈ os, Q p o) :
    Each Q past os := by
  induction os generalizing past with
  | nil => trivial
  | cons o os ih =>
      refine ⟨hAll past o (List.mem_cons_self ..), ih ?_⟩
      intro p o' hMember
      exact hAll p o' (List.mem_cons_of_mem o hMember)

/-
  When a trace invariant makes the outputs of one step
  satisfy `Q` with their past, those of a run do.
-/
theorem run_each
    {step : σ → ι → σ × List ο}
    {P : List ο → σ → Prop}
    {Q : List ο → ο → Prop}
    (hStep :
      ∀ trace s i, P trace s →
        P (trace ++ (step s i).2) (step s i).1)
    (hOut :
      ∀ trace s i, P trace s → Each Q trace (step s i).2)
    {trace : List ο}
    {s : σ}
    (hInit : P trace s)
    (is : List ι) :
    Each Q trace (run step s is).2 := by
  induction is generalizing trace s with
  | nil => trivial
  | cons i is ih =>
      rw [run_cons, each_append]
      exact
        ⟨hOut trace s i hInit, ih (hStep trace s i hInit)⟩

end Machine
