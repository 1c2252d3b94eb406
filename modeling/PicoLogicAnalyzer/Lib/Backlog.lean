import Mathlib.Data.List.Infix
import Mathlib.Tactic.Ring

/-
  Backlogs of a server that handles one unit a round.

  Every round brings some work and may be a served one. A
  busy server completes one unit in a served round; it rests
  only when less than one unit is left. If no window of
  consecutive rounds brings more than its served rounds can
  take, up to a fixed burst, the backlog stays below three
  units and the burst.

  Key definitions include:
    * `Backlog.Bursty`
    * `Backlog.Level`

  Key theorems include:
    * `Backlog.Level.busy` and `Backlog.Level.rest`
    * `Backlog.Level.bound`
-/

------------------------------------------------------------
-- Loads
------------------------------------------------------------

namespace Backlog

/- Work that came in during one round, and whether it was
   a round in which the server could complete a unit. -/
structure Load where
  arrived : Nat
  served : Bool
deriving DecidableEq, Repr

/- What one served round can take. -/
def Load.room (unit : Nat) (load : Load) : Nat :=
  if load.served then unit else 0

def arrivals (loads : List Load) : Nat :=
  (loads.map Load.arrived).sum

def rooms (unit : Nat) (loads : List Load) : Nat :=
  (loads.map (Load.room unit)).sum

/-
  No window of consecutive rounds brings more than its served
  rounds can take, a burst aside.
-/
def Bursty
    (unit burst : Nat)
    (loads : List Load) : Prop :=
  ∀ window, window <:+: loads →
    arrivals window ≤ rooms unit window + burst

variable {unit burst : Nat}

theorem Load.room_le (unit : Nat) (load : Load) :
    load.room unit ≤ unit := by
  unfold Load.room
  split
  · exact Nat.le_refl _
  · exact Nat.zero_le _

theorem arrivals_concat
    (loads : List Load)
    (load : Load) :
    arrivals (loads ++ [load]) =
      arrivals loads + load.arrived := by
  simp [arrivals]

theorem rooms_concat
    (loads : List Load)
    (load : Load) :
    rooms unit (loads ++ [load]) =
      rooms unit loads + load.room unit := by
  simp [rooms]

/- The beginning of a bursty sequence is bursty. -/
theorem Bursty.left
    {first second : List Load}
    (h : Bursty unit burst (first ++ second)) :
    Bursty unit burst first := by
  intro window hWindow
  exact
    h window
      (hWindow.trans (List.prefix_append _ _).isInfix)

/- A sequence that is one burst. -/
theorem bursty_of_arrivals_le
    {loads : List Load}
    (h : arrivals loads ≤ burst)
    (unit : Nat) :
    Bursty unit burst loads := by
  intro window hWindow
  rcases hWindow with ⟨before, after, rfl⟩
  simp only [arrivals, List.map_append,
    List.sum_append] at h ⊢
  omega

end Backlog

------------------------------------------------------------
-- Levels
------------------------------------------------------------

namespace Backlog

/-
  A backlog the last rounds account for: since the server
  last rested it has grown by what came in beyond the rooms.
-/
def Level
    (unit : Nat)
    (loads : List Load)
    (level : Nat) : Prop :=
  ∃ window, window <:+ loads ∧
    level + rooms unit window < 2 * unit + arrivals window

namespace Level

variable {unit burst level level' : Nat}
variable {loads : List Load} {load : Load}

theorem start (hUnit : 0 < unit) : Level unit [] 0 := by
  refine ⟨[], List.suffix_rfl, ?_⟩
  simp only [rooms, arrivals, List.map_nil, List.sum_nil]
  omega

/- A round in which the server works as far as it may. -/
theorem busy
    (h : Level unit loads level)
    (hWork :
      level' + load.room unit ≤ level + load.arrived) :
    Level unit (loads ++ [load]) level' := by
  rcases h with ⟨window, hSuffix, hLevel⟩
  rcases hSuffix with ⟨earlier, rfl⟩
  refine ⟨window ++ [load], ⟨earlier, by simp⟩, ?_⟩
  rw [rooms_concat, arrivals_concat]
  omega

/- A round before which less than one unit was left. -/
theorem rest
    (hRest : level' < unit + load.arrived)
    (loads : List Load) :
    Level unit (loads ++ [load]) level' := by
  have hRoom := load.room_le unit
  refine ⟨[load], List.suffix_append loads [load], ?_⟩
  simp only [rooms, arrivals, List.map_cons, List.map_nil,
    List.sum_cons, List.sum_nil]
  omega

/- Between two rounds the backlog is bounded. -/
theorem lt
    (h : Level unit loads level)
    (hBursty : Bursty unit burst loads) :
    level < 2 * unit + burst := by
  rcases h with ⟨window, hSuffix, hLevel⟩
  have hWindow := hBursty window hSuffix.isInfix
  omega

/- During the next round the backlog stays bounded. -/
theorem bound
    (h : Level unit loads level)
    (hBursty : Bursty unit burst (loads ++ [load])) :
    level + load.arrived < 3 * unit + burst := by
  rcases h with ⟨window, hSuffix, hLevel⟩
  rcases hSuffix with ⟨earlier, rfl⟩
  have hWindow :
      arrivals (window ++ [load]) ≤
        rooms unit (window ++ [load]) + burst := by
    apply hBursty
    refine ⟨earlier, [], ?_⟩
    simp
  have hRoom := load.room_le unit
  rw [rooms_concat, arrivals_concat] at hWindow
  omega

end Level

end Backlog
