import Mathlib.Data.Nat.Basic

/-! # Tilings

Objects that cover ranges of one size are written one after the other, the first
at `start`.  A stretch is tiled when every object that begins in it is there; a
reader finds the object of a number by rounding the number down.
-/

/-- From `start` up to `stop`, every tile is present. -/
def Tiled (Present : Nat → Prop) (start size stop : Nat) : Prop :=
  ∃ count, stop = start + count * size ∧ ∀ i < count, Present (start + i * size)

namespace Tiled

variable {Present Other : Nat → Prop} {start size stop : Nat}

theorem nil (Present : Nat → Prop) (start size : Nat) : Tiled Present start size start :=
  ⟨0, by simp, nofun⟩

variable (tiled : Tiled Present start size stop)
include tiled

theorem extend (placed : Present stop) : Tiled Present start size (stop + size) := by
  obtain ⟨count, rfl, present⟩ := tiled
  refine ⟨count + 1, by rw [Nat.add_mul, Nat.one_mul, Nat.add_assoc], fun i below => ?_⟩
  rcases Nat.lt_succ_iff_lt_or_eq.mp below with earlier | rfl
  · exact present i earlier
  · exact placed

theorem mono (kept : ∀ first, Present first → Other first) : Tiled Other start size stop := by
  obtain ⟨count, isStop, present⟩ := tiled
  exact ⟨count, isStop, fun i below => kept _ (present i below)⟩

theorem size_pos {number} (lower : start ≤ number) (upper : number < stop) : 0 < size := by
  obtain ⟨_, rfl, -⟩ := tiled
  refine Nat.pos_of_ne_zero ?_
  rintro rfl
  omega

/-- The tile of a number begins at the number rounded down. -/
theorem present_of_lt {number} (lower : start ≤ number) (upper : number < stop) :
    Present (start + (number - start) / size * size) := by
  obtain ⟨_, rfl, present⟩ := tiled
  refine present _ (Nat.div_lt_of_lt_mul ?_)
  rw [Nat.mul_comm]
  omega

end Tiled
