import Mathlib.Data.List.Pairwise
import Mathlib.Tactic.SplitIfs

/-! # Registers that only rise

A register that stores a value only if it is higher than the one it has, together
with every value it had.  A reader that lags behind has one of them.
-/

/-- The values that the register had, the newest first. -/
structure HighWater where
  values : List Nat
  descending : values.Pairwise (· > ·)

namespace HighWater

variable {register : HighWater} {number other : Nat}

def empty : HighWater := ⟨[], .nil⟩

def value (register : HighWater) : Option Nat := register.values.head?

theorem value_mem (isValue : register.value = some number) : number ∈ register.values :=
  List.mem_of_head? isValue

theorem le_value (had : number ∈ register.values) : ∃ current, register.value = some current ∧ number ≤ current := by
  obtain ⟨values, descending⟩ := register
  cases values with
  | nil => cases had
  | cons newest =>
    refine ⟨newest, rfl, ?_⟩
    rcases List.mem_cons.mp had with rfl | earlier
    · exact Nat.le_refl _
    · exact Nat.le_of_lt (List.rel_of_pairwise_cons descending earlier)

theorem lt_of_higher (higher : register.value.all (· < number) = true) (had : other ∈ register.values) :
    other < number := by
  obtain ⟨_, isValue, bound⟩ := le_value had
  rw [isValue, Option.all_some] at higher
  exact Nat.lt_of_le_of_lt bound (of_decide_eq_true higher)

/-- Store the number unless the current value is at or past it. -/
def putIfHigher (register : HighWater) (number : Nat) : HighWater :=
  if higher : register.value.all (· < number) = true then
    ⟨number :: register.values, .cons (fun _ had => lt_of_higher higher had) register.descending⟩
  else register

theorem mem_putIfHigher (had : other ∈ (register.putIfHigher number).values) :
    other ∈ register.values ∨ other = number := by
  unfold putIfHigher at had
  split_ifs at had
  · exact (List.mem_cons.mp had).symm
  · exact .inl had

theorem subset_putIfHigher (had : other ∈ register.values) : other ∈ (register.putIfHigher number).values := by
  unfold putIfHigher
  split_ifs
  · exact List.mem_cons_of_mem _ had
  · exact had

end HighWater
