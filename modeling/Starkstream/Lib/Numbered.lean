import Mathlib.Data.List.Basic

/-! # Lists numbered from a base

A list of consecutive items is often addressed by the number of an item rather
than by its position.  `get base items n` is the item numbered `n` when the
first item is numbered `base`.
-/

namespace Numbered

variable {α β : Type*}

/-- The item numbered `n`; `none` below the base and past the end. -/
def get (base : Nat) (items : List α) (n : Nat) : Option α :=
  if base ≤ n then items[n - base]? else none

theorem get_below {base n} (items : List α) (below : n < base) : get base items n = none :=
  if_neg (by omega)

theorem get_of_le {base n} (items : List α) (above : base ≤ n) : get base items n = items[n - base]? :=
  if_pos above

@[simp] theorem get_base_add (base : Nat) (items : List α) (i : Nat) :
    get base items (base + i) = items[i]? := by
  rw [get_of_le items (by omega), Nat.add_sub_cancel_left]

@[simp] theorem get_base (base : Nat) (items : List α) : get base items base = items[0]? :=
  get_base_add base items 0

theorem get_isSome_iff (base : Nat) (items : List α) (n : Nat) :
    (get base items n).isSome ↔ base ≤ n ∧ n < base + items.length := by
  unfold get
  split
  · rw [isSome_getElem?]
    omega
  · simp only [Option.isSome_none, Bool.false_eq_true, false_iff]
    omega

theorem get_mem {base n} {items : List α} {item} (found : get base items n = some item) : item ∈ items := by
  rw [get, Option.ite_none_right_eq_some] at found
  exact List.mem_of_getElem? found.2

theorem get_map (f : α → β) (base : Nat) (items : List α) (n : Nat) :
    get base (items.map f) n = (get base items n).map f := by
  unfold get
  split
  · exact List.getElem?_map
  · rfl

variable (base : Nat) (items : List α)
include base items

theorem get_snoc (item : α) (n : Nat) :
    get base (items ++ [item]) n =
      if n = base + items.length then some item else get base items n := by
  by_cases below : n < base
  · rw [get_below _ below, get_below _ below, if_neg (by omega)]
  · obtain ⟨i, rfl⟩ := Nat.exists_eq_add_of_le (Nat.le_of_not_lt below)
    rw [get_base_add, get_base_add, List.getElem?_append]
    by_cases old : i < items.length
    · rw [if_pos old, if_neg (by omega)]
    · rw [if_neg old, List.getElem?_singleton]
      by_cases new : i = items.length
      · rw [if_pos (by omega), if_pos (by omega)]
      · rw [if_neg (by omega), if_neg (by omega), List.getElem?_eq_none (by omega)]

theorem get_take (count n : Nat) :
    get base (items.take count) n = if n < base + count then get base items n else none := by
  by_cases below : n < base
  · rw [get_below _ below, get_below _ below, if_pos (by omega)]
  · obtain ⟨i, rfl⟩ := Nat.exists_eq_add_of_le (Nat.le_of_not_lt below)
    rw [get_base_add, get_base_add, List.getElem?_take]
    by_cases kept : i < count
    · rw [if_pos kept, if_pos (by omega)]
    · rw [if_neg kept, if_neg (by omega)]

theorem get_drop (count n : Nat) :
    get (base + count) (items.drop count) n =
      if base + count ≤ n then get base items n else none := by
  by_cases dropped : base + count ≤ n
  · obtain ⟨i, rfl⟩ := Nat.exists_eq_add_of_le dropped
    rw [if_pos dropped, get_base_add, Nat.add_assoc, get_base_add, List.getElem?_drop]
  · rw [if_neg dropped, get_below _ (by omega)]

end Numbered
