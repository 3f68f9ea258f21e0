import Mathlib.Data.List.Basic
import Mathlib.Data.Nat.Basic
import Mathlib.Order.Defs.LinearOrder

/-! # Collecting items under keys

A loop that adds each item to what a map holds under its key leaves under every
key what the items with that key give, in their order.  A map whose keys are the
first numbers lists them at their own positions.
-/

namespace Grouping

theorem mem_of_mem_toList {κ ν : Type*} {cmp} [Std.TransCmp cmp] {map : Std.ExtTreeMap κ ν cmp} {entry}
    (member : entry ∈ map.toList) : entry.1 ∈ map := by
  obtain ⟨_, found⟩ := Std.ExtTreeMap.mem_toList_iff_getKey?_eq_some_and_getElem?_eq_some.mp member
  rw [Std.ExtTreeMap.mem_iff_isSome_getElem?, found]
  rfl

section
variable {α κ ν : Type*} [Ord κ] [Std.TransOrd κ] [Std.LawfulEqOrd κ] [DecidableEq κ]

theorem getElem?_foldl_alter (key : α → κ) (add : Option ν → α → ν) (items : List α) (map : Std.ExtTreeMap κ ν)
    (other : κ) :
    (items.foldl (fun map item => map.alter (key item) fun existing => some (add existing item)) map)[other]? =
      (items.filter (key · = other)).foldl (fun existing item => some (add existing item)) map[other]? := by
  induction items generalizing map with
  | nil => rfl
  | cons item rest ih =>
    rw [List.foldl_cons, ih, Std.ExtTreeMap.getElem?_alter]
    by_cases same : key item = other
    · rw [List.filter_cons_of_pos (by simpa using same), List.foldl_cons, same, if_pos Std.ReflOrd.compare_self]
    · rw [List.filter_cons_of_neg (by simpa using same), if_neg]
      exact fun equal => same (Std.LawfulEqOrd.eq_of_compare equal)

theorem find?_toList (map : Std.ExtTreeMap κ ν) (key : κ) :
    map.toList.find? (·.1 == key) = map[key]?.map (key, ·) := by
  cases found : map[key]? with
  | none =>
    refine List.find?_eq_none.mpr fun entry listed same => ?_
    have present := Std.ExtTreeMap.mem_toList_iff_getElem?_eq_some.mp listed
    rw [eq_of_beq same, found] at present
    cases present
  | some =>
    have listed := Std.ExtTreeMap.mem_toList_iff_getElem?_eq_some.mpr found
    cases isFirst : map.toList.find? (·.1 == key) with
    | none => simpa using List.find?_eq_none.mp isFirst _ listed
    | some entry =>
      have sameKey : entry.1 = key := by simpa using List.find?_some isFirst
      have present := Std.ExtTreeMap.mem_toList_iff_getElem?_eq_some.mp (List.mem_of_find?_eq_some isFirst)
      rw [sameKey, found] at present
      rw [Option.map_some, ← sameKey, Option.some.inj present]

/-- Nothing is under a key that no item has. -/
theorem foldl_some {add : ν → α → ν} {empty} (items : List α) :
    items.foldl (fun existing item => some (add (existing.getD empty) item)) none =
      if items = [] then none else some (items.foldl add empty) := by
  have started : ∀ (items : List α) value, items.foldl (fun existing item => some (add (existing.getD empty) item))
      (some value) = some (items.foldl add value) := by
    intro items
    induction items with
    | nil => exact fun value => rfl
    | cons item rest ih => exact fun value => ih (add value item)
  cases items with
  | nil => rfl
  | cons => rw [List.foldl_cons, started, if_neg (by simp), Option.getD_none, List.foldl_cons]

end

/-- Ascending numbers without a gap from zero on stand at their own positions. -/
theorem getElem_of_dense {numbers : List Nat} (ascending : numbers.Pairwise (· < ·))
    (dense : ∀ number ∈ numbers, ∀ lower < number, lower ∈ numbers) {position} (inside : position < numbers.length) :
    numbers[position] = position := by
  induction position using Nat.strong_induction_on with
  | _ position ih =>
    have increasing := List.pairwise_iff_getElem.mp ascending
    rcases Nat.lt_trichotomy numbers[position] position with below | same | above
    · have earlier := ih _ below (by omega)
      have later := increasing _ _ (by omega) inside below
      omega
    · exact same
    · obtain ⟨place, placeInside, _⟩ := List.getElem_of_mem (dense _ (List.getElem_mem inside) position above)
      rcases Nat.lt_trichotomy place position with before | rfl | after
      · have earlier := ih place before placeInside
        omega
      · omega
      · have later := increasing _ _ inside placeInside after
        omega

/-- The entries of a map whose keys have the first numbers. -/
theorem toList_getElem? {κ ν : Type*} [Ord κ] [Std.TransOrd κ] [Std.LawfulEqOrd κ] {map : Std.ExtTreeMap κ ν}
    {number : κ → Nat} (injective : Function.Injective number)
    (increasing : ∀ left right, compare left right = .lt → number left < number right)
    (dense : ∀ key ∈ map, ∀ lower < number key, ∃ other ∈ map, number other = lower) (key : κ) :
    map.toList[number key]? = map[key]?.map (key, ·) := by
  have ascending : (map.toList.map fun entry => number entry.1).Pairwise (· < ·) := by
    refine List.pairwise_map.mpr (map.ordered_keys_toList.imp ?_)
    exact fun less => increasing _ _ less
  have closed : ∀ value ∈ map.toList.map (fun entry => number entry.1), ∀ lower < value,
      lower ∈ map.toList.map fun entry => number entry.1 := by
    intro value member lower below
    obtain ⟨entry, listed, rfl⟩ := List.mem_map.mp member
    obtain ⟨other, otherIn, rfl⟩ := dense entry.1 (mem_of_mem_toList listed) lower below
    obtain ⟨content, found⟩ := Option.isSome_iff_exists.mp (Std.ExtTreeMap.mem_iff_isSome_getElem?.mp otherIn)
    exact List.mem_map.mpr ⟨(other, content), Std.ExtTreeMap.mem_toList_iff_getElem?_eq_some.mpr found, rfl⟩
  have atPosition : ∀ position entry, map.toList[position]? = some entry → number entry.1 = position := by
    intro position entry found
    obtain ⟨_, rfl⟩ := List.getElem?_eq_some_iff.mp found
    have placed := getElem_of_dense ascending closed (by rwa [List.length_map])
    rwa [List.getElem_map] at placed
  cases found : map[key]? with
  | none =>
    rw [Option.map_none, ← Option.not_isSome_iff_eq_none, Option.isSome_iff_exists]
    rintro ⟨_, listed⟩
    have sameKey := injective (atPosition _ _ listed)
    have present := Std.ExtTreeMap.mem_toList_iff_getElem?_eq_some.mp (List.mem_of_getElem? listed)
    rw [sameKey, found] at present
    cases present
  | some =>
    obtain ⟨_, listed⟩ :=
      List.getElem?_of_mem (Std.ExtTreeMap.mem_toList_iff_getElem?_eq_some.mpr found)
    rwa [← atPosition _ _ listed] at listed

end Grouping
