import Mathlib.Data.List.Basic
import Mathlib.Data.Nat.Basic
import Mathlib.Order.Defs.LinearOrder

/-! # Binary search in a list

The search of the Rust standard library: it keeps a base and a size and halves
the size until one item is left, without stopping early.  What it finds is only
specified when the comparison agrees with the order of the items.  A `Table` is
an ordered map written out as a list, the shape in which such maps are stored
when they are only searched.
-/

namespace BinarySearch

/-- Halve the part of `size` items that starts at `base`; `fuel` bounds the turns. -/
def narrow {α : Type*} (cmp : α → Ordering) (items : List α) : Nat → Nat → Nat → Nat
  | 0, base, _ => base
  | fuel + 1, base, size =>
    if size ≤ 1 then base
    else
      let mid := base + size / 2
      narrow cmp items fuel (if items[mid]?.map cmp = some .gt then base else mid) (size - size / 2)

def search {α : Type*} (cmp : α → Ordering) (items : List α) : Option Nat :=
  let base := narrow cmp items items.length 0 items.length
  if items[base]?.map cmp = some .eq then some base else none

/-- The items below the searched one come first, those above it last, and at most
    one is equal to it. -/
def Ordered {α : Type*} (cmp : α → Ordering) (items : List α) : Prop :=
  ∀ (i j : Nat) left right, i < j → items[i]? = some left → items[j]? = some right →
    cmp right ≠ .gt → cmp left = .lt

section
variable {α : Type*} {cmp : α → Ordering} {items : List α}

variable (ordered : Ordered cmp items)
include ordered

theorem Ordered.before_greater {target mid : Nat} (isTarget : items[target]?.map cmp = some .eq)
    (above : items[mid]?.map cmp = some .gt) : target < mid := by
  obtain ⟨_, itemAt, equal⟩ := Option.map_eq_some_iff.mp isTarget
  obtain ⟨_, middleAt, greater⟩ := Option.map_eq_some_iff.mp above
  rcases lt_trichotomy target mid with before | same | after
  · exact before
  · subst same
    cases itemAt.symm.trans middleAt
    cases equal.symm.trans greater
  · have less := ordered _ _ _ _ after middleAt itemAt (by rw [equal]; decide)
    cases greater.symm.trans less

theorem Ordered.le_of_not_greater {target mid} (inside : mid < items.length)
    (isTarget : items[target]?.map cmp = some .eq) (notAbove : items[mid]?.map cmp ≠ some .gt) : mid ≤ target := by
  obtain ⟨_, itemAt, equal⟩ := Option.map_eq_some_iff.mp isTarget
  have middleAt := List.getElem?_eq_getElem inside
  by_contra notAfter
  have less := ordered _ _ _ _ (not_le.mp notAfter) itemAt middleAt
    (fun greater => notAbove (by rw [middleAt, Option.map_some, greater]))
  cases equal.symm.trans less

/-- The searched position stays inside the part that is left. -/
theorem narrow_eq {target : Nat} (isTarget : items[target]?.map cmp = some .eq) {fuel base size}
    (enough : size ≤ fuel + 1) (inside : base + size ≤ items.length) (lower : base ≤ target)
    (upper : target < base + size) : narrow cmp items fuel base size = target := by
  induction fuel generalizing base size with
  | zero =>
    rw [narrow]
    omega
  | succ fuel ih =>
    rw [narrow]
    by_cases single : size ≤ 1
    · rw [if_pos single]
      omega
    · rw [if_neg single]
      by_cases above : items[base + size / 2]?.map cmp = some .gt
      · have before := ordered.before_greater isTarget above
        simp only [if_pos above]
        exact ih (by omega) (by omega) lower (by omega)
      · have notBefore := ordered.le_of_not_greater (by omega) isTarget above
        simp only [if_neg above]
        exact ih (by omega) (by omega) notBefore (by omega)

/-- The search finds exactly the position of the equal item. -/
theorem search_eq_some_iff (position : Nat) :
    search cmp items = some position ↔ items[position]?.map cmp = some .eq := by
  simp only [search]
  constructor
  · intro found
    split at found
    next equal =>
        cases found
        exact equal
    next => cases found
  · intro isTarget
    have inside : position < items.length := by
      by_contra outside
      rw [List.getElem?_eq_none (not_lt.mp outside)] at isTarget
      cases isTarget
    rw [narrow_eq ordered isTarget (Nat.le_succ _) (by omega) (Nat.zero_le _) (by omega), if_pos isTarget]

end

theorem search_lt {α : Type*} {cmp : α → Ordering} {items position} (found : search cmp items = some position) :
    position < items.length := by
  simp only [search] at found
  split at found
  next equal =>
      cases found
      obtain ⟨_, itemAt, _⟩ := Option.map_eq_some_iff.mp equal
      exact (List.getElem?_eq_some_iff.mp itemAt).1
  next => cases found

/-- An ordered map written out as two lists, its keys and its values. -/
structure Arrays (κ ν : Type*) where
  keys : List κ
  values : List ν

namespace Arrays

variable {κ ν : Type*}

def push (arrays : Arrays κ ν) (key : κ) (value : ν) : Arrays κ ν :=
  ⟨arrays.keys ++ [key], arrays.values ++ [value]⟩

/-- Search the keys, then read the value at the position that was found: the inner
    option is `none` when there are fewer values than that. -/
def lookup (arrays : Arrays κ ν) (cmp : κ → Ordering) : Option (Option ν) :=
  (search cmp arrays.keys).map fun position => arrays.values[position]?

theorem foldl_push {α : Type*} (key : α → κ) (value : α → ν) (items : List α) (start : Arrays κ ν) :
    items.foldl (fun arrays item => arrays.push (key item) (value item)) start =
      ⟨start.keys ++ items.map key, start.values ++ items.map value⟩ := by
  induction items generalizing start with
  | nil => simp
  | cons item rest ih =>
    rw [List.foldl_cons, ih]
    simp [push]

end Arrays

/-- The entries of an ordered map, by ascending key. -/
structure Table (κ ν : Type*) [Ord κ] where
  entries : List (κ × ν)
  sorted : entries.Pairwise fun left right => compare left.1 right.1 = .lt

namespace Table

variable {κ ν : Type*} [Ord κ]

def ofMap [Std.TransOrd κ] (map : Std.ExtTreeMap κ ν) : Table κ ν where
  entries := map.toList
  sorted := map.ordered_keys_toList

def keys (table : Table κ ν) : List κ := table.entries.map Prod.fst

/-- Search the keys, then take the value at the position that was found. -/
def get (table : Table κ ν) (cmp : κ → Ordering) : Option ν :=
  (search cmp table.keys).bind fun position => table.entries[position]?.map Prod.snd

def toArrays {β : Type*} (encode : ν → β) (table : Table κ ν) : Arrays κ β :=
  table.entries.foldl (fun arrays entry => arrays.push entry.1 (encode entry.2)) ⟨[], []⟩

/-- Both lists have a value for every position that the search can find. -/
theorem lookup_toArrays {β : Type*} (encode : ν → β) (table : Table κ ν) (cmp : κ → Ordering) :
    (table.toArrays encode).lookup cmp = (table.get cmp).map fun value => some (encode value) := by
  rw [toArrays, Arrays.foldl_push]
  simp only [Arrays.lookup, get, keys, List.nil_append]
  cases searched : search cmp (table.entries.map Prod.fst) with
  | none => rfl
  | some =>
    have inside := search_lt searched
    rw [List.length_map] at inside
    simp [List.getElem?_eq_getElem inside]

variable {cmp : κ → Ordering}

theorem get_eq_some_iff {table : Table κ ν} (ordered : Ordered cmp table.keys) (value : ν) :
    table.get cmp = some value ↔ ∃ entry ∈ table.entries, cmp entry.1 = .eq ∧ entry.2 = value := by
  simp only [get, Option.bind_eq_some_iff, search_eq_some_iff ordered]
  simp only [keys, List.getElem?_map, Option.map_map, Option.map_eq_some_iff, Function.comp_apply]
  constructor
  · rintro ⟨position, ⟨entry, entryAt, equal⟩, _, otherAt, rfl⟩
    cases entryAt.symm.trans otherAt
    exact ⟨entry, List.mem_of_getElem? entryAt, equal, rfl⟩
  · rintro ⟨entry, member, equal, rfl⟩
    obtain ⟨position, entryAt⟩ := List.getElem?_of_mem member
    exact ⟨position, ⟨entry, entryAt, equal⟩, entry, entryAt, rfl⟩

/-- Whatever the comparison, what is found is under a key that compares equal. -/
theorem mem_keys_of_get {table : Table κ ν} {value} (found : table.get cmp = some value) :
    ∃ key ∈ table.keys, cmp key = .eq := by
  obtain ⟨_, searched, _⟩ := Option.bind_eq_some_iff.mp found
  simp only [search] at searched
  split at searched
  next equal =>
      obtain ⟨key, keyAt, same⟩ := Option.map_eq_some_iff.mp equal
      exact ⟨key, List.mem_of_getElem? keyAt, same⟩
  next => cases searched

/-- A comparison that is the order of the keys meets the contract of the search. -/
theorem ordered_of_compare [Std.TransOrd κ] (table : Table κ ν) {key}
    (agrees : ∀ entry ∈ table.entries, cmp entry.1 = compare entry.1 key) : Ordered cmp table.keys := by
  intro i j left right before leftAt rightAt notGreater
  simp only [keys, List.getElem?_map, Option.map_eq_some_iff] at leftAt rightAt
  obtain ⟨_, firstAt, rfl⟩ := leftAt
  obtain ⟨_, secondAt, rfl⟩ := rightAt
  obtain ⟨inside, rfl⟩ := List.getElem?_eq_some_iff.mp firstAt
  obtain ⟨insideToo, rfl⟩ := List.getElem?_eq_some_iff.mp secondAt
  have less := List.pairwise_iff_getElem.mp table.sorted i j inside insideToo before
  rw [agrees _ (List.getElem_mem _)] at notGreater ⊢
  exact Std.TransCmp.lt_of_lt_of_isLE less (Ordering.isLE_iff_ne_gt.mpr notGreater)

/-- A table made from a map answers as the map does, for every key that the
    comparison treats as the order of the keys does. -/
theorem get_ofMap [Std.TransOrd κ] [Std.LawfulEqOrd κ] {map : Std.ExtTreeMap κ ν} {key}
    (agrees : ∀ entry ∈ (ofMap map).entries, cmp entry.1 = compare entry.1 key) : (ofMap map).get cmp = map[key]? := by
  ext value
  rw [get_eq_some_iff (ordered_of_compare _ agrees), ← Std.ExtTreeMap.mem_toList_iff_getElem?_eq_some]
  constructor
  · rintro ⟨⟨_, _⟩, member, equal, rfl⟩
    rw [agrees _ member] at equal
    cases Std.LawfulEqOrd.eq_of_compare equal
    exact member
  · intro member
    exact ⟨(key, value), member, (agrees _ member).trans Std.ReflOrd.compare_self, rfl⟩

theorem get_eq_none_of_greater {table : Table κ ν} (greater : ∀ entry ∈ table.entries, cmp entry.1 = .gt) :
    table.get cmp = none := by
  have ordered : Ordered cmp table.keys := by
    intro i j left right before leftAt rightAt notGreater
    simp only [keys, List.getElem?_map, Option.map_eq_some_iff] at rightAt
    obtain ⟨entry, entryAt, rfl⟩ := rightAt
    exact absurd (greater entry (List.mem_of_getElem? entryAt)) notGreater
  rw [Option.eq_none_iff_forall_ne_some]
  intro value found
  obtain ⟨entry, member, equal, rfl⟩ := (get_eq_some_iff ordered value).mp found
  cases equal.symm.trans (greater entry member)

end Table

end BinarySearch
