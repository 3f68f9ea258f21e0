import Starkstream.Chain.Segment

/-! # Lookups after the loops of the builder

Each loop of the builder walks a list of consecutive block numbers and edits
the map of reorgs as it goes.  The lemmas below say what is found at every
number afterwards; later modules never unfold the loops again.
-/

namespace Starkstream

open Std (ExtTreeMap)

namespace CanonicalChainBuilder

theorem restoreReorgs_get (number : Nat) (blocks : List CanonicalBlock) (reorgs : Reorgs)
    (m : Nat) :
    (restoreReorgs number blocks reorgs)[m]? =
      if number ≤ m ∧ m < number + blocks.length then (blocks[m - number]?).map (·.reorgs)
      else reorgs[m]? := by
  induction blocks generalizing number reorgs with
  | nil =>
    rw [if_neg (by simp only [List.length_nil]; omega)]
    rfl
  | cons block rest ih =>
    simp only [restoreReorgs, ih, List.length_cons]
    rcases Nat.lt_trichotomy m number with before | same | after
    · rw [if_neg (by omega), if_neg (by omega), ExtTreeMap.getElem?_insert,
        if_neg (by simp only [Std.compare_eq_iff_eq]; omega)]
    · subst same
      rw [if_neg (by omega), if_pos (by omega), ExtTreeMap.getElem?_insert, if_pos (by simp)]
      simp only [Nat.sub_self, List.getElem?_cons_zero, Option.map_some]
    · have shifted : m - number = (m - (number + 1)) + 1 := by omega
      rw [shifted, List.getElem?_cons_succ]
      by_cases inside : m < number + (rest.length + 1)
      · rw [if_pos (by omega), if_pos (by omega)]
      · rw [if_neg (by omega), if_neg (by omega), ExtTreeMap.getElem?_insert,
          if_neg (by simp only [Std.compare_eq_iff_eq]; omega)]

theorem recordRemoved_get (newHead : Cursor) (number : Nat) (hashes : List Hash) (reorgs : Reorgs)
    (m : Nat) :
    (recordRemoved newHead number hashes reorgs)[m]? =
      match (if number ≤ m then hashes[m - number]? else none) with
      | some hash => some ((reorgs.getD m ∅).insert hash newHead)
      | none => reorgs[m]? := by
  induction hashes generalizing number reorgs with
  | nil => simp [recordRemoved]
  | cons hash rest ih =>
    simp only [recordRemoved, ih]
    rcases Nat.lt_trichotomy m number with before | same | after
    · rw [if_neg (by omega), if_neg (by omega)]
      simp only [ExtTreeMap.getElem?_insert, Std.compare_eq_iff_eq, if_neg (show ¬ number = m by omega)]
    · subst same
      rw [if_neg (by omega), if_pos (le_refl m)]
      simp only [ExtTreeMap.getElem?_insert_self, Nat.sub_self, List.getElem?_cons_zero]
    · have shifted : m - number = (m - (number + 1)) + 1 := by omega
      have apart : ¬ number = m := by omega
      rw [if_pos (by omega), if_pos (by omega), shifted, List.getElem?_cons_succ]
      simp only [ExtTreeMap.getElem?_insert, ExtTreeMap.getD_insert, Std.compare_eq_iff_eq, if_neg apart]

theorem recordRemoved_getD (newHead : Cursor) (number : Nat) (hashes : List Hash) (reorgs : Reorgs)
    (m : Nat) :
    (recordRemoved newHead number hashes reorgs).getD m ∅ =
      match (if number ≤ m then hashes[m - number]? else none) with
      | some hash => (reorgs.getD m ∅).insert hash newHead
      | none => reorgs.getD m ∅ := by
  rw [ExtTreeMap.getD_eq_getD_getElem?, recordRemoved_get]
  split
  · rfl
  · rw [ExtTreeMap.getD_eq_getD_getElem?]

section
variable (first : Nat) (canonical : List Hash) (reorgs : Reorgs)
include first canonical reorgs

theorem segmentBlocks_get (i : Nat) :
    (segmentBlocks first canonical reorgs)[i]? =
      (canonical[i]?).map (fun hash => ⟨hash, reorgs.getD (first + i) ∅⟩) := by
  simp only [segmentBlocks, List.getElem?_mapIdx]

@[simp] theorem segmentBlocks_length : (segmentBlocks first canonical reorgs).length = canonical.length := by
  simp only [segmentBlocks, List.length_mapIdx]

@[simp] theorem segmentBlocks_hashes : (segmentBlocks first canonical reorgs).map (·.hash) = canonical := by
  apply List.ext_getElem?
  intro i
  rw [List.getElem?_map, segmentBlocks_get, Option.map_map]
  exact Option.map_id'

end

/-- The snapshot reads the map at the numbers of its own blocks only. -/
theorem segmentBlocks_congr {first} {canonical : List Hash} {left right : Reorgs}
    (same : ∀ m, first ≤ m → m < first + canonical.length → left.getD m ∅ = right.getD m ∅) :
    segmentBlocks first canonical left = segmentBlocks first canonical right := by
  apply List.ext_getElem?
  intro i
  simp only [segmentBlocks_get]
  cases at_i : canonical[i]? with
  | none => rfl
  | some =>
    have inside : i < canonical.length := (List.getElem?_eq_some_iff.mp at_i).1
    simp only [Option.map_some, same (first + i) (by omega) (by omega)]

theorem drainBlocks_reorgs (number : Nat) (hashes : List Hash) (reorgs : Reorgs) (m : Nat) :
    (drainBlocks number hashes reorgs).2[m]? =
      if number ≤ m ∧ m < number + hashes.length then none else reorgs[m]? := by
  induction hashes generalizing number reorgs with
  | nil =>
    rw [if_neg (by simp only [List.length_nil]; omega)]
    rfl
  | cons hash rest ih =>
    simp only [drainBlocks, ih, ExtTreeMap.getElem?_erase, Std.compare_eq_iff_eq, List.length_cons]
    by_cases same : number = m
    · subst same
      rw [if_pos (show number ≤ number ∧ number < number + (rest.length + 1) by omega)]
      simp
    · simp only [if_neg same]
      by_cases inside : number ≤ m ∧ m < number + (rest.length + 1)
      · rw [if_pos inside, if_pos (by omega)]
      · rw [if_neg inside, if_neg (by omega)]

/-- Removing the map of one number while draining does not change what is read
    at the next number, so the drained blocks are those of the snapshot. -/
theorem drainBlocks_blocks (number : Nat) (hashes : List Hash) (reorgs : Reorgs) :
    (drainBlocks number hashes reorgs).1 = segmentBlocks number hashes reorgs := by
  induction hashes generalizing number reorgs with
  | nil => rfl
  | cons hash rest ih =>
    have later : segmentBlocks (number + 1) rest (reorgs.erase number) =
        segmentBlocks (number + 1) rest reorgs := by
      apply segmentBlocks_congr
      intro m after _
      simp only [ExtTreeMap.getD_erase, Std.compare_eq_iff_eq, if_neg (show ¬ number = m by omega)]
    simp only [drainBlocks, ih, later]
    simp only [segmentBlocks, List.mapIdx_cons, Nat.add_zero]
    congr 2
    funext offset hash
    rw [Nat.add_right_comm, Nat.add_assoc]

end CanonicalChainBuilder

namespace CanonicalChainSegment

open CanonicalChainBuilder

private theorem find_extra_of_list (entries : List (Nat × ReorgMap)) (last number : Nat)
    (above : number > last) :
    ((entries.filterMap fun entry =>
        if entry.1 > last then some (⟨entry.1, entry.2⟩ : ExtraReorg) else none).find?
          (fun extra => extra.blockNumber = number)).map (·.reorgs) =
      (entries.find? (fun entry => entry.1 = number)).map (·.2) := by
  induction entries with
  | nil => rfl
  | cons entry rest ih =>
    by_cases kept : entry.1 > last
    · simp only [List.filterMap_cons, if_pos kept, List.find?_cons]
      by_cases here : entry.1 = number
      · simp [here]
      · simpa [here] using ih
    · have elsewhere : ¬ entry.1 = number := by omega
      simpa [kept, elsewhere] using ih

private theorem find_toList (reorgs : Reorgs) (number : Nat) :
    (reorgs.toList.find? (fun entry => entry.1 = number)).map (·.2) = reorgs[number]? := by
  cases known : reorgs[number]? with
  | none =>
    rw [Option.map_eq_none_iff, List.find?_eq_none]
    rintro ⟨key, map⟩ member same
    obtain rfl : key = number := by simpa using same
    rw [ExtTreeMap.mem_toList_iff_getElem?_eq_some.mp member] at known
    exact Option.some_ne_none map known
  | some map =>
    have member := ExtTreeMap.mem_toList_iff_getElem?_eq_some.mpr known
    obtain ⟨entry, found⟩ : ∃ entry, reorgs.toList.find? (fun entry => entry.1 = number) = some entry := by
      rw [← Option.isSome_iff_exists, List.find?_isSome]
      exact ⟨(number, map), member, by simp⟩
    have key : entry.1 = number := by simpa using List.find?_some found
    have value := ExtTreeMap.mem_toList_iff_getElem?_eq_some.mp (List.mem_of_find?_eq_some found)
    rw [key, known] at value
    rw [found, Option.map_some, Option.some.inj value]

/-- Above the last block a snapshot answers from the map of the builder. -/
theorem findExtra_snapshot (state : Building) {segment}
    (taken : CanonicalChainBuilder.currentSegment (.building state) = .ok segment) {number}
    (above : number > state.info.lastBlock.number) : segment.findExtra number = state.reorgs[number]? := by
  cases taken
  exact (find_extra_of_list _ _ _ above).trans (find_toList _ _)

end CanonicalChainSegment

end Starkstream
