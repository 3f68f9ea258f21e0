import Mathlib.Data.List.Pairwise
import Mathlib.Data.List.Range

/-! # Ascending scans

The numbers that a scan has gone through so far: in ascending order, below the
place it has reached, and with every number among them that is wanted.  A scan
goes on by a further scan from that place, of which the numbers before a given
first one may be left out.
-/

/-- `numbers` is what a scan from `first` to `next` has found. -/
structure Scan (Wanted : Nat → Prop) (first next : Nat) (numbers : List Nat) : Prop where
  ordered : numbers.Pairwise (· < ·)
  lower : ∀ number ∈ numbers, first ≤ number
  upper : ∀ number ∈ numbers, number < next
  complete : ∀ number, first ≤ number → number < next → Wanted number → number ∈ numbers

namespace Scan

variable {Wanted : Nat → Prop} {first next later : Nat} {numbers more : List Nat}

theorem nil (before : next ≤ first) : Scan Wanted first next [] :=
  ⟨.nil, nofun, nofun, fun number lower upper => by omega⟩

theorem range' (first count : Nat) : Scan Wanted first (first + count) (List.range' first count) where
  ordered := List.pairwise_lt_range'
  lower number among := (List.mem_range'_1.mp among).1
  upper number among := (List.mem_range'_1.mp among).2
  complete number lower upper _ := List.mem_range'_1.mpr ⟨lower, upper⟩

/-- The numbers of a range that are chosen, if every wanted one is. -/
theorem filter_range' (first count : Nat) {chosen}
    (choosesWanted : ∀ number, first ≤ number → number < first + count → Wanted number → chosen number = true) :
    Scan Wanted first (first + count) ((List.range' first count).filter chosen) where
  ordered := List.Pairwise.filter _ List.pairwise_lt_range'
  lower number among := (List.mem_range'_1.mp (List.mem_filter.mp among).1).1
  upper number among := (List.mem_range'_1.mp (List.mem_filter.mp among).1).2
  complete number lower upper wanted :=
    List.mem_filter.mpr ⟨List.mem_range'_1.mpr ⟨lower, upper⟩, choosesWanted number lower upper wanted⟩

theorem extend (scan : Scan Wanted first next numbers) (further : Scan Wanted next later more) (onward : next ≤ later) :
    Scan Wanted first later (numbers ++ more.filter (first ≤ ·)) where
  ordered := by
    refine List.pairwise_append.mpr ⟨scan.ordered, further.ordered.filter _, fun left isLeft right isRight => ?_⟩
    exact (scan.upper left isLeft).trans_le (further.lower right (List.mem_filter.mp isRight).1)
  lower number among := by
    rcases List.mem_append.mp among with old | new
    · exact scan.lower number old
    · exact of_decide_eq_true (List.mem_filter.mp new).2
  upper number among := by
    rcases List.mem_append.mp among with old | new
    · exact (scan.upper number old).trans_le onward
    · exact further.upper number (List.mem_filter.mp new).1
  complete number lower upper wanted := by
    by_cases old : number < next
    · exact List.mem_append_left _ (scan.complete number lower old wanted)
    · refine List.mem_append_right _ (List.mem_filter.mpr ⟨?_, decide_eq_true lower⟩)
      exact further.complete number (by omega) upper wanted

end Scan
