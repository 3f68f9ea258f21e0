import Mathlib.Data.List.Basic

/-! # Following one value through a queue of events

A store keeps a value, a mirror holds a copy of it, and a queue carries the events
that the mirror has not handled yet.  `select` says what an event makes of the
value, if it is about this value at all.  The mirror tracks the store when
handling the whole queue would give it the stored value.

The rules follow the life of a queue: it is opened empty, writes append to it, the
mirror takes events from its front, and an empty queue leaves the stored value.
-/

namespace Watch

variable {ε α : Type*} {select : ε → Option α} {queue later : List ε} {held stored : Option α}

/-- The value that the last event about it carries. -/
def lastOf (select : ε → Option α) (queue : List ε) : Option α := (queue.filterMap select).getLast?

theorem lastOf_cons (event : ε) (rest : List ε) :
    lastOf select (event :: rest) = (lastOf select rest).or (select event) := by
  cases carried : select event with
  | none => simp [lastOf, carried]
  | some =>
    cases search : (rest.filterMap select).getLast? with
    | none | some => simp [lastOf, carried, List.getLast?_cons, search]

theorem lastOf_append : lastOf select (queue ++ later) = (lastOf select later).or (lastOf select queue) := by
  simp only [lastOf, List.filterMap_append, List.getLast?_append]

/-- Handling the whole queue turns the held value into the stored one. -/
def Tracks (select : ε → Option α) (held : Option α) (queue : List ε) (stored : Option α) : Prop :=
  (lastOf select queue).or held = stored

namespace Tracks

theorem opened (same : held = stored) : Tracks select held [] stored := same

theorem settled (tracks : Tracks select held [] stored) : held = stored := tracks

theorem written (tracks : Tracks select held queue stored) :
    Tracks select held (queue ++ later) ((lastOf select later).or stored) := by
  simp only [Tracks, lastOf_append, Option.or_assoc]
  exact congrArg _ tracks

theorem taken {event} (tracks : Tracks select held (event :: queue) stored) :
    Tracks select ((select event).or held) queue stored := by
  simpa only [Tracks, lastOf_cons, Option.or_assoc] using tracks

variable (tracks : Tracks select held queue stored)
include tracks

/-- When no event is left, the held value is the stored one. -/
theorem of_lastOf_none (quiet : lastOf select queue = none) : held = stored := by
  simpa only [Tracks, quiet, Option.none_or] using tracks

/-- When an event is left, the held value does not matter. -/
theorem forget {value} (carried : lastOf select queue = some value) (other : Option α) :
    Tracks select other queue stored := by
  simpa only [Tracks, carried, Option.some_or] using tracks

/-- Holding the stored value already is as good as what is held. -/
theorem current : Tracks select stored queue stored := by
  cases carried : lastOf select queue with
  | none => simp only [Tracks, carried, Option.none_or]
  | some => exact tracks.forget carried stored

end Tracks

end Watch
