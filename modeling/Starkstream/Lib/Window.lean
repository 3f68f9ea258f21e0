import Mathlib.Data.List.Range

/-! # Loops with a bounded queue

A queue with a capacity, and a loop that has at most that many jobs under way: it
fills the queue, then takes the oldest job and puts a new one until every job was
put, then empties the queue.  If nothing fails, the jobs are taken in the order of
their making, no job is put into a full queue and none is taken from an empty one.
-/

structure BoundedQueue (α : Type) where
  capacity : Nat
  items : List α
  bounded : items.length ≤ capacity

namespace BoundedQueue

variable {α : Type}

def new (capacity : Nat) : BoundedQueue α := ⟨capacity, [], Nat.zero_le _⟩

/-- Put an item at the end; a full queue does not take it. -/
def pushBack (queue : BoundedQueue α) (item : α) : Option (BoundedQueue α) :=
  if room : queue.items.length < queue.capacity then
    some ⟨queue.capacity, queue.items ++ [item], List.length_append.trans_le room⟩
  else none

def next : BoundedQueue α → Option (α × BoundedQueue α)
  | ⟨_, [], _⟩ => none
  | ⟨capacity, item :: items, bounded⟩ => some (item, ⟨capacity, items, Nat.le_of_succ_le bounded⟩)

theorem pushBack_room {queue : BoundedQueue α} (item : α) (room : queue.items.length < queue.capacity) :
    ∃ after, queue.pushBack item = some after ∧ after.capacity = queue.capacity ∧ after.items = queue.items ++ [item] :=
  ⟨_, dif_pos room, rfl, rfl⟩

theorem next_cons {queue : BoundedQueue α} {item rest} (isItems : queue.items = item :: rest) :
    ∃ after, queue.next = some (item, after) ∧ after.capacity = queue.capacity ∧ after.items = rest := by
  obtain ⟨_, _, _⟩ := queue
  subst isItems
  exact ⟨_, rfl, rfl, rfl⟩

end BoundedQueue

namespace Window

/-- `for _ in 0..count`. -/
def times {ε β : Type} (body : β → Except ε β) : Nat → β → Except ε β
  | 0, state => .ok state
  | count + 1, state => do times body count (← body state)

theorem times_reaches {ε β : Type} (body : β → Except ε β) (count : Nat) (Holds : Nat → β → Prop)
    (step : ∀ round < count, ∀ state, Holds round state → ∃ after, body state = .ok after ∧ Holds (round + 1) after)
    {state} (start : Holds 0 state) : ∃ last, times body count state = .ok last ∧ Holds count last := by
  induction count generalizing Holds state with
  | zero => exact ⟨state, rfl, start⟩
  | succ count ih =>
    obtain ⟨_, made, holds⟩ := step 0 (Nat.succ_pos _) state start
    obtain ⟨last, rest, reached⟩ := ih (fun round => Holds (round + 1))
      (fun round lower => step (round + 1) (Nat.succ_lt_succ lower)) holds
    refine ⟨last, ?_, reached⟩
    rw [times, made]
    exact rest

/-- The queue, the place from which the next job is made, and what was made of the jobs taken. -/
structure Buffer (α σ τ : Type) where
  queue : BoundedQueue α
  source : σ
  sink : τ

/-- How jobs are made and what is done with their results, while new jobs are put
    (`slide`) and when all were put (`drain`). -/
structure Loop (ε α σ τ : Type) where
  job : σ → α
  advance : σ → Except ε σ
  slide : σ → τ → α → Except ε τ
  drain : σ → τ → α → Except ε τ
  full : ε
  empty : ε

namespace Loop

variable {ε α σ τ : Type} (loop : Loop ε α σ τ)

def push (buffer : Buffer α σ τ) : Except ε (Buffer α σ τ) :=
  match buffer.queue.pushBack (loop.job buffer.source) with
  | none => .error loop.full
  | some queue => do
      let source ← loop.advance buffer.source
      return { buffer with queue, source }

def pop (add : σ → τ → α → Except ε τ) (buffer : Buffer α σ τ) : Except ε (Buffer α σ τ) :=
  match buffer.queue.next with
  | none => .error loop.empty
  | some (item, queue) => do
      let sink ← add buffer.source buffer.sink item
      return { buffer with queue, sink }

def popPush (buffer : Buffer α σ τ) : Except ε (Buffer α σ τ) := do
  loop.push (← loop.pop loop.slide buffer)

/-- The middle of the loop, when there are more jobs than fit into the queue. -/
def move (size capacity : Nat) (buffer : Buffer α σ τ) : Except ε (Buffer α σ τ) :=
  if capacity < size then times loop.popPush (size - capacity) buffer else .ok buffer

/-- The loop over `size` jobs with a queue of the given capacity. -/
def run (size capacity : Nat) (source : σ) (sink : τ) : Except ε (Buffer α σ τ) := do
  let buffer ← times loop.push capacity ⟨.new capacity, source, sink⟩
  let buffer ← loop.move size capacity buffer
  times (loop.pop loop.drain) capacity buffer

/-- The loop without a queue: the places from which the jobs are made, and what is
    made of the jobs one after the other. -/
structure Plain (size capacity : Nat) (sources : Nat → σ) (sinks : Nat → τ) : Prop where
  advances : ∀ round < size, loop.advance (sources round) = .ok (sources (round + 1))
  slides : ∀ round, round + capacity < size →
    ∀ source, loop.slide source (sinks round) (loop.job (sources round)) = .ok (sinks (round + 1))
  drains : ∀ round < size, size ≤ round + capacity →
    ∀ source, loop.drain source (sinks round) (loop.job (sources round)) = .ok (sinks (round + 1))

/-- After so many jobs were taken and put. -/
structure At (capacity : Nat) (sources : Nat → σ) (sinks : Nat → τ) (taken put : Nat) (buffer : Buffer α σ τ) : Prop where
  isCapacity : buffer.queue.capacity = capacity
  items : buffer.queue.items = (List.range' taken (put - taken)).map fun round => loop.job (sources round)
  source : buffer.source = sources put
  sink : buffer.sink = sinks taken

variable {loop} {size capacity taken put : Nat} {sources : Nat → σ} {sinks : Nat → τ} {buffer : Buffer α σ τ}

theorem At.push (place : loop.At capacity sources sinks taken put buffer) (ordered : taken ≤ put)
    (room : put < taken + capacity) (advances : loop.advance (sources put) = .ok (sources (put + 1))) :
    ∃ after, loop.push buffer = .ok after ∧ loop.At capacity sources sinks taken (put + 1) after := by
  have notFull : buffer.queue.items.length < buffer.queue.capacity := by
    rw [place.items, place.isCapacity, List.length_map, List.length_range']
    omega
  obtain ⟨queue, pushed, isCapacity, items⟩ := BoundedQueue.pushBack_room (loop.job buffer.source) notFull
  refine ⟨{ buffer with queue, source := sources (put + 1) }, ?_, isCapacity.trans place.isCapacity, ?_, rfl, place.sink⟩
  · rw [Loop.push, pushed, place.source, advances]
    rfl
  · have onePast : put + 1 - taken = put - taken + 1 := by omega
    have last : taken + 1 * (put - taken) = put := by omega
    rw [items, place.items, place.source, onePast, List.range'_concat, List.map_append, last]
    rfl

theorem At.pop (place : loop.At capacity sources sinks taken put buffer) (some : taken < put) {add}
    (adds : add buffer.source (sinks taken) (loop.job (sources taken)) = .ok (sinks (taken + 1))) :
    ∃ after, loop.pop add buffer = .ok after ∧ loop.At capacity sources sinks (taken + 1) put after := by
  have oneLess : put - taken = put - (taken + 1) + 1 := by omega
  have isItems := place.items
  rw [oneLess, List.range'_succ, List.map_cons] at isItems
  obtain ⟨queue, taken, isCapacity, items⟩ := BoundedQueue.next_cons isItems
  refine ⟨{ buffer with queue, sink := _ }, ?_, isCapacity.trans place.isCapacity, items, place.source, rfl⟩
  rw [Loop.pop, taken, place.sink]
  simp only [adds]
  rfl

namespace Plain

variable (plain : loop.Plain size capacity sources sinks)
include plain

theorem fill (bound : capacity ≤ size) :
    ∃ filled, times loop.push capacity ⟨.new capacity, sources 0, sinks 0⟩ = .ok filled ∧
      loop.At capacity sources sinks 0 capacity filled := by
  have start : loop.At capacity sources sinks 0 0 ⟨.new capacity, sources 0, sinks 0⟩ := ⟨rfl, rfl, rfl, rfl⟩
  apply times_reaches loop.push capacity (fun round => loop.At capacity sources sinks 0 round) _ start
  intro round lower buffer place
  exact place.push (Nat.zero_le _) (by omega) (plain.advances round (by omega))

theorem popPush (positive : 0 < capacity) {round} (more : round + capacity < size)
    (place : loop.At capacity sources sinks round (round + capacity) buffer) :
    ∃ after, loop.popPush buffer = .ok after ∧
      loop.At capacity sources sinks (round + 1) (round + 1 + capacity) after := by
  obtain ⟨_, pops, there⟩ := place.pop (by omega) (plain.slides round more _)
  obtain ⟨after, pushes, next⟩ := there.push (by omega) (by omega) (plain.advances _ more)
  rw [Nat.add_right_comm] at next
  refine ⟨after, ?_, next⟩
  rw [Loop.popPush, pops]
  exact pushes

theorem move (positive : 0 < capacity) (bound : capacity ≤ size)
    (full : loop.At capacity sources sinks 0 capacity buffer) :
    ∃ moved, loop.move size capacity buffer = .ok moved ∧
      loop.At capacity sources sinks (size - capacity) size moved := by
  rw [Loop.move]
  by_cases more : capacity < size
  · rw [if_pos more]
    have start : loop.At capacity sources sinks 0 (0 + capacity) buffer := by rwa [Nat.zero_add]
    obtain ⟨moved, moves, place⟩ := times_reaches loop.popPush (size - capacity)
      (fun round => loop.At capacity sources sinks round (round + capacity))
      (fun round lower _ place => plain.popPush positive (by omega) place) start
    rw [Nat.sub_add_cancel bound] at place
    exact ⟨moved, moves, place⟩
  · obtain rfl : capacity = size := by omega
    rw [if_neg more, Nat.sub_self]
    exact ⟨buffer, rfl, full⟩

theorem empty (bound : capacity ≤ size) (allPut : loop.At capacity sources sinks (size - capacity) size buffer) :
    ∃ last, times (loop.pop loop.drain) capacity buffer = .ok last ∧ loop.At capacity sources sinks size size last := by
  obtain ⟨last, drains, place⟩ := times_reaches (loop.pop loop.drain) capacity
    (fun round => loop.At capacity sources sinks (size - capacity + round) size)
    (fun round lower _ place => place.pop (by omega) (plain.drains _ (by omega) (by omega) _)) allPut
  rw [Nat.sub_add_cancel bound] at place
  exact ⟨last, drains, place⟩

/-- The loop with the queue makes of the jobs what the loop without it makes of them. -/
theorem run (positive : 0 < capacity) (bound : capacity ≤ size) :
    ∃ last, loop.run size capacity (sources 0) (sinks 0) = .ok last ∧ last.sink = sinks size := by
  obtain ⟨_, fills, full⟩ := plain.fill bound
  obtain ⟨_, moves, allPut⟩ := plain.move positive bound full
  obtain ⟨last, drains, place⟩ := plain.empty bound allPut
  refine ⟨last, ?_, place.sink⟩
  rw [Loop.run, fills]
  simp only [bind, Except.bind, moves]
  exact drains

end Plain

end Loop

end Window
