import Starkstream.DataStream.Stream

/-! # The client of a data stream

A client keeps the blocks it is sent, and drops those above the cursor of an
`Invalidate`.  The cursor of a message can name a block without its hash, so the
client keeps the header that comes with the data.
-/

namespace Starkstream

structure Client where
  /-- The starting cursor, or the cursor of the last `Data` or `Invalidate`. -/
  position : Option Cursor
  first : Nat
  blocks : List Cursor

namespace Client

def nextNumber (startingBlock : Nat) (position : Option Cursor) : Nat :=
  position.elim startingBlock (·.number + 1)

def start (startingBlock : Nat) (starting : Option Cursor) : Client :=
  { position := starting, first := nextNumber startingBlock starting, blocks := [] }

def receive (client : Client) : Message → Client
  | .data _ endCursor block _ _ =>
    { client with position := some endCursor, blocks := client.blocks ++ [block] }
  | .invalidate cursor =>
    { position := some cursor
      first := min client.first (cursor.number + 1)
      blocks := client.blocks.filter (·.number ≤ cursor.number) }
  | .finalize _ => client

def after (client : Client) (messages : List Message) : Client := messages.foldl receive client

/-- A `Data` message is for the block after the position of the client, and its
    cursor names the block that comes with it. -/
def Accepts (startingBlock : Nat) (client : Client) : Message → Prop
  | .data _ endCursor block _ _ => endCursor.number = nextNumber startingBlock client.position ∧
      block.number = endCursor.number ∧ (endCursor.hash = block.hash ∨ endCursor.hash.isEmpty = true)
  | _ => True

def Follows (startingBlock : Nat) : Client → List Message → Prop
  | _, [] => True
  | client, message :: rest =>
    client.Accepts startingBlock message ∧ (client.receive message).Follows startingBlock rest

@[simp] theorem after_nil (client : Client) : client.after [] = client := rfl

@[simp] theorem after_append (client : Client) (earlier later : List Message) :
    client.after (earlier ++ later) = (client.after earlier).after later := List.foldl_append

@[simp] theorem after_cons (client : Client) (message : Message) (rest : List Message) :
    client.after (message :: rest) = (client.receive message).after rest := rfl

theorem follows_append {startingBlock} {client : Client} {earlier later} :
    client.Follows startingBlock (earlier ++ later) ↔
      client.Follows startingBlock earlier ∧ (client.after earlier).Follows startingBlock later := by
  induction earlier generalizing client with
  | nil => simp [Follows]
  | cons message rest ih => simp only [List.cons_append, Follows, ih, after_cons, and_assoc]

theorem filter_range' (start count last : Nat) :
    (List.range' start count).filter (· ≤ last) = List.range' start (min count (last + 1 - start)) := by
  have split : count = min count (last + 1 - start) + (count - min count (last + 1 - start)) := by omega
  generalize kept : min count (last + 1 - start) = length at split
  rw [split, ← List.range'_append_1, List.filter_append, List.filter_eq_self.mpr, List.filter_eq_nil_iff.mpr,
    List.append_nil]
  · intro number among
    rw [List.mem_range'_1] at among
    simp only [decide_eq_true_eq]
    omega
  · intro number among
    rw [List.mem_range'_1] at among
    simp only [decide_eq_true_eq]
    omega

/-- The client holds the blocks from `first` to its position, each once and in
    order. -/
structure Counted (startingBlock : Nat) (client : Client) : Prop where
  numbers : client.blocks.map (·.number) = List.range' client.first client.blocks.length
  next : nextNumber startingBlock client.position = client.first + client.blocks.length

namespace Counted

variable {startingBlock : Nat} {client : Client}

theorem start (startingBlock : Nat) (starting : Option Cursor) :
    (Client.start startingBlock starting).Counted startingBlock := ⟨rfl, rfl⟩

variable (counted : client.Counted startingBlock)
include counted

theorem number_at {i block} (found : client.blocks[i]? = some block) : block.number = client.first + i := by
  have inside := (List.getElem?_eq_some_iff.mp found).1
  have number : (client.blocks.map (·.number))[i]? = some block.number := by
    rw [List.getElem?_map, found]
    rfl
  rw [counted.numbers, List.getElem?_range' inside, Nat.one_mul] at number
  exact (Option.some.inj number).symm

theorem below_next {block} (member : block ∈ client.blocks) :
    block.number < nextNumber startingBlock client.position := by
  obtain ⟨i, found⟩ := List.getElem?_of_mem member
  have inside := (List.getElem?_eq_some_iff.mp found).1
  have number := counted.number_at found
  have next := counted.next
  omega

theorem data {cursor endCursor block finality production}
    (accepted : client.Accepts startingBlock (.data cursor endCursor block finality production)) :
    (client.receive (.data cursor endCursor block finality production)).Counted startingBlock := by
  obtain ⟨number, same, -⟩ := accepted
  have next := counted.next
  constructor
  · simp only [receive, List.map_append, counted.numbers, List.map_cons, List.map_nil, List.length_append,
      List.length_singleton, List.range'_concat, Nat.one_mul]
    rw [same, number, next]
  · simp only [receive, nextNumber, Option.elim_some, List.length_append, List.length_singleton]
    omega

theorem invalidate {held target : Cursor} (position : client.position = some held) (lower : target.number < held.number) :
    (client.receive (.invalidate target)).Counted startingBlock := by
  have next := counted.next
  rw [position, nextNumber, Option.elim_some] at next
  have numbers : (client.blocks.filter (·.number ≤ target.number)).map (·.number) =
      List.range' client.first (min client.blocks.length (target.number + 1 - client.first)) := by
    rw [← filter_range', ← counted.numbers, List.filter_map]
    rfl
  have length : (client.blocks.filter (·.number ≤ target.number)).length =
      min client.blocks.length (target.number + 1 - client.first) := by
    simpa using congrArg List.length numbers
  constructor
  · simp only [receive]
    rw [length, numbers]
    by_cases inside : client.first ≤ target.number + 1
    · rw [Nat.min_eq_left inside]
    · have none : min client.blocks.length (target.number + 1 - client.first) = 0 := by omega
      rw [none, List.range'_zero, List.range'_zero]
  · simp only [receive, nextNumber, Option.elim_some, length]
    omega

end Counted

end Client

end Starkstream
