import Starkstream.Ingestion.Service

/-! # The node

The chain of the node that the service reads from, how it changes, and what the
node answers while it does not change.  A node never reorgs its own finalized
block.
-/

namespace Starkstream

open IngestionService

/-- The chain of the node, from its genesis block to its head. -/
structure RemoteChain where
  hashes : List Hash
  genesisParent : Hash
  nonempty : hashes ≠ []

namespace RemoteChain

def blockAt (chain : RemoteChain) (number : Nat) : Option BlockInfo :=
  chain.hashes[number]?.map fun hash =>
    { number
      hash
      parent := if number = 0 then chain.genesisParent else chain.hashes.getD (number - 1) default }

def head (chain : RemoteChain) : Cursor :=
  ⟨chain.hashes.length - 1, chain.hashes.getLast chain.nonempty⟩

theorem blockAt_head (chain : RemoteChain) :
    ∃ block, chain.blockAt chain.head.number = some block ∧ block.cursor = chain.head := by
  have last : chain.hashes[chain.hashes.length - 1]? = some (chain.hashes.getLast chain.nonempty) := by
    rw [← List.getLast?_eq_getElem?, List.getLast?_eq_some_getLast]
  exact ⟨_, by rw [blockAt, head, last]; rfl, rfl⟩

theorem blockAt_number {chain : RemoteChain} {number block} (found : chain.blockAt number = some block) :
    block.number = number ∧ number ≤ chain.head.number := by
  obtain ⟨_, at_, rfl⟩ := Option.map_eq_some_iff.mp found
  have inside := (List.getElem?_eq_some_iff.mp at_).1
  exact ⟨rfl, Nat.le_sub_one_of_lt inside⟩

/-- What an available node answers to a request for a block. -/
def answer (chain : RemoteChain) (number : Nat) : Answer BlockInfo :=
  match chain.blockAt number with
  | some block => .ok block
  | none => .error ⟨.blockNotFound, []⟩

def poll (chain : RemoteChain) (number : Nat) : RecoverPoll := .answer (chain.answer number)

end RemoteChain

/-- What the node answers while its chain is `chain`.  Requests may fail, and the
    recovery may be cancelled. -/
def IngestionService.RecoverPoll.From (chain : RemoteChain) (number : Nat) : RecoverPoll → Prop
  | .cancelled => True
  | .answer (.ok block) => chain.blockAt number = some block
  | .answer (.error report) => report.isBlockNotFound = true → chain.blockAt number = none

theorem RemoteChain.poll_from (chain : RemoteChain) (number : Nat) :
    (chain.poll number).From chain number := by
  rw [poll, answer]
  cases found : chain.blockAt number with
  | some => exact found
  | none => exact fun _ => found

/-- The node: its chain and the number of its finalized block. -/
structure Node where
  chain : RemoteChain
  finalized : Nat
  inside : finalized < chain.hashes.length

inductive NodeStep where
  | grow (hash : Hash)
  /-- Keep the first blocks and replace the others; the finalized block is kept. -/
  | reorg (keep : Nat) (hashes : List Hash)
  | advanceFinalized (number : Nat)

namespace Node

def hashAt (node : Node) (number : Nat) : Option Hash := node.chain.hashes[number]?

def finalizedCursor (node : Node) : Cursor :=
  ⟨node.finalized, node.chain.hashes.get ⟨node.finalized, node.inside⟩⟩

def step (node : Node) : NodeStep → Option Node
  | .grow hash => some
      { chain := { node.chain with hashes := node.chain.hashes ++ [hash], nonempty := by simp }
        finalized := node.finalized
        inside := by have inside := node.inside; simp only [List.length_append]; omega }
  | .reorg keep hashes =>
    if kept : node.finalized < keep then some
      { chain :=
          { node.chain with
            hashes := node.chain.hashes.take keep ++ hashes
            nonempty := by
              have inside := node.inside
              rw [← List.length_pos_iff, List.length_append, List.length_take]
              omega }
        finalized := node.finalized
        inside := by
          have inside := node.inside
          simp only [List.length_append, List.length_take]
          omega }
    else none
  | .advanceFinalized number =>
    if forward : node.finalized ≤ number ∧ number < node.chain.hashes.length then
      some { node with finalized := number, inside := forward.2 }
    else none

/-- The finalized number only grows, and the blocks up to it stay. -/
structure Later (before after : Node) : Prop where
  forward : before.finalized ≤ after.finalized
  stable : ∀ number ≤ before.finalized, after.hashAt number = before.hashAt number

theorem Later.refl (node : Node) : node.Later node := ⟨le_rfl, fun _ _ => rfl⟩

theorem Later.trans {first second third : Node} (early : first.Later second) (late : second.Later third) :
    first.Later third :=
  ⟨early.forward.trans late.forward, fun number upper =>
    (late.stable number (upper.trans early.forward)).trans (early.stable number upper)⟩

theorem step_later {node next : Node} {event} (stepped : node.step event = some next) : node.Later next := by
  have inside := node.inside
  cases event with
  | grow =>
    cases stepped
    refine ⟨le_rfl, fun number upper => ?_⟩
    exact List.getElem?_append_left (by omega)
  | reorg =>
    simp only [step, Option.dite_none_right_eq_some, Option.some.injEq] at stepped
    obtain ⟨-, rfl⟩ := stepped
    refine ⟨le_rfl, fun number upper => ?_⟩
    simp only [hashAt]
    rw [List.getElem?_append_left (by rw [List.length_take]; omega), List.getElem?_take, if_pos (by omega)]
  | advanceFinalized =>
    simp only [step, Option.dite_none_right_eq_some, Option.some.injEq] at stepped
    obtain ⟨⟨forward, -⟩, rfl⟩ := stepped
    exact ⟨forward, fun _ _ => rfl⟩

end Node

end Starkstream
