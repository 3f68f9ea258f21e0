import Mathlib.Logic.Basic

/-! # A key-value store with revisions

Every put takes the next revision of the store and stamps its key with it, so a
key that still has the stamp it was read with still has the value it was read
with.  A missing key counts as stamped with zero.

What a reader has learned about a key is a `Snapshot`: it is kept whatever is
put later, and a conditional put that succeeds gives it back.
-/

namespace Versioned

structure Entry (α : Type*) where
  value : α
  modRevision : Nat

structure Store (κ α : Type*) where
  entries : κ → Option (Entry α)
  revision : Nat
  stamped : ∀ key entry, entries key = some entry → 0 < entry.modRevision ∧ entry.modRevision ≤ revision

namespace Store

variable {κ α : Type*} (store : Store κ α)

def empty : Store κ α := ⟨fun _ => none, 0, by simp⟩

def value (key : κ) : Option α := (store.entries key).map Entry.value

def modRevision (key : κ) : Nat := (store.entries key).elim 0 Entry.modRevision

theorem modRevision_le (key : κ) : store.modRevision key ≤ store.revision := by
  unfold modRevision
  cases search : store.entries key with
  | none => exact Nat.zero_le _
  | some entry => exact (store.stamped key entry search).2

variable [DecidableEq κ]

def put (key : κ) (value : α) : Store κ α where
  entries other := if other = key then some ⟨value, store.revision + 1⟩ else store.entries other
  revision := store.revision + 1
  stamped := by
    intro other entry search
    by_cases same : other = key
    · rw [if_pos same, Option.some.injEq] at search
      subst search
      exact ⟨Nat.succ_pos _, Nat.le_refl _⟩
    · rw [if_neg same] at search
      obtain ⟨positive, bounded⟩ := store.stamped other entry search
      exact ⟨positive, Nat.le_succ_of_le bounded⟩

@[simp] theorem value_put_self (key : κ) (value : α) : (store.put key value).value key = some value := by
  simp [Store.value, put]

@[simp] theorem modRevision_put_self (key : κ) (value : α) :
    (store.put key value).modRevision key = store.revision + 1 := by
  simp [modRevision, put]

theorem entries_put_of_ne {key other} (value : α) (different : other ≠ key) :
    (store.put key value).entries other = store.entries other :=
  if_neg different

theorem value_put_of_ne {key other} (value : α) (different : other ≠ key) :
    (store.put key value).value other = store.value other := by
  rw [Store.value, Store.value, store.entries_put_of_ne value different]

/-- Put the value if the key still has the given stamp, in one transaction. -/
def putIfModRevision (key : κ) (value : α) (revision : Nat) : Store κ α × Bool :=
  if store.modRevision key = revision then (store.put key value, true) else (store, false)

end Store

variable {κ α : Type*} {store : Store κ α} {key : κ} {revision : Nat} {Learned : Option α → Prop}

/-- `Learned` is true of the value of the key for as long as the stamp is the one
    that was read. -/
structure Snapshot (store : Store κ α) (key : κ) (revision : Nat) (Learned : Option α → Prop) : Prop where
  bounded : revision ≤ store.revision
  valid : store.modRevision key = revision → Learned (store.value key)

namespace Snapshot

theorem taken (read : store.modRevision key = revision) (learned : Learned (store.value key)) :
    Snapshot store key revision Learned :=
  ⟨read ▸ store.modRevision_le key, fun _ => learned⟩

variable [DecidableEq κ]

theorem put (snapshot : Snapshot store key revision Learned) (other : κ) (value : α) :
    Snapshot (store.put other value) key revision Learned := by
  have bounded := snapshot.bounded
  refine ⟨Nat.le_succ_of_le bounded, fun same => ?_⟩
  by_cases here : key = other
  · -- The new stamp is larger than any revision that was read before.
    subst here
    rw [Store.modRevision_put_self] at same
    omega
  · rw [store.value_put_of_ne value here]
    refine snapshot.valid ?_
    rwa [Store.modRevision, store.entries_put_of_ne value here] at same

end Snapshot

end Versioned
