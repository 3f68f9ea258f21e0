import Mathlib.Data.List.Basic
import Mathlib.Logic.Function.Basic

/-! # Locks that are held through a lease

A lock is held by a lease and is free again once the lease expires, whatever its
holder is doing then.  Leases are numbered in the order in which they got the
lock, and the operations on the resource that the lock protects are logged with
the lease they were made under.

`Orderly` is the invariant of the runs in which a lease only expires after its
session ended: operations are logged in the order of their leases.
-/

namespace Lease

variable {ι ω : Type*}

structure Lock where
  holder : Option Nat
  /-- How many leases held it so far. -/
  granted : Nat

namespace Lock

def free : Lock := ⟨none, 0⟩

def acquire (lock : Lock) : Option Lock :=
  match lock.holder with
  | none => some ⟨some lock.granted, lock.granted + 1⟩
  | some _ => none

def expire (lock : Lock) : Lock := { lock with holder := none }

/-- Releasing a lock that is held by another lease does nothing. -/
def release (lock : Lock) (lease : Nat) : Lock :=
  if lock.holder = some lease then lock.expire else lock

end Lock

/-- The lock, the leases of the sessions that are still going on and the log. -/
structure Orderly (lock : Lock) (sessions : ι → Option Nat) (log : List (Nat × ω)) : Prop where
  holds : ∀ client lease, sessions client = some lease → lock.holder = some lease
  single : ∀ client other lease, sessions client = some lease → sessions other = some lease → client = other
  newest : ∀ lease, lock.holder = some lease → lease + 1 = lock.granted
  past : ∀ entry ∈ log, entry.1 < lock.granted
  ordered : log.Pairwise fun earlier later => earlier.1 ≤ later.1

namespace Orderly

variable {lock after : Lock} {sessions : ι → Option Nat} {log : List (Nat × ω)}

theorem free : Orderly Lock.free (fun _ : ι => none) ([] : List (Nat × ω)) :=
  ⟨nofun, nofun, nofun, nofun, .nil⟩

theorem expire (orderly : Orderly lock sessions log)
    (ended : ∀ client lease, sessions client = some lease → lock.holder ≠ some lease) :
    Orderly lock.expire sessions log :=
  ⟨fun client lease going => absurd (orderly.holds client lease going) (ended client lease going),
    orderly.single, nofun, orderly.past, orderly.ordered⟩

theorem record (orderly : Orderly lock sessions log) {client lease} (going : sessions client = some lease)
    (operation : ω) : Orderly lock sessions (log ++ [(lease, operation)]) := by
  have newest := orderly.newest lease (orderly.holds client lease going)
  refine ⟨orderly.holds, orderly.single, orderly.newest, fun entry member => ?_, ?_⟩
  · rcases List.mem_append.mp member with earlier | new
    · exact orderly.past entry earlier
    · obtain rfl := List.mem_singleton.mp new
      exact newest ▸ Nat.lt_succ_self lease
  · refine List.pairwise_append.mpr ⟨orderly.ordered, List.pairwise_singleton .., fun entry member new isNew => ?_⟩
    obtain rfl := List.mem_singleton.mp isNew
    have before := orderly.past entry member
    show entry.1 ≤ lease
    omega

variable [DecidableEq ι]

theorem update_eq_some {client other session lease} (going : Function.update sessions client session other = some lease) :
    other = client ∧ session = some lease ∨ other ≠ client ∧ sessions other = some lease := by
  by_cases same : other = client
  · rw [same, Function.update_self] at going
    exact .inl ⟨same, going⟩
  · rw [Function.update_of_ne same] at going
    exact .inr ⟨same, going⟩

variable (orderly : Orderly lock sessions log)
include orderly

theorem acquire (acquired : lock.acquire = some after) (client : ι) :
    Orderly after (Function.update sessions client (some lock.granted)) log := by
  unfold Lock.acquire at acquired
  split at acquired
  case _ isFree =>
    cases acquired
    -- Nobody else is in a session, since nobody holds the lock.
    have nobody : ∀ other lease, sessions other ≠ some lease := fun other lease going => by
      cases isFree.symm.trans (orderly.holds other lease going)
    refine ⟨fun other lease going => ?_, fun first second lease isFirst isSecond => ?_, ?_, ?_, orderly.ordered⟩
    · rcases update_eq_some going with ⟨-, same⟩ | ⟨-, going⟩
      · exact same
      · exact absurd going (nobody other lease)
    · rcases update_eq_some isFirst with ⟨rfl, -⟩ | ⟨-, going⟩
      · rcases update_eq_some isSecond with ⟨rfl, -⟩ | ⟨-, going⟩
        · rfl
        · exact absurd going (nobody second lease)
      · exact absurd going (nobody first lease)
    · rintro lease ⟨⟩
      rfl
    · exact fun entry member => Nat.lt_succ_of_lt (orderly.past entry member)
  · cases acquired

theorem ended (client : ι) : Orderly lock (Function.update sessions client none) log := by
  have going : ∀ other lease, Function.update sessions client none other = some lease →
      sessions other = some lease := by
    intro other lease later
    rcases update_eq_some later with ⟨-, none⟩ | ⟨-, going⟩
    · cases none
    · exact going
  exact ⟨fun other lease later => orderly.holds other lease (going other lease later),
    fun first second lease isFirst isSecond =>
      orderly.single first second lease (going first lease isFirst) (going second lease isSecond),
    orderly.newest, orderly.past, orderly.ordered⟩

theorem release {client lease} (going : sessions client = some lease) :
    Orderly (lock.release lease) (Function.update sessions client none) log := by
  rw [Lock.release, if_pos (orderly.holds client lease going)]
  refine (orderly.ended client).expire fun other kept later held => ?_
  rcases update_eq_some later with ⟨-, none⟩ | ⟨differs, stays⟩
  · cases none
  · obtain rfl := Option.some.inj (held.symm.trans (orderly.holds client lease going))
    exact differs (orderly.single other client kept stays going)

end Orderly

end Lease
