import Starkstream.ChainView.Sync
import Starkstream.ChainView.Waiting

/-! # Tasks on a view that is kept in sync

The sync service is the only caller of the setters of the view.  Here it runs
beside one of the tasks that read the view: each of its steps calls at most one
setter, and so do the waiters of the task see at most one notification.
-/

namespace Starkstream

/-- The setter that an update other than `Recent` calls. -/
def IngestionStateUpdate.setter : IngestionStateUpdate → Option Setter
  | .finalized block => some (.finalizedBlock block)
  | .pending generation => some (.pendingGeneration generation)
  | .segmented block => some (.segmentedBlock block)
  | .grouped block => some (.groupedBlock block)
  | .startingBlock _ | .recent _ => none

variable {view : ChainView}

namespace ChainViewSync

/-- The setter that the next step of the service calls. -/
def calls (sync : ChainViewSync) : Option Setter :=
  let installs (pointer : RecentSegmentPointer) : Option Setter :=
    match sync.getRecentSnapshot pointer with
    | .ok (some recent) => some (.recent recent)
    | _ => none
  match sync.phase with
  | .streaming _ (update :: _) .idle => update.setter
  | .streaming _ _ (.fetch pointer) => installs pointer
  | .streaming _ _ (.refetch current) => installs current
  | _ => none

/-- What a step does to the view is what `calls` says. -/
theorem advance_view {sync next : ChainViewSync} (visible : sync.phase.view = some view)
    (advanced : sync.advance = some next) : next.phase.view = some (sync.calls.elim view view.set) := by
  cases phase : sync.phase with
  | connecting =>
    simp only [phase, SyncPhase.view, Option.some.injEq] at visible
    simp only [advance, phase, Option.some.injEq] at advanced
    subst visible advanced
    simp only [calls, phase, SyncPhase.view, Option.elim_none]
  | streaming before queue handling =>
    obtain rfl : before = view := by simpa only [phase, SyncPhase.view, Option.some.injEq] using visible
    cases handling with
    | idle =>
      cases queue with
      | nil => simp only [advance, phase, reduceCtorEq] at advanced
      | cons update =>
        simp only [calls, phase]
        cases update <;> (simp only [advance, phase, Option.some.injEq] at advanced; subst advanced; rfl)
    | fetch pointer | refetch pointer =>
      simp only [advance, phase] at advanced
      simp only [calls, phase]
      rcases answered : sync.getRecentSnapshot pointer with (_ | _) | (_ | _) <;> rw [answered] at advanced <;>
        cases advanced <;> rfl
    | reread =>
      simp only [advance, phase] at advanced
      simp only [calls, phase, Option.elim_none]
      split at advanced
      · split_ifs at advanced <;> (cases advanced; rfl)
      · cases advanced
        rfl
  | _ => simp only [phase, SyncPhase.view, reduceCtorEq] at visible

theorem advance_world {sync next : ChainViewSync} (advanced : sync.advance = some next) :
    next.world = sync.world := by
  cases advance_cases advanced <;> rfl

theorem fail_world (sync : ChainViewSync) (report : Report ChainViewError) :
    (sync.fail report).world = sync.world := by
  unfold fail
  split <;> rfl

end ChainViewSync

/-- The sync service and a task that reads its view. -/
structure Synced where
  sync : ChainViewSync
  loop : Loop

inductive SyncedInput where
  | sync (input : SyncInput)
  | move (move : LoopMove)

namespace Synced

def step (synced : Synced) : SyncedInput → Option Synced
  | .sync .advance =>
    synced.sync.advance.map fun sync =>
      ⟨sync, synced.sync.calls.elim synced.loop fun setter => synced.loop.notify setter.channel⟩
  | .sync input => (synced.sync.step input).map fun sync => { synced with sync }
  | .move move =>
    synced.sync.phase.view.bind fun view => (synced.loop.step view move).map fun loop => { synced with loop }

end Synced

end Starkstream
