import Starkstream.ChainView.Synced

/-! # Segments that are compacted again

`SegmentService` takes its next segment from the view and records it in etcd with
`put_segmented`.  The view learns of it through the watch of the sync service:
later, or never if the watch was down.  Until then the service sees the old value
and compacts the same segment again; since `put_segmented` does not rewrite an
equal value, doing so does not repeat the lost event.
-/

namespace Starkstream

/-- The segment service beside the sync service. -/
structure Compactor where
  synced : Synced
  /-- History: the last block of the segment for each call of `compact_segment`,
      and the segmented block stored in etcd at that moment. -/
  compactions : List (Nat × Option Nat)

inductive CompactorInput where
  | sync (input : SyncInput)
  | move (move : LoopMove)
  | finish
  | restart

/-- The last block of the segment that starts at `first`. -/
def lastInSegment (segmentSize : Nat) (first : Cursor) : Nat := first.number + (segmentSize - 1)

/-- The segment that a step of the loop begins to compact. -/
def Loop.compacts : Loop → Option Nat
  | .segment segmentSize (.compacting first) => some (lastInSegment segmentSize first)
  | _ => none

namespace Compactor

def start (sync : ChainViewSync) (segmentSize : Nat) : Compactor := ⟨⟨sync, .segment segmentSize .start⟩, []⟩

def stored (compactor : Compactor) : Option Nat := compactor.synced.sync.world.etcd.segmented

/-- A read of the view by the service, or the call that follows it. -/
def proceed (compactor : Compactor) : Option Compactor :=
  (compactor.synced.step (.move .proceed)).map fun synced =>
    ⟨synced, synced.loop.compacts.elim compactor.compactions fun lastBlock =>
      compactor.compactions ++ [(lastBlock, compactor.stored)]⟩

/-- The end of `compact_segment`: `put_segmented`, and back to the loop. -/
def finish (compactor : Compactor) : Option Compactor :=
  compactor.synced.loop.compacts.bind fun lastBlock =>
    (compactor.synced.step (.sync (.write (.putSegmented lastBlock)))).bind fun written =>
      (written.step (.move .compacted)).map fun synced => { compactor with synced }

def step (compactor : Compactor) : CompactorInput → Option Compactor
  | .sync input => (compactor.synced.step (.sync input)).map fun synced => { compactor with synced }
  | .move .proceed => compactor.proceed
  | .move (.create channel) =>
    (compactor.synced.step (.move (.create channel))).map fun synced => { compactor with synced }
  | .move (.wake channel) =>
    (compactor.synced.step (.move (.wake channel))).map fun synced => { compactor with synced }
  | .move _ => none
  | .finish => compactor.finish
  | .restart =>
    match compactor.synced.loop with
    | .segment segmentSize _ =>
      some { compactor with synced := { compactor.synced with loop := .segment segmentSize .start } }
    | _ => none

/-- No segment is compacted whose last block is at or below the stored one. -/
def RedoesNothing (compactor : Compactor) : Prop :=
  ∀ call ∈ compactor.compactions, ∀ segmented, call.2 = some segmented → segmented < call.1

end Compactor

/-- The service has read the segmented block and did not call `compact_segment` yet. -/
def Loop.Deciding : Loop → Prop
  | .segment _ .noSegment | .segment _ (.segmented _) | .segment _ (.next _) | .segment _ (.gotHead _ _) => True
  | _ => False

def Loop.Unsegmented (stored : Option Nat) : Loop → Prop
  | .segment _ .noSegment => stored = none
  | .segment _ (.segmented cursor) => stored = some cursor.number
  | .segment _ (.next first) | .segment _ (.gotHead first _) =>
    ∀ segmented, stored = some segmented → segmented < first.number
  | _ => True

namespace Compactor

/-- The view has the stored segmented block when the service reads it, and the
    stored one is not raised before the service calls `compact_segment`. -/
def ReadsCurrent (compactor : Compactor) : CompactorInput → Prop
  | .move .proceed => ∀ segmentSize view, compactor.synced.loop = .segment segmentSize .start →
      compactor.synced.sync.phase.view = some view → view.segmented = compactor.stored
  | .sync (.write (.putSegmented block)) => compactor.synced.loop.Deciding → raises compactor.stored block = false
  | _ => True

structure Sound (compactor : Compactor) : Prop where
  unsegmented : compactor.synced.loop.Unsegmented compactor.stored
  redoesNothing : compactor.RedoesNothing

end Compactor

theorem SegmentPhase.unsegmented_proceed {view : ChainView} {segmentSize stored phase after}
    (current : phase = .start → view.segmented = stored)
    (unsegmented : (Loop.segment segmentSize phase).Unsegmented stored)
    (proceeded : phase.proceed view segmentSize = some after) :
    (Loop.segment segmentSize after).Unsegmented stored ∧
      ∀ lastBlock, (Loop.segment segmentSize after).compacts = some lastBlock →
        ∀ segmented, stored = some segmented → segmented < lastBlock := by
  cases phase with
  | start =>
    obtain rfl := current rfl
    simp only [SegmentPhase.proceed] at proceeded
    split at proceeded
    · cases proceeded
      exact ⟨trivial, fun _ same => by cases same⟩
    case _ answered =>
      cases proceeded
      exact ⟨ChainView.optionalCursor_none answered, fun _ same => by cases same⟩
    case _ answered =>
      cases proceeded
      exact ⟨ChainView.optionalCursor_some answered, fun _ same => by cases same⟩
  | noSegment =>
    obtain rfl : stored = none := unsegmented
    cases proceeded
    cases view.getStartingCursor.toOption with
    | none => exact ⟨trivial, fun _ same => by cases same⟩
    | some => exact ⟨(fun _ same => by cases same), fun _ same => by cases same⟩
  | segmented cursor =>
    obtain rfl : stored = some cursor.number := unsegmented
    cases proceeded
    cases following : followingCursor view cursor with
    | none => exact ⟨trivial, fun _ same => by cases same⟩
    | some =>
      refine ⟨?_, fun _ same => by cases same⟩
      rintro _ ⟨⟩
      exact (followingCursor_number following).symm ▸ Nat.lt_succ_self _
  | next =>
    cases proceeded
    exact ⟨unsegmented, fun _ same => by cases same⟩
  | gotHead =>
    simp only [SegmentPhase.proceed] at proceeded
    split at proceeded
    · cases proceeded
      exact ⟨trivial, fun _ same => by cases same⟩
    · split_ifs at proceeded
      · cases proceeded
        refine ⟨trivial, ?_⟩
        rintro _ ⟨⟩ segmented isStored
        exact (unsegmented segmented isStored).trans_le (Nat.le_add_right _ _)
      · cases proceeded
        exact ⟨trivial, fun _ same => by cases same⟩
      · cases proceeded
        exact ⟨trivial, fun _ same => by cases same⟩
  | compacting | waiting | ended => cases proceeded

theorem StateWrite.apply_segmented {world after} {write : StateWrite} (applied : write.apply world = some after)
    (same : ∀ block, write = .putSegmented block → raises world.etcd.segmented block = false) :
    after.etcd.segmented = world.etcd.segmented := by
  cases write with
  | putSegmented block =>
    simp only [StateWrite.apply, same block rfl, Bool.false_eq_true, if_false, Option.some.injEq] at applied
    rw [applied]
  | putGrouped =>
    simp only [StateWrite.apply] at applied
    split_ifs at applied <;> (obtain rfl := Option.some.inj applied; rfl)
  | deleteSnapshot =>
    simp only [StateWrite.apply] at applied
    split_ifs at applied
    cases applied
    rfl
  | putStartingBlock | putFinalized | putPending | publish | deleteLegacyIngested =>
    cases applied
    rfl

namespace Loop.Unsegmented

variable {stored : Option Nat} {loop after : Loop} {view : ChainView}

theorem of_not_deciding (decided : ¬ loop.Deciding) : loop.Unsegmented stored := by
  cases loop with
  | segment size phase =>
    cases phase with
    | noSegment | segmented | next | gotHead => exact absurd trivial decided
    | start | compacting | waiting | ended => trivial
  | stream | group => trivial

theorem notify (unsegmented : loop.Unsegmented stored) (channel : Option Channel) :
    (loop.notify channel).Unsegmented stored := by
  cases loop with
  | segment size phase => cases phase <;> exact unsegmented
  | stream stream =>
    obtain ⟨-, -, -, phase, -⟩ := stream
    cases phase <;> trivial
  | group size phase => cases phase <;> trivial

theorem create {channel} (created : loop.step view (.create channel) = some after) : after.Unsegmented stored := by
  obtain ⟨_, isWait, made⟩ := Option.bind_eq_some_iff.mp created
  obtain ⟨next, -, rfl⟩ := Option.map_eq_some_iff.mp made
  cases loop with
  | segment size phase =>
    cases phase with
    | waiting => trivial
    | start | noSegment | segmented | next | gotHead | compacting | ended => cases isWait
  | stream stream =>
    obtain ⟨_, _, _, phase, _⟩ := stream
    cases phase <;> trivial
  | group size phase => cases phase <;> trivial

theorem wake {channel} (woken : loop.step view (.wake channel) = some after) : after.Unsegmented stored := by
  simp only [Loop.step] at woken
  split at woken
  · obtain ⟨-, -, rfl⟩ := Option.map_eq_some_iff.mp woken
    trivial
  · split_ifs at woken
    cases woken
    trivial
  · split_ifs at woken
    cases woken
    trivial
  · cases woken

theorem compacted (moved : loop.step view .compacted = some after) : after.Unsegmented stored := by
  simp only [Loop.step] at moved
  split at moved
  · cases moved
    trivial
  · cases moved
    trivial
  · cases moved

end Loop.Unsegmented

namespace Compactor

variable {compactor after : Compactor}

theorem Sound.sync (sound : compactor.Sound) {input} (current : compactor.ReadsCurrent (.sync input))
    (stepped : compactor.step (.sync input) = some after) : after.Sound := by
  obtain ⟨synced, ran, rfl⟩ := Option.map_eq_some_iff.mp stepped
  refine ⟨?_, sound.redoesNothing⟩
  cases input with
  | advance =>
    obtain ⟨sync, advanced, rfl⟩ := Option.map_eq_some_iff.mp ran
    simp only [stored, ChainViewSync.advance_world advanced]
    cases compactor.synced.sync.calls with
    | none => exact sound.unsegmented
    | some setter => exact sound.unsegmented.notify setter.channel
  | write =>
    obtain ⟨_, wrote, rfl⟩ := Option.map_eq_some_iff.mp ran
    obtain ⟨world, applied, rfl⟩ := Option.map_eq_some_iff.mp wrote
    by_cases deciding : compactor.synced.loop.Deciding
    · have same : world.etcd.segmented = compactor.stored :=
        StateWrite.apply_segmented applied fun block isPut => by
          subst isPut
          exact current deciding
      simp only [stored, same]
      exact sound.unsegmented
    · exact .of_not_deciding deciding
  | fail =>
    cases ran
    simp only [stored, ChainViewSync.fail_world]
    exact sound.unsegmented

theorem Sound.proceed (sound : compactor.Sound) (current : compactor.ReadsCurrent (.move .proceed))
    (stepped : compactor.proceed = some after) : after.Sound := by
  obtain ⟨_, moved, rfl⟩ := Option.map_eq_some_iff.mp stepped
  obtain ⟨view, visible, ran⟩ := Option.bind_eq_some_iff.mp moved
  obtain ⟨loop, proceeded, rfl⟩ := Option.map_eq_some_iff.mp ran
  have decides : loop.Unsegmented compactor.stored ∧ ∀ lastBlock, loop.compacts = some lastBlock →
      ∀ segmented, compactor.stored = some segmented → segmented < lastBlock := by
    have unsegmented := sound.unsegmented
    simp only [Loop.step] at proceeded
    split at proceeded
    · obtain ⟨_, -, rfl⟩ := Option.map_eq_some_iff.mp proceeded
      exact ⟨trivial, fun _ same => by cases same⟩
    case _ size phase isLoop =>
      obtain ⟨_, proceeds, rfl⟩ := Option.map_eq_some_iff.mp proceeded
      rw [isLoop] at unsegmented
      refine SegmentPhase.unsegmented_proceed (fun begins => ?_) unsegmented proceeds
      exact current size view (begins ▸ isLoop) visible
    · obtain ⟨_, -, rfl⟩ := Option.map_eq_some_iff.mp proceeded
      exact ⟨trivial, fun _ same => by cases same⟩
  refine ⟨decides.1, fun call member => ?_⟩
  cases compacts : loop.compacts with
  | none =>
    simp only [compacts, Option.elim_none] at member
    exact sound.redoesNothing call member
  | some lastBlock =>
    simp only [compacts, Option.elim_some, List.mem_append, List.mem_singleton] at member
    rcases member with earlier | rfl
    · exact sound.redoesNothing call earlier
    · exact decides.2 lastBlock compacts

theorem Sound.step (sound : compactor.Sound) {input} (current : compactor.ReadsCurrent input)
    (stepped : compactor.step input = some after) : after.Sound := by
  cases input with
  | sync => exact sound.sync current stepped
  | move move =>
    cases move with
    | proceed => exact sound.proceed current stepped
    | create =>
      obtain ⟨_, moved, rfl⟩ := Option.map_eq_some_iff.mp stepped
      obtain ⟨_, -, ran⟩ := Option.bind_eq_some_iff.mp moved
      obtain ⟨_, created, rfl⟩ := Option.map_eq_some_iff.mp ran
      exact ⟨.create created, sound.redoesNothing⟩
    | wake =>
      obtain ⟨_, moved, rfl⟩ := Option.map_eq_some_iff.mp stepped
      obtain ⟨_, -, ran⟩ := Option.bind_eq_some_iff.mp moved
      obtain ⟨_, woken, rfl⟩ := Option.map_eq_some_iff.mp ran
      exact ⟨.wake woken, sound.redoesNothing⟩
    | deliver | compacted => cases stepped
  | finish =>
    obtain ⟨_, -, wrote⟩ := Option.bind_eq_some_iff.mp stepped
    obtain ⟨_, -, moved⟩ := Option.bind_eq_some_iff.mp wrote
    obtain ⟨_, returned, rfl⟩ := Option.map_eq_some_iff.mp moved
    obtain ⟨_, -, ran⟩ := Option.bind_eq_some_iff.mp returned
    obtain ⟨_, compacted, rfl⟩ := Option.map_eq_some_iff.mp ran
    exact ⟨.compacted compacted, sound.redoesNothing⟩
  | restart =>
    simp only [Compactor.step] at stepped
    split at stepped
    · cases stepped
      exact ⟨trivial, sound.redoesNothing⟩
    · cases stepped

theorem redoesNothing_of_readsCurrent {sync : ChainViewSync} {segmentSize : Nat} {inputs : List CompactorInput}
    {last : Compactor} (current : Runs.Meets step ReadsCurrent (start sync segmentSize) inputs)
    (reached : Runs.run step (start sync segmentSize) inputs = some last) : last.RedoesNothing := by
  have started : (start sync segmentSize).Sound := ⟨trivial, nofun⟩
  exact (Runs.run_guarded (fun _ _ _ sound guard stepped => sound.step guard stepped) started current
    reached).redoesNothing

end Compactor

namespace LostEvent

/-- Two blocks are published and finalized, and none is segmented. -/
def world : World :=
  World.fresh.applyAll [.putStartingBlock 0, .putFinalized 1, .putRecentSnapshot 0 MissedHead.extended,
    .putRecent ⟨0, 0, 1⟩]

def sync : ChainViewSync := .start world ⟨some 100, some 1, some 1⟩ fun _ => .ok none

def opening : List CompactorInput := List.replicate 8 (.sync .advance)

/-- The service decides, compacts a segment and records it. -/
def round : List CompactorInput := List.replicate 4 (.move .proceed) ++ [.finish]

/-- The watch fails before the event of the first segment is handled. -/
def lost : List CompactorInput := opening ++ round ++ [.sync (.fail ⟨{}, []⟩), .sync .advance]

/-- The first segment is recorded in etcd and the view does not know it. -/
def stale : Synced where
  sync :=
    { sync with
      world := { world with etcd := { world.etcd with segmented := some 0 } }
      phase := .streaming (.new 1 none none 1 1 ⟨fun _ => .ok none, 0, 100, MissedHead.extended⟩) [] .idle
      installed := [(0, MissedHead.extended)] }
  loop := .segment 1 .start

theorem run_lost : Runs.run Compactor.step (.start sync 1) lost = some ⟨stale, [(0, none)]⟩ := rfl

/-- The stored block is not rewritten, so nothing tells the view. -/
theorem run_round (compactions : List (Nat × Option Nat)) :
    Runs.run Compactor.step ⟨stale, compactions⟩ round = some ⟨stale, compactions ++ [(0, some 0)]⟩ := rfl

theorem run_rounds (count : Nat) (compactions : List (Nat × Option Nat)) :
    Runs.run Compactor.step ⟨stale, compactions⟩ (List.replicate count round).flatten =
      some ⟨stale, compactions ++ List.replicate count (0, some 0)⟩ := by
  induction count generalizing compactions with
  | zero => simp
  | succ count ih =>
    rw [List.replicate_succ, List.flatten_cons, Runs.run_append, run_round, Option.bind_some, ih,
      List.replicate_succ, List.append_assoc, List.singleton_append]

def checkCurrent (compactor : Compactor) : CompactorInput → Bool
  | .move .proceed =>
    match compactor.synced.loop with
    | .segment _ .start => compactor.synced.sync.phase.view.all (·.segmented = compactor.stored)
    | _ => true
  | .sync (.write _) => false
  | _ => true

theorem readsCurrent_of_check (compactor : Compactor) (input : CompactorInput)
    (checked : checkCurrent compactor input = true) : compactor.ReadsCurrent input := by
  cases input with
  | move move =>
    cases move with
    | proceed =>
      intro size view begins visible
      simp only [checkCurrent, begins, visible, Option.all_some] at checked
      exact of_decide_eq_true checked
    | deliver | compacted | create | wake => trivial
  | sync input =>
    cases input with
    | write => cases checked
    | advance | fail => trivial
  | finish | restart => trivial

end LostEvent

open LostEvent

/-- The segment of block 0 is compacted again, and as often as the service decides. -/
theorem Compactor.redoesNothing_fails_lostEvent :
    (∃ last : Compactor, Runs.run Compactor.step (.start LostEvent.sync 1) (lost ++ round) = some last ∧
      last.stored = some 0 ∧ ¬ last.RedoesNothing) ∧
    ∀ count, ∃ last : Compactor,
      Runs.run Compactor.step (.start LostEvent.sync 1) (lost ++ (List.replicate count round).flatten) = some last ∧
        last.compactions = (0, none) :: List.replicate count (0, some 0) := by
  constructor
  · refine ⟨⟨stale, [(0, none), (0, some 0)]⟩, ?_, rfl, fun redoesNothing => ?_⟩
    · rw [Runs.run_append, run_lost]
      exact run_round _
    · exact absurd (redoesNothing (0, some 0) (by decide) 0 rfl) (Nat.lt_irrefl 0)
  · intro count
    refine ⟨⟨stale, (0, none) :: List.replicate count (0, some 0)⟩, ?_, rfl⟩
    rw [Runs.run_append, run_lost]
    exact run_rounds count _

/-- The event arrives before the service looks for the next segment. -/
theorem Compactor.redoesNothing_delivered : ∃ last : Compactor,
    Runs.run Compactor.step (.start LostEvent.sync 1)
        (opening ++ round ++ [.sync .advance, .move .proceed, .move .proceed]) = some last ∧
      last.stored = some 0 ∧ last.compactions = [(0, none)] ∧ last.RedoesNothing := by
  obtain ⟨last, reached, isStored, compactions⟩ : ∃ last : Compactor,
      Runs.run Compactor.step (.start LostEvent.sync 1)
          (opening ++ round ++ [.sync .advance, .move .proceed, .move .proceed]) = some last ∧
        last.stored = some 0 ∧ last.compactions = [(0, none)] := ⟨_, rfl, rfl, rfl⟩
  refine ⟨last, reached, isStored, compactions, redoesNothing_of_readsCurrent ?_ reached⟩
  exact .of_checks readsCurrent_of_check rfl

end Starkstream
