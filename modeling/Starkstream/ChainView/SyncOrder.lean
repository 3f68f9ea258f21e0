import Starkstream.ChainView.InSync
import Starkstream.ChainView.Publication

/-! # The order in which snapshots are installed

The updates of a watch come in the order of publication.  When the snapshot of an
update is missing the service reads the current pointer instead, which is ahead of
the updates still in the queue.  If the cleanup job has deleted one snapshot and
not yet a later one, the view first jumps ahead and then goes back.

Snapshots are numbered by publication: the first one ever published has key 0.
-/

namespace Starkstream

open CanonicalChainBuilder
open IngestionService
open IngestionStateUpdate (recentOf)

/-- The snapshots published by the writers, oldest first. -/
def publications (inputs : List SyncInput) : List CanonicalChainSegment :=
  inputs.filterMap fun
    | .write (.publish segment) => some segment
    | _ => none

/-- The chain published after each of several rounds of calls to one builder. -/
inductive Publishes (options : IngestionServiceOptions) (offered : List BlockInfo) :
    ChainRun → List CanonicalChainSegment → ChainRun → Prop where
  | done (chain : ChainRun) : Publishes options offered chain [] chain
  | next {chain middle last : ChainRun} {segment : CanonicalChainSegment} {later : List CanonicalChainSegment}
      (ops : List BuilderOp) (allowed : ∀ op ∈ ops, op.allowed options none = true)
      (isOffered : ∀ block, .grow block ∈ ops → block ∈ offered)
      (called : Runs.run ChainRun.step chain ops = some middle)
      (current : middle.builder.currentSegment = .ok segment)
      (rest : Publishes options offered middle later last) : Publishes options offered chain (segment :: later) last

namespace ChainViewSync

/-- The calls of `set_recent` follow the order of publication, and a stream at the
    head of an installed snapshot is always told how to go on. -/
structure Forward (inputs : List SyncInput) (sync : ChainViewSync) : Prop where
  ordered : (sync.installed.map Prod.fst).Pairwise (· ≤ ·)
  /-- What was installed is what was published under that number. -/
  published : ∀ entry ∈ sync.installed, (publications inputs)[entry.1]? = some entry.2
  /-- Installed snapshots of a chain: `first` is the block it started with, and
      the store answers with every segment uploaded so far. -/
  answered : ∀ options offered first last, first.number = startingBlock options → first ∈ offered →
    (∀ block ∈ offered, block.hash.isZero = false) →
    Publishes options offered ⟨.building (.single first), [], [first], .building (.single first)⟩
      (publications inputs) last →
    ∀ view, sync.phase.view = some view → view.canonical.startingBlock = startingBlock options →
      view.canonical.chainSegmentSize = options.chainSegmentSize →
    ∀ get : ChainStoreGet, (∀ segment ∈ last.taken, get segment.info.firstBlock.number = .ok (some segment)) →
    ∀ entry ∈ sync.installed, ∃ answer,
      FullCanonicalChain.getNextCursor { view.canonical with store := get } (some entry.2.info.lastBlock) = .ok answer

/-- When the service is about to get the snapshot of a pointer that it read again,
    the older snapshots whose updates are still in the queue are gone. -/
def RereadsInOrder (sync : ChainViewSync) : SyncInput → Prop
  | .advance => ∀ view queue current, sync.phase = .streaming view queue (.refetch current) →
      ∀ pointer, .recent pointer ∈ queue → pointer.key < current.key →
        sync.world.store.snapshots[pointer.key]? = none
  | _ => True

end ChainViewSync

/-! ## The writers -/

/-- A write that publishes nothing. -/
structure StateWrite.Unpublished (write : StateWrite) (before after : World) : Prop where
  nothing : publications [.write write] = []
  nextKey : after.store.nextKey = before.store.nextKey
  recent : after.etcd.recent = before.etcd.recent
  snapshots : ∀ (key : Nat) (segment : CanonicalChainSegment), after.store.snapshots[key]? = some segment →
    before.store.snapshots[key]? = some segment
  silent : ∀ pointer, .recent pointer ∉ write.updates before

theorem StateWrite.publish_or {write : StateWrite} {before after} (applied : write.apply before = some after) :
    (∃ segment, write = .publish segment) ∨ write.Unpublished before after := by
  cases write with
  | publish segment => exact .inl ⟨segment, rfl⟩
  | putStartingBlock | putFinalized | putPending | deleteLegacyIngested =>
    cases applied
    exact .inr ⟨rfl, rfl, rfl, fun _ _ => id, by simp [updates]⟩
  | putSegmented | putGrouped =>
    simp only [apply] at applied
    split at applied <;> obtain rfl := Option.some.inj applied
    · exact .inr ⟨rfl, rfl, rfl, fun _ _ => id, by simp [updates]⟩
    · exact .inr ⟨rfl, rfl, rfl, fun _ _ => id, by simp [updates]⟩
  | deleteSnapshot =>
    simp only [apply] at applied
    split at applied
    · cases applied
    · cases applied
      refine .inr ⟨rfl, rfl, rfl, fun other segment found => ?_, by simp [updates]⟩
      simp only [Std.ExtTreeMap.getElem?_erase] at found
      split at found
      · cases found
      · exact found

/-- Snapshots are stored under the number of their publication. -/
structure World.Keyed (world : World) (published : List CanonicalChainSegment) : Prop where
  count : world.store.nextKey = published.length
  stored : ∀ (key : Nat) (segment : CanonicalChainSegment), world.store.snapshots[key]? = some segment →
    published[key]? = some segment
  current : ∀ pointer, world.etcd.recent = some pointer → pointer.key + 1 = published.length

variable {published : List CanonicalChainSegment}

namespace World.Keyed

variable {before after : World} {write : StateWrite}

variable (keyed : before.Keyed published) (applied : write.apply before = some after)
include keyed applied

theorem written : after.Keyed (published ++ publications [.write write]) := by
  rcases StateWrite.publish_or applied with ⟨segment, rfl⟩ | unpublished
  · cases applied
    refine ⟨?_, fun key found => ?_, ?_⟩
    · simp only [publications, List.filterMap_cons, List.filterMap_nil, List.length_append, List.length_singleton,
        ← keyed.count]
      rfl
    · intro stored
      change (before.store.snapshots.insert before.store.nextKey segment)[key]? = some found at stored
      rw [Std.ExtTreeMap.getElem?_insert] at stored
      split at stored
      · rename_i same
        obtain rfl := compare_eq_iff_eq.mp same
        rw [keyed.count]
        simpa [publications] using stored
      · have old := keyed.stored key found stored
        rw [List.getElem?_append_left (List.getElem?_eq_some_iff.mp old).1]
        exact old
    · intro pointer isCurrent
      cases isCurrent
      simp [publications, ChainStore.nextPointer, keyed.count]
  · rw [unpublished.nothing, List.append_nil]
    exact ⟨unpublished.nextKey.trans keyed.count,
      fun key segment found => keyed.stored key segment (unpublished.snapshots key segment found),
      fun pointer isCurrent => keyed.current pointer (unpublished.recent ▸ isCurrent)⟩

theorem stays_missing {key} (old : key < published.length) (missing : before.store.snapshots[key]? = none) :
    after.store.snapshots[key]? = none := by
  rcases StateWrite.publish_or applied with ⟨segment, rfl⟩ | unpublished
  · cases applied
    change (before.store.snapshots.insert before.store.nextKey segment)[key]? = none
    rw [Std.ExtTreeMap.getElem?_insert, if_neg, missing]
    rw [compare_eq_iff_eq, keyed.count]
    exact Nat.ne_of_gt old
  · cases found : after.store.snapshots[key]? with
    | none => rfl
    | some segment => exact absurd (unpublished.snapshots key segment found) (by simp [missing])

theorem updates {pointer} (announced : .recent pointer ∈ write.updates before) :
    pointer.key = published.length ∧ pointer.key < (published ++ publications [.write write]).length := by
  rcases StateWrite.publish_or applied with ⟨segment, rfl⟩ | unpublished
  · have same : pointer = before.store.nextPointer segment := by
      simp only [StateWrite.updates, List.mem_cons, IngestionStateUpdate.recent.injEq] at announced
      rcases announced with same | other
      · exact same
      · split at other <;> simp at other
    subst same
    simp [ChainStore.nextPointer, keyed.count, publications]
  · exact absurd announced (unpublished.silent pointer)

end World.Keyed

namespace ChainViewSync

/-! ## The service -/

/-- Nothing after `key` was installed. -/
def UpTo (sync : ChainViewSync) (key : Nat) : Prop := ∀ entry ∈ sync.installed, entry.1 ≤ key

/-- Installing the snapshot of this pointer does not go back, if it is there at all. -/
def Due (published : List CanonicalChainSegment) (sync : ChainViewSync) (pointer : RecentSegmentPointer) : Prop :=
  pointer.key < published.length ∧ (sync.UpTo pointer.key ∨ sync.world.store.snapshots[pointer.key]? = none)

/-- The snapshot that was installed last, if any, is `recent`. -/
def Shown (sync : ChainViewSync) (recent : CanonicalChainSegment) : Prop :=
  ∀ entry, sync.installed.getLast? = some entry → entry.2 = recent

/-- The pointers whose snapshots the service is going to ask for, in order. -/
def waiting (queue : List IngestionStateUpdate) : Handling → List RecentSegmentPointer
  | .fetch pointer => pointer :: queue.filterMap recentOf
  | _ => queue.filterMap recentOf

/-- An open watch is ready for the snapshots to come. -/
structure Ready (published : List CanonicalChainSegment) (sync : ChainViewSync) (view : ChainView)
    (queue : List IngestionStateUpdate) (handling : Handling) : Prop where
  shown : sync.Shown view.canonical.recent
  due : ∀ pointer ∈ waiting queue handling, sync.Due published pointer
  inOrder : ((waiting queue handling).map (·.key)).Pairwise (· ≤ ·)
  reread : ∀ current, handling = .refetch current → sync.UpTo current.key

/-- What the phase has to say about the snapshots to come. -/
def Prepared (published : List CanonicalChainSegment) (sync : ChainViewSync) : Prop :=
  match sync.phase with
  | .readOptions _ recent => sync.Shown recent
  | .connecting view => sync.Shown view.canonical.recent
  | .streaming view queue handling => sync.Ready published view queue handling
  | .ended _ => True
  | _ => sync.installed = []

structure Installing (published : List CanonicalChainSegment) (sync : ChainViewSync) : Prop where
  keyed : sync.world.Keyed published
  installed : ∀ entry ∈ sync.installed, published[entry.1]? = some entry.2
  ordered : (sync.installed.map Prod.fst).Pairwise (· ≤ ·)
  prepared : sync.Prepared published

namespace Installing

variable {sync next : ChainViewSync}

theorem upTo_of_le (installing : sync.Installing published) {key} (newest : published.length ≤ key + 1) :
    sync.UpTo key := by
  intro entry member
  have inside := (List.getElem?_eq_some_iff.mp (installing.installed entry member)).1
  omega

variable {phase : SyncPhase}

theorem moved (installing : sync.Installing published) (prepared : Prepared published { sync with phase }) :
    Installing published { sync with phase } :=
  { installing with prepared }

variable {recent : CanonicalChainSegment}

theorem install (installing : sync.Installing published) {key} (upTo : sync.UpTo key)
    (found : sync.world.store.snapshots[key]? = some recent)
    (prepared : Prepared published { sync with phase, installed := sync.installed ++ [(key, recent)] }) :
    Installing published { sync with phase, installed := sync.installed ++ [(key, recent)] } := by
  refine ⟨installing.keyed, fun entry member => ?_, ?_, prepared⟩
  · rcases List.mem_append.mp member with old | new
    · exact installing.installed entry old
    · obtain rfl := List.mem_singleton.mp new
      exact installing.keyed.stored key recent found
  · simp only [List.map_append, List.map_cons, List.map_nil, List.pairwise_append, List.pairwise_singleton,
      List.mem_map, List.mem_singleton, true_and]
    refine ⟨installing.ordered, ?_⟩
    rintro _ ⟨entry, member, rfl⟩ _ rfl
    exact upTo entry member

theorem shown_install {key : Nat} :
    Shown { sync with phase, installed := sync.installed ++ [(key, recent)] } recent := by
  intro entry last
  simp only [List.getLast?_append, List.getLast?_singleton, Option.some_or, Option.some.injEq] at last
  exact last ▸ rfl

theorem upTo_install {key other} (upTo : sync.UpTo other) (later : key ≤ other) :
    UpTo { sync with phase, installed := sync.installed ++ [(key, recent)] } other := by
  intro entry member
  rcases List.mem_append.mp member with old | new
  · exact upTo entry old
  · obtain rfl := List.mem_singleton.mp new
    exact later

theorem shown_of_nil (nothing : sync.installed = []) : sync.Shown recent := by
  intro entry last
  simp [nothing] at last

theorem recentOf_eq_none {update} (other : ∀ pointer, update ≠ .recent pointer) : recentOf update = none := by
  cases update with
  | recent pointer => exact absurd rfl (other pointer)
  | _ => rfl

theorem recentOf_eq_some {update pointer} (isRecent : recentOf update = some pointer) : update = .recent pointer := by
  cases update with
  | recent => exact congrArg _ (Option.some.inj isRecent)
  | _ => cases isRecent

theorem prepared_of_reading (reading : sync.phase.Reading) : sync.Prepared published ↔ sync.installed = [] := by
  unfold Prepared
  cases before : sync.phase <;> simp_all [SyncPhase.Reading]

variable (installing : sync.Installing published)
include installing

theorem ready {view queue handling} (streaming : sync.phase = .streaming view queue handling) :
    sync.Ready published view queue handling := by
  have prepared := installing.prepared
  rw [Prepared, streaming] at prepared
  exact prepared

theorem advance (inOrder : sync.RereadsInOrder .advance) (advanced : Advances sync next) :
    next.Installing published := by
  have prepared := installing.prepared
  cases advanced with
  | reading phase before after =>
    have nothing := (prepared_of_reading before).mp prepared
    exact installing.moved ((prepared_of_reading after).mpr nothing)
  | loaded reads pointer recent before found =>
    have nothing := (prepared_of_reading (before ▸ trivial)).mp prepared
    exact installing.install (by simp [UpTo, nothing]) found shown_install
  | loadedLegacy reads recent before =>
    have nothing := (prepared_of_reading before).mp prepared
    exact installing.moved (shown_of_nil nothing)
  | opened reads recent view before shows =>
    rw [Prepared, before] at prepared
    obtain rfl := shows
    exact installing.moved prepared
  | ended => exact installing.moved trivial
  | watched view before =>
    rw [Prepared, before] at prepared
    exact installing.moved ⟨prepared, nofun, .nil, nofun⟩
  | updated view update queue before other =>
    obtain ⟨shown, due, sorted, -⟩ := installing.ready before
    have same : waiting (update :: queue) .idle = waiting queue .idle := by
      simp only [waiting, List.filterMap_cons, recentOf_eq_none other]
    have kept : (view.update update).canonical.recent = view.canonical.recent := by
      cases update <;> rfl
    exact installing.moved ⟨kept ▸ shown, same ▸ due, same ▸ sorted, nofun⟩
  | took view pointer queue before =>
    obtain ⟨shown, due, sorted, -⟩ := installing.ready before
    exact installing.moved ⟨shown, due, sorted, nofun⟩
  | fetched view queue pointer recent before found =>
    obtain ⟨_, due, sorted, -⟩ := installing.ready before
    have upTo : sync.UpTo pointer.key := by
      rcases (due pointer List.mem_cons_self).2 with upTo | missing
      · exact upTo
      · rw [missing] at found
        cases found
    obtain ⟨later, sortedLater⟩ := List.pairwise_cons.mp sorted
    refine installing.install upTo found ⟨shown_install, fun other member => ?_, sortedLater, nofun⟩
    obtain ⟨inside, dueOther⟩ := due other (List.mem_cons_of_mem _ member)
    exact ⟨inside, dueOther.imp_left fun upToOther =>
      upTo_install upToOther (later other.key (List.mem_map_of_mem member))⟩
  | missed view queue pointer before =>
    obtain ⟨shown, due, sorted, -⟩ := installing.ready before
    exact installing.moved
      ⟨shown, fun other member => due other (List.mem_cons_of_mem _ member), sorted.of_cons, nofun⟩
  | reread view queue pointer current before read =>
    obtain ⟨shown, due, sorted, -⟩ := installing.ready before
    refine installing.moved ⟨shown, due, sorted, ?_⟩
    rintro _ ⟨⟩
    exact installing.upTo_of_le (installing.keyed.current current read).ge
  | refetched view queue current recent before found =>
    obtain ⟨_, due, sorted, upTo⟩ := installing.ready before
    refine installing.install (upTo current rfl) found ⟨shown_install, fun other member => ?_, sorted, nofun⟩
    refine ⟨(due other member).1, ?_⟩
    by_cases older : other.key < current.key
    · obtain ⟨_, inQueue, isRecent⟩ := List.mem_filterMap.mp member
      obtain rfl := recentOf_eq_some isRecent
      exact .inr (inOrder view queue current before other inQueue older)
    · have later := not_lt.mp older
      exact .inl (upTo_install (fun entry old => (upTo current rfl entry old).trans later) later)
  | skipped view queue pointer before =>
    rcases before with before | before
    · obtain ⟨shown, due, sorted, -⟩ := installing.ready before
      exact installing.moved ⟨shown, due, sorted, nofun⟩
    · obtain ⟨shown, due, sorted, -⟩ := installing.ready before
      exact installing.moved ⟨shown, due, sorted, nofun⟩
  | lost view queue handling before => exact installing.moved (installing.ready before).shown

theorem written {write : StateWrite} {world} (applied : write.apply sync.world = some world) :
    Installing (published ++ publications [.write write])
      { sync with world, phase := sync.phase.receive (write.updates sync.world) } := by
  have keyed := installing.keyed
  refine ⟨keyed.written applied, fun entry member => ?_, installing.ordered, ?_⟩
  · have old := installing.installed entry member
    rw [List.getElem?_append_left (List.getElem?_eq_some_iff.mp old).1]
    exact old
  · have prepared := installing.prepared
    cases before : sync.phase with
    | streaming view queue handling =>
      obtain ⟨shown, due, sorted, reread⟩ := installing.ready before
      have added : waiting (queue ++ write.updates sync.world) handling =
          waiting queue handling ++ (write.updates sync.world).filterMap recentOf := by
        cases handling <;> simp [waiting]
      have newest : ∀ pointer ∈ (write.updates sync.world).filterMap recentOf, pointer.key = published.length ∧
          pointer.key < (published ++ publications [.write write]).length := by
        intro pointer member
        obtain ⟨_, inUpdates, isRecent⟩ := List.mem_filterMap.mp member
        obtain rfl := recentOf_eq_some isRecent
        exact keyed.updates applied inUpdates
      refine ⟨shown, fun pointer member => ?_, ?_, reread⟩
      · rcases List.mem_append.mp (added ▸ member) with old | new
        · obtain ⟨inside, dueOld⟩ := due pointer old
          refine ⟨?_, dueOld.imp_right fun missing => keyed.stays_missing applied inside missing⟩
          rw [List.length_append]
          omega
        · obtain ⟨_, inside⟩ := newest pointer new
          exact ⟨inside, .inl (installing.upTo_of_le (by omega))⟩
      · rw [added, List.map_append, List.pairwise_append]
        refine ⟨sorted, ?_, ?_⟩
        · refine List.pairwise_of_forall_mem_list fun left leftMember right rightMember => ?_
          obtain ⟨pointer, isNew, rfl⟩ := List.mem_map.mp leftMember
          obtain ⟨other, isNewToo, rfl⟩ := List.mem_map.mp rightMember
          rw [(newest pointer isNew).1, (newest other isNewToo).1]
        · intro left leftMember right rightMember
          obtain ⟨pointer, inQueue, rfl⟩ := List.mem_map.mp leftMember
          obtain ⟨newPointer, isNew, rfl⟩ := List.mem_map.mp rightMember
          rw [(newest newPointer isNew).1]
          exact (due pointer inQueue).1.le
    | _ =>
      rw [Prepared, before] at prepared
      exact prepared

theorem step {input} (inOrder : sync.RereadsInOrder input) (stepped : sync.step input = some next) :
    next.Installing (published ++ publications [input]) := by
  cases input with
  | write =>
    obtain ⟨_, applied, rfl⟩ := Option.map_eq_some_iff.mp stepped
    exact installing.written applied
  | advance =>
    simp only [publications, List.filterMap_cons, List.filterMap_nil, List.append_nil]
    exact installing.advance inOrder (advance_cases stepped)
  | fail =>
    cases stepped
    simp only [publications, List.filterMap_cons, List.filterMap_nil, List.append_nil]
    have prepared := installing.prepared
    simp only [fail]
    split
    · exact installing
    · rename_i before
      exact installing.moved (installing.ready before).shown
    · exact installing
    · exact installing.moved trivial

end Installing

end ChainViewSync

/-! ## What a stream is answered -/

theorem ChainRun.taken_subset_step {chain next : ChainRun} {op} (stepped : chain.step op = some next) :
    chain.taken ⊆ next.taken := by
  cases op with
  | grow | shrink =>
    simp only [ChainRun.step] at stepped
    split at stepped
    · cases stepped
      exact List.Subset.refl _
    · cases stepped
      exact List.Subset.refl _
    · cases stepped
  | takeSegment =>
    simp only [ChainRun.step] at stepped
    split at stepped
    · cases stepped
      exact List.subset_append_left _ _
    · cases stepped
      exact List.Subset.refl _
    · cases stepped

theorem ChainRun.taken_subset {chain last ops} (reached : Runs.run ChainRun.step chain ops = some last) :
    chain.taken ⊆ last.taken := by
  have keep : ∀ op ∈ ops, ∀ before after : ChainRun, chain.taken ⊆ before.taken → before.step op = some after →
      chain.taken ⊆ after.taken :=
    fun _ _ _ _ included stepped => List.Subset.trans included (ChainRun.taken_subset_step stepped)
  have always := Runs.run_invariant keep (List.Subset.refl _) reached
  exact always

namespace Publishes

variable {options : IngestionServiceOptions} {offered : List BlockInfo} {chain last : ChainRun}
  {segments : List CanonicalChainSegment} {state whole : Building}

variable (publishes : Publishes options offered chain segments last)
include publishes

theorem taken_subset : chain.taken ⊆ last.taken := by
  induction publishes with
  | done => exact List.Subset.refl _
  | next ops allowed isOffered called current rest ih =>
    exact List.Subset.trans (ChainRun.taken_subset called) ih

variable (nonzero : ∀ block ∈ offered, block.hash.isZero = false)
  (publishing : Publishing options offered chain state whole)
include nonzero publishing

theorem publishing_at {number segment} (found : segments[number]? = some segment) :
    ∃ chainThen stateThen wholeThen, Publishing options offered chainThen stateThen wholeThen ∧
      segment = stateThen.snapshot ∧ chain.grown ⊆ chainThen.grown ∧
      Publishes options offered chainThen (segments.drop (number + 1)) last := by
  induction publishes generalizing number state whole with
  | done => cases found
  | next ops allowed isOffered called current rest ih =>
    obtain ⟨stateAfter, wholeAfter, publishingAfter, more, -⟩ := publishing.run nonzero allowed isOffered called
    cases number with
    | zero =>
      cases found
      rw [publishingAfter.splitting.builder] at current
      cases current
      exact ⟨_, stateAfter, wholeAfter, publishingAfter, rfl, more, rest⟩
    | succ =>
      obtain ⟨chainThen, stateThen, wholeThen, publishingThen, same, evenMore, later⟩ := ih publishingAfter found
      exact ⟨chainThen, stateThen, wholeThen, publishingThen, same, List.Subset.trans more evenMore, later⟩

/-- A reader of one publication is told how to go on from the head of an earlier
    one. -/
theorem answered {get} (finds : ∀ segment ∈ last.taken, get segment.info.firstBlock.number = .ok (some segment))
    {earlier later : Nat} (ordered : earlier ≤ later) {old recent} (oldAt : segments[earlier]? = some old)
    (recentAt : segments[later]? = some recent) :
    ∃ answer, (viewOf options get recent).getNextCursor (some old.info.lastBlock) = .ok answer := by
  obtain ⟨_, stateThen, _, publishingThen, rfl, -, rest⟩ :=
    publishes.publishing_at nonzero publishing oldAt
  obtain ⟨block, member, isHead⟩ := publishingThen.recorded.accepted _ _ publishingThen.divided.wholeWf.lastHash
  have head : stateThen.snapshot.info.lastBlock = block.cursor := publishingThen.divided.last.trans isHead.symm
  rw [head]
  rcases Nat.eq_or_lt_of_le ordered with rfl | newer
  · cases oldAt.symm.trans recentAt
    exact publishingThen.getNextCursor_accepted nonzero
      (fun segment taken => finds segment (rest.taken_subset taken)) member
  · have recentLater : (segments.drop (earlier + 1))[later - (earlier + 1)]? = some recent := by
      rw [List.getElem?_drop, Nat.add_sub_cancel' newer]
      exact recentAt
    obtain ⟨_, _, _, publishingNow, rfl, more, restNow⟩ :=
      rest.publishing_at nonzero publishingThen recentLater
    exact publishingNow.getNextCursor_accepted nonzero
      (fun segment taken => finds segment (restNow.taken_subset taken)) (more member)

end Publishes

namespace ChainViewSync

theorem Installing.shown {sync : ChainViewSync} (installing : sync.Installing published) {view}
    (visible : sync.phase.view = some view) : sync.Shown view.canonical.recent := by
  have prepared := installing.prepared
  unfold Prepared at prepared
  cases phase : sync.phase with
  | connecting =>
    simp only [phase, SyncPhase.view, Option.some.injEq] at visible prepared
    exact visible ▸ prepared
  | streaming shown =>
    simp only [phase, SyncPhase.view, Option.some.injEq] at visible prepared
    exact visible ▸ prepared.shown
  | _ => simp only [phase, SyncPhase.view, reduceCtorEq] at visible

/-- In every run in which each re-read finds the older queued snapshots gone, the
    view never goes back to an older snapshot. -/
theorem forward_of_rereadsInOrder {storedOptions : StoredOptions} {chainStore : ChainStoreGet}
    {inputs : List SyncInput} {sync : ChainViewSync}
    (meets : Runs.Meets step RereadsInOrder (start .fresh storedOptions chainStore) inputs)
    (reached : Runs.run step (start .fresh storedOptions chainStore) inputs = some sync) : sync.Forward inputs := by
  have keep : ∀ past before input after, Installing (publications past) before → before.RereadsInOrder input →
      before.step input = some after → after.Installing (publications (past ++ [input])) := by
    intro past before input after installing inOrder stepped
    have extended := installing.step inOrder stepped
    rwa [publications, publications, ← List.filterMap_append] at extended
  have fresh : Installing (publications []) (start .fresh storedOptions chainStore) :=
    ⟨⟨rfl, fun key segment found => by simp [start, World.fresh] at found, nofun⟩, nofun, .nil, rfl⟩
  have installing : sync.Installing (publications inputs) := Runs.run_guarded_history keep fresh meets reached
  refine ⟨installing.ordered, installing.installed, ?_⟩
  intro options offered first last starts isOffered nonzero publishes view visible sameStart sameSize get finds entry member
  have shown := installing.shown visible
  obtain ⟨front, newest, isLast⟩ := List.eq_nil_or_concat' sync.installed |>.resolve_left (List.ne_nil_of_mem member)
  have recentIs : newest.2 = view.canonical.recent := shown newest (by rw [isLast, List.getLast?_concat])
  have ordered : entry.1 ≤ newest.1 := by
    have sorted := installing.ordered
    rw [isLast, List.map_append, List.pairwise_append] at sorted
    rcases List.mem_append.mp (isLast ▸ member) with old | new
    · exact sorted.2.2 _ (List.mem_map_of_mem old) _ (List.mem_map_of_mem (List.mem_singleton_self newest))
    · exact (List.mem_singleton.mp new ▸ le_rfl)
  have answered := publishes.answered nonzero (.start starts isOffered) finds ordered
    (installing.installed entry member) (recentIs ▸ installing.installed newest (isLast ▸ by simp))
  have sameView : { view.canonical with store := get } = viewOf options get view.canonical.recent := by
    simp only [viewOf, ← sameStart, ← sameSize]
  rwa [sameView]

end ChainViewSync

namespace JumpAhead

def stored : StoredOptions := ⟨some 100, some 2, some 2⟩

/-- The snapshot of a chain of blocks 0 to 3 that ends at the given block. -/
def zero : Building := .single ⟨0, ⟨[1]⟩, ⟨[]⟩⟩
def one : Building := zero.grown ⟨1, ⟨[2]⟩, ⟨[1]⟩⟩
def two : Building := one.grown ⟨2, ⟨[3]⟩, ⟨[2]⟩⟩
def three : Building := two.grown ⟨3, ⟨[4]⟩, ⟨[3]⟩⟩

/-- The service starts with the first snapshot; then three more are published. -/
def queued : List SyncInput :=
  [.write (.putStartingBlock 0), .write (.putFinalized 0), .write (.publish zero.snapshot)] ++
    List.replicate 8 .advance ++
    [.write (.publish one.snapshot), .write (.publish two.snapshot), .write (.publish three.snapshot)]

/-- Of the two superseded snapshots in the queue one is gone. -/
def back : List SyncInput := queued ++ [.write (.deleteSnapshot 1)] ++ List.replicate 6 .advance

def onward : List SyncInput :=
  queued ++ [.write (.deleteSnapshot 1), .write (.deleteSnapshot 2)] ++ List.replicate 4 .advance

end JumpAhead

open JumpAhead

/-- Snapshot 2 is installed after snapshot 3, and a stream at block 3 fails. -/
theorem ChainViewSync.forward_fails_back :
    ∃ sync view report, Runs.run ChainViewSync.step (.start .fresh stored fun _ => .ok none) back = some sync ∧
      sync.installed.map Prod.fst = [0, 3, 2] ∧ sync.phase.view = some view ∧
      view.canonical.getNextCursor (some three.info.lastBlock) = .error (.error report) ∧
      report.attachments.head? = some "cursor is after the last block" ∧ ¬ sync.Forward back := by
  obtain ⟨sync, view, report, reached, keys, visible, refused, text⟩ :
      ∃ sync view report, Runs.run ChainViewSync.step (.start .fresh stored fun _ => .ok none) back = some sync ∧
        sync.installed.map Prod.fst = [0, 3, 2] ∧ sync.phase.view = some view ∧
        view.canonical.getNextCursor (some three.info.lastBlock) = .error (.error report) ∧
        report.attachments.head? = some "cursor is after the last block" :=
    ⟨_, _, _, rfl, rfl, rfl, rfl, rfl⟩
  refine ⟨sync, view, report, reached, keys, visible, refused, text, fun forward => ?_⟩
  have ordered := forward.ordered
  rw [keys] at ordered
  exact absurd ordered (by decide)

/-- `RereadsInOrder`, computed. -/
def ChainViewSync.rereadsInOrder (sync : ChainViewSync) : SyncInput → Bool
  | .advance =>
    match sync.phase with
    | .streaming _ queue (.refetch current) => (queue.filterMap recentOf).all fun pointer =>
      current.key ≤ pointer.key || sync.world.store.snapshots[pointer.key]?.isNone
    | _ => true
  | _ => true

theorem ChainViewSync.rereadsInOrder_sound (sync : ChainViewSync) (input : SyncInput)
    (checked : sync.rereadsInOrder input = true) : sync.RereadsInOrder input := by
  cases input with
  | advance =>
    intro view queue current streaming pointer member older
    simp only [rereadsInOrder, streaming, List.all_eq_true, Bool.or_eq_true, decide_eq_true_eq] at checked
    rcases checked pointer (List.mem_filterMap.mpr ⟨_, member, rfl⟩) with newer | missing
    · exact absurd older (not_lt.mpr newer)
    · exact Option.isNone_iff_eq_none.mp missing
  | _ => trivial

theorem ChainViewSync.forward_of_rereadsInOrder_onward :
    ∃ sync, Runs.run ChainViewSync.step (.start .fresh stored fun _ => .ok none) onward = some sync ∧
      sync.installed.map Prod.fst = [0, 3] ∧ sync.Forward onward := by
  obtain ⟨sync, reached, keys⟩ :
      ∃ sync, Runs.run ChainViewSync.step (.start .fresh stored fun _ => .ok none) onward = some sync ∧
        sync.installed.map Prod.fst = [0, 3] := ⟨_, rfl, rfl⟩
  refine ⟨sync, reached, keys, forward_of_rereadsInOrder (.of_checks rereadsInOrder_sound ?_) reached⟩
  rfl

end Starkstream
