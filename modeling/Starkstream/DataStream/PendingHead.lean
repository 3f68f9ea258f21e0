import Starkstream.ChainView.Synced

/-! # The head and the generation of a pending block

`put_recent` publishes a head and deletes the generation of the pending block on
top of the previous one, in one transaction.  The sync service applies it to the
view as two updates, and a stream can read the view in between: the new head with
the generation of the old one.

`HeadFollows` says what the updates of a watch still have to do to a view.  It holds
when the watch is opened on a view that has the published head, and is kept while
the snapshots of the updates are found.
-/

namespace Starkstream

/-- The sync service and a stream, with the pairs of a head and a generation that
    were published together. -/
structure PendingFollower where
  synced : Synced
  together : List (Cursor × Nat)

/-- The published head with a generation that is written now. -/
def World.pairs (world : World) (generation : Option Nat) : List (Cursor × Nat) :=
  (world.publishedLast.bind fun head => generation.map (head, ·)).toList

@[simp] theorem World.pairs_none (world : World) : world.pairs none = [] := by
  simp [World.pairs]

def SyncedInput.generation : SyncedInput → Option Nat
  | .sync (.write (.putPending generation)) => some generation
  | _ => none

namespace PendingFollower

def start (sync : ChainViewSync) (stream : StreamLoop) : PendingFollower :=
  ⟨⟨sync, .stream stream⟩, sync.world.pairs sync.world.etcd.pending⟩

def step (follower : PendingFollower) (input : SyncedInput) : Option PendingFollower :=
  (follower.synced.step input).map fun synced =>
    ⟨synced, follower.together ++ follower.synced.sync.world.pairs input.generation⟩

/-- A pending block is only requested for a generation and a head that were
    published together. -/
def UsesTogether (follower : PendingFollower) : Prop :=
  ∀ stream, follower.synced.loop = .stream stream → ∀ used ∈ stream.used, used ∈ follower.together

/-- The watch is opened on a view with the published head and no other generation
    than the stored one; the snapshot of an update is there when it is fetched; and
    the generation is read while the watch is open, for the head of the view, and
    not between the two updates of one `put_recent`. -/
def InStep (follower : PendingFollower) : SyncedInput → Prop
  | .sync .advance =>
    (∀ view, follower.synced.sync.phase = .connecting view →
      follower.synced.sync.world.publishedLast = some view.canonical.getHead ∧
        (view.pendingGeneration = none ∨ view.pendingGeneration = follower.synced.sync.world.etcd.pending)) ∧
    ∀ view queue pointer, follower.synced.sync.phase = .streaming view queue (.fetch pointer) →
      follower.synced.sync.world.store.snapshots[pointer.key]? ≠ none
  | .move .proceed => ∀ stream, follower.synced.loop = .stream stream → stream.phase = .readGeneration →
      ∃ view queue handling, follower.synced.sync.phase = .streaming view queue handling ∧
        (∀ head, stream.current = some head → head = view.canonical.getHead) ∧
        (handling = .idle → ∀ rest, queue ≠ .pending none :: rest)
  | _ => True

end PendingFollower

/-! ## The updates of a watch -/

/-- The key was given to a snapshot that ends at `head`; it may be deleted since. -/
structure ChainStore.Ends (store : ChainStore) (key : Nat) (head : Cursor) : Prop where
  used : key < store.nextKey
  last : ∀ segment, store.snapshots[key]? = some segment → segment.info.lastBlock = head

def IngestionStateUpdate.Other : IngestionStateUpdate → Prop
  | .recent _ | .pending _ => False
  | _ => True

/-- The updates bring a view with this head and generation to what is published. -/
inductive HeadFollows (world : World) (together : List (Cursor × Nat)) :
    Cursor → Option Nat → List IngestionStateUpdate → Prop where
  | done {head : Cursor} {pending : Option Nat} (isHead : world.publishedLast = some head)
      (isStored : pending = none ∨ pending = world.etcd.pending) : HeadFollows world together head pending []
  | announced {head : Cursor} {pending : Option Nat} {generation : Nat} {queue : List IngestionStateUpdate}
      (isTogether : (head, generation) ∈ together) (rest : HeadFollows world together head (some generation) queue) :
      HeadFollows world together head pending (.pending (some generation) :: queue)
  | deleted {head : Cursor} {pending : Option Nat} {queue : List IngestionStateUpdate}
      (rest : HeadFollows world together head none queue) :
      HeadFollows world together head pending (.pending none :: queue)
  | published {head next : Cursor} {pending : Option Nat} {pointer : RecentSegmentPointer}
      {queue : List IngestionStateUpdate} (ends : world.store.Ends pointer.key next)
      (clean : pending = none ∨ ∃ rest, queue = .pending none :: rest)
      (rest : HeadFollows world together next pending queue) :
      HeadFollows world together head pending (.recent pointer :: queue)
  | other {head : Cursor} {pending : Option Nat} {update : IngestionStateUpdate} {queue : List IngestionStateUpdate}
      (isOther : update.Other) (rest : HeadFollows world together head pending queue) :
      HeadFollows world together head pending (update :: queue)

variable {later : List (Cursor × Nat)} {after : World}

namespace StateWrite

theorem apply_ends {world} {write : StateWrite} (applied : write.apply world = some after) {key head}
    (ends : world.store.Ends key head) : after.store.Ends key head := by
  cases write with
  | putSegmented | putGrouped =>
    simp only [apply] at applied
    split_ifs at applied <;> (obtain rfl := Option.some.inj applied; exact ends)
  | publish =>
    cases applied
    refine ⟨Nat.lt_succ_of_lt ends.used, fun stored found => ends.last stored ?_⟩
    rw [← found]
    exact (Std.ExtTreeMap.getElem?_insert.trans (if_neg (by simpa using ends.used.ne'))).symm
  | deleteSnapshot =>
    simp only [apply] at applied
    split_ifs at applied
    cases applied
    refine ⟨ends.used, fun stored found => ends.last stored ?_⟩
    simp only [Std.ExtTreeMap.getElem?_erase] at found
    split_ifs at found
    exact found
  | putStartingBlock | putFinalized | putPending | deleteLegacyIngested =>
    cases applied
    exact ends

theorem apply_follows {world} {write : StateWrite} (applied : write.apply world = some after)
    (recorded : ∀ generation head, write = .putPending generation → world.publishedLast = some head →
      (head, generation) ∈ later) {head pending} (isHead : world.publishedLast = some head)
    (isStored : pending = none ∨ pending = world.etcd.pending) :
    HeadFollows after later head pending (write.updates world) := by
  cases write with
  | putSegmented | putGrouped =>
    simp only [apply] at applied
    simp only [updates]
    split_ifs at applied ⊢ <;> obtain rfl := Option.some.inj applied
    · exact .other trivial (.done isHead isStored)
    · exact .done isHead isStored
  | publish segment =>
    cases applied
    have stored := Std.ExtTreeMap.getElem?_insert_self (t := world.store.snapshots) (k := world.store.nextKey)
      (v := segment)
    have isNext : World.publishedLast (world.applyAll [.putRecentSnapshot world.store.nextKey segment,
        .putRecent (world.store.nextPointer segment)]) = some segment.info.lastBlock :=
      congrArg (Option.map _) stored
    have ends : ChainStore.Ends (world.applyAll [.putRecentSnapshot world.store.nextKey segment,
        .putRecent (world.store.nextPointer segment)]).store world.store.nextKey segment.info.lastBlock := by
      refine ⟨Nat.lt_succ_self _, fun found isFound => ?_⟩
      cases stored.symm.trans isFound
      rfl
    cases held : world.etcd.pending with
    | none =>
      have nothing : pending = none := isStored.elim id (·.trans held)
      simp only [updates, held]
      exact .published ends (.inl nothing) (.done isNext (.inl nothing))
    | some =>
      simp only [updates, held]
      exact .published ends (.inr ⟨[], rfl⟩) (.deleted (.done isNext (.inl rfl)))
  | deleteSnapshot deleted =>
    simp only [apply] at applied
    split_ifs at applied with isCurrent
    cases applied
    refine .done ?_ isStored
    obtain ⟨pointer, current, last⟩ := Option.bind_eq_some_iff.mp isHead
    have differs : ¬ (deleted = pointer.key) := fun same => isCurrent (by simp [current, same])
    refine Option.bind_eq_some_iff.mpr ⟨pointer, current, ?_⟩
    rw [← last, Std.ExtTreeMap.getElem?_erase, if_neg (by simpa using differs)]
  | putPending generation =>
    cases applied
    exact .announced (recorded generation head rfl isHead) (.done isHead (.inr rfl))
  | putStartingBlock | putFinalized =>
    cases applied
    exact .other trivial (.done isHead isStored)
  | deleteLegacyIngested =>
    cases applied
    exact .done isHead isStored

end StateWrite

variable {together : List (Cursor × Nat)}

namespace HeadFollows

variable {world : World} {head : Cursor} {pending : Option Nat} {queue : List IngestionStateUpdate}

theorem receive {write : StateWrite} (follows : HeadFollows world together head pending queue)
    (applied : write.apply world = some after) (grown : together ⊆ later)
    (recorded : ∀ generation head, write = .putPending generation → world.publishedLast = some head →
      (head, generation) ∈ later) :
    HeadFollows after later head pending (queue ++ write.updates world) := by
  induction follows with
  | done isHead isStored => exact StateWrite.apply_follows applied recorded isHead isStored
  | announced isTogether _ ih => exact .announced (grown isTogether) ih
  | deleted _ ih => exact .deleted ih
  | published ends clean _ ih =>
    refine .published (StateWrite.apply_ends applied ends) ?_ ih
    rcases clean with nothing | ⟨-, rfl⟩
    · exact .inl nothing
    · exact .inr ⟨_, rfl⟩
  | other isOther _ ih => exact .other isOther ih

end HeadFollows

/-- The generation that the view shows was published with its head. -/
def ChainView.Paired (together : List (Cursor × Nat)) (view : ChainView) : Prop :=
  ∀ generation, view.pendingGeneration = some generation → (view.canonical.getHead, generation) ∈ together

/-- An open watch, and a view whose generation is its head's or about to be deleted. -/
def SyncPhase.HeadFollows (world : World) (together : List (Cursor × Nat)) : SyncPhase → Prop
  | .streaming view queue .idle =>
    Starkstream.HeadFollows world together view.canonical.getHead view.pendingGeneration queue ∧
      (view.Paired together ∨ ∃ rest, queue = .pending none :: rest)
  | .streaming view queue (.fetch pointer) =>
    Starkstream.HeadFollows world together view.canonical.getHead view.pendingGeneration (.recent pointer :: queue) ∧
      view.Paired together
  | .streaming _ _ (.reread _) | .streaming _ _ (.refetch _) => False
  | _ => True

namespace StreamLoop

/-- The stream has only used pairs that were published together, and is not about
    to use another one. -/
structure Honest (together : List (Cursor × Nat)) (loop : StreamLoop) : Prop where
  used : ∀ pair ∈ loop.used, pair ∈ together
  sending : ∀ generation head, loop.phase = .sendPending (some generation) → loop.current = some head →
    (head, generation) ∈ together

namespace Honest

variable {loop after : StreamLoop} {view : ChainView}

variable (honest : loop.Honest together)
include honest

theorem mono (grown : together ⊆ later) : loop.Honest later :=
  ⟨fun pair member => grown (honest.used pair member),
    fun generation head phase current => grown (honest.sending generation head phase current)⟩

theorem silent (used : after.used = loop.used) (phase : ∀ generation, after.phase ≠ .sendPending generation) :
    after.Honest together :=
  ⟨used ▸ honest.used, fun generation _ isSending => absurd isSending (phase (some generation))⟩

theorem tick (idle : loop.phase = .idle) : (loop.tick view).Honest together := by
  unfold StreamLoop.tick
  split
  · exact honest.silent rfl (fun _ same => by cases same)
  · split_ifs <;> exact honest.silent rfl (fun _ same => by cases same)
  · exact honest.silent rfl (by simp [idle])
  · split_ifs <;> exact honest.silent rfl (fun _ same => by cases same)

theorem refresh {phase} (other : ∀ generation, phase ≠ .sendPending generation) :
    (loop.refresh view phase).Honest together := by
  unfold StreamLoop.refresh
  split
  · exact honest.silent rfl (fun _ same => by cases same)
  · exact honest.silent rfl other

theorem proceed (reads : loop.phase = .readGeneration → ∀ generation head, view.pendingGeneration = some generation →
      loop.current = some head → (head, generation) ∈ together) (proceeded : loop.proceed view = some after) :
    after.Honest together := by
  unfold StreamLoop.proceed at proceeded
  split at proceeded
  case _ idle =>
    cases proceeded
    exact honest.tick idle
  case _ reading =>
    cases proceeded
    refine ⟨honest.used, fun generation head isSending current => ?_⟩
    exact reads reading generation head (StreamPhase.sendPending.inj isSending) current
  case _ generation sending =>
    cases proceeded
    refine ⟨fun pair member => ?_, fun _ _ same => by cases same⟩
    rcases List.mem_append.mp member with earlier | new
    · exact honest.used pair earlier
    · obtain ⟨head, current, isPair⟩ := Option.bind_eq_some_iff.mp (Option.mem_toList.mp new)
      obtain ⟨known, rfl, rfl⟩ := Option.map_eq_some_iff.mp isPair
      exact honest.sending known head sending current
  · cases proceeded
    exact honest.refresh (fun _ same => by cases same)
  · cases proceeded
    exact honest.refresh (fun _ same => by cases same)
  · cases proceeded

theorem wake {channel} (woken : loop.wake channel = some after) : after.Honest together := by
  unfold StreamLoop.wake at woken
  split at woken
  all_goals first
    | cases woken
    | (split_ifs at woken
       cases woken
       exact honest.silent rfl (fun _ same => by cases same))

end Honest

end StreamLoop

def Loop.Honest (together : List (Cursor × Nat)) (loop : Loop) : Prop :=
  ∀ stream, loop = .stream stream → stream.Honest together

namespace Loop.Honest

variable {loop after : Loop} {view : ChainView}

variable (honest : loop.Honest together)
include honest

theorem withWait (wait : Notify.Wait Channel) : (loop.withWait wait).Honest together := by
  rintro stream isStream
  cases loop with
  | stream before =>
    have kept := honest before rfl
    simp only [Loop.withWait] at isStream
    split at isStream
    · cases isStream
      exact kept.silent rfl (fun _ same => by cases same)
    · cases isStream
      exact kept.silent rfl (fun _ same => by cases same)
    · cases isStream
      exact kept
  | segment size phase | group size phase => cases phase <;> cases isStream

theorem notify (channel : Option Channel) : (loop.notify channel).Honest together := by
  unfold Loop.notify
  cases loop.wait with
  | none => exact honest
  | some => exact honest.withWait _

theorem move {move} (reads : move = .proceed → ∀ stream, loop = .stream stream → stream.phase = .readGeneration →
      ∀ generation head, view.pendingGeneration = some generation → stream.current = some head →
        (head, generation) ∈ together) (moved : loop.step view move = some after) : after.Honest together := by
  cases move with
  | proceed =>
    rintro stream rfl
    cases loop with
    | stream before =>
      obtain ⟨_, proceeded, ⟨⟩⟩ := Option.map_eq_some_iff.mp moved
      exact (honest before rfl).proceed (reads rfl before rfl) proceeded
    | segment | group => obtain ⟨_, -, ⟨⟩⟩ := Option.map_eq_some_iff.mp moved
  | deliver cursor last =>
    simp only [Loop.step] at moved
    split at moved
    case _ before =>
      split at moved
      · cases moved
        rintro stream ⟨⟩
        refine (honest before rfl).silent rfl fun generation => ?_
        cases last <;> (intro same; cases same)
      · cases moved
    · cases moved
  | compacted =>
    simp only [Loop.step] at moved
    split at moved
    · cases moved
      exact fun _ same => by cases same
    · cases moved
      exact fun _ same => by cases same
    · cases moved
  | create =>
    obtain ⟨_, -, made⟩ := Option.bind_eq_some_iff.mp moved
    obtain ⟨next, -, rfl⟩ := Option.map_eq_some_iff.mp made
    exact honest.withWait next
  | wake =>
    simp only [Loop.step] at moved
    split at moved
    case _ before =>
      obtain ⟨_, woken, rfl⟩ := Option.map_eq_some_iff.mp moved
      rintro stream ⟨⟩
      exact (honest before rfl).wake woken
    · split_ifs at moved
      cases moved
      exact fun _ same => by cases same
    · split_ifs at moved
      cases moved
      exact fun _ same => by cases same
    · cases moved

end Loop.Honest

/-- The stored generation was published with the published head. -/
def World.Paired (world : World) (together : List (Cursor × Nat)) : Prop :=
  ∀ head generation, world.publishedLast = some head → world.etcd.pending = some generation →
    (head, generation) ∈ together

namespace PendingFollower

structure Sound (follower : PendingFollower) : Prop where
  stored : follower.synced.sync.world.Paired follower.together
  follows : follower.synced.sync.phase.HeadFollows follower.synced.sync.world follower.together
  honest : follower.synced.loop.Honest follower.together

end PendingFollower

theorem SyncPhase.Reading.follows {phase : SyncPhase} (reading : phase.Reading) (world : World)
    (together : List (Cursor × Nat)) : phase.HeadFollows world together := by
  cases phase with
  | readOptions | connecting | streaming | ended => exact reading.elim
  | readStartingBlock | readFinalized | readSegmented | readGrouped | readRecent | fetchRecent | readLegacyIngested
  | fetchLegacyRecent => trivial

theorem ChainView.update_other (view : ChainView) {update : IngestionStateUpdate} (other : update.Other) :
    (view.update update).canonical = view.canonical ∧ (view.update update).pendingGeneration = view.pendingGeneration := by
  cases update with
  | recent | pending => exact other.elim
  | startingBlock | finalized | segmented | grouped => exact ⟨rfl, rfl⟩

theorem ChainViewSync.Advances.follows {sync next : ChainViewSync} (advances : sync.Advances next)
    (stored : sync.world.Paired together) (follows : sync.phase.HeadFollows sync.world together)
    (opened : ∀ view, sync.phase = .connecting view → sync.world.publishedLast = some view.canonical.getHead ∧
      (view.pendingGeneration = none ∨ view.pendingGeneration = sync.world.etcd.pending))
    (found : ∀ view queue pointer, sync.phase = .streaming view queue (.fetch pointer) →
      sync.world.store.snapshots[pointer.key]? ≠ none) : next.phase.HeadFollows sync.world together := by
  cases advances with
  | reading phase _ after => exact after.follows _ _
  | loaded | loadedLegacy | opened | ended | lost => trivial
  | watched view before =>
    obtain ⟨isHead, isStored⟩ := opened view before
    refine ⟨.done isHead isStored, .inl fun generation shown => ?_⟩
    rcases isStored with nothing | same
    · cases nothing.symm.trans shown
    · exact stored _ generation isHead (same.symm.trans shown)
  | updated view update queue before other =>
    rw [before] at follows
    obtain ⟨updates, paired⟩ := follows
    cases updates with
    | announced isTogether rest =>
      refine ⟨rest, .inl ?_⟩
      rintro _ ⟨⟩
      exact isTogether
    | deleted rest => exact ⟨rest, .inl nofun⟩
    | published => exact absurd rfl (other _)
    | other isOther rest =>
      obtain ⟨canonical, pending⟩ := view.update_other isOther
      have stays : view.Paired together := by
        rcases paired with paired | ⟨_, isDeletion⟩
        · exact paired
        · obtain ⟨rfl, -⟩ := List.cons.inj isDeletion
          exact isOther.elim
      refine ⟨?_, .inl fun generation shown => ?_⟩
      · rw [canonical, pending]
        exact rest
      · rw [canonical]
        exact stays generation (pending ▸ shown)
  | took view pointer queue before =>
    rw [before] at follows
    refine ⟨follows.1, ?_⟩
    rcases follows.2 with paired | ⟨_, isDeletion⟩
    · exact paired
    · cases isDeletion
  | fetched view queue pointer recent before stored =>
    rw [before] at follows
    cases follows.1 with
    | published ends clean rest =>
      obtain rfl := ends.last recent stored
      refine ⟨rest, ?_⟩
      rcases clean with nothing | deletion
      · refine .inl fun generation shown => ?_
        cases nothing.symm.trans shown
      · exact .inr deletion
    | other isOther => exact isOther.elim
  | missed view queue pointer before missing => exact absurd missing (found view queue pointer before)
  | reread view queue pointer current before | refetched view queue current recent before =>
    rw [before] at follows
    exact follows.elim
  | skipped view queue pointer before =>
    rcases before with before | before
    · rw [before] at follows
      exact follows.elim
    · rw [before] at follows
      exact follows.elim

theorem StateWrite.apply_paired {world} {write : StateWrite} (applied : write.apply world = some after)
    (paired : world.Paired together) (grown : together ⊆ later)
    (recorded : ∀ generation head, write = .putPending generation → world.publishedLast = some head →
      (head, generation) ∈ later) : after.Paired later := by
  have kept : world.Paired later := fun head generation isHead isStored => grown (paired head generation isHead isStored)
  cases write with
  | putSegmented | putGrouped =>
    simp only [apply] at applied
    split_ifs at applied <;> (obtain rfl := Option.some.inj applied; exact kept)
  | publish =>
    cases applied
    exact nofun
  | deleteSnapshot =>
    simp only [apply] at applied
    split_ifs at applied
    cases applied
    refine fun head generation isHead isStored => kept head generation ?_ isStored
    obtain ⟨pointer, current, last⟩ := Option.bind_eq_some_iff.mp isHead
    obtain ⟨_, found, rfl⟩ := Option.map_eq_some_iff.mp last
    simp only [Std.ExtTreeMap.getElem?_erase] at found
    split_ifs at found
    exact Option.bind_eq_some_iff.mpr ⟨pointer, current, by rw [found]; rfl⟩
  | putPending generation =>
    cases applied
    rintro head _ isHead ⟨⟩
    exact recorded generation head rfl isHead
  | putStartingBlock | putFinalized | deleteLegacyIngested =>
    cases applied
    exact kept

theorem SyncPhase.HeadFollows.receive {world} {phase : SyncPhase} (follows : phase.HeadFollows world together)
    {write : StateWrite} (applied : write.apply world = some after) (grown : together ⊆ later)
    (recorded : ∀ generation head, write = .putPending generation → world.publishedLast = some head →
      (head, generation) ∈ later) : (phase.receive (write.updates world)).HeadFollows after later := by
  cases phase with
  | streaming view queue handling =>
    cases handling with
    | idle =>
      refine ⟨follows.1.receive applied grown recorded, ?_⟩
      rcases follows.2 with paired | ⟨-, rfl⟩
      · exact .inl fun generation shown => grown (paired generation shown)
      · exact .inr ⟨_, rfl⟩
    | fetch =>
      exact ⟨follows.1.receive applied grown recorded, fun generation shown => grown (follows.2 generation shown)⟩
    | reread | refetch => exact follows.elim
  | readStartingBlock | readFinalized | readSegmented | readGrouped | readRecent | fetchRecent | readLegacyIngested
  | fetchLegacyRecent | readOptions | connecting | ended => trivial

/-- Between two updates of the watch the view is paired, except in the middle of a
    publication. -/
theorem SyncPhase.HeadFollows.paired {world view queue handling}
    (follows : (SyncPhase.streaming view queue handling).HeadFollows world together)
    (between : handling = .idle → ∀ rest, queue ≠ .pending none :: rest) : view.Paired together := by
  cases handling with
  | idle =>
    rcases follows.2 with paired | ⟨rest, isDeletion⟩
    · exact paired
    · exact absurd isDeletion (between rfl rest)
  | fetch => exact follows.2
  | reread | refetch => exact follows.elim

theorem ChainViewSync.fail_follows (sync : ChainViewSync) (report : Report ChainViewError)
    (together : List (Cursor × Nat)) : (sync.fail report).phase.HeadFollows sync.world together := by
  unfold ChainViewSync.fail
  split
  case _ before => rw [before]; trivial
  · trivial
  case _ before => rw [before]; trivial
  · trivial

namespace PendingFollower

variable {follower after : PendingFollower}

theorem mem_pairs {world : World} {head} (isHead : world.publishedLast = some head) (generation : Nat) :
    (head, generation) ∈ world.pairs (some generation) := by
  simp [World.pairs, isHead]

theorem Sound.write (sound : follower.Sound) {write} (stepped : follower.step (.sync (.write write)) = some after) :
    after.Sound := by
  obtain ⟨synced, ran, rfl⟩ := Option.map_eq_some_iff.mp stepped
  obtain ⟨sync, wrote, rfl⟩ := Option.map_eq_some_iff.mp ran
  obtain ⟨world, applied, rfl⟩ := Option.map_eq_some_iff.mp wrote
  have grown := List.subset_append_left follower.together
    (follower.synced.sync.world.pairs (SyncedInput.generation (.sync (.write write))))
  have recorded : ∀ generation head, write = .putPending generation →
      follower.synced.sync.world.publishedLast = some head →
      (head, generation) ∈ follower.together ++
        follower.synced.sync.world.pairs (SyncedInput.generation (.sync (.write write))) := by
    rintro generation head rfl isHead
    exact List.mem_append_right _ (mem_pairs isHead generation)
  exact ⟨StateWrite.apply_paired applied sound.stored grown recorded, sound.follows.receive applied grown recorded,
    fun stream isStream => (sound.honest stream isStream).mono grown⟩

theorem Sound.step (sound : follower.Sound) {input} (inStep : follower.InStep input)
    (stepped : follower.step input = some after) : after.Sound := by
  cases input with
  | sync input =>
    cases input with
    | write write => exact sound.write stepped
    | advance =>
      obtain ⟨synced, ran, rfl⟩ := Option.map_eq_some_iff.mp stepped
      obtain ⟨sync, advanced, rfl⟩ := Option.map_eq_some_iff.mp ran
      have world := ChainViewSync.advance_world advanced
      have follows := (ChainViewSync.advance_cases advanced).follows sound.stored sound.follows inStep.1 inStep.2
      simp only [SyncedInput.generation, World.pairs_none, List.append_nil]
      refine ⟨?_, ?_, ?_⟩
      · simp only [world]
        exact sound.stored
      · simp only [world]
        exact follows
      · cases follower.synced.sync.calls with
        | none => exact sound.honest
        | some setter => exact sound.honest.notify setter.channel
    | fail report =>
      obtain ⟨synced, ran, rfl⟩ := Option.map_eq_some_iff.mp stepped
      cases ran
      have world := ChainViewSync.fail_world follower.synced.sync report
      simp only [SyncedInput.generation, World.pairs_none, List.append_nil]
      refine ⟨?_, ?_, sound.honest⟩
      · simp only [world]
        exact sound.stored
      · simp only [world]
        exact ChainViewSync.fail_follows ..
  | move move =>
    obtain ⟨_, ran, rfl⟩ := Option.map_eq_some_iff.mp stepped
    obtain ⟨_, visible, moved⟩ := Option.bind_eq_some_iff.mp ran
    obtain ⟨_, made, rfl⟩ := Option.map_eq_some_iff.mp moved
    simp only [SyncedInput.generation, World.pairs_none, List.append_nil]
    refine ⟨sound.stored, sound.follows, sound.honest.move ?_ made⟩
    rintro rfl stream isStream reading generation head shown current
    obtain ⟨_, _, _, phase, isHead, between⟩ := inStep stream isStream reading
    have follows := sound.follows
    rw [phase] at visible follows
    cases visible
    obtain rfl := isHead head current
    exact SyncPhase.HeadFollows.paired follows between generation shown

theorem start_sound (sync : ChainViewSync) (begins : sync.phase = .readStartingBlock) {stream : StreamLoop}
    (idle : stream.phase = .idle) (unused : stream.used = []) : (start sync stream).Sound := by
  refine ⟨?_, ?_, ?_⟩
  · intro head generation isHead isStored
    have paired := mem_pairs isHead generation
    rw [← isStored] at paired
    exact paired
  · simp only [start, begins]
    trivial
  · rintro _ ⟨⟩
    exact ⟨by simp [unused], by simp [idle]⟩

theorem usesTogether_of_inStep {world : World} {storedOptions : StoredOptions} {chainStore : ChainStoreGet}
    {stream : StreamLoop} (idle : stream.phase = .idle) (unused : stream.used = []) {inputs : List SyncedInput}
    {last : PendingFollower}
    (inStep : Runs.Meets step InStep (start (.start world storedOptions chainStore) stream) inputs)
    (reached : Runs.run step (start (.start world storedOptions chainStore) stream) inputs = some last) :
    last.UsesTogether := by
  have sound : last.Sound := Runs.run_guarded (fun _ _ _ sound guard stepped => sound.step guard stepped)
    (start_sound _ rfl idle unused) inStep reached
  exact fun stream isStream => (sound.honest stream isStream).used

end PendingFollower

namespace MixedHead

open MissedHead

/-- One block is published and there is no pending block. -/
def world : World :=
  World.fresh.applyAll [.putStartingBlock 0, .putFinalized 0,
    .putRecentSnapshot 0 (Building.single genesis).snapshot, .putRecent ⟨0, 0, 0⟩]

def stream : StreamLoop :=
  { finality := .pending, current := some genesis.cursor, finalized := genesis.cursor, phase := .idle, used := [] }

def follower : PendingFollower := .start (.start world ⟨some 100, some 1, some 1⟩ fun _ => .ok none) stream

/-- The watch is open and the pending block on top of the first block is published. -/
def announced : List SyncedInput :=
  List.replicate 8 (.sync .advance) ++ [.sync (.write (.putPending 1)), .sync .advance]

/-- The stream sends the second block, reaches the head and asks for the generation. -/
def reads : List SyncedInput :=
  [.move .proceed, .move (.deliver second.cursor true), .move .proceed, .move .proceed, .move .proceed]

/-- The second block is published.  The view has its snapshot, and still the
    generation. -/
def inputs : List SyncedInput :=
  announced ++ [.sync (.write (.publish extended)), .sync .advance, .sync .advance] ++ reads

/-- The stream sends the pending block of the head that it has. -/
def inStep : List SyncedInput := announced ++ [.move .proceed, .move .proceed, .move .proceed]

def checkInStep (follower : PendingFollower) : SyncedInput → Bool
  | .sync .advance =>
    match follower.synced.sync.phase with
    | .connecting view =>
      follower.synced.sync.world.publishedLast = some view.canonical.getHead && view.pendingGeneration = none
    | .streaming _ _ (.fetch pointer) => (follower.synced.sync.world.store.snapshots[pointer.key]?).isSome
    | _ => true
  | .move .proceed =>
    match follower.synced.loop, follower.synced.sync.phase with
    | .stream stream, .streaming view queue _ =>
      stream.current = some view.canonical.getHead && queue.head? ≠ some (.pending none)
    | _, _ => false
  | _ => true

theorem inStep_of_check (follower : PendingFollower) (input : SyncedInput) (checked : checkInStep follower input = true) :
    follower.InStep input := by
  cases input with
  | sync input =>
    cases input with
    | advance =>
      refine ⟨fun view connecting => ?_, fun view queue pointer fetching missing => ?_⟩
      · simp only [checkInStep, connecting, Bool.and_eq_true, decide_eq_true_eq] at checked
        exact ⟨checked.1, .inl checked.2⟩
      · simp only [checkInStep, fetching, missing, Option.isSome_none, Bool.false_eq_true] at checked
    | write | fail => trivial
  | move move =>
    cases move with
    | proceed =>
      rintro stream isStream -
      simp only [checkInStep, isStream] at checked
      split at checked
      case _ before view queue handling isBefore streaming =>
        cases isBefore
        simp only [Bool.and_eq_true, decide_eq_true_eq] at checked
        refine ⟨view, queue, handling, streaming, fun head current => ?_, fun _ rest isDeletion => ?_⟩
        · exact Option.some.inj (current.symm.trans checked.1)
        · exact checked.2 (by rw [isDeletion]; rfl)
      · cases checked
    | deliver | compacted | create | wake => trivial

end MixedHead

open MixedHead

/-- The generation of the pending block 1 is used for the pending block 2. -/
theorem PendingFollower.usesTogether_fails_mixedHead : ∃ last stream,
    Runs.run PendingFollower.step MixedHead.follower MixedHead.inputs = some last ∧
      last.synced.loop = .stream stream ∧ stream.used = [(MissedHead.second.cursor, 1)] ∧
      last.together = [(MissedHead.genesis.cursor, 1)] ∧ ¬ last.UsesTogether := by
  obtain ⟨last, stream, reached, isStream, used, together⟩ : ∃ last stream,
      Runs.run PendingFollower.step MixedHead.follower MixedHead.inputs = some last ∧
        last.synced.loop = .stream stream ∧ stream.used = [(MissedHead.second.cursor, 1)] ∧
        last.together = [(MissedHead.genesis.cursor, 1)] := ⟨_, _, rfl, rfl, rfl, rfl⟩
  refine ⟨last, stream, reached, isStream, used, together, fun usesTogether => ?_⟩
  have pair := usesTogether stream isStream (MissedHead.second.cursor, 1) (used ▸ List.mem_cons_self)
  rw [together] at pair
  exact absurd pair (by decide)

theorem PendingFollower.usesTogether_inStep : ∃ last stream,
    Runs.run PendingFollower.step MixedHead.follower MixedHead.inStep = some last ∧
      last.synced.loop = .stream stream ∧ stream.used = [(MissedHead.genesis.cursor, 1)] ∧ last.UsesTogether := by
  obtain ⟨last, stream, reached, isStream, used⟩ : ∃ last stream,
      Runs.run PendingFollower.step MixedHead.follower MixedHead.inStep = some last ∧
        last.synced.loop = .stream stream ∧ stream.used = [(MissedHead.genesis.cursor, 1)] :=
    ⟨_, _, rfl, rfl, rfl⟩
  refine ⟨last, stream, reached, isStream, used, usesTogether_of_inStep rfl rfl ?_ reached⟩
  exact .of_checks inStep_of_check rfl

end Starkstream
