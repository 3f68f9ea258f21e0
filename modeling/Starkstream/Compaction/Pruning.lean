import Starkstream.Compaction.Services

/-! # Calls of the prune loop

The prune service on its own: its loop is called again and again, and any call can
be cut off after any of its operations.  Between two operations the group service
may raise the value it stores, and other services may store objects, for blocks
only above that value.

`pruned` is inclusive, and a call begins at the value that it finds, so that the
last block of the call before is listed once more.  A batch ends after a segment,
or behind the grouped block.
-/

namespace Starkstream

open BlockStore

/-! ## Deletes -/

namespace ObjectStore

/-- `delete`, one after the other. -/
def eraseAll (store : ObjectStore) (keys : List String) : ObjectStore :=
  keys.foldl (fun store key => store.erase key) store

variable {store : ObjectStore}

theorem mem_eraseAll {keys key} : key ∈ store.eraseAll keys ↔ key ∈ store ∧ key ∉ keys := by
  induction keys generalizing store with
  | nil => simp [eraseAll]
  | cons first rest ih =>
    have later : key ∈ store.eraseAll (first :: rest) ↔ key ∈ store.erase first ∧ key ∉ rest := ih
    rw [later, AList.mem_erase, List.mem_cons, not_or, and_assoc, and_left_comm]

theorem mem_eraseAll_list {blockNumber key} :
    key ∈ store.eraseAll (store.list blockNumber) ↔ key ∈ store ∧ isListed blockNumber key = false := by
  rw [mem_eraseAll, list, List.mem_filter, ← AList.mem_keys, not_and, Bool.not_eq_true]
  exact and_congr_right fun present => ⟨fun other => other present, fun other _ => other⟩

/-- Nothing is stored for the block numbers from `first` up to before `stop`. -/
def Cleared (store : ObjectStore) (first stop : Nat) : Prop :=
  ∀ number name, first ≤ number → number < stop → blockObjectKey number name ∉ store

theorem Cleared.mono {fewer : ObjectStore} {first stop} (cleared : store.Cleared first stop)
    (sub : ∀ key ∈ fewer, key ∈ store) : fewer.Cleared first stop :=
  fun number name lower upper present => cleared number name lower upper (sub _ present)

/-- What was not listed for a block number is not for that number. -/
theorem Cleared.succ {first stop} (cleared : store.Cleared first stop) (none : ∀ key ∈ store, isListed stop key = false) :
    store.Cleared first (stop + 1) := by
  intro number name lower upper present
  rcases Nat.lt_succ_iff_lt_or_eq.mp upper with earlier | rfl
  · exact cleared number name lower earlier present
  · exact Bool.false_ne_true ((none _ present).symm.trans (isListed_blockObjectKey number name))

theorem cleared_self (store : ObjectStore) (first : Nat) : store.Cleared first first :=
  fun _ _ lower upper => absurd upper (not_lt.mpr lower)

end ObjectStore

/-! ## The service -/

structure Pruning where
  archive : Archive
  stage : PruneStage

inductive PruneInput where
  /-- The next operation of the loop. -/
  | prune (view : ChainView)
  /-- The call ends here: it was cancelled, it failed, or the process died. -/
  | interrupt
  | grouped (block : Nat)
  /-- Another service stores an object. -/
  | put (key : String) (object : StoredObject)

namespace Pruning

def fresh (options : CompactionServiceOptions) (store : ObjectStore) : Pruning :=
  ⟨{ Archive.fresh options [] with store }, .start⟩

variable (pruning : Pruning)

def step : PruneInput → Option Pruning
  | .prune view =>
    let (archive, stage) := pruning.stage.step view pruning.archive
    some { archive, stage }
  | .interrupt => some { pruning with stage := .start }
  | .grouped block => some { pruning with archive := pruning.archive.putGrouped block }
  | .put key object =>
    some { pruning with archive := { pruning.archive with store := pruning.archive.store.insert key object } }

/-- Blocks are stored above the grouped block only, and the chain view knows the first
    block. -/
def Allows (genesis : Nat) : PruneInput → Prop
  | .prune view => view.canonical.startingBlock = genesis
  | .put key _ => ∀ number name, key = blockObjectKey number name →
      ∀ grouped ∈ pruning.archive.grouped.values, grouped < number
  | _ => True

/-- Every block number in the store has at most ten digits. -/
def ShortKeys (store : ObjectStore) : Prop := ∀ number name, blockObjectKey number name ∈ store → number < 10 ^ 10

end Pruning

/-- Objects are stored for blocks with at most ten digits. -/
def PruneInput.Short : PruneInput → Prop
  | .put key _ => ∀ number name, key = blockObjectKey number name → number < 10 ^ 10
  | _ => True

def PruneStage.grouped? : PruneStage → Option Nat
  | .start => none
  | .gotGrouped grouped | .noPruned grouped | .loop grouped _ | .round grouped _ _ | .deleting grouped _ _ _ =>
    some grouped

/-- A call that is at `stage` ends when nothing interrupts it. -/
inductive PruneStage.Finishes (view : ChainView) : Archive → PruneStage → Archive → Prop
  | last {archive after : Archive} {stage : PruneStage} (ends : stage.step view archive = (after, .start)) :
      Finishes view archive stage after
  | next {archive middle after : Archive} {stage further : PruneStage}
      (moves : stage.step view archive = (middle, further)) (continues : further ≠ .start)
      (finishes : Finishes view middle further after) : Finishes view archive stage after

namespace Pruning

/-- What an operation may do. -/
structure Careful (before after : Pruning) : Prop where
  deletes : ∀ number name, blockObjectKey number name ∈ before.archive.store →
    blockObjectKey number name ∉ after.archive.store →
      ∃ grouped, before.stage.grouped? = some grouped ∧ number ≤ grouped
  monotone : ∀ pruned, before.archive.pruned = some pruned →
    ∃ next, after.archive.pruned = some next ∧ pruned ≤ next

/-- What holds in every state of the service. -/
structure Correct (genesis : Nat) (pruning : Pruning) : Prop where
  bounded : ∀ pruned, pruning.archive.pruned = some pruned →
    ∃ grouped, pruning.archive.grouped.value = some grouped ∧ pruned ≤ grouped
  cleared : ∀ pruned, pruning.archive.pruned = some pruned → pruning.archive.store.Cleared genesis (pruned + 1)
  careful : ∀ input after, pruning.Allows genesis input → pruning.step input = some after → pruning.Careful after
  /-- A call that is not interrupted ends. -/
  ends : ∀ grouped, pruning.archive.grouped.value = some grouped →
    ∀ view cursor, view.canonical.startingBlock = genesis → view.getStartingCursor = .ok cursor →
      ∃ after, PruneStage.Finishes view pruning.archive .start after ∧ after.store.Cleared genesis grouped

end Pruning

/-! ## One operation -/

def PruneStage.Marked (genesis : Nat) (archive : Archive) : PruneStage → Prop
  | .start => True
  | .gotGrouped grouped => grouped ∈ archive.grouped.values ∧ ∀ pruned, archive.pruned = some pruned → pruned ≤ grouped
  | .noPruned grouped => grouped ∈ archive.grouped.values ∧ archive.pruned = none
  -- the first block may be far above the grouped one
  | .loop grouped current => grouped ∈ archive.grouped.values ∧ (current ≤ grouped + 1 ∨ current = genesis) ∧
      archive.store.Cleared genesis current ∧ ∀ pruned, archive.pruned = some pruned → pruned ≤ current
  | .round grouped current left => grouped ∈ archive.grouped.values ∧ current ≤ grouped + 1 ∧
      archive.store.Cleared genesis current ∧
      -- the batch deletes at least one block before it stores the last one
      (0 < current ∧ (∀ pruned, archive.pruned = some pruned → pruned < current) ∨
        0 < left ∧ current ≤ grouped ∧ ∀ pruned, archive.pruned = some pruned → pruned ≤ current)
  | .deleting grouped current _ keys => grouped ∈ archive.grouped.values ∧ current ≤ grouped ∧
      archive.store.Cleared genesis current ∧ (∀ pruned, archive.pruned = some pruned → pruned ≤ current) ∧
      (∀ key ∈ keys, isListed current key = true) ∧
      ∀ name, blockObjectKey current name ∈ archive.store → blockObjectKey current name ∈ keys

/-- What the other services do between two operations. -/
structure Archive.Beside (before after : Archive) : Prop where
  grouped : ∀ block ∈ before.grouped.values, block ∈ after.grouped.values
  pruned : after.pruned = before.pruned
  above : ∀ number name, blockObjectKey number name ∈ after.store → blockObjectKey number name ∉ before.store →
    ∀ grouped ∈ before.grouped.values, grouped < number

variable {grouped genesis : Nat}

namespace Archive.Beside

variable {before after : Archive}

variable (beside : Beside before after)
include beside

theorem present {number} (had : grouped ∈ before.grouped.values) (bound : number ≤ grouped) {name}
    (present : blockObjectKey number name ∈ after.store) : blockObjectKey number name ∈ before.store := by
  by_contra absent
  exact absurd bound (not_le.mpr (beside.above number name present absent grouped had))

theorem cleared {stop} (had : grouped ∈ before.grouped.values) (bound : stop ≤ grouped + 1)
    (cleared : before.store.Cleared genesis stop) : after.store.Cleared genesis stop :=
  fun number name lower upper present => cleared number name lower upper (beside.present had (by omega) present)

theorem marked {stage : PruneStage} (marked : stage.Marked genesis before) : stage.Marked genesis after := by
  cases stage with
  | start => trivial
  | gotGrouped grouped => exact ⟨beside.grouped _ marked.1, beside.pruned ▸ marked.2⟩
  | noPruned grouped => exact ⟨beside.grouped _ marked.1, beside.pruned.trans marked.2⟩
  | loop grouped =>
    obtain ⟨had, bound, cleared, behind⟩ := marked
    refine ⟨beside.grouped _ had, bound, ?_, beside.pruned ▸ behind⟩
    rcases bound with inside | rfl
    · exact beside.cleared had inside cleared
    · exact ObjectStore.cleared_self _ _
  | round grouped =>
    obtain ⟨had, bound, cleared, behind⟩ := marked
    exact ⟨beside.grouped _ had, bound, beside.cleared had bound cleared, beside.pruned ▸ behind⟩
  | deleting grouped =>
    obtain ⟨had, bound, cleared, behind, listed, found⟩ := marked
    exact ⟨beside.grouped _ had, bound, beside.cleared had (by omega) cleared, beside.pruned ▸ behind, listed,
      fun name present => found name (beside.present had bound present)⟩

end Archive.Beside

namespace Pruning

variable {pruning after : Pruning}

structure Sound (genesis : Nat) (pruning : Pruning) : Prop where
  marked : pruning.stage.Marked genesis pruning.archive
  bounded : ∀ pruned, pruning.archive.pruned = some pruned → ∃ grouped ∈ pruning.archive.grouped.values, pruned ≤ grouped
  cleared : ∀ pruned, pruning.archive.pruned = some pruned → pruning.archive.store.Cleared genesis (pruned + 1)
  short : ShortKeys pruning.archive.store

theorem Sound.beside (sound : pruning.Sound genesis) {archive} (beside : pruning.archive.Beside archive)
    (short : ShortKeys archive.store) {stage : PruneStage} (marked : stage.Marked genesis archive) :
    Sound genesis ⟨archive, stage⟩ where
  marked := marked
  bounded pruned isPruned := by
    obtain ⟨grouped, had, bound⟩ := sound.bounded pruned (beside.pruned.symm.trans isPruned)
    exact ⟨grouped, beside.grouped grouped had, bound⟩
  cleared pruned isPruned := by
    have before := beside.pruned.symm.trans isPruned
    obtain ⟨_, had, bound⟩ := sound.bounded pruned before
    exact beside.cleared had (Nat.succ_le_succ bound) (sound.cleared pruned before)
  short := short

theorem beside_self (archive : Archive) : archive.Beside archive where
  grouped _ had := had
  pruned := rfl
  above _ _ present absent := absurd present absent

theorem Sound.reads (sound : pruning.Sound genesis) {stage : PruneStage}
    (marked : stage.Marked genesis pruning.archive) : Sound genesis ⟨pruning.archive, stage⟩ :=
  sound.beside (beside_self _) sound.short marked

theorem Careful.still {before after : Pruning} (store : ∀ key ∈ before.archive.store, key ∈ after.archive.store)
    (pruned : after.archive.pruned = before.archive.pruned) : before.Careful after where
  deletes _ _ present absent := absurd (store _ present) absent
  monotone block isPruned := ⟨block, pruned.trans isPruned, le_rfl⟩

variable (sound : pruning.Sound genesis)
include sound

theorem Sound.stores {current left} (isRound : pruning.stage = .round grouped current left)
    (ends : left = 0 ∨ grouped < current) :
    Sound genesis ⟨pruning.archive.putPruned (current - 1), .loop grouped current⟩ ∧
      pruning.Careful ⟨pruning.archive.putPruned (current - 1), .loop grouped current⟩ := by
  have marked := sound.marked
  rw [isRound] at marked
  obtain ⟨had, bound, cleared, behind⟩ := marked
  obtain ⟨positive, behind⟩ : 0 < current ∧ ∀ pruned, pruning.archive.pruned = some pruned → pruned < current := by
    rcases behind with deleted | ⟨_, _, -⟩
    · exact deleted
    · omega
  refine ⟨⟨⟨had, .inl bound, cleared, ?_⟩, ?_, ?_, sound.short⟩, fun _ _ present absent => absurd present absent, ?_⟩
  · rintro _ ⟨⟩
    exact Nat.sub_le _ _
  · rintro _ ⟨⟩
    exact ⟨grouped, had, by omega⟩
  · rintro _ ⟨⟩
    rw [Nat.sub_add_cancel positive]
    exact cleared
  · intro pruned isPruned
    exact ⟨current - 1, rfl, Nat.le_sub_one_of_lt (behind pruned isPruned)⟩

theorem Sound.deletes {current left : Nat} {key keys}
    (isDeleting : pruning.stage = .deleting grouped current left (key :: keys)) :
    Sound genesis ⟨pruning.archive.delete key, .deleting grouped current left keys⟩ ∧
      pruning.Careful ⟨pruning.archive.delete key, .deleting grouped current left keys⟩ := by
  have marked := sound.marked
  rw [isDeleting] at marked
  obtain ⟨had, bound, cleared, behind, listed, found⟩ := marked
  have fewer : ∀ other ∈ (pruning.archive.delete key).store, other ≠ key ∧ other ∈ pruning.archive.store :=
    fun other present => AList.mem_erase.mp present
  refine ⟨⟨⟨had, bound, cleared.mono fun other present => (fewer other present).2, behind, ?_, ?_⟩, sound.bounded,
    fun pruned isPruned => (sound.cleared pruned isPruned).mono fun other present => (fewer other present).2,
    fun number name present => sound.short number name (fewer _ present).2⟩, ?_,
    fun pruned isPruned => ⟨pruned, isPruned, le_rfl⟩⟩
  · exact fun other member => listed other (List.mem_cons_of_mem _ member)
  · intro name present
    obtain ⟨different, before⟩ := fewer _ present
    exact (List.mem_cons.mp (found name before)).resolve_left different
  · intro number name present absent
    have isKey : blockObjectKey number name = key := by
      by_contra different
      exact absent (AList.mem_erase.mpr ⟨different, present⟩)
    have isCurrent := number_of_isListed (sound.short number name present) (isKey ▸ listed key List.mem_cons_self)
    rw [isDeleting]
    exact ⟨grouped, rfl, isCurrent ▸ bound⟩

theorem Sound.prune {view} (allows : pruning.Allows genesis (.prune view))
    (stepped : pruning.step (.prune view) = some after) : after.Sound genesis ∧ pruning.Careful after := by
  obtain ⟨archive, stage⟩ := pruning
  cases stepped
  have still {next : PruneStage} : Careful ⟨archive, stage⟩ ⟨archive, next⟩ := .still (fun _ present => present) rfl
  have marked := sound.marked
  cases stage with
  | start =>
    refine ⟨sound.reads ?_, still⟩
    cases isValue : archive.grouped.value with
    | none => trivial
    | some =>
      refine ⟨HighWater.value_mem isValue, fun pruned isPruned => ?_⟩
      obtain ⟨_, had, below⟩ := sound.bounded pruned isPruned
      obtain ⟨_, isCurrent, le⟩ := HighWater.le_value had
      rw [isValue] at isCurrent
      cases isCurrent
      exact below.trans le
  | gotGrouped =>
    refine ⟨sound.reads ?_, still⟩
    obtain ⟨had, bound⟩ := marked
    cases isPruned : archive.pruned with
    | none => exact ⟨had, isPruned⟩
    | some pruned =>
      refine ⟨had, .inl ((bound pruned isPruned).trans (Nat.le_succ _)), ?_, ?_⟩
      · exact fun number name lower upper => sound.cleared pruned isPruned number name lower (Nat.lt_succ_of_lt upper)
      · intro other isOther
        rw [isPruned] at isOther
        exact (Option.some.inj isOther).ge
  | noPruned grouped =>
    refine ⟨sound.reads ?_, still⟩
    obtain ⟨had, isNone⟩ := marked
    cases starts : view.getStartingCursor with
    | error => trivial
    | ok cursor =>
      have isGenesis : cursor.number = genesis := (ChainView.cursorAt_number starts).trans allows
      show PruneStage.Marked genesis archive (.loop grouped cursor.number)
      rw [isGenesis]
      refine ⟨had, .inr rfl, ObjectStore.cleared_self _ _, fun pruned isPruned => ?_⟩
      cases isNone.symm.trans isPruned
  | loop =>
    obtain ⟨had, -, cleared, behind⟩ := marked
    dsimp only
    split_ifs with inside
    · exact ⟨sound.reads ⟨had, by omega, cleared, .inr ⟨archive.options.segmentPositive, inside.le, behind⟩⟩, still⟩
    · exact ⟨sound.reads trivial, still⟩
  | round grouped current =>
    dsimp only
    split_ifs with ends
    · exact sound.stores rfl ends
    · obtain ⟨had, -, cleared, behind⟩ := marked
      refine ⟨sound.reads ⟨had, by omega, cleared, ?_, ?_, ?_⟩, still⟩
      · intro pruned isPruned
        rcases behind with ⟨-, below⟩ | ⟨-, -, below⟩
        · exact (below pruned isPruned).le
        · exact below pruned isPruned
      · exact fun key member => (List.mem_filter.mp member).2
      · intro name present
        exact List.mem_filter.mpr ⟨AList.mem_keys.mp present, isListed_blockObjectKey current name⟩
  | deleting grouped current left keys =>
    cases keys with
    | cons => exact sound.deletes rfl
    | nil =>
      obtain ⟨had, _, cleared, behind, -, found⟩ := marked
      refine ⟨sound.reads ⟨had, by omega, ?_, .inl ⟨Nat.succ_pos _, ?_⟩⟩, still⟩
      · intro number name lower upper present
        rcases Nat.lt_succ_iff_lt_or_eq.mp upper with earlier | rfl
        · exact cleared number name lower earlier present
        · cases found name present
      · exact fun pruned isPruned => Nat.lt_succ_of_le (behind pruned isPruned)

theorem Sound.step {input} (allows : pruning.Allows genesis input) (short : input.Short)
    (stepped : pruning.step input = some after) : after.Sound genesis := by
  cases input with
  | prune => exact (sound.prune allows stepped).1
  | interrupt =>
    cases stepped
    exact sound.reads trivial
  | grouped block =>
    cases stepped
    have beside : pruning.archive.Beside (pruning.archive.putGrouped block) :=
      ⟨fun _ had => HighWater.subset_putIfHigher had, rfl, fun _ _ present absent => absurd present absent⟩
    exact sound.beside beside sound.short (beside.marked sound.marked)
  | put key object =>
    cases stepped
    have beside : pruning.archive.Beside
        { pruning.archive with store := pruning.archive.store.insert key object } := by
      refine ⟨fun _ had => had, rfl, fun number name present absent => ?_⟩
      have isKey := (AList.mem_insert _ |>.mp present).resolve_right absent
      exact allows number name isKey.symm
    refine sound.beside beside (fun number name present => ?_) (beside.marked sound.marked)
    rcases AList.mem_insert _ |>.mp present with isKey | before
    · exact short number name isKey.symm
    · exact sound.short number name before

theorem Sound.careful {input} (allows : pruning.Allows genesis input) (stepped : pruning.step input = some after) :
    pruning.Careful after := by
  cases input with
  | prune => exact (sound.prune allows stepped).2
  | interrupt | grouped =>
    cases stepped
    exact .still (fun _ present => present) rfl
  | put =>
    cases stepped
    exact .still (fun other present => AList.mem_insert _ |>.mpr (.inr present)) rfl

end Pruning

/-! ## A whole call -/

namespace PruneStage.Finishes

variable {view : ChainView} {archive after : Archive} {current : Nat}

theorem ofDeleting {left keys} (finishes : Finishes view { archive with store := archive.store.eraseAll keys }
      (.round grouped (current + 1) (left - 1)) after) :
    Finishes view archive (.deleting grouped current left keys) after := by
  induction keys generalizing archive with
  | nil => exact .next rfl (by simp) finishes
  | cons key keys ih => exact .next rfl (by simp) (ih finishes)

theorem ofEnded {left} (ended : left = 0 ∨ grouped < current)
    (finishes : Finishes view (archive.putPruned (current - 1)) (.loop grouped current) after) :
    Finishes view archive (.round grouped current left) after := by
  have moves : PruneStage.step view archive (.round grouped current left) =
      (archive.putPruned (current - 1), .loop grouped current) := if_pos ended
  exact .next moves (by simp) finishes

theorem ofRound {left : Nat} (cleared : archive.store.Cleared genesis current)
    (finishes : ∀ later : Archive, ∀ reached, current + min left (grouped + 1 - current) ≤ reached →
      later.store.Cleared genesis reached →
      ∃ after, Finishes view later (.loop grouped reached) after ∧ after.store.Cleared genesis grouped) :
    ∃ after, Finishes view archive (.round grouped current left) after ∧ after.store.Cleared genesis grouped := by
  induction left generalizing archive current with
  | zero =>
    obtain ⟨after, ends, all⟩ := finishes (archive.putPruned (current - 1)) current (by omega) cleared
    exact ⟨after, .ofEnded (.inl rfl) ends, all⟩
  | succ left ih =>
    by_cases ended : grouped < current
    · obtain ⟨after, ends, all⟩ := finishes (archive.putPruned (current - 1)) current (by omega) cleared
      exact ⟨after, .ofEnded (.inr ended) ends, all⟩
    have moves : PruneStage.step view archive (.round grouped current (left + 1)) =
        (archive, .deleting grouped current (left + 1) (archive.store.list current)) := if_neg (by omega)
    have next : ObjectStore.Cleared (archive.store.eraseAll (archive.store.list current)) genesis (current + 1) :=
      (cleared.mono fun key present => (ObjectStore.mem_eraseAll_list.mp present).1).succ
        fun key present => (ObjectStore.mem_eraseAll_list.mp present).2
    obtain ⟨after, ends, all⟩ : ∃ after,
        Finishes view { archive with store := archive.store.eraseAll (archive.store.list current) }
          (.round grouped (current + 1) left) after ∧ after.store.Cleared genesis grouped :=
      ih next fun later reached bound => finishes later reached (by omega)
    exact ⟨after, .next moves (by simp) (ofDeleting ends), all⟩

theorem ofLoop {archive : Archive} {current} (grouped : Nat) (cleared : archive.store.Cleared genesis current) :
    ∃ after, Finishes view archive (.loop grouped current) after ∧ after.store.Cleared genesis grouped := by
  by_cases inside : current < grouped
  · have size := archive.options.segmentPositive
    have moves : PruneStage.step view archive (.loop grouped current) =
        (archive, .round grouped current archive.options.segmentSize) := by
      simp only [PruneStage.step, if_pos inside]
    obtain ⟨after, ends, all⟩ := ofRound cleared fun later reached bound reachedCleared =>
      ofLoop grouped reachedCleared
    exact ⟨after, .next moves (by simp) ends, all⟩
  · refine ⟨archive, .last ?_, fun number name lower upper => cleared number name lower (by omega)⟩
    simp only [PruneStage.step, if_neg inside]
termination_by grouped - current

end PruneStage.Finishes

namespace Pruning

variable {pruning : Pruning}

theorem Sound.ends (sound : pruning.Sound genesis) (isGrouped : pruning.archive.grouped.value = some grouped)
    {view : ChainView} {cursor} (startsAt : view.canonical.startingBlock = genesis)
    (starts : view.getStartingCursor = .ok cursor) :
    ∃ after, PruneStage.Finishes view pruning.archive .start after ∧ after.store.Cleared genesis grouped := by
  have begins {after : Archive} (rest : PruneStage.Finishes view pruning.archive (.gotGrouped grouped) after) :
      PruneStage.Finishes view pruning.archive .start after := by
    have moves : PruneStage.step view pruning.archive .start = (pruning.archive, .gotGrouped grouped) := by
      simp only [PruneStage.step, isGrouped, Option.elim_some]
    exact .next moves (by simp) rest
  cases isPruned : pruning.archive.pruned with
  | some pruned =>
    have cleared : pruning.archive.store.Cleared genesis pruned := fun number name lower upper =>
      sound.cleared pruned isPruned number name lower (Nat.lt_succ_of_lt upper)
    have moves : PruneStage.step view pruning.archive (.gotGrouped grouped) =
        (pruning.archive, .loop grouped pruned) := by
      simp only [PruneStage.step, isPruned, Option.elim_some]
    obtain ⟨after, ends, all⟩ := PruneStage.Finishes.ofLoop grouped cleared
    exact ⟨after, begins (.next moves (by simp) ends), all⟩
  | none =>
    have moves : PruneStage.step view pruning.archive (.gotGrouped grouped) =
        (pruning.archive, .noPruned grouped) := by
      simp only [PruneStage.step, isPruned, Option.elim_none]
    have isGenesis : cursor.number = genesis := (ChainView.cursorAt_number starts).trans startsAt
    have further : PruneStage.step view pruning.archive (.noPruned grouped) =
        (pruning.archive, .loop grouped genesis) := by
      simp only [PruneStage.step, starts, Except.toOption, Option.elim_some, isGenesis]
    obtain ⟨after, ends, all⟩ := PruneStage.Finishes.ofLoop grouped (pruning.archive.store.cleared_self genesis)
    exact ⟨after, begins (.next moves (by simp) (.next further (by simp) ends)), all⟩

theorem Sound.correct (sound : pruning.Sound genesis) : pruning.Correct genesis where
  bounded pruned isPruned := by
    obtain ⟨_, had, bound⟩ := sound.bounded pruned isPruned
    obtain ⟨current, isCurrent, le⟩ := HighWater.le_value had
    exact ⟨current, isCurrent, bound.trans le⟩
  cleared := sound.cleared
  careful _ _ allows stepped := sound.careful allows stepped
  ends _ isGrouped _ _ startsAt starts := sound.ends isGrouped startsAt starts

theorem fresh_sound (options : CompactionServiceOptions) {store} (short : ShortKeys store) :
    (fresh options store).Sound genesis :=
  ⟨trivial, fun _ isPruned => (by cases isPruned), fun _ isPruned => (by cases isPruned), short⟩

/-- Pruning is safe and complete up to its watermark while block numbers have at
    most ten digits. -/
theorem correct_of_short {options : CompactionServiceOptions} {store : ObjectStore} {genesis : Nat}
    {inputs : List PruneInput} {last : Pruning} (short : ShortKeys store)
    (allows : Runs.Meets step (Allows · genesis) (fresh options store) inputs) (shortInputs : ∀ input ∈ inputs, input.Short)
    (reached : Runs.run step (fresh options store) inputs = some last) : last.Correct genesis :=
  (Runs.run_guarded (fun _ _ _ before guard stepped => before.step guard.1 guard.2 stepped)
    (fresh_sound options short) (allows.and_forall shortInputs) reached).correct

end Pruning

namespace TwoBlocks

def options : CompactionServiceOptions := ⟨1, 1, Nat.one_pos, Nat.one_pos⟩

def block : Block := ⟨⟨[]⟩, ⟨[]⟩, ⟨[]⟩, []⟩

def store (first second : Nat) : ObjectStore :=
  ObjectStore.putBlock (ObjectStore.putBlock ∅ ⟨first, ⟨[1]⟩⟩ block) ⟨second, ⟨[2]⟩⟩ block

def view (genesis : Nat) : ChainView :=
  .new genesis none none 1 1
    { store := fun _ => .ok none
      startingBlock := genesis
      chainSegmentSize := 1
      recent :=
        { previousSegment := none
          info := ⟨⟨genesis, ⟨[1]⟩⟩, ⟨genesis, ⟨[1]⟩⟩⟩
          canonical := [⟨⟨[1]⟩, ∅⟩]
          extraReorgs := [] } }

/-- The block after the first one is grouped, and the loop takes some steps. -/
def inputs (genesis steps : Nat) : List PruneInput :=
  .grouped (genesis + 1) :: List.replicate steps (.prune (view genesis))

theorem shortKeys_store {first second} (firstShort : first < 10 ^ 10) (secondShort : second < 10 ^ 10) :
    Pruning.ShortKeys (store first second) := by
  intro number name present
  rcases AList.mem_insert _ |>.mp present with isSecond | earlier
  · exact (number_of_blockObjectKey isSecond).trans_lt secondShort
  rcases AList.mem_insert _ |>.mp earlier with isFirst | nothing
  · exact (number_of_blockObjectKey isFirst).trans_lt firstShort
  · exact absurd nothing (AList.notMem_empty _)

theorem allows_inputs (genesis steps : Nat) {pruning} :
    Runs.Meets Pruning.step (Pruning.Allows · genesis) pruning (inputs genesis steps) := by
  refine .of_forall fun input member pruning => ?_
  rcases List.mem_cons.mp member with rfl | repeated
  · trivial
  · obtain rfl := List.eq_of_mem_replicate repeated
    rfl

end TwoBlocks

open TwoBlocks

/-- The second block is above the grouped one and stays. -/
theorem Pruning.correct_of_short_twoBlocks :
    ∃ last, Runs.run Pruning.step (.fresh TwoBlocks.options (TwoBlocks.store 0 7)) (TwoBlocks.inputs 0 8) =
        some last ∧ last.archive.pruned = some 0 ∧
      last.archive.store.keys = [formatBlockKey ⟨7, ⟨[2]⟩⟩] ∧ last.Correct 0 := by
  obtain ⟨last, reached, pruned, keys⟩ :
      ∃ last, Runs.run Pruning.step (.fresh TwoBlocks.options (TwoBlocks.store 0 7)) (TwoBlocks.inputs 0 8) =
          some last ∧ last.archive.pruned = some 0 ∧
        last.archive.store.keys = [formatBlockKey ⟨7, ⟨[2]⟩⟩] := ⟨_, rfl, rfl, rfl⟩
  refine ⟨last, reached, pruned, keys, Pruning.correct_of_short (shortKeys_store (by decide) (by decide))
    (allows_inputs 0 8) (fun input member => ?_) reached⟩
  rcases List.mem_cons.mp member with rfl | repeated
  · trivial
  · obtain rfl := List.eq_of_mem_replicate repeated
    trivial

/-- A block with eleven digits is deleted together with the block that its first ten
    digits are. -/
theorem Pruning.not_correct_eleven_digits :
    ∃ last, Runs.Meets Pruning.step (Pruning.Allows · (10 ^ 9))
        (.fresh TwoBlocks.options (TwoBlocks.store (10 ^ 9) (10 ^ 10))) (TwoBlocks.inputs (10 ^ 9) 5) ∧
      Runs.run Pruning.step (.fresh TwoBlocks.options (TwoBlocks.store (10 ^ 9) (10 ^ 10)))
          (TwoBlocks.inputs (10 ^ 9) 5) = some last ∧
      ¬ last.Correct (10 ^ 9) := by
  obtain ⟨last, after, reached, stepped, grouped, present, absent⟩ :
      ∃ last after, Runs.run Pruning.step (.fresh TwoBlocks.options (TwoBlocks.store (10 ^ 9) (10 ^ 10)))
          (TwoBlocks.inputs (10 ^ 9) 5) = some last ∧
        last.step (.prune (TwoBlocks.view (10 ^ 9))) = some after ∧
        last.stage.grouped? = some (10 ^ 9 + 1) ∧
        blockObjectKey (10 ^ 10) "0x02" ∈ last.archive.store.keys ∧
        blockObjectKey (10 ^ 10) "0x02" ∉ after.archive.store.keys :=
    ⟨_, _, rfl, rfl, rfl, by decide, by decide⟩
  refine ⟨last, allows_inputs _ _, reached, fun correct => ?_⟩
  have careful := correct.careful (.prune (TwoBlocks.view (10 ^ 9))) after rfl stepped
  obtain ⟨read, isRead, bound⟩ := careful.deletes (10 ^ 10) "0x02" present absent
  cases grouped.symm.trans isRead
  exact absurd bound (by decide)

end Starkstream
