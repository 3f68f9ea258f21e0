import Starkstream.ChainView.Sync
import Starkstream.Ingestion.Ticks

/-! # Migration of the legacy recent segment

A store of an older ingester holds one mutable object with the recent segment, and a key
in etcd instead of a pointer.  The first start publishes the segment under the new layout
and then removes the old one.  Each of these writes is a step of its own here: the process
can die between any two of them and be started again, and the requests of a consumer that
starts fall between them.
-/

namespace Starkstream

open CanonicalChainBuilder
open IngestionService

/-- What an older ingester leaves behind. -/
structure LegacyStore (segment : CanonicalChainSegment) (world : World) : Prop where
  ordered : segment.info.firstBlock.number ≤ segment.info.lastBlock.number
  recent : world.store.legacyRecent = some segment
  ingested : world.etcd.legacyIngested.isSome
  noPointer : world.etcd.recent = none

structure Migration where
  /-- The consumer, with etcd and the store. -/
  sync : ChainViewSync
  /-- What the running process has still to write. -/
  rest : Option (List Write)

inductive MigrationInput where
  | start (options : IngestionServiceOptions) (supportsPending : Bool) (answers : InitializeAnswers)
  | write
  | crash
  /-- The next request of the consumer, until `get_recent` returned a segment. -/
  | consume
  | restartConsumer

/-- `get_recent` did not return a segment yet. -/
def SyncPhase.isReading : SyncPhase → Bool
  | .readOptions _ _ | .connecting _ | .streaming _ _ _ | .ended _ => false
  | _ => true

namespace Migration

def fresh (world : World) (storedOptions : StoredOptions) (chainStore : ChainStoreGet) : Migration :=
  ⟨.start world storedOptions chainStore, none⟩

def step (migration : Migration) : MigrationInput → Option Migration
  | .start options supportsPending answers =>
    match migration.rest with
    | none => some { migration with
        rest := some (initializeService migration.sync.world (.new options supportsPending) answers).writes }
    | some _ => none
  | .write =>
    match migration.rest with
    | some (effect :: rest) => some
        ⟨{ migration.sync with world := migration.sync.world.apply effect }, some rest⟩
    | _ => none
  | .crash => migration.rest.map fun _ => { migration with rest := none }
  | .consume =>
    if migration.sync.phase.isReading then
      migration.sync.advance.map fun sync => { migration with sync }
    else none
  | .restartConsumer => some
      { migration with sync := .start migration.sync.world migration.sync.storedOptions migration.sync.chainStore }

end Migration

/-- A start takes the segment up again and never starts anew: it fails only when the node
    does not answer. -/
structure Restores (segment : CanonicalChainSegment) (answers : InitializeAnswers)
    (tick : Tick (IngestionService × IngestionState)) : Prop where
  notAnew : ∀ block, .putStartingBlock block ∉ tick.writes
  same : ∀ service state, tick.result = .ok (service, state) → service.chainBuilder = restoreFromSegment segment
  starts : ∀ head finalized, answers.head = .ok head → answers.finalized = .ok finalized →
    (∀ report, answers.blockInfo segment.info.lastBlock.number = .error report → report.isBlockNotFound = true) →
    ∃ service state, tick.result = .ok (service, state) ∧
      Restarts finalized head segment.info.lastBlock answers state

/-- What the consumer has read is the segment, and its request did not fail. -/
def SyncPhase.ReadsOnly (segment : CanonicalChainSegment) : SyncPhase → Prop
  | .readOptions _ recent => recent = segment
  | .connecting _ | .streaming _ _ _ | .ended _ => False
  | _ => True

/-! ## The writes of a start -/

namespace IngestionService

/-- The writes of `migrate_legacy_recent_segment`. -/
def migrationWrites (world : World) (segment : CanonicalChainSegment) (answers : InitializeAnswers) : List Write :=
  publishWrites world segment ++
    ((if answers.deletesLegacyRecent then [.deleteLegacyRecent] else []) ++
      (if answers.deletesLegacyIngested then [.deleteLegacyIngested] else []))

theorem putStartingBlock_not_mem_migrationWrites (world : World) (segment : CanonicalChainSegment)
    (answers : InitializeAnswers) (block : Nat) : .putStartingBlock block ∉ migrationWrites world segment answers := by
  rw [migrationWrites]
  cases answers.deletesLegacyRecent <;> cases answers.deletesLegacyIngested <;> simp [publishWrites]

theorem migrateLegacyRecentSegment_some {world : World} {segment} (legacy : world.store.legacyRecent = some segment)
    (answers : InitializeAnswers) :
    migrateLegacyRecentSegment world answers = ⟨migrationWrites world segment answers, .ok (some segment)⟩ := by
  rw [migrateLegacyRecentSegment, legacy, migrationWrites]
  cases answers.deletesLegacyRecent <;> cases answers.deletesLegacyIngested <;> rfl

/-- The cursor to start from, for a segment that is published or migrated now. -/
def ResumesFrom (world : World) (service : IngestionService) (answers : InitializeAnswers)
    (segment : CanonicalChainSegment) (writes : List Write) : Prop :=
  getStartingCursor world service answers =
    ⟨writes, (checkLastBlock segment.info.lastBlock answers).map fun action =>
      ({ service with chainBuilder := restoreFromSegment segment }, action)⟩

theorem resumesFrom_published {world segment} (recent : recentSegment world = .ok (some segment))
    (service : IngestionService) (answers : InitializeAnswers) : ResumesFrom world service answers segment [] := by
  rw [ResumesFrom, getStartingCursor_some recent]
  cases checkLastBlock segment.info.lastBlock answers <;> rfl

theorem resumesFrom_legacy {world segment} (recent : recentSegment world = .ok none)
    (legacy : world.store.legacyRecent = some segment) (service : IngestionService) (answers : InitializeAnswers) :
    ResumesFrom world service answers segment (migrationWrites world segment answers) := by
  rw [ResumesFrom, getStartingCursor, recent, Planned.lift_ok_bind, migrateLegacyRecentSegment_some legacy]
  cases checked : checkLastBlock segment.info.lastBlock answers <;> simp [Planned.ok_bind, Except.map, checked]

variable {world : World} {service : IngestionService} {answers : InitializeAnswers} {segment : CanonicalChainSegment}
  {writes : List Write}

theorem checkLastBlock_fault {lastBlock fault} (failed : checkLastBlock lastBlock answers = .error fault) :
    ∃ report, answers.blockInfo lastBlock.number = .error report ∧ report.isBlockNotFound ≠ true := by
  unfold checkLastBlock at failed
  split at failed
  · split_ifs at failed
  · rename_i report unanswered
    split_ifs at failed with notFound
    exact ⟨report, unanswered, notFound⟩

variable (resumes : ResumesFrom world service answers segment writes)
include resumes

theorem ResumesFrom.writes_cases :
    (initializeService world service answers).writes = [] ∨
      ∃ finalized, (initializeService world service answers).writes = .putFinalized finalized :: writes := by
  cases headIs : answers.head with
  | error =>
    rw [initializeService, headIs]
    exact .inl rfl
  | ok =>
  cases finalizedIs : answers.finalized with
  | error =>
    rw [initializeService, headIs, finalizedIs]
    exact .inl rfl
  | ok finalized =>
    rw [initializeService_eq headIs finalizedIs, resumes]
    refine .inr ⟨finalized.number, ?_⟩
    rcases checkLastBlock_cases segment.info.lastBlock answers with ⟨_, failed⟩ | recovers | ⟨resumed, -⟩
    · rw [failed]
      rfl
    · rw [recovers]
      simp [Except.map, Planned.ok_bind, beginIngestion]
    · rw [resumed]
      simp [Except.map, Planned.ok_bind, beginIngestion]

theorem ResumesFrom.restores (notAnew : ∀ block, .putStartingBlock block ∉ writes) :
    Restores segment answers (initializeService world service answers) := by
  refine ⟨?_, ?_, ?_⟩
  · intro block member
    rcases resumes.writes_cases with nothing | ⟨finalized, some⟩
    · rw [nothing] at member
      cases member
    · rw [some, List.mem_cons] at member
      exact notAnew block (member.resolve_left nofun)
  · intro after state returned
    cases headIs : answers.head with
    | error =>
      rw [initializeService, headIs] at returned
      cases returned
    | ok =>
    cases finalizedIs : answers.finalized with
    | error =>
      rw [initializeService, headIs, finalizedIs] at returned
      cases returned
    | ok =>
      rw [initializeService_eq headIs finalizedIs, resumes] at returned
      rcases checkLastBlock_cases segment.info.lastBlock answers with ⟨fault, failed⟩ | recovers | ⟨resumed, -⟩
      · rw [failed] at returned
        cases returned
      · rw [recovers] at returned
        cases returned
        rfl
      · rw [resumed] at returned
        cases returned
        rfl
  · intro head finalized headIs finalizedIs answered
    rw [initializeService_eq headIs finalizedIs, resumes]
    rcases checkLastBlock_cases segment.info.lastBlock answers with ⟨_, failed⟩ | recovers | ⟨resumed, confirmed⟩
    · obtain ⟨report, unanswered, other⟩ := checkLastBlock_fault failed
      exact absurd (answered report unanswered) other
    · rw [recovers]
      exact ⟨_, _, rfl, .inl rfl⟩
    · rw [resumed]
      exact ⟨_, _, rfl, .inr ⟨rfl, confirmed⟩⟩

end IngestionService

/-! ## Crashes -/

/-- The segment is in the legacy object, or it is published. -/
structure World.Migrating (segment : CanonicalChainSegment) (world : World) : Prop where
  unpublished : world.etcd.recent = none → world.store.legacyRecent = some segment
  legacy : ∀ other, world.store.legacyRecent = some other → other = segment
  published : ∀ pointer, world.etcd.recent = some pointer → world.store.snapshots[pointer.key]? = some segment ∧
    pointer.firstBlock = segment.info.firstBlock.number ∧ pointer.lastBlock = segment.info.lastBlock.number

def Write.isPutRecent : Write → Bool
  | .putRecent _ => true
  | _ => false

namespace World.Migrating

variable {segment : CanonicalChainSegment} {world : World}

variable (migrating : world.Migrating segment)
include migrating

section
variable (ordered : segment.info.firstBlock.number ≤ segment.info.lastBlock.number)
include ordered

theorem getRecentSnapshot {pointer} (published : world.etcd.recent = some pointer) :
    world.getRecentSnapshot pointer = .ok (some segment) := by
  obtain ⟨stored, _, _⟩ := migrating.published pointer published
  simp only [World.getRecentSnapshot, stored]
  rw [if_neg (by omega), if_neg (by omega)]

/-- Whatever was written before a crash, a start finds the segment. -/
theorem resumesFrom (service : IngestionService) (answers : InitializeAnswers) :
    (∃ pointer, world.etcd.recent = some pointer ∧ ResumesFrom world service answers segment []) ∨
      (world.etcd.recent = none ∧
        ResumesFrom world service answers segment (migrationWrites world segment answers)) := by
  cases recent : world.etcd.recent with
  | some pointer =>
    refine .inl ⟨pointer, rfl, resumesFrom_published ?_ service answers⟩
    rw [recentSegment, recent]
    exact migrating.getRecentSnapshot ordered recent
  | none =>
    refine .inr ⟨rfl, resumesFrom_legacy ?_ (migrating.unpublished recent) service answers⟩
    rw [recentSegment, recent]

end

theorem putFinalized (block : Nat) : (world.apply (.putFinalized block)).Migrating segment :=
  ⟨migrating.unpublished, migrating.legacy, migrating.published⟩

theorem migration (nothing : world.etcd.recent = none) (answers : InitializeAnswers) :
    Effects.Always World.apply (World.Migrating segment) world (migrationWrites world segment answers) := by
  have stored : (world.apply (.putRecentSnapshot world.store.nextKey segment)).Migrating segment :=
    ⟨migrating.unpublished, migrating.legacy, fun pointer published => nomatch nothing.symm.trans published⟩
  have published : (world.applyAll (publishWrites world segment)).Migrating segment := by
    refine ⟨nofun, migrating.legacy, ?_⟩
    rintro pointer ⟨⟩
    refine ⟨?_, rfl, rfl⟩
    simp only [World.applyAll, publishWrites, List.foldl_cons, List.foldl_nil, World.apply,
      Std.ExtTreeMap.getElem?_insert_self]
  refine .append (.cons migrating (.cons stored (.nil published))) ?_
  -- once the pointer is there, the legacy object and its key are not needed
  have kept : Effects.Always World.apply (fun world => world.Migrating segment ∧ world.etcd.recent.isSome = true)
      (world.applyAll (publishWrites world segment))
      ((if answers.deletesLegacyRecent then [.deleteLegacyRecent] else []) ++
        (if answers.deletesLegacyIngested then [.deleteLegacyIngested] else [])) := by
    refine .of_kept ⟨published, rfl⟩ fun effect member before ⟨migrating, pointed⟩ => ?_
    have deletes : effect = .deleteLegacyRecent ∨ effect = .deleteLegacyIngested := by
      rcases List.mem_append.mp member with first | second
      · split_ifs at first <;> simp_all
      · split_ifs at second <;> simp_all
    rcases deletes with rfl | rfl
    · refine ⟨⟨fun unpointed => ?_, nofun, migrating.published⟩, pointed⟩
      rw [show before.etcd.recent = none from unpointed] at pointed
      cases pointed
    · exact ⟨⟨migrating.unpublished, migrating.legacy, migrating.published⟩, pointed⟩
  exact kept.mono fun _ both => both.1

/-- What a start writes: the pointer at most once, and not if there is one. -/
theorem initializeService (ordered : segment.info.firstBlock.number ≤ segment.info.lastBlock.number)
    (service : IngestionService) (answers : InitializeAnswers) :
    Effects.Always World.apply (World.Migrating segment) world
        (IngestionService.initializeService world service answers).writes ∧
      (IngestionService.initializeService world service answers).writes.countP Write.isPutRecent ≤
        (if world.etcd.recent.isNone then 1 else 0) := by
  have count : (migrationWrites world segment answers).countP Write.isPutRecent = 1 := by
    rw [migrationWrites]
    cases answers.deletesLegacyRecent <;> cases answers.deletesLegacyIngested <;> rfl
  rcases migrating.resumesFrom ordered service answers with ⟨-, -, resumes⟩ | ⟨nothing, resumes⟩
  · rcases resumes.writes_cases with none | ⟨finalized, first⟩
    · rw [none]
      exact ⟨.nil migrating, Nat.zero_le _⟩
    · rw [first]
      exact ⟨.cons migrating (.nil (migrating.putFinalized finalized)), Nat.zero_le _⟩
  · rcases resumes.writes_cases with none | ⟨finalized, first⟩
    · rw [none]
      exact ⟨.nil migrating, Nat.zero_le _⟩
    · rw [first, nothing]
      refine ⟨.cons migrating ((migrating.putFinalized finalized).migration nothing answers), ?_⟩
      rw [List.countP_cons_of_neg (by simp [Write.isPutRecent]), count]
      rfl

end World.Migrating

theorem World.apply_recent (world : World) {effect : Write} (other : effect.isPutRecent = false) :
    (world.apply effect).etcd.recent = world.etcd.recent := by
  cases effect with
  | putRecent => cases other
  | _ => rfl

namespace Migration

/-- What holds between any two steps. -/
structure Sound (segment : CanonicalChainSegment) (migration : Migration) : Prop where
  world : migration.sync.world.Migrating segment
  rest : ∀ rest, migration.rest = some rest →
    Effects.Always World.apply (World.Migrating segment) migration.sync.world rest ∧
      rest.countP Write.isPutRecent ≤ (if migration.sync.world.etcd.recent.isNone then 1 else 0)
  pointed : ∀ reads pointer, migration.sync.phase = .fetchRecent reads pointer →
    migration.sync.world.etcd.recent = some pointer
  reads : migration.sync.phase.ReadsOnly segment

variable {segment : CanonicalChainSegment} {migration next : Migration}

variable (sound : migration.Sound segment)
include sound

theorem Sound.advance (ordered : segment.info.firstBlock.number ≤ segment.info.lastBlock.number)
    (reading : migration.sync.phase.isReading = true) :
    ∃ phase installed, migration.sync.advance = some { migration.sync with phase, installed } ∧
      phase.ReadsOnly segment ∧
      ∀ reads pointer, phase = .fetchRecent reads pointer → migration.sync.world.etcd.recent = some pointer := by
  rw [ChainViewSync.advance]
  cases isPhase : migration.sync.phase with
  | readStartingBlock =>
    cases migration.sync.world.etcd.startingBlock <;> exact ⟨_, _, rfl, trivial, by rintro _ _ ⟨⟩⟩
  | readFinalized =>
    cases migration.sync.world.etcd.finalized <;> exact ⟨_, _, rfl, trivial, by rintro _ _ ⟨⟩⟩
  | readSegmented | readGrouped =>
    exact ⟨_, _, rfl, trivial, by rintro _ _ ⟨⟩⟩
  | readRecent =>
    cases recent : migration.sync.world.etcd.recent with
    | none => exact ⟨_, _, rfl, trivial, by rintro _ _ ⟨⟩⟩
    | some =>
      refine ⟨_, _, rfl, trivial, ?_⟩
      rintro _ _ ⟨⟩
      rfl
  | fetchRecent reads pointer =>
    have found := sound.world.getRecentSnapshot ordered (sound.pointed reads pointer isPhase)
    simp only [ChainViewSync.getRecentSnapshot, found, Outcome.changeContext]
    exact ⟨_, _, rfl, rfl, by rintro _ _ ⟨⟩⟩
  | readLegacyIngested =>
    cases migration.sync.world.etcd.legacyIngested <;> exact ⟨_, _, rfl, trivial, by rintro _ _ ⟨⟩⟩
  | fetchLegacyRecent =>
    cases legacy : migration.sync.world.store.legacyRecent with
    | none => exact ⟨_, _, rfl, trivial, by rintro _ _ ⟨⟩⟩
    | some other => exact ⟨_, _, rfl, sound.world.legacy other legacy, by rintro _ _ ⟨⟩⟩
  | readOptions | connecting | streaming | ended =>
    rw [isPhase] at reading
    cases reading

theorem Sound.write {effect rest} (running : migration.rest = some (effect :: rest)) :
    Sound segment ⟨{ migration.sync with world := migration.sync.world.apply effect }, some rest⟩ := by
  obtain ⟨always, once⟩ := sound.rest _ running
  have here := always.2.take 0
  cases isPut : effect.isPutRecent with
  | true =>
    -- the pointer was not there, and it is not written again
    rw [List.countP_cons_of_pos isPut] at once
    have unpublished : migration.sync.world.etcd.recent = none := by
      cases recent : migration.sync.world.etcd.recent with
      | none => rfl
      | some =>
        rw [recent] at once
        cases once
    refine ⟨here, ?_, ?_, sound.reads⟩
    · rintro _ ⟨⟩
      refine ⟨always.2, ?_⟩
      rw [unpublished] at once
      have none : rest.countP Write.isPutRecent = 0 := Nat.le_zero.mp (Nat.le_of_succ_le_succ once)
      rw [none]
      exact Nat.zero_le _
    · intro reads pointer isPhase
      exact nomatch unpublished.symm.trans (sound.pointed reads pointer isPhase)
  | false =>
    have same := migration.sync.world.apply_recent isPut
    rw [List.countP_cons_of_neg (by rw [isPut]; exact Bool.false_ne_true)] at once
    refine ⟨here, ?_, ?_, sound.reads⟩
    · rintro _ ⟨⟩
      exact ⟨always.2, same ▸ once⟩
    · intro reads pointer isPhase
      exact same.trans (sound.pointed reads pointer isPhase)

theorem Sound.step (ordered : segment.info.firstBlock.number ≤ segment.info.lastBlock.number) {input}
    (stepped : migration.step input = some next) : next.Sound segment := by
  cases input with
  | start options supportsPending answers =>
    simp only [Migration.step] at stepped
    split at stepped
    · cases stepped
      refine ⟨sound.world, ?_, sound.pointed, sound.reads⟩
      rintro _ ⟨⟩
      exact sound.world.initializeService ordered _ answers
    · cases stepped
  | write =>
    simp only [Migration.step] at stepped
    split at stepped
    · cases stepped
      exact sound.write ‹_›
    · cases stepped
  | crash =>
    obtain ⟨_, -, rfl⟩ := Option.map_eq_some_iff.mp stepped
    exact ⟨sound.world, nofun, sound.pointed, sound.reads⟩
  | consume =>
    simp only [Migration.step, Option.ite_none_right_eq_some] at stepped
    obtain ⟨reading, advanced⟩ := stepped
    obtain ⟨_, _, isNext, readsOnly, pointed⟩ := sound.advance ordered reading
    rw [isNext] at advanced
    cases advanced
    exact ⟨sound.world, sound.rest, pointed, readsOnly⟩
  | restartConsumer =>
    cases stepped
    exact ⟨sound.world, sound.rest, nofun, trivial⟩

end Migration

theorem LegacyStore.sound {segment world} (legacy : LegacyStore segment world) (storedOptions : StoredOptions)
    (chainStore : ChainStoreGet) : (Migration.fresh world storedOptions chainStore).Sound segment := by
  refine ⟨⟨fun _ => legacy.recent, ?_, ?_⟩, nofun, nofun, trivial⟩
  · intro other stored
    exact Option.some.inj (stored.symm.trans legacy.recent)
  · intro pointer published
    exact nomatch legacy.noPointer.symm.trans published

/-- Whatever was written before the process died, each start restores the legacy segment;
    and each request of a consumer in between succeeds, with `None` or with that segment. -/
theorem Migration.restores_and_reads {segment : CanonicalChainSegment} {world : World}
    (legacy : LegacyStore segment world) (storedOptions : StoredOptions) (chainStore : ChainStoreGet)
    {inputs : List MigrationInput} {migration : Migration}
    (reached : Runs.run Migration.step (.fresh world storedOptions chainStore) inputs = some migration) :
    (∀ options supportsPending answers, Restores segment answers
      (initializeService migration.sync.world (.new options supportsPending) answers)) ∧
    migration.sync.phase.ReadsOnly segment ∧
    (migration.sync.phase.isReading = true → ∃ next, migration.step .consume = some next) := by
  have sound : migration.Sound segment :=
    Runs.run_invariant (fun _ _ _ _ before stepped => before.step legacy.ordered stepped)
      (legacy.sound storedOptions chainStore) reached
  refine ⟨?_, sound.reads, ?_⟩
  · intro options supportsPending answers
    rcases sound.world.resumesFrom legacy.ordered (.new options supportsPending) answers with
      ⟨pointer, -, resumes⟩ | ⟨-, resumes⟩
    · exact resumes.restores (fun _ => List.not_mem_nil)
    · exact resumes.restores (putStartingBlock_not_mem_migrationWrites _ segment answers)
  · intro reading
    obtain ⟨phase, installed, isNext, -⟩ := sound.advance legacy.ordered reading
    rw [Migration.step, if_pos reading, isNext]
    exact ⟨_, rfl⟩

namespace LegacyGenesis

def block : BlockInfo := ⟨0, ⟨[1]⟩, ⟨[]⟩⟩

def segment : CanonicalChainSegment := ⟨none, ⟨block.cursor, block.cursor⟩, [⟨block.hash, ∅⟩], []⟩

def world : World :=
  { etcd := ⟨some 0, some 0, none, none, none, none, some "version"⟩
    store := ⟨∅, ∅, 0, some segment⟩ }

theorem legacyStore : LegacyStore segment world := ⟨le_rfl, rfl, rfl, rfl⟩

def answers : InitializeAnswers :=
  { head := .ok block.cursor
    finalized := .ok block.cursor
    blockInfo := fun _ => .ok block
    ingestBlock := fun _ => .ok block
    deletesLegacyRecent := true
    deletesLegacyIngested := false }

/-- The process dies once the snapshot is stored, and again once the pointer is. -/
def crashes : List MigrationInput :=
  [.start .default false answers, .consume, .write, .write, .crash, .start .default false answers, .consume, .write,
    .write, .write, .crash]

end LegacyGenesis

open LegacyGenesis

theorem Migration.restores_and_reads_crashes :
    ∃ migration, Runs.run Migration.step (.fresh LegacyGenesis.world ⟨none, none, none⟩ fun _ => .ok none) crashes =
        some migration ∧
      Restores LegacyGenesis.segment LegacyGenesis.answers
        (initializeService migration.sync.world (.new .default false) LegacyGenesis.answers) ∧
      ∃ next, migration.step .consume = some next := by
  obtain ⟨migration, reached, reading⟩ : ∃ migration,
      Runs.run Migration.step (.fresh LegacyGenesis.world ⟨none, none, none⟩ fun _ => .ok none) crashes =
        some migration ∧ migration.sync.phase.isReading = true := ⟨_, rfl, rfl⟩
  obtain ⟨restores, -, consumes⟩ := restores_and_reads LegacyGenesis.legacyStore _ _ reached
  exact ⟨migration, reached, restores .default false LegacyGenesis.answers, consumes reading⟩

end Starkstream
