import Starkstream.BlockStore.Keys
import Starkstream.Ingestion.Pending

/-! # Reading the pending block

The object of a pending block is named by its number and generation alone, and a
reader keeps what it fetched under a name.  The generation starts again with
every block, recovery and start, so a name can be used twice.  Reads are fresh
while no pair is requested a second time, and the published generation belongs
to the published head.
-/

namespace Starkstream

open IngestionService BlockStore

variable {α : Type}

def PendingTask.key (task : PendingTask) : String :=
  formatPendingBlockKey (task.parent.number + 1) task.generation

namespace PendingRun

variable {run after : PendingRun α}

theorem Sound.step_tasks {input} (sound : run.Sound) (stepped : run.step (.service input) = some after) :
    after.uploads = run.uploads ∧ (after.tasks = run.tasks ∨
      ∃ service state, input.event = .refreshPending ∧ run.system.process = some (service, .ingest state) ∧
        state.pendingBlockState.queued = false ∧
        after.tasks = run.tasks ++ [⟨state.lastIngested, state.pendingBlockState.generation + 1⟩]) := by
  obtain ⟨event, crash⟩ := input
  simp only [PendingRun.step, Option.ite_none_right_eq_some, Option.map_eq_some_iff] at stepped
  obtain ⟨-, _, stepped, rfl⟩ := stepped
  refine ⟨rfl, ?_⟩
  obtain ⟨tick, planned, rfl⟩ := Option.map_eq_some_iff.mp stepped
  have fewer : QueueMove run.system.queue (run.system.finish crash tick).queue →
      (run.serve ⟨event, crash⟩ (run.system.finish crash tick)).tasks = run.tasks :=
    fun move => (serve_suffix _ _ sound.mirrors move.suffix).1
  cases PendingEffect.of_plan sound.ok planned with
  | quiet unannounced kept queue => exact .inl (fewer (.finish queue))
  | published unannounced kept queue =>
    refine .inl (fewer (.finish fun running returned => ?_))
    rcases queue running returned with cleared | ⟨_, _, _, before, after⟩
    · exact cleared ▸ .cleared _
    · exact before ▸ after ▸ .popped _ _ _
  | @requested service state running idle =>
    rcases System.queue_finish with empty | ⟨after, -, returned, same⟩
    · exact .inl (fewer (empty ▸ .cleared _))
    · cases returned
      refine .inr ⟨service, state, rfl, running, idle, (serve_requested _ crash sound.mirrors ?_).1⟩
      rw [same, System.queue_of_running running]
      simp [pushIngestPendingBlock]
  | announced running queue =>
    refine .inl (fewer (.finish ?_))
    rintro after ⟨⟩
    rw [System.queue_of_running running, queue]
    exact .tail _ _

/-- The object under a key: the last upload counts. -/
def object (run : PendingRun α) (key : String) : Option α :=
  (run.uploads.reverse.find? fun upload => run.tasks[upload.1]?.map PendingTask.key = some key).map Prod.snd

end PendingRun

/-- Ingestion, and a reader that fetches through its file cache. -/
structure PendingReader (α : Type) where
  run : PendingRun α
  cache : String → Option α

namespace PendingReader

def fresh (options : IngestionServiceOptions) (supportsPending : Bool) : PendingReader α :=
  ⟨.fresh options supportsPending, fun _ => none⟩

/-- `get_pending_block`: `get_or_fetch` on the cache. -/
def getPendingBlock (reader : PendingReader α) (number generation : Nat) : Option α :=
  let key := formatPendingBlockKey number generation
  (reader.cache key).or (reader.run.object key)

/-- What is fetched is kept; a fetch that fails is not. -/
def read (reader : PendingReader α) (number generation : Nat) : PendingReader α :=
  { reader with
    cache := fun key =>
      if key = formatPendingBlockKey number generation then reader.getPendingBlock number generation
      else reader.cache key }

inductive Step (α : Type) where
  | ingestion (input : PendingInput α)
  | read (number generation : Nat)

def step (reader : PendingReader α) : Step α → Option (PendingReader α)
  | .ingestion input => (reader.run.step input).map fun run => { reader with run }
  | .read number generation => some (reader.read number generation)

/-- Reading the published pending block gives what the announced task uploaded. -/
def ReadsFresh (reader : PendingReader α) : Prop :=
  ∀ generation last, reader.run.system.world.etcd.pending = some generation →
    reader.run.system.world.publishedLast = some last → ∃ task bytes, reader.run.announced = some task ∧
      (task, bytes) ∈ reader.run.uploads ∧ reader.getPendingBlock (last.number + 1) generation = some bytes

/-- A pending block is requested at the published head, and no pending block with
    its number and generation was requested before. -/
def RequestsNew (reader : PendingReader α) : Step α → Prop
  | .ingestion input => reader.run.RequestsAtHead input ∧
      match input with
      | .service ⟨.refreshPending, _⟩ => ∀ service state, reader.run.system.process = some (service, .ingest state) →
          state.pendingBlockState.queued = false → ∀ task ∈ reader.run.tasks,
            ¬ (task.parent.number = state.lastIngested.number ∧
              task.generation = state.pendingBlockState.generation + 1)
      | _ => True
  | .read _ _ => True

/-- Every name belongs to one task, every task uploads once, and the cache holds
    what was uploaded. -/
structure Unique (reader : PendingReader α) : Prop where
  names : reader.run.tasks.Pairwise fun first second => first.key ≠ second.key
  uploads : (reader.run.uploads.map Prod.fst).Nodup
  cached : ∀ key bytes, reader.cache key = some bytes → ∃ task, (task, bytes) ∈ reader.run.uploads ∧
    reader.run.tasks[task]?.map PendingTask.key = some key

variable {reader after : PendingReader α} {key : String} {task other : Nat} {bytes otherBytes : α}

theorem fresh_unique (options : IngestionServiceOptions) (supportsPending : Bool) :
    (fresh options supportsPending : PendingReader α).Unique where
  names := .nil
  uploads := .nil
  cached _ _ stored := nomatch stored

namespace Unique

variable (unique : reader.Unique)
include unique

section
variable (upload : (task, bytes) ∈ reader.run.uploads)
include upload

theorem same_bytes (otherUpload : (other, otherBytes) ∈ reader.run.uploads)
    (named : reader.run.tasks[task]?.map PendingTask.key = some key)
    (otherNamed : reader.run.tasks[other]?.map PendingTask.key = some key) : bytes = otherBytes := by
  obtain ⟨_, isFirst, firstKey⟩ := Option.map_eq_some_iff.mp named
  obtain ⟨_, isSecond, secondKey⟩ := Option.map_eq_some_iff.mp otherNamed
  obtain ⟨inside, atTask⟩ := List.getElem?_eq_some_iff.mp isFirst
  obtain ⟨otherInside, atOther⟩ := List.getElem?_eq_some_iff.mp isSecond
  have differ := List.pairwise_iff_getElem.mp unique.names
  have sameTask : task = other := by
    rcases Nat.lt_trichotomy task other with before | same | behind
    · exact absurd (by rw [atTask, atOther, firstKey, secondKey]) (differ task other inside otherInside before)
    · exact same
    · exact absurd (by rw [atTask, atOther, firstKey, secondKey]) (differ other task otherInside inside behind)
  exact congrArg Prod.snd (List.inj_on_of_nodup_map unique.uploads upload otherUpload sameTask)

theorem object_eq (named : reader.run.tasks[task]?.map PendingTask.key = some key) :
    reader.run.object key = some bytes := by
  unfold PendingRun.object
  cases search : reader.run.uploads.reverse.find? fun upload => reader.run.tasks[upload.1]?.map PendingTask.key =
      some key with
  | none =>
    have missed := List.find?_eq_none.mp search (task, bytes) (List.mem_reverse.mpr upload)
    exact absurd named (by simpa using missed)
  | some =>
    have member := List.mem_reverse.mp (List.mem_of_find?_eq_some search)
    have otherNamed := List.find?_some search
    rw [decide_eq_true_iff] at otherNamed
    exact congrArg some (unique.same_bytes member upload otherNamed named)

/-- Whatever was cached, the reader gets what the task of that name uploaded. -/
theorem getPendingBlock_eq {number generation}
    (named : reader.run.tasks[task]?.map PendingTask.key = some (formatPendingBlockKey number generation)) :
    reader.getPendingBlock number generation = some bytes := by
  simp only [getPendingBlock]
  cases stored : reader.cache (formatPendingBlockKey number generation) with
  | none => simpa only [Option.none_or] using unique.object_eq upload named
  | some =>
    rw [Option.some_or]
    obtain ⟨_, otherUpload, otherNamed⟩ := unique.cached _ _ stored
    exact congrArg some (unique.same_bytes otherUpload upload otherNamed named)

end

theorem read (number generation : Nat) : (reader.read number generation).Unique := by
  refine ⟨unique.names, unique.uploads, fun key bytes stored => ?_⟩
  simp only [PendingReader.read] at stored
  split at stored
  case isFalse => exact unique.cached key bytes stored
  case isTrue isKey =>
    subst isKey
    rcases Option.or_eq_some_iff.mp stored with held | ⟨-, fetched⟩
    · exact unique.cached _ bytes held
    · obtain ⟨⟨task, _⟩, search, rfl⟩ := Option.map_eq_some_iff.mp fetched
      have named := List.find?_some search
      rw [decide_eq_true_iff] at named
      exact ⟨task, List.mem_reverse.mp (List.mem_of_find?_eq_some search), named⟩

theorem upload (new : reader.run.uploaded task = false) (bytes : α) :
    Unique { reader with run := { reader.run with uploads := reader.run.uploads ++ [(task, bytes)] } } := by
  refine ⟨unique.names, ?_, fun key held stored => ?_⟩
  · rw [List.map_append, List.map_singleton]
    rw [← List.concat_eq_append]
    refine unique.uploads.concat fun member => ?_
    obtain ⟨earlier, isUpload, same⟩ := List.mem_map.mp member
    exact List.any_eq_false.mp new earlier isUpload (decide_eq_true same)
  · obtain ⟨other, member, named⟩ := unique.cached key held stored
    exact ⟨other, List.mem_append_left _ member, named⟩

/-- Further tasks have names of their own. -/
theorem spawned {run : PendingRun α} (uploads : run.uploads = reader.run.uploads) {more}
    (tasks : run.tasks = reader.run.tasks ++ more)
    (names : run.tasks.Pairwise fun first second => first.key ≠ second.key) : Unique { reader with run } := by
  refine ⟨names, by rw [uploads]; exact unique.uploads, fun key bytes stored => ?_⟩
  obtain ⟨task, member, named⟩ := unique.cached key bytes stored
  obtain ⟨_, isTask, -⟩ := Option.map_eq_some_iff.mp named
  refine ⟨task, uploads ▸ member, ?_⟩
  rw [tasks, List.getElem?_append_left (List.getElem?_eq_some_iff.mp isTask).1]
  exact named

end Unique

structure Sound (reader : PendingReader α) : Prop where
  run : reader.run.Sound
  unique : reader.Unique

theorem Sound.step (sound : reader.Sound) {input} (guard : reader.RequestsNew input)
    (stepped : reader.step input = some after) : after.Sound := by
  cases input with
  | read number generation =>
    cases stepped
    exact ⟨sound.run, sound.unique.read number generation⟩
  | ingestion input =>
    obtain ⟨run, ran, rfl⟩ := Option.map_eq_some_iff.mp stepped
    refine ⟨sound.run.step guard.1 ran, ?_⟩
    cases input with
    | upload task bytes =>
      simp only [PendingRun.step, Option.ite_none_right_eq_some, Option.some.injEq, Bool.and_eq_true,
        Bool.not_eq_eq_eq_not, Bool.not_true] at ran
      obtain ⟨⟨-, new⟩, rfl⟩ := ran
      exact sound.unique.upload new bytes
    | service input =>
      obtain ⟨uploads, same | ⟨service, state, isRequest, running, idle, tasks⟩⟩ := sound.run.step_tasks ran
      · exact sound.unique.spawned uploads (by rw [same, List.append_nil]) (by rw [same]; exact sound.unique.names)
      · obtain ⟨event, _⟩ := input
        obtain rfl : event = .refreshPending := isRequest
        refine sound.unique.spawned uploads tasks ?_
        rw [tasks]
        refine List.pairwise_append.mpr ⟨sound.unique.names, List.pairwise_singleton .., ?_⟩
        intro earlier member new isNew sameKey
        obtain rfl := List.mem_singleton.mp isNew
        obtain ⟨number, generation⟩ := formatPendingBlockKey_inj sameKey
        exact guard.2 service state running idle earlier member ⟨Nat.succ.inj number, generation⟩

theorem Sound.readsFresh (sound : reader.Sound) : reader.ReadsFresh := by
  intro generation last isPending isLast
  obtain ⟨task, isAnnounced, isTask, isUploaded⟩ := sound.run.announces generation last isPending isLast
  obtain ⟨⟨other, bytes⟩, member, same⟩ := List.any_eq_true.mp isUploaded
  obtain rfl : other = task := of_decide_eq_true same
  exact ⟨other, bytes, isAnnounced, member, sound.unique.getPendingBlock_eq member (by rw [isTask]; rfl)⟩

/-- While no number and generation is requested twice, the published pending
    block reads as it was uploaded for its announcement. -/
theorem readsFresh_of_requestsNew {options : IngestionServiceOptions} {supportsPending : Bool} {inputs : List (Step α)}
    {last : PendingReader α} (new : Runs.Meets step RequestsNew (fresh options supportsPending) inputs)
    (reached : Runs.run step (fresh options supportsPending) inputs = some last) : last.ReadsFresh := by
  have started : (fresh options supportsPending : PendingReader α).Sound :=
    ⟨PendingRun.fresh_sound options supportsPending, fresh_unique options supportsPending⟩
  exact (Runs.run_guarded (fun _ _ _ sound guard stepped => sound.step guard stepped) started new reached).readsFresh

end PendingReader

namespace Reused

/-- The pending block on top of the first block. -/
def pending (generation : Nat) : PendingBlockInfo := ⟨1, generation, ⟨[1]⟩⟩

/-- The pending block is requested, uploaded and announced. -/
def round (generation task bytes : Nat) : List (PendingReader.Step Nat) :=
  [.ingestion (.service ⟨.refreshPending, none⟩), .ingestion (.upload task bytes),
    .ingestion (.service ⟨.taskResult (.finished (.ok (.pending (some (pending generation))))), none⟩)]

def start : PendingReader.Step Nat := .ingestion (.service (.startAt Lagging.genesis))

/-- The service restarts at the same head, and announces another pending block. -/
def inputs : List (PendingReader.Step Nat) :=
  start :: round 1 0 7 ++ [.read 1 1, .ingestion (.service ⟨.stop, none⟩), start] ++ round 1 1 8

/-- Two generations, which are both read. -/
def updated : List (PendingReader.Step Nat) :=
  start :: round 1 0 7 ++ [.read 1 1] ++ round 2 1 8 ++ [.read 1 2]

end Reused

open Reused

/-- The reader still gets the block that was uploaded before the restart. -/
theorem PendingReader.readsFresh_fails_reused : ∃ last : PendingReader Nat,
    Runs.run PendingReader.step (.fresh Lagging.options true) Reused.inputs = some last ∧
      last.run.announced = some 1 ∧ (1, 8) ∈ last.run.uploads ∧ last.getPendingBlock 1 1 = some 7 ∧
      ¬ last.ReadsFresh := by
  obtain ⟨last, reached, isPending, isLast, isAnnounced, uploads, read⟩ : ∃ last : PendingReader Nat,
      Runs.run PendingReader.step (.fresh Lagging.options true) Reused.inputs = some last ∧
        last.run.system.world.etcd.pending = some 1 ∧
        last.run.system.world.publishedLast = some Lagging.genesis.cursor ∧
        last.run.announced = some 1 ∧ last.run.uploads = [(0, 7), (1, 8)] ∧ last.getPendingBlock 1 1 = some 7 :=
    ⟨_, rfl, rfl, rfl, rfl, rfl, rfl⟩
  refine ⟨last, reached, isAnnounced, by simp [uploads], read, fun freshly => ?_⟩
  obtain ⟨task, bytes, isTask, member, same⟩ := freshly 1 _ isPending isLast
  cases isAnnounced.symm.trans isTask
  cases read.symm.trans same
  simp [uploads] at member

theorem PendingReader.readsFresh_updated : ∃ last : PendingReader Nat,
    Runs.run PendingReader.step (.fresh Lagging.options true) updated = some last ∧
      last.getPendingBlock 1 1 = some 7 ∧ last.getPendingBlock 1 2 = some 8 ∧ last.ReadsFresh := by
  have new : Runs.Meets PendingReader.step PendingReader.RequestsNew (.fresh Lagging.options true) updated := by
    refine .cons ⟨trivial, trivial⟩ rfl (.cons ⟨?_, ?_⟩ rfl (.cons ⟨trivial, trivial⟩ rfl (.cons ⟨trivial, trivial⟩ rfl
      (.cons trivial rfl (.cons ⟨?_, ?_⟩ rfl (.cons ⟨trivial, trivial⟩ rfl (.cons ⟨trivial, trivial⟩ rfl
        (.cons trivial rfl trivial))))))))
    · rintro service state ⟨⟩ -
      exact ⟨rfl, rfl⟩
    · rintro service state ⟨⟩ - task member
      cases member
    · rintro service state ⟨⟩ -
      exact ⟨rfl, rfl⟩
    · -- the queued task is one of the first generation
      rintro service state ⟨⟩ - task member ⟨-, generation⟩
      obtain rfl := List.mem_singleton.mp member
      cases generation
  exact ⟨_, rfl, rfl, rfl, readsFresh_of_requestsNew new rfl⟩

end Starkstream
