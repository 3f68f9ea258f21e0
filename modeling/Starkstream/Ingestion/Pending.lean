import Starkstream.Ingestion.Run

/-! # Pending blocks

The pending block on top of the head is ingested by a task in the queue of the
block tasks, and announced by its generation once the task is finished.  The
task uploads the block on its own time: a task that is no longer in the queue,
because the chain was recovered or the process died, may still upload.

A published generation is meant for the last block of the published snapshot.
Nothing in the service compares the two: they agree while every pending block is
requested with no block task in the queue, for a last ingested block that is
published.
-/

namespace Starkstream

open IngestionService

structure PendingTask where
  parent : Cursor
  generation : Nat
  deriving DecidableEq

/-- What `ingest_pending_block` uploads and returns, if there is a pending block. -/
def PendingTask.info (task : PendingTask) : PendingBlockInfo :=
  { number := task.parent.number + 1, generation := task.generation, parent := task.parent.hash }

def pendingTasks (queue : List QueuedTask) : List PendingTask :=
  queue.filterMap fun
    | .main _ => none
    | .pending parent generation => some ⟨parent, generation⟩

@[simp] theorem pendingTasks_nil : pendingTasks [] = [] := rfl

@[simp] theorem pendingTasks_main (number : Nat) (rest : List QueuedTask) :
    pendingTasks (.main number :: rest) = pendingTasks rest := rfl

@[simp] theorem pendingTasks_pending (parent : Cursor) (generation : Nat) (rest : List QueuedTask) :
    pendingTasks (.pending parent generation :: rest) = ⟨parent, generation⟩ :: pendingTasks rest := rfl

@[simp] theorem pendingTasks_append (first second : List QueuedTask) :
    pendingTasks (first ++ second) = pendingTasks first ++ pendingTasks second :=
  List.filterMap_append

@[simp] theorem pendingTasks_map_main (numbers : List Nat) : pendingTasks (numbers.map .main) = [] := by
  induction numbers with
  | nil => rfl
  | cons number rest ih => exact ih

variable {tick : Tick (IngestionService × IngestionState)} {system : System}

namespace System

def queue (system : System) : List QueuedTask := system.process.elim [] (·.1.taskQueue)

theorem queue_of_running {running} (isRunning : system.process = some running) :
    system.queue = running.1.taskQueue := by
  rw [queue, isRunning]
  rfl

theorem queue_finish {crash} :
    (system.finish crash tick).queue = [] ∨
      ∃ running, crash = none ∧ tick.result = .ok running ∧ (system.finish crash tick).queue = running.1.taskQueue := by
  cases alive : (system.finish crash tick).process with
  | none => exact .inl (by rw [queue, alive]; rfl)
  | some running =>
    obtain ⟨whole, returned⟩ := finish_process alive
    exact .inr ⟨running, whole, returned, queue_of_running alive⟩

end System

/-! ## What an event does to the pending block -/

def Event.pendingResult : Event → Option PendingBlockInfo
  | .taskResult (.finished (.ok (.pending block))) => block
  | _ => none

/-- The published head and generation are the same. -/
structure World.SameHead (world other : World) : Prop where
  last : other.publishedLast = world.publishedLast
  pending : other.etcd.pending = world.etcd.pending

theorem World.SameHead.refl (world : World) : world.SameHead world := ⟨rfl, rfl⟩

/-- What becomes of the queue when no pending block is requested. -/
inductive QueueMove : List QueuedTask → List QueuedTask → Prop
  | cleared (queue : List QueuedTask) : QueueMove queue []
  | extended (queue : List QueuedTask) (numbers : List Nat) : QueueMove queue (queue ++ numbers.map .main)
  | popped (task : QueuedTask) (rest : List QueuedTask) (numbers : List Nat) :
      QueueMove (task :: rest) (rest ++ numbers.map .main)

theorem QueueMove.same (queue : List QueuedTask) : QueueMove queue queue := by
  simpa using QueueMove.extended queue []

theorem QueueMove.tail (task : QueuedTask) (rest : List QueuedTask) : QueueMove (task :: rest) rest := by
  simpa using QueueMove.popped task rest []

theorem QueueMove.finish {queue crash}
    (returns : ∀ running, tick.result = .ok running → QueueMove queue running.1.taskQueue) :
    QueueMove queue (system.finish crash tick).queue := by
  rcases System.queue_finish with empty | ⟨running, -, returned, same⟩
  · exact empty ▸ .cleared _
  · exact same ▸ returns running returned

inductive PendingEffect (system : System) : Event → Tick (IngestionService × IngestionState) → Prop
  | quiet {event : Event} {tick : Tick (IngestionService × IngestionState)} (unannounced : event.pendingResult = none)
      (kept : Effects.Always World.apply system.world.SameHead system.world tick.writes)
      (queue : ∀ running, tick.result = .ok running → QueueMove system.queue running.1.taskQueue) :
      PendingEffect system event tick
  /-- A new snapshot deletes the generation.  No task stays ahead of the block task that led to it. -/
  | published {event : Event} {tick : Tick (IngestionService × IngestionState)}
      (unannounced : event.pendingResult = none)
      (kept : Effects.Always World.apply (fun world => system.world.SameHead world ∨ world.etcd.pending = none)
        system.world tick.writes)
      (queue : ∀ running, tick.result = .ok running → running.1.taskQueue = [] ∨ ∃ number rest numbers,
        system.queue = .main number :: rest ∧ running.1.taskQueue = rest ++ List.map .main numbers) :
      PendingEffect system event tick
  | requested {service : IngestionService} {state : IngestState}
      (running : system.process = some (service, .ingest state))
      (idle : state.pendingBlockState.queued = false) :
      PendingEffect system .refreshPending
        ⟨[], .ok
          (service.pushIngestPendingBlock state.lastIngested (state.pendingBlockState.generation + 1),
            .ingest { state with pendingBlockState := { state.pendingBlockState with queued := true } })⟩
  | announced {service : IngestionService} {state : IngestState} {parent : Cursor} {block : PendingBlockInfo}
      {rest : List QueuedTask} {pendingBlockState : PendingBlockState}
      (running : system.process = some (service, .ingest state))
      (queue : service.taskQueue = .pending parent block.generation :: rest) :
      PendingEffect system (.taskResult (.finished (.ok (.pending (some block)))))
        ⟨[.putPending block.generation],
          .ok ({ service with taskQueue := rest }, .ingest { state with pendingBlockState })⟩

namespace World.SameHead

variable {world other : World}

theorem of_pointer (recent : other.etcd.recent = world.etcd.recent) (pending : other.etcd.pending = world.etcd.pending)
    (snapshots : other.store.snapshots = world.store.snapshots) : world.SameHead other :=
  ⟨by rw [publishedLast, publishedLast, recent, snapshots], pending⟩

variable (ok : StoreOk world) (recent : other.etcd.recent = world.etcd.recent)
  (pending : other.etcd.pending = world.etcd.pending) (snapshots : other.store.snapshots = world.store.snapshots)
  (segment : CanonicalChainSegment)
include ok recent pending snapshots segment

/-- The snapshot goes to a new key, so the one pointed to stays. -/
theorem putRecentSnapshot : world.SameHead (other.apply (.putRecentSnapshot world.store.nextKey segment)) := by
  refine ⟨?_, pending⟩
  simp only [publishedLast, World.apply, recent, snapshots]
  cases isRecent : world.etcd.recent with
  | none => rfl
  | some pointer =>
    have older := ok.older pointer isRecent
    simp only [Option.bind_some, Std.ExtTreeMap.getElem?_insert, Std.compare_eq_iff_eq]
    rw [if_neg (by omega)]

theorem publish :
    Effects.Always World.apply (fun after => world.SameHead after ∨ after.etcd.pending = none) other
      (publishWrites world segment) :=
  .cons (.inl (of_pointer recent pending snapshots))
    (.cons (.inl (putRecentSnapshot ok recent pending snapshots segment)) (.nil (.inr rfl)))

end World.SameHead

namespace PendingEffect

variable {event : Event}

theorem of_transition (ok : system.Ok) (transition : Transition system event tick)
    (notRequest : event ≠ .refreshPending) (notPending : ∀ block, event ≠ .taskResult (.finished (.ok (.pending block)))) :
    PendingEffect system event tick := by
  have unannounced : event.pendingResult = none := by
    unfold Event.pendingResult
    split
    · exact absurd rfl (notPending _)
    · rfl
  have store := ok.store
  have here : system.world.SameHead system.world := .refl _
  have plain : ∀ number, system.world.SameHead (system.world.apply (.putFinalized number)) :=
    fun number => .of_pointer rfl rfl rfl
  cases transition with
  | failed => exact .quiet unannounced (.nil here) (by simp)
  | startFailed => exact .quiet unannounced (.cons here (.nil (plain _))) (by simp)
  | startFailedFresh =>
    exact .quiet unannounced (.cons here (.cons (plain _) (.nil (.of_pointer rfl rfl rfl)))) (by simp)
  | started =>
    refine .published unannounced ?_ ?_
    · exact .cons (.inl here) (.cons (.inl (plain _)) (World.SameHead.publish store (by rfl) (by rfl) (by rfl) _))
    · rintro running ⟨⟩
      exact .inl rfl
  | restarted =>
    refine .quiet unannounced (.cons here (.nil (plain _))) ?_
    rintro running ⟨⟩
    exact .cleared _
  | finalizedSame running | headSame running | headReorged running | recoverCancelled running =>
    refine .quiet unannounced (.nil here) ?_
    rintro after ⟨⟩
    rw [System.queue_of_running running]
    exact .same _
  | finalizedMoved running =>
    refine .quiet unannounced (.cons here (.nil (plain _))) ?_
    rintro after ⟨⟩
    rw [System.queue_of_running running]
    exact .same _
  | headMoved running =>
    refine .quiet unannounced (.nil here) ?_
    rintro after ⟨⟩
    rw [System.queue_of_running running]
    exact .extended _ _
  | pendingIdle | pendingPushed => exact absurd rfl notRequest
  | pendingFinished => exact absurd rfl (notPending _)
  | taskNotFound running piped queue | blockForeign running piped queue =>
    refine .quiet unannounced (.nil here) ?_
    rintro after ⟨⟩
    rw [System.queue_of_running running, queue]
    exact .tail _ _
  | blockAppended running piped queue =>
    rw [appendWrites]
    split_ifs
    · refine .published unannounced (World.SameHead.publish store rfl rfl rfl _) ?_
      rintro after ⟨⟩
      rw [resumeIngestion_eq, System.queue_of_running running]
      exact .inr ⟨_, _, _, queue, rfl⟩
    · refine .quiet unannounced (.nil here) ?_
      rintro after ⟨⟩
      rw [resumeIngestion_eq, System.queue_of_running running, queue]
      exact .popped _ _ _
  | blockUploaded running piped queue =>
    refine .published unannounced ?_ ?_
    · exact .cons (.inl here) (World.SameHead.publish store (by rfl) (by rfl) (by rfl) _)
    · rintro after ⟨⟩
      rw [resumeIngestion_eq, System.queue_of_running running]
      exact .inr ⟨_, _, _, queue, rfl⟩
  | recovered =>
    refine .published unannounced (World.SameHead.publish store rfl rfl rfl _) ?_
    rintro after ⟨⟩
    exact .inl rfl

theorem of_refreshPending (planned : system.plan .refreshPending = some tick) :
    PendingEffect system .refreshPending tick := by
  cases running : system.process with
  | none => simp [System.plan, running] at planned
  | some current =>
  obtain ⟨service, state | state⟩ := current
  · simp only [System.plan, running, Option.ite_none_right_eq_some, Option.some.injEq] at planned
    obtain ⟨-, rfl⟩ := planned
    rcases tickRefreshPending_cases service state with same | ⟨-, idle, pushed⟩
    · rw [same]
      refine .quiet rfl (.nil (.refl _)) ?_
      rintro after ⟨⟩
      rw [System.queue_of_running running]
      exact .same _
    · rw [pushed]
      exact .requested running idle
  · simp [System.plan, running] at planned

theorem of_pendingTask {block} (planned : system.plan (.taskResult (.finished (.ok (.pending block)))) = some tick) :
    PendingEffect system (.taskResult (.finished (.ok (.pending block)))) tick := by
  cases running : system.process with
  | none => simp [System.plan, running] at planned
  | some current =>
  obtain ⟨service, state | state⟩ := current
  · cases queue : service.taskQueue with
    | nil => simp [System.plan, running, queue] at planned
    | cons task rest =>
      simp only [System.plan, running, queue, Option.ite_none_right_eq_some, Option.some.injEq] at planned
      obtain ⟨accepted, rfl⟩ := planned
      cases task with
      | main number => exact absurd accepted (by simp [QueuedTask.accepts])
      | pending parent generation =>
        cases block with
        | none =>
          refine .quiet rfl (.nil (.refl _)) ?_
          rintro after ⟨⟩
          rw [System.queue_of_running running, queue]
          exact .tail _ _
        | some block =>
          obtain rfl : block.generation = generation := by simpa [QueuedTask.accepts] using accepted
          exact .announced running queue
  · simp [System.plan, running] at planned

theorem of_plan (ok : system.Ok) (planned : system.plan event = some tick) : PendingEffect system event tick := by
  by_cases request : event = .refreshPending
  · subst request
    exact of_refreshPending planned
  · by_cases pending : ∃ block, event = .taskResult (.finished (.ok (.pending block)))
    · obtain ⟨_, rfl⟩ := pending
      exact of_pendingTask planned
    · exact of_transition ok (ok.transition planned) request fun block same => pending ⟨block, same⟩

end PendingEffect

/-! ## Requests ahead of the block tasks -/

def QueuedTask.isMain : QueuedTask → Bool
  | .main _ => true
  | .pending _ _ => false

def PendingFirst (queue : List QueuedTask) : Prop :=
  queue.Pairwise fun earlier later => earlier.isMain = true → later.isMain = true

namespace PendingFirst

variable {queue rest : List QueuedTask}

theorem extended (first : PendingFirst queue) (numbers : List Nat) : PendingFirst (queue ++ numbers.map .main) := by
  refine List.pairwise_append.mpr ⟨first, ?_, fun earlier _ later member _ => ?_⟩
  · exact List.pairwise_map.mpr (List.pairwise_of_forall fun _ _ _ => rfl)
  · obtain ⟨-, -, rfl⟩ := List.mem_map.mp member
    rfl

theorem moved {after} (first : PendingFirst queue) (move : QueueMove queue after) : PendingFirst after := by
  cases move with
  | cleared => exact .nil
  | extended queue numbers => exact first.extended numbers
  | popped task rest numbers => exact PendingFirst.extended (List.pairwise_cons.mp first).2 numbers

theorem pendingTasks_of_main {number} (first : PendingFirst (.main number :: rest)) : pendingTasks rest = [] := by
  refine List.filterMap_eq_nil_iff.mpr fun task member => ?_
  have isMain := (List.pairwise_cons.mp first).1 task member rfl
  cases task with
  | main => rfl
  | pending => cases isMain

theorem requested (noMain : mainNumbers queue = []) (parent : Cursor) (generation : Nat) :
    PendingFirst (queue ++ [.pending parent generation]) := by
  have pending : ∀ task ∈ queue ++ [.pending parent generation], task.isMain = false := by
    intro task member
    rcases List.mem_append.mp member with old | new
    · have found := List.filterMap_eq_nil_iff.mp noMain task old
      cases task with
      | main => cases found
      | pending => rfl
    · obtain rfl := List.mem_singleton.mp new
      rfl
  refine List.pairwise_of_forall_mem_list fun earlier member later _ isMain => ?_
  rw [pending earlier member] at isMain
  cases isMain

end PendingFirst

theorem QueueMove.suffix {queue after} (move : QueueMove queue after) : pendingTasks after <:+ pendingTasks queue := by
  cases move with
  | cleared => exact List.nil_suffix
  | extended => simp
  | popped task =>
    cases task with
    | main | pending => simp

/-! ## Uploads -/

/-- The service, the pending tasks that it spawned and what they uploaded. -/
structure PendingRun (α : Type) where
  system : System
  /-- Every pending task so far; a task is known by its position. -/
  tasks : List PendingTask
  /-- The pending tasks in the queue. -/
  queued : List Nat
  /-- The calls of `put_pending_block`: the task and the bytes. -/
  uploads : List (Nat × α)
  /-- The task whose generation is in etcd. -/
  announced : Option Nat

inductive PendingInput (α : Type) where
  | service (input : Input)
  | upload (task : Nat) (bytes : α)

namespace PendingRun

variable {α : Type}

def fresh (options : IngestionServiceOptions) (supportsPending : Bool) : PendingRun α :=
  { system := .fresh options supportsPending, tasks := [], queued := [], uploads := [], announced := none }

def uploaded (run : PendingRun α) (task : Nat) : Bool := run.uploads.any (·.1 = task)

/-- A task returns the info of the block it uploaded. -/
def allows (run : PendingRun α) (event : Event) : Bool :=
  match event.pendingResult, run.queued with
  | none, _ => true
  | some _, [] => false
  | some block, task :: _ => run.tasks[task]?.map PendingTask.info = some block && run.uploaded task

def spawned (run : PendingRun α) (event : Event) (next : System) : List PendingTask :=
  match event with
  | .refreshPending => (pendingTasks next.queue).drop (pendingTasks run.system.queue).length
  | _ => []

def serve (run : PendingRun α) (input : Input) (next : System) : PendingRun α :=
  let spawned := run.spawned input.event next
  let numbers := run.queued ++ List.range' run.tasks.length spawned.length
  { run with
    system := next
    tasks := run.tasks ++ spawned
    queued := numbers.drop (numbers.length - (pendingTasks next.queue).length)
    announced :=
      if next.world.etcd.pending = none then none
      else if input.event.pendingResult.isSome && input.crash ≠ some 0 then run.queued.head?
      else run.announced }

def step (run : PendingRun α) : PendingInput α → Option (PendingRun α)
  | .service input => if run.allows input.event then (run.system.step input).map (run.serve input) else none
  | .upload task bytes =>
    if task < run.tasks.length && !run.uploaded task then
      some { run with uploads := run.uploads ++ [(task, bytes)] }
    else none

/-- The object of the published generation was uploaded, for the published head. -/
def PendingMatches (run : PendingRun α) : Prop :=
  ∀ generation last, run.system.world.etcd.pending = some generation →
    run.system.world.publishedLast = some last → ∃ task bytes, (task, bytes) ∈ run.uploads ∧
      run.tasks[task]?.map PendingTask.info = some ⟨last.number + 1, generation, last.hash⟩

/-- A pending block is requested with no block task in the queue, for a last
    ingested block that is published. -/
def RequestsAtHead (run : PendingRun α) : PendingInput α → Prop
  | .service ⟨.refreshPending, _⟩ => ∀ service state, run.system.process = some (service, .ingest state) →
      state.pendingBlockState.queued = false →
        mainNumbers service.taskQueue = [] ∧ run.system.world.publishedLast = some state.lastIngested
  | _ => True

/-- The numbers of the queued tasks are those of the tasks in the queue. -/
def Mirrors (run : PendingRun α) : Prop :=
  run.queued.map (run.tasks[·]?) = (pendingTasks run.system.queue).map some

/-- The published generation is that of an uploaded block on the published head. -/
def Announces (run : PendingRun α) : Prop :=
  ∀ generation last, run.system.world.etcd.pending = some generation → run.system.world.publishedLast = some last →
    ∃ task, run.announced = some task ∧ run.tasks[task]? = some ⟨last, generation⟩ ∧ run.uploaded task = true

structure Sound (run : PendingRun α) : Prop where
  ok : run.system.Ok
  mirrors : run.Mirrors
  first : PendingFirst run.system.queue
  parents : ∀ task ∈ pendingTasks run.system.queue, run.system.world.publishedLast = some task.parent
  announces : run.Announces

variable {run : PendingRun α} {input : Input} {next : System}

theorem fresh_sound (options : IngestionServiceOptions) (supportsPending : Bool) :
    (fresh options supportsPending : PendingRun α).Sound where
  ok := System.fresh_ok options supportsPending
  mirrors := rfl
  first := .nil
  parents _ member := nomatch member
  announces _ _ published := nomatch published

theorem Mirrors.length (mirrors : run.Mirrors) : run.queued.length = (pendingTasks run.system.queue).length := by
  simpa using congrArg List.length mirrors

theorem first_queued (mirrors : run.Mirrors) {parent generation rest}
    (queue : run.system.queue = .pending parent generation :: rest) :
    ∃ task others, run.queued = task :: others ∧ run.tasks[task]? = some ⟨parent, generation⟩ := by
  unfold Mirrors at mirrors
  rw [queue, pendingTasks_pending, List.map_cons] at mirrors
  obtain ⟨task, others, isQueued, isTask, -⟩ := List.map_eq_cons_iff.mp mirrors
  exact ⟨task, others, isQueued, isTask⟩

variable (input) (next)

/-- No task is pushed, and the first tasks may leave the queue. -/
theorem serve_suffix (mirrors : run.Mirrors) (suffix : pendingTasks next.queue <:+ pendingTasks run.system.queue) :
    (run.serve input next).tasks = run.tasks ∧ (run.serve input next).Mirrors := by
  have none : run.spawned input.event next = [] := by
    unfold spawned
    split
    · exact List.drop_eq_nil_of_le suffix.length_le
    · rfl
  have tasks : (run.serve input next).tasks = run.tasks := by simp [serve, none]
  refine ⟨tasks, ?_⟩
  have queued : (run.serve input next).queued =
      run.queued.drop ((pendingTasks run.system.queue).length - (pendingTasks next.queue).length) := by
    simp [serve, none, mirrors.length]
  unfold Mirrors
  rw [tasks, queued, List.map_drop, mirrors, ← List.map_drop, ← List.suffix_iff_eq_drop.mp suffix]
  rfl

theorem serve_requested (crash : Option Nat) (mirrors : run.Mirrors) {task}
    (pushed : pendingTasks next.queue = pendingTasks run.system.queue ++ [task]) :
    (run.serve ⟨.refreshPending, crash⟩ next).tasks = run.tasks ++ [task] ∧
      (run.serve ⟨.refreshPending, crash⟩ next).Mirrors := by
  have one : run.spawned .refreshPending next = [task] := by simp [spawned, pushed]
  have tasks : (run.serve ⟨.refreshPending, crash⟩ next).tasks = run.tasks ++ [task] := by simp [serve, one]
  have queued : (run.serve ⟨.refreshPending, crash⟩ next).queued = run.queued ++ [run.tasks.length] := by
    simp [serve, one, pushed, mirrors.length]
  have older : ∀ number ∈ run.queued, (run.tasks ++ [task])[number]? = run.tasks[number]? := by
    intro number member
    have isTask : run.tasks[number]? ∈ (pendingTasks run.system.queue).map some := by
      rw [← mirrors]
      exact List.mem_map_of_mem member
    obtain ⟨_, -, same⟩ := List.mem_map.mp isTask
    exact List.getElem?_append_left (List.getElem?_eq_some_iff.mp same.symm).1
  refine ⟨tasks, ?_⟩
  unfold Mirrors
  have system : (run.serve ⟨.refreshPending, crash⟩ next).system = next := rfl
  rw [tasks, queued, system, pushed, List.map_append, List.map_append, ← mirrors, List.map_congr_left older]
  simp

/-- Events other than an announcement leave it alone while the head is the same. -/
theorem Announces.serve (announces : run.Announces) (unannounced : input.event.pendingResult = none)
    (same : run.system.world.SameHead next.world) (tasks : run.tasks <+: (run.serve input next).tasks) :
    (run.serve input next).Announces := by
  intro generation last isPending isLast
  obtain ⟨task, isAnnounced, isTask, isUploaded⟩ :=
    announces generation last (same.pending.symm.trans isPending) (same.last.symm.trans isLast)
  have pending : next.world.etcd.pending ≠ none := ne_of_eq_of_ne isPending (Option.some_ne_none _)
  refine ⟨task, ?_, ?_, isUploaded⟩
  · simpa [PendingRun.serve, unannounced, pending] using isAnnounced
  · obtain ⟨_, extended⟩ := tasks
    rw [← extended, List.getElem?_append_left (List.getElem?_eq_some_iff.mp isTask).1]
    exact isTask

namespace Sound

section
variable (sound : run.Sound) (ok : next.Ok)
include sound ok

theorem quiet (unannounced : input.event.pendingResult = none) (same : run.system.world.SameHead next.world)
    (move : QueueMove run.system.queue next.queue) : (run.serve input next).Sound := by
  obtain ⟨tasks, mirrors⟩ := serve_suffix input next sound.mirrors move.suffix
  refine ⟨ok, mirrors, sound.first.moved move, fun task member => ?_, ?_⟩
  · exact same.last.trans (sound.parents task (move.suffix.subset member))
  · exact sound.announces.serve input next unannounced same (tasks ▸ List.prefix_rfl)

theorem published (unannounced : input.event.pendingResult = none)
    (kept : run.system.world.SameHead next.world ∨ next.world.etcd.pending = none)
    (empty : pendingTasks next.queue = []) (first : PendingFirst next.queue) : (run.serve input next).Sound := by
  obtain ⟨tasks, mirrors⟩ := serve_suffix input next sound.mirrors (empty ▸ List.nil_suffix)
  refine ⟨ok, mirrors, first, fun task member => ?_, ?_⟩
  · rw [show (run.serve input next).system = next from rfl, empty] at member
    cases member
  · rcases kept with same | none
    · exact sound.announces.serve input next unannounced same (tasks ▸ List.prefix_rfl)
    · intro generation last isPending
      exact absurd (none.symm.trans isPending) (by simp)

theorem requested (crash : Option Nat) (task : PendingTask) (world : next.world = run.system.world)
    (queue : next.queue = run.system.queue ++ [.pending task.parent task.generation])
    (noMain : mainNumbers run.system.queue = []) (atHead : run.system.world.publishedLast = some task.parent) :
    (run.serve ⟨.refreshPending, crash⟩ next).Sound := by
  have pushed : pendingTasks next.queue = pendingTasks run.system.queue ++ [task] := by simp [queue]
  obtain ⟨tasks, mirrors⟩ := serve_requested next crash sound.mirrors pushed
  refine ⟨ok, mirrors, ?_, fun other member => ?_, ?_⟩
  · rw [show (run.serve ⟨.refreshPending, crash⟩ next).system = next from rfl, queue]
    exact PendingFirst.requested noMain task.parent task.generation
  · rw [show (run.serve ⟨.refreshPending, crash⟩ next).system = next from rfl] at member ⊢
    rw [world]
    rw [pushed] at member
    rcases List.mem_append.mp member with old | new
    · exact sound.parents other old
    · obtain rfl := List.mem_singleton.mp new
      exact atHead
  · refine sound.announces.serve _ next rfl (world ▸ .refl _) ?_
    rw [tasks]
    exact List.prefix_append _ _

end

theorem announced_world (crash : Option Nat) (world : World) (generation : Nat) :
    let after := world.applyAll (applied crash [.putPending generation])
    after.publishedLast = world.publishedLast ∧
      after.etcd.pending = if crash = some 0 then world.etcd.pending else some generation := by
  match crash with
  | none | some 0 => exact ⟨rfl, rfl⟩
  | some (count + 1) => exact ⟨by simp [applied]; rfl, by simp [applied]; rfl⟩

theorem announced (sound : run.Sound) (ok : next.Ok) (crash : Option Nat) {block : PendingBlockInfo} {parent rest}
    (queue : run.system.queue = .pending parent block.generation :: rest) (move : QueueMove run.system.queue next.queue)
    (world : next.world = run.system.world.applyAll (applied crash [.putPending block.generation]))
    (allowed : run.allows (.taskResult (.finished (.ok (.pending (some block))))) = true) :
    (run.serve ⟨.taskResult (.finished (.ok (.pending (some block)))), crash⟩ next).Sound := by
  obtain ⟨sameLast, pending⟩ := announced_world crash run.system.world block.generation
  rw [← world] at sameLast pending
  obtain ⟨tasks, mirrors⟩ := serve_suffix ⟨.taskResult (.finished (.ok (.pending (some block)))), crash⟩ next
    sound.mirrors move.suffix
  refine ⟨ok, mirrors, sound.first.moved move, fun task member => ?_, fun generation last isPending isLast => ?_⟩
  · exact sameLast.trans (sound.parents task (move.suffix.subset member))
  · by_cases early : crash = some 0
    · -- Nothing was written.
      rw [if_pos early] at pending
      obtain ⟨task, isAnnounced, rest⟩ :=
        sound.announces generation last (pending.symm.trans isPending) (sameLast.symm.trans isLast)
      have published : next.world.etcd.pending ≠ none := ne_of_eq_of_ne isPending (Option.some_ne_none _)
      rw [tasks]
      exact ⟨task, by simpa [serve, early, published] using isAnnounced, rest⟩
    · rw [if_neg early] at pending
      cases pending.symm.trans isPending
      have isParent := sound.parents ⟨parent, block.generation⟩ (by simp [queue])
      cases isParent.symm.trans (sameLast.symm.trans isLast)
      obtain ⟨task, _, isQueued, isTask⟩ := first_queued sound.mirrors queue
      simp only [allows, Event.pendingResult, isQueued, Bool.and_eq_true] at allowed
      rw [tasks]
      exact ⟨task, by simp [serve, pending, early, Event.pendingResult, isQueued], isTask, allowed.2⟩

end Sound

theorem Sound.step {input after} (sound : run.Sound) (guard : run.RequestsAtHead input)
    (stepped : run.step input = some after) : after.Sound := by
  cases input with
  | upload =>
    simp only [PendingRun.step, Option.ite_none_right_eq_some, Option.some.injEq] at stepped
    obtain ⟨-, rfl⟩ := stepped
    refine ⟨sound.ok, sound.mirrors, sound.first, sound.parents, fun generation last isPending isLast => ?_⟩
    obtain ⟨other, isAnnounced, isTask, isUploaded⟩ := sound.announces generation last isPending isLast
    exact ⟨other, isAnnounced, isTask, by simp [uploaded] at isUploaded ⊢; tauto⟩
  | service input =>
    obtain ⟨_, crash⟩ := input
    simp only [PendingRun.step, Option.ite_none_right_eq_some, Option.map_eq_some_iff] at stepped
    obtain ⟨allowed, _, stepped, rfl⟩ := stepped
    have ok := sound.ok.step stepped
    obtain ⟨tick, planned, rfl⟩ := Option.map_eq_some_iff.mp stepped
    cases PendingEffect.of_plan sound.ok planned with
    | quiet unannounced kept queue =>
      exact sound.quiet _ _ ok unannounced (System.finish_world kept) (.finish queue)
    | published unannounced kept queue =>
      have unchanged : run.system.world.SameHead (run.system.finish crash tick).world ∨
          (run.system.finish crash tick).world.etcd.pending = none := System.finish_world kept
      rcases System.queue_finish with empty | ⟨running, -, returned, same⟩
      · exact sound.published _ _ ok unannounced unchanged (by rw [empty]; rfl) (empty ▸ .nil)
      · rcases queue running returned with cleared | ⟨_, _, _, before, after⟩
        · exact sound.published _ _ ok unannounced unchanged (by rw [same, cleared]; rfl)
            (same ▸ cleared ▸ .nil)
        · have first := sound.first
          rw [before] at first
          refine sound.published _ _ ok unannounced unchanged ?_ ?_
          · rw [same, after, pendingTasks_append, first.pendingTasks_of_main, pendingTasks_map_main]
            rfl
          · rw [same, after]
            exact first.moved (.popped _ _ _)
    | @requested service state running idle =>
      have world : ∀ tick : Tick (IngestionService × IngestionState), tick.writes = [] →
          (run.system.finish crash tick).world = run.system.world := by
        intro tick none
        rw [System.finish_applied, none]
        cases crash <;> simp [applied]
      rcases System.queue_finish with empty | ⟨after, -, returned, same⟩
      · refine sound.quiet _ _ ok rfl ?_ (empty ▸ .cleared _)
        rw [world _ rfl]
        exact .refl _
      · cases returned
        obtain ⟨noMain, atHead⟩ := guard _ _ running idle
        refine sound.requested _ ok crash ⟨state.lastIngested, state.pendingBlockState.generation + 1⟩ (world _ rfl)
          ?_ ?_ atHead
        · rw [same, System.queue_of_running running]
          rfl
        · rw [System.queue_of_running running]
          exact noMain
    | announced running queue =>
      have before := (System.queue_of_running running).trans queue
      refine sound.announced _ ok crash before (.finish ?_) (System.finish_applied ..) allowed
      rintro after ⟨⟩
      exact before ▸ .tail _ _

theorem Sound.pendingMatches (sound : run.Sound) : run.PendingMatches := by
  intro generation last isPending isLast
  obtain ⟨task, -, isTask, isUploaded⟩ := sound.announces generation last isPending isLast
  obtain ⟨⟨other, bytes⟩, member, same⟩ := List.any_eq_true.mp isUploaded
  obtain rfl : other = task := of_decide_eq_true same
  exact ⟨other, bytes, member, by rw [isTask]; rfl⟩

/-- While every pending block is requested at the published head, the published
    generation belongs to it. -/
theorem pendingMatches_of_requestsAtHead {options : IngestionServiceOptions} {supportsPending : Bool}
    {inputs : List (PendingInput α)} {last : PendingRun α}
    (atHead : Runs.Meets step RequestsAtHead (fresh options supportsPending) inputs)
    (reached : Runs.run step (fresh options supportsPending) inputs = some last) : last.PendingMatches :=
  (Runs.run_guarded (fun _ _ _ sound guard stepped => sound.step guard stepped)
    (fresh_sound options supportsPending) atHead reached).pendingMatches

end PendingRun

namespace Lagging

def options : IngestionServiceOptions := ⟨2, 100, 1, none⟩

def genesis : BlockInfo := ⟨0, ⟨[1]⟩, ⟨[]⟩⟩

def first : BlockInfo := ⟨1, ⟨[2]⟩, ⟨[1]⟩⟩

def second : BlockInfo := ⟨2, ⟨[3]⟩, ⟨[2]⟩⟩

/-- The pending block on top of the first block, in its first generation. -/
def pending : PendingBlockInfo := ⟨2, 1, ⟨[2]⟩⟩

def finished : PendingInput Unit := .service ⟨.taskResult (.finished (.ok (.pending (some pending)))), none⟩

/-- Both blocks are queued when a node that lags behind reports the first one as
    its head.  The pending block is requested behind the second block. -/
def inputs : List (PendingInput Unit) :=
  [.service (.startAt genesis), .service (.newHead second.cursor), .service (.newHead first.cursor),
    .service (.ingested first), .service ⟨.refreshPending, none⟩, .upload 0 (), .service (.ingested second), finished]

def inOrder : List (PendingInput Unit) :=
  [.service (.startAt genesis), .service (.newHead first.cursor), .service (.ingested first),
    .service ⟨.refreshPending, none⟩, .upload 0 (), finished]

end Lagging

open Lagging

/-- The generation of the pending block 2 is published for the head 2; there is no
    object of the pending block 3. -/
theorem PendingRun.pendingMatches_fails_lagging : ∃ last : PendingRun Unit,
    Runs.run PendingRun.step (.fresh Lagging.options true) Lagging.inputs = some last ∧
      last.system.world.etcd.pending = some 1 ∧ last.system.world.publishedLast = some second.cursor ∧
      last.tasks = [⟨first.cursor, 1⟩] ∧ ¬ last.PendingMatches := by
  obtain ⟨last, reached, isPending, isLast, tasks⟩ : ∃ last : PendingRun Unit,
      Runs.run PendingRun.step (.fresh Lagging.options true) Lagging.inputs = some last ∧
        last.system.world.etcd.pending = some 1 ∧ last.system.world.publishedLast = some second.cursor ∧
        last.tasks = [⟨first.cursor, 1⟩] := ⟨_, rfl, rfl, rfl, rfl⟩
  refine ⟨last, reached, isPending, isLast, tasks, fun matching => ?_⟩
  obtain ⟨task, bytes, -, isTask⟩ := matching 1 second.cursor isPending isLast
  rw [tasks] at isTask
  cases task with
  | zero => exact absurd isTask (by decide)
  | succ other => exact absurd isTask (by simp)

theorem PendingRun.pendingMatches_inOrder : ∃ last : PendingRun Unit,
    Runs.run PendingRun.step (.fresh Lagging.options true) inOrder = some last ∧
      last.system.world.etcd.pending = some 1 ∧ last.PendingMatches := by
  obtain ⟨last, reached, isPending⟩ : ∃ last : PendingRun Unit,
      Runs.run PendingRun.step (.fresh Lagging.options true) inOrder = some last ∧
        last.system.world.etcd.pending = some 1 := ⟨_, rfl, rfl⟩
  refine ⟨last, reached, isPending, pendingMatches_of_requestsAtHead ?_ reached⟩
  refine .cons trivial rfl (.cons trivial rfl (.cons trivial rfl (.cons ?_ rfl (.cons trivial rfl
    (.cons trivial rfl trivial)))))
  rintro service state ⟨⟩ -
  exact ⟨rfl, rfl⟩

end Starkstream
