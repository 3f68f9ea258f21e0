import Starkstream.Ingestion.Run

/-! # The order of the finalized blocks

Two methods write `ingestion/finalized`.  `tick_refresh_finalized` compares the
new block with the one it knows and fails the service when it is behind;
`initialize`, which the loop runs again after every failure, stores what the node
reports without looking at what is stored.

The runs start from any world, and the value found there counts as written.
-/

namespace Starkstream

open IngestionService

/-- The number that a write stores under `ingestion/finalized`. -/
def Write.finalizedPut : Write → Option Nat
  | .putFinalized number => some number
  | _ => none

/-- The numbers stored under `ingestion/finalized`, in order. -/
def finalizedPuts (writes : List Write) : List Nat := writes.filterMap Write.finalizedPut

def IngestionState.finalized : IngestionState → Cursor
  | .ingest state => state.finalized
  | .recover state => state.finalized

/-- A run with the values of `ingestion/finalized` so far, oldest first. -/
structure FinalizedLog where
  system : System
  values : List Nat

namespace FinalizedLog

def start (options : IngestionServiceOptions) (supportsPending : Bool) (world : World) : FinalizedLog :=
  ⟨{ options, supportsPending, world, process := none }, world.etcd.finalized.toList⟩

def step (log : FinalizedLog) (input : Input) : Option FinalizedLog :=
  (log.system.plan input.event).map fun tick =>
    { system := log.system.finish input.crash tick
      values := log.values ++ finalizedPuts (applied input.crash tick.writes) }

def NeverDecreased (log : FinalizedLog) : Prop := log.values.Pairwise (· ≤ ·)

/-- A process that gets its head and its finalized block from the node, and does not
    die before it stores the latter, finds no higher one stored. -/
def StartsForward (log : FinalizedLog) (input : Input) : Prop :=
  ∀ answers head finalized stored, input.event = .start answers → log.system.process = none →
    answers.accepts log.system.options = true → input.crash ≠ some 0 →
    answers.head = .ok head → answers.finalized = .ok finalized →
    log.system.world.etcd.finalized = some stored → stored ≤ finalized.number

end FinalizedLog

/-! ## The methods that leave the finalized block alone -/

namespace IngestionService

open Planned (Ensures)

def Quiet (effect : Write) : Prop := effect.finalizedPut = none

/-- The service goes on with this finalized block. -/
def Knows (finalized : Cursor) (after : IngestionService × IngestionState) : Prop :=
  after.2.finalized = finalized

theorem publishRecentSegment_quiet (world : World) (segment : CanonicalChainSegment) :
    Ensures Quiet (fun _ => True) (publishRecentSegment world segment) :=
  .bind (.write rfl trivial) fun _ => .write rfl trivial

theorem publishCurrentSegment_quiet (world : World) (service : IngestionService) :
    Ensures Quiet (fun _ => True) (publishCurrentSegment world service) :=
  .bind (.lift fun _ _ => trivial) fun segment => publishRecentSegment_quiet world segment

theorem uploadChainSegment_quiet (service : IngestionService) :
    Ensures Quiet (fun _ => True) service.uploadChainSegment := by
  unfold uploadChainSegment
  split_ifs
  · exact .bind (.lift fun _ _ => trivial) fun _ => .bind (.write rfl trivial) fun _ => .pure trivial
  · exact .pure trivial

theorem resumeIngestion_knows (service : IngestionService) (state : IngestState) (lastIngested : Cursor) :
    Knows state.finalized (service.resumeIngestion state lastIngested) := by
  rw [resumeIngestion, fillQueue_eq]
  rfl

section
variable (world : World)
include world

theorem appendBlock_quiet (service : IngestionService) (state : IngestState) (block : BlockInfo) :
    Ensures Quiet (Knows state.finalized) (appendBlock world service state block) := by
  refine .bind (.lift fun _ _ => trivial) fun _ => .bind (uploadChainSegment_quiet _) fun uploaded => ?_
  have done : Ensures Quiet (Knows state.finalized)
      (pure (uploaded.1.resumeIngestion state block.cursor) : Tick (IngestionService × IngestionState)) :=
    .pure (resumeIngestion_knows _ _ _)
  simp only
  split_ifs
  · exact .bind (publishCurrentSegment_quiet _ _) fun _ => done
  · exact done

theorem tickWithTaskResult_quiet (service : IngestionService) (state : IngestState)
    (joinResult : Option IngestionJobJoinResult) :
    Ensures Quiet (Knows state.finalized) (tickWithTaskResult world service state joinResult) := by
  fun_cases tickWithTaskResult world service state joinResult with
  | case1 => exact .pure (resumeIngestion_knows _ _ _)
  | case2 | case4 => exact .lift nofun
  | case3 | case5 => exact .pure rfl
  | case6 => exact .bind (.write rfl trivial) fun _ => .pure rfl
  | case7 =>
    unfold ingestBlock
    split_ifs
    · exact appendBlock_quiet _ _ _ _
    · exact .pure rfl

theorem tickRecover_quiet (service : IngestionService) (state : RecoverState) (poll : Nat → RecoverPoll) :
    Ensures Quiet (Knows state.finalized) (tickRecover world service state poll) := by
  refine .bind (.lift fun _ _ => trivial) fun found => ?_
  cases found with
  | none => exact .pure rfl
  | some =>
    exact .bind (.lift fun _ _ => trivial) fun _ =>
      .bind (publishCurrentSegment_quiet _ _) fun _ => .pure rfl

theorem migrateLegacyRecentSegment_quiet (answers : InitializeAnswers) :
    Ensures Quiet (fun _ => True) (migrateLegacyRecentSegment world answers) := by
  unfold migrateLegacyRecentSegment
  cases world.store.legacyRecent with
  | none => exact .pure trivial
  | some =>
    refine .bind (publishRecentSegment_quiet _ _) fun _ => ?_
    split_ifs
    · exact .bind (.write rfl trivial) fun _ => .bind (.write rfl trivial) fun _ => .pure trivial
    · exact .bind (.write rfl trivial) fun _ => .pure trivial
    · exact .bind (.write rfl trivial) fun _ => .pure trivial
    · exact .pure trivial

theorem getStartingCursor_quiet (service : IngestionService) (answers : InitializeAnswers) :
    Ensures Quiet (fun _ => True) (getStartingCursor world service answers) := by
  refine .bind (.lift fun _ _ => trivial) fun recent => ?_
  cases recent with
  | some =>
    simp only [Planned.pure_bind]
    exact .bind (.lift fun _ _ => trivial) fun _ => .pure trivial
  | none =>
    refine .bind (migrateLegacyRecentSegment_quiet _ _) fun existing => ?_
    cases existing with
    | some => exact .bind (.lift fun _ _ => trivial) fun _ => .pure trivial
    | none => exact .bind (.write rfl trivial) fun _ => .pure trivial

theorem beginIngestion_quiet (service : IngestionService) (answers : InitializeAnswers) (finalized head : Cursor)
    (action : IngestionStartAction) :
    Ensures Quiet (Knows finalized) (beginIngestion world service answers finalized head action) := by
  cases action with
  | recover | resume => exact .pure rfl
  | start =>
    exact .bind (.lift fun _ _ => trivial) fun block => .bind (.lift fun _ _ => trivial) fun _ =>
      .bind (publishCurrentSegment_quiet _ _) fun _ => .pure rfl

end

theorem initializeService_quiet {answers : InitializeAnswers} {head finalized} (headIs : answers.head = .ok head)
    (finalizedIs : answers.finalized = .ok finalized) (world : World) (service : IngestionService) :
    ∃ rest, initializeService world service answers =
        (Planned.write (.putFinalized finalized.number) >>= fun _ => rest) ∧
      Ensures Quiet (Knows finalized) rest :=
  ⟨_, initializeService_eq headIs finalizedIs world service,
    .bind (getStartingCursor_quiet _ _ _) fun _ => beginIngestion_quiet _ _ _ _ _ _⟩

end IngestionService

/-! ## What an event does to the finalized block -/

theorem finalizedPuts_quiet {writes} (quiet : ∀ effect ∈ writes, Quiet effect) : finalizedPuts writes = [] :=
  List.filterMap_eq_nil_iff.mpr quiet

theorem applied_subset (crash : Option Nat) (writes : List Write) : applied crash writes ⊆ writes := by
  cases crash with
  | none => exact List.Subset.refl writes
  | some count => exact List.take_subset count writes

theorem finalizedPuts_applied_cons {crash number rest} (alive : crash ≠ some 0) (quiet : ∀ effect ∈ rest, Quiet effect) :
    finalizedPuts (applied crash (.putFinalized number :: rest)) = [number] := by
  cases crash with
  | none => exact congrArg (number :: ·) (finalizedPuts_quiet quiet)
  | some count =>
    cases count with
    | zero => exact absurd rfl alive
    | succ count =>
      exact congrArg (number :: ·) (finalizedPuts_quiet fun effect member =>
        quiet effect (List.take_subset count rest member))

theorem World.applyAll_finalized (world : World) (writes : List Write) :
    (world.applyAll writes).etcd.finalized = (finalizedPuts writes).getLast?.or world.etcd.finalized := by
  induction writes generalizing world with
  | nil => rfl
  | cons effect rest ih =>
    rw [World.applyAll_cons, ih]
    cases effect with
    | putFinalized number =>
      have first : finalizedPuts (.putFinalized number :: rest) = number :: finalizedPuts rest := rfl
      rw [first, List.getLast?_cons]
      cases (finalizedPuts rest).getLast? <;> rfl
    | _ => rfl

/-- What an event can do to the finalized block. -/
inductive FinalizedEffect (system : System) (event : Event) (tick : Tick (IngestionService × IngestionState)) : Prop
  | kept (quiet : ∀ effect ∈ tick.writes, Quiet effect)
      (same : ∀ after, tick.result = .ok after →
        ∃ before, system.process = some before ∧ Knows before.2.finalized after)
  | stored {finalized : Cursor} {rest : List Write} (writes : tick.writes = .putFinalized finalized.number :: rest)
      (quiet : ∀ effect ∈ rest, Quiet effect) (known : ∀ after, tick.result = .ok after → Knows finalized after)
      (cause : (∃ before, system.process = some before ∧ before.2.finalized.number ≤ finalized.number) ∨
        ∃ answers head, event = .start answers ∧ system.process = none ∧
          answers.accepts system.options = true ∧ answers.head = .ok head ∧ answers.finalized = .ok finalized)

namespace FinalizedEffect

variable {system : System} {tick : Tick (IngestionService × IngestionState)}

theorem of_quiet {event before} (running : system.process = some before)
    (quiet : Planned.Ensures Quiet (Knows before.2.finalized) tick) : FinalizedEffect system event tick :=
  .kept quiet.writes fun after returned => ⟨before, running, quiet.result after returned⟩

theorem start {answers : InitializeAnswers} (idle : system.process = none)
    (accepted : answers.accepts system.options = true) :
    FinalizedEffect system (.start answers)
      (initializeService system.world (.new system.options system.supportsPending) answers) := by
  cases headIs : answers.head with
  | error =>
    rw [initializeService, headIs]
    exact .kept (fun _ same => by cases same) (fun _ same => by cases same)
  | ok head =>
    cases finalizedIs : answers.finalized with
    | error =>
      rw [initializeService, headIs, finalizedIs]
      exact .kept (fun _ same => by cases same) (fun _ same => by cases same)
    | ok =>
      obtain ⟨_, is, quiet⟩ := initializeService_quiet headIs finalizedIs system.world
        (.new system.options system.supportsPending)
      rw [is]
      exact .stored rfl quiet.writes quiet.result (.inr ⟨answers, head, rfl, idle, accepted, headIs, finalizedIs⟩)

theorem refreshFinalized {service state answer} (running : system.process = some (service, .ingest state)) :
    FinalizedEffect system (.refreshFinalized answer)
      (tickRefreshFinalized state answer >>= fun next => pure (service, next)) := by
  cases answer with
  | error => exact .kept (fun _ same => by cases same) (fun _ same => by cases same)
  | ok finalized =>
    by_cases behind : state.finalized.number > finalized.number
    · have failed : tickRefreshFinalized state (.ok finalized) = Planned.lift (Outcome.fail .model
          ["the new finalized cursor is behind the old one", "this should never happen"]) := if_pos behind
      rw [failed]
      exact .kept (fun _ same => by cases same) (fun _ same => by cases same)
    · by_cases same : state.finalized = finalized
      · have kept : tickRefreshFinalized state (.ok finalized) = pure (.ingest state) :=
          (if_neg behind).trans (if_pos same)
        rw [kept]
        exact .of_quiet running (.pure rfl)
      · have moved : tickRefreshFinalized state (.ok finalized) =
            (Planned.write (.putFinalized finalized.number) >>= fun _ =>
              pure (.ingest { state with finalized })) := (if_neg behind).trans (if_neg same)
        rw [moved]
        refine .stored rfl (fun _ same => by cases same) ?_ (.inl ⟨_, running, not_lt.mp behind⟩)
        rintro after ⟨⟩
        rfl

theorem of_plan {event} (planned : system.plan event = some tick) : FinalizedEffect system event tick := by
  cases event with
  | start =>
    rw [System.plan] at planned
    split at planned
    · next idle =>
        rw [Option.ite_none_right_eq_some, Option.some.injEq] at planned
        obtain ⟨accepted, rfl⟩ := planned
        exact start idle accepted
    · cases planned
  | refreshFinalized =>
    rw [System.plan] at planned
    split at planned
    · next running =>
        cases planned
        exact refreshFinalized running
    · cases planned
  | refreshHead =>
    rw [System.plan] at planned
    split at planned
    · next service state running =>
        cases planned
        refine of_quiet running (.pure ?_)
        simp only [tickRefreshHead, fillQueue_eq]
        split_ifs <;> rfl
    · cases planned
  | refreshPending =>
    rw [System.plan] at planned
    split at planned
    · next service state running =>
        rw [Option.ite_none_right_eq_some, Option.some.injEq] at planned
        obtain ⟨-, rfl⟩ := planned
        refine of_quiet running (.pure ?_)
        simp only [tickRefreshPending]
        split_ifs <;> rfl
    · cases planned
  | taskResult =>
    rw [System.plan] at planned
    split at planned
    · next service state running =>
        split at planned
        · rw [Option.ite_none_right_eq_some, Option.some.injEq] at planned
          obtain ⟨-, rfl⟩ := planned
          exact of_quiet running (tickWithTaskResult_quiet _ _ state _)
        · cases planned
    · cases planned
  | recover =>
    rw [System.plan] at planned
    split at planned
    · next service state running =>
        cases planned
        exact of_quiet running (tickRecover_quiet _ _ state _)
    · cases planned
  | stop =>
    rw [System.plan] at planned
    split at planned
    · cases planned
      exact .kept (fun _ same => by cases same) (fun _ same => by cases same)
    · cases planned

end FinalizedEffect

namespace FinalizedLog

variable {log : FinalizedLog}

/-- The last value is the one stored, and the one a running service knows. -/
structure Ordered (log : FinalizedLog) : Prop where
  sorted : log.NeverDecreased
  current : log.values.getLast? = log.system.world.etcd.finalized
  known : ∀ running, log.system.process = some running →
    log.system.world.etcd.finalized = some running.2.finalized.number

theorem start_ordered (options : IngestionServiceOptions) (supportsPending : Bool) (world : World) :
    (start options supportsPending world).Ordered := by
  refine ⟨?_, ?_, nofun⟩
  · cases stored : world.etcd.finalized <;> simp [NeverDecreased, start, stored]
  · cases stored : world.etcd.finalized <;> simp [start, stored]

theorem Ordered.append_iff (ordered : log.Ordered) (number : Nat) :
    (log.values ++ [number]).Pairwise (· ≤ ·) ↔
      ∀ stored, log.system.world.etcd.finalized = some stored → stored ≤ number := by
  rw [← List.isChain_iff_pairwise, List.isChain_append, ordered.current]
  have sorted := List.isChain_iff_pairwise.mpr ordered.sorted
  simp [sorted]

theorem Ordered.current_append (ordered : log.Ordered) (crash : Option Nat)
    (tick : Tick (IngestionService × IngestionState)) :
    (log.values ++ finalizedPuts (applied crash tick.writes)).getLast? =
      (log.system.finish crash tick).world.etcd.finalized := by
  rw [System.finish_applied, World.applyAll_finalized, List.getLast?_append, ordered.current]

theorem Ordered.step (ordered : log.Ordered) {input} (forward : log.StartsForward input) {after}
    (stepped : log.step input = some after) : after.Ordered := by
  obtain ⟨tick, planned, rfl⟩ := Option.map_eq_some_iff.mp stepped
  have current := ordered.current_append input.crash tick
  cases FinalizedEffect.of_plan planned with
  | kept quiet same =>
    have none : finalizedPuts (applied input.crash tick.writes) = [] :=
      finalizedPuts_quiet fun effect member => quiet effect (applied_subset _ _ member)
    refine ⟨?_, current, fun running alive => ?_⟩
    · simpa only [NeverDecreased, none, List.append_nil] using ordered.sorted
    · obtain ⟨before, was, knows⟩ := same running (System.finish_process alive).2
      rw [← current, none, List.append_nil, ordered.current, ordered.known before was, knows]
  | @stored finalized rest writes quiet known cause =>
    by_cases alive : input.crash = some 0
    · -- the process died before the write
      have none : finalizedPuts (applied input.crash tick.writes) = [] := by
        rw [alive]
        rfl
      refine ⟨?_, current, fun running stillAlive => ?_⟩
      · simpa only [NeverDecreased, none, List.append_nil] using ordered.sorted
      · rw [(System.finish_process stillAlive).1] at alive
        cases alive
    · have one : finalizedPuts (applied input.crash tick.writes) = [finalized.number] := by
        rw [writes]
        exact finalizedPuts_applied_cons alive quiet
      refine ⟨?_, current, fun running returned => ?_⟩
      · rw [NeverDecreased, one, ordered.append_iff]
        intro stored isStored
        rcases cause with ⟨before, running, ahead⟩ | ⟨answers, head, event, idle, accepted, headIs, finalizedIs⟩
        · rw [ordered.known before running, Option.some.injEq] at isStored
          exact isStored ▸ ahead
        · exact forward answers head finalized stored event idle accepted alive headIs finalizedIs isStored
      · rw [← current, one, List.getLast?_append, known running (System.finish_process returned).2]
        rfl

/-- The values of `ingestion/finalized` never decrease in a run just when no process
    starts with a finalized block below the stored one. -/
theorem neverDecreased_iff_startsForward (options : IngestionServiceOptions) (supportsPending : Bool)
    (world : World) (inputs : List Input) :
    Runs.Always step NeverDecreased (start options supportsPending world) inputs ↔
      Runs.Meets step StartsForward (start options supportsPending world) inputs := by
  refine Runs.always_iff_meets (fun _ _ _ ordered forward stepped => Ordered.step ordered forward stepped)
    (fun _ ordered => ordered.sorted) ?_ (start_ordered options supportsPending world)
  intro log input ordered good answers head finalized stored event idle accepted alive headIs finalizedIs isStored
  obtain ⟨rest, is, quiet⟩ := initializeService_quiet headIs finalizedIs log.system.world
    (.new log.system.options log.system.supportsPending)
  have planned : log.system.plan input.event =
      some (Planned.write (.putFinalized finalized.number) >>= fun _ => rest) := by
    rw [event, System.plan, idle, ← is]
    exact if_pos accepted
  have sorted := good _ (congrArg (Option.map _) planned)
  simp only [NeverDecreased, Planned.write_bind_writes, finalizedPuts_applied_cons alive quiet.writes,
    ordered.append_iff] at sorted
  exact sorted stored isStored

end FinalizedLog

namespace NodeBehind

def options : IngestionServiceOptions := ⟨1, 1, 1, none⟩

def genesis : BlockInfo := ⟨0, ⟨[1]⟩, ⟨[]⟩⟩

/-- A start while the node says that the given block is final. -/
def startAt (finalized : Nat) : Input :=
  { event := .start
      { head := .ok ⟨9, ⟨[9]⟩⟩
        finalized := .ok ⟨finalized, ⟨[1]⟩⟩
        blockInfo := fun _ => .ok genesis
        ingestBlock := fun _ => .ok genesis
        deletesLegacyRecent := true
        deletesLegacyIngested := true }
    crash := none }

/-- The node goes back from block 5 to block 4; the service fails and is started again. -/
def inputs : List Input := [startAt 5, ⟨.refreshFinalized (.ok ⟨4, ⟨[1]⟩⟩), none⟩, startAt 4]

theorem neverDecreased_fails_restart :
    ∃ log, Runs.run FinalizedLog.step (.start options false .fresh) inputs = some log ∧
      log.values = [5, 4] ∧ ¬ log.NeverDecreased := by
  obtain ⟨log, reached, values⟩ : ∃ log, Runs.run FinalizedLog.step (.start options false .fresh) inputs =
      some log ∧ log.values = [5, 4] := ⟨_, rfl, rfl⟩
  refine ⟨log, reached, values, ?_⟩
  rw [FinalizedLog.NeverDecreased, values]
  decide

end NodeBehind

end Starkstream
