import Starkstream.ChainView.Full
import Starkstream.Ingestion.ChainEffect
import Starkstream.Ingestion.Remote

/-! # Finalized blocks stay

The finalized number and the chain are stored by different events, and nothing
compares the blocks up to the number with the blocks of the node.  While both
agree whenever one of them is stored, a block published at or below the stored
number is never replaced.
-/

namespace Starkstream

open CanonicalChainBuilder
open IngestionService

/-- The chain that a reader of etcd and the chain store sees. -/
def System.reader (system : System) : Option FullCanonicalChain :=
  system.world.etcd.recent.bind fun pointer =>
    system.world.store.snapshots[pointer.key]?.map fun recent =>
      { store := fun start => .ok system.world.store.segments[start]?
        startingBlock := system.world.etcd.startingBlock.getD 0
        chainSegmentSize := system.options.chainSegmentSize
        recent }

/-- The hash of the published canonical chain at a number. -/
def System.publishedHash (system : System) (number : Nat) : Option Hash :=
  system.reader.bind fun chain => (chain.getCanonicalImpl number).toOption.map (·.hash)

/-- The node, the ingestion service and the stores. -/
structure Deployment where
  node : Node
  system : System

inductive DeploymentInput where
  | node (event : NodeStep)
  | service (input : Input)
  /-- The compaction services store how far they got. -/
  | segmented (number : Nat)
  | grouped (number : Nat)

namespace Deployment

def fresh (node : Node) (options : IngestionServiceOptions) (supportsPending : Bool) : Deployment :=
  ⟨node, .fresh options supportsPending⟩

def withEtcd (deployment : Deployment) (etcd : Etcd) : Deployment :=
  { deployment with system := { deployment.system with world := { deployment.system.world with etcd } } }

def step (deployment : Deployment) : DeploymentInput → Option Deployment
  | .node event => (deployment.node.step event).map fun node => { deployment with node }
  | .service input => (deployment.system.step input).map fun system => { deployment with system }
  | .segmented number =>
    some (deployment.withEtcd { deployment.system.world.etcd with segmented := some number })
  | .grouped number =>
    some (deployment.withEtcd { deployment.system.world.etcd with grouped := some number })

end Deployment

/-- The hashes that the builder, the recent snapshot or a stored segment holds,
    by block number. -/
inductive Held (system : System) : (Nat → Option Hash) → Prop
  | builder {service : IngestionService} {state : IngestionState} {chain : Building}
      (running : system.process = some (service, state)) (builder : service.chainBuilder = .building chain) :
      Held system chain.hashAt
  | recent {pointer : RecentSegmentPointer} {segment : CanonicalChainSegment}
      (published : system.world.etcd.recent = some pointer)
      (stored : system.world.store.snapshots[pointer.key]? = some segment) : Held system segment.hashAt
  | stored {start : Nat} {segment : CanonicalChainSegment}
      (stored : system.world.store.segments[start]? = some segment) : Held system segment.hashAt

/-- Up to the limit, the hashes are those of the node. -/
def Node.AgreesUpTo (node : Node) (limit : Nat) (hashes : Nat → Option Hash) : Prop :=
  ∀ number ≤ limit, ∀ hash, hashes number = some hash → node.hashAt number = some hash

namespace Deployment

/-- The node reports the finalized block that it has. -/
def AnswersFinalized (deployment : Deployment) : DeploymentInput → Prop
  | .service input =>
    ∀ finalized, input.event.finalizedAnswer = some finalized → finalized = deployment.node.finalizedCursor
  | _ => True

/-- Whenever the finalized number is stored, everything held up to it is what the
    node has, and whenever a block up to the stored number is appended, it is the
    block of the node. -/
def StoresAgree (deployment : Deployment) : DeploymentInput → Prop
  | .service input =>
    (∀ finalized, input.event.finalizedAnswer = some finalized →
      ∀ hashes, Held deployment.system hashes → deployment.node.AgreesUpTo finalized.number hashes) ∧
    match input.event with
    | .start answers => ∀ block, answers.ingestBlock (startingBlock deployment.system.options) = .ok block →
        block.number ≤ deployment.node.finalized → deployment.node.hashAt block.number = some block.hash
    | .taskResult (.finished (.ok (.main block))) => ∀ limit,
        deployment.system.world.etcd.finalized = some limit → block.number ≤ limit →
          deployment.node.hashAt block.number = some block.hash
    | _ => True
  | _ => True

end Deployment

theorem FullCanonicalChain.getCanonicalImpl_inv {chain : FullCanonicalChain} {number cursor}
    (found : chain.getCanonicalImpl number = .ok cursor) :
    ∃ segment, (segment = chain.recent ∨ ∃ start, chain.store start = .ok (some segment)) ∧
      segment.hashAt number = some cursor.hash := by
  rw [getCanonicalImpl] at found
  cases lookup : chain.getChainSegment number with
  | error => simp [lookup, bind, Except.bind] at found
  | ok segment =>
    refine ⟨segment, ?_, ?_⟩
    · rw [getChainSegment] at lookup
      split_ifs at lookup with inside
      · exact .inl (Except.ok.inj lookup).symm
      · cases start : chainSegmentStart number chain.startingBlock chain.chainSegmentSize with
        | error => simp [start, bind, Except.bind] at lookup
        | ok start =>
          simp only [start, bind, Except.bind] at lookup
          split at lookup
          · cases lookup
            exact .inr ⟨_, ‹_›⟩
          · simp [Outcome.fail] at lookup
          · simp at lookup
    · simp only [lookup, bind, Except.bind] at found
      rw [CanonicalChainSegment.hashAt]
      cases canonical : segment.canonicalAt number with
      | ok =>
        simp only [canonical, Outcome.changeContext] at found
        rw [← Except.ok.inj found]
        rfl
      | error fault => cases fault <;> simp [canonical, Outcome.changeContext] at found

variable {system : System}

theorem System.publishedHash_held {number hash} (published : system.publishedHash number = some hash) :
    ∃ hashes, Held system hashes ∧ hashes number = some hash := by
  obtain ⟨_, reads, found⟩ := Option.bind_eq_some_iff.mp published
  obtain ⟨_, isRecent, snapshot⟩ := Option.bind_eq_some_iff.mp reads
  obtain ⟨recent, stored, rfl⟩ := Option.map_eq_some_iff.mp snapshot
  obtain ⟨_, canonical, rfl⟩ := Option.map_eq_some_iff.mp found
  obtain ⟨_, rfl | ⟨_, isStored⟩, hashAt⟩ :=
    FullCanonicalChain.getCanonicalImpl_inv (toOption_eq_some.mp canonical)
  · exact ⟨_, .recent isRecent stored, hashAt⟩
  · exact ⟨_, .stored (Except.ok.inj isStored), hashAt⟩

/-! ## Where the hashes held after an event come from -/

def Event.Offers (options : IngestionServiceOptions) (block : BlockInfo) : Event → Prop
  | .start answers => answers.ingestBlock (startingBlock options) = .ok block
  | .taskResult (.finished (.ok (.main finished))) => finished = block
  | _ => False

/-- Every hash was held before or is that of the block offered. -/
def Known (system : System) (event : Event) (hashes : Nat → Option Hash) : Prop :=
  ∀ number hash, hashes number = some hash →
    (∃ held, Held system held ∧ held number = some hash) ∨
    (∃ block, event.Offers system.options block ∧ block.number = number ∧ block.hash = hash)

variable {hashes : Nat → Option Hash}

theorem Known.of_held {event} (held : Held system hashes) : Known system event hashes :=
  fun _ _ found => .inl ⟨hashes, held, found⟩

theorem Known.mono {event fewer} (known : Known system event hashes)
    (sub : ∀ number hash, fewer number = some hash → hashes number = some hash) : Known system event fewer :=
  fun number hash found => known number hash (sub number hash found)

/-- What the stores hold is known. -/
structure WorldKnown (system : System) (event : Event) (world : World) : Prop where
  older : ∀ pointer, world.etcd.recent = some pointer → pointer.key < world.store.nextKey
  recent : ∀ (pointer : RecentSegmentPointer) (segment : CanonicalChainSegment),
    world.etcd.recent = some pointer → world.store.snapshots[pointer.key]? = some segment →
      Known system event segment.hashAt
  stored : ∀ (start : Nat) (segment : CanonicalChainSegment),
    world.store.segments[start]? = some segment → Known system event segment.hashAt

namespace WorldKnown

variable {event : Event} {world : World}

theorem before (ok : system.Ok) (event : Event) : WorldKnown system event system.world :=
  ⟨ok.store.older, fun _ _ published stored => .of_held (.recent published stored),
    fun _ _ stored => .of_held (.stored stored)⟩

variable (known : WorldKnown system event world)
include known

theorem plain {options cause} {effect : Write} (isPlain : effect.Plain options cause) :
    WorldKnown system event (world.apply effect) := by
  cases effect with
  | putFinalized | putStartingBlock | putPending => exact ⟨known.older, known.recent, known.stored⟩
  | _ => exact isPlain.elim

theorem putSegment {segment : CanonicalChainSegment} (knownSegment : Known system event segment.hashAt) :
    WorldKnown system event (world.apply (.putSegment segment)) := by
  refine ⟨known.older, known.recent, fun start found stored => ?_⟩
  simp only [World.apply, Std.ExtTreeMap.getElem?_insert] at stored
  split_ifs at stored
  · exact Option.some.inj stored ▸ knownSegment
  · exact known.stored start found stored

theorem publish {segment : CanonicalChainSegment} (knownSegment : Known system event segment.hashAt) :
    Effects.Always World.apply (WorldKnown system event) world (publishWrites world segment) := by
  have put : WorldKnown system event (world.apply (.putRecentSnapshot world.store.nextKey segment)) := by
    refine ⟨fun pointer published => Nat.lt_succ_of_lt (known.older pointer published),
      fun pointer found published stored => ?_, known.stored⟩
    have older := known.older pointer published
    simp only [World.apply, Std.ExtTreeMap.getElem?_insert, Std.compare_eq_iff_eq] at stored
    rw [if_neg (by omega)] at stored
    exact known.recent pointer found published stored
  refine .cons known (.cons put (.nil ⟨?_, ?_, known.stored⟩))
  · rintro pointer ⟨⟩
    exact Nat.lt_succ_self _
  · rintro pointer found ⟨⟩ stored
    simp only [World.apply, Std.ExtTreeMap.getElem?_insert_self] at stored
    exact Option.some.inj stored ▸ knownSegment

end WorldKnown

theorem Known.single (event : Event) {block} (offered : event.Offers system.options block) :
    Known system event (Building.single block).hashAt := by
  intro number hash found
  have range := (Building.single_wellFormed block).hashAt_range found
  have level : number = block.number := le_antisymm range.2 range.1
  have first := (Building.single_wellFormed block).firstHash
  refine .inr ⟨block, offered, level.symm, ?_⟩
  rw [level] at found
  exact Option.some.inj (first.symm.trans found)

theorem Known.grown (event : Event) {chain : Building} (wf : chain.WellFormed) (held : Held system chain.hashAt) {block}
    (offered : event.Offers system.options block) (next : block.number = chain.info.lastBlock.number + 1) :
    Known system event (chain.grown block).hashAt := by
  intro number hash found
  rw [Building.grown_hashAt wf next] at found
  split_ifs at found with level
  · exact .inr ⟨block, offered, level.symm, Option.some.inj found⟩
  · exact .inl ⟨_, held, found⟩

/-- The finalized number stored is the one stored before the event or the one
    that the node reports in it. -/
def FinalizedFrom (system : System) (event : Event) (world : World) : Prop :=
  world.etcd.finalized = system.world.etcd.finalized ∨
  ∃ finalized, event.finalizedAnswer = some finalized ∧ world.etcd.finalized = some finalized.number

namespace ChainEffect

variable {event : Event} {tick : Tick (IngestionService × IngestionState)}

theorem worldKnown (ok : system.Ok) (effect : ChainEffect system event tick) :
    Effects.Always World.apply (WorldKnown system event) system.world tick.writes := by
  have before := WorldKnown.before ok event
  cases effect with
  | kept plain => exact .of_kept before (fun _ member _ known => known.plain (plain _ member))
  | started idle answered nothing fetched =>
    have stored := before.plain (Write.plain_start answered system.options)
    have starting : Write.Plain system.options .stop (.putStartingBlock (startingBlock system.options)) := rfl
    refine .cons before (.cons stored ((stored.plain starting).publish ?_))
    have known : Known system (.start _) _ := .single _ fetched
    refine known.mono fun number hash found => ?_
    rwa [Building.snapshot_hashAt (Building.single_wellFormed _)] at found
  | restarted idle answered =>
    exact .cons before (.nil (before.plain (Write.plain_start answered system.options)))
  | appended running piped next allowed published =>
    have known : Known system (.taskResult (.finished (.ok (.main _)))) _ :=
      .grown _ piped.wf (.builder running piped.builder) rfl next
    rcases published with rfl | rfl
    · exact .nil before
    · refine before.publish (known.mono fun number hash found => ?_)
      rwa [Building.snapshot_hashAt (piped.wf.grown next)] at found
  | uploaded running piped next allowed uploads =>
    have known : Known system (.taskResult (.finished (.ok (.main _)))) _ :=
      .grown _ piped.wf (.builder running piped.builder) rfl next
    refine .cons before (WorldKnown.publish (before.putSegment ?_) ?_)
    · exact known.mono fun number hash found => Building.takenSegment_hashAt found
    · refine known.mono fun number hash found => ?_
      rw [Building.snapshot_hashAt ((piped.wf.grown next).remaining uploads.inside uploads.nextAt),
        Building.remaining_hashAt, Option.ite_none_right_eq_some] at found
      exact found.2
  | recovered running chained canonical =>
    refine before.publish ((Known.of_held (.builder running chained.builder)).mono fun number hash found => ?_)
    rw [Building.snapshot_hashAt (chained.wf.shrinkTo canonical),
      Building.shrinkTo_hashAt chained.wf canonical, Option.ite_none_right_eq_some] at found
    exact found.2

theorem builderKnown (effect : ChainEffect system event tick) {after} (returned : tick.result = .ok after) {chain}
    (isChain : after.1.chainBuilder = .building chain) : Known system event chain.hashAt := by
  cases effect with
  | kept plain same =>
    obtain ⟨_, running, builder⟩ := same after returned
    exact .of_held (.builder running (builder.symm.trans isChain))
  | started idle answered nothing fetched first builder =>
    cases returned
    cases builder.symm.trans isChain
    exact .single _ fetched
  | restarted idle answered published stored wf builder =>
    cases returned
    cases builder.symm.trans isChain
    refine (Known.of_held (.recent published stored)).mono fun number hash found => ?_
    rwa [Building.snapshot_hashAt wf]
  | appended running piped next allowed published builder =>
    cases returned
    cases builder.symm.trans isChain
    exact .grown _ piped.wf (.builder running piped.builder) rfl next
  | uploaded running piped next allowed uploads builder =>
    cases returned
    cases builder.symm.trans isChain
    have known : Known system (.taskResult (.finished (.ok (.main _)))) _ :=
      .grown _ piped.wf (.builder running piped.builder) rfl next
    refine known.mono fun number hash found => ?_
    rw [Building.remaining_hashAt, Option.ite_none_right_eq_some] at found
    exact found.2
  | recovered running chained canonical last builder =>
    cases returned
    cases builder.symm.trans isChain
    refine (Known.of_held (.builder running chained.builder)).mono fun number hash found => ?_
    rw [Building.shrinkTo_hashAt chained.wf canonical, Option.ite_none_right_eq_some] at found
    exact found.2

/-- Nothing is held after an event that was not held before or offered by it. -/
theorem held (ok : system.Ok) (effect : ChainEffect system event tick) {crash hashes}
    (held : Held (system.finish crash tick) hashes) : Known system event hashes := by
  have world : WorldKnown system event (system.finish crash tick).world :=
    System.finish_world (effect.worldKnown ok)
  cases held with
  | builder running builder => exact effect.builderKnown (System.finish_process running).2 builder
  | recent published stored => exact world.recent _ _ published stored
  | stored stored => exact world.stored _ _ stored

theorem answered_of_put (effect : ChainEffect system event tick) {number} (member : .putFinalized number ∈ tick.writes) :
    ∃ finalized, event.finalizedAnswer = some finalized ∧ finalized.number = number := by
  cases effect with
  | kept plain => exact plain _ member
  | started idle answered =>
    simp only [publishWrites, List.mem_cons, Write.putFinalized.injEq, reduceCtorEq, List.not_mem_nil,
      or_false] at member
    exact member ▸ Write.plain_start answered system.options
  | restarted idle answered =>
    rw [List.mem_singleton, Write.putFinalized.injEq] at member
    exact member ▸ Write.plain_start answered system.options
  | appended running piped next allowed published =>
    rcases published with rfl | rfl <;> simp [publishWrites] at member
  | uploaded | recovered => simp [publishWrites] at member

theorem finalizedFrom (effect : ChainEffect system event tick) (crash : Option Nat) :
    FinalizedFrom system event (system.finish crash tick).world := by
  refine System.finish_world (.of_kept (.inl rfl) fun write member world stored => ?_)
  cases write with
  | putFinalized =>
    obtain ⟨finalized, answered, rfl⟩ := effect.answered_of_put member
    exact .inr ⟨finalized, answered, rfl⟩
  | _ => exact stored

end ChainEffect

/-! ## Runs in which the stores agree with the node -/

theorem Node.Later.agreesUpTo {before after : Node} (later : before.Later after) {limit}
    (behind : limit ≤ before.finalized) (agrees : before.AgreesUpTo limit hashes) : after.AgreesUpTo limit hashes := by
  intro number upper hash found
  rw [later.stable number (upper.trans behind)]
  exact agrees number upper hash found

namespace Deployment

structure Agrees (deployment : Deployment) : Prop where
  ok : deployment.system.Ok
  behind : ∀ limit, deployment.system.world.etcd.finalized = some limit → limit ≤ deployment.node.finalized
  held : ∀ limit, deployment.system.world.etcd.finalized = some limit →
    ∀ hashes, Held deployment.system hashes → deployment.node.AgreesUpTo limit hashes

/-- What does not go back in time. -/
structure Since (before after : Deployment) : Prop where
  node : before.node.Later after.node
  finalized : ∀ limit, before.system.world.etcd.finalized = some limit →
    ∃ later, after.system.world.etcd.finalized = some later ∧ limit ≤ later

theorem Since.refl (deployment : Deployment) : deployment.Since deployment :=
  ⟨.refl _, fun limit stored => ⟨limit, stored, le_rfl⟩⟩

theorem Since.trans {first second third : Deployment} (early : first.Since second)
    (late : second.Since third) : first.Since third := by
  refine ⟨early.node.trans late.node, fun limit stored => ?_⟩
  obtain ⟨middle, storedMiddle, upper⟩ := early.finalized limit stored
  obtain ⟨later, storedLater, upperLater⟩ := late.finalized middle storedMiddle
  exact ⟨later, storedLater, upper.trans upperLater⟩

variable {deployment next : Deployment}

/-- The block offered by an event is that of the node, up to the number stored
    after the event. -/
theorem StoresAgree.offered {input} (guard : deployment.StoresAgree (.service input)) {block}
    (offered : input.event.Offers deployment.system.options block) {world}
    (stored : FinalizedFrom deployment.system input.event world) {limit} (behind : limit ≤ deployment.node.finalized)
    (isLimit : world.etcd.finalized = some limit) (upper : block.number ≤ limit) :
    deployment.node.hashAt block.number = some block.hash := by
  obtain ⟨event, _⟩ := input
  have appended := guard.2
  match event, offered with
  | .start answers, fetched => exact appended block fetched (upper.trans behind)
  | .taskResult (.finished (.ok (.main finished))), same =>
    obtain rfl : finished = block := same
    rcases stored with same | ⟨_, impossible, -⟩
    · exact appended limit (same.symm.trans isLimit) upper
    · cases impossible

theorem Agrees.service (agrees : deployment.Agrees) {input} (honest : deployment.AnswersFinalized (.service input))
    (guard : deployment.StoresAgree (.service input)) (stepped : deployment.system.step input = some system) :
    Agrees { deployment with system } ∧ deployment.Since { deployment with system } := by
  obtain ⟨tick, transition, rfl⟩ := System.step_inv agrees.ok stepped
  have effect := transition.chainEffect
  have stored := effect.finalizedFrom input.crash
  have reported : ∀ finalized, input.event.finalizedAnswer = some finalized →
      finalized.number = deployment.node.finalized :=
    fun finalized answered => congrArg Cursor.number (honest finalized answered)
  have behind : ∀ limit, (deployment.system.finish input.crash tick).world.etcd.finalized = some limit →
      limit ≤ deployment.node.finalized := by
    intro limit isLimit
    rcases stored with same | ⟨finalized, answered, isReported⟩
    · exact agrees.behind limit (same.symm.trans isLimit)
    · cases isReported.symm.trans isLimit
      exact (reported finalized answered).le
  refine ⟨⟨agrees.ok.step stepped, behind, fun limit isLimit hashes held number upper hash found => ?_⟩,
    .refl _, fun limit wasStored => ?_⟩
  · rcases effect.held agrees.ok held number hash found with
      ⟨before, heldBefore, foundBefore⟩ | ⟨_, offered, rfl, rfl⟩
    · rcases stored with same | ⟨finalized, answered, isReported⟩
      · exact agrees.held limit (same.symm.trans isLimit) before heldBefore number upper hash foundBefore
      · cases isReported.symm.trans isLimit
        exact guard.1 finalized answered before heldBefore number upper hash foundBefore
    · exact guard.offered offered stored (behind limit isLimit) isLimit upper
  · rcases stored with same | ⟨finalized, answered, isReported⟩
    · exact ⟨limit, same.trans wasStored, le_rfl⟩
    · refine ⟨finalized.number, isReported, ?_⟩
      rw [reported finalized answered]
      exact agrees.behind limit wasStored

theorem Agrees.withEtcd (agrees : deployment.Agrees) {etcd : Etcd}
    (finalized : etcd.finalized = deployment.system.world.etcd.finalized)
    (recent : etcd.recent = deployment.system.world.etcd.recent) :
    (deployment.withEtcd etcd).Agrees ∧ deployment.Since (deployment.withEtcd etcd) := by
  refine ⟨⟨⟨⟨agrees.ok.store.noLegacy, ?_, ?_⟩, agrees.ok.process, agrees.ok.options⟩, ?_, ?_⟩, .refl _, ?_⟩
  · exact fun pointer published => agrees.ok.store.recent pointer (recent.symm.trans published)
  · exact fun pointer published => agrees.ok.store.older pointer (recent.symm.trans published)
  · exact fun limit stored => agrees.behind limit (finalized.symm.trans stored)
  · intro limit stored hashes held
    refine agrees.held limit (finalized.symm.trans stored) hashes ?_
    cases held with
    | builder running builder => exact .builder running builder
    | recent published found => exact .recent (recent.symm.trans published) found
    | stored found => exact .stored found
  · exact fun limit stored => ⟨limit, finalized.trans stored, le_rfl⟩

theorem Agrees.step (agrees : deployment.Agrees) {input} (honest : deployment.AnswersFinalized input)
    (guard : deployment.StoresAgree input) (stepped : deployment.step input = some next) :
    next.Agrees ∧ deployment.Since next := by
  cases input with
  | node =>
    obtain ⟨_, moved, rfl⟩ := Option.map_eq_some_iff.mp stepped
    have later := Node.step_later moved
    refine ⟨⟨agrees.ok, fun limit stored => (agrees.behind limit stored).trans later.forward, ?_⟩, later, ?_⟩
    · exact fun limit stored hashes held =>
        later.agreesUpTo (agrees.behind limit stored) (agrees.held limit stored hashes held)
    · exact fun limit stored => ⟨limit, stored, le_rfl⟩
  | service =>
    obtain ⟨_, moved, rfl⟩ := Option.map_eq_some_iff.mp stepped
    exact agrees.service honest guard moved
  | segmented | grouped =>
    cases stepped
    exact agrees.withEtcd rfl rfl

/-- The state reached agrees with the node, and did not go back since `start`. -/
structure AgreesSince (start deployment : Deployment) : Prop where
  agrees : deployment.Agrees
  since : start.Since deployment

theorem AgreesSince.run {start before after : Deployment} {inputs} (from_ : start.AgreesSince before)
    (meets : Runs.Meets step (fun state input => state.AnswersFinalized input ∧ state.StoresAgree input)
      before inputs) (reached : Runs.run step before inputs = some after) : start.AgreesSince after :=
  Runs.run_guarded (fun _ _ _ held guard stepped =>
    have moved := held.agrees.step guard.1 guard.2 stepped
    ⟨moved.1, held.since.trans moved.2⟩) from_ meets reached

theorem fresh_agrees (node : Node) (options : IngestionServiceOptions) (supportsPending : Bool) :
    (fresh node options supportsPending).Agrees :=
  ⟨System.fresh_ok options supportsPending, fun _ stored => (by cases stored),
    fun _ stored => (by cases stored)⟩

/-- In a run whose steps all meet the condition, a hash published at or below the
    stored finalized number is never replaced. -/
theorem publishedHash_final (node : Node) (options : IngestionServiceOptions) (supportsPending : Bool)
    {left right : List DeploymentInput} {before after : Deployment}
    (meets : Runs.Meets step (fun state input => state.AnswersFinalized input ∧ state.StoresAgree input)
      (fresh node options supportsPending) (left ++ right))
    (earlier : Runs.run step (fresh node options supportsPending) left = some before)
    (later : Runs.run step before right = some after)
    {limit number : Nat} (stored : before.system.world.etcd.finalized = some limit) (upper : number ≤ limit)
    {hash hash' : Hash} (published : before.system.publishedHash number = some hash)
    (republished : after.system.publishedHash number = some hash') : hash' = hash := by
  obtain ⟨meetsLeft, meetsRight⟩ := meets.append earlier
  have first := AgreesSince.run ⟨fresh_agrees node options supportsPending, .refl _⟩ meetsLeft earlier
  have second := AgreesSince.run ⟨first.agrees, .refl _⟩ meetsRight later
  obtain ⟨hashes, held, found⟩ := System.publishedHash_held published
  obtain ⟨hashes', held', found'⟩ := System.publishedHash_held republished
  obtain ⟨limit', stored', grown⟩ := second.since.finalized limit stored
  have atNode := first.agrees.held limit stored hashes held number upper hash found
  have atNode' := second.agrees.held limit' stored' hashes' held' number (upper.trans grown) hash' found'
  rw [second.since.node.stable number (upper.trans (first.agrees.behind limit stored)), atNode] at atNode'
  exact (Option.some.inj atNode').symm

/-- Everything that the node answers in an event is what its chain is then. -/
def FromNode (deployment : Deployment) : DeploymentInput → Prop
  | .service ⟨.start answers, _⟩ =>
    answers.head = .ok deployment.node.chain.head ∧
      answers.finalized = .ok deployment.node.finalizedCursor ∧
      answers.blockInfo = deployment.node.chain.answer ∧ answers.ingestBlock = deployment.node.chain.answer
  | .service ⟨.refreshFinalized answer, _⟩ => answer = .ok deployment.node.finalizedCursor
  | .service ⟨.refreshHead head, _⟩ => head = deployment.node.chain.head
  | .service ⟨.taskResult (.finished (.ok (.main block))), _⟩ =>
    deployment.node.chain.blockAt block.number = some block
  | .service ⟨.recover poll, _⟩ => poll = deployment.node.chain.poll
  | _ => True

def oneBlock : RemoteChain := ⟨[⟨[1]⟩], ⟨[]⟩, by simp⟩

/-- A node with the genesis block, which is finalized. -/
def genesisNode : Node := ⟨oneBlock, 0, by decide⟩

def startAtGenesis : DeploymentInput :=
  .service
    { event := .start
        { head := .ok oneBlock.head
          finalized := .ok genesisNode.finalizedCursor
          blockInfo := oneBlock.answer
          ingestBlock := oneBlock.answer
          deletesLegacyRecent := true
          deletesLegacyIngested := true }
      crash := none }

/-- Block 1 is ingested, replaced by the node, and the new block 1 is finalized. -/
def finalizedElsewhere : List DeploymentInput :=
  [startAtGenesis, .node (.grow ⟨[2]⟩), .service (.newHead ⟨1, ⟨[2]⟩⟩), .service (.ingested ⟨1, ⟨[2]⟩, ⟨[1]⟩⟩),
    .node (.reorg 1 [⟨[3]⟩]), .node (.advanceFinalized 1),
    .service ⟨.refreshFinalized (.ok ⟨1, ⟨[3]⟩⟩), none⟩]

/-- The service notices and goes to the new block 1. -/
def recoveredLater : List DeploymentInput :=
  [.service (.newHead ⟨1, ⟨[3]⟩⟩), .service ⟨.recover (RemoteChain.poll ⟨[⟨[1]⟩, ⟨[3]⟩], ⟨[]⟩, by simp⟩), none⟩,
    .service (.newHead ⟨1, ⟨[3]⟩⟩), .service (.ingested ⟨1, ⟨[3]⟩, ⟨[1]⟩⟩)]

theorem publishedHash_final_genesis :
    ∃ before after,
      Runs.run step (fresh genesisNode .default false) [startAtGenesis, .node (.grow ⟨[2]⟩)] = some before ∧
      Runs.run step before [.service (.newHead ⟨1, ⟨[2]⟩⟩), .service (.ingested ⟨1, ⟨[2]⟩, ⟨[1]⟩⟩)] = some after ∧
      before.system.world.etcd.finalized = some 0 ∧
      ∀ hash, after.system.publishedHash 0 = some hash → hash = ⟨[1]⟩ := by
  have meets : Runs.Meets step (fun state input => state.AnswersFinalized input ∧ state.StoresAgree input)
      (fresh genesisNode .default false)
      ([startAtGenesis, .node (.grow ⟨[2]⟩)] ++ [.service (.newHead ⟨1, ⟨[2]⟩⟩), .service (.ingested ⟨1, ⟨[2]⟩, ⟨[1]⟩⟩)]) := by
    refine .cons ⟨?_, ?_, ?_⟩ rfl (.cons ⟨trivial, trivial⟩ rfl (.cons ⟨?_, ?_, trivial⟩ rfl
      (.cons ⟨?_, ?_, ?_⟩ rfl trivial)))
    · rintro finalized ⟨⟩
      rfl
    · rintro finalized - hashes held
      -- nothing is held yet
      cases held with
      | builder running => cases running
      | recent published => cases published
      | stored found => exact absurd found (by simp [fresh, System.fresh, World.fresh])
    · rintro block ⟨⟩ -
      rfl
    · rintro finalized ⟨⟩
    · rintro finalized ⟨⟩
    · rintro finalized ⟨⟩
    · rintro finalized ⟨⟩
    · rintro limit ⟨⟩ upper
      exact absurd upper (by decide)
  have earlier : Runs.run step (fresh genesisNode .default false)
    [startAtGenesis, .node (.grow ⟨[2]⟩)] = some _ := rfl
  refine ⟨_, _, earlier, rfl, rfl, fun hash republished => ?_⟩
  exact publishedHash_final genesisNode .default false meets earlier rfl rfl le_rfl rfl republished

/-- Block 1 is published and at the stored finalized number; later block 1 of
    another chain is published. -/
theorem publishedHash_replaced :
    ∃ before after,
      Runs.run step (fresh genesisNode .default false) finalizedElsewhere = some before ∧
      Runs.run step before recoveredLater = some after ∧
      Runs.Meets step FromNode (fresh genesisNode .default false) (finalizedElsewhere ++ recoveredLater) ∧
      before.system.world.etcd.finalized = some 1 ∧ before.system.publishedHash 1 = some ⟨[2]⟩ ∧
      after.system.publishedHash 1 = some ⟨[3]⟩ := by
  have earlier : Runs.run step (fresh genesisNode .default false) finalizedElsewhere = some _ := rfl
  refine ⟨_, _, earlier, rfl, ?_, rfl, rfl, rfl⟩
  refine .cons ⟨rfl, rfl, rfl, rfl⟩ rfl (.cons trivial rfl (.cons rfl rfl (.cons rfl rfl
    (.cons trivial rfl (.cons trivial rfl (.cons rfl rfl (.cons rfl rfl (.cons rfl rfl (.cons rfl rfl
    (.cons rfl rfl trivial))))))))))

end Deployment

end Starkstream
