import Starkstream.Ingestion.Pending
import Starkstream.Lib.Lease

/-! # Services that compete for the ingestion lock

Each service waits for the lock, initializes, ticks until it fails and releases
the lock.  A tick is planned from what it reads and its writes are carried out one
at a time, so that other services and the expiry of the lease come in between.
`keep_alive` is not a step: on a lease that is alive it only delays its expiry,
and on an expired one it succeeds without any effect.

Nothing that a service does after it got the lock depends on the lock.
-/

namespace Starkstream

open Lease

/-- What follows the writes of a tick. -/
inductive AfterWrites where
  /-- The tick returns, or fails. -/
  | result (process : Option (IngestionService × IngestionState))
  /-- `initialize` looks for the starting cursor. -/
  | startingCursor (answers : IngestionService.InitializeAnswers)

inductive SessionStage where
  /-- Between two ticks; there is no process before `initialize`. -/
  | ready (process : Option (IngestionService × IngestionState))
  | ticking (writes : List Write) (next : AfterWrites)
  /-- The service returned an error, the lock is not released yet. -/
  | failed

/-- What a service does with the lock. -/
structure Session where
  lease : Nat
  stage : SessionStage

/-- The services and what they share. -/
structure Contest (ι : Type) where
  options : ι → IngestionServiceOptions
  supportsPending : ι → Bool
  world : World
  /-- The keys of snapshots are never used twice, also not by two services. -/
  nextKey : Nat
  lock : Lock
  sessions : ι → Option Session
  /-- Every write so far, with the lease of the session that made it. -/
  log : List (Nat × Write)

inductive ContestStep (ι : Type) where
  | acquire (service : ι)
  /-- The lease that holds the lock expires. -/
  | expire
  /-- The next tick of the service, up to its first write. -/
  | tick (service : ι) (event : Event)
  | write (service : ι)
  /-- What follows the last write. -/
  | proceed (service : ι)
  /-- `unlock`, after the service failed. -/
  | unlock (service : ι)
  | crash (service : ι)

namespace Contest

variable {ι : Type} [DecidableEq ι]

def fresh (options : ι → IngestionServiceOptions) (supportsPending : ι → Bool) : Contest ι :=
  { options, supportsPending, world := .fresh, nextKey := 0, lock := .free, sessions := fun _ => none, log := [] }

def setSession (contest : Contest ι) (service : ι) (session : Option Session) : Contest ι :=
  { contest with sessions := Function.update contest.sessions service session }

def system (contest : Contest ι) (service : ι) (process : Option (IngestionService × IngestionState)) : System :=
  { options := contest.options service
    supportsPending := contest.supportsPending service
    world := { contest.world with store := { contest.world.store with nextKey := contest.nextKey } }
    process }

/-- Plan a tick; `initialize` reads the stores only after its first write. -/
def planTick (contest : Contest ι) (service : ι) (process : Option (IngestionService × IngestionState))
    (event : Event) : Option SessionStage :=
  ((contest.system service process).plan event).map fun tick =>
    match event, tick.writes with
    | .start answers, first :: _ => .ticking [first] (.startingCursor answers)
    | _, writes => .ticking writes (.result tick.result.toOption)

/-- `initialize` from the reads on. -/
def planStart (contest : Contest ι) (service : ι) (answers : IngestionService.InitializeAnswers) :
    Option SessionStage :=
  ((contest.system service none).plan (.start answers)).map fun tick =>
    .ticking tick.writes.tail (.result tick.result.toOption)

/-- The next stage of a session, with the key that its plan may use. -/
def enter (contest : Contest ι) (service : ι) (lease : Nat) (stage : SessionStage) : Contest ι :=
  { contest.setSession service (some ⟨lease, stage⟩) with nextKey := contest.nextKey + 1 }

def write (contest : Contest ι) (service : ι) (lease : Nat) (effect : Write) (rest : List Write)
    (next : AfterWrites) : Contest ι :=
  { contest.setSession service (some ⟨lease, .ticking rest next⟩) with
    world := contest.world.apply effect
    log := contest.log ++ [(lease, effect)] }

def step (contest : Contest ι) : ContestStep ι → Option (Contest ι)
  | .acquire service =>
    match contest.sessions service with
    | none => contest.lock.acquire.map fun lock =>
      { contest.setSession service (some ⟨contest.lock.granted, .ready none⟩) with lock }
    | some _ => none
  | .expire => some { contest with lock := contest.lock.expire }
  | .tick service event =>
    match contest.sessions service with
    | some ⟨lease, .ready process⟩ => (contest.planTick service process event).map (contest.enter service lease)
    | _ => none
  | .write service =>
    match contest.sessions service with
    | some ⟨lease, .ticking (effect :: rest) next⟩ => some (contest.write service lease effect rest next)
    | _ => none
  | .proceed service =>
    match contest.sessions service with
    | some ⟨lease, .ticking [] (.result process)⟩ =>
      let stage := process.elim .failed fun process => .ready (some process)
      some (contest.setSession service (some ⟨lease, stage⟩))
    | some ⟨lease, .ticking [] (.startingCursor answers)⟩ =>
      (contest.planStart service answers).map (contest.enter service lease)
    | _ => none
  | .unlock service =>
    match contest.sessions service with
    | some ⟨lease, .failed⟩ => some { contest.setSession service none with lock := contest.lock.release lease }
    | _ => none
  | .crash service => some (contest.setSession service none)

/-! ## Superseded services -/

def lease (contest : Contest ι) (service : ι) : Option Nat := (contest.sessions service).map (·.lease)

theorem lease_update (contest : Contest ι) (service : ι) (session : Option Session) :
    (fun other => (Function.update contest.sessions service session other).map (·.lease)) =
      Function.update contest.lease service (session.map (·.lease)) := by
  funext other
  by_cases same : other = service
  · rw [same, Function.update_self, Function.update_self]
  · rw [Function.update_of_ne same, Function.update_of_ne same]
    rfl

end Contest

/-- A write to `ingestion/recent`, `ingestion/finalized` or `ingestion/pending`. -/
def Write.Replaces : Write → Prop
  | .putRecent _ | .putFinalized _ | .putPending _ => True
  | _ => False

def Write.Publishes : Write → Prop
  | .putRecent _ => True
  | _ => False

namespace Contest

variable {ι : Type}

/-- Once a service published a snapshot, no service that got the lock before it
    writes to the published state. -/
def NotOverwritten (contest : Contest ι) : Prop :=
  contest.log.Pairwise fun earlier later => earlier.2.Publishes → later.1 < earlier.1 → ¬ later.2.Replaces

/-- A lease expires only when the service that got the lock with it is gone. -/
def ExpiresAfter (contest : Contest ι) : ContestStep ι → Prop
  | .expire => ∀ service session, contest.sessions service = some session → contest.lock.holder ≠ some session.lease
  | _ => True

/-- Every service that is going on holds the lock. -/
def Sound (contest : Contest ι) : Prop := Orderly contest.lock contest.lease contest.log

theorem fresh_sound (options : ι → IngestionServiceOptions) (supportsPending : ι → Bool) :
    (fresh options supportsPending).Sound :=
  Orderly.free

theorem Sound.notOverwritten {contest : Contest ι} (sound : contest.Sound) : contest.NotOverwritten :=
  sound.ordered.imp fun ordered _ older => absurd older (not_lt_of_ge ordered)

variable [DecidableEq ι]

theorem lease_setSession {contest : Contest ι} {service session} (going : contest.sessions service = some session)
    (stage : SessionStage) : (contest.setSession service (some ⟨session.lease, stage⟩)).lease = contest.lease := by
  refine (contest.lease_update service _).trans (Function.update_eq_self_iff.mpr ?_)
  rw [lease, going]
  rfl

theorem Sound.updated (contest : Contest ι) (service : ι) (session : Option Session) {lock log}
    (orderly : Orderly lock (Function.update contest.lease service (session.map (·.lease))) log) :
    Sound { contest.setSession service session with lock, log } := by
  unfold Sound
  rw [← contest.lease_update service session] at orderly
  exact orderly

theorem Sound.step {contest after : Contest ι} (sound : contest.Sound) {input} (guard : contest.ExpiresAfter input)
    (stepped : contest.step input = some after) : after.Sound := by
  have stays : ∀ {service : ι} {session : Session} (stage : SessionStage),
      contest.sessions service = some session →
      (contest.setSession service (some ⟨session.lease, stage⟩)).Sound := by
    intro service session stage going
    unfold Sound
    rw [lease_setSession going]
    exact sound
  cases input with
  | acquire service =>
    simp only [Contest.step] at stepped
    split at stepped
    · obtain ⟨lock, acquired, rfl⟩ := Option.map_eq_some_iff.mp stepped
      exact updated contest service (some ⟨contest.lock.granted, .ready none⟩) (Orderly.acquire sound acquired service)
    · cases stepped
  | expire =>
    cases stepped
    refine Orderly.expire sound fun service lease going held => ?_
    obtain ⟨session, isSession, rfl⟩ := Option.map_eq_some_iff.mp going
    exact guard service session isSession held
  | tick =>
    simp only [Contest.step] at stepped
    split at stepped
    case _ lease process going =>
      obtain ⟨stage, -, rfl⟩ := Option.map_eq_some_iff.mp stepped
      exact stays stage going
    · cases stepped
  | write service =>
    simp only [Contest.step] at stepped
    split at stepped
    case _ lease effect rest next going =>
      cases stepped
      have isLease : (contest.setSession service (some ⟨lease, .ticking rest next⟩)).lease service = some lease := by
        rw [lease_setSession going, Contest.lease, going]
        rfl
      exact Orderly.record (stays (.ticking rest next) going) isLease effect
    · cases stepped
  | proceed =>
    simp only [Contest.step] at stepped
    split at stepped
    case _ lease process going =>
      cases stepped
      exact stays _ going
    case _ lease answers going =>
      obtain ⟨stage, -, rfl⟩ := Option.map_eq_some_iff.mp stepped
      exact stays stage going
    · cases stepped
  | unlock service =>
    simp only [Contest.step] at stepped
    split at stepped
    case _ lease going =>
      cases stepped
      have isLease : contest.lease service = some lease := by
        rw [Contest.lease, going]
        rfl
      exact updated contest service none (Orderly.release sound isLease)
    · cases stepped
  | crash service =>
    cases stepped
    exact updated contest service none (Orderly.ended sound service)

theorem notOverwritten_of_expiresAfter {options : ι → IngestionServiceOptions} {supportsPending : ι → Bool}
    {inputs : List (ContestStep ι)} {last : Contest ι}
    (expires : Runs.Meets step ExpiresAfter (fresh options supportsPending) inputs)
    (reached : Runs.run step (fresh options supportsPending) inputs = some last) : last.NotOverwritten := by
  have sound : last.Sound := Runs.run_guarded (fun _ _ _ sound guard stepped => sound.step guard stepped)
    (fresh_sound options supportsPending) expires reached
  exact sound.notOverwritten

end Contest

namespace Superseded

open Lagging (genesis first second)

def tick (service : Bool) (input : Input) (writes : Nat) : List (ContestStep Bool) :=
  .tick service input.event :: List.replicate writes (.write service) ++ [.proceed service]

/-- A service gets the lock and initializes, with this many writes after the reads. -/
def start (service : Bool) (writes : Nat) : List (ContestStep Bool) :=
  .acquire service :: tick service (.startAt genesis) 1 ++ List.replicate writes (.write service) ++ [.proceed service]

/-- The first service stored the snapshot with the first block, but not yet its pointer. -/
def interrupted : List (ContestStep Bool) :=
  start false 3 ++ tick false (.newHead first.cursor) 0 ++ [.tick false (Input.ingested first).event, .write false]

def takeover : List (ContestStep Bool) :=
  start true 0 ++ tick true (.newHead second.cursor) 0 ++ tick true (.ingested first) 2 ++ tick true (.ingested second) 2

/-- The lease expires in the middle of the tick, which ends after the takeover. -/
def inputs : List (ContestStep Bool) := interrupted ++ .expire :: takeover ++ [.write false]

/-- The first service dies before its lease expires. -/
def afterCrash : List (ContestStep Bool) := interrupted ++ .crash false :: .expire :: takeover

def contest : Contest Bool := .fresh (fun _ => Lagging.options) fun _ => true

def checkExpires (contest : Contest Bool) : ContestStep Bool → Bool
  | .expire => [false, true].all fun service =>
    (contest.sessions service).all fun session => contest.lock.holder ≠ some session.lease
  | _ => true

theorem expiresAfter_of_check (contest : Contest Bool) (input : ContestStep Bool)
    (checked : checkExpires contest input = true) : contest.ExpiresAfter input := by
  cases input with
  | expire =>
    intro service session going
    have ended := List.all_eq_true.mp checked service (by cases service <;> decide)
    rw [going] at ended
    exact of_decide_eq_true ended
  | acquire | tick | write | proceed | unlock | crash => trivial

end Superseded

open Superseded

theorem Contest.notOverwritten_fails_superseded : ∃ before last : Contest Bool,
    Runs.run Contest.step contest (Superseded.inputs.dropLast) = some before ∧
      before.world.publishedLast = some Lagging.second.cursor ∧
      Runs.run Contest.step contest Superseded.inputs = some last ∧
      last.world.publishedLast = some Lagging.first.cursor ∧ ¬ last.NotOverwritten := by
  obtain ⟨before, last, published, reached, isSecond, isFirst, newer, older, publishes, replaces⟩ :
      ∃ before last : Contest Bool,
        Runs.run Contest.step contest (Superseded.inputs.dropLast) = some before ∧
        Runs.run Contest.step contest Superseded.inputs = some last ∧
        before.world.publishedLast = some Lagging.second.cursor ∧
        last.world.publishedLast = some Lagging.first.cursor ∧ ∃ newer older,
        last.log[9]? = some (1, .putRecent newer) ∧ last.log[10]? = some (0, .putRecent older) :=
    ⟨_, _, rfl, rfl, rfl, rfl, _, _, rfl, rfl⟩
  refine ⟨before, last, published, isSecond, reached, isFirst, fun kept => ?_⟩
  obtain ⟨inLog, isNewer⟩ := List.getElem?_eq_some_iff.mp publishes
  obtain ⟨alsoInLog, isOlder⟩ := List.getElem?_eq_some_iff.mp replaces
  have apart := List.pairwise_iff_getElem.mp kept 9 10 inLog alsoInLog (by decide)
  rw [isNewer, isOlder] at apart
  exact apart trivial Nat.zero_lt_one trivial

theorem Contest.notOverwritten_afterCrash : ∃ last : Contest Bool,
    Runs.run Contest.step contest afterCrash = some last ∧
      last.world.publishedLast = some Lagging.second.cursor ∧ last.NotOverwritten := by
  obtain ⟨last, reached, published⟩ : ∃ last : Contest Bool,
      Runs.run Contest.step contest afterCrash = some last ∧
        last.world.publishedLast = some Lagging.second.cursor := ⟨_, rfl, rfl⟩
  exact ⟨last, reached, published, notOverwritten_of_expiresAfter (.of_checks expiresAfter_of_check rfl) reached⟩

end Starkstream
