import Starkstream.Core
import Starkstream.Lib.Runs
import Starkstream.Lib.Versioned

/-! # The compaction cursors in etcd

`put_segmented` and `put_grouped` read the stored block and write a higher one
only if the key did not change in between; otherwise they read again.  Any number
of calls run at once, on both keys, between writes to the other keys.  Every
request to etcd may fail, and a transaction may be applied although its answer
is lost.

Each key turns out to be a register that only ever takes the maximum of what it
holds and what is asked for.  Blocks are `u64`, stored as decimal text; a missing
key reads as the bottom element.
-/

namespace Starkstream

open Versioned

structure IngestionStateClientError where
  deriving DecidableEq

/-! ## Decimal text -/

def withoutSign : List Char → List Char
  | '+' :: digits => digits
  | digits => digits

/-- `str::parse::<u64>`: an optional plus sign and at least one decimal digit. -/
def parseU64 (text : String) : Option Nat :=
  let digits := withoutSign text.toList
  if digits = [] ∨ digits.all Char.isDigit = false then none
  else if Nat.ofDigitChars 10 digits 0 < 2 ^ 64 then some (Nat.ofDigitChars 10 digits 0)
  else none

theorem withoutSign_of_digits {chars} (digits : ∀ char ∈ chars, char.isDigit = true) : withoutSign chars = chars := by
  unfold withoutSign
  split
  · have sign := digits '+' List.mem_cons_self
    exact absurd sign (by decide)
  · rfl

theorem parseU64_toString {block} (fits : block < 2 ^ 64) : parseU64 (toString block) = some block := by
  have digits : ∀ char ∈ Nat.toDigits 10 block, char.isDigit = true := fun char =>
    Nat.isDigit_of_mem_toDigits (by decide) (by decide)
  have text : withoutSign (toString block).toList = Nat.toDigits 10 block := by
    rw [Nat.toString_eq_repr, Nat.toList_repr, withoutSign_of_digits digits]
  have accepted : ¬ (Nat.toDigits 10 block = [] ∨ (Nat.toDigits 10 block).all Char.isDigit = false) := by
    simpa [Nat.toDigits_ne_nil] using digits
  simp only [parseU64, text, if_neg accepted, Nat.ofDigitChars_ten_toDigits, if_pos fits]

/-! ## The calls -/

/-- The keys that only move forward. -/
inductive CompactionKey where
  | segmented
  | grouped
  deriving DecidableEq

namespace CompactionKey

def label : CompactionKey → String
  | .segmented => "segmented"
  | .grouped => "grouped"

def name (key : CompactionKey) : String := "ingestion/" ++ key.label

theorem name_injective : Function.Injective name := by
  intro first second
  cases first <;> cases second <;> decide

end CompactionKey

abbrev EtcdStore := Store String String

/-- The block in the answer to a read, bottom for a missing key. -/
def readBlock (key : CompactionKey) : Option String → Outcome IngestionStateClientError (WithBot Nat)
  | none => .ok ⊥
  | some text =>
    match parseU64 text with
    | none => Outcome.fail ⟨⟩ ["failed to parse " ++ key.label ++ " block"]
    | some block => .ok block

variable {value : WithBot Nat}

theorem readBlock_eq_ok_iff {key text} :
    readBlock key (some text) = .ok value ↔ ∃ block, parseU64 text = some block ∧ value = block := by
  cases parsed : parseU64 text with
  | none => simp [readBlock, parsed, Outcome.fail]
  | some => simp [readBlock, parsed, eq_comm]

/-- `get_segmented` and `get_grouped`. -/
def getBlock (store : EtcdStore) (key : CompactionKey) : Outcome IngestionStateClientError (WithBot Nat) :=
  readBlock key (store.value key.name)

/-- A call of `put_if_higher`. -/
structure PutIfHigher where
  key : CompactionKey
  block : Nat
  fits : block < 2 ^ 64

def putSegmented (block : Nat) (fits : block < 2 ^ 64) : PutIfHigher := ⟨.segmented, block, fits⟩

def putGrouped (block : Nat) (fits : block < 2 ^ 64) : PutIfHigher := ⟨.grouped, block, fits⟩

namespace PutIfHigher

/-- Where a call is in its loop. -/
inductive Phase where
  | reading
  | writing (modRevision : Nat)
  | returned (result : Outcome IngestionStateClientError Unit)

variable (call : PutIfHigher)

/-- The turn of the loop from the answer to `get` on. -/
def afterGet : Option (Entry String) → Phase
  | none => .writing 0
  | some kv =>
    match parseU64 kv.value with
    | none => .returned (Outcome.fail ⟨⟩ ["failed to parse block"])
    | some current => if current ≥ call.block then .returned (.ok ()) else .writing kv.modRevision

theorem afterGet_cases {store} (holds : getBlock store call.key = .ok value) :
    call.block ≤ value ∧ call.afterGet (store.entries call.key.name) = .returned (.ok ()) ∨
      value < call.block ∧
        call.afterGet (store.entries call.key.name) = .writing (store.modRevision call.key.name) := by
  unfold getBlock Store.value at holds
  unfold Store.modRevision
  cases search : store.entries call.key.name with
  | none =>
    rw [search] at holds
    cases holds
    exact .inr ⟨WithBot.bot_lt_coe _, rfl⟩
  | some =>
    rw [search] at holds
    obtain ⟨block, parsed, rfl⟩ := readBlock_eq_ok_iff.mp holds
    simp only [afterGet, parsed]
    by_cases high : block ≥ call.block
    · exact .inl ⟨WithBot.coe_le_coe.mpr high, if_pos high⟩
    · exact .inr ⟨WithBot.coe_lt_coe.mpr (Nat.lt_of_not_le high), if_neg high⟩

def getFailed : Phase :=
  .returned (Outcome.fail ⟨⟩
    ["failed to get key from etcd", "key: " ++ call.key.name, "failed to get block", "key: " ++ call.key.name])

/-- The turn of the loop from the answer to `put_if_mod_revision` on. -/
def afterPut (applied : Bool) : Phase := if applied then .returned (.ok ()) else .reading

def putFailed : Phase :=
  .returned (Outcome.fail ⟨⟩
    ["failed to conditionally put key to etcd", "key: " ++ call.key.name, "failed to put block",
      "key: " ++ call.key.name])

def putIfModRevision (store : EtcdStore) (modRevision : Nat) : EtcdStore × Bool :=
  store.putIfModRevision call.key.name (toString call.block) modRevision

end PutIfHigher

/-! ## Concurrent calls -/

open PutIfHigher

variable {ι : Type*} {calls : ι → PutIfHigher} {key : CompactionKey}

/-- etcd and the calls that are running. -/
structure Clients (ι : Type*) where
  store : EtcdStore
  phase : ι → Phase

variable {clients : Clients ι} {client : ι}

namespace Clients

def start (store : EtcdStore) : Clients ι := ⟨store, fun _ => .reading⟩

variable [DecidableEq ι]

def enter (clients : Clients ι) (client : ι) (phase : Phase) : Clients ι :=
  { clients with phase := Function.update clients.phase client phase }

inductive Event (ι : Type*) where
  | get (client : ι)
  | getFails (client : ι)
  | txn (client : ι)
  /-- The transaction is done, its answer does not arrive. -/
  | txnUnanswered (client : ι)
  | txnFails (client : ι)
  /-- Any other client of etcd writes another key. -/
  | elsewhere (key value : String)

/-- Only the call itself and `get`/`txn` of etcd are atomic: everything else interleaves. -/
def step (calls : ι → PutIfHigher) (clients : Clients ι) : Event ι → Option (Clients ι)
  | .get client =>
    match clients.phase client with
    | .reading =>
      some (clients.enter client ((calls client).afterGet (clients.store.entries (calls client).key.name)))
    | _ => none
  | .getFails client =>
    match clients.phase client with
    | .reading => some (clients.enter client (calls client).getFailed)
    | _ => none
  | .txn client =>
    match clients.phase client with
    | .writing modRevision =>
      let (store, applied) := (calls client).putIfModRevision clients.store modRevision
      some ({ clients with store }.enter client (afterPut applied))
    | _ => none
  | .txnUnanswered client =>
    match clients.phase client with
    | .writing modRevision =>
      let (store, _) := (calls client).putIfModRevision clients.store modRevision
      some ({ clients with store }.enter client (calls client).putFailed)
    | _ => none
  | .txnFails client =>
    match clients.phase client with
    | .writing _ => some (clients.enter client (calls client).putFailed)
    | _ => none
  | .elsewhere name value =>
    if name = CompactionKey.segmented.name ∨ name = CompactionKey.grouped.name then none
    else some { clients with store := clients.store.put name value }

/-- The client learned nothing from etcd: it starts again or gives up. -/
def Uninformed : Phase → Prop
  | .reading => True
  | .writing _ => False
  | .returned result => result ≠ .ok ()

/-- What a step can do. -/
inductive Moves (calls : ι → PutIfHigher) (clients : Clients ι) : Clients ι → Prop
  | answered (client : ι) :
      Moves calls clients
        (clients.enter client ((calls client).afterGet (clients.store.entries (calls client).key.name)))
  | uninformed (client : ι) (phase : Phase) (uninformed : Uninformed phase) :
      Moves calls clients (clients.enter client phase)
  | applied (client : ι) (phase : Phase)
      (writing : clients.phase client = .writing (clients.store.modRevision (calls client).key.name))
      (notWriting : ∀ modRevision, phase ≠ .writing modRevision) :
      Moves calls clients
        ({ clients with store := clients.store.put (calls client).key.name (toString (calls client).block) }.enter
          client phase)
  | elsewhere (name value : String) (other : ∀ key : CompactionKey, key.name ≠ name) :
      Moves calls clients { clients with store := clients.store.put name value }

theorem Moves.txn {modRevision} (writing : clients.phase client = .writing modRevision) (after : Bool → Phase)
    (notWriting : ∀ other, after true ≠ .writing other) (uninformed : Uninformed (after false)) :
    Moves calls clients ({ clients with
      store := ((calls client).putIfModRevision clients.store modRevision).1 }.enter client
        (after ((calls client).putIfModRevision clients.store modRevision).2)) := by
  unfold PutIfHigher.putIfModRevision Store.putIfModRevision
  by_cases unchanged : clients.store.modRevision (calls client).key.name = modRevision
  · rw [if_pos unchanged]
    exact .applied client _ (unchanged ▸ writing) notWriting
  · rw [if_neg unchanged]
    exact .uninformed client _ uninformed

theorem step_moves {after event} (stepped : step calls clients event = some after) : Moves calls clients after := by
  have gaveUp : ∀ client, Uninformed (calls client).putFailed := by simp [Uninformed, putFailed, Outcome.fail]
  cases event with
  | get client =>
    simp only [step] at stepped
    split at stepped
    · cases stepped
      exact .answered client
    · cases stepped
  | getFails client =>
    simp only [step] at stepped
    split at stepped
    · cases stepped
      exact .uninformed client _ (by simp [Uninformed, getFailed, Outcome.fail])
    · cases stepped
  | txn =>
    simp only [step] at stepped
    split at stepped
    case _ modRevision writing =>
      cases stepped
      exact .txn writing afterPut (by simp [afterPut]) (by simp [Uninformed, afterPut])
    · cases stepped
  | txnUnanswered client =>
    simp only [step] at stepped
    split at stepped
    case _ modRevision writing =>
      cases stepped
      exact .txn writing (fun _ => (calls client).putFailed) (by simp [putFailed]) (gaveUp client)
    · cases stepped
  | txnFails client =>
    simp only [step] at stepped
    split at stepped
    · cases stepped
      exact .uninformed client _ (gaveUp client)
    · cases stepped
  | elsewhere name value =>
    simp only [step] at stepped
    split at stepped
    · cases stepped
    case _ other =>
      cases stepped
      obtain ⟨notSegmented, notGrouped⟩ := not_or.mp other
      refine .elsewhere name value fun key => ?_
      cases key with
      | segmented => exact Ne.symm notSegmented
      | grouped => exact Ne.symm notGrouped

end Clients

/-! ## The register -/

def PutIfHigher.Below (call : PutIfHigher) (text : Option String) : Prop :=
  ∀ current, readBlock call.key text = .ok current → current < call.block

/-- What a call relies on while the register holds `value`. -/
def PutIfHigher.Sound (call : PutIfHigher) (store : EtcdStore) (value : WithBot Nat) : Phase → Prop
  | .reading => True
  | .writing modRevision =>
    Snapshot store call.key.name modRevision call.Below
  | .returned result => result = .ok () → (call.block : WithBot Nat) ≤ value

namespace PutIfHigher.Sound

variable {call : PutIfHigher} {store : EtcdStore} {phase : Phase}

theorem of_uninformed (uninformed : Clients.Uninformed phase) : call.Sound store value phase := by
  cases phase with
  | reading => trivial
  | writing => exact uninformed.elim
  | returned => exact fun finished => absurd finished uninformed

theorem afterGet (holds : getBlock store call.key = .ok value) :
    call.Sound store value (call.afterGet (store.entries call.key.name)) := by
  rcases call.afterGet_cases holds with ⟨high, finished⟩ | ⟨low, writing⟩
  · rw [finished]
    exact fun _ => high
  · rw [writing]
    refine Snapshot.taken rfl fun current read => ?_
    cases holds.symm.trans read
    exact low

theorem put {raised} (sound : call.Sound store value phase) (higher : value ≤ raised) (name text : String) :
    call.Sound (store.put name text) raised phase := by
  cases phase with
  | reading => trivial
  | writing => exact Snapshot.put sound name text
  | returned => exact fun finished => (sound finished).trans higher

end PutIfHigher.Sound

/-- The key holds `value`, and every call on it relies on something true. -/
structure Register (calls : ι → PutIfHigher) (key : CompactionKey) (initial : WithBot Nat) (clients : Clients ι)
    (value : WithBot Nat) : Prop where
  holds : getBlock clients.store key = .ok value
  origin : value = initial ∨ ∃ client, (calls client).key = key ∧ value = (calls client).block
  sound : ∀ client, (calls client).key = key → (calls client).Sound clients.store value (clients.phase client)

namespace Register

open Clients

variable {initial : WithBot Nat} {after : Clients ι}

/-- The register holds at least `lower`. -/
def Raised (calls : ι → PutIfHigher) (key : CompactionKey) (initial lower : WithBot Nat) (clients : Clients ι) : Prop :=
  ∃ value, lower ≤ value ∧ Register calls key initial clients value

theorem started {store} (holds : getBlock store key = .ok value) : Register calls key value (.start store) value :=
  ⟨holds, .inl rfl, fun _ _ => trivial⟩

section
variable (register : Register calls key initial clients value)
include register

theorem putElsewhere {name} (other : key.name ≠ name) (text : String) :
    Register calls key initial { clients with store := clients.store.put name text } value := by
  refine ⟨?_, register.origin, fun client same => (register.sound client same).put le_rfl name text⟩
  unfold getBlock
  rw [clients.store.value_put_of_ne text other]
  exact register.holds

/-- A transaction that is applied finds the value below its block, so it raises
    the register to its block. -/
theorem applied (same : (calls client).key = key)
    (writing : clients.phase client = .writing (clients.store.modRevision (calls client).key.name)) :
    value ≤ (calls client).block ∧
      Register calls key initial
        { clients with store := clients.store.put (calls client).key.name (toString (calls client).block) }
        (calls client).block := by
  have relied := register.sound client same
  rw [writing] at relied
  have below : value < (calls client).block := by
    refine relied.valid rfl value ?_
    rw [same]
    exact register.holds
  refine ⟨below.le, ?_, .inr ⟨client, same, rfl⟩, fun other otherSame => ?_⟩
  · unfold getBlock
    rw [same, Store.value_put_self]
    exact readBlock_eq_ok_iff.mpr ⟨_, parseU64_toString (calls client).fits, rfl⟩
  · exact (register.sound other otherSame).put below.le _ _

theorem block_le (same : (calls client).key = key) (finished : clients.phase client = .returned (.ok ())) :
    (calls client).block ≤ value := by
  have sound := register.sound client same
  rw [finished] at sound
  exact sound rfl

end

variable [DecidableEq ι]

theorem enter (register : Register calls key initial clients value) {phase}
    (entered : (calls client).key = key → (calls client).Sound clients.store value phase) :
    Register calls key initial (clients.enter client phase) value := by
  refine ⟨register.holds, register.origin, fun other same => ?_⟩
  by_cases here : other = client
  · subst here
    simpa only [Clients.enter, Function.update_self] using entered same
  · simpa only [Clients.enter, Function.update_of_ne here] using register.sound other same

theorem step (register : Register calls key initial clients value) {event}
    (stepped : Clients.step calls clients event = some after) : Raised calls key initial value after := by
  cases step_moves stepped with
  | answered =>
    refine ⟨value, le_rfl, register.enter fun same => .afterGet ?_⟩
    rw [same]
    exact register.holds
  | uninformed client phase uninformed => exact ⟨value, le_rfl, register.enter fun _ => .of_uninformed uninformed⟩
  | applied client phase writing notWriting =>
    by_cases same : (calls client).key = key
    · obtain ⟨higher, raised⟩ := register.applied same writing
      refine ⟨(calls client).block, higher, raised.enter fun _ => ?_⟩
      cases phase with
      | reading => trivial
      | writing modRevision => exact absurd rfl (notWriting modRevision)
      | returned => exact fun _ => le_rfl
    · have other : key.name ≠ (calls client).key.name := fun named => same (CompactionKey.name_injective named).symm
      exact ⟨value, le_rfl, (register.putElsewhere other _).enter fun here => absurd here same⟩
  | elsewhere name text other => exact ⟨value, le_rfl, register.putElsewhere (other key) text⟩

theorem Raised.step {lower} (raised : Raised calls key initial lower clients) {event}
    (stepped : Clients.step calls clients event = some after) : Raised calls key initial lower after := by
  obtain ⟨_, higher, register⟩ := raised
  obtain ⟨last, further, kept⟩ := register.step stepped
  exact ⟨last, higher.trans further, kept⟩

theorem run (register : Register calls key initial clients value) {events}
    (reached : Runs.run (Clients.step calls) clients events = some after) : Raised calls key initial value after :=
  Runs.run_invariant (fun _ _ _ _ raised stepped => raised.step stepped) ⟨value, le_rfl, register⟩ reached

end Register

variable [DecidableEq ι]

/-- `put_if_higher` is a maximum register under any interleaving of any calls. -/
theorem putIfHigher_maxRegister {store : EtcdStore} {initial : WithBot Nat} {before after : List (Clients.Event ι)}
    {middle last : Clients ι} (stored : getBlock store key = .ok initial)
    (earlier : Runs.run (Clients.step calls) (.start store) before = some middle)
    (later : Runs.run (Clients.step calls) middle after = some last) :
    ∃ value final, getBlock middle.store key = .ok value ∧ getBlock last.store key = .ok final ∧
      initial ≤ value ∧ value ≤ final ∧
      (value = initial ∨ ∃ client, (calls client).key = key ∧ value = (calls client).block) ∧
      (∀ client, (calls client).key = key → middle.phase client = .returned (.ok ()) →
        (calls client).block ≤ value ∧ (calls client).block ≤ final) ∧
      ((∀ client, (calls client).key = key → middle.phase client = .returned (.ok ())) →
        IsGreatest (insert initial {block : WithBot Nat | ∃ client, (calls client).key = key ∧ block = (calls client).block})
          value) := by
  obtain ⟨value, above, register⟩ := (Register.started stored).run earlier
  obtain ⟨final, higher, kept⟩ := register.run later
  refine ⟨value, final, register.holds, kept.holds, above, higher, register.origin, ?_, ?_⟩
  · intro client same finished
    have reached := register.block_le same finished
    exact ⟨reached, reached.trans higher⟩
  · intro finished
    refine ⟨register.origin, ?_⟩
    rintro block (rfl | ⟨client, same, rfl⟩)
    · exact above
    · exact register.block_le same (finished client same)

namespace PutIfHigher.ThreeClients

/-- Two clients segment at once and a third one groups. -/
def requests : Fin 3 → PutIfHigher :=
  ![putSegmented 199 (by decide), putSegmented 99 (by decide), putGrouped 50 (by decide)]

/-- The keys are missing.  The lower of the two blocks is written first, so the
    other call has to read again. -/
def schedule : List (Clients.Event (Fin 3)) :=
  [.get 0, .get 1, .txn 1, .elsewhere "ingestion/finalized" "7", .txn 0, .get 2, .get 0, .txnUnanswered 2, .txn 0]

def final : Option (Clients (Fin 3)) := Runs.run (Clients.step requests) (.start Store.empty) schedule

theorem highest_stored : ∃ last value, final = some last ∧ getBlock last.store .segmented = .ok value ∧
    IsGreatest (insert ⊥ {block : WithBot Nat | ∃ client, (requests client).key = .segmented ∧
      block = (requests client).block}) value := by
  have runs : final.isSome := rfl
  have finished : ∀ client, (requests client).key = .segmented →
      (final.get runs).phase client = .returned (.ok ()) := by
    intro client
    fin_cases client
    · exact fun _ => rfl
    · exact fun _ => rfl
    · exact fun grouped => nomatch grouped
  obtain ⟨value, -, stored, -, -, -, -, -, greatest⟩ :=
    putIfHigher_maxRegister rfl (Option.some_get runs).symm (Runs.run_nil _)
  exact ⟨final.get runs, value, (Option.some_get runs).symm, stored, greatest finished⟩

end PutIfHigher.ThreeClients

end Starkstream
