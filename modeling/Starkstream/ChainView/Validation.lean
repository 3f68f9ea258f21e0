import Starkstream.Chain.Representation
import Starkstream.ChainView.Segmentation
import Starkstream.CursorEquivalence

/-! # The starting cursor of a client

A client sends a cursor to start from.  It has to lie between the starting block and
the head, and it is replaced by a block of the chain with the same number: the
canonical one, or a sibling that was reorged.  Hashes are compared as numbers here,
and an empty hash stands for any block.  The stream looks its cursor up as it is, so
it depends on this that the cursor it is given is exactly one of the chain.
-/

namespace Starkstream

open CanonicalChainBuilder
open IngestionService

/-- What a call of the server fails with. -/
inductive Status where
  | outOfRange (message : String)
  | invalidArgument (message : String)
  | internal (message : String)
  deriving DecidableEq

variable {chain : FullCanonicalChain}

namespace FullCanonicalChain

def ensureCursorInRange (chain : FullCanonicalChain) (cursor : Cursor) : Outcome Status Unit :=
  match chain.getCanonical cursor.number with
  | .error .panic => .error .panic
  | .error (.error _) => Outcome.fail (.internal "internal server error") []
  | .ok (.afterAvailable last) =>
    Outcome.fail (.outOfRange ("cursor " ++ toString cursor.number ++ " is after the last ingested block " ++
      toString last.number)) []
  | .ok (.beforeAvailable first) =>
    Outcome.fail (.invalidArgument ("cursor " ++ toString cursor.number ++
      " is before the first ingested block " ++ toString first.number)) []
  | .ok (.canonical _) => .ok ()

theorem range_of_ensureCursorInRange {cursor} (inRange : chain.ensureCursorInRange cursor = .ok ()) :
    chain.startingBlock ≤ cursor.number ∧ cursor.number ≤ chain.recent.info.lastBlock.number := by
  rw [ensureCursorInRange, getCanonical] at inRange
  by_cases after : cursor.number > chain.recent.info.lastBlock.number
  · rw [if_pos after] at inRange
    cases inRange
  · rw [if_neg after] at inRange
    refine ⟨?_, not_lt.mp after⟩
    by_contra before
    rw [if_pos (not_le.mp before)] at inRange
    cases first : chain.getCanonicalImpl chain.startingBlock with
    | ok =>
      rw [first] at inRange
      cases inRange
    | error fault =>
      rw [first] at inRange
      cases fault <;> cases inRange

end FullCanonicalChain

theorem Hash.isEmpty_of_nonzero {hash : Hash} (nonzero : hash.isZero = false) : hash.isEmpty = false := by
  cases empty : hash.isEmpty with
  | false => rfl
  | true =>
    rw [isZero, List.isEmpty_iff.mp empty] at nonzero
    cases nonzero

/-- No hash that is stored with the block is zero: neither its own nor a reorged one. -/
structure CanonicalBlock.Hashed (block : CanonicalBlock) : Prop where
  own : block.hash.isZero = false
  reorged : ∀ (hash : Hash) (target : Cursor), block.reorgs[hash]? = some target → hash.isZero = false

namespace CanonicalChainSegment

/-- The segment has a block for each number of its range. -/
structure Complete (segment : CanonicalChainSegment) : Prop where
  range : segment.info.firstBlock.number + segment.canonical.length = segment.info.lastBlock.number + 1
  hashed : ∀ block ∈ segment.canonical, block.Hashed

variable {segment : CanonicalChainSegment}

theorem Complete.blockAt (complete : segment.Complete) {number} (covers : segment.covers number = true) :
    ∃ block, segment.blockAt number = .ok block ∧ block.Hashed := by
  obtain ⟨_, _⟩ := (segment.covers_iff number).mp covers
  have range := complete.range
  have inside : number - segment.info.firstBlock.number < segment.canonical.length := by omega
  refine ⟨segment.canonical[number - segment.info.firstBlock.number], ?_, complete.hashed _ (List.getElem_mem inside)⟩
  rw [CanonicalChainSegment.blockAt, List.getElem?_eq_getElem inside]

section Covered

variable {block : CanonicalBlock} {cursor : Cursor} (covers : segment.covers cursor.number = true)
  (found : segment.blockAt cursor.number = .ok block)
include covers found

theorem canonicalAt_covered : segment.canonicalAt cursor.number = .ok ⟨cursor.number, block.hash⟩ := by
  obtain ⟨lower, upper⟩ := (segment.covers_iff _).mp covers
  rw [canonicalAt, if_neg (not_lt.mpr lower), if_neg (not_lt.mpr upper), found]
  rfl

theorem siblings_covered :
    segment.siblings cursor = .ok (block.reorgs.keys.map fun hash => ⟨cursor.number, hash⟩) := by
  obtain ⟨lower, upper⟩ := (segment.covers_iff _).mp covers
  rw [siblings, if_neg (not_lt.mpr lower), if_neg (not_lt.mpr upper), found]
  rfl

theorem reconnect_canonical (same : block.hash = cursor.hash) : segment.reconnect cursor = .ok .continue := by
  obtain ⟨lower, upper⟩ := (segment.covers_iff _).mp covers
  rw [reconnect, if_neg (not_lt.mpr lower), if_neg (not_lt.mpr upper), found]
  simp only [bind, Except.bind, same, beq_self_eq_true, Bool.true_or, if_true]
  rfl

theorem reconnect_reorged (different : block.hash ≠ cursor.hash) (nonzero : cursor.hash.isZero = false) {target}
    (recorded : block.reorgs[cursor.hash]? = some target) : segment.reconnect cursor = .ok (.offlineReorg target) := by
  obtain ⟨lower, upper⟩ := (segment.covers_iff _).mp covers
  rw [reconnect, if_neg (not_lt.mpr lower), if_neg (not_lt.mpr upper), found]
  simp only [bind, Except.bind, beq_false_of_ne different, nonzero, Bool.or_self, Bool.false_eq_true, if_false, recorded]
  rfl

end Covered

theorem reconnect_of_canonicalAt {cursor : Cursor} (canonical : segment.canonicalAt cursor.number = .ok cursor) :
    segment.reconnect cursor = .ok .continue := by
  unfold canonicalAt at canonical
  split_ifs at canonical with before after
  · cases canonical
  · cases canonical
  · obtain ⟨_, found, same⟩ := bind_eq_ok.mp canonical
    have covers : segment.covers cursor.number = true :=
      (segment.covers_iff _).mpr ⟨not_lt.mp before, not_lt.mp after⟩
    exact reconnect_canonical covers found (congrArg Cursor.hash (Except.ok.inj same))

end CanonicalChainSegment

namespace FullCanonicalChain

/-- From the starting block to the head every block is found. -/
def Complete (chain : FullCanonicalChain) : Prop :=
  ∀ number, chain.startingBlock ≤ number → number ≤ chain.recent.info.lastBlock.number →
    ∃ segment, chain.getChainSegment number = .ok segment ∧ segment.Complete ∧ segment.covers number = true

def Canonical (chain : FullCanonicalChain) (cursor : Cursor) : Prop := chain.getCanonicalImpl cursor.number = .ok cursor

/-- The cursor is recorded as a block that was reorged. -/
def Reorged (chain : FullCanonicalChain) (cursor : Cursor) : Prop :=
  ∃ segment block target, chain.getChainSegment cursor.number = .ok segment ∧
    segment.blockAt cursor.number = .ok block ∧ block.reorgs[cursor.hash]? = some target

/-- What the stream does next at the cursor: it goes on from a canonical block, and it is
    sent back from a block that was reorged. -/
structure Streamable (chain : FullCanonicalChain) (cursor : Cursor) (next : NextCursor) : Prop where
  continues : (next = .atHead ∨ ∃ following isHead, next = .continue following isHead) ↔ chain.Canonical cursor
  invalidates : (∃ target, next = .invalidate target) ↔ ¬chain.Canonical cursor

variable {cursor : Cursor}

/-- From a canonical block below the head the stream goes on to the next canonical block. -/
theorem Canonical.getNextCursor {next} (canonical : chain.Canonical cursor) (follows : chain.Canonical next)
    (isNext : next.number = cursor.number + 1) (below : cursor.number ≠ chain.recent.info.lastBlock.number) :
    chain.getNextCursor (some cursor) = .ok (.continue next (next.number = chain.recent.info.lastBlock.number)) := by
  obtain ⟨_, found, inSegment⟩ := bind_eq_ok.mp canonical
  have reconnected := CanonicalChainSegment.reconnect_of_canonicalAt (Outcome.changeContext_eq_ok.mp inSegment)
  rw [Canonical, isNext] at follows
  simp only [FullCanonicalChain.getNextCursor, found, bind, Except.bind, Outcome.changeContext, reconnected,
    if_neg below, follows]
  rfl

/-- The segment and the block that are looked at for a number. -/
structure Finds (chain : FullCanonicalChain) (number : Nat) (segment : CanonicalChainSegment) (block : CanonicalBlock) :
    Prop where
  isSegment : chain.getChainSegment number = .ok segment
  covers : segment.covers number = true
  isBlock : segment.blockAt number = .ok block
  hashed : block.Hashed

theorem Complete.finds (complete : chain.Complete) {number} (lower : chain.startingBlock ≤ number)
    (upper : number ≤ chain.recent.info.lastBlock.number) : ∃ segment block, chain.Finds number segment block := by
  obtain ⟨segment, isSegment, whole, covers⟩ := complete number lower upper
  obtain ⟨block, isBlock, hashed⟩ := whole.blockAt covers
  exact ⟨segment, block, isSegment, covers, isBlock, hashed⟩

namespace Finds

variable {cursor : Cursor} {segment : CanonicalChainSegment} {block : CanonicalBlock}

variable (finds : chain.Finds cursor.number segment block)
include finds

theorem getCanonicalImpl : chain.getCanonicalImpl cursor.number = .ok ⟨cursor.number, block.hash⟩ := by
  rw [FullCanonicalChain.getCanonicalImpl, finds.isSegment]
  exact congrArg (Outcome.changeContext _ _) (CanonicalChainSegment.canonicalAt_covered finds.covers finds.isBlock)

theorem canonical_iff : chain.Canonical cursor ↔ block.hash = cursor.hash := by
  rw [Canonical, finds.getCanonicalImpl, Except.ok.injEq, Cursor.ext_iff, and_iff_right rfl]

theorem reorged_iff : chain.Reorged cursor ↔ ∃ target, block.reorgs[cursor.hash]? = some target := by
  constructor
  · rintro ⟨_, _, target, isFound, isBlock, recorded⟩
    cases finds.isSegment.symm.trans isFound
    cases finds.isBlock.symm.trans isBlock
    exact ⟨target, recorded⟩
  · rintro ⟨target, recorded⟩
    exact ⟨segment, block, target, finds.isSegment, finds.isBlock, recorded⟩

/-- The answers of `validate_cursor`, by the block that the cursor stands for. -/
theorem validateCursor_cases :
    (cursor.Represents ⟨cursor.number, block.hash⟩ ∧
      chain.validateCursor cursor = .ok (.valid ⟨cursor.number, block.hash⟩)) ∨
    ¬cursor.Represents ⟨cursor.number, block.hash⟩ ∧
      ((∃ hash target, block.reorgs[hash]? = some target ∧ cursor.Represents ⟨cursor.number, hash⟩ ∧
          chain.validateCursor cursor = .ok (.valid ⟨cursor.number, hash⟩)) ∨
        (∀ (hash : Hash) (target : Cursor), block.reorgs[hash]? = some target → ¬cursor.Represents ⟨cursor.number, hash⟩) ∧
          ∃ siblings, chain.validateCursor cursor = .ok (.invalid ⟨cursor.number, block.hash⟩ siblings)) := by
  have own : (⟨cursor.number, block.hash⟩ : Cursor).isEquivalent cursor = true ↔
      cursor.Represents ⟨cursor.number, block.hash⟩ :=
    Cursor.isEquivalent_iff (Hash.isEmpty_of_nonzero finds.hashed.own)
  have other : ∀ {hash : Hash} {target : Cursor}, block.reorgs[hash]? = some target →
      ((⟨cursor.number, hash⟩ : Cursor).isEquivalent cursor = true ↔ cursor.Represents ⟨cursor.number, hash⟩) :=
    fun recorded => Cursor.isEquivalent_iff (Hash.isEmpty_of_nonzero (finds.hashed.reorged _ _ recorded))
  simp only [FullCanonicalChain.validateCursor, finds.isSegment, bind, Except.bind, Outcome.changeContext,
    CanonicalChainSegment.canonicalAt_covered finds.covers finds.isBlock,
    CanonicalChainSegment.siblings_covered finds.covers finds.isBlock]
  by_cases same : (⟨cursor.number, block.hash⟩ : Cursor).isEquivalent cursor = true
  · exact .inl ⟨own.mp same, if_pos same⟩
  · refine .inr ⟨fun represents => same (own.mpr represents), ?_⟩
    rw [if_neg same]
    cases search : (block.reorgs.keys.map fun hash => (⟨cursor.number, hash⟩ : Cursor)).find? (·.isEquivalent cursor) with
    | some =>
      obtain ⟨hash, listed, rfl⟩ := List.mem_map.mp (List.mem_of_find?_eq_some search)
      obtain ⟨target, recorded⟩ := Option.isSome_iff_exists.mp
        (Std.ExtTreeMap.mem_iff_isSome_getElem?.mp (Std.ExtTreeMap.mem_keys.mp listed))
      have equivalent : (⟨cursor.number, hash⟩ : Cursor).isEquivalent cursor = true := by
        simpa using List.find?_some search
      exact .inl ⟨hash, target, recorded, (other recorded).mp equivalent, rfl⟩
    | none =>
      refine .inr ⟨fun hash target recorded represents => ?_, _, rfl⟩
      have listed : hash ∈ block.reorgs.keys := Std.ExtTreeMap.mem_keys.mpr
        (Std.ExtTreeMap.mem_iff_isSome_getElem?.mpr (by rw [recorded]; rfl))
      exact List.find?_eq_none.mp search _ (List.mem_map.mpr ⟨hash, listed, rfl⟩) ((other recorded).mpr represents)

theorem streamable_canonical (complete : chain.Complete) (lower : chain.startingBlock ≤ cursor.number)
    (upper : cursor.number ≤ chain.recent.info.lastBlock.number) (same : block.hash = cursor.hash) :
    ∃ next, chain.getNextCursor (some cursor) = .ok next ∧ chain.Streamable cursor next := by
  have canonical := finds.canonical_iff.mpr same
  have reconnected := CanonicalChainSegment.reconnect_canonical finds.covers finds.isBlock same
  simp only [FullCanonicalChain.getNextCursor, finds.isSegment, bind, Except.bind, Outcome.changeContext, reconnected]
  by_cases atHead : cursor.number = chain.recent.info.lastBlock.number
  · rw [if_pos atHead]
    exact ⟨_, rfl, iff_of_true (.inl rfl) canonical, iff_of_false (by simp) (not_not.mpr canonical)⟩
  · rw [if_neg atHead]
    obtain ⟨_, nextBlock, following⟩ := complete.finds (lower.trans (Nat.le_succ _)) (by omega)
    have isNext : chain.getCanonicalImpl (cursor.number + 1) = .ok ⟨cursor.number + 1, nextBlock.hash⟩ :=
      @Finds.getCanonicalImpl chain ⟨cursor.number + 1, nextBlock.hash⟩ _ _ following
    rw [isNext]
    exact ⟨_, rfl, iff_of_true (.inr ⟨_, _, rfl⟩) canonical, iff_of_false (by simp) (not_not.mpr canonical)⟩

theorem streamable_reorged (different : block.hash ≠ cursor.hash) {target}
    (recorded : block.reorgs[cursor.hash]? = some target) :
    ∃ next, chain.getNextCursor (some cursor) = .ok next ∧ chain.Streamable cursor next := by
  have foreign : ¬chain.Canonical cursor := fun canonical => different (finds.canonical_iff.mp canonical)
  have nonzero := finds.hashed.reorged _ _ recorded
  have reconnected := CanonicalChainSegment.reconnect_reorged finds.covers finds.isBlock different nonzero recorded
  simp only [FullCanonicalChain.getNextCursor, finds.isSegment, bind, Except.bind, Outcome.changeContext, reconnected]
  exact ⟨_, rfl, iff_of_false (by simp) foreign, iff_of_true ⟨_, rfl⟩ foreign⟩

end Finds

/-- What a client can rely on when it sends the cursor. -/
structure Validates (chain : FullCanonicalChain) (cursor : Cursor) : Prop where
  valid : ∀ normalized, chain.validateCursor cursor = .ok (.valid normalized) →
    normalized.number = cursor.number ∧ (chain.Canonical normalized ∨ chain.Reorged normalized) ∧
      (cursor.hash.isEmpty = false →
        BigEndian.ofBytes normalized.hash.bytes = BigEndian.ofBytes cursor.hash.bytes) ∧
      ∃ next, chain.getNextCursor (some normalized) = .ok next ∧ chain.Streamable normalized next
  invalid : (∃ canonical siblings, chain.validateCursor cursor = .ok (.invalid canonical siblings)) ↔
    ∀ block, chain.Canonical block ∨ chain.Reorged block → ¬cursor.Represents block

/-- Only blocks with the number of the cursor are represented by it. -/
theorem Finds.represented {segment block} (finds : chain.Finds cursor.number segment block) {known}
    (onChain : chain.Canonical known ∨ chain.Reorged known) (represents : cursor.Represents known) :
    cursor.Represents ⟨cursor.number, block.hash⟩ ∨
      ∃ hash target, block.reorgs[hash]? = some target ∧ cursor.Represents ⟨cursor.number, hash⟩ := by
  have sameNumber := represents.1
  obtain ⟨number, hash⟩ := known
  obtain rfl : cursor.number = number := sameNumber
  have here : chain.Finds (⟨cursor.number, hash⟩ : Cursor).number segment block := finds
  rcases onChain with canonical | reorged
  · refine .inl ?_
    rw [here.canonical_iff.mp canonical]
    exact represents
  · obtain ⟨target, recorded⟩ := here.reorged_iff.mp reorged
    exact .inr ⟨hash, target, recorded, represents⟩

theorem Validates.of_valid {hash} (answer : chain.validateCursor cursor = .ok (.valid ⟨cursor.number, hash⟩))
    (represents : cursor.Represents ⟨cursor.number, hash⟩)
    (onChain : chain.Canonical ⟨cursor.number, hash⟩ ∨ chain.Reorged ⟨cursor.number, hash⟩)
    (streamable : ∃ next, chain.getNextCursor (some ⟨cursor.number, hash⟩) = .ok next ∧
      chain.Streamable ⟨cursor.number, hash⟩ next) : chain.Validates cursor where
  valid normalized isValid := by
    cases answer.symm.trans isValid
    refine ⟨rfl, onChain, fun hashed => ?_, streamable⟩
    rcases represents.2 with empty | same
    · rw [empty] at hashed
      cases hashed
    · exact same.symm
  invalid := by
    refine iff_of_false ?_ fun none => none _ onChain represents
    intro ⟨canonical, siblings, isInvalid⟩
    cases answer.symm.trans isInvalid

theorem Complete.validates (complete : chain.Complete) (inRange : chain.ensureCursorInRange cursor = .ok ()) :
    chain.Validates cursor := by
  obtain ⟨lower, upper⟩ := range_of_ensureCursorInRange inRange
  obtain ⟨segment, block, finds⟩ := complete.finds lower upper
  have at_ : ∀ hash, chain.Finds (⟨cursor.number, hash⟩ : Cursor).number segment block := fun _ => finds
  rcases finds.validateCursor_cases with ⟨represents, answer⟩ |
    ⟨foreign, ⟨hash, target, recorded, represents, answer⟩ | ⟨none, siblings, answer⟩⟩
  · exact .of_valid answer represents (.inl ((at_ _).canonical_iff.mpr rfl))
      ((at_ _).streamable_canonical complete lower upper rfl)
  · refine .of_valid answer represents (.inr ((at_ _).reorged_iff.mpr ⟨target, recorded⟩)) ?_
    refine (at_ _).streamable_reorged (fun same => ?_) recorded
    exact foreign (same ▸ represents)
  · refine ⟨fun normalized isValid => ?_, iff_of_true ⟨_, _, answer⟩ fun known onChain represents => ?_⟩
    · cases answer.symm.trans isValid
    · rcases finds.represented onChain represents with own | ⟨hash, target, recorded, other⟩
      · exact foreign own
      · exact none hash target recorded other

end FullCanonicalChain

/-! ## Chains that the builder makes -/

/-- The builder, and the segments that were taken off it, oldest first. -/
structure BuilderArchive where
  builder : CanonicalChainBuilder
  archived : List CanonicalChainSegment

/-- Segments have the size that readers count with. -/
def BuilderCall.Sized (size : Nat) : BuilderCall → Prop
  | .op (.takeSegment taken) => taken = size
  | _ => True

namespace BuilderArchive

/-- The first block is added when ingestion starts. -/
def start (first : BlockInfo) : BuilderArchive := ⟨.building (.single first), []⟩

def handedOut (builder : CanonicalChainBuilder) : BuilderCall → List CanonicalChainSegment
  | .op (.takeSegment size) =>
    match builder.takeSegment size with
    | (.ok segment, _) => [segment]
    | _ => []
  | _ => []

/-- `none` when the call panics. -/
def step (archive : BuilderArchive) (call : BuilderCall) : Option BuilderArchive :=
  (archive.builder.call call).2.map fun after => ⟨after, archive.archived ++ handedOut archive.builder call⟩

end BuilderArchive

namespace Building

/-- The hashes in the record are those of blocks that were on the chain. -/
def RecordHashed (state : Building) : Prop :=
  ∀ cursor target, state.targetOf cursor = some target → cursor.hash.isZero = false

variable {state : Building}

theorem Clean.hashAt_nonzero (clean : state.Clean) {number hash} (found : state.hashAt number = some hash) :
    hash.isZero = false :=
  clean.nonzero hash (Numbered.get_mem found)

section
variable (recordHashed : state.RecordHashed)
include recordHashed

theorem RecordHashed.shrunk (clean : state.Clean) {newHead : Cursor}
    (canonical : state.hashAt newHead.number = some newHead.hash) : (state.shrunk newHead).RecordHashed := by
  intro cursor target found
  rw [shrunk_targetOf newHead cursor (clean.hashAt_range canonical).1] at found
  split at found
  next removed => exact clean.hashAt_nonzero removed.2
  next => exact recordHashed cursor target found

theorem RecordHashed.of_get {after : Building}
    (kept : ∀ number map, after.reorgs[number]? = some map → map = state.reorgs.getD number ∅) :
    after.RecordHashed := by
  intro cursor target found
  obtain ⟨_, isMap, isTarget⟩ := Option.bind_eq_some_iff.mp found
  rw [kept _ _ isMap, Std.ExtTreeMap.getD_eq_getD_getElem?] at isTarget
  cases known : state.reorgs[cursor.number]? with
  | none => simp [known] at isTarget
  | some old =>
    rw [known] at isTarget
    exact recordHashed cursor target (Option.bind_eq_some_iff.mpr ⟨old, known, isTarget⟩)

theorem RecordHashed.restored : state.restored.RecordHashed := by
  apply recordHashed.of_get
  intro number map found
  have read : state.restoredReorgs[number]? = some map := found
  rw [restoredReorgs_get, Option.ite_none_right_eq_some] at read
  exact (Option.some.inj read.2).symm

theorem RecordHashed.remaining (clean : state.Clean) {size} (inside : size ≤ state.canonical.length)
    (lastHash nextHash : Hash) : (state.remaining size lastHash nextHash).RecordHashed := by
  apply recordHashed.of_get
  intro number map found
  rw [remaining_reorgs clean.keys inside, Option.ite_none_right_eq_some] at found
  rw [Std.ExtTreeMap.getD_eq_getD_getElem?, found.2]
  rfl

end

variable (clean : state.Clean) (recordHashed : state.RecordHashed)
include clean recordHashed

theorem hashed_segmentBlocks {first hashes} (included : hashes ⊆ state.canonical) {block}
    (member : block ∈ segmentBlocks first hashes state.reorgs) : block.Hashed := by
  obtain ⟨i, found⟩ := List.getElem?_of_mem member
  rw [segmentBlocks_get] at found
  obtain ⟨hash, isHash, rfl⟩ := Option.map_eq_some_iff.mp found
  refine ⟨clean.nonzero hash (included (List.mem_of_getElem? isHash)), fun reorged target recorded => ?_⟩
  rw [Std.ExtTreeMap.getD_eq_getD_getElem?] at recorded
  cases known : state.reorgs[first + i]? with
  | none => simp [known] at recorded
  | some map =>
    rw [known] at recorded
    exact recordHashed ⟨first + i, reorged⟩ target (Option.bind_eq_some_iff.mpr ⟨map, known, recorded⟩)

theorem Clean.complete_snapshot : state.snapshot.Complete where
  range := by
    rw [snapshot_info, snapshot, segmentBlocks_length]
    exact clean.range
  hashed _ member := hashed_segmentBlocks clean recordHashed (List.Subset.refl _) member

theorem Clean.complete_takenSegment {size} (positive : 0 < size) (inside : size < state.canonical.length)
    (lastHash : Hash) : (state.takenSegment size lastHash).Complete where
  range := by
    simp only [takenSegment, segmentBlocks_length, List.length_take]
    omega
  hashed _ member := hashed_segmentBlocks clean recordHashed (List.take_subset _ _) member

end Building

namespace BuilderArchive

/-- What the calls keep. -/
structure Kept (options : IngestionServiceOptions) (archive : BuilderArchive) (state : Building) : Prop where
  builder : archive.builder = .building state
  clean : state.Clean
  recordHashed : state.RecordHashed
  aligned : Aligned options archive.archived
  follows : state.info.firstBlock.number = startingBlock options + archive.archived.length * options.chainSegmentSize
  complete : ∀ segment ∈ archive.archived, segment.Complete

variable {options : IngestionServiceOptions} {archive next : BuilderArchive} {state : Building}

theorem kept_start {first : BlockInfo} (starts : first.number = startingBlock options)
    (hashed : first.hash.isZero = false) : Kept options (start first) (.single first) where
  builder := rfl
  clean := ⟨Building.single_wellFormed first, by simpa [Building.single] using hashed⟩
  recordHashed cursor target found := by simp [Building.targetOf, Building.single] at found
  aligned := .nil options
  follows := by
    rw [start, List.length_nil, Nat.zero_mul, Nat.add_zero]
    exact starts
  complete _ member := by cases member

section
variable (kept : Kept options archive state)
include kept

theorem Kept.with_builder {after : Building} (clean : after.Clean) (recordHashed : after.RecordHashed)
    (sameFirst : after.info.firstBlock = state.info.firstBlock) :
    Kept options ⟨.building after, archive.archived ++ []⟩ after where
  builder := rfl
  clean := clean
  recordHashed := recordHashed
  aligned := (List.append_nil archive.archived).symm ▸ kept.aligned
  follows := by rw [sameFirst, List.append_nil, kept.follows]
  complete := by simpa using kept.complete

theorem Kept.takeSegment (stepped : archive.step (.op (.takeSegment options.chainSegmentSize)) = some next) :
    ∃ after, Kept options next after := by
  obtain ⟨_, called, rfl⟩ := Option.map_eq_some_iff.mp stepped
  rw [kept.builder, CanonicalChainBuilder.call, CanonicalChainBuilder.apply] at called
  rw [kept.builder, handedOut]
  rcases takeSegment_cases kept.clean.toWellFormed options.chainSegmentSize with
    ⟨_, -, failed⟩ | ⟨-, panicked⟩ | ⟨positive, inside, lastHash, nextHash, nextAt, done⟩
  · rw [failed] at called ⊢
    cases called
    exact ⟨state, kept.with_builder kept.clean kept.recordHashed rfl⟩
  · rw [panicked] at called
    cases called
  · rw [done] at called ⊢
    cases called
    have follows := kept.follows
    refine ⟨_, rfl, ⟨kept.clean.toWellFormed.remaining inside nextAt, ?_⟩,
      kept.recordHashed.remaining kept.clean inside.le lastHash nextHash, ?_, ?_, ?_⟩
    · exact fun hash member => kept.clean.nonzero hash (List.mem_of_mem_drop member)
    · refine kept.aligned.append positive follows ?_
      simp only [Building.takenSegment]
      omega
    · simp only [Building.remaining_first, List.length_append, List.length_singleton, Nat.add_mul, Nat.one_mul]
      omega
    · intro segment member
      rcases List.mem_append.mp member with old | new
      · exact kept.complete segment old
      · obtain rfl := List.mem_singleton.mp new
        exact kept.clean.complete_takenSegment kept.recordHashed positive inside lastHash

theorem Kept.other {call : BuilderCall} (allowed : call.Allowed) (notTake : ∀ size, call ≠ .op (.takeSegment size))
    (stepped : archive.step call = some next) : ∃ after, Kept options next after := by
  obtain ⟨builder, _⟩ := archive
  obtain rfl : builder = .building state := kept.builder
  have nothing : handedOut (.building state) call = [] := by
    unfold handedOut
    split
    next size => exact absurd rfl (notTake size)
    next => rfl
  have before : Holds Building.Clean (.building state) := kept.clean
  obtain ⟨after, called, rfl⟩ := Option.map_eq_some_iff.mp stepped
  obtain ⟨_, found, isCall, calls⟩ := call_returns before allowed
  have clean := call_clean before allowed isCall
  obtain rfl : found = after := Option.some.inj ((congrArg Prod.snd isCall).symm.trans called)
  rw [nothing]
  cases calls with
  | failed | kept => exact ⟨state, kept.with_builder kept.clean kept.recordHashed rfl⟩
  | grown => exact ⟨_, kept.with_builder clean kept.recordHashed rfl⟩
  | shrunk canonical => exact ⟨_, kept.with_builder clean (kept.recordHashed.shrunk kept.clean canonical) rfl⟩
  | taken => exact absurd rfl (notTake _)
  | restored => exact ⟨_, kept.with_builder clean kept.recordHashed.restored rfl⟩

theorem Kept.step {call : BuilderCall} (allowed : call.Allowed) (sized : call.Sized options.chainSegmentSize)
    (stepped : archive.step call = some next) : ∃ after, Kept options next after := by
  by_cases take : ∃ size, call = .op (.takeSegment size)
  · obtain ⟨size, rfl⟩ := take
    obtain rfl : size = options.chainSegmentSize := sized
    exact kept.takeSegment stepped
  · exact kept.other allowed (fun size isTake => take ⟨size, isTake⟩) stepped

end

theorem kept_run {first : BlockInfo} (starts : first.number = startingBlock options)
    (hashed : first.hash.isZero = false) {calls}
    (allowed : ∀ call ∈ calls, call.Allowed ∧ call.Sized options.chainSegmentSize)
    (reached : Runs.run step (start first) calls = some archive) : ∃ state, Kept options archive state := by
  apply Runs.run_invariant _ ⟨_, kept_start starts hashed⟩ reached
  intro call member before after ⟨state, kept⟩ stepped
  exact kept.step (allowed call member).1 (allowed call member).2 stepped

theorem Kept.complete_view (kept : Kept options archive state) {get}
    (stored : ∀ segment ∈ archive.archived, get segment.info.firstBlock.number = .ok (some segment)) :
    (viewOf options get state.snapshot).Complete := by
  intro number lower upper
  by_cases recent : state.info.firstBlock.number ≤ number
  · refine ⟨state.snapshot, if_pos recent, kept.clean.complete_snapshot kept.recordHashed, ?_⟩
    exact (CanonicalChainSegment.covers_iff _ _).mpr ⟨recent, upper⟩
  · obtain ⟨i, _, segment, segmentAt, named, isStart, covers⟩ :=
      kept.aligned.segment_at lower (kept.follows ▸ not_le.mp recent)
    have member := List.mem_of_getElem? segmentAt
    have isStored := stored segment member
    rw [isStart] at isStored
    have older : ¬ (viewOf options get state.snapshot).recent.info.firstBlock.number ≤ number := recent
    refine ⟨segment, ?_, kept.complete segment member, covers⟩
    rw [FullCanonicalChain.getChainSegment, if_neg older]
    simp only [viewOf, named, isStored, bind, Except.bind]

/-- Whatever the builder did: a cursor in range is validated against the chain that it
    published, and the stream can go on from the cursor it is replaced with. -/
theorem validated_streamable {first : BlockInfo} (starts : first.number = startingBlock options)
    (hashed : first.hash.isZero = false) {calls : List BuilderCall}
    (allowed : ∀ call ∈ calls, call.Allowed ∧ call.Sized options.chainSegmentSize)
    (reached : Runs.run step (start first) calls = some archive) {recent : CanonicalChainSegment}
    (published : archive.builder.currentSegment = .ok recent) {get : ChainStoreGet}
    (stored : ∀ segment ∈ archive.archived, get segment.info.firstBlock.number = .ok (some segment)) {cursor : Cursor}
    (inRange : (viewOf options get recent).ensureCursorInRange cursor = .ok ()) :
    (viewOf options get recent).Validates cursor := by
  obtain ⟨state, kept⟩ := kept_run starts hashed allowed reached
  rw [kept.builder, Building.currentSegment_building] at published
  cases published
  exact (kept.complete_view stored).validates inRange

end BuilderArchive

namespace ReorgedSibling

open BuilderArchive

/-! Block 1 was replaced before block 0 was archived, and a client knows its old hash
with zeros in front. -/

def options : IngestionServiceOptions := ⟨10, 1, 1, none⟩

def first : BlockInfo := ⟨0, ⟨[1]⟩, ⟨[]⟩⟩

def calls : List BuilderCall :=
  [.op (.grow ⟨1, ⟨[2]⟩, ⟨[1]⟩⟩), .op (.shrink ⟨0, ⟨[1]⟩⟩), .op (.grow ⟨1, ⟨[3]⟩, ⟨[1]⟩⟩), .op (.takeSegment 1)]

def cursor : Cursor := ⟨1, ⟨[0, 0, 2]⟩⟩

theorem sibling_validated : ∃ archive recent get, Runs.run step (start first) calls = some archive ∧
    archive.builder.currentSegment = .ok recent ∧ (viewOf options get recent).Validates cursor ∧
    (viewOf options get recent).validateCursor cursor = .ok (.valid ⟨1, ⟨[2]⟩⟩) := by
  obtain ⟨archive, recent, segment, reached, published, archived, isStart, inRange, valid⟩ :
      ∃ archive recent segment, Runs.run step (start first) calls = some archive ∧
        archive.builder.currentSegment = .ok recent ∧ archive.archived = [segment] ∧
        segment.info.firstBlock.number = 0 ∧
        (viewOf options (fun _ => .ok (some segment)) recent).ensureCursorInRange cursor = .ok () ∧
        (viewOf options (fun _ => .ok (some segment)) recent).validateCursor cursor = .ok (.valid ⟨1, ⟨[2]⟩⟩) :=
    ⟨_, _, _, rfl, rfl, rfl, rfl, rfl, rfl⟩
  have allowed : ∀ call ∈ calls, call.Allowed ∧ call.Sized options.chainSegmentSize := by
    simp [calls, BuilderCall.Allowed, BuilderCall.Sized, options, Hash.isZero]
  refine ⟨archive, recent, _, reached, published, ?_, valid⟩
  refine validated_streamable rfl rfl allowed reached published (fun found member => ?_) inRange
  rw [archived] at member
  rw [List.mem_singleton.mp member]

end ReorgedSibling

end Starkstream
