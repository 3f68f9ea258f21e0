import Starkstream.ChainView.Full

/-! # The chain view

The state behind the lock of a `ChainView`: the canonical chain together with the
last finalized, segmented and grouped block and the pending generation.  Every
function below takes the lock once, so a task that calls two of them can see two
different states.
-/

namespace Starkstream

theorem CanonicalChainSegment.canonicalAt_number {segment : CanonicalChainSegment} {number cursor}
    (found : segment.canonicalAt number = .ok cursor) : cursor.number = number := by
  unfold CanonicalChainSegment.canonicalAt at found
  split_ifs at found
  · cases found
  · cases found
  · obtain ⟨_, -, same⟩ := bind_eq_ok.mp found
    cases same
    rfl

structure ChainView where
  finalized : Nat
  pendingGeneration : Option Nat
  segmented : Option Nat
  grouped : Option Nat
  canonical : FullCanonicalChain
  segmentSize : Nat
  groupSize : Nat

namespace ChainView

def new (finalized : Nat) (segmented grouped : Option Nat) (segmentSize groupSize : Nat)
    (canonical : FullCanonicalChain) : ChainView :=
  { finalized, pendingGeneration := none, segmented, grouped, canonical, segmentSize, groupSize }

def setFinalizedBlock (view : ChainView) (block : Nat) : ChainView :=
  { view with finalized := block }

def setPendingGeneration (view : ChainView) (generation : Option Nat) : ChainView :=
  { view with pendingGeneration := generation }

def setSegmentedBlock (view : ChainView) (block : Nat) : ChainView :=
  { view with segmented := some block }

def setGroupedBlock (view : ChainView) (block : Nat) : ChainView :=
  { view with grouped := some block }

def setRecent (view : ChainView) (recent : CanonicalChainSegment) : ChainView :=
  { view with canonical := { view.canonical with recent } }

/-- The last multiple of `size` blocks after the starting block, at or below
    `block`. -/
def alignedStart (view : ChainView) (size block : Nat) : Outcome ChainViewError Nat :=
  if block < view.canonical.startingBlock ∨ size = 0 then .error .panic
  else .ok (view.canonical.startingBlock + (block - view.canonical.startingBlock) / size * size)

def getSegmentStartBlock (view : ChainView) (block : Nat) : Outcome ChainViewError Nat :=
  view.alignedStart view.segmentSize block

def getSegmentEndBlock (view : ChainView) (block : Nat) : Outcome ChainViewError Nat := do
  let start ← view.getSegmentStartBlock block
  return start + view.segmentSize - 1

def hasSegmentForBlock (view : ChainView) (block : Nat) : Outcome ChainViewError Bool :=
  match view.segmented with
  | none => .ok false
  | some segmented => do
      let segmentEnd ← view.getSegmentEndBlock block
      return segmentEnd ≤ segmented

def getGroupStartBlock (view : ChainView) (block : Nat) : Outcome ChainViewError Nat :=
  view.alignedStart (view.groupSize * view.segmentSize) block

/-- The canonical block with the given number, or a cursor without a hash. -/
def cursorAt (view : ChainView) (block : Nat) : Outcome ChainViewError Cursor := do
  match ← view.canonical.getCanonical block with
  | .canonical cursor => return cursor
  | _ => return .newFinalized block

def getFinalizedCursor (view : ChainView) : Outcome ChainViewError Cursor :=
  view.cursorAt view.finalized

/-- The cursor of a block that may not be known yet. -/
def optionalCursor (view : ChainView) : Option Nat → Outcome ChainViewError (Option Cursor)
  | none => .ok none
  | some block => some <$> view.cursorAt block

def getGroupedCursor (view : ChainView) : Outcome ChainViewError (Option Cursor) :=
  view.optionalCursor view.grouped

def getSegmentedCursor (view : ChainView) : Outcome ChainViewError (Option Cursor) :=
  view.optionalCursor view.segmented

theorem cursorAt_number {view : ChainView} {block cursor} (answered : view.cursorAt block = .ok cursor) :
    cursor.number = block := by
  obtain ⟨canonical, known, chosen⟩ := bind_eq_ok.mp answered
  cases canonical with
  | beforeAvailable | afterAvailable =>
    cases chosen
    rfl
  | canonical found =>
    obtain rfl := Except.ok.inj chosen
    unfold FullCanonicalChain.getCanonical at known
    split_ifs at known
    · cases known
    · obtain ⟨_, -, other⟩ := bind_eq_ok.mp known
      cases other
    · obtain ⟨cursor, looked, same⟩ := bind_eq_ok.mp known
      obtain rfl : cursor = found := CanonicalCursor.canonical.inj (Except.ok.inj same)
      obtain ⟨_, -, inSegment⟩ := bind_eq_ok.mp looked
      exact CanonicalChainSegment.canonicalAt_number (Outcome.changeContext_eq_ok.mp inSegment)

theorem optionalCursor_some {view : ChainView} {block cursor} (answered : view.optionalCursor block = .ok (some cursor)) :
    block = some cursor.number := by
  cases block with
  | none => cases answered
  | some =>
    obtain ⟨_, isFound, same⟩ := bind_eq_ok.mp answered
    cases same
    rw [cursorAt_number isFound]

/-- No segmented or grouped block is known just when none is stored. -/
theorem optionalCursor_none {view : ChainView} {block} (answered : view.optionalCursor block = .ok none) :
    block = none := by
  cases block with
  | none => rfl
  | some =>
    obtain ⟨_, -, same⟩ := bind_eq_ok.mp answered
    cases Except.ok.inj same

end ChainView

end Starkstream
