import Starkstream.Query.Filter

/-! # Reading the fragments of a block

The data stream reads a block either from the object of the block or from the
objects of a segment, one for each fragment.  In a segment the fragments of a
block are found by their offset.  The objects of a segment are fetched by name,
and the names of the fragments are those the server was started with.

Deserialising gives back what was serialised.  The source reads the bytes of an
object without a check.  Bytes of another type give some value: nothing is said
about it here, so that what is proved holds for every such value.
-/

namespace Starkstream

structure FragmentAccessError where
  deriving DecidableEq

structure ServerError where
  deriving DecidableEq

/-- Two calls that both succeed with the same value, both return an error or both panic. -/
def Outcome.Same {ε δ α : Type} : Outcome ε α → Outcome δ α → Prop
  | .ok left, .ok right => left = right
  | .error (.error _), .error (.error _) => True
  | .error .panic, .error .panic => True
  | _, _ => False

namespace Outcome.Same

variable {ε δ ζ α β : Type}

theorem refl (outcome : Outcome ε α) : Outcome.Same outcome outcome := by
  rcases outcome with (_ | _) | _
  · trivial
  · trivial
  · rfl

/-- The values agree where both calls return, and the calls end alike where they do not. -/
theorem bind {left right} {next other : α → Outcome ε β} (same : Outcome.Same left right)
    (then_ : ∀ value, left = .ok value → Outcome.Same (next value) (other value)) :
    Outcome.Same (left >>= next) (right >>= other) := by
  rcases left with (_ | _) | value <;> rcases right with (_ | _) | value' <;>
    simp only [Outcome.Same] at same
  · trivial
  · trivial
  · subst same
    exact then_ value rfl

theorem changeContext {left : Outcome ε α} {right : Outcome ζ α} (same : Outcome.Same left right) (context : δ)
    (attachments others : List String) :
    Outcome.Same (left.changeContext context attachments) (right.changeContext context others) := by
  rcases left with (_ | _) | _ <;> rcases right with (_ | _) | _ <;> simp_all [Outcome.Same, Outcome.changeContext]

/-- Two folds over one list whose turns agree in the states that the first one reaches. -/
theorem foldlM {next other : β → α → Outcome ε β} (Holds : β → Prop) {items : List α}
    (keep : ∀ before item after, item ∈ items → Holds before → next before item = .ok after → Holds after)
    (turn : ∀ before item, item ∈ items → Holds before → Outcome.Same (next before item) (other before item))
    {start : β} (initially : Holds start) : Outcome.Same (items.foldlM next start) (items.foldlM other start) := by
  induction items generalizing start with
  | nil => rfl
  | cons item rest ih =>
    rw [List.foldlM_cons, List.foldlM_cons]
    refine bind (turn start item (List.mem_cons_self ..) initially) fun after one => ?_
    refine ih (fun before other after member => ?_) (fun before other member => ?_)
      (keep start item after (List.mem_cons_self ..) initially one)
    · exact keep before other after (List.mem_cons_of_mem _ member)
    · exact turn before other (List.mem_cons_of_mem _ member)

theorem mapM {next other : α → Outcome ε β} {items : List α}
    (each : ∀ item ∈ items, Outcome.Same (next item) (other item)) :
    Outcome.Same (items.mapM next) (items.mapM other) := by
  induction items with
  | nil => rfl
  | cons item rest ih =>
    rw [List.mapM_cons, List.mapM_cons]
    refine bind (each item (List.mem_cons_self ..)) fun value _ => ?_
    refine bind (ih fun other member => each other (List.mem_cons_of_mem _ member)) fun values _ => ?_
    rfl

end Outcome.Same

/-- Information about a fragment. -/
structure FragmentInfo where
  fragmentId : FragmentId
  name : String
  deriving DecidableEq

def reservedFragmentIds : List FragmentId := [indexFragmentId, headerFragmentId, joinFragmentId]

abbrev FragmentNames := Std.ExtTreeMap FragmentId String

namespace FragmentNames

def base : FragmentNames :=
  ((Std.ExtTreeMap.insert ∅ headerFragmentId headerFragmentName).insert indexFragmentId indexFragmentName).insert
    joinFragmentId joinFragmentName

def insertInfo (names : FragmentNames) (info : FragmentInfo) : Outcome ServerError FragmentNames :=
  match names[info.fragmentId]? with
  | some existing =>
    Outcome.fail ⟨⟩ ["duplicate fragment id", "fragment id: " ++ toString info.fragmentId.toNat,
      "existing fragment name: " ++ existing, "new fragment name: " ++ info.name]
  | none => .ok (names.insert info.fragmentId info.name)

/-- The names the server is started with, from the fragments of the chain. -/
def ofFragmentInfo (fragmentInfo : List FragmentInfo) : Outcome ServerError FragmentNames :=
  fragmentInfo.foldlM insertInfo base

end FragmentNames

structure FragmentData (α : Type) where
  cursor : Cursor
  data : α

/-- A segment is a collection of fragments from different blocks. -/
structure Segment (α : Type) where
  firstBlock : Cursor
  data : List (FragmentData α)

/-- What an object of a segment holds. -/
inductive SegmentData where
  | index (segment : Segment IndexGroupFragment)
  | join (segment : Segment JoinGroupFragment)
  | header (segment : Segment HeaderFragment)
  | body (segment : Segment BodyFragment)

/-- The blocks of an object, in order. -/
def SegmentData.cursors : SegmentData → List Cursor
  | .index segment => segment.data.map (·.cursor)
  | .join segment => segment.data.map (·.cursor)
  | .header segment => segment.data.map (·.cursor)
  | .body segment => segment.data.map (·.cursor)

/-- A segment ready to be written to the storage. -/
structure SerializedSegment where
  name : String
  data : SegmentData

namespace Fragments

/-- What `access_unchecked` shows at a position of an object of another type. -/
structure UncheckedReads where
  index : SegmentData → Nat → IndexGroupFragment
  join : SegmentData → Nat → JoinGroupFragment
  header : SegmentData → Nat → HeaderFragment
  body : SegmentData → Nat → BodyFragment

instance : Inhabited UncheckedReads := ⟨fun _ _ => ⟨[]⟩, fun _ _ => ⟨[]⟩, fun _ _ => ⟨[]⟩, fun _ _ => ⟨0, "", []⟩⟩

/-- The objects of a segment that were fetched, by the fragment they were fetched for. -/
structure SegmentAccess where
  firstBlock : Nat
  fragments : FragmentId → Option SegmentData
  unchecked : UncheckedReads

/-- One block of a segment. -/
structure SegmentBlockAccess where
  segment : SegmentAccess
  offset : Nat

/-- The position of the block in the list of a segment. -/
def atOffset {α : Type} (segment : Segment α) (offset : Nat) : Outcome FragmentAccessError α :=
  match segment.data[offset]? with
  | some fragment => .ok fragment.data
  | none => .error .panic

/-- The same position of an object that is not of the type it is read as.  The objects of
    all types are lists that begin alike, so that the position is checked as before. -/
def misread {α : Type} (object : SegmentData) (offset : Nat) (entry : SegmentData → Nat → α) :
    Outcome FragmentAccessError α :=
  if offset < object.cursors.length then .ok (entry object offset) else .error .panic

namespace UncheckedReads

def indexAt (unchecked : UncheckedReads) (offset : Nat) : SegmentData → Outcome FragmentAccessError IndexGroupFragment
  | .index segment => atOffset segment offset
  | other => misread other offset unchecked.index

def joinAt (unchecked : UncheckedReads) (offset : Nat) : SegmentData → Outcome FragmentAccessError JoinGroupFragment
  | .join segment => atOffset segment offset
  | other => misread other offset unchecked.join

def headerAt (unchecked : UncheckedReads) (offset : Nat) : SegmentData → Outcome FragmentAccessError HeaderFragment
  | .header segment => atOffset segment offset
  | other => misread other offset unchecked.header

def bodyAt (unchecked : UncheckedReads) (offset : Nat) : SegmentData → Outcome FragmentAccessError BodyFragment
  | .body segment => atOffset segment offset
  | other => misread other offset unchecked.body

end UncheckedReads

namespace SegmentBlockAccess

def blockNumber (access : SegmentBlockAccess) : Nat := access.segment.firstBlock + access.offset

def getIndexFragment (access : SegmentBlockAccess) (fragmentId : FragmentId) :
    Outcome FragmentAccessError IndexFragment :=
  match access.segment.fragments indexFragmentId with
  | none => Outcome.fail ⟨⟩ ["index fragment not found"]
  | some object => do
      let blockIndex ← access.segment.unchecked.indexAt access.offset object
      match blockIndex.indexes.find? (·.fragmentId == fragmentId) with
      | some index => .ok index
      | none =>
        Outcome.fail ⟨⟩ ["index for fragment not found", "fragment id: " ++ toString fragmentId.toNat]

def getJoinFragment (access : SegmentBlockAccess) (fragmentId : FragmentId) :
    Outcome FragmentAccessError JoinFragment :=
  match access.segment.fragments joinFragmentId with
  | none => Outcome.fail ⟨⟩ ["join fragment not found"]
  | some object => do
      let blockJoin ← access.segment.unchecked.joinAt access.offset object
      match blockJoin.joins.find? (·.fragmentId == fragmentId) with
      | some join => .ok join
      | none =>
        Outcome.fail ⟨⟩ ["join for fragment not found", "fragment id: " ++ toString fragmentId.toNat]

def getHeaderFragment (access : SegmentBlockAccess) : Outcome FragmentAccessError HeaderFragment :=
  match access.segment.fragments headerFragmentId with
  | none => Outcome.fail ⟨⟩ ["header fragment not found"]
  | some object => access.segment.unchecked.headerAt access.offset object

def getBodyFragment (access : SegmentBlockAccess) (fragmentId : FragmentId) :
    Outcome FragmentAccessError BodyFragment :=
  match access.segment.fragments fragmentId with
  | none =>
    Outcome.fail ⟨⟩ ["body fragment not found", "fragment id: " ++ toString fragmentId.toNat,
      "block number: " ++ toString access.blockNumber]
  | some object => access.segment.unchecked.bodyAt access.offset object

end SegmentBlockAccess

/-- A block read from its own object. -/
structure BlockAccess where
  block : Block

namespace BlockAccess

def getIndexFragment (access : BlockAccess) (fragmentId : FragmentId) :
    Outcome FragmentAccessError IndexFragment :=
  match access.block.index.indexes.find? (·.fragmentId == fragmentId) with
  | some index => .ok index
  | none => Outcome.fail ⟨⟩ ["index for fragment not found", "fragment id: " ++ toString fragmentId.toNat]

def getJoinFragment (access : BlockAccess) (fragmentId : FragmentId) :
    Outcome FragmentAccessError JoinFragment :=
  match access.block.join.joins.find? (·.fragmentId == fragmentId) with
  | some join => .ok join
  | none => Outcome.fail ⟨⟩ ["joins for fragment not found", "fragment id: " ++ toString fragmentId.toNat]

def getHeaderFragment (access : BlockAccess) : Outcome FragmentAccessError HeaderFragment :=
  .ok access.block.header

def getBodyFragment (access : BlockAccess) (fragmentId : FragmentId) :
    Outcome FragmentAccessError BodyFragment :=
  match access.block.body.find? (·.fragmentId == fragmentId) with
  | some body => .ok body
  | none => Outcome.fail ⟨⟩ ["body for fragment not found", "fragment id: " ++ toString fragmentId.toNat]

end BlockAccess

inductive FragmentAccess where
  | segment (access : SegmentBlockAccess)
  | block (access : BlockAccess)

namespace FragmentAccess

def getIndexFragment : FragmentAccess → FragmentId → Outcome FragmentAccessError IndexFragment
  | segment access => access.getIndexFragment
  | block access => access.getIndexFragment

def getJoinFragment : FragmentAccess → FragmentId → Outcome FragmentAccessError JoinFragment
  | segment access => access.getJoinFragment
  | block access => access.getJoinFragment

def getHeaderFragment : FragmentAccess → Outcome FragmentAccessError HeaderFragment
  | segment access => access.getHeaderFragment
  | block access => access.getHeaderFragment

def getBodyFragment : FragmentAccess → FragmentId → Outcome FragmentAccessError BodyFragment
  | segment access => access.getBodyFragment
  | block access => access.getBodyFragment

end FragmentAccess

end Fragments

end Starkstream
