import Starkstream.Query.Index

/-! # Block fragments

A block is stored as fragments: its header, the indexes and the joins of every
kind of data it has, and the data itself as messages that are already encoded.
Fragments refer to each other by id and rows by their position in the body.
Row numbers and lengths are `u32` in the source and natural numbers here; that is the
same while a body has fewer than `2 ^ 32` rows.
-/

namespace Starkstream

abbrev FragmentId := UInt8

abbrev IndexId := UInt8

/-- A pre-serialized protobuf message without the `filter_ids` field. -/
abbrev SerializedProto := List UInt8

def indexFragmentId : FragmentId := 0

def indexFragmentName : String := "index"

def joinFragmentId : FragmentId := 255

def joinFragmentName : String := "join"

def headerFragmentId : FragmentId := 1

def headerFragmentName : String := "header"

abbrev JoinToOneIndex := BinarySearch.Table Nat Nat

abbrev JoinToManyIndex := BinarySearch.Table Nat Bitmap

namespace JoinToOneIndex

def get (index : JoinToOneIndex) (key : Nat) : Option Nat :=
  BinarySearch.Table.get index fun entry => compare entry key

end JoinToOneIndex

namespace JoinToManyIndex

def get (index : JoinToManyIndex) (key : Nat) : Option Bitmap :=
  BinarySearch.Table.get index fun entry => compare entry key

end JoinToManyIndex

/-- Index to join one fragment to another. -/
inductive JoinTo where
  | one (index : JoinToOneIndex)
  | many (index : JoinToManyIndex)

abbrev JoinToOneIndexBuilder := Std.ExtTreeMap Nat Nat

namespace JoinToOneIndexBuilder

def insert (builder : JoinToOneIndexBuilder) (key value : Nat) : JoinToOneIndexBuilder :=
  Std.ExtTreeMap.insert builder key value

def build (builder : JoinToOneIndexBuilder) : JoinToOneIndex := BinarySearch.Table.ofMap builder

end JoinToOneIndexBuilder

abbrev JoinToManyIndexBuilder := Std.ExtTreeMap Nat Bitmap

namespace JoinToManyIndexBuilder

def insert (builder : JoinToManyIndexBuilder) (key value : Nat) : JoinToManyIndexBuilder :=
  builder.alter key fun rows => some (Insert.insert value (rows.getD ∅))

def build (builder : JoinToManyIndexBuilder) : JoinToManyIndex := BinarySearch.Table.ofMap builder

end JoinToManyIndexBuilder

/-- An index of a fragment. -/
structure FragmentIndex where
  indexId : IndexId
  index : Index

structure IndexFragment where
  fragmentId : FragmentId
  rangeStart : Nat
  rangeLen : Nat
  indexes : List FragmentIndex

structure Join where
  toFragmentId : FragmentId
  index : JoinTo

structure JoinFragment where
  fragmentId : FragmentId
  joins : List Join

structure BodyFragment where
  fragmentId : FragmentId
  name : String
  data : List SerializedProto
  deriving DecidableEq

structure HeaderFragment where
  data : SerializedProto
  deriving DecidableEq

structure IndexGroupFragment where
  indexes : List IndexFragment

structure JoinGroupFragment where
  joins : List JoinFragment

/-- A block as it is stored. -/
structure Block where
  header : HeaderFragment
  index : IndexGroupFragment
  join : JoinGroupFragment
  body : List BodyFragment

end Starkstream
