import Starkstream.Query.Fragment

/-! # Filters

A filter selects rows of one fragment: it starts with all the rows and keeps
those that are in the bitmap of every condition.  Conditions name the index by
its position.  When an index holds, for every key, the rows of a list whose
items have that key, a filter selects the items that have the key of every
condition.
-/

namespace Starkstream

inductive HeaderFilter where
  | always
  | onData
  | onDataOrOnNewBlock
  deriving DecidableEq

namespace Query

abbrev FilterId := Nat

/-- Filter a fragment based on the values from this index. -/
structure Condition where
  indexId : IndexId
  key : ScalarValue
  deriving DecidableEq

/-- A single filter. -/
structure Filter where
  filterId : FilterId
  fragmentId : FragmentId
  /-- The conditions to filter on, logically ANDed together. -/
  conditions : List Condition
  /-- Join results from this filter with the given fragments. -/
  joins : List FragmentId
  deriving DecidableEq

/-- A collection of filters, by the fragment that they filter. -/
structure BlockFilter where
  headerFilter : HeaderFilter := .onDataOrOnNewBlock
  filters : Std.ExtTreeMap FragmentId (List Filter) := ∅

namespace BlockFilter

def alwaysIncludeHeader (blockFilter : BlockFilter) : Bool := blockFilter.headerFilter == .always

def addFilter (blockFilter : BlockFilter) (filter : Filter) : BlockFilter :=
  { blockFilter with
    filters := blockFilter.filters.alter filter.fragmentId fun filters => some (filters.getD [] ++ [filter]) }

def iter (blockFilter : BlockFilter) : List (FragmentId × List Filter) := blockFilter.filters.toList

def allFragmentIds (blockFilter : BlockFilter) : List FragmentId :=
  blockFilter.iter.flatMap fun (fragmentId, filters) => fragmentId :: filters.flatMap (·.joins)

end BlockFilter

structure FilterError where
  deriving DecidableEq

namespace Filter

/-- Narrow the rows down by one condition after the other; after a key that is
    missing the remaining conditions are not looked at. -/
def narrow (indexes : IndexFragment) : List Condition → Bitmap → Outcome FilterError Bitmap
  | [], result => .ok result
  | cond :: rest, result =>
    match indexes.indexes[cond.indexId.toNat]? with
    | none => Outcome.fail ⟨⟩ []
    | some condIndex =>
      match condIndex.index with
      | .empty => narrow indexes rest result
      | .bitmap bitmap =>
        match bitmap.get cond.key with
        | some rows => narrow indexes rest (result ∩ rows)
        | none => .ok ∅

def filter (filter : Filter) (indexes : IndexFragment) : Outcome FilterError Bitmap :=
  narrow indexes filter.conditions (Finset.Ico indexes.rangeStart (indexes.rangeStart + indexes.rangeLen))

end Filter

/-- The row is in the bitmap of the condition; an empty index restricts nothing. -/
def Condition.Admits (indexes : IndexFragment) (row : Nat) (condition : Condition) : Prop :=
  ∃ condIndex, indexes.indexes[condition.indexId.toNat]? = some condIndex ∧
    ∀ bitmap, condIndex.index = .bitmap bitmap → row ∈ (bitmap.get condition.key).getD ∅

/-- Narrowing keeps the rows that all conditions admit. -/
theorem Filter.narrow_admits {indexes : IndexFragment} {conditions}
    (known : ∀ condition ∈ conditions, condition.indexId.toNat < indexes.indexes.length) (start : Bitmap) :
    ∃ rows, narrow indexes conditions start = .ok rows ∧ ∀ row, row ∈ rows ↔
      row ∈ start ∧ ∀ condition ∈ conditions, condition.Admits indexes row := by
  induction conditions generalizing start with
  | nil => exact ⟨start, rfl, by simp⟩
  | cons condition rest ih =>
    have inside := known condition (List.mem_cons_self ..)
    have continued := ih fun other member => known other (List.mem_cons_of_mem _ member)
    simp only [narrow, List.forall_mem_cons, Condition.Admits, List.getElem?_eq_getElem inside,
      Option.some.injEq, exists_eq_left']
    cases indexes.indexes[condition.indexId.toNat].index with
    | empty =>
      obtain ⟨rows, narrowed, mem_rows⟩ := continued start
      exact ⟨rows, narrowed, by simpa [Condition.Admits] using mem_rows⟩
    | bitmap bitmap =>
      simp only [Index.bitmap.injEq, forall_eq']
      cases bitmap.get condition.key with
      | none => exact ⟨∅, rfl, by simp⟩
      | some matching =>
        obtain ⟨rows, narrowed, mem_rows⟩ := continued (start ∩ matching)
        refine ⟨rows, narrowed, fun row => ?_⟩
        rw [mem_rows, Finset.mem_inter, and_assoc]
        simp [Condition.Admits]

end Query

/-- What the items of a list are indexed by: keys of one variant. -/
structure Column (α : Type) where
  key : α → Option ScalarValue
  variant : Nat
  ofVariant : ∀ item value, key item = some value → value.variant = variant

section
variable {α : Type}

/-- The builder holds, under every key, the positions of the items with that key. -/
structure BitmapIndexBuilder.Indexes (builder : BitmapIndexBuilder) (items : List α) (column : Column α) :
    Prop where
  mem_rows : ∀ key row,
    row ∈ BitmapIndexBuilder.rows builder key ↔ ∃ item, items[row]? = some item ∧ column.key item = some key
  uniform : BitmapIndexBuilder.Uniform builder column.variant

/-- The stored index holds, under every key, the positions of the items with that key. -/
def Index.Describes (index : Index) (items : List α) (column : Column α) : Prop :=
  ∃ bitmap, index = .bitmap bitmap ∧ ∀ key row,
    row ∈ (bitmap.get key).getD ∅ ↔ ∃ item, items[row]? = some item ∧ column.key item = some key

/-- The fragment indexes a list of items by the given columns, in this order. -/
structure IndexFragment.Describes (fragment : IndexFragment) (items : List α) (columns : List (Column α)) :
    Prop where
  rangeStart : fragment.rangeStart = 0
  rangeLen : fragment.rangeLen = items.length
  indexes : List.Forall₂ (fun index column => index.Describes items column)
    (fragment.indexes.map (·.index)) columns

variable {items : List α} {columns : List (Column α)}

namespace BitmapIndexBuilder

theorem Indexes.empty {column} : Indexes (∅ : BitmapIndexBuilder) ([] : List α) column where
  mem_rows key row := by simp [BitmapIndexBuilder.rows]
  uniform key member := absurd member (by simp)

/-- An index stays one when the key of the next item is inserted with its position. -/
theorem Indexes.push {builder column} (indexes : Indexes builder items column) (item : α) :
    Indexes (builder.insertSome (column.key item) items.length) (items ++ [item]) column := by
  have atEnd : ∀ row found, (items ++ [item])[row]? = some found ↔
      items[row]? = some found ∨ (row = items.length ∧ item = found) := by
    intro row found
    rcases Nat.lt_trichotomy row items.length with inside | rfl | outside
    · simp [List.getElem?_append_left inside, inside.ne]
    · simp
    · simp [List.getElem?_eq_none (show items.length ≤ row by omega), show row ≠ items.length by omega,
        List.getElem?_eq_none (show (items ++ [item]).length ≤ row by simp; omega)]
  cases keyed : column.key item with
  | none =>
    refine ⟨fun key row => ?_, indexes.uniform⟩
    simp only [BitmapIndexBuilder.insertSome, atEnd, indexes.mem_rows]
    constructor
    · rintro ⟨found, foundAt, hasKey⟩
      exact ⟨found, .inl foundAt, hasKey⟩
    · rintro ⟨found, foundAt | ⟨_, rfl⟩, hasKey⟩
      · exact ⟨found, foundAt, hasKey⟩
      · cases keyed.symm.trans hasKey
  | some key =>
    have sameVariant := column.ofVariant item key keyed
    refine ⟨fun other row => ?_, sameVariant ▸ Uniform.insert (sameVariant ▸ indexes.uniform) _⟩
    simp only [BitmapIndexBuilder.insertSome, BitmapIndexBuilder.mem_rows_insert, atEnd, indexes.mem_rows]
    constructor
    · rintro (⟨found, foundAt, hasKey⟩ | ⟨rfl, rfl⟩)
      · exact ⟨found, .inl foundAt, hasKey⟩
      · exact ⟨item, .inr ⟨rfl, rfl⟩, keyed⟩
    · rintro ⟨found, foundAt | ⟨rfl, rfl⟩, hasKey⟩
      · exact .inl ⟨found, foundAt, hasKey⟩
      · exact .inr ⟨Option.some.inj (keyed.symm.trans hasKey), rfl⟩

theorem Indexes.describes {builder column} (indexes : Indexes builder items column) :
    (Index.bitmap builder.build).Describes items column := by
  refine ⟨_, rfl, fun key row => ?_⟩
  rw [BitmapIndexBuilder.get_build indexes.uniform]
  exact indexes.mem_rows key row

/-- Several builders index one list, each by its own column. -/
def AllIndex (builders : List BitmapIndexBuilder) (items : List α) (columns : List (Column α)) : Prop :=
  List.Forall₂ (fun builder column => Indexes builder items column) builders columns

/-- Insert the keys of an item with the given row. -/
def insertAll (builders : List BitmapIndexBuilder) (columns : List (Column α)) (item : α) (row : Nat) :
    List BitmapIndexBuilder :=
  List.zipWith (fun builder column => BitmapIndexBuilder.insertSome builder (column.key item) row) builders columns

theorem AllIndex.empty (columns : List (Column α)) : AllIndex (columns.map fun _ => ∅) ([] : List α) columns := by
  induction columns with
  | nil => exact .nil
  | cons column rest ih => exact .cons .empty ih

theorem AllIndex.push {builders} (index : AllIndex builders items columns) (item : α) :
    AllIndex (insertAll builders columns item items.length) (items ++ [item]) columns := by
  induction index with
  | nil => exact .nil
  | cons first _ ih => exact .cons (first.push item) ih

theorem AllIndex.describes {builders} (index : AllIndex builders items columns) {fragment : IndexFragment}
    (start : fragment.rangeStart = 0) (len : fragment.rangeLen = items.length)
    (indexes : fragment.indexes.map (·.index) = builders.map fun builder => .bitmap builder.build) :
    fragment.Describes items columns where
  rangeStart := start
  rangeLen := len
  indexes := by
    rw [indexes, List.forall₂_map_left_iff]
    exact List.Forall₂.imp (fun _ _ => Indexes.describes) index

end BitmapIndexBuilder

namespace Query

/-- The item has the key of the condition in the column that the condition names. -/
def Condition.Holds (columns : List (Column α)) (item : α) (condition : Condition) : Prop :=
  ∃ column, columns[condition.indexId.toNat]? = some column ∧ column.key item = some condition.key

namespace Filter

variable {fragment : IndexFragment}

variable (describes : fragment.Describes items columns)
include describes

/-- A condition admits the positions of the items that it holds of. -/
theorem admits_iff {condition : Condition} (known : condition.indexId.toNat < columns.length) (row : Nat) :
    condition.Admits fragment row ↔ ∃ item, items[row]? = some item ∧ condition.Holds columns item := by
  have sameLength := describes.indexes.length_eq
  have inside : condition.indexId.toNat < fragment.indexes.length := by
    rwa [← sameLength, List.length_map] at known
  have related := describes.indexes.get (by rwa [List.length_map]) known
  obtain ⟨bitmap, isBitmap, mem_get⟩ := related
  simp only [List.get_eq_getElem, List.getElem_map] at isBitmap mem_get
  simp only [Condition.Admits, Condition.Holds, List.getElem?_eq_getElem inside, List.getElem?_eq_getElem known,
    Option.some.injEq, exists_eq_left', isBitmap, Index.bitmap.injEq, forall_eq']
  exact mem_get condition.key row

theorem narrow_spec {conditions} (known : ∀ condition ∈ conditions, condition.indexId.toNat < columns.length)
    (start : Bitmap) :
    ∃ rows, narrow fragment conditions start = .ok rows ∧ ∀ row, row ∈ rows ↔
      row ∈ start ∧ ∀ condition ∈ conditions, ∃ item, items[row]? = some item ∧ condition.Holds columns item := by
  have sameLength : columns.length = fragment.indexes.length := by
    rw [← describes.indexes.length_eq, List.length_map]
  obtain ⟨rows, narrowed, mem_rows⟩ :=
    narrow_admits (fun condition member => sameLength ▸ known condition member) start
  refine ⟨rows, narrowed, fun row => ?_⟩
  rw [mem_rows, and_congr_right_iff]
  intro _
  exact forall₂_congr fun condition member => admits_iff describes (known condition member) row

/-- A filter selects the positions of the items that meet all its conditions. -/
theorem filter_spec (filter : Filter)
    (known : ∀ condition ∈ filter.conditions, condition.indexId.toNat < columns.length) :
    ∃ rows, filter.filter fragment = .ok rows ∧ ∀ row, row ∈ rows ↔
      ∃ item, items[row]? = some item ∧ ∀ condition ∈ filter.conditions, condition.Holds columns item := by
  obtain ⟨rows, filtered, mem_rows⟩ := narrow_spec describes known
    (Finset.Ico fragment.rangeStart (fragment.rangeStart + fragment.rangeLen))
  refine ⟨rows, filtered, fun row => ?_⟩
  rw [mem_rows, describes.rangeStart, describes.rangeLen, zero_add, Finset.mem_Ico]
  constructor
  · rintro ⟨⟨_, inside⟩, all⟩
    refine ⟨items[row], List.getElem?_eq_getElem inside, fun condition member => ?_⟩
    obtain ⟨_, itemAt, holds⟩ := all condition member
    cases (List.getElem?_eq_getElem inside).symm.trans itemAt
    exact holds
  · rintro ⟨item, itemAt, all⟩
    have inside := (List.getElem?_eq_some_iff.mp itemAt).1
    exact ⟨⟨Nat.zero_le _, inside⟩, fun condition member => ⟨item, itemAt, all condition member⟩⟩

end Filter

end Query

end

end Starkstream
