import Mathlib.Data.List.Basic
import Mathlib.Data.Nat.Basic
import Mathlib.Tactic.Ring

/-! # The protobuf wire format

A message is a sequence of fields.  Each starts with a key, a varint that holds
the number of the field and how its value is written.  Varints have at most ten
bytes and hold numbers of 64 bits.  Only what proto3 uses is read: groups are
rejected.

`readAll` reads values until nothing is left.  For a reader that always consumes
something, bytes that start with an encoded value read as that value followed by
what the rest reads as.
-/

namespace Wire

abbrev Bytes := List UInt8

section ReadAll
variable {α : Type} {read : Bytes → Option (α × Bytes)} {bytes rest : Bytes} {value : α}

def Consumes (read : Bytes → Option (α × Bytes)) : Prop :=
  ∀ bytes value rest, read bytes = some (value, rest) → rest.length < bytes.length

/-- Read values until there are no bytes left; `fuel` bounds the turns. -/
def readMany (read : Bytes → Option (α × Bytes)) : Nat → Bytes → Option (List α)
  | _, [] => some []
  | 0, _ :: _ => none
  | fuel + 1, byte :: rest => do
      let (value, rest) ← read (byte :: rest)
      let others ← readMany read fuel rest
      return value :: others

def readAll (read : Bytes → Option (α × Bytes)) (bytes : Bytes) : Option (List α) :=
  readMany read bytes.length bytes

theorem readMany_of_le (consumes : Consumes read) {fuel} (enough : bytes.length ≤ fuel) :
    readMany read fuel bytes = readAll read bytes := by
  induction fuel using Nat.strong_induction_on generalizing bytes with
  | _ fuel ih =>
    cases bytes with
    | nil => cases fuel <;> rfl
    | cons byte others =>
      obtain ⟨less, rfl⟩ : ∃ less, fuel = less + 1 := ⟨fuel - 1, by simp at enough; omega⟩
      simp only [readAll, List.length_cons, readMany]
      cases isRead : read (byte :: others) with
      | none => rfl
      | some result =>
        obtain ⟨_, _⟩ := result
        have shorter := consumes _ _ _ isRead
        simp only [List.length_cons] at shorter enough
        simp only [Option.bind_eq_bind, Option.bind_some]
        rw [ih less (by omega) (by omega), ih others.length (by omega) (by omega)]

theorem readAll_of_read (consumes : Consumes read) (isRead : read bytes = some (value, rest)) :
    readAll read bytes = (readAll read rest).map (value :: ·) := by
  have shorter := consumes _ _ _ isRead
  cases bytes with
  | nil => simp at shorter
  | cons byte others =>
    simp only [List.length_cons] at shorter
    have same := readMany_of_le consumes (show rest.length ≤ others.length by omega)
    simp only [readAll, List.length_cons, readMany, isRead, Option.bind_eq_bind, Option.bind_some, same]
    cases readMany read rest.length rest <;> rfl

end ReadAll

/-- Seven bits in each byte, least significant first; all but the last have the high bit set. -/
def varintBytes : Nat → Nat → Bytes
  | 0, _ => []
  | fuel + 1, value =>
    if value < 128 then [UInt8.ofNat value]
    else UInt8.ofNat (value % 128 + 128) :: varintBytes fuel (value / 128)

def encodeVarint (value : Nat) : Bytes := varintBytes 10 value

def varintSize : Nat → Nat → Nat
  | 0, _ => 0
  | fuel + 1, value => if value < 128 then 1 else varintSize fuel (value / 128) + 1

def encodedLenVarint (value : Nat) : Nat := varintSize 10 value

def readVarintBytes : Nat → Bytes → Option (Nat × Bytes)
  | 0, _ => none
  | _ + 1, [] => none
  | fuel + 1, byte :: rest =>
    if byte.toNat < 128 then some (byte.toNat, rest)
    else do
      let (value, rest) ← readVarintBytes fuel rest
      return (byte.toNat - 128 + 128 * value, rest)

def readVarint (bytes : Bytes) : Option (Nat × Bytes) := do
  let (value, rest) ← readVarintBytes 10 bytes
  if value < 2 ^ 64 then return (value, rest) else none

theorem length_encodeVarint (value : Nat) : (encodeVarint value).length = encodedLenVarint value := by
  have general : ∀ fuel value, (varintBytes fuel value).length = varintSize fuel value := by
    intro fuel
    induction fuel with
    | zero => exact fun _ => rfl
    | succ fuel ih =>
      intro value
      rw [varintBytes, varintSize]
      split
      next => rfl
      next => rw [List.length_cons, ih]
  exact general 10 value

theorem encodedLenVarint_pos (value : Nat) : 0 < encodedLenVarint value := by
  rw [encodedLenVarint, varintSize]
  split <;> omega

theorem readVarintBytes_append {fuel value} (small : value < 128 ^ (fuel + 1)) (rest : Bytes) :
    readVarintBytes (fuel + 1) (varintBytes (fuel + 1) value ++ rest) = some (value, rest) := by
  have last : ∀ fuel value, value < 128 →
      readVarintBytes (fuel + 1) (varintBytes (fuel + 1) value ++ rest) = some (value, rest) := by
    intro fuel value single
    have toNat : (UInt8.ofNat value).toNat = value := by
      rw [UInt8.toNat_ofNat']
      omega
    rw [varintBytes, if_pos single, List.singleton_append, readVarintBytes, toNat, if_pos single]
  induction fuel generalizing value with
  | zero => exact last 0 value (by simpa using small)
  | succ fuel ih =>
    by_cases single : value < 128
    · exact last (fuel + 1) value single
    · have toNat : (UInt8.ofNat (value % 128 + 128)).toNat = value % 128 + 128 := by
        rw [UInt8.toNat_ofNat']
        omega
      have smaller : value / 128 < 128 ^ (fuel + 1) := by
        rw [Nat.div_lt_iff_lt_mul (by decide), ← Nat.pow_succ]
        exact small
      rw [varintBytes, if_neg single, List.cons_append, readVarintBytes, toNat, if_neg (by omega)]
      simp only [ih smaller, Option.bind_eq_bind, Option.bind_some, pure, Option.some.injEq, Prod.mk.injEq, and_true]
      omega

theorem readVarint_encodeVarint {value} (small : value < 2 ^ 64) (rest : Bytes) :
    readVarint (encodeVarint value ++ rest) = some (value, rest) := by
  have wide : value < 128 ^ (9 + 1) := small.trans (by decide)
  have isRead := readVarintBytes_append wide rest
  rw [readVarint, encodeVarint, isRead]
  exact if_pos small

theorem consumes_readVarint : Consumes readVarint := by
  have general : ∀ fuel bytes value rest, readVarintBytes fuel bytes = some (value, rest) →
      rest.length < bytes.length := by
    intro fuel
    induction fuel with
    | zero => exact fun _ _ _ isRead => by cases isRead
    | succ fuel ih =>
      intro bytes value rest isRead
      cases bytes with
      | nil => cases isRead
      | cons =>
        rw [readVarintBytes] at isRead
        split at isRead
        next =>
            cases isRead
            exact Nat.lt_succ_self _
        next =>
            obtain ⟨⟨_, _⟩, further, result⟩ := Option.bind_eq_some_iff.mp isRead
            cases result
            exact Nat.lt_succ_of_lt (ih _ _ _ further)
  intro bytes value rest isRead
  obtain ⟨⟨_, _⟩, isFound, result⟩ := Option.bind_eq_some_iff.mp isRead
  simp only [Option.ite_none_right_eq_some] at result
  cases result.2
  exact general _ _ _ _ isFound

/-! ## Fields -/

/-- How the value of a field is written. -/
inductive Value where
  | varint (value : Nat)
  | fixed64 (bytes : Bytes)
  | lengthDelimited (payload : Bytes)
  | fixed32 (bytes : Bytes)
  deriving DecidableEq

structure Field where
  tag : Nat
  value : Value
  deriving DecidableEq

def lengthDelimitedType : Nat := 2

/-- The key of a field: its number and the wire type. -/
def encodeKey (tag wireType : Nat) : Bytes := encodeVarint (tag * 8 + wireType)

def keyLen (tag : Nat) : Nat := encodedLenVarint (tag * 8)

def readFixed (count : Nat) (bytes : Bytes) : Option (Bytes × Bytes) :=
  if count ≤ bytes.length then some (bytes.take count, bytes.drop count) else none

def readValue (wireType : Nat) (bytes : Bytes) : Option (Value × Bytes) :=
  match wireType with
  | 0 => do
      let (value, rest) ← readVarint bytes
      return (.varint value, rest)
  | 1 => do
      let (value, rest) ← readFixed 8 bytes
      return (.fixed64 value, rest)
  | 2 => do
      let (length, rest) ← readVarint bytes
      let (payload, rest) ← readFixed length rest
      return (.lengthDelimited payload, rest)
  | 5 => do
      let (value, rest) ← readFixed 4 bytes
      return (.fixed32 value, rest)
  | _ => none

/-- Keys have 32 bits, and fields are numbered from one. -/
def readField (bytes : Bytes) : Option (Field × Bytes) := do
  let (key, rest) ← readVarint bytes
  if key < 2 ^ 32 ∧ 1 ≤ key / 8 then do
    let (value, rest) ← readValue (key % 8) rest
    return (⟨key / 8, value⟩, rest)
  else none

def parse (bytes : Bytes) : Option (List Field) := readAll readField bytes

def encodeField (tag : Nat) (payload : Bytes) : Bytes :=
  encodeKey tag lengthDelimitedType ++ encodeVarint payload.length ++ payload

theorem readFixed_append (payload rest : Bytes) : readFixed payload.length (payload ++ rest) = some (payload, rest) := by
  simp [readFixed]

theorem length_readFixed {count bytes value rest} (isRead : readFixed count bytes = some (value, rest)) :
    rest.length ≤ bytes.length := by
  rw [readFixed] at isRead
  split at isRead
  next =>
      cases isRead
      simp
  next => cases isRead

theorem length_readValue {wireType bytes rest value} (isRead : readValue wireType bytes = some (value, rest)) :
    rest.length ≤ bytes.length := by
  simp only [readValue] at isRead
  split at isRead
  next =>
      obtain ⟨⟨_, _⟩, isFound, result⟩ := Option.bind_eq_some_iff.mp isRead
      cases result
      exact (consumes_readVarint _ _ _ isFound).le
  next =>
      obtain ⟨⟨_, _⟩, isFound, result⟩ := Option.bind_eq_some_iff.mp isRead
      cases result
      exact length_readFixed isFound
  next =>
      obtain ⟨⟨_, _⟩, isFound, more⟩ := Option.bind_eq_some_iff.mp isRead
      obtain ⟨⟨_, _⟩, isPayload, result⟩ := Option.bind_eq_some_iff.mp more
      cases result
      exact (length_readFixed isPayload).trans (consumes_readVarint _ _ _ isFound).le
  next =>
      obtain ⟨⟨_, _⟩, isFound, result⟩ := Option.bind_eq_some_iff.mp isRead
      cases result
      exact length_readFixed isFound
  next => cases isRead

theorem consumes_readField : Consumes readField := by
  intro bytes field rest isRead
  obtain ⟨⟨_, _⟩, isKey, more⟩ := Option.bind_eq_some_iff.mp isRead
  simp only [Option.ite_none_right_eq_some] at more
  obtain ⟨⟨_, _⟩, isValue, result⟩ := Option.bind_eq_some_iff.mp more.2
  cases result
  exact Nat.lt_of_le_of_lt (length_readValue isValue) (consumes_readVarint _ _ _ isKey)

theorem readField_encodeField {tag} {payload : Bytes} (positive : 1 ≤ tag) (numbered : tag < 2 ^ 29)
    (small : payload.length < 2 ^ 64) (rest : Bytes) :
    readField (encodeField tag payload ++ rest) = some (⟨tag, .lengthDelimited payload⟩, rest) := by
  have key : readVarint (encodeVarint (tag * 8 + 2) ++ (encodeVarint payload.length ++ (payload ++ rest))) =
      some (tag * 8 + 2, encodeVarint payload.length ++ (payload ++ rest)) := readVarint_encodeVarint (by omega) _
  have type : (tag * 8 + 2) % 8 = 2 := by omega
  have number : (tag * 8 + 2) / 8 = tag := by omega
  simp only [encodeField, encodeKey, lengthDelimitedType, List.append_assoc, readField, key, Option.bind_eq_bind,
    Option.bind_some, type, number, readValue, readVarint_encodeVarint small, readFixed_append]
  rw [if_pos ⟨by omega, positive⟩]
  rfl

/-- A message that starts with a length-delimited field. -/
theorem parse_encodeField {tag} {payload : Bytes} (positive : 1 ≤ tag) (numbered : tag < 2 ^ 29)
    (small : payload.length < 2 ^ 64) (rest : Bytes) :
    parse (encodeField tag payload ++ rest) = (parse rest).map (⟨tag, .lengthDelimited payload⟩ :: ·) :=
  readAll_of_read consumes_readField (readField_encodeField positive numbered small rest)

theorem length_encodeKey (tag : Nat) {wireType} (isType : wireType < 8) :
    (encodeKey tag wireType).length = keyLen tag := by
  have same : ∀ fuel, varintSize fuel (tag * 8 + wireType) = varintSize fuel (tag * 8) := by
    intro fuel
    cases fuel with
    | zero => rfl
    | succ =>
      rw [varintSize, varintSize, show (tag * 8 + wireType) / 128 = tag * 8 / 128 by omega]
      congr 1
      exact propext (by omega)
  rw [encodeKey, length_encodeVarint, encodedLenVarint, same 10, keyLen, encodedLenVarint]

theorem length_encodeField (tag : Nat) (payload : Bytes) :
    (encodeField tag payload).length = keyLen tag + encodedLenVarint payload.length + payload.length := by
  simp only [encodeField, List.length_append, length_encodeKey tag (show lengthDelimitedType < 8 by decide),
    length_encodeVarint]

/-! ## Repeated numbers -/

def encodePacked (values : List Nat) : Bytes := values.flatMap encodeVarint

theorem readAll_encodePacked {values} (small : ∀ value ∈ values, value < 2 ^ 64) :
    readAll readVarint (encodePacked values) = some values := by
  induction values with
  | nil => rfl
  | cons value rest ih =>
    have isRead := readVarint_encodeVarint (small value (List.mem_cons_self ..)) (encodePacked rest)
    rw [encodePacked, List.flatMap_cons, ← encodePacked, readAll_of_read consumes_readVarint isRead,
      ih fun other member => small other (List.mem_cons_of_mem _ member)]
    rfl

/-- The numbers of one occurrence of a repeated field, which may be packed. -/
def Value.numbers : Value → Option (List Nat)
  | varint value => some [value]
  | lengthDelimited payload => readAll readVarint payload
  | _ => none

/-- The values of a repeated field of 32-bit numbers: those of all its occurrences. -/
def repeatedUint32 (tag : Nat) (fields : List Field) : Option (List Nat) := do
  let occurrences ← (fields.filter (·.tag == tag)).mapM (·.value.numbers)
  return occurrences.flatten.map (· % 2 ^ 32)

end Wire
