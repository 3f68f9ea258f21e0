import Starkstream.Chain.Builder
import Starkstream.Lib.BigEndian

/-! # The envelope of stored objects

An object is stored with its CRC-32 behind it, compressed.  The object store and the
command line tool that reads and writes chain segments have an encoder and a decoder each.
The decoders take the last four bytes of what they decompressed without looking at its
length, so they panic on an object that decompresses to fewer bytes.  The compression and
the checksum are crates: what is assumed of them are the fields of `Codec`.
-/

namespace Starkstream.Envelope

inductive ObjectStoreError where
  | configuration
  | precondition
  | notModified
  | notFound
  | request
  | metadata
  | checksumMismatch
  deriving DecidableEq

structure StarknetError where
  deriving DecidableEq

/-- The `zstd` and `crc32fast` crates.  Decoding is an error on malformed input. -/
structure Codec where
  encode : List UInt8 → List UInt8
  decode : List UInt8 → Option (List UInt8)
  decode_encode : ∀ bytes, decode (encode bytes) = some bytes
  crc32 : List UInt8 → UInt32

/-- `put_u32` -/
def u32Bytes (value : UInt32) : List UInt8 := BigEndian.toBytes 4 value.toNat

/-- `get_u32` -/
def u32OfBytes (bytes : List UInt8) : UInt32 := UInt32.ofNat (BigEndian.ofBytes (bytes.take 4))

/-- The data and the checksum behind it; `none` when the slice is out of range, which is a
    panic. -/
def splitChecksum (decompressed : List UInt8) : Option (List UInt8 × UInt32) :=
  if decompressed.length < 4 then none
  else some (decompressed.take (decompressed.length - 4),
    u32OfBytes (decompressed.drop (decompressed.length - 4)))

structure GetResult where
  body : List UInt8
  version : String
  deriving DecidableEq

structure ObjectStore where
  codec : Codec
  keyPrefix : String
  /-- The request to the backend. -/
  getObject : String → Except (Report ObjectStoreError) (String × List UInt8)

namespace ObjectStore

def fullKey (store : ObjectStore) (path : String) : String := store.keyPrefix ++ path

def get (store : ObjectStore) (path : String) : Outcome ObjectStoreError GetResult :=
  let key := store.fullKey path
  match store.getObject key with
  | .error report => .error (.error ⟨report.context, report.attachments ++ ["failed to get object", "key: " ++ key]⟩)
  | .ok (version, body) =>
    match store.codec.decode body with
    | none => Outcome.fail .request []
    | some decompressed =>
      match splitChecksum decompressed with
      | none => .error .panic
      | some (data, checksum) =>
        if store.codec.crc32 data ≠ checksum then
          Outcome.fail .checksumMismatch ["checksum mismatch", "key: " ++ key]
        else .ok ⟨data, version⟩

/-- The key and the bytes that the backend is asked to put. -/
def put (store : ObjectStore) (path : String) (body : List UInt8) : String × List UInt8 :=
  (store.fullKey path, store.codec.encode (body ++ u32Bytes (store.codec.crc32 body)))

end ObjectStore

/-! ## The command line tool -/

namespace CanonCommand

variable (codec : Codec)

/-- `read_segment_from_path` up to the check of the checksum. -/
def readData (compressed : List UInt8) : Outcome StarknetError (List UInt8) :=
  match codec.decode compressed with
  | none => Outcome.fail {} ["failed to decompress file"]
  | some decompressed =>
    match splitChecksum decompressed with
    | none => .error .panic
    | some (data, checksum) =>
      if codec.crc32 data ≠ checksum then Outcome.fail {} ["checksum mismatch"] else .ok data

/-- `write_segment_to_path` after the segment was serialized. -/
def writeData (serialized : List UInt8) : List UInt8 :=
  codec.encode (serialized ++ u32Bytes (codec.crc32 serialized))

end CanonCommand

/-! ## What a decoder answers -/

/-- The answer to a request for a stored object is the data whose checksum is behind it, or
    an error. -/
def ObjectStore.Answers (codec : Codec) (stored : List UInt8) : Outcome ObjectStoreError GetResult → Prop
  | .ok result => codec.decode stored = some (result.body ++ u32Bytes (codec.crc32 result.body))
  | .error (.error _) => True
  | .error .panic => False

theorem u32OfBytes_u32Bytes (value : UInt32) : u32OfBytes (u32Bytes value) = value := by
  have small : value.toNat < 256 ^ 4 := value.toNat_lt
  rw [u32OfBytes, u32Bytes, List.take_of_length_le (by rw [BigEndian.toBytes_length]),
    BigEndian.ofBytes_toBytes small, UInt32.ofNat_toNat]

theorem u32Bytes_u32OfBytes {bytes : List UInt8} (length : bytes.length = 4) :
    u32Bytes (u32OfBytes bytes) = bytes := by
  have small : BigEndian.ofBytes bytes < 2 ^ 32 := by
    have bound := BigEndian.ofBytes_lt bytes
    rw [length] at bound
    exact bound
  rw [u32OfBytes, u32Bytes, List.take_of_length_le (by rw [length]), UInt32.toNat_ofNat_of_lt' small, ← length,
    BigEndian.toBytes_ofBytes]

theorem splitChecksum_append (data : List UInt8) (checksum : UInt32) :
    splitChecksum (data ++ u32Bytes checksum) = some (data, checksum) := by
  have length : (data ++ u32Bytes checksum).length = data.length + 4 := by
    rw [List.length_append, u32Bytes, BigEndian.toBytes_length]
  rw [splitChecksum, if_neg (by omega), length, Nat.add_sub_cancel, List.take_left', List.drop_left',
    u32OfBytes_u32Bytes] <;> rfl

theorem splitChecksum_some {decompressed data checksum} (split : splitChecksum decompressed = some (data, checksum)) :
    decompressed = data ++ u32Bytes checksum := by
  rw [splitChecksum, Option.ite_none_left_eq_some, Option.some.injEq, Prod.mk.injEq] at split
  obtain ⟨_, rfl, rfl⟩ := split
  rw [u32Bytes_u32OfBytes (by rw [List.length_drop]; omega), List.take_append_drop]

theorem splitChecksum_none_iff (decompressed : List UInt8) :
    splitChecksum decompressed = none ↔ decompressed.length < 4 := by
  rw [splitChecksum]
  split_ifs with short
  · exact iff_of_true rfl short
  · exact iff_of_false nofun short

namespace CanonCommand

variable {codec : Codec}

theorem readData_checked {compressed data}
    (checked : codec.decode compressed = some (data ++ u32Bytes (codec.crc32 data))) :
    readData codec compressed = .ok data := by
  simp only [readData, checked, splitChecksum_append, ne_eq, not_true, if_false]

end CanonCommand

namespace ObjectStore

variable {store : ObjectStore} {path version : String} {stored : List UInt8}

section
variable (found : store.getObject (store.fullKey path) = .ok (version, stored))
include found

theorem get_checked {data} (checked : store.codec.decode stored = some (data ++ u32Bytes (store.codec.crc32 data))) :
    store.get path = .ok ⟨data, version⟩ := by
  simp only [get, found, checked, splitChecksum_append, ne_eq, not_true, if_false]

theorem get_answers_iff :
    Answers store.codec stored (store.get path) ↔
      ∀ decompressed, store.codec.decode stored = some decompressed → 4 ≤ decompressed.length := by
  cases decoded : store.codec.decode stored with
  | none =>
    simp only [get, found, decoded]
    exact iff_of_true trivial nofun
  | some decompressed =>
    simp only [Option.some.injEq, forall_eq']
    cases split : splitChecksum decompressed with
    | none =>
      simp only [get, found, decoded, split]
      exact iff_of_false (fun answers => answers) (not_le.mpr ((splitChecksum_none_iff _).mp split))
    | some parts =>
      obtain ⟨_, _⟩ := parts
      have long : 4 ≤ decompressed.length := by
        by_contra short
        rw [(splitChecksum_none_iff _).mpr (not_le.mp short)] at split
        cases split
      simp only [get, found, decoded, split]
      refine iff_of_true ?_ long
      split_ifs with mismatch
      · trivial
      · rw [not_not] at mismatch
        rw [Answers, decoded, splitChecksum_some split, mismatch]

end

/-- What either encoder wrote is read back by both decoders.  Of any other object the store
    returns the data with a matching checksum or an error, exactly when it does not
    decompress to fewer than four bytes. -/
theorem get_envelope (store : ObjectStore) {path version : String} {stored : List UInt8}
    (found : store.getObject (store.fullKey path) = .ok (version, stored)) :
    (∀ body, stored = (store.put path body).2 ∨ stored = CanonCommand.writeData store.codec body →
      store.get path = .ok ⟨body, version⟩ ∧ CanonCommand.readData store.codec stored = .ok body) ∧
    (Answers store.codec stored (store.get path) ↔
      ∀ decompressed, store.codec.decode stored = some decompressed → 4 ≤ decompressed.length) := by
  refine ⟨?_, get_answers_iff found⟩
  intro body written
  have checked : store.codec.decode stored = some (body ++ u32Bytes (store.codec.crc32 body)) := by
    rcases written with rfl | rfl <;> exact store.codec.decode_encode _
  exact ⟨get_checked found checked, CanonCommand.readData_checked checked⟩

end ObjectStore

/-- The CRC-32 of `crc32fast`, bit by bit. -/
def bitwiseCrc32 (bytes : List UInt8) : UInt32 :=
  let shift (crc : UInt32) : UInt32 := if crc &&& 1 = 1 then (crc >>> 1) ^^^ 0xEDB88320 else crc >>> 1
  bytes.foldl (fun crc byte => shift^[8] (crc ^^^ byte.toUInt32)) 0xFFFFFFFF ^^^ 0xFFFFFFFF

/-- The frame that `zstd` writes for a few bytes: they are one raw block. -/
def Codec.rawBlock : Codec where
  encode bytes :=
    let header := bytes.length * 8 + 1
    [0x28, 0xB5, 0x2F, 0xFD, 0x00, 0x58, .ofNat header, .ofNat (header / 256), .ofNat (header / 65536)] ++ bytes
  decode
    | 0x28 :: 0xB5 :: 0x2F :: 0xFD :: 0x00 :: 0x58 :: _ :: _ :: _ :: bytes => some bytes
    | _ => none
  decode_encode _ := rfl
  crc32 := bitwiseCrc32

/-- A store in which every object is the given one. -/
def ObjectStore.holding (stored : List UInt8) : ObjectStore := ⟨.rawBlock, "", fun _ => .ok ("1", stored)⟩

/-- The object with the one byte 7. -/
def seven : List UInt8 := [0x28, 0xB5, 0x2F, 0xFD, 0x00, 0x58, 0x29, 0x00, 0x00, 7, 0x4C, 0x66, 0x7A, 0x2E]

theorem ObjectStore.get_envelope_holding : (ObjectStore.holding seven).get "canon/recent" = .ok ⟨[7], "1"⟩ ∧
    CanonCommand.readData Codec.rawBlock seven = .ok [7] :=
  (get_envelope (.holding seven) rfl).1 [7] (.inl (by decide +kernel))

/-- An object that decompresses to three bytes makes the store panic. -/
theorem ObjectStore.get_short_object :
    (ObjectStore.holding (Codec.rawBlock.encode [1, 2, 3])).get "canon/recent" = .error .panic ∧
      ¬ Answers Codec.rawBlock (Codec.rawBlock.encode [1, 2, 3])
        ((ObjectStore.holding (Codec.rawBlock.encode [1, 2, 3])).get "canon/recent") :=
  ⟨rfl, fun answers => answers⟩

end Starkstream.Envelope
