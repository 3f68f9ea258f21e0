import Starkstream.Ingestion.Ticks
import Starkstream.Lib.BigEndian

/-! # The head cursor from the two sources

A new head reaches the ingestion service from the websocket subscription and
from the HTTP provider.  The websocket decodes the hexadecimal hash into as many
bytes as its digits need; the HTTP block encodes the felt in 32 bytes.  The JSON
parser and the hex decoder are outside of the repository: what is assumed of the
decoder is a field of `HexCrate`, of the parser only its answer is used.
-/

namespace Starkstream

open IngestionService

inductive StarknetProviderError where
  | request
  | timeout
  | notFound
  | configuration
  deriving DecidableEq

def digitValue (char : Char) : Option (Fin 16) :=
  if '0' ≤ char ∧ char ≤ '9' then some (Fin.ofNat 16 (char.toNat - '0'.toNat))
  else if 'a' ≤ char ∧ char ≤ 'f' then some (Fin.ofNat 16 (char.toNat - 'a'.toNat + 10))
  else if 'A' ≤ char ∧ char ≤ 'F' then some (Fin.ofNat 16 (char.toNat - 'A'.toNat + 10))
  else none

structure HexDigit where
  char : Char
  value : Fin 16
  valid : digitValue char = some value

inductive FromHexError where
  | invalidHexCharacter (char : Char) (index : Nat)
  | oddLength
  | invalidStringLength

/-- The `hex` crate: a byte is encoded to two digits, and two digits are decoded to one byte. -/
structure HexCrate where
  encode : List UInt8 → String
  encode_eq : ∀ bytes, encode bytes = Hash.toHex ⟨bytes⟩
  decode : List Char → Except FromHexError (List UInt8)
  decode_pairs : ∀ pairs : List (HexDigit × HexDigit),
    decode (pairs.flatMap fun pair => [pair.1.char, pair.2.char]) =
      .ok (pairs.map fun pair => BigEndian.byteOf pair.1.value pair.2.value)

/-- `trim_start_matches("0x")` removes every leading occurrence. -/
def trimStartMatches0x : List Char → List Char
  | '0' :: 'x' :: rest => trimStartMatches0x rest
  | chars => chars

def byteLen (chars : List Char) : Nat := (chars.map Char.utf8Size).sum

def decodeHexFelt (crate : HexCrate) (hex : List Char) : Except FromHexError (List UInt8) :=
  let hex := trimStartMatches0x hex
  let hex := if byteLen hex % 2 = 1 then '0' :: hex else hex
  crate.decode hex

structure WsBlockResult where
  blockHash : List Char
  blockNumber : Nat

/-- A websocket message; only text is looked at. -/
inductive WebSocketMessage where
  | text (text : String)
  | other

structure NewHeadMessage where
  blockNumber : Nat
  blockHash : Hash

namespace NewHeadMessage

def cursor (message : NewHeadMessage) : Cursor := ⟨message.blockNumber, message.blockHash⟩

/-- `serdeJson` is the parser for the expected message: `none` when it fails, and
    the inner option is the `params` of the message. -/
def tryFromMessage (serdeJson : String → Option (Option WsBlockResult)) (crate : HexCrate) :
    WebSocketMessage → Outcome StarknetProviderError (Option NewHeadMessage)
  | .other => .ok none
  | .text text =>
    match serdeJson text with
    | none => Outcome.fail .request ["failed to parse websocket message as json"]
    | some none => .ok none
    | some (some result) =>
      match decodeHexFelt crate result.blockHash with
      | .error _ =>
        Outcome.fail .request ["failed to decode block_hash: " ++ String.ofList result.blockHash]
      | .ok blockHash => .ok (some ⟨result.blockNumber, ⟨blockHash⟩⟩)

end NewHeadMessage

/-- A field element. -/
structure Felt where
  value : Nat
  reduced : value < 2 ^ 251 + 17 * 2 ^ 192 + 1

def Felt.toBytesBe (felt : Felt) : List UInt8 := BigEndian.toBytes 32 felt.value

structure BlockWithTxHashes where
  blockNumber : Nat
  blockHash : Felt

inductive MaybePreConfirmedBlockWithTxHashes where
  | block (block : BlockWithTxHashes)
  | preConfirmedBlock

/-- `BlockExt::cursor`. -/
def MaybePreConfirmedBlockWithTxHashes.cursor : MaybePreConfirmedBlockWithTxHashes → Option Cursor
  | .preConfirmedBlock => none
  | .block confirmed => some ⟨confirmed.blockNumber, ⟨confirmed.blockHash.toBytesBe⟩⟩

/-- The digits, after the `0x`, with which a node may send a felt. -/
structure Renders (felt : Felt) (digits : List HexDigit) : Prop where
  some : 0 < digits.length
  upTo : digits.length ≤ 64
  value : BigEndian.ofNibbles (digits.map (·.value)) = felt.value

/-- A head refresh with one of the two cursors, while the head held is the other,
    leaves the service and its state as they are. -/
def Interchangeable (left right : Cursor) : Prop :=
  ∀ service state, (state.head = left → tickRefreshHead service state right = (service, .ingest state)) ∧
    (state.head = right → tickRefreshHead service state left = (service, .ingest state))

theorem digitValue_x : digitValue 'x' = none := by decide

theorem HexDigit.utf8Size (digit : HexDigit) : digit.char.utf8Size = 1 := by
  have valid := digit.valid
  unfold digitValue at valid
  have upper : digit.char ≤ 'f' := by
    split_ifs at valid with decimal lower capital
    · exact decimal.2.trans (by decide)
    · exact lower.2
    · exact capital.2.trans (by decide)
  have small : digit.char.val ≤ 127 := UInt32.le_trans (b := ('f').val) upper (by decide)
  exact if_pos small

theorem byteLen_digits (digits : List HexDigit) : byteLen (digits.map (·.char)) = digits.length := by
  simp [byteLen, Function.comp_def, HexDigit.utf8Size]

/-- A digit is no `x`, so only the prefix is removed. -/
theorem trimStart_digits (digits : List HexDigit) :
    trimStartMatches0x (digits.map (·.char)) = digits.map (·.char) := by
  match digits with
  | [] => rfl
  | [digit] =>
    rw [List.map_singleton, trimStartMatches0x]
    exact fun _ impossible => absurd impossible (by simp)
  | first :: second :: rest =>
    rw [List.map_cons, List.map_cons, trimStartMatches0x]
    intro tail same
    have isX : second.char = 'x' := (List.cons.inj (List.cons.inj same).2).1
    have valid := second.valid
    rw [isX, digitValue_x] at valid
    cases valid

def HexDigit.zero : HexDigit := ⟨'0', 0, by decide⟩

/-- The websocket decodes the digits to half as many bytes, rounded up. -/
theorem decodeHexFelt_digits (crate : HexCrate) (digits : List HexDigit) :
    ∃ bytes, decodeHexFelt crate ('0' :: 'x' :: digits.map (·.char)) = .ok bytes ∧
      bytes.length = (digits.length + 1) / 2 ∧
      BigEndian.ofBytes bytes = BigEndian.ofNibbles (digits.map (·.value)) := by
  have padded : ∃ even : List HexDigit, even.length % 2 = 0 ∧ even.length / 2 = (digits.length + 1) / 2 ∧
      BigEndian.ofNibbles (even.map (·.value)) = BigEndian.ofNibbles (digits.map (·.value)) ∧
      decodeHexFelt crate ('0' :: 'x' :: digits.map (·.char)) = crate.decode (even.map (·.char)) := by
    have trimmed : trimStartMatches0x ('0' :: 'x' :: digits.map (·.char)) = digits.map (·.char) :=
      trimStart_digits digits
    rw [decodeHexFelt, trimmed]
    simp only [byteLen_digits]
    by_cases odd : digits.length % 2 = 1
    · refine ⟨.zero :: digits, ?_, ?_, BigEndian.ofNibbles_zero_cons _, by rw [if_pos odd]; rfl⟩
      · rw [List.length_cons]
        omega
      · rw [List.length_cons]
    · exact ⟨digits, by omega, by omega, rfl, by rw [if_neg odd]⟩
  obtain ⟨even, isEven, _, sameValue, decoded⟩ := padded
  obtain ⟨pairs, rfl, _⟩ := BigEndian.exists_pairs even isEven
  refine ⟨pairs.map fun pair => BigEndian.byteOf pair.1.value pair.2.value, ?_, ?_, ?_⟩
  · rw [decoded, List.map_flatMap]
    exact crate.decode_pairs pairs
  · rw [List.length_map]
    omega
  · rw [← sameValue, List.map_flatMap]
    have joined := BigEndian.ofBytes_pairs (pairs.map fun pair => (pair.1.value, pair.2.value))
    rw [List.map_map, List.flatMap_map] at joined
    exact joined

/-- A head at the height of the one held, which is ingested, is a reorg. -/
theorem tickRefreshHead_replaced (service : IngestionService) {state : IngestState} {head : Cursor}
    (ingested : state.lastIngested = state.head) (level : head.number = state.head.number)
    (other : state.head ≠ head) : tickRefreshHead service state head = (service, recoverFrom state) := by
  rcases tickRefreshHead_cases service state head with ⟨same, -⟩ | ⟨-, -, -, reorged⟩ | ⟨-, ahead, -⟩
  · exact absurd same other
  · exact reorged
  · rw [ingested, level] at ahead
    exact absurd ahead (by simp)

/-- Two cursors are interchangeable only when they are equal, byte for byte. -/
theorem interchangeable_iff (left right : Cursor) : Interchangeable left right ↔ left = right := by
  constructor
  · intro same
    obtain ⟨unchanged, -⟩ := same (.new .default false)
      { finalized := left, head := left, lastIngested := left, queuedBlockNumber := left.number
        pendingBlockState := .default }
    have kept := unchanged rfl
    rcases tickRefreshHead_cases (.new .default false)
        { finalized := left, head := left, lastIngested := left, queuedBlockNumber := left.number
          pendingBlockState := .default } right with
      ⟨equal, -⟩ | ⟨-, -, -, reorged⟩ | ⟨-, -, moved⟩
    · exact equal
    · rw [reorged] at kept
      cases kept
    · rw [moved] at kept
      injection kept with _ states
      injection states with states
      injection states with _ heads
      exact heads.symm
  · rintro rfl service state
    exact ⟨fun held => if_pos held, fun held => if_pos held⟩

/-- The websocket message and the HTTP block of the same number and hash give
    the same cursor, and one that the ingestion service cannot tell from the
    other, exactly when the node renders the hash with 63 or 64 digits. -/
theorem NewHeadMessage.cursor_eq_iff (serdeJson : String → Option (Option WsBlockResult)) (crate : HexCrate)
    (number : Nat) (felt : Felt) {digits : List HexDigit} (renders : Renders felt digits) {text : String}
    (parsed : serdeJson text = some (some ⟨'0' :: 'x' :: digits.map (·.char), number⟩)) :
    (∃ message http, tryFromMessage serdeJson crate (.text text) = .ok (some message) ∧
      MaybePreConfirmedBlockWithTxHashes.cursor (.block ⟨number, felt⟩) = some http ∧
      message.cursor = http ∧ Interchangeable message.cursor http) ↔ 63 ≤ digits.length := by
  obtain ⟨bytes, decoded, count, encoded⟩ := decodeHexFelt_digits crate digits
  have received : tryFromMessage serdeJson crate (.text text) = .ok (some ⟨number, ⟨bytes⟩⟩) := by
    simp only [tryFromMessage, parsed, decoded]
  have upTo := renders.upTo
  constructor
  · rintro ⟨message, http, isMessage, isHttp, same, -⟩
    cases received.symm.trans isMessage
    cases isHttp
    have sameBytes : bytes = felt.toBytesBe := congrArg (fun cursor => cursor.hash.bytes) same
    have sameLength := congrArg List.length sameBytes
    rw [count, Felt.toBytesBe, BigEndian.toBytes_length] at sameLength
    omega
  · intro full
    have width : bytes.length = 32 := by omega
    have sameBytes : bytes = felt.toBytesBe := by
      rw [Felt.toBytesBe, ← renders.value, ← encoded, ← width, BigEndian.toBytes_ofBytes]
    refine ⟨⟨number, ⟨bytes⟩⟩, _, received, rfl, ?_, ?_⟩
    · rw [sameBytes]
      rfl
    · rw [interchangeable_iff, sameBytes]
      rfl

/-- Decode two digits at a time; `index` is the position of the first of them. -/
def decodePairs : Nat → List Char → Except FromHexError (List UInt8)
  | _, [] => .ok []
  | _, [_] => .error .oddLength
  | index, first :: second :: rest =>
    match digitValue first, digitValue second with
    | none, _ => .error (.invalidHexCharacter first index)
    | _, none => .error (.invalidHexCharacter second (index + 1))
    | some high, some low => (decodePairs (index + 2) rest).map (BigEndian.byteOf high low :: ·)

theorem decodePairs_digits (pairs : List (HexDigit × HexDigit)) (index : Nat) :
    decodePairs index (pairs.flatMap fun pair => [pair.1.char, pair.2.char]) =
      .ok (pairs.map fun pair => BigEndian.byteOf pair.1.value pair.2.value) := by
  induction pairs generalizing index with
  | nil => rfl
  | cons pair rest ih =>
    simp only [List.flatMap_cons, List.cons_append, List.nil_append, decodePairs, pair.1.valid,
      pair.2.valid, ih]
    rfl

def HexCrate.pairwise : HexCrate where
  encode bytes := Hash.toHex ⟨bytes⟩
  encode_eq _ := rfl
  decode := decodePairs 0
  decode_pairs pairs := decodePairs_digits pairs 0

def HexDigit.one : HexDigit := ⟨'1', 1, by decide⟩

/-- The hash whose digits are `count` ones. -/
def repunit (count : Fin 64) : Felt where
  value := BigEndian.ofNibbles (List.replicate count 1)
  reduced := by revert count; decide

/-- The parser applied to a message about block 7 with that hash. -/
def repunitMessage (count : Fin 64) (_ : String) : Option (Option WsBlockResult) :=
  some (some ⟨'0' :: 'x' :: (List.replicate count HexDigit.one).map (·.char), 7⟩)

theorem NewHeadMessage.cursor_eq_63 :
    Renders (repunit 63) (List.replicate 63 HexDigit.one) ∧
    ∃ message http, tryFromMessage (repunitMessage 63) .pairwise (.text "") = .ok (some message) ∧
      MaybePreConfirmedBlockWithTxHashes.cursor (.block ⟨7, repunit 63⟩) = some http ∧
      message.cursor = http ∧ Interchangeable message.cursor http := by
  have renders : Renders (repunit 63) (List.replicate 63 HexDigit.one) := ⟨by decide, by decide, by decide⟩
  exact ⟨renders, (cursor_eq_iff (repunitMessage 63) .pairwise 7 (repunit 63) renders rfl).mpr (by decide)⟩

/-- A hash of 62 digits arrives as 31 bytes over the websocket, and the service
    that holds the head of the HTTP provider goes to recovery. -/
theorem NewHeadMessage.cursor_ne_62 :
    Renders (repunit 62) (List.replicate 62 HexDigit.one) ∧
    ∃ message http state, tryFromMessage (repunitMessage 62) .pairwise (.text "") = .ok (some message) ∧
      MaybePreConfirmedBlockWithTxHashes.cursor (.block ⟨7, repunit 62⟩) = some http ∧
      message.cursor ≠ http ∧ state.head = http ∧ state.lastIngested = http ∧
      (tickRefreshHead (.new .default false) state message.cursor).2 = recoverFrom state := by
  have renders : Renders (repunit 62) (List.replicate 62 HexDigit.one) := ⟨by decide, by decide, by decide⟩
  have different : (⟨7, ⟨List.replicate 31 17⟩⟩ : Cursor) ≠ ⟨7, ⟨(repunit 62).toBytesBe⟩⟩ := by decide
  refine ⟨renders, ⟨7, ⟨List.replicate 31 17⟩⟩, ⟨7, ⟨(repunit 62).toBytesBe⟩⟩,
    ⟨default, _, _, 7, .default⟩, rfl, rfl, different, rfl, rfl, ?_⟩
  rw [tickRefreshHead_replaced]
  · rfl
  · rfl
  · exact different.symm

end Starkstream
