import Starkstream.Provider.HeadCursor

/-! # The stream of new heads

`NewHeadsStream` turns the messages of a websocket into heads.  Messages arrive at any
time, the stream is polled at any time.  A message without a head, such as the answer to
the subscription itself, makes `poll_next` return `Pending` although the socket did not:
no waker is registered then, and what is behind the message stays unread until something
else polls the stream.
-/

namespace Starkstream

inductive Poll (α : Type) where
  | pending
  | ready (value : α)

/-- What the socket receives. -/
inductive Received where
  | message (message : WebSocketMessage)
  | error

/-- The read half of the socket. -/
structure Socket where
  unread : List Received
  ended : Bool
  /-- The task is woken up when something arrives. -/
  waker : Bool

namespace Socket

def connected : Socket := ⟨[], false, false⟩

/-- `poll_next` of the socket: it registers the waker when it has nothing. -/
def pollNext (socket : Socket) : Poll (Option Received) × Socket :=
  match socket.unread with
  | received :: rest => (.ready (some received), { socket with unread := rest })
  | [] => if socket.ended then (.ready none, socket) else (.pending, { socket with waker := true })

end Socket

abbrev NewHeadItem := Outcome StarknetProviderError NewHeadMessage

section

variable (serdeJson : String → Option (Option WsBlockResult)) (crate : HexCrate)

/-- `poll_next` of `NewHeadsStream`. -/
def NewHeadsStream.pollNext (inner : Socket) : Poll (Option NewHeadItem) × Socket :=
  match inner.pollNext with
  | (.pending, inner) => (.pending, inner)
  | (.ready none, inner) => (.ready none, inner)
  | (.ready (some (.message message)), inner) =>
    match NewHeadMessage.tryFromMessage serdeJson crate message with
    | .ok none => (.pending, inner)
    | .ok (some head) => (.ready (some (.ok head)), inner)
    | .error fault => (.ready (some (.error fault)), inner)
  | (.ready (some .error), inner) => (.ready (some (Outcome.fail .request [])), inner)

/-- The item due for what was received: a head for a notification, an error for a text that
    cannot be read and for a transport error. -/
def Received.item : Received → Option NewHeadItem
  | .error => some (Outcome.fail .request [])
  | .message text =>
    match NewHeadMessage.tryFromMessage serdeJson crate text with
    | .ok none => none
    | .ok (some head) => some (.ok head)
    | .error fault => some (.error fault)

end

/-- The stream with what arrived and what it yielded. -/
structure HeadsSession where
  inner : Socket
  arrived : List Received
  yielded : List NewHeadItem

inductive HeadsInput where
  | arrive (received : Received)
  | close
  | poll

namespace HeadsSession

variable (serdeJson : String → Option (Option WsBlockResult)) (crate : HexCrate)

def start : HeadsSession := ⟨.connected, [], []⟩

def step (session : HeadsSession) : HeadsInput → Option HeadsSession
  | .arrive received =>
    if session.inner.ended then none
    else some
      { session with
        inner := { session.inner with unread := session.inner.unread ++ [received], waker := false }
        arrived := session.arrived ++ [received] }
  | .close => some { session with inner := { session.inner with ended := true, waker := false } }
  | .poll =>
    match NewHeadsStream.pollNext serdeJson crate session.inner with
    | (.ready (some item), inner) => some { session with inner, yielded := session.yielded ++ [item] }
    | (_, inner) => some { session with inner }

/-- The items are those of the messages that were read, in order. -/
def Delivers (session : HeadsSession) : Prop :=
  ∃ read, session.arrived = read ++ session.inner.unread ∧
    session.yielded = read.filterMap (Received.item serdeJson crate)

/-- A poll that returns `Pending` leaves nothing unread, and the socket wakes the task up. -/
def ParksIdle (session : HeadsSession) : HeadsInput → Prop
  | .poll => ∀ inner, NewHeadsStream.pollNext serdeJson crate session.inner = (.pending, inner) →
      session.inner.pollNext = (.pending, inner) ∧ inner.unread = [] ∧ inner.waker = true
  | _ => True

def ReadsItem (session : HeadsSession) : HeadsInput → Prop
  | .poll => ∀ received rest, session.inner.unread = received :: rest → received.item serdeJson crate ≠ none
  | _ => True

end HeadsSession

theorem NewHeadsStream.pollNext_cases (serdeJson : String → Option (Option WsBlockResult)) (crate : HexCrate)
    (inner : Socket) :
    (∃ received rest, inner.unread = received :: rest ∧
      pollNext serdeJson crate inner =
        (match received.item serdeJson crate with
          | some item => .ready (some item)
          | none => .pending, { inner with unread := rest })) ∨
    (inner.unread = [] ∧ inner.ended = true ∧ pollNext serdeJson crate inner = (.ready none, inner)) ∨
    (inner.unread = [] ∧ inner.pollNext = (.pending, { inner with waker := true }) ∧
      pollNext serdeJson crate inner = (.pending, { inner with waker := true })) := by
  obtain ⟨unread, ended, -⟩ := inner
  cases unread with
  | cons received rest =>
    refine .inl ⟨received, rest, rfl, ?_⟩
    cases received with
    | error => rfl
    | message text =>
      simp only [pollNext, Socket.pollNext, Received.item]
      cases NewHeadMessage.tryFromMessage serdeJson crate text with
      | error => rfl
      | ok head => cases head <;> rfl
  | nil =>
    cases ended with
    | true => exact .inr (.inl ⟨rfl, rfl, rfl⟩)
    | false => exact .inr (.inr ⟨rfl, rfl, rfl⟩)

namespace HeadsSession

variable {serdeJson : String → Option (Option WsBlockResult)} {crate : HexCrate} {session next : HeadsSession}

theorem Delivers.step (delivers : session.Delivers serdeJson crate) {input}
    (stepped : session.step serdeJson crate input = some next) : next.Delivers serdeJson crate := by
  obtain ⟨read, arrived, yielded⟩ := delivers
  cases input with
  | arrive =>
    rw [HeadsSession.step, Option.ite_none_left_eq_some] at stepped
    cases stepped.2
    refine ⟨read, ?_, yielded⟩
    rw [arrived, List.append_assoc]
  | close =>
    cases stepped
    exact ⟨read, arrived, yielded⟩
  | poll =>
    rw [HeadsSession.step] at stepped
    rcases NewHeadsStream.pollNext_cases serdeJson crate session.inner with
      ⟨received, _, unread, polled⟩ | ⟨-, -, polled⟩ | ⟨-, -, polled⟩
    · -- the message is read, with its item if it has one
      rw [unread] at arrived
      cases due : received.item serdeJson crate with
      | some =>
        simp only [polled, due] at stepped
        cases stepped
        refine ⟨read ++ [received], ?_, ?_⟩
        · rw [arrived, List.append_assoc, List.singleton_append]
        · simp only [yielded, List.filterMap_append, List.filterMap_cons, due, List.filterMap_nil]
      | none =>
        simp only [polled, due] at stepped
        cases stepped
        refine ⟨read ++ [received], ?_, ?_⟩
        · rw [arrived, List.append_assoc, List.singleton_append]
        · simp only [yielded, List.filterMap_append, List.filterMap_cons, due, List.filterMap_nil, List.append_nil]
    · simp only [polled] at stepped
      cases stepped
      exact ⟨read, arrived, yielded⟩
    · simp only [polled] at stepped
      cases stepped
      exact ⟨read, arrived, yielded⟩

/-- A poll parks although a message is there exactly when that message has no item. -/
theorem parksIdle_iff_readsItem (session : HeadsSession) (input : HeadsInput) :
    session.ParksIdle serdeJson crate input ↔ session.ReadsItem serdeJson crate input := by
  cases input with
  | arrive | close => exact Iff.rfl
  | poll =>
    rw [ParksIdle, ReadsItem]
    rcases NewHeadsStream.pollNext_cases serdeJson crate session.inner with
      ⟨received, rest, unread, polled⟩ | ⟨unread, -, polled⟩ | ⟨unread, socket, polled⟩
    · cases due : received.item serdeJson crate with
      | some item =>
        rw [polled, due, unread]
        refine iff_of_true nofun ?_
        rintro _ _ ⟨⟩
        rw [due]
        exact Option.some_ne_none item
      | none =>
        rw [polled, due, unread]
        refine iff_of_false ?_ ?_
        · intro parks
          have socket := (parks _ rfl).1
          rw [Socket.pollNext, unread] at socket
          cases socket
        · intro reads
          exact reads received rest rfl due
    · rw [polled, unread]
      exact iff_of_true nofun nofun
    · rw [polled, unread]
      refine iff_of_true ?_ nofun
      rintro _ ⟨⟩
      rw [unread] at socket
      exact ⟨socket, rfl, rfl⟩

end HeadsSession

/-- In every run the items are those of the messages that were read, in order; and every
    poll that parks does so on an empty socket, exactly when no poll meets a message without
    an item. -/
theorem HeadsSession.delivers_and_parks_iff (serdeJson : String → Option (Option WsBlockResult)) (crate : HexCrate)
    (inputs : List HeadsInput) :
    (∀ session, Runs.run (step serdeJson crate) start inputs = some session → session.Delivers serdeJson crate) ∧
    (Runs.Meets (step serdeJson crate) (ParksIdle serdeJson crate) start inputs ↔
      Runs.Meets (step serdeJson crate) (ReadsItem serdeJson crate) start inputs) := by
  constructor
  · intro session reached
    exact Runs.run_invariant (fun _ _ _ _ before stepped => before.step stepped) ⟨[], rfl, rfl⟩ reached
  · have same : ParksIdle serdeJson crate = ReadsItem serdeJson crate := by
      funext session input
      exact propext (parksIdle_iff_readsItem session input)
    rw [same]

namespace Subscribed

/-- The answer of the node to the subscription. -/
def subscribed : String := "\x7b\"jsonrpc\":\"2.0\",\"id\":0,\"result\":\"4711\"\x7d"

/-- A notification.  The header has further fields, which are not read. -/
def newHead : String :=
  "\x7b\"jsonrpc\":\"2.0\",\"method\":\"starknet_subscriptionNewHeads\",\"params\":\x7b\"subscription_id\":\"4711\"," ++
    "\"result\":\x7b\"block_hash\":\"0x01\",\"parent_hash\":\"0x02\",\"block_number\":7\x7d\x7d\x7d"

/-- The parser for the two messages: the answer has no `params`. -/
def parse (text : String) : Option (Option WsBlockResult) :=
  if text = subscribed then some none
  else if text = newHead then some (some ⟨['0', 'x', '0', '1'], 7⟩)
  else none

/-- The answer to the subscription and a head are there before the first poll. -/
def inputs : List HeadsInput := [.arrive (.message (.text subscribed)), .arrive (.message (.text newHead))]

end Subscribed

/-- The first poll returns `Pending` while the head is unread, and nothing will wake the
    task up. -/
theorem HeadsSession.parks_subscribed :
    ∃ session inner, Runs.run (step Subscribed.parse .pairwise) start Subscribed.inputs = some session ∧
      NewHeadsStream.pollNext Subscribed.parse .pairwise session.inner = (.pending, inner) ∧
      session.inner.pollNext.1 = .ready (some (.message (.text Subscribed.subscribed))) ∧
      inner.unread = [.message (.text Subscribed.newHead)] ∧ inner.waker = false ∧
      ¬ session.ParksIdle Subscribed.parse .pairwise .poll := by
  refine ⟨_, _, rfl, rfl, rfl, rfl, rfl, ?_⟩
  intro parks
  cases (parks _ rfl).2.1

end Starkstream
