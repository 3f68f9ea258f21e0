import Mathlib

/-! # Hashes, cursors and error reports

The value types every other module speaks about.  Block numbers are `u64` in
the source and natural numbers here: no function below adds to a number other
than the number of a block it already holds.  Errors keep the context and the
printable attachments of the report, in the order in which they were attached;
a panic is an outcome of its own.
-/

namespace Starkstream

/-- Arbitrary length hash. -/
structure Hash where
  bytes : List UInt8
  deriving DecidableEq, Inhabited

namespace Hash

def len (hash : Hash) : Nat := hash.bytes.length

def isEmpty (hash : Hash) : Bool := hash.bytes.isEmpty

/-- The empty hash counts as zero: it has no byte that differs from zero. -/
def isZero (hash : Hash) : Bool := hash.bytes.all (· == 0)

/-- Byte-wise lexicographic order, the order the source derives. -/
instance : Ord Hash := ⟨compareOn Hash.bytes⟩

instance : Std.TransOrd Hash := inferInstanceAs (Std.TransCmp (compareOn Hash.bytes))

instance : Std.LawfulEqOrd Hash where
  eq_of_compare {a b} same := by
    cases a
    cases b
    exact congrArg Hash.mk (Std.LawfulEqOrd.eq_of_compare same)

/-- The lower case hexadecimal digit of a number below sixteen. -/
def hexDigit (nibble : Nat) : Char :=
  if nibble < 10 then Char.ofNat (48 + nibble) else Char.ofNat (87 + nibble)

/-- What `hex::encode` is assumed to write. -/
def toHex (hash : Hash) : String :=
  String.ofList (hash.bytes.flatMap fun byte => [hexDigit (byte.toNat / 16), hexDigit (byte.toNat % 16)])

def display (hash : Hash) : String :=
  if hash.isEmpty then "0x0" else "0x" ++ hash.toHex

end Hash

/-- Cursor uniquely identifies a block by its number and hash. -/
@[ext]
structure Cursor where
  number : Nat
  hash : Hash
  deriving DecidableEq, Inhabited

namespace Cursor

def newFinalized (number : Nat) : Cursor := ⟨number, default⟩

def newPending (number : Nat) : Cursor := ⟨number, default⟩

def strictAfter (cursor other : Cursor) : Bool := cursor.number > other.number

/-- Equality up to leading zero bytes; an empty hash matches any hash. -/
def isEquivalent (cursor other : Cursor) : Bool :=
  if cursor.number ≠ other.number then false
  else if cursor.hash.isEmpty || other.hash.isEmpty then true
  else if cursor.hash.len = other.hash.len then cursor.hash == other.hash
  else
    let minLen := min cursor.hash.len other.hash.len
    let tail := cursor.hash.bytes.drop (cursor.hash.len - minLen)
    let otherTail := other.hash.bytes.drop (other.hash.len - minLen)
    if cursor.hash.len > other.hash.len then
      let lenDiff := cursor.hash.len - other.hash.len
      otherTail == tail && cursor.hash.bytes.take lenDiff == List.replicate lenDiff 0
    else
      let lenDiff := other.hash.len - cursor.hash.len
      tail == otherTail && other.hash.bytes.take lenDiff == List.replicate lenDiff 0

def display (cursor : Cursor) : String :=
  toString cursor.number ++ "/" ++ cursor.hash.display

def debug (cursor : Cursor) : String :=
  "Cursor(n=" ++ toString cursor.number ++ " h=" ++ cursor.hash.display ++ ")"

end Cursor

/-- An error report: its current context and what has been attached to it. -/
structure Report (ε : Type) where
  context : ε
  attachments : List String
  deriving DecidableEq, Inhabited

/-- How a call can fail: it returns an error, or the thread panics. -/
inductive Fault (ε : Type) where
  | error (report : Report ε)
  | panic
  deriving DecidableEq

/-- The result of a source function that returns a `Result`. -/
abbrev Outcome (ε α : Type) := Except (Fault ε) α

variable {ε α : Type}

theorem toOption_eq_some {outcome : Except ε α} {value} : outcome.toOption = some value ↔ outcome = .ok value := by
  cases outcome with
  | ok | error => simp [Except.toOption]

variable {β : Type}

theorem bind_eq_ok {first} {next : α → Except ε β} {value} :
    (first >>= next) = .ok value ↔ ∃ middle, first = .ok middle ∧ next middle = .ok value := by
  cases first with
  | ok | error => simp [bind, Except.bind]

variable {next : β → α → Except ε β} {items : List α} {start last : β}

/-- What one element of a list establishes and every element keeps holds at the
    end of a fold over the list. -/
theorem foldlM_establishes (Holds : β → Prop)
    (keep : ∀ before item after, Holds before → next before item = .ok after → Holds after) {item : α}
    (establish : ∀ before after, next before item = .ok after → Holds after) (member : item ∈ items)
    (folded : items.foldlM next start = .ok last) : Holds last := by
  have kept : ∀ (rest : List α) (middle : β), Holds middle → rest.foldlM next middle = .ok last → Holds last := by
    intro rest
    induction rest with
    | nil =>
      intro middle holds same
      cases same
      exact holds
    | cons other rest ih =>
      intro middle holds later
      obtain ⟨after, one, others⟩ := bind_eq_ok.mp (List.foldlM_cons.symm.trans later)
      exact ih after (keep middle other after holds one) others
  induction items generalizing start with
  | nil => cases member
  | cons other rest ih =>
    obtain ⟨after, one, others⟩ := bind_eq_ok.mp (List.foldlM_cons.symm.trans folded)
    rcases List.mem_cons.mp member with rfl | further
    · exact kept rest after (establish start after one) others
    · exact ih further others

/-- What every element of a list keeps holds at the end of a fold over the list. -/
theorem foldlM_keeps (Holds : β → Prop)
    (keep : ∀ before item after, item ∈ items → Holds before → next before item = .ok after → Holds after)
    (initially : Holds start) (folded : items.foldlM next start = .ok last) : Holds last := by
  induction items generalizing start with
  | nil =>
    cases folded
    exact initially
  | cons item rest ih =>
    obtain ⟨after, one, others⟩ := bind_eq_ok.mp (List.foldlM_cons.symm.trans folded)
    have holds := keep start item after (List.mem_cons_self ..) initially one
    exact ih (fun before other after member => keep before other after (List.mem_cons_of_mem _ member)) holds others

/-- A fold whose turns all succeed succeeds. -/
theorem foldlM_succeeds (each : ∀ item ∈ items, ∀ before, ∃ after, next before item = .ok after) (start : β) :
    ∃ last, items.foldlM next start = .ok last := by
  induction items generalizing start with
  | nil => exact ⟨start, rfl⟩
  | cons item rest ih =>
    obtain ⟨after, one⟩ := each item (List.mem_cons_self ..) start
    obtain ⟨last, others⟩ := ih (fun other member => each other (List.mem_cons_of_mem _ member)) after
    exact ⟨last, List.foldlM_cons.trans (bind_eq_ok.mpr ⟨after, one, others⟩)⟩

/-- In a fold that succeeds every turn does. -/
theorem foldlM_turn (folded : items.foldlM next start = .ok last) {item : α} (member : item ∈ items) :
    ∃ before after, next before item = .ok after := by
  induction items generalizing start with
  | nil => cases member
  | cons other rest ih =>
    obtain ⟨after, one, others⟩ := bind_eq_ok.mp (List.foldlM_cons.symm.trans folded)
    rcases List.mem_cons.mp member with rfl | further
    · exact ⟨start, after, one⟩
    · exact ih others further

/-- The states that a fold that succeeds goes through. -/
theorem foldlM_states (folded : items.foldlM next start = .ok last) :
    ∃ states : Nat → β, states 0 = start ∧ states items.length = last ∧
      ∀ place item, items[place]? = some item → next (states place) item = .ok (states (place + 1)) := by
  induction items generalizing start with
  | nil =>
    obtain rfl := Except.ok.inj folded
    exact ⟨fun _ => start, rfl, rfl, nofun⟩
  | cons first rest ih =>
    obtain ⟨_, one, others⟩ := bind_eq_ok.mp (List.foldlM_cons.symm.trans folded)
    obtain ⟨states, rfl, isLast, turns⟩ := ih others
    refine ⟨fun place => place.casesOn start states, rfl, isLast, fun place item found => ?_⟩
    cases place with
    | zero =>
      cases found
      exact one
    | succ place => exact turns place item found

/-- A fold that only adds to what can be observed of its state: at the end there is
    what was there at the start and what the elements add. -/
theorem foldlM_accumulates {γ : Type} (Observed : β → γ → Prop) (Adds : α → γ → Prop)
    (turn : ∀ before item after, next before item = .ok after →
      ∀ value, Observed after value ↔ Observed before value ∨ Adds item value)
    (folded : items.foldlM next start = .ok last) (value : γ) :
    Observed last value ↔ Observed start value ∨ ∃ item ∈ items, Adds item value := by
  induction items generalizing start with
  | nil =>
    cases folded
    simp
  | cons item rest ih =>
    obtain ⟨after, one, others⟩ := bind_eq_ok.mp (List.foldlM_cons.symm.trans folded)
    rw [ih others, turn start item after one, List.exists_mem_cons_iff, or_assoc]

/-- The results of a map over a list, one for each element. -/
theorem forall₂_of_mapM {next : α → Except ε β} {results : List β} (mapped : items.mapM next = .ok results) :
    List.Forall₂ (fun item result => next item = .ok result) items results := by
  induction items generalizing results with
  | nil =>
    cases mapped
    exact .nil
  | cons item rest ih =>
    rw [List.mapM_cons] at mapped
    obtain ⟨_, one, more⟩ := bind_eq_ok.mp mapped
    obtain ⟨_, later, result⟩ := bind_eq_ok.mp more
    cases result
    exact .cons one (ih later)

namespace Outcome

def fail {ε α : Type} (context : ε) (attachments : List String) : Outcome ε α :=
  .error (.error ⟨context, attachments⟩)

/-- `change_context` on a result, followed by the attachments of the caller. -/
def changeContext {ε δ α : Type} (context : δ) (attachments : List String) :
    Outcome ε α → Outcome δ α
  | .ok value => .ok value
  | .error .panic => .error .panic
  | .error (.error report) => .error (.error ⟨context, report.attachments ++ attachments⟩)

theorem changeContext_eq_ok {ε δ α : Type} {context : δ} {attachments} {outcome : Outcome ε α} {value} :
    outcome.changeContext context attachments = .ok value ↔ outcome = .ok value := by
  cases outcome with
  | ok => simp [changeContext]
  | error fault => cases fault <;> simp [changeContext]

end Outcome

end Starkstream
