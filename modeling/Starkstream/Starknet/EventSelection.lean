import Starkstream.Starknet.Selection

/-! # What event filters select

A filter may list any number of keys, but only four key positions of an event
are indexed, and the keys from the fifth on are not compiled to conditions.
-/

namespace Starkstream.Starknet

variable {Content : Type}

namespace EventFilter

/-- The event has, at the positions below `limit`, the keys that the filter sets. -/
def KeysMatch (filter : EventFilter) (limit : Nat) (keys : List Felt) : Prop :=
  ∀ position key element, position < limit → filter.keys[position]? = some key → key.value = some element →
    keys[position]?.map toProto = some element

/-- What is compared of an event when the keys below `limit` are. -/
def MatchesBelow (filter : EventFilter) (limit : Nat) (event : Emitted Model.Event Content) : Prop :=
  Wants filter.address event.item.fromAddress ∧ filter.KeysMatch limit event.item.keys ∧
    (filter.strict = some true → event.item.keys.length = filter.keys.length) ∧
    WantsStatus filter.transactionStatus event.status

/-- What the client asks for: all keys of the filter count. -/
def Matches (filter : EventFilter) (event : Emitted Model.Event Content) : Prop :=
  filter.MatchesBelow filter.keys.length event

/-- The filter compiles, and on every block it selects the matching events. -/
def Exact (filter : EventFilter) : Prop :=
  ∀ (Content : Type) (encoding : Encoding Content) transactions traces,
    ∃ compiled, filter.compileToFilter = .ok compiled ∧
      Selects compiled (collectBlockBodyAndIndex encoding transactions traces)
        ((eventsOf transactions).mapIdx fun row event => encoding.event (eventAt row event))
        (eventsOf transactions) filter.Matches

def StatusKnown (filter : EventFilter) : Prop :=
  ∀ value, filter.transactionStatus = some value → 0 ≤ value ∧ value ≤ 3

def FirstKeysOnly (filter : EventFilter) : Prop :=
  ∀ position key, 4 ≤ position → filter.keys[position]? = some key → key.value = none

/-- The address and the first four keys are elements of the field, as those of events are. -/
def InField (filter : EventFilter) : Prop :=
  (∀ element, filter.address = some element → ∃ felt, toProto felt = element) ∧
    ∀ position element, position < 4 → filter.keyAt position = some element → ∃ felt, toProto felt = element

variable {filter : EventFilter} {event : Emitted Model.Event Content}

theorem keyCondition_holds {position row} {indexId : IndexId}
    (columnAt : eventColumns[indexId.toNat]? = some (elementColumn fun event => event.keys[position]?)) :
    (∀ condition ∈ conditionOn indexId (filter.keyAt position),
      condition.Holds eventColumns (eventAt row event)) ↔
      ∀ element, filter.keyAt position = some element → event.item.keys[position]?.map toProto = some element := by
  simp [conditionOn, Query.Condition.Holds, columnAt, elementColumn, eventAt, Model.Event.toProto]

theorem strictConditions_hold {row} :
    (∀ condition ∈ filter.strictConditions, condition.Holds eventColumns (eventAt row event)) ↔
      (filter.strict = some true → event.item.keys.length = filter.keys.length) := by
  have columnAt : (eventColumns[Fragment.indexEventByKeyLength.toNat]? : Option (Column Proto.Event)) =
      some (numberColumn fun event => some event.keys.length) := rfl
  by_cases strict : filter.strict = some true
  · simp [strictConditions, strict, Query.Condition.Holds, columnAt, numberColumn, eventAt, Model.Event.toProto]
  · simp [strictConditions, strict]

theorem indexId_of_mem_strictConditions {condition} (member : condition ∈ filter.strictConditions) :
    condition.indexId = Fragment.indexEventByKeyLength := by
  rw [strictConditions] at member
  split at member
  next => rw [List.mem_singleton.mp member]
  next => cases member

theorem keysMatch_four {keys} :
    filter.KeysMatch 4 keys ↔
      ((((∀ element, filter.keyAt 0 = some element → keys[0]?.map toProto = some element) ∧
        ∀ element, filter.keyAt 1 = some element → keys[1]?.map toProto = some element) ∧
        ∀ element, filter.keyAt 2 = some element → keys[2]?.map toProto = some element) ∧
        ∀ element, filter.keyAt 3 = some element → keys[3]?.map toProto = some element) := by
  have perPosition : filter.KeysMatch 4 keys ↔ ∀ position < 4, ∀ element, filter.keyAt position = some element →
      keys[position]?.map toProto = some element := by
    simp only [KeysMatch, keyAt, Option.bind_eq_some_iff]
    constructor
    · rintro all position below element ⟨key, keyIn, isValue⟩
      exact all position key element below keyIn isValue
    · intro all position key element below keyIn isValue
      exact all position below element ⟨key, keyIn, isValue⟩
  rw [perPosition]
  constructor
  · intro all
    exact ⟨⟨⟨all 0 (by decide), all 1 (by decide)⟩, all 2 (by decide)⟩, all 3 (by decide)⟩
  · rintro ⟨⟨⟨at0, at1⟩, at2⟩, at3⟩ position below
    interval_cases position
    · exact at0
    · exact at1
    · exact at2
    · exact at3

theorem selects_below_four (encoding : Encoding Content) (transactions : List (Model.TransactionWithReceipt Content))
    (traces : List (Model.TransactionTraceWithHash Content)) {compiled}
    (compiles : filter.compileToFilter = .ok compiled) :
    Selects compiled (collectBlockBodyAndIndex encoding transactions traces)
      ((eventsOf transactions).mapIdx fun row event => encoding.event (eventAt row event))
      (eventsOf transactions) (filter.MatchesBelow 4) := by
  obtain ⟨status, parsed, isFilter⟩ := bind_eq_ok.mp compiles
  cases isFilter
  rw [collectBlockBodyAndIndex, Collected.sort_collect]
  refine (Collected.collect_holds transactions traces).events.selects rfl rfl rfl rfl rfl rfl ?_ ?_
  · intro condition member
    simp only [List.mem_append] at member
    rcases member with (((((onAddress | onLength) | on0) | on1) | on2) | on3) | onStatus
    · rw [indexId_of_mem_option onAddress]; decide
    · rw [indexId_of_mem_strictConditions onLength]; decide
    · rw [indexId_of_mem_option on0]; decide
    · rw [indexId_of_mem_option on1]; decide
    · rw [indexId_of_mem_option on2]; decide
    · rw [indexId_of_mem_option on3]; decide
    · rw [indexId_of_mem_conditions onStatus]; decide
  · intro row event
    simp only [List.forall_mem_append]
    have onAddress : (∀ condition ∈ conditionOn Fragment.indexEventByAddress filter.address,
        condition.Holds eventColumns (eventAt row event)) ↔ Wants filter.address event.item.fromAddress :=
      conditionOn_holds rfl rfl
    have onStatus : (∀ condition ∈ status.conditions Fragment.indexEventByTransactionStatus,
        condition.Holds eventColumns (eventAt row event)) ↔ WantsStatus filter.transactionStatus event.status :=
      statusConditions_holds parsed rfl rfl
    rw [onAddress, onStatus, strictConditions_hold, keyCondition_holds rfl, keyCondition_holds rfl,
      keyCondition_holds rfl, keyCondition_holds rfl, MatchesBelow, keysMatch_four]
    tauto

theorem compiles_iff : (∃ compiled, filter.compileToFilter = .ok compiled) ↔ filter.StatusKnown := by
  have known : (∃ status, TransactionStatusFilter.parse "event" filter.id filter.transactionStatus = .ok status) ↔
      filter.StatusKnown := by
    cases isStatus : filter.transactionStatus with
    | none => simp [TransactionStatusFilter.parse, StatusKnown, isStatus]
    | some =>
      simp only [TransactionStatusFilter.parse, TransactionStatusFilter.tryFrom, StatusKnown, isStatus,
        Option.some.injEq, forall_eq']
      split_ifs <;> simp <;> omega
  rw [← known]
  constructor
  · rintro ⟨_, compiles⟩
    obtain ⟨status, parsed, _⟩ := bind_eq_ok.mp compiles
    exact ⟨status, parsed⟩
  · rintro ⟨status, parsed⟩
    exact ⟨_, bind_eq_ok.mpr ⟨status, parsed, rfl⟩⟩

theorem matches_iff_of_firstKeysOnly (firstOnly : filter.FirstKeysOnly) (event : Emitted Model.Event Content) :
    filter.MatchesBelow 4 event ↔ filter.Matches event := by
  have sameKeys : filter.KeysMatch 4 event.item.keys ↔ filter.KeysMatch filter.keys.length event.item.keys := by
    constructor
    · intro first position key element _ keyAt isValue
      by_cases early : position < 4
      · exact first position key element early keyAt isValue
      · cases (firstOnly position key (not_lt.mp early) keyAt).symm.trans isValue
    · intro all position key element _ keyAt isValue
      exact all position key element (List.getElem?_eq_some_iff.mp keyAt).1 keyAt isValue
  rw [Matches, MatchesBelow, MatchesBelow, sameKeys]

theorem inField_of_matchesBelow {limit}
    (enough : ∀ position element, filter.keyAt position = some element → position < 4 → position < limit)
    (isMatch : filter.MatchesBelow limit event) : filter.InField := by
  obtain ⟨address, keys, _, _⟩ := isMatch
  refine ⟨fun element isAddress => ⟨_, address element isAddress⟩, fun position element below keyAt => ?_⟩
  obtain ⟨key, keyIn, isValue⟩ := Option.bind_eq_some_iff.mp keyAt
  obtain ⟨felt, _, same⟩ := Option.map_eq_some_iff.mp
    (keys position key element (enough position element keyAt below) keyIn isValue)
  exact ⟨felt, same⟩

def zero : Felt := ⟨0, by decide⟩

def one : Felt := ⟨1, by decide⟩

theorem zero_ne_one : toProto zero ≠ toProto one := by decide

/-- A filter in the field with a later key matches an event by its first four keys only. -/
theorem exists_event_below_four (inField : filter.InField) {position key element} (late : 4 ≤ position)
    (keyAt : filter.keys[position]? = some key) (isValue : key.value = some element) :
    ∃ transaction : Model.TransactionWithReceipt Unit, ∃ event, eventsOf [transaction] = [event] ∧
      filter.MatchesBelow 4 event ∧ ¬ filter.Matches event := by
  obtain ⟨other, different⟩ : ∃ felt, toProto felt ≠ element := by
    by_cases isZero : toProto zero = element
    · exact ⟨one, fun isOne => zero_ne_one (isZero.trans isOne.symm)⟩
    · exact ⟨zero, isZero⟩
  obtain ⟨address, isAddress⟩ : ∃ felt, Wants filter.address felt := by
    cases wanted : filter.address with
    | none => exact ⟨zero, nofun⟩
    | some element =>
      obtain ⟨felt, same⟩ := inField.1 element wanted
      exact ⟨felt, fun _ isWanted => Option.some.inj isWanted ▸ same⟩
  -- Below the fourth position the keys of the filter, at the late position another key.
  have pick : ∀ index, ∃ felt, (index = position → toProto felt ≠ element) ∧
      (index < 4 → ∀ wanted, filter.keyAt index = some wanted → toProto felt = wanted) := by
    intro index
    by_cases early : index < 4
    · cases wanted : filter.keyAt index with
      | none => exact ⟨zero, by omega, fun _ _ => nofun⟩
      | some wantedElement =>
        obtain ⟨felt, same⟩ := inField.2 index wantedElement early wanted
        exact ⟨felt, by omega, fun _ _ isWanted => Option.some.inj isWanted ▸ same⟩
    · exact ⟨other, fun _ => different, fun below => absurd below early⟩
  choose pick pick_late pick_early using pick
  let result : Model.ExecutionResult := if filter.transactionStatus = some 2 then .reverted "" else .succeeded
  have wantsStatus : WantsStatus filter.transactionStatus result.status := by
    cases isStatus : filter.transactionStatus with
    | none => simp [WantsStatus, result, isStatus, Model.ExecutionResult.status]
    | some value =>
      by_cases reverted : value = 2
      · simp [WantsStatus, result, isStatus, reverted, Model.ExecutionResult.status]
      · simp [WantsStatus, result, isStatus, reverted, Model.ExecutionResult.status]
  let event : Model.Event := ⟨address, (List.range filter.keys.length).map pick, []⟩
  let receipt : Model.TransactionReceipt Unit := .invoke ⟨zero, [], [event], result, ()⟩
  refine ⟨⟨.deploy (), receipt⟩, ⟨event, 0, 0, receipt⟩, rfl, ⟨isAddress, ?_, ?_, wantsStatus⟩, ?_⟩
  · intro index wanted wantedElement early wantedAt isWanted
    have inside := (List.getElem?_eq_some_iff.mp wantedAt).1
    have same := pick_early index early wantedElement (by rw [EventFilter.keyAt, wantedAt]; exact isWanted)
    simp [event, List.getElem?_range inside, same]
  · intro _
    simp [event]
  · rintro ⟨_, keys, _, _⟩
    have inside := (List.getElem?_eq_some_iff.mp keyAt).1
    have same := keys position key element inside keyAt isValue
    simp [event, List.getElem?_range inside] at same
    exact pick_late position rfl same

/-- Event filters are exact when their keys are among the first four.  Otherwise
    they select events that do not have the later keys, unless they can match no
    event at all. -/
theorem exact_iff_firstKeysOnly (filter : EventFilter) :
    filter.Exact ↔ filter.StatusKnown ∧ (filter.FirstKeysOnly ∨ ¬ filter.InField) := by
  constructor
  · intro exact
    obtain ⟨compiled, compiles, _⟩ := exact Unit .noBytes [] []
    have known := compiles_iff.mp ⟨compiled, compiles⟩
    refine ⟨known, ?_⟩
    by_contra neither
    rw [not_or, not_not] at neither
    obtain ⟨later, inField⟩ := neither
    simp only [FirstKeysOnly, not_forall] at later
    obtain ⟨position, key, late, keyAt, set⟩ := later
    obtain ⟨element, isValue⟩ := Option.ne_none_iff_exists'.mp set
    obtain ⟨transaction, event, only, below, notMatch⟩ :=
      exists_event_below_four inField late keyAt isValue
    obtain ⟨compiled, compiles, selects⟩ := exact Unit .noBytes [transaction] []
    have agree := selects.agree (selects_below_four .noBytes [transaction] [] compiles) 0
    simp only [only, List.getElem?_cons_zero, Option.some.injEq, exists_eq_left'] at agree
    exact notMatch (agree.mpr below)
  · rintro ⟨known, cases⟩ Content encoding transactions traces
    obtain ⟨compiled, compiles⟩ := compiles_iff.mpr known
    refine ⟨compiled, compiles, ?_⟩
    refine (selects_below_four encoding transactions traces compiles).congr fun event => ?_
    rcases cases with firstOnly | notInField
    · exact matches_iff_of_firstKeysOnly firstOnly event
    · refine iff_of_false (fun isMatch => notInField ?_) (fun isMatch => notInField ?_)
      · exact inField_of_matchesBelow (fun _ _ _ below => below) isMatch
      · refine inField_of_matchesBelow (fun position element keyAt _ => ?_) isMatch
        obtain ⟨key, keyIn, _⟩ := Option.bind_eq_some_iff.mp keyAt
        exact (List.getElem?_eq_some_iff.mp keyIn).1

def fifthKey : EventFilter where
  id := 1
  keys := [⟨none⟩, ⟨none⟩, ⟨none⟩, ⟨none⟩, ⟨some (toProto one)⟩]

/-- A transaction with one event that has a single key. -/
def singleKeyReceipt : Model.TransactionReceipt Unit :=
  .invoke ⟨zero, [], [⟨zero, [zero], []⟩], .succeeded, ()⟩

/-- The event is selected although it has no fifth key. -/
theorem fifthKey_not_exact :
    ∃ compiled index rows, fifthKey.compileToFilter = .ok compiled ∧
      (collectBlockBodyAndIndex .noBytes [⟨.deploy (), singleKeyReceipt⟩] []).index.find?
        (fun fragment => fragment.fragmentId == compiled.fragmentId) = some index ∧
      compiled.filter index = .ok rows ∧ 0 ∈ rows ∧
      ∃ event, (eventsOf [⟨.deploy (), singleKeyReceipt⟩])[0]? = some event ∧ ¬ fifthKey.Matches event := by
  obtain ⟨index, _, rows, indexFound, _, _, filtered, mem_rows⟩ :=
    selects_below_four .noBytes [⟨.deploy (), singleKeyReceipt⟩] [] (show fifthKey.compileToFilter = .ok _ from rfl)
  refine ⟨_, index, rows, rfl, indexFound, filtered, (mem_rows 0).mpr ⟨_, rfl, nofun, ?_, nofun, rfl⟩, _, rfl, ?_⟩
  · intro position key element below keyAt isValue
    interval_cases position <;> cases keyAt <;> cases isValue
  · rintro ⟨_, keys, _, _⟩
    cases keys 4 _ _ (by decide) rfl rfl

end EventFilter

end Starkstream.Starknet
