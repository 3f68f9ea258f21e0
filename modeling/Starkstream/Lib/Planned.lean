import Mathlib.Data.List.Basic

/-! # Computations that plan writes

A computation of this kind issues writes to the outside world, in order, and
then returns or fails; what was written before a failure stays written.  It is
the pair of its writes and its result, so a crash in the middle is a prefix of
the writes and needs no semantics of its own.
-/

/-- The writes of a computation, in order, and how it ended. -/
structure Planned (ω ε α : Type) where
  writes : List ω
  result : Except ε α

namespace Planned

variable {ω ε α β : Type}

/-- Sequencing: what follows a failure is never run. -/
protected def bind (first : Planned ω ε α) (next : α → Planned ω ε β) : Planned ω ε β :=
  match first.result with
  | .ok value => ⟨first.writes ++ (next value).writes, (next value).result⟩
  | .error fault => ⟨first.writes, .error fault⟩

instance : Monad (Planned ω ε) where
  pure value := ⟨[], .ok value⟩
  bind := Planned.bind

def write (effect : ω) : Planned ω ε Unit := ⟨[effect], .ok ()⟩

def lift (result : Except ε α) : Planned ω ε α := ⟨[], result⟩

@[simp] theorem pure_writes (value : α) : (pure value : Planned ω ε α).writes = [] := rfl

@[simp] theorem pure_result (value : α) : (pure value : Planned ω ε α).result = .ok value := rfl

@[simp] theorem lift_writes (result : Except ε α) : (lift result : Planned ω ε α).writes = [] := rfl

@[simp] theorem lift_result (result : Except ε α) : (lift result : Planned ω ε α).result = result := rfl

@[simp] theorem write_bind_writes (effect : ω) (next : Unit → Planned ω ε β) :
    (write effect >>= next).writes = effect :: (next ()).writes := rfl

@[simp] theorem write_bind_result (effect : ω) (next : Unit → Planned ω ε β) :
    (write effect >>= next).result = (next ()).result := rfl

@[simp] theorem pure_bind (value : α) (next : α → Planned ω ε β) :
    ((pure value : Planned ω ε α) >>= next) = next value := rfl

@[simp] theorem lift_ok_bind (value : α) (next : α → Planned ω ε β) :
    ((lift (.ok value) : Planned ω ε α) >>= next) = next value := rfl

@[simp] theorem lift_error_bind (fault : ε) (next : α → Planned ω ε β) :
    ((lift (.error fault) : Planned ω ε α) >>= next) = ⟨[], .error fault⟩ := rfl

theorem ok_bind (writes : List ω) (value : α) (next : α → Planned ω ε β) :
    ((⟨writes, .ok value⟩ : Planned ω ε α) >>= next) =
      ⟨writes ++ (next value).writes, (next value).result⟩ := rfl

theorem error_of_bind_pure {first} {f : α → β} {fault}
    (failed : (first >>= fun value => (pure (f value) : Planned ω ε β)).result = .error fault) :
    first.result = .error fault := by
  obtain ⟨_, ended⟩ := first
  cases ended with
  | error => exact congrArg Except.error (Except.error.inj failed)
  | ok => cases failed

/-- Every write is allowed, and a value that is returned meets `post`. -/
structure Ensures (allowed : ω → Prop) (post : α → Prop) (plan : Planned ω ε α) : Prop where
  writes : ∀ effect ∈ plan.writes, allowed effect
  result : ∀ value, plan.result = .ok value → post value

namespace Ensures

variable {allowed : ω → Prop} {post : β → Prop}

theorem pure {value} (holds : post value) : Ensures allowed post (pure value : Planned ω ε β) :=
  ⟨nofun, fun _ same => Except.ok.inj same ▸ holds⟩

theorem lift {result} (holds : ∀ value, result = .ok value → post value) :
    Ensures allowed post (lift result : Planned ω ε β) :=
  ⟨nofun, holds⟩

theorem write {effect done} (isAllowed : allowed effect) (holds : done ()) :
    Ensures allowed done (write effect : Planned ω ε Unit) :=
  ⟨fun _ member => List.mem_singleton.mp member ▸ isAllowed, fun _ _ => holds⟩

/-- Whatever the first part returns, what follows has to ensure the rest. -/
theorem bind {first : Planned ω ε α} {next} (before : Ensures allowed (fun _ => True) first)
    (after : ∀ value, Ensures allowed post (next value)) : Ensures allowed post (first >>= next) := by
  rcases first with ⟨writes, _ | value⟩
  · exact ⟨before.writes, nofun⟩
  · refine ⟨fun effect member => ?_, (after value).result⟩
    exact (List.mem_append.mp member).elim (before.writes effect) ((after value).writes effect)

end Ensures

end Planned

/-! ## Prefixes of a list of effects -/

namespace Effects

variable {σ ω : Type} {apply : σ → ω → σ} {property : σ → Prop}

/-- `property` holds before the first effect and after every effect. -/
def Always (apply : σ → ω → σ) (property : σ → Prop) : σ → List ω → Prop
  | s, [] => property s
  | s, effect :: rest => property s ∧ Always apply property (apply s effect) rest

variable {s : σ}

theorem Always.nil (here : property s) : Always apply property s [] := here

theorem Always.cons {effect rest} (here : property s) (later : Always apply property (apply s effect) rest) :
    Always apply property s (effect :: rest) := ⟨here, later⟩

variable {effects : List ω}

theorem Always.take (always : Always apply property s effects) (count : Nat) :
    property ((effects.take count).foldl apply s) := by
  induction effects generalizing s count with
  | nil =>
    rw [List.take_nil]
    exact always
  | cons effect rest ih =>
    cases count with
    | zero => exact always.1
    | succ count => exact ih always.2 count

theorem Always.all (always : Always apply property s effects) : property (effects.foldl apply s) := by
  simpa only [List.take_length] using always.take effects.length

theorem Always.append {first second} (inFirst : Always apply property s first)
    (inSecond : Always apply property (first.foldl apply s) second) : Always apply property s (first ++ second) := by
  induction first generalizing s with
  | nil => exact inSecond
  | cons effect rest ih => exact ⟨inFirst.1, ih inFirst.2 inSecond⟩

theorem Always.mono {weaker} (imply : ∀ s, property s → weaker s) (always : Always apply property s effects) :
    Always apply weaker s effects := by
  induction effects generalizing s with
  | nil => exact imply s always
  | cons effect rest ih => exact ⟨imply s always.1, ih always.2⟩

theorem Always.of_kept (here : property s)
    (keep : ∀ effect ∈ effects, ∀ before, property before → property (apply before effect)) :
    Always apply property s effects := by
  induction effects generalizing s with
  | nil => exact here
  | cons effect rest ih =>
    refine ⟨here, ih (keep effect List.mem_cons_self s here) ?_⟩
    exact fun other member => keep other (List.mem_cons_of_mem effect member)

end Effects
