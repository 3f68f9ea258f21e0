import Mathlib.Data.List.Basic

/-! # Runs of partial step functions

A system is given by a partial step function `step : σ → ι → Option σ`: the
inputs carry every choice the environment makes, and `none` means that the
input is not possible in that state (or that the process died there).  Runs are
lists of inputs, so "earlier in the run" is an append.

The rules below are the only inductions over runs that a development should
need: an invariant, an invariant of the runs whose every step meets a guard, which
may also mention the inputs consumed so far, guards that are exact, and a relation
between two runs that are given the same inputs.
-/

namespace Runs

variable {σ ι : Type*} {step : σ → ι → Option σ}

/-- Consume the inputs in order.  `none` as soon as one of them has no step. -/
def run (step : σ → ι → Option σ) : σ → List ι → Option σ
  | s, [] => some s
  | s, i :: rest => (step s i).bind (fun next => run step next rest)

@[simp] theorem run_nil (s : σ) : run step s [] = some s := rfl

@[simp] theorem run_cons (s : σ) (i : ι) (rest : List ι) :
    run step s (i :: rest) = (step s i).bind (fun next => run step next rest) := rfl

theorem run_append (s : σ) (left right : List ι) :
    run step s (left ++ right) = (run step s left).bind (fun mid => run step mid right) := by
  induction left generalizing s with
  | nil => rfl
  | cons i rest ih =>
    simp only [List.cons_append, run_cons, Option.bind_assoc]
    cases step s i with
    | none => rfl
    | some next => exact ih next

variable {s : σ} {inputs : List ι}

variable {Inv : σ → Prop}

/-- The invariant rule.  Only the inputs of this run have to be checked, so a
    hypothesis about the inputs is available in the step case. -/
theorem run_invariant {last} (keep : ∀ i ∈ inputs, ∀ before after, Inv before → step before i = some after → Inv after)
    (start : Inv s) (reached : run step s inputs = some last) : Inv last := by
  induction inputs generalizing s with
  | nil =>
    cases reached
    exact start
  | cons i rest ih =>
    obtain ⟨next, first, later⟩ := Option.bind_eq_some_iff.mp reached
    refine ih (fun j member => keep j (List.mem_cons_of_mem i member)) ?_ later
    exact keep i List.mem_cons_self s next start first

/-- Every step of the run meets `guard`, evaluated in the state before it. -/
def Meets (step : σ → ι → Option σ) (guard : σ → ι → Prop) : σ → List ι → Prop
  | _, [] => True
  | s, i :: rest => guard s i ∧ ∀ next, step s i = some next → Meets step guard next rest

variable {guard : σ → ι → Prop}

theorem Meets.cons {next i rest} (here : guard s i) (first : step s i = some next) (later : Meets step guard next rest) :
    Meets step guard s (i :: rest) := by
  refine ⟨here, fun other same => ?_⟩
  cases first.symm.trans same
  exact later

theorem Meets.of_forall (all : ∀ i ∈ inputs, ∀ s, guard s i) : Meets step guard s inputs := by
  induction inputs generalizing s with
  | nil => trivial
  | cons i rest ih =>
    exact ⟨all i List.mem_cons_self s, fun _ _ => ih fun j member => all j (List.mem_cons_of_mem i member)⟩

theorem Meets.and_forall {allowed : ι → Prop} (meets : Meets step guard s inputs) (all : ∀ i ∈ inputs, allowed i) :
    Meets step (fun s i => guard s i ∧ allowed i) s inputs := by
  induction inputs generalizing s with
  | nil => trivial
  | cons i rest ih =>
    refine ⟨⟨meets.1, all i List.mem_cons_self⟩, fun next first => ih (meets.2 next first) ?_⟩
    exact fun j member => all j (List.mem_cons_of_mem i member)

def checks (step : σ → ι → Option σ) (check : σ → ι → Bool) : σ → List ι → Bool
  | _, [] => true
  | s, i :: rest => check s i && (step s i).all fun next => checks step check next rest

theorem Meets.of_checks {check} (sound : ∀ s i, check s i = true → guard s i)
    (checked : checks step check s inputs = true) : Meets step guard s inputs := by
  induction inputs generalizing s with
  | nil => trivial
  | cons i rest ih =>
    obtain ⟨here, later⟩ := (Bool.and_eq_true _ _).mp checked
    refine ⟨sound s i here, fun next first => ih ?_⟩
    rw [first] at later
    exact later

theorem Meets.append {mid left right} (meets : Meets step guard s (left ++ right))
    (earlier : run step s left = some mid) : Meets step guard s left ∧ Meets step guard mid right := by
  induction left generalizing s with
  | nil =>
    cases earlier
    exact ⟨trivial, meets⟩
  | cons i rest ih =>
    obtain ⟨next, first, later⟩ := Option.bind_eq_some_iff.mp earlier
    obtain ⟨here, after⟩ := meets
    obtain ⟨restMeets, rightMeets⟩ := ih (after next first) later
    exact ⟨.cons here first restMeets, rightMeets⟩

theorem Meets.concat {mid left right} (earlier : Meets step guard s left) (reached : run step s left = some mid)
    (later : Meets step guard mid right) : Meets step guard s (left ++ right) := by
  induction left generalizing s with
  | nil =>
    cases reached
    exact later
  | cons i rest ih =>
    obtain ⟨next, first, beyond⟩ := Option.bind_eq_some_iff.mp reached
    exact .cons earlier.1 first (ih (earlier.2 next first) beyond)

theorem run_concat {mid last left right} (earlier : run step s left = some mid) (later : run step mid right = some last) :
    run step s (left ++ right) = some last := by
  rw [run_append, earlier, Option.bind_some, later]

theorem run_guarded {last}
    (keep : ∀ before i after, Inv before → guard before i → step before i = some after → Inv after) (start : Inv s)
    (meets : Meets step guard s inputs) (reached : run step s inputs = some last) : Inv last := by
  induction inputs generalizing s with
  | nil =>
    cases reached
    exact start
  | cons i rest ih =>
    obtain ⟨next, first, later⟩ := Option.bind_eq_some_iff.mp reached
    exact ih (keep s i next start meets.1 first) (meets.2 next first) later

theorem run_guarded_history {Inv : List ι → σ → Prop} {last}
    (keep : ∀ past before i after, Inv past before → guard before i → step before i = some after →
      Inv (past ++ [i]) after) {past} (start : Inv past s) (meets : Meets step guard s inputs)
    (reached : run step s inputs = some last) : Inv (past ++ inputs) last := by
  induction inputs generalizing s past with
  | nil =>
    cases reached
    simpa only [List.append_nil] using start
  | cons i rest ih =>
    obtain ⟨next, first, later⟩ := Option.bind_eq_some_iff.mp reached
    have extended := ih (keep past s i next start meets.1 first) (meets.2 next first) later
    simpa only [List.append_assoc, List.singleton_append] using extended

/-- `Holds` in the first state and in every state that the run reaches. -/
def Always (step : σ → ι → Option σ) (Holds : σ → Prop) : σ → List ι → Prop
  | s, [] => Holds s
  | s, i :: rest => Holds s ∧ ∀ next, step s i = some next → Always step Holds next rest

theorem Always.here {Holds} (always : Always step Holds s inputs) : Holds s := by
  cases inputs with
  | nil => exact always
  | cons => exact always.1

/-- The rule for exact guards: a guard that keeps an invariant, and that every
    step into a good state meets, is met by a run just when the run is good. -/
theorem always_iff_meets {Holds}
    (keep : ∀ before i after, Inv before → guard before i → step before i = some after → Inv after)
    (good : ∀ s, Inv s → Holds s) (needed : ∀ s i, Inv s → (∀ next, step s i = some next → Holds next) → guard s i)
    (start : Inv s) : Always step Holds s inputs ↔ Meets step guard s inputs := by
  induction inputs generalizing s with
  | nil => exact ⟨fun _ => trivial, fun _ => good s start⟩
  | cons i rest ih =>
    constructor
    · intro always
      have here := needed s i start fun next first => (always.2 next first).here
      exact ⟨here, fun next first => (ih (keep s i next start here first)).mp (always.2 next first)⟩
    · intro meets
      exact ⟨good s start, fun next first => (ih (keep s i next start meets.1 first)).mpr (meets.2 next first)⟩

section Traces

variable {ω : Type*}

/-- Like `run`, for a step that also has an output: collect the outputs.  The
    state is `none` after a step that has no next state. -/
def trace (step : σ → ι → ω × Option σ) : σ → List ι → List ω × Option σ
  | s, [] => ([], some s)
  | s, i :: rest =>
    match step s i with
    | (out, none) => ([out], none)
    | (out, some next) => (out :: (trace step next rest).1, (trace step next rest).2)

theorem rel_mono {α β : Type*} {Strong Weak : α → β → Prop} (imply : ∀ a b, Strong a b → Weak a b) {left right}
    (related : Option.Rel Strong left right) : Option.Rel Weak left right := by
  cases related with
  | none => exact .none
  | some both => exact .some (imply _ _ both)

theorem trace_invariant {step : σ → ι → ω × Option σ} {allowed : ι → Prop}
    (keep : ∀ s i next, Inv s → allowed i → (step s i).2 = some next → Inv next) {s last : σ} {inputs : List ι}
    (start : Inv s) (all : ∀ i ∈ inputs, allowed i) (reached : (trace step s inputs).2 = some last) : Inv last := by
  induction inputs generalizing s with
  | nil =>
    cases reached
    exact start
  | cons i rest ih =>
    rcases stepped : step s i with ⟨_, - | next⟩
    · simp only [trace, stepped, reduceCtorEq] at reached
    · simp only [trace, stepped] at reached
      have kept := keep s i next start (all i List.mem_cons_self) (by rw [stepped])
      exact ih kept (fun j member => all j (List.mem_cons_of_mem i member)) reached

/-- Two systems in lockstep: a relation kept by every allowed input, under which
    the outputs are equal, makes the traces equal and relates the last states. -/
theorem trace_lockstep {τ : Type*} {left : σ → ι → ω × Option σ} {right : τ → ι → ω × Option τ}
    {Rel : σ → τ → Prop} {allowed : ι → Prop}
    (keep : ∀ s t i, Rel s t → allowed i →
      (left s i).1 = (right t i).1 ∧ Option.Rel Rel (left s i).2 (right t i).2)
    {s : σ} {t : τ} (related : Rel s t) {inputs : List ι} (all : ∀ i ∈ inputs, allowed i) :
    (trace left s inputs).1 = (trace right t inputs).1 ∧
      Option.Rel Rel (trace left s inputs).2 (trace right t inputs).2 := by
  induction inputs generalizing s t with
  | nil => exact ⟨rfl, .some related⟩
  | cons i rest ih =>
    obtain ⟨sameOut, next⟩ := keep s t i related (all i List.mem_cons_self)
    rcases leftStep : left s i with ⟨out, _⟩
    rcases rightStep : right t i with ⟨out', _⟩
    rw [leftStep, rightStep] at sameOut next
    obtain rfl : out = out' := sameOut
    simp only [trace, leftStep, rightStep]
    cases next with
    | none => exact ⟨rfl, .none⟩
    | some nextRelated =>
      obtain ⟨outs, last⟩ := ih nextRelated (fun j member => all j (List.mem_cons_of_mem i member))
      exact ⟨congrArg _ outs, last⟩

end Traces

end Runs
