import Mathlib.Data.List.Basic

/-! # Waiting for a notification

A task that waits creates one future for each channel it waits on.  A
notification reaches the futures that exist when it is sent and is not stored for
later ones, so a change that happens before the future is created is missed.

The rule below is for a task that looked at a shared state, found a condition and
then waits for it to change.  The condition is kept while the task is parked if
every change of it is announced on a watched channel, and no announcement is made
before the future for its channel exists.
-/

namespace Notify

variable {κ σ ε : Type*}

structure Wait (κ : Type*) where
  channels : List κ
  created : List κ
  notified : List κ
  deriving DecidableEq

namespace Wait

def on (channels : List κ) : Wait κ := ⟨channels, [], []⟩

def Parked (wait : Wait κ) : Prop := (∀ channel ∈ wait.channels, channel ∈ wait.created) ∧ wait.notified = []

variable [DecidableEq κ]

def create (wait : Wait κ) (channel : κ) : Option (Wait κ) :=
  if channel ∈ wait.channels ∧ channel ∉ wait.created then
    some { wait with created := channel :: wait.created }
  else none

def notify (wait : Wait κ) : Option κ → Wait κ
  | none => wait
  | some channel =>
    if channel ∈ wait.created then { wait with notified := channel :: wait.notified } else wait

@[simp] theorem channels_notify (wait : Wait κ) (channel : Option κ) : (wait.notify channel).channels = wait.channels := by
  unfold notify
  split
  · rfl
  · split_ifs <;> rfl

theorem channels_create {wait after : Wait κ} {channel} (created : wait.create channel = some after) :
    after.channels = wait.channels := by
  unfold create at created
  split_ifs at created
  cases created
  rfl

theorem notified_subset (wait : Wait κ) (channel : Option κ) : wait.notified ⊆ (wait.notify channel).notified := by
  unfold notify
  split
  · exact List.Subset.refl _
  · split_ifs
    · exact List.subset_cons_self _ _
    · exact List.Subset.refl _

end Wait

/-- An update that is announced on no watched channel keeps the condition. -/
def Watched (apply : σ → ε → σ) (announces : ε → Option κ) (watched : List κ) (Holds : σ → Prop) : Prop :=
  ∀ state update, (∀ channel, announces update = some channel → channel ∉ watched) → Holds state →
    Holds (apply state update)

/-- The condition holds, or the wait was notified on a watched channel. -/
def Keeps (watched : List κ) (Holds : σ → Prop) (wait : Wait κ) (state : σ) : Prop :=
  (∀ channel ∈ watched, channel ∉ wait.notified) → Holds state

namespace Keeps

variable {apply : σ → ε → σ} {announces : ε → Option κ} {watched : List κ} {Holds : σ → Prop} {wait : Wait κ}
  {state : σ}

theorem decided (holds : Holds state) : Keeps watched Holds wait state := fun _ => holds

theorem parked (keeps : Keeps watched Holds wait state) (parked : wait.Parked) : Holds state :=
  keeps fun channel _ member => by
    rw [parked.2] at member
    cases member

variable [DecidableEq κ]

theorem create {channel after} (keeps : Keeps watched Holds wait state) (created : wait.create channel = some after) :
    Keeps watched Holds after state := by
  unfold Wait.create at created
  split_ifs at created
  cases created
  exact keeps

theorem update (watches : Watched apply announces watched Holds) (keeps : Keeps watched Holds wait state) {update}
    (timely : ∀ channel, announces update = some channel → channel ∈ watched → channel ∈ wait.created) :
    Keeps watched Holds (wait.notify (announces update)) (apply state update) := by
  intro quiet
  cases announced : announces update with
  | none =>
    rw [announced] at quiet
    exact watches state update (by simp [announced]) (keeps quiet)
  | some channel =>
    by_cases isWatched : channel ∈ watched
    · have created := timely channel announced isWatched
      rw [announced] at quiet
      exact absurd (by simp [Wait.notify, created]) (quiet channel isWatched)
    · refine watches state update ?_ (keeps fun other member => ?_)
      · rintro other same
        cases announced.symm.trans same
        exact isWatched
      · exact fun earlier => quiet other member (wait.notified_subset _ earlier)

end Keeps

end Notify
