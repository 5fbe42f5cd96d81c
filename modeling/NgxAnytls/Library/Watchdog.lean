import Mathlib.Order.Defs.LinearOrder
import Mathlib.Order.Nat

/-! Timers that watch an activity: a deadline, the last time the activity was seen, and runs whose
steps happen at times. -/

namespace NgxAnytls.Library.Watchdog

section Runs

variable {σ ε : Type*} (step : σ → ε → σ)

/-- Every step of the run from a state meets the condition, there and then. -/
def Every (P : σ → ε → Prop) : σ → List ε → Prop
  | _, [] => True
  | s, e :: es => P s e ∧ Every P (step s e) es

variable {step} {I : σ → Prop} {P Q : σ → ε → Prop}

/-- What follows from an invariant at one step holds at every step of a run. -/
theorem Every.of_invariant (hstep : ∀ s e, I s → P s e → Q s e ∧ I (step s e)) {s : σ} (hs : I s)
    {es : List ε} (hP : Every step P s es) : Every step Q s es := by
  induction es generalizing s with
  | nil => trivial
  | cons e es ih =>
    obtain ⟨hnow, hrest⟩ := hP
    obtain ⟨hQ, hI⟩ := hstep s e hs hnow
    exact ⟨hQ, ih hI hrest⟩

theorem Every.and {s : σ} {es : List ε} (hP : Every step P s es) (hQ : Every step Q s es) :
    Every step (fun s e => P s e ∧ Q s e) s es := by
  induction es generalizing s with
  | nil => trivial
  | cons e es ih => exact ⟨⟨hP.1, hQ.1⟩, ih hP.2 hQ.2⟩

end Runs

/-- When the timer fires and when the activity was last seen. -/
structure Watch where
  deadline : ℕ := 0
  last : Option ℕ := none
  deriving DecidableEq, Repr

variable {timeout now t : ℕ} {armed moved : Bool} {w : Watch}

/-- The timer after a step, which may arm it and may be active. -/
def Watch.next (timeout now : ℕ) (armed moved : Bool) (w : Watch) : Watch where
  deadline := if armed then now + timeout else w.deadline
  last := if moved then some now else w.last

/-- The activity was seen less than the timeout ago. -/
def Watch.active (timeout now : ℕ) (w : Watch) : Bool := w.last.any fun a => now < a + timeout

/-- Nothing was seen later than now. -/
def Watch.Past (now : ℕ) (w : Watch) : Prop := ∀ a, w.last = some a → a ≤ now

/-- The timer does not fire before the timeout is over. -/
def Watch.Covers (timeout : ℕ) (w : Watch) : Prop := ∀ a, w.last = some a → a + timeout ≤ w.deadline

theorem Watch.Past.mono (hp : w.Past t) (ht : t ≤ now) : w.Past now :=
  fun a ha => (hp a ha).trans ht

theorem Watch.Past.next (hp : w.Past now) : (w.next timeout now armed moved).Past now := by
  intro a ha
  cases moved with
  | true => exact (Option.some.inj ha).symm.le
  | false => exact hp a ha

/-- Arming covers whatever was seen. -/
theorem Watch.Past.covers_armed (hp : w.Past now) :
    (w.next timeout now true moved).Covers timeout := by
  intro a ha
  have hnext : (w.next timeout now true moved).Past now := hp.next
  exact Nat.add_le_add_right (hnext a ha) timeout

theorem Watch.Covers.next_idle (hc : w.Covers timeout) :
    (w.next timeout now false false).Covers timeout :=
  hc

/-- A timer that is due has seen nothing for the timeout. -/
theorem Watch.Covers.not_active (hc : w.Covers timeout) (hdue : w.deadline ≤ now) :
    w.active timeout now = false := by
  unfold Watch.active
  cases hlast : w.last with
  | none => rfl
  | some a =>
    have hle := (hc a hlast).trans hdue
    simp only [Option.any_some, decide_eq_false_iff_not, not_lt]
    exact hle

end NgxAnytls.Library.Watchdog
