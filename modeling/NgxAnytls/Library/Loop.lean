import Mathlib.Logic.Relation
import Mathlib.Order.WellFounded

/-! Loops given by what one turn makes of the state; `none` leaves the loop. -/

namespace NgxAnytls.Library.Loop

variable {σ : Type*} (turn : σ → Option σ)

/-- The loop leads from one state to another. -/
def Leads : σ → σ → Prop := Relation.ReflTransGen fun s s' => turn s = some s'

/-- The loop is left after finitely many turns. -/
inductive Terminates : σ → Prop
  | stop {s : σ} (h : turn s = none) : Terminates s
  | next {s s' : σ} (h : turn s = some s') (hs : Terminates s') : Terminates s

variable {turn} {s s' : σ}

/-- A loop that ends goes on to end from wherever it leads. -/
theorem Terminates.of_leads (he : Terminates turn s) (hr : Leads turn s s') :
    Terminates turn s' := by
  induction hr with
  | refl => exact he
  | tail _ hturn ih =>
    cases ih with
    | stop hstop => rw [hstop] at hturn; cases hturn
    | next hnext hs =>
      rw [hnext] at hturn
      cases hturn
      exact hs

/-- A loop that leads to its exit ends. -/
theorem Terminates.of_exit (hr : Leads turn s s') (hexit : turn s' = none) : Terminates turn s := by
  induction hr using Relation.ReflTransGen.head_induction_on with
  | refl => exact .stop hexit
  | head hturn _ ih => exact .next hturn ih

/-- A loop does not end while what makes it go on stays true. -/
theorem not_terminates_of_invariant {P : σ → Prop} (hP : ∀ s, P s → ∃ s', turn s = some s' ∧ P s')
    (hs : P s) : ¬Terminates turn s := by
  intro he
  induction he with
  | stop hstop =>
    obtain ⟨s', hturn, -⟩ := hP _ hs
    rw [hstop] at hturn
    cases hturn
  | next hnext _ ih =>
    obtain ⟨s', hturn, hs'⟩ := hP _ hs
    rw [hnext] at hturn
    cases hturn
    exact ih hs'

/-- A loop ends when every turn keeps an invariant and makes the state smaller. -/
theorem terminates_of_measure {β : Type*} {r : β → β → Prop} (hr : WellFounded r) (measure : σ → β)
    {P : σ → Prop}
    (hP : ∀ s s', P s → turn s = some s' → P s' ∧ r (measure s') (measure s)) (hs : P s) :
    Terminates turn s := by
  induction hm : measure s using hr.induction generalizing s with
  | _ m ih =>
    cases hturn : turn s with
    | none => exact .stop hturn
    | some s' =>
      obtain ⟨hs', hless⟩ := hP s s' hs hturn
      exact .next hturn (ih (measure s') (hm ▸ hless) hs' rfl)

end NgxAnytls.Library.Loop
