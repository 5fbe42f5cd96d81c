import Mathlib.Data.List.Basic

/-! A queue of keyed entries. An entry is delivered when it is the first of its key, and a key that
fails takes all its entries out. -/

namespace NgxAnytls.Library.KeyedQueue

/-- What happens to an entry. -/
inductive Mark (α : Type*) where
  | admitted (a : α)
  | delivered (a : α)
  | failed (a : α)
  | cleared (a : α)

variable {α κ : Type*} [DecidableEq κ] (key : α → κ)

/-- The entry of that key that comes into the queue. -/
def Mark.entry (i : κ) : Mark α → Option α
  | .admitted a => if key a = i then some a else none
  | _ => none

/-- The entry of that key that leaves the queue. -/
def Mark.exit (i : κ) : Mark α → Option α
  | .admitted _ => none
  | .delivered a | .failed a | .cleared a => if key a = i then some a else none

def entries (i : κ) (marks : List (Mark α)) : List α := marks.filterMap (Mark.entry key i)
def exits (i : κ) (marks : List (Mark α)) : List α := marks.filterMap (Mark.exit key i)

/-- The entries of a key in the queue. -/
abbrev ofKey (i : κ) (q : List α) : List α := q.filter fun a => key a = i

abbrev notOfKey (i : κ) (q : List α) : List α := q.filter fun a => ¬key a = i

/-- One change of the queue. -/
inductive Step : List α → List (Mark α) → List α → Prop
  | enter (q : List α) (a : α) : Step q [.admitted a] (q ++ [a])
  | deliver (q₁ q₂ : List α) (a : α) (hfirst : ∀ b ∈ q₁, key b ≠ key a) :
      Step (q₁ ++ a :: q₂) [.delivered a] (q₁ ++ q₂)
  | fail (q : List α) (i : κ) : Step q ((ofKey key i q).map .failed) (notOfKey key i q)
  | clear (q : List α) : Step q (q.map .cleared) []

/-- Any number of changes. -/
inductive Steps : List α → List (Mark α) → List α → Prop
  | refl (q : List α) : Steps q [] q
  | tail {q q' q'' : List α} {m m' : List (Mark α)} (hs : Steps q m q') (h : Step key q' m' q'') :
      Steps q (m ++ m') q''

variable {key} {q q' q'' : List α} {m m' : List (Mark α)}

theorem Steps.trans (h : Steps key q m q') (h' : Steps key q' m' q'') :
    Steps key q (m ++ m') q'' := by
  induction h' with
  | refl => rwa [List.append_nil]
  | tail _ hstep ih =>
    rw [← List.append_assoc]
    exact ih.tail hstep

theorem Steps.single (h : Step key q m q') : Steps key q m q' := (Steps.refl q).tail h

@[simp] theorem entries_append (i : κ) :
    entries key i (m ++ m') = entries key i m ++ entries key i m' := List.filterMap_append

@[simp] theorem exits_append (i : κ) :
    exits key i (m ++ m') = exits key i m ++ exits key i m' := List.filterMap_append

/-- Entries that leave together leave in the order of the queue. -/
theorem exits_map {f : α → Mark α} {i : κ}
    (hf : ∀ a, (f a).exit key i = if key a = i then some a else none) (q : List α) :
    exits key i (q.map f) = ofKey key i q := by
  induction q with
  | nil => rfl
  | cons a q ih =>
    rw [exits, List.map_cons, List.filterMap_cons, hf a]
    by_cases ha : key a = i
    · rw [if_pos ha, ofKey, List.filter_cons_of_pos (by simpa using ha)]
      exact congrArg (a :: ·) ih
    · rw [if_neg ha, ofKey, List.filter_cons_of_neg (by simpa using ha)]
      exact ih

theorem entries_map {f : α → Mark α} {i : κ} (hf : ∀ a, (f a).entry key i = none) (q : List α) :
    entries key i (q.map f) = [] := by
  induction q with
  | nil => rfl
  | cons a q ih =>
    rw [entries, List.map_cons, List.filterMap_cons, hf a]
    exact ih

/-- What a change lets in and what it lets out, key by key. -/
theorem Step.conserves (h : Step key q m q') (i : κ) :
    ofKey key i q ++ entries key i m = exits key i m ++ ofKey key i q' := by
  cases h with
  | enter q a =>
    by_cases ha : key a = i <;> simp [entries, exits, Mark.entry, Mark.exit, ha]
  | deliver q₁ q₂ a hfirst =>
    by_cases ha : key a = i
    · have hnone : ofKey key i q₁ = [] := by
        apply List.filter_eq_nil_iff.mpr
        intro b hb
        have hb' := hfirst b hb
        rw [ha] at hb'
        simpa using hb'
      simp [entries, exits, Mark.entry, Mark.exit, ha, hnone]
    · simp [entries, exits, Mark.entry, Mark.exit, ha]
  | fail q j =>
    have hin : entries key i ((ofKey key j q).map Mark.failed) = [] :=
      entries_map (fun _ => rfl) _
    have hout : exits key i ((ofKey key j q).map Mark.failed) = ofKey key i (ofKey key j q) :=
      exits_map (fun _ => rfl) _
    rw [hin, hout, List.append_nil]
    by_cases hij : j = i
    · subst hij
      have hleft : ofKey key j (notOfKey key j q) = [] := by
        rw [ofKey, List.filter_filter]
        simp
      rw [hleft, List.append_nil]
      simp [ofKey, List.filter_filter]
    · have hnone : ofKey key i (ofKey key j q) = [] := by
        rw [ofKey, List.filter_filter, List.filter_eq_nil_iff]
        intro a _ ha
        simp only [Bool.and_eq_true, decide_eq_true_eq] at ha
        exact hij (ha.2.symm.trans ha.1)
      rw [hnone, List.nil_append]
      simp only [ofKey, notOfKey, List.filter_filter]
      apply List.filter_congr
      intro a _
      by_cases ha : key a = i
      · have hne : ¬i = j := fun hj => hij hj.symm
        simp [ha, hne]
      · simp [ha]
  | clear =>
    rw [entries_map (fun _ => rfl), exits_map fun _ => rfl]
    simp

/-- Every entry that came in went out once or is there, and the entries of a key go out in the
order in which they came in. -/
theorem Steps.conserves (h : Steps key q m q') (i : κ) :
    ofKey key i q ++ entries key i m = exits key i m ++ ofKey key i q' := by
  induction h with
  | refl => simp [entries, exits]
  | tail _ hstep ih =>
    have hlast := hstep.conserves i
    rw [entries_append, exits_append, ← List.append_assoc, ih, List.append_assoc, hlast,
      List.append_assoc]

end NgxAnytls.Library.KeyedQueue
