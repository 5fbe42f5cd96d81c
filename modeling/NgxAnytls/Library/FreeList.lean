import Mathlib.Data.List.Nodup

/-! Free lists kept with a counter of one machine word: an object is handed out, used and given
back, or given up when the list is full. -/

namespace NgxAnytls.Library.FreeList

variable {α : Type*}

/-- Unlink the first object that will do. -/
def takeFirst (q : α → Bool) : List α → Option (α × List α)
  | [] => none
  | x :: xs => if q x then some (x, xs) else (takeFirst q xs).map fun r => (r.1, x :: r.2)

/-- What is handed out was in the list once more than what is left. -/
theorem takeFirst_perm {q : α → Bool} {l rest : List α} {x : α}
    (ht : takeFirst q l = some (x, rest)) : l.Perm (x :: rest) := by
  induction l generalizing rest with
  | nil => simp [takeFirst] at ht
  | cons a l ih =>
    simp only [takeFirst] at ht
    split_ifs at ht with ha
    · simp only [Option.some.injEq, Prod.mk.injEq] at ht
      obtain ⟨rfl, rfl⟩ := ht
      exact .refl _
    · simp only [Option.map_eq_some_iff, Prod.exists, Prod.mk.injEq] at ht
      obtain ⟨y, r, hr, rfl, rfl⟩ := ht
      exact ((ih hr).cons a).trans (.swap y a r)

theorem takeFirst_sat {q : α → Bool} {l rest : List α} {x : α}
    (ht : takeFirst q l = some (x, rest)) : q x = true := by
  induction l generalizing rest with
  | nil => simp [takeFirst] at ht
  | cons a l ih =>
    simp only [takeFirst] at ht
    split_ifs at ht with ha
    · simp only [Option.some.injEq, Prod.mk.injEq] at ht
      exact ht.1 ▸ ha
    · simp only [Option.map_eq_some_iff, Prod.exists, Prod.mk.injEq] at ht
      obtain ⟨y, r, hr, rfl, -⟩ := ht
      exact ih hr

theorem takeFirst_none {q : α → Bool} {l : List α} (ht : takeFirst q l = none) :
    ∀ x ∈ l, q x = false := by
  induction l with
  | nil => simp
  | cons a l ih =>
    simp only [takeFirst] at ht
    split_ifs at ht with ha
    · intro x hx
      rcases List.mem_cons.mp hx with rfl | hx
      · simpa using ha
      · exact ih (Option.map_eq_none_iff.mp ht) x hx

/-- The number of values of a machine word, 2 to the power of 64. -/
def wordSize : Nat := 18446744073709551616

def countUp (c : Nat) : Nat := (c + 1) % wordSize
def countDown (c : Nat) : Nat := (c + (wordSize - 1)) % wordSize

/-- The counter is the length, and within the cap. -/
def Counted (cap c n : Nat) : Prop := c = n ∧ n ≤ cap

theorem Counted.up {cap c n : Nat} (hc : Counted cap c n) (hroom : c < cap)
    (hcap : cap < wordSize) :
    Counted cap (countUp c) (n + 1) := by
  obtain ⟨rfl, hle⟩ := hc
  have hsmall : c + 1 < wordSize := by omega
  exact ⟨Nat.mod_eq_of_lt hsmall, hroom⟩

theorem Counted.down {cap c n : Nat} (hc : Counted cap c (n + 1)) (hcap : cap < wordSize) :
    Counted cap (countDown c) n := by
  obtain ⟨rfl, hle⟩ := hc
  have hword : n + 1 + (wordSize - 1) = n + wordSize := by
    have hpos : 0 < wordSize := by decide
    omega
  have hn : n < wordSize := by omega
  refine ⟨?_, by omega⟩
  unfold countDown
  rw [hword, Nat.add_mod_right, Nat.mod_eq_of_lt hn]

/-- No object is in two places, and no object was not made yet. -/
structure Custody (places : List Nat) (next : Nat) : Prop where
  once : places.Nodup
  made : ∀ x ∈ places, x < next

variable {places places' a b : List Nat} {next : Nat}

/-- Objects move between places, or are given up. -/
theorem Custody.move (hc : Custody places next)
    (hle : ∀ x, places'.count x ≤ places.count x) : Custody places' next where
  once := by
    rw [List.nodup_iff_count_le_one]
    intro x
    exact Nat.le_trans (hle x) (List.nodup_iff_count_le_one.mp hc.once x)
  made x hx := by
    refine hc.made x (List.count_pos_iff.mp ?_)
    exact Nat.lt_of_lt_of_le (List.count_pos_iff.mpr hx) (hle x)

/-- A new object is made. -/
theorem Custody.make (hc : Custody places next) : Custody (next :: places) (next + 1) where
  once := by
    refine List.nodup_cons.mpr ⟨fun hm => ?_, hc.once⟩
    exact absurd (hc.made next hm) (Nat.lt_irrefl _)
  made x hx := by
    rcases List.mem_cons.mp hx with rfl | hx
    · exact Nat.lt_succ_self _
    · exact Nat.lt_succ_of_lt (hc.made x hx)

theorem Custody.later {n : Nat} (hc : Custody places next) (hn : next ≤ n) : Custody places n :=
  ⟨hc.once, fun x hx => Nat.lt_of_lt_of_le (hc.made x hx) hn⟩

theorem Custody.apart (hc : Custody (a ++ b) next) : ∀ x ∈ a, x ∉ b :=
  fun _ ha hb => (List.nodup_append.mp hc.once).2.2 _ ha _ hb rfl

/-- The counter is the length of the free list, and every object is on the free list or in use. -/
structure Tracked (cap c : Nat) (free used : List Nat) (next : Nat) : Prop where
  counted : Counted cap c free.length
  custody : Custody (free ++ used) next

variable {cap c x : Nat} {free free' used used' rest : List Nat}

theorem Tracked.perm (ht : Tracked cap c free used next) (hp : free.Perm free') :
    Tracked cap c free' used next where
  counted := hp.length_eq ▸ ht.counted
  custody := by
    refine ht.custody.move fun y => Nat.le_of_eq ?_
    rw [List.count_append, List.count_append, hp.count_eq]

/-- Objects in use move, or are given up. -/
theorem Tracked.move (ht : Tracked cap c free used next)
    (hle : ∀ y, used'.count y ≤ used.count y) : Tracked cap c free used' next where
  counted := ht.counted
  custody := by
    refine ht.custody.move fun y => ?_
    rw [List.count_append, List.count_append]
    exact Nat.add_le_add_left (hle y) _

/-- A free object is handed out. -/
theorem Tracked.take (ht : Tracked cap c free used next) (hp : free.Perm (x :: rest))
    (hcap : cap < wordSize) : Tracked cap (countDown c) rest (x :: used) next := by
  have ht' := ht.perm hp
  refine ⟨ht'.counted.down hcap, ht'.custody.move fun y => ?_⟩
  simp only [List.cons_append, List.count_append, List.count_cons]
  omega

/-- A new object is handed out. -/
theorem Tracked.make (ht : Tracked cap c free used next) :
    Tracked cap c free (next :: used) (next + 1) := by
  refine ⟨ht.counted, ht.custody.make.move fun y => ?_⟩
  simp only [List.count_append, List.count_cons]
  omega

/-- An object is given back. -/
theorem Tracked.giveBack (ht : Tracked cap c free (x :: used) next) (hroom : c < cap)
    (hcap : cap < wordSize) : Tracked cap (countUp c) (x :: free) used next := by
  refine ⟨ht.counted.up hroom hcap, ht.custody.move fun y => ?_⟩
  simp only [List.cons_append, List.count_append, List.count_cons]
  omega

/-- An object is given up. -/
theorem Tracked.giveUp (ht : Tracked cap c free (x :: used) next) :
    Tracked cap c free used next := by
  refine ht.move fun y => ?_
  rw [List.count_cons]
  omega

theorem Tracked.later {n : Nat} (ht : Tracked cap c free used next) (hn : next ≤ n) :
    Tracked cap c free used n := ⟨ht.counted, ht.custody.later hn⟩

end NgxAnytls.Library.FreeList
