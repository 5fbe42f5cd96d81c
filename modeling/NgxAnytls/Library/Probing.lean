import Mathlib.Data.Nat.Bitwise

/-! Linear probing: walks over the cells of an open-addressing table, and the power of two that a
smeared number gives. -/

namespace NgxAnytls.Library.Probing

/-- The `i`-th cell of the probe path from `start` in a table of `n` cells. -/
def path (n start i : Nat) : Nat := (start + i) % n

theorem path_lt {n : Nat} (hn : 0 < n) (start i : Nat) : path n start i < n := Nat.mod_lt _ hn

/-- The next cell continues the path. -/
theorem path_next (n start i : Nat) : path n ((start + 1) % n) i = path n start (i + 1) := by
  rw [path, path, Nat.mod_add_mod, Nat.add_assoc, Nat.add_comm 1 i]

theorem path_zero {n start : Nat} (h : start < n) : path n start 0 = start := Nat.mod_eq_of_lt h

/-- A path of `n` cells comes by every cell. -/
theorem exists_path {n idx : Nat} (start : Nat) (h : idx < n) : ∃ i < n, path n start i = idx := by
  have hstart : start % n < n := Nat.mod_lt _ (by omega)
  refine ⟨(idx + n - start % n) % n, Nat.mod_lt _ (by omega), ?_⟩
  rw [path, Nat.add_mod, Nat.mod_mod, ← Nat.add_mod, ← Nat.mod_add_mod]
  rw [show start % n + (idx + n - start % n) = idx + n by omega, Nat.add_mod_right,
    Nat.mod_eq_of_lt h]

/-- A walk along the path that stops at the first cell that gives a result. -/
def walk {β : Type} (n : Nat) (stop : Nat → Option β) : Nat → Nat → Option β
  | 0, _ => none
  | fuel + 1, idx => (stop idx).or (walk n stop fuel ((idx + 1) % n))

/-- A walk with a result met it at the first cell that has one. -/
theorem first_of_walk {β : Type} {n : Nat} {stop : Nat → Option β} {r : β} {fuel idx : Nat}
    (hidx : idx < n) (hwalk : walk n stop fuel idx = some r) :
    ∃ i < fuel, stop (path n idx i) = some r ∧ ∀ j < i, stop (path n idx j) = none := by
  induction fuel generalizing idx with
  | zero => cases hwalk
  | succ fuel ih =>
    rw [walk] at hwalk
    cases hs : stop idx with
    | some s =>
      rw [hs, Option.some_or] at hwalk
      exact ⟨0, Nat.succ_pos _, by rw [path_zero hidx, hs, hwalk], by simp⟩
    | none =>
      rw [hs, Option.none_or] at hwalk
      obtain ⟨i, hi, hstop, hbefore⟩ := ih (Nat.mod_lt _ (by omega)) hwalk
      refine ⟨i + 1, Nat.succ_lt_succ hi, by rwa [← path_next], fun j hj => ?_⟩
      cases j with
      | zero => rwa [path_zero hidx]
      | succ j =>
        rw [← path_next]
        exact hbefore j (Nat.lt_of_succ_lt_succ hj)

/-- A walk without a result met no cell that has one. -/
theorem none_of_walk {β : Type} {n : Nat} {stop : Nat → Option β} {fuel idx : Nat}
    (hidx : idx < n) (hwalk : walk n stop fuel idx = none) {i : Nat} (hi : i < fuel) :
    stop (path n idx i) = none := by
  induction fuel generalizing idx i with
  | zero => exact absurd hi (Nat.not_lt_zero _)
  | succ fuel ih =>
    rw [walk, Option.or_eq_none_iff] at hwalk
    cases i with
    | zero =>
      rw [path_zero hidx]
      exact hwalk.1
    | succ i =>
      rw [← path_next]
      exact ih (Nat.mod_lt _ (by omega)) hwalk.2 (Nat.lt_of_succ_lt_succ hi)

/-- No cell before `idx` on the path from `start` ends a probe. -/
def Reaches (n : Nat) (free : Nat → Prop) (start idx : Nat) : Prop :=
  ∃ i < n, path n start i = idx ∧ ∀ j < i, ¬free (path n start j)

/-- Filling cells, or marking them deleted, keeps a cell reachable. -/
theorem Reaches.mono {n : Nat} {free free' : Nat → Prop} {start idx : Nat}
    (hfree : ∀ i, free' i → free i) (h : Reaches n free start idx) : Reaches n free' start idx := by
  obtain ⟨i, hi, hpath, hbefore⟩ := h
  exact ⟨i, hi, hpath, fun j hj hf => hbefore j hj (hfree _ hf)⟩

/-- Bit `i` of `y` says whether `x` has a bit among the `w` from `i` on. -/
def Smears (w x y : Nat) : Prop := ∀ i, y.testBit i = true ↔ ∃ j < w, x.testBit (i + j) = true

theorem smears_self (x : Nat) : Smears 1 x x := by
  intro i
  constructor
  · exact fun h => ⟨0, Nat.one_pos, h⟩
  · rintro ⟨j, hj, h⟩
    obtain rfl : j = 0 := by omega
    exact h

/-- Shifting by the width so far doubles it. -/
theorem Smears.double {w x y : Nat} (h : Smears w x y) : Smears (w + w) x (y ||| y >>> w) := by
  intro i
  rw [Nat.testBit_or, Nat.testBit_shiftRight, Bool.or_eq_true, h i, h (w + i)]
  constructor
  · rintro (⟨j, hj, hbit⟩ | ⟨j, hj, hbit⟩)
    · exact ⟨j, by omega, hbit⟩
    · exact ⟨w + j, by omega, by rwa [show i + (w + j) = w + i + j by omega]⟩
  · rintro ⟨j, hj, hbit⟩
    by_cases hlow : j < w
    · exact .inl ⟨j, hlow, hbit⟩
    · exact .inr ⟨j - w, by omega, by rwa [show w + i + (j - w) = i + j by omega]⟩

/-- A number smeared over its width is one less than a power of two. -/
theorem Smears.succ_eq {w x y : Nat} (h : Smears w x y) (hx : x ≠ 0) (hw : x < 2 ^ w) :
    y + 1 = 2 ^ (x.log2 + 1) := by
  have hlog : x.log2 < w := (Nat.log2_lt hx).mpr hw
  have heq : y = 2 ^ (x.log2 + 1) - 1 := by
    refine Nat.eq_of_testBit_eq fun i => ?_
    rw [Nat.testBit_two_pow_sub_one, Bool.eq_iff_iff, h i, decide_eq_true_iff]
    constructor
    · rintro ⟨j, -, hbit⟩
      by_contra hi
      have hlt : x < 2 ^ (i + j) :=
        Nat.lt_log2_self.trans_le (Nat.pow_le_pow_right (by omega) (by omega))
      rw [Nat.testBit_lt_two_pow hlt] at hbit
      cases hbit
    · intro hi
      refine ⟨x.log2 - i, by omega, ?_⟩
      rw [show i + (x.log2 - i) = x.log2 by omega]
      exact Nat.testBit_log2 hx
  have hpos := Nat.two_pow_pos (x.log2 + 1)
  omega

end NgxAnytls.Library.Probing
