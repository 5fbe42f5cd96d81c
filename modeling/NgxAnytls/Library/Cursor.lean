import Mathlib.Data.List.Basic
import Mathlib.Data.List.TakeWhile
import Mathlib.Order.Basic

/-! A region of memory that is read at positions: a read outside of the region has no result. -/

namespace NgxAnytls.Library.Cursor

variable {α : Type*}

/-- The positions `i` to `last` of a region. -/
def window (d : List α) (i last : Nat) : List α := (d.take last).drop i

/-- The loop `while (p < last && f(*p)) p++`; without fuel it has no result. -/
def scanLoop (f : α → Bool) (d : List α) (last : Nat) : Nat → Nat → Option Nat
  | 0, _ => none
  | fuel + 1, i =>
    if i < last then d[i]?.bind fun a => if f a then scanLoop f d last fuel (i + 1) else some i
    else some i

def scan (f : α → Bool) (d : List α) (last i : Nat) : Option Nat :=
  scanLoop f d last (last - i + 1) i

/-- The `n` elements at `i`. -/
def slice (d : List α) (i n : Nat) : Option (List α) :=
  if i + n ≤ d.length then some (window d i (i + n)) else none

/-- The region after a write at `i`. -/
def put (d : List α) (i : Nat) (a : α) : Option (List α) :=
  if i < d.length then some (d.set i a) else none

variable {d : List α} {i j last n : Nat}

theorem window_length (d : List α) (i last : Nat) :
    (window d i last).length = min last d.length - i := by
  rw [window, List.length_drop, List.length_take]

theorem window_end (d : List α) (i : Nat) : window d i d.length = d.drop i := by
  rw [window, List.take_length]

theorem window_nil (h : last ≤ i) : window d i last = [] := by
  apply List.eq_nil_of_length_eq_zero
  rw [window_length]
  omega

theorem window_cons (hi : i < last) (hlast : last ≤ d.length) :
    window d i last = d[i] :: window d (i + 1) last := by
  have hlen : i < (d.take last).length := by
    rw [List.length_take]
    omega
  rw [window, List.drop_eq_getElem_cons hlen, List.getElem_take]
  rfl

theorem window_drop (d : List α) (i n last : Nat) :
    (window d i last).drop n = window d (i + n) last := by
  rw [window, List.drop_drop]
  rfl

theorem window_take (d : List α) (i n : Nat) (hn : i + n ≤ last) :
    (window d i last).take n = window d i (i + n) := by
  rw [window, window, List.take_drop, List.take_take, Nat.min_eq_left hn]

theorem slice_eq (h : i + n ≤ d.length) : slice d i n = some (window d i (i + n)) := if_pos h

theorem getElem?_eq (h : i < d.length) : d[i]? = some d[i] := List.getElem?_eq_getElem h

theorem scanLoop_eq (f : α → Bool) (fuel : Nat) (hlast : last ≤ d.length)
    (hfuel : last - i < fuel) :
    scanLoop f d last fuel i = some (i + ((window d i last).takeWhile f).length) := by
  induction fuel generalizing i with
  | zero => exact absurd hfuel (Nat.not_lt_zero _)
  | succ fuel ih =>
    unfold scanLoop
    by_cases hi : i < last
    · rw [if_pos hi, getElem?_eq (Nat.lt_of_lt_of_le hi hlast), Option.bind_some,
        window_cons hi hlast,
        List.takeWhile_cons]
      by_cases hf : f d[i] = true
      · rw [if_pos hf, if_pos hf, ih (by omega), List.length_cons]
        congr 1
        omega
      · rw [if_neg hf, if_neg hf]
        rfl
    · rw [if_neg hi, window_nil (Nat.le_of_not_lt hi)]
      rfl

theorem drop_takeWhile (f : α → Bool) (l : List α) :
    l.drop (l.takeWhile f).length = l.dropWhile f := by
  calc l.drop (l.takeWhile f).length
      = (l.takeWhile f ++ l.dropWhile f).drop (l.takeWhile f).length := by
        rw [List.takeWhile_append_dropWhile]
    _ = l.dropWhile f := List.drop_left

theorem take_takeWhile (f : α → Bool) (l : List α) :
    l.take (l.takeWhile f).length = l.takeWhile f := by
  calc l.take (l.takeWhile f).length
      = (l.takeWhile f ++ l.dropWhile f).take (l.takeWhile f).length := by
        rw [List.takeWhile_append_dropWhile]
    _ = l.takeWhile f := List.take_left

theorem takeWhile_length_lt {f : α → Bool} {l : List α} {a : α} (ha : a ∈ l) (hf : f a = false) :
    (l.takeWhile f).length < l.length := by
  apply Nat.lt_of_le_of_ne (List.takeWhile_prefix f).length_le
  intro hlen
  have hall := (List.takeWhile_prefix f).eq_of_length hlen
  have htrue := List.takeWhile_eq_self_iff.mp hall a ha
  rw [hf] at htrue
  cases htrue

/-- A run and what stops it. -/
theorem run_append {f : α → Bool} {l rest : List α} (hl : ∀ a ∈ l, f a = true)
    (hrest : ∀ a ∈ rest.head?, f a = false) :
    (l ++ rest).takeWhile f = l ∧ (l ++ rest).dropWhile f = rest := by
  rw [List.takeWhile_append_of_pos hl, List.dropWhile_append_of_pos hl]
  cases rest with
  | nil => exact ⟨List.append_nil l, rfl⟩
  | cons a rest =>
    have ha : ¬f a = true := by
      rw [hrest a rfl]
      exact Bool.false_ne_true
    rw [List.takeWhile_cons_of_neg ha, List.dropWhile_cons_of_neg ha]
    exact ⟨List.append_nil l, rfl⟩

/-- What stops the longest run. -/
theorem head_dropWhile {f : α → Bool} {l : List α} : ∀ a ∈ (l.dropWhile f).head?, f a = false := by
  intro a ha
  induction l with
  | nil => cases ha
  | cons b l ih =>
    rw [List.dropWhile_cons] at ha
    split_ifs at ha with hb
    · exact ih ha
    · cases ha
      exact Bool.eq_false_iff.mpr hb

/-- A scan ends inside the region and passes the longest run. -/
theorem scan_eq (f : α → Bool) (i : Nat) (hlast : last ≤ d.length) :
    scan f d last i = some (i + ((window d i last).takeWhile f).length) :=
  scanLoop_eq f _ hlast (Nat.lt_succ_self _)

/-- What a scan passed. -/
theorem window_scanned (f : α → Bool) (d : List α) (i last : Nat) :
    window d i (i + ((window d i last).takeWhile f).length) = (window d i last).takeWhile f := by
  have hle : ((window d i last).takeWhile f).length ≤ (window d i last).length :=
    (List.takeWhile_prefix f).length_le
  rw [window_length] at hle
  by_cases hi : i ≤ last
  · rw [← window_take d i _ (show _ ≤ last by omega)]
    exact take_takeWhile f _
  · rw [window_nil (by omega : last ≤ i)]
    exact window_nil (by simp)

theorem scan_le (f : α → Bool) (hi : i ≤ last) :
    i + ((window d i last).takeWhile f).length ≤ last := by
  have hle : ((window d i last).takeWhile f).length ≤ (window d i last).length :=
    (List.takeWhile_prefix f).length_le
  rw [window_length] at hle
  omega

theorem scan_end (f : α → Bool) (d : List α) (i : Nat) :
    scan f d d.length i = some (i + ((d.drop i).takeWhile f).length) := by
  rw [scan_eq f i le_rfl, window_end]

theorem drop_scan (f : α → Bool) (d : List α) (i : Nat) :
    d.drop (i + ((d.drop i).takeWhile f).length) = (d.drop i).dropWhile f := by
  rw [← List.drop_drop, drop_takeWhile]

theorem scan_end_le (f : α → Bool) (hi : i ≤ d.length) :
    i + ((d.drop i).takeWhile f).length ≤ d.length := by
  have hle := scan_le (d := d) f hi
  rwa [window_end] at hle

theorem drop_ne_nil (hi : i < d.length) : d.drop i ≠ [] := by
  intro hnil
  have hle := List.drop_eq_nil_iff.mp hnil
  omega

end NgxAnytls.Library.Cursor
