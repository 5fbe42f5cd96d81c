import Mathlib.Algebra.BigOperators.Group.Finset.Basic
import Mathlib.Data.Multiset.Filter
import Mathlib.Tactic.Abel

/-! Counters kept beside a collection of weighted items, each of which may have an owner: their
number and weight in all, and for every owner. -/

namespace NgxAnytls.Library

@[ext] structure Ledger (ι : Type*) where
  count : Nat
  total : Nat
  ownCount : ι → Nat
  ownTotal : ι → Nat

namespace Ledger

variable {ι α : Type*} [DecidableEq ι] (owner : α → Option ι) (weight : α → Nat)

def add (l : Ledger ι) (a : α) : Ledger ι where
  count := l.count + 1
  total := l.total + weight a
  ownCount i := if owner a = some i then l.ownCount i + 1 else l.ownCount i
  ownTotal i := if owner a = some i then l.ownTotal i + weight a else l.ownTotal i

/-- A counter that is too small becomes zero. -/
def remove (l : Ledger ι) (a : α) : Ledger ι where
  count := l.count - 1
  total := l.total - weight a
  ownCount i := if owner a = some i then l.ownCount i - 1 else l.ownCount i
  ownTotal i := if owner a = some i then l.ownTotal i - weight a else l.ownTotal i

/-- The counters say what is in the collection. -/
structure Accounts (l : Ledger ι) (m : Multiset α) : Prop where
  count : l.count = m.card
  total : l.total = (m.map weight).sum
  ownCount : ∀ i, l.ownCount i = (m.filter fun a => owner a = some i).card
  ownTotal : ∀ i, l.ownTotal i = ((m.filter fun a => owner a = some i).map weight).sum

namespace Accounts

variable {owner weight} {l : Ledger ι} {m m' : Multiset α} {a : α}

theorem add (h : l.Accounts owner weight m) :
    (l.add owner weight a).Accounts owner weight (a ::ₘ m) where
  count := by simp [Ledger.add, h.count]
  total := by simp [Ledger.add, h.total, Nat.add_comm]
  ownCount i := by
    by_cases hi : owner a = some i <;> simp [Ledger.add, h.ownCount, hi]
  ownTotal i := by
    by_cases hi : owner a = some i <;> simp [Ledger.add, h.ownTotal, hi, Nat.add_comm]

theorem remove (h : l.Accounts owner weight (a ::ₘ m)) :
    (l.remove owner weight a).Accounts owner weight m where
  count := by simp [Ledger.remove, h.count]
  total := by simp [Ledger.remove, h.total]
  ownCount i := by
    by_cases hi : owner a = some i <;> simp [Ledger.remove, h.ownCount, hi]
  ownTotal i := by
    by_cases hi : owner a = some i <;> simp [Ledger.remove, h.ownTotal, hi]

omit [DecidableEq ι] in
theorem sum_map_le {s : Multiset α} (hs : s ≤ m) : (s.map weight).sum ≤ (m.map weight).sum := by
  obtain ⟨t, rfl⟩ := Multiset.le_iff_exists_add.mp hs
  simp

theorem weight_le (h : l.Accounts owner weight m) {s : Multiset α} (hs : s ≤ m) :
    s.card ≤ l.count ∧ (s.map weight).sum ≤ l.total := by
  rw [h.count, h.total]
  exact ⟨Multiset.card_le_card hs, sum_map_le hs⟩

/-- The same for the items of one owner. -/
theorem own_le (h : l.Accounts owner weight m) {s : Multiset α} (hs : s ≤ m) {i : ι}
    (hi : ∀ a ∈ s, owner a = some i) :
    s.card ≤ l.ownCount i ∧ (s.map weight).sum ≤ l.ownTotal i := by
  have hown : s ≤ m.filter fun a => owner a = some i := Multiset.le_filter.mpr ⟨hs, hi⟩
  rw [h.ownCount, h.ownTotal]
  exact ⟨Multiset.card_le_card hown, sum_map_le hown⟩

end Accounts

end Ledger

/-- A collection in parts: one part changes. -/
theorem sum_part {ι M : Type*} [DecidableEq ι] [AddCommMonoid M] {s : Finset ι} {i : ι}
    (hi : i ∈ s) {f g : ι → M} (hg : ∀ j ≠ i, g j = f j) :
    ∑ j ∈ s, g j + f i = ∑ j ∈ s, f j + g i := by
  rw [← Finset.add_sum_erase s f hi, ← Finset.add_sum_erase s g hi,
    Finset.sum_congr rfl fun j hj => hg j (Finset.ne_of_mem_erase hj)]
  abel

end NgxAnytls.Library
