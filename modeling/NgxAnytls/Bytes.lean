import Mathlib.Tactic
import Mathlib.Data.List.Infix

/-! Byte strings, big-endian fields and the outcome of an incremental parser. -/

namespace NgxAnytls

abbrev Bytes := List UInt8

/-- What an incremental parser says about the bytes it has. -/
inductive Parse (α : Type) where
  | again
  | error
  | ok (value : α) (consumed : Nat)
  deriving DecidableEq, Repr

/-- Big-endian 16-bit field. -/
def be16 (a b : UInt8) : Nat := a.toNat * 256 + b.toNat

/-- Big-endian 32-bit field. -/
def be32 (a b c d : UInt8) : UInt32 :=
  UInt32.ofNat (a.toNat * 2 ^ 24 + b.toNat * 2 ^ 16 + c.toNat * 2 ^ 8 + d.toNat)

theorem be16_lt (a b : UInt8) : be16 a b < 65536 := by
  have ha := a.toNat_lt
  have hb := b.toNat_lt
  unfold be16
  omega

theorem be16_ofNat (n : Nat) (hn : n < 65536) :
    be16 (UInt8.ofNat (n / 256)) (UInt8.ofNat n) = n := by
  simp only [be16, UInt8.toNat_ofNat']
  omega

theorem be32_ofNat (x : UInt32) :
    be32 (UInt8.ofNat (x.toNat / 2 ^ 24)) (UInt8.ofNat (x.toNat / 2 ^ 16))
      (UInt8.ofNat (x.toNat / 2 ^ 8)) (UInt8.ofNat x.toNat) = x := by
  have hx := x.toNat_lt
  apply UInt32.toNat_inj.mp
  simp only [be32, UInt8.toNat_ofNat', UInt32.toNat_ofNat']
  omega

end NgxAnytls
