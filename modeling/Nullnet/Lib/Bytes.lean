import Mathlib.Data.List.Basic

/-! # Integers in byte strings

Reading big-endian integers at an offset of a byte string. A read that does not fit gives `none`, and
a read inside the front part of a string does not see the rest. -/

namespace Nullnet.Lib

abbrev Bytes : Type := List UInt8

namespace Bytes

/-- The two bytes at an offset. -/
def be16 (b : Bytes) (i : ℕ) : Option UInt16 :=
  b[i]?.bind fun hi => b[i + 1]?.map fun lo => .ofBitVec (hi.toBitVec ++ lo.toBitVec)

/-- The four bytes at an offset. -/
def be32 (b : Bytes) (i : ℕ) : Option (BitVec 32) :=
  (b.be16 i).bind fun hi => (b.be16 (i + 2)).map fun lo => hi.toBitVec ++ lo.toBitVec

def ofBE16 (n : UInt16) : Bytes := [.ofNat (n.toNat / 256), .ofNat n.toNat]

def ofBE32 (n : BitVec 32) : Bytes :=
  ofBE16 (.ofNat (n.toNat / 65536)) ++ ofBE16 (.ofNat n.toNat)

variable {b c : Bytes} {i : ℕ}

theorem be16_append_left (h : i + 1 < b.length) : (b ++ c).be16 i = b.be16 i := by
  unfold be16
  rw [List.getElem?_append_left (by omega), List.getElem?_append_left h]

theorem be16_append_right {n : ℕ} (hn : b.length = n) : (b ++ c).be16 (n + i) = c.be16 i := by
  unfold be16
  rw [← hn]
  rw [Nat.add_assoc, List.getElem?_append_right (by omega), List.getElem?_append_right (by omega),
    Nat.add_sub_cancel_left, Nat.add_sub_cancel_left]

theorem be16_replicate {n : ℕ} {x : UInt8} (h : i + 1 < n) :
    be16 (List.replicate n x) i = some (.ofBitVec (x.toBitVec ++ x.toBitVec)) := by
  unfold be16
  rw [List.getElem?_replicate, List.getElem?_replicate, if_pos (by omega), if_pos h]
  rfl

theorem be16_ofBE16 (n : UInt16) : be16 (ofBE16 n ++ c) 0 = some n := by
  have hn := n.toNat_lt
  refine congrArg some (UInt16.toNat_inj.mp ?_)
  change (BitVec.ofNat 8 (n.toNat / 256) ++ BitVec.ofNat 8 n.toNat : BitVec 16).toNat = n.toNat
  rw [BitVec.toNat_append, ← Nat.shiftLeft_add_eq_or_of_lt (BitVec.isLt _), Nat.shiftLeft_eq,
    BitVec.toNat_ofNat, BitVec.toNat_ofNat]
  omega

end Bytes

end Nullnet.Lib
