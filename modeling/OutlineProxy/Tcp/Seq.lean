import OutlineProxy.Lib.Serial
import OutlineProxy.Tcp.Types

/-! Wrapping comparison of sequence numbers, and what it says about two sequence
numbers given as stream positions. -/

namespace OutlineProxy.Tcp

open Serial

variable (lhs rhs : UInt32)

def seqLt : Bool := decide ((lhs - rhs).toInt32 < 0)

def seqGt : Bool := decide (0 < (lhs - rhs).toInt32)

def seqGe : Bool := !seqLt lhs rhs

def timestampLt : Bool := decide ((lhs - rhs).toInt32 < 0)

def packetSequenceLen (packet : ParsedTcpPacket) : UInt32 :=
  UInt32.ofNat packet.payload.length + (if packet.flags.syn then 1 else 0) + (if packet.flags.fin then 1 else 0)

theorem seqLt_iff : seqLt lhs rhs = true ↔ 2 ^ 31 ≤ (lhs - rhs).toNat := by
  rw [seqLt, decide_eq_true_iff, toInt32_lt_zero_iff]

theorem seqGt_iff :
    seqGt lhs rhs = true ↔ 0 < (lhs - rhs).toNat ∧ (lhs - rhs).toNat < 2 ^ 31 := by
  rw [seqGt, decide_eq_true_iff, zero_lt_toInt32_iff]

theorem seqGe_iff : seqGe lhs rhs = true ↔ (lhs - rhs).toNat < 2 ^ 31 := by
  rw [seqGe, Bool.not_eq_true', Bool.eq_false_iff, ne_eq, seqLt_iff, Nat.not_le]

section Positions

variable (origin : UInt32) {k m : Nat} (hk : k ≤ m + 2 ^ 31) (hm : m < k + 2 ^ 31)

include hk hm

theorem seqLt_point : seqLt (point origin m) (point origin k) = decide (m < k) := by
  grind [seqLt_iff, toNat_point_sub_point_of_lt, toNat_point_sub_point]

theorem seqGt_point : seqGt (point origin m) (point origin k) = decide (k < m) := by
  grind [seqGt_iff, toNat_point_sub_point_of_lt, toNat_point_sub_point]

theorem seqGe_point : seqGe (point origin m) (point origin k) = decide (k ≤ m) := by
  rw [seqGe, seqLt_point origin hk hm, ← decide_not, decide_eq_decide, Nat.not_lt]

end Positions

end OutlineProxy.Tcp
