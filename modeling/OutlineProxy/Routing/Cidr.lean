import Mathlib.Algebra.Ring.Nat
import OutlineProxy.Lib.Ranges

/-! Sets of address prefixes, kept as sorted and merged ranges. -/

namespace OutlineProxy.Routing

open Ranges BitVec

abbrev Str := List Char

inductive IpAddr where
  | v4 (bits : BitVec 32)
  | v6 (bits : BitVec 128)

inductive TargetAddr where
  | ipV4 (bits : BitVec 32) (port : UInt16)
  | ipV6 (bits : BitVec 128) (port : UInt16)
  | domain (host : Str) (port : UInt16)

def IpAddr.target (port : UInt16) : IpAddr → TargetAddr
  | .v4 bits => .ipV4 bits port
  | .v6 bits => .ipV6 bits port

structure StdText where
  parseIpAddr : Str → Option IpAddr
  parseU8 : Str → Option Nat
  isWhitespace : Char → Bool
  lines : Str → List Str
  debug : Str → String

abbrev Error := List String

def splitOnce (separator : Char) : Str → Option (Str × Str)
  | [] => none
  | c :: rest => if c = separator then some ([], rest) else (splitOnce separator rest).map fun (a, b) => (c :: a, b)

def maxOf (w : Nat) : Nat := 2 ^ w - 1

def cidrToRange {w : Nat} (addr : BitVec w) (prefixLen : Nat) : Nat × Nat :=
  if prefixLen = 0 then (0, maxOf w)
  else
    let mask := allOnes w <<< (w - prefixLen)
    let start := addr &&& mask
    (start.toNat, (start ||| ~~~mask).toNat)

def cidrToRangeV4 (addr : BitVec 32) (prefixLen : Nat) : Nat × Nat := cidrToRange addr prefixLen

def cidrToRangeV6 (addr : BitVec 128) (prefixLen : Nat) : Nat × Nat := cidrToRange addr prefixLen

variable (ranges : List (Nat × Nat))

def mergeV4 : List (Nat × Nat) := merge (maxOf 32) ranges

def mergeV6 : List (Nat × Nat) := merge (maxOf 128) ranges

def containsV4 (ip : BitVec 32) : Bool := contains ranges ip.toNat

def containsV6 (ip : BitVec 128) : Bool := contains ranges ip.toNat

structure CidrSet where
  v4 : List (Nat × Nat) := []
  v6 : List (Nat × Nat) := []

section Parse

variable (std : StdText)

def parsePrefixLen (text : Option Str) (max : Nat) (context : Str) : Except Error Nat :=
  match text with
  | none => .ok max
  | some text =>
    match std.parseU8 text with
    | none => .error ["invalid prefix length in: " ++ String.ofList context]
    | some n =>
      if max < n then
        .error ["prefix length " ++ toString n ++ " exceeds maximum " ++ toString max ++ " in: " ++
          String.ofList context]
      else .ok n

def parsePrefix (s : Str) : Except Error (IpAddr × Nat) :=
  let (addrStr, lenStr) := match splitOnce '/' s with
    | some (a, l) => (a, some l)
    | none => (s, none)
  match std.parseIpAddr addrStr with
  | none => .error ["invalid IP address in prefix: " ++ String.ofList s]
  | some (.v4 ip) => do
    let prefixLen ← parsePrefixLen std lenStr 32 s
    return (.v4 ip, prefixLen)
  | some (.v6 ip) => do
    let prefixLen ← parsePrefixLen std lenStr 128 s
    return (.v6 ip, prefixLen)

def CidrSet.push (set : CidrSet) : IpAddr × Nat → CidrSet
  | (.v4 ip, prefixLen) => { set with v4 := set.v4 ++ [cidrToRangeV4 ip prefixLen] }
  | (.v6 ip, prefixLen) => { set with v6 := set.v6 ++ [cidrToRangeV6 ip prefixLen] }

def CidrSet.parse (prefixes : List Str) : Except Error CidrSet := do
  let set ← prefixes.foldlM (fun (set : CidrSet) s => do
    let parsed ← parsePrefix std s
    return set.push parsed) {}
  return { v4 := mergeV4 set.v4, v6 := mergeV6 set.v6 }

end Parse

def CidrSet.contains (set : CidrSet) : TargetAddr → Bool
  | .ipV4 ip _ => containsV4 set.v4 ip
  | .ipV6 ip _ => containsV6 set.v6 ip
  | .domain _ _ => false

def CidrSet.isEmpty (set : CidrSet) : Bool := set.v4.isEmpty && set.v6.isEmpty

/-- The addresses of one prefix: those of its family that agree with it in the leading bits. -/
def InPrefix (ip : IpAddr) : IpAddr × Nat → Prop
  | (.v4 addr, prefixLen) => ∃ bits, ip = .v4 bits ∧ bits >>> (32 - prefixLen) = addr >>> (32 - prefixLen)
  | (.v6 addr, prefixLen) => ∃ bits, ip = .v6 bits ∧ bits >>> (128 - prefixLen) = addr >>> (128 - prefixLen)

section Ranges

variable {w k : Nat}

theorem toNat_and_mask (addr : BitVec w) (k : Nat) :
    (addr &&& allOnes w <<< k).toNat = addr.toNat / 2 ^ k * 2 ^ k := by
  have hshift : addr &&& allOnes w <<< k = (addr >>> k) <<< k := by grind
  have hle : addr.toNat / 2 ^ k * 2 ^ k < 2 ^ w := Nat.lt_of_le_of_lt (Nat.div_mul_le_self _ _) addr.isLt
  rw [hshift, toNat_shiftLeft, toNat_ushiftRight, Nat.shiftLeft_eq, Nat.shiftRight_eq_div_pow, Nat.mod_eq_of_lt hle]

theorem toNat_not_mask (hk : k ≤ w) : (~~~(allOnes w <<< k)).toNat = 2 ^ k - 1 := by
  apply Nat.eq_of_testBit_eq
  intro i
  rw [testBit_toNat, Nat.testBit_two_pow_sub_one, getLsbD_not, getLsbD_shiftLeft, getLsbD_allOnes]
  by_cases hlow : i < k
  · have hin : i < w := by omega
    simp [hlow, hin]
  · grind

theorem toNat_end (addr : BitVec w) (hk : k ≤ w) :
    (addr &&& allOnes w <<< k ||| ~~~(allOnes w <<< k)).toNat = addr.toNat / 2 ^ k * 2 ^ k + (2 ^ k - 1) := by
  have hpos : 0 < 2 ^ k := Nat.two_pow_pos k
  rw [toNat_or, toNat_and_mask, toNat_not_mask hk, ← Nat.shiftLeft_eq, ← Nat.shiftLeft_add_eq_or_of_lt (by omega)]

theorem holds_cidrToRange (addr ip : BitVec w) (prefixLen : Nat) :
    Holds (cidrToRange addr prefixLen) ip.toNat ↔ ip >>> (w - prefixLen) = addr >>> (w - prefixLen) := by
  rw [← toNat_inj, toNat_ushiftRight, toNat_ushiftRight, Nat.shiftRight_eq_div_pow,
    Nat.shiftRight_eq_div_pow, cidrToRange]
  by_cases hzero : prefixLen = 0
  · rw [if_pos hzero, hzero, Nat.sub_zero, Nat.div_eq_of_lt ip.isLt, Nat.div_eq_of_lt addr.isLt]
    exact iff_of_true ⟨Nat.zero_le _, Nat.le_sub_one_of_lt ip.isLt⟩ rfl
  · have hpos : 0 < 2 ^ (w - prefixLen) := Nat.two_pow_pos _
    rw [if_neg hzero, Nat.div_eq_iff hpos, Nat.add_sub_assoc hpos]
    simp only [Holds, toNat_end addr (Nat.sub_le _ _), toNat_and_mask]

theorem proper_cidrToRange (addr : BitVec w) (prefixLen : Nat) : Proper (maxOf w) (cidrToRange addr prefixLen) := by
  rw [cidrToRange]
  by_cases hzero : prefixLen = 0
  · rw [if_pos hzero]
    exact ⟨Nat.zero_le _, Nat.le_refl _⟩
  · rw [if_neg hzero]
    refine ⟨?_, Nat.le_sub_one_of_lt (isLt _)⟩
    simp only [toNat_end addr (Nat.sub_le _ _), toNat_and_mask]
    exact Nat.le_add_right _ _

end Ranges

section Membership

variable {std : StdText} {prefixes : List Str} {set result : CidrSet}

def rangeV4 : IpAddr × Nat → Option (Nat × Nat)
  | (.v4 addr, len) => some (cidrToRange addr len)
  | (.v6 _, _) => none

def rangeV6 : IpAddr × Nat → Option (Nat × Nat)
  | (.v4 _, _) => none
  | (.v6 addr, len) => some (cidrToRange addr len)

theorem foldl_push (parsed : List (IpAddr × Nat)) (set : CidrSet) :
    parsed.foldl CidrSet.push set =
      { v4 := set.v4 ++ parsed.filterMap rangeV4, v6 := set.v6 ++ parsed.filterMap rangeV6 } := by
  induction parsed generalizing set with
  | nil => simp
  | cons p parsed ih =>
    rcases p with ⟨addr | addr, len⟩ <;>
      simp [ih, CidrSet.push, cidrToRangeV4, cidrToRangeV6, rangeV4, rangeV6, List.filterMap_cons]

theorem foldlM_push (h : prefixes.foldlM (fun (set : CidrSet) s => do
      let parsed ← parsePrefix std s
      return set.push parsed) set = .ok result) :
    ∃ parsed : List (IpAddr × Nat), (∀ p, p ∈ parsed ↔ ∃ s ∈ prefixes, parsePrefix std s = .ok p) ∧
      result = parsed.foldl CidrSet.push set := by
  induction prefixes generalizing set with
  | nil =>
    cases h
    exact ⟨[], by simp, rfl⟩
  | cons s prefixes ih =>
    rw [List.foldlM_cons] at h
    cases hs : parsePrefix std s with
    | error error =>
      rw [hs] at h
      cases h
    | ok p =>
      rw [hs] at h
      obtain ⟨parsed, hparsed, hresult⟩ := ih h
      refine ⟨p :: parsed, fun q => ?_, hresult⟩
      simp [hparsed, hs, eq_comm]

theorem parse_eq_ok (h : CidrSet.parse std prefixes = .ok set) :
    ∃ parsed : List (IpAddr × Nat), (∀ p, p ∈ parsed ↔ ∃ s ∈ prefixes, parsePrefix std s = .ok p) ∧
      set = { v4 := mergeV4 (parsed.filterMap rangeV4), v6 := mergeV6 (parsed.filterMap rangeV6) } := by
  unfold CidrSet.parse at h
  cases hfold : prefixes.foldlM (fun (set : CidrSet) s => do
      let parsed ← parsePrefix std s
      return set.push parsed) {} with
  | error error =>
    rw [hfold] at h
    cases h
  | ok collected =>
    rw [hfold] at h
    obtain ⟨parsed, hparsed, rfl⟩ := foldlM_push hfold
    rw [foldl_push] at h
    exact ⟨parsed, hparsed, (Except.ok.inj h).symm⟩

theorem contains_merge_cidr {w : Nat} {ranges : List (Nat × Nat)} {member : BitVec w → Nat → Prop} (ip : BitVec w)
    (hranges : ∀ range, range ∈ ranges ↔ ∃ addr len, member addr len ∧ cidrToRange addr len = range) :
    contains (merge (maxOf w) ranges) ip.toNat = true ↔
      ∃ addr len, member addr len ∧ ip >>> (w - len) = addr >>> (w - len) := by
  have hproper : ∀ range ∈ ranges, Proper (maxOf w) range := by grind [proper_cidrToRange]
  rw [contains_merge hproper]
  constructor
  · rintro ⟨range, hrange, hholds⟩
    obtain ⟨addr, len, hmember, rfl⟩ := (hranges range).mp hrange
    exact ⟨addr, len, hmember, (holds_cidrToRange addr ip len).mp hholds⟩
  · rintro ⟨addr, len, hmember, hbits⟩
    exact ⟨_, (hranges _).mpr ⟨addr, len, hmember, rfl⟩, (holds_cidrToRange addr ip len).mpr hbits⟩

variable {p : IpAddr × Nat}

theorem rangeV4_eq_some {range : Nat × Nat} :
    rangeV4 p = some range ↔ ∃ addr, p.1 = .v4 addr ∧ cidrToRange addr p.2 = range := by
  rcases p with ⟨addr | addr, len⟩ <;> simp [rangeV4]

theorem rangeV6_eq_some {range : Nat × Nat} :
    rangeV6 p = some range ↔ ∃ addr, p.1 = .v6 addr ∧ cidrToRange addr p.2 = range := by
  rcases p with ⟨addr | addr, len⟩ <;> simp [rangeV6]

theorem inPrefix_v4 {bits : BitVec 32} :
    InPrefix (.v4 bits) p ↔ ∃ addr, p.1 = .v4 addr ∧ bits >>> (32 - p.2) = addr >>> (32 - p.2) := by
  rcases p with ⟨addr | addr, len⟩ <;> simp [InPrefix]

theorem inPrefix_v6 {bits : BitVec 128} :
    InPrefix (.v6 bits) p ↔ ∃ addr, p.1 = .v6 addr ∧ bits >>> (128 - p.2) = addr >>> (128 - p.2) := by
  rcases p with ⟨addr | addr, len⟩ <;> simp [InPrefix]

theorem contains_merge_family {w : Nat} {wrap : BitVec w → IpAddr} {rangeOf : IpAddr × Nat → Option (Nat × Nat)}
    (hrangeOf : ∀ {p range}, rangeOf p = some range ↔ ∃ addr, p.1 = wrap addr ∧ cidrToRange addr p.2 = range)
    (hin : ∀ {bits p}, InPrefix (wrap bits) p ↔ ∃ addr, p.1 = wrap addr ∧ bits >>> (w - p.2) = addr >>> (w - p.2))
    (parsed : List (IpAddr × Nat)) (bits : BitVec w) :
    contains (merge (maxOf w) (parsed.filterMap rangeOf)) bits.toNat = true ↔ ∃ p ∈ parsed, InPrefix (wrap bits) p := by
  have hranges : ∀ range, range ∈ parsed.filterMap rangeOf ↔
      ∃ addr len, (wrap addr, len) ∈ parsed ∧ cidrToRange addr len = range := by grind
  refine (contains_merge_cidr bits hranges).trans ?_
  constructor
  · rintro ⟨addr, len, hmem, hbits⟩
    exact ⟨_, hmem, hin.mpr ⟨addr, rfl, hbits⟩⟩
  · grind

theorem contains_parse (h : CidrSet.parse std prefixes = .ok set) (ip : IpAddr) (port : UInt16) :
    set.contains (ip.target port) = true ↔ ∃ s ∈ prefixes, ∃ p, parsePrefix std s = .ok p ∧ InPrefix ip p := by
  obtain ⟨parsed, hparsed, rfl⟩ := parse_eq_ok h
  have hmem : (∃ s ∈ prefixes, ∃ p, parsePrefix std s = .ok p ∧ InPrefix ip p) ↔ ∃ p ∈ parsed, InPrefix ip p := by grind
  rw [hmem]
  cases ip with
  | v4 bits => exact contains_merge_family rangeV4_eq_some inPrefix_v4 parsed bits
  | v6 bits => exact contains_merge_family rangeV6_eq_some inPrefix_v6 parsed bits

end Membership

end OutlineProxy.Routing
