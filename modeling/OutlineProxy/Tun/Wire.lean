import Mathlib.Data.List.Induction
import OutlineProxy.Lib.OnesComplement

/-! Reading and summing the bytes of IP packets. -/

namespace OutlineProxy.Tun

open Sealing OnesComplement

abbrev Bytes := List UInt8

abbrev Octets (n : Nat) := { bytes : Bytes // bytes.length = n }

inductive IpVersion where
  | v4
  | v6
deriving DecidableEq

inductive IpAddr where
  | v4 (octets : Octets 4)
  | v6 (octets : Octets 16)
deriving DecidableEq

inductive L4Checksum where
  | unverified
  | recomputed

def ipv4HeaderLen : Nat := 20

def ipv6HeaderLen : Nat := 40

def ipv6NextHeaderHopByHop : UInt8 := 0

def ipv6NextHeaderTcp : UInt8 := 6

def ipv6NextHeaderUdp : UInt8 := 17

def ipv6NextHeaderRouting : UInt8 := 43

def ipv6NextHeaderFragment : UInt8 := 44

def ipv6NextHeaderAuth : UInt8 := 51

def ipv6NextHeaderIcmpv6 : UInt8 := 58

def ipv6NextHeaderNone : UInt8 := 59

def ipv6NextHeaderDestinationOptions : UInt8 := 60

section Fields

def byteAt (bytes : Bytes) (i : Nat) : UInt8 := bytes.getD i 0

def octetsAt (n : Nat) (bytes : Bytes) (i : Nat) : Octets n :=
  ⟨(List.range n).map fun k => byteAt bytes (i + k), by simp⟩

def beAt (width : Nat) (bytes : Bytes) (i : Nat) : Nat := ofBe (octetsAt width bytes i).1

def slice (bytes : Bytes) (start stop : Nat) : Bytes := (bytes.take stop).drop start

variable {before field after : Bytes} {i n width : Nat}

theorem byteAt_append_left (h : i < before.length) : byteAt (before ++ after) i = byteAt before i := by
  simp [byteAt, List.getD, List.getElem?_append_left h]

theorem byteAt_append_right (h : before.length ≤ i) :
    byteAt (before ++ after) i = byteAt after (i - before.length) := by
  simp [byteAt, List.getD, List.getElem?_append_right h]

theorem byteAt_field {byte : UInt8} (hi : i = before.length) : byteAt (before ++ byte :: after) i = byte := by
  rw [byteAt_append_right (Nat.le_of_eq hi.symm), hi, Nat.sub_self]
  rfl

theorem octetsAt_field (hi : i = before.length) (hn : field.length = n) :
    (octetsAt n (before ++ (field ++ after)) i).1 = field := by
  subst hi hn
  refine List.ext_getElem (by simp [octetsAt]) ?_
  intro k _ hk
  simp only [octetsAt, List.getElem_map, List.getElem_range]
  rw [byteAt_append_right (Nat.le_add_right _ _), Nat.add_sub_cancel_left, byteAt_append_left hk]
  simp [byteAt, List.getD, hk]

theorem ofBe_lt (bytes : Bytes) : ofBe bytes < 256 ^ bytes.length := by
  induction bytes using List.reverseRecOn with
  | nil => exact Nat.one_pos
  | append_singleton bytes byte ih =>
    have hbyte := byte.toNat_lt
    simp only [ofBe] at ih
    simp only [ofBe, List.foldl_append, List.foldl_cons, List.foldl_nil, List.length_append, List.length_singleton,
      Nat.pow_succ]
    omega

theorem beAt_lt (width : Nat) (bytes : Bytes) (i : Nat) : beAt width bytes i < 256 ^ width := by
  have h := ofBe_lt (octetsAt width bytes i).1
  rwa [(octetsAt width bytes i).2] at h

theorem beAt_field (hi : i = before.length) (hn : n < 256 ^ width) :
    beAt width (before ++ (toBe width n ++ after)) i = n := by
  rw [beAt, octetsAt_field hi (length_toBe _ _), ofBe_toBe hn]

theorem beAt_start (hn : n < 256 ^ width) : beAt width (toBe width n ++ after) 0 = n :=
  beAt_field (List.length_nil (α := UInt8)).symm hn

theorem octetsAt_skip (n : Nat) (hi : before.length ≤ i) :
    octetsAt n (before ++ after) i = octetsAt n after (i - before.length) := by
  apply Subtype.ext
  apply List.map_congr_left
  intro k _
  rw [byteAt_append_right (by omega), Nat.sub_add_comm hi]

theorem octetsAt_start (octets : Octets n) (after : Bytes) : octetsAt n (octets.1 ++ after) 0 = octets :=
  Subtype.ext (octetsAt_field (List.length_nil (α := UInt8)).symm octets.2)

theorem beAt_skip (width : Nat) (hi : before.length ≤ i) :
    beAt width (before ++ after) i = beAt width after (i - before.length) := by
  rw [beAt, octetsAt_skip width hi, beAt]

theorem slice_field {stop : Nat} (hi : i = before.length) (hstop : stop = before.length + field.length) :
    slice (before ++ (field ++ after)) i stop = field := by
  rw [slice, ← List.append_assoc]
  exact drop_take_field before field after hi hstop

theorem slice_to_end {stop : Nat} (hi : i = before.length) (hstop : stop = before.length + after.length) :
    slice (before ++ after) i stop = after := by
  rw [slice, hstop, ← List.length_append, List.take_length, hi, List.drop_left]

end Fields

section Checksums

def sumChunks (sum : Nat) : Bytes → Nat × Bytes
  | a :: b :: c :: d :: e :: f :: g :: h :: rest =>
    let word := ofBe [a, b, c, d, e, f, g, h]
    sumChunks (sum + word / 2 ^ 32 + word % 2 ^ 32) rest
  | rem => (sum, rem)

def sumPairs (sum : Nat) : Bytes → Nat × Option UInt8
  | [] => (sum, none)
  | [high] => (sum, some high)
  | high :: low :: rest => sumPairs (sum + ofBe [high, low]) rest

def sumAligned (sum : Nat) (bytes : Bytes) : Nat × Option UInt8 :=
  let (sum, rem) := sumChunks sum bytes
  sumPairs sum rem

def sumPart : Nat × Option UInt8 → Bytes → Nat × Option UInt8
  | (sum, none), part => sumAligned sum part
  | (sum, some high), [] => (sum, some high)
  | (sum, some high), low :: rest => sumAligned (sum + ofBe [high, low]) rest

def foldCarry : Nat → Nat → Nat
  | 0, sum => sum
  | fuel + 1, sum => if sum / 2 ^ 16 ≠ 0 then foldCarry fuel (sum % 2 ^ 16 + sum / 2 ^ 16) else sum

def checksum16Parts (parts : List Bytes) : Nat :=
  let (sum, pending) := parts.foldl sumPart (0, none)
  let sum := match pending with
    | some high => sum + ofBe [high, 0]
    | none => sum
  65535 - foldCarry sum sum % 2 ^ 16

def checksum16 (data : Bytes) : Nat := checksum16Parts [data]

def ipv4PayloadChecksum (source destination : Octets 4) (protocol : UInt8) (payload : Bytes) : Nat :=
  checksum16Parts [source.1, destination.1, [0, protocol], toBe 2 payload.length, payload]

variable (source destination : Octets 16) (nextHeader : UInt8)

def ipv6PayloadChecksum (payload : Bytes) : Nat :=
  checksum16Parts [source.1, destination.1, toBe 4 payload.length, [0, 0, 0, nextHeader], payload]

theorem wordSum_pair (high low : UInt8) : wordSum [high, low] = ofBe [high, low] := by
  simp [ofBe, wordSum_cons_cons]

/-- The sum counts the words of `whole` up to end-around carries, at less than `2 ^ 30` for a byte. -/
structure Tally (sum : Nat) (whole : Bytes) : Prop where
  even : whole.length % 2 = 0
  words : fold sum = fold (wordSum whole)
  le : sum ≤ 2 ^ 30 * whole.length

/-- A last odd byte is pending. -/
def Sums (acc : Nat × Option UInt8) (bytes : Bytes) : Prop := ∃ whole, bytes = whole ++ acc.2.toList ∧ Tally acc.1 whole

variable {sum : Nat} {whole : Bytes}

theorem Tally.add (h : Tally sum whole) {n : Nat} {bytes : Bytes} (heven : bytes.length % 2 = 0)
    (hwords : fold (sum + n) = fold (sum + wordSum bytes)) (hle : n ≤ 2 ^ 30 * bytes.length) :
    Tally (sum + n) (whole ++ bytes) := by
  have hsum := h.le
  have hwhole := h.even
  refine ⟨?_, ?_, ?_⟩
  · rw [List.length_append]
    omega
  · rw [hwords, wordSum_append hwhole]
    exact fold_add_congr h.words _
  · rw [List.length_append]
    omega

theorem Tally.pair (h : Tally sum whole) (high low : UInt8) :
    Tally (sum + ofBe [high, low]) (whole ++ [high, low]) := by
  have hword : ofBe [high, low] < 256 ^ 2 := ofBe_lt _
  exact h.add (by simp) (by rw [wordSum_pair]) (by rw [List.length_cons, List.length_singleton]; omega)

theorem Tally.sumPairs (h : Tally sum whole) (bytes : Bytes) : Sums (sumPairs sum bytes) (whole ++ bytes) := by
  fun_induction Tun.sumPairs sum bytes generalizing whole with
  | case1 sum => exact ⟨whole, rfl, h⟩
  | case2 sum high => exact ⟨whole, rfl, h⟩
  | case3 sum high low rest ih =>
    rw [List.append_cons, List.append_cons, List.append_assoc _ [high]]
    exact ih (h.pair high low)

theorem fold_chunk (a b c d e f g h : UInt8) :
    fold (sum + ofBe [a, b, c, d, e, f, g, h] / 2 ^ 32 + ofBe [a, b, c, d, e, f, g, h] % 2 ^ 32) =
      fold (sum + wordSum [a, b, c, d, e, f, g, h]) := by
  have he := e.toNat_lt
  have hf := f.toNat_lt
  have hg := g.toNat_lt
  have hh := h.toNat_lt
  have hhigh : ofBe [a, b, c, d, e, f, g, h] / 2 ^ 32 = wordSum [a, b] * 65536 + wordSum [c, d] := by
    simp only [ofBe, List.foldl_cons, List.foldl_nil, wordSum_cons_cons, wordSum_nil]
    omega
  have hlow : ofBe [a, b, c, d, e, f, g, h] % 2 ^ 32 = wordSum [e, f] * 65536 + wordSum [g, h] := by
    simp only [ofBe, List.foldl_cons, List.foldl_nil, wordSum_cons_cons, wordSum_nil]
    omega
  have hwords : wordSum [a, b, c, d, e, f, g, h] =
      wordSum [a, b] + wordSum [c, d] + wordSum [e, f] + wordSum [g, h] := by
    simp only [wordSum_cons_cons, wordSum_nil]
    omega
  rw [hhigh, hlow, hwords, fold_eq_iff]
  omega

theorem Tally.sumAligned (h : Tally sum whole) (bytes : Bytes) : Sums (sumAligned sum bytes) (whole ++ bytes) := by
  unfold Tun.sumAligned
  fun_induction sumChunks sum bytes generalizing whole with
  | case1 =>
    rename_i sum a b c d e f g k rest word ih
    have hword : word < 256 ^ 8 := ofBe_lt _
    have hassoc :
        whole ++ a :: b :: c :: d :: e :: f :: g :: k :: rest = (whole ++ [a, b, c, d, e, f, g, k]) ++ rest := by
      simp
    rw [hassoc]
    refine ih ?_
    rw [Nat.add_assoc]
    refine h.add (by simp) ?_ (by simp only [List.length_cons, List.length_nil]; omega)
    rw [← Nat.add_assoc]
    exact fold_chunk ..
  | case2 sum rem hrem => exact h.sumPairs rem

theorem Sums.part {acc : Nat × Option UInt8} {bytes : Bytes} (h : Sums acc bytes) (part : Bytes) :
    Sums (sumPart acc part) (bytes ++ part) := by
  obtain ⟨whole, rfl, htally⟩ := h
  obtain ⟨sum, pending⟩ := acc
  cases pending with
  | none =>
    rw [Option.toList_none, List.append_nil]
    exact htally.sumAligned part
  | some high =>
    cases part with
    | nil => exact ⟨whole, List.append_nil _, htally⟩
    | cons low rest =>
      have hassoc : whole ++ (some high).toList ++ low :: rest = (whole ++ [high, low]) ++ rest := by simp
      rw [hassoc]
      exact (htally.pair high low).sumAligned rest

theorem sums_foldl {acc : Nat × Option UInt8} {bytes : Bytes} (h : Sums acc bytes) (parts : List Bytes) :
    Sums (parts.foldl sumPart acc) (bytes ++ parts.flatten) := by
  induction parts generalizing acc bytes with
  | nil =>
    rw [List.flatten_nil, List.append_nil]
    exact h
  | cons part parts ih =>
    rw [List.foldl_cons, List.flatten_cons, ← List.append_assoc]
    exact ih (h.part part)

theorem sums_parts (parts : List Bytes) : Sums (parts.foldl sumPart (0, none)) parts.flatten :=
  sums_foldl ⟨[], rfl, rfl, rfl, Nat.le_refl _⟩ parts

theorem foldCarry_eq {fuel : Nat} (hfuel : sum ≤ fuel) : foldCarry fuel sum = fold sum := by
  induction fuel generalizing sum with
  | zero =>
    rw [foldCarry, fold_of_le (by omega)]
  | succ fuel ih => grind [foldCarry, sum, fold_carry, fold_of_le]

theorem checksum16Parts_eq (parts : List Bytes) : checksum16Parts parts = 65535 - fold (wordSum parts.flatten) := by
  obtain ⟨whole, hbytes, heven, hsum, -⟩ := sums_parts parts
  have hle := fold_le (wordSum parts.flatten)
  unfold checksum16Parts
  rcases hacc : parts.foldl sumPart (0, none) with ⟨sum, pending⟩
  rw [hacc] at hbytes hsum
  rw [hbytes] at hle ⊢
  rw [wordSum_append heven] at hle ⊢
  cases pending with
  | none => grind [foldCarry_eq, Option.toList_none, wordSum_nil]
  | some high =>
    have hodd : ofBe [high, 0] = wordSum [high] := by simp [ofBe]
    simp only [foldCarry_eq (Nat.le_refl _), hodd, fold_add_congr hsum, Option.toList_some] at hle ⊢
    omega

theorem checksum16_eq (data : Bytes) : checksum16 data = 65535 - fold (wordSum data) := by
  rw [checksum16, checksum16Parts_eq, List.flatten_singleton]

theorem checksum16_eq_zero_iff (data : Bytes) : checksum16 data = 0 ↔ Verifies data := by
  have hle := fold_le (wordSum data)
  rw [checksum16_eq, verifies_iff]
  omega

def ipv4Summed (source destination : Octets 4) (protocol : UInt8) (payload : Bytes) : Bytes :=
  source.1 ++ (destination.1 ++ ([0, protocol] ++ (toBe 2 payload.length ++ payload)))

def ipv6Summed (payload : Bytes) : Bytes :=
  source.1 ++ (destination.1 ++ (toBe 4 payload.length ++ ([0, 0, 0, nextHeader] ++ payload)))

theorem ipv4PayloadChecksum_eq (source destination : Octets 4) (protocol : UInt8) (payload : Bytes) :
    ipv4PayloadChecksum source destination protocol payload =
      65535 - fold (wordSum (ipv4Summed source destination protocol payload)) := by
  simp only [ipv4PayloadChecksum, checksum16Parts_eq, List.flatten_cons, List.flatten_nil, List.append_nil, ipv4Summed]

theorem ipv6PayloadChecksum_eq (payload : Bytes) :
    ipv6PayloadChecksum source destination nextHeader payload =
      65535 - fold (wordSum (ipv6Summed source destination nextHeader payload)) := by
  simp only [ipv6PayloadChecksum, checksum16Parts_eq, List.flatten_cons, List.flatten_nil, List.append_nil, ipv6Summed]

/-- A checksum is the complement over `summed`, which is the payload behind a pseudo header. -/
structure Covers (summed : Bytes → Bytes) (payloadChecksum : Bytes → Nat) : Prop where
  sum : ∀ payload, payloadChecksum payload = 65535 - fold (wordSum (summed payload))
  split : ∀ n, ∃ pseudo : Bytes, pseudo.length % 2 = 0 ∧
    ∀ payload : Bytes, payload.length = n → summed payload = pseudo ++ payload

theorem ipv4_covers (source destination : Octets 4) (protocol : UInt8) :
    Covers (ipv4Summed source destination protocol) (ipv4PayloadChecksum source destination protocol) := by
  refine ⟨ipv4PayloadChecksum_eq source destination protocol, fun n =>
    ⟨source.1 ++ destination.1 ++ [0, protocol] ++ toBe 2 n, by simp [source.2, destination.2], ?_⟩⟩
  rintro payload rfl
  simp [ipv4Summed]

theorem ipv6_covers :
    Covers (ipv6Summed source destination nextHeader) (ipv6PayloadChecksum source destination nextHeader) := by
  refine ⟨ipv6PayloadChecksum_eq source destination nextHeader, fun n =>
    ⟨source.1 ++ destination.1 ++ toBe 4 n ++ [0, 0, 0, nextHeader], by simp [source.2, destination.2], ?_⟩⟩
  rintro payload rfl
  simp [ipv6Summed]

variable {summed : Bytes → Bytes} {payloadChecksum : Bytes → Nat}

theorem Covers.eq_zero_iff (h : Covers summed payloadChecksum) (payload : Bytes) :
    payloadChecksum payload = 0 ↔ Verifies (summed payload) := by
  have hle := fold_le (wordSum (summed payload))
  rw [h.sum, verifies_iff]
  omega

theorem Covers.verifies (h : Covers summed payloadChecksum) {before : Bytes} (heven : before.length % 2 = 0)
    (after : Bytes) {n : Nat} (hn : n = payloadChecksum (before ++ (toBe 2 0 ++ after)) ∨
      payloadChecksum (before ++ (toBe 2 0 ++ after)) = 0 ∧ n = 65535) :
    Verifies (summed (before ++ (toBe 2 n ++ after))) := by
  obtain ⟨pseudo, hpseudo, hsummed⟩ := h.split (before.length + (2 + after.length))
  have hsplit : ∀ n, summed (before ++ (toBe 2 n ++ after)) = (pseudo ++ before) ++ (toBe 2 n ++ after) := by
    intro n
    rw [hsummed _ (by simp), List.append_assoc]
  have hlead : (pseudo ++ before).length % 2 = 0 := by
    rw [List.length_append]
    omega
  rcases hn with rfl | ⟨hzero, rfl⟩
  · rw [h.sum, hsplit, hsplit]
    exact verifies_of_complement hlead
  · rw [h.eq_zero_iff, hsplit] at hzero
    rw [hsplit]
    exact verifies_all_ones hlead hzero

end Checksums

section Headers

def ipv4Header (totalLen : Nat) (protocol : UInt8) (checksum : Nat) (source destination : Octets 4) : Bytes :=
  [0x45, 0] ++ (toBe 2 totalLen ++ ([0, 0, 0, 0, 64, protocol] ++ (toBe 2 checksum ++ (source.1 ++ destination.1))))

def ipv6Header (payloadLen : Nat) (nextHeader : UInt8) (source destination : Octets 16) : Bytes :=
  [0x60, 0, 0, 0] ++ (toBe 2 payloadLen ++ ([nextHeader, 64] ++ (source.1 ++ destination.1)))

variable {totalLen checksum payloadLen : Nat} {protocol nextHeader : UInt8}

@[simp] theorem length_ipv4Header (source destination : Octets 4) :
    (ipv4Header totalLen protocol checksum source destination).length = 20 := by
  simp [ipv4Header, source.2, destination.2]

@[simp] theorem length_ipv6Header (source destination : Octets 16) :
    (ipv6Header payloadLen nextHeader source destination).length = 40 := by
  simp [ipv6Header, source.2, destination.2]

@[simp] theorem head?_ipv4Header (source destination : Octets 4) :
    (ipv4Header totalLen protocol checksum source destination).head? = some 0x45 := rfl

@[simp] theorem head?_ipv6Header (source destination : Octets 16) :
    (ipv6Header payloadLen nextHeader source destination).head? = some 0x60 := rfl

theorem ipv4Header_verifies (totalLen : Nat) (protocol : UInt8) (source destination : Octets 4) :
    Verifies (ipv4Header totalLen protocol (checksum16 (ipv4Header totalLen protocol 0 source destination))
      source destination) := by
  have hsplit : ∀ n, ipv4Header totalLen protocol n source destination =
      ([0x45, 0] ++ (toBe 2 totalLen ++ [0, 0, 0, 0, 64, protocol])) ++ (toBe 2 n ++ (source.1 ++ destination.1)) := by
    intro n
    simp only [ipv4Header, List.append_assoc]
  rw [checksum16_eq, hsplit, hsplit]
  apply verifies_of_complement
  simp

theorem ipv4Header_fields (protocol : UInt8) (checksum : Nat) (source destination : Octets 4) (rest : Bytes)
    (htotal : totalLen < 65536) :
    let packet := ipv4Header totalLen protocol checksum source destination ++ rest
    byteAt packet 0 = 0x45 ∧ beAt 2 packet 2 = totalLen ∧ beAt 2 packet 6 = 0 ∧ byteAt packet 9 = protocol ∧
      octetsAt 4 packet 12 = source ∧ octetsAt 4 packet 16 = destination := by
  refine ⟨rfl, ?_, by simp [ipv4Header, beAt, octetsAt, byteAt, toBe, List.range_succ, ofBe],
    by simp [ipv4Header, byteAt, toBe], ?_, ?_⟩
  all_goals simp (disch := simp [source.2]) only [ipv4Header, List.append_assoc, beAt_skip, octetsAt_skip]
  · exact beAt_start htotal
  · exact octetsAt_start source _
  · simp [source.2, octetsAt_start]

theorem ipv6Header_fields (nextHeader : UInt8) (source destination : Octets 16) (rest : Bytes)
    (hpayload : payloadLen < 65536) :
    let packet := ipv6Header payloadLen nextHeader source destination ++ rest
    byteAt packet 0 = 0x60 ∧ beAt 2 packet 4 = payloadLen ∧ byteAt packet 6 = nextHeader ∧
      octetsAt 16 packet 8 = source ∧ octetsAt 16 packet 24 = destination := by
  refine ⟨rfl, ?_, by simp [ipv6Header, byteAt, toBe], ?_, ?_⟩
  all_goals simp (disch := simp [source.2]) only [ipv6Header, List.append_assoc, beAt_skip, octetsAt_skip]
  · exact beAt_start hpayload
  · exact octetsAt_start source _
  · simp [source.2, octetsAt_start]

end Headers

section ExtensionHeaders

structure Ipv6PayloadInfo where
  nextHeader : UInt8
  payloadOffset : Nat
  totalLen : Nat
  nextHeaderFieldOffset : Nat
deriving DecidableEq

inductive HeaderKind where
  | upperLayer
  | options
  | authentication

def headerKind (nextHeader : UInt8) : HeaderKind :=
  if nextHeader = ipv6NextHeaderTcp ∨ nextHeader = ipv6NextHeaderUdp ∨ nextHeader = ipv6NextHeaderIcmpv6 ∨
      nextHeader = ipv6NextHeaderFragment ∨ nextHeader = ipv6NextHeaderNone then .upperLayer
  else if nextHeader = ipv6NextHeaderHopByHop ∨ nextHeader = ipv6NextHeaderRouting ∨
      nextHeader = ipv6NextHeaderDestinationOptions then .options
  else if nextHeader = ipv6NextHeaderAuth then .authentication
  -- an unknown header ends the chain
  else .upperLayer

/-- The loop over the extension headers.  Every turn moves `offset` on by at least eight. -/
def locateWithin (packet : Bytes) (totalLen : Nat) : Nat → UInt8 → Nat → Nat → Except String Ipv6PayloadInfo
  | 0, nextHeader, fieldOffset, offset => .ok ⟨nextHeader, offset, totalLen, fieldOffset⟩
  | fuel + 1, nextHeader, fieldOffset, offset =>
    match headerKind nextHeader with
    | .upperLayer => .ok ⟨nextHeader, offset, totalLen, fieldOffset⟩
    | .options =>
      if totalLen < offset + 2 then .error "truncated IPv6 extension header"
      else
        let headerLen := ((byteAt packet (offset + 1)).toNat + 1) * 8
        if headerLen < 8 ∨ totalLen < offset + headerLen then .error "invalid IPv6 extension header length"
        else locateWithin packet totalLen fuel (byteAt packet offset) offset (offset + headerLen)
    | .authentication =>
      if totalLen < offset + 2 then .error "truncated IPv6 authentication header"
      else
        let headerLen := ((byteAt packet (offset + 1)).toNat + 2) * 4
        if headerLen < 8 ∨ totalLen < offset + headerLen then .error "invalid IPv6 authentication header length"
        else locateWithin packet totalLen fuel (byteAt packet offset) offset (offset + headerLen)

def locateIpv6Payload (packet : Bytes) : Except String Ipv6PayloadInfo :=
  if packet.length < ipv6HeaderLen then .error "short IPv6 packet"
  else
    let totalLen := ipv6HeaderLen + beAt 2 packet 4
    if packet.length < totalLen then .error "truncated IPv6 packet"
    else locateWithin packet totalLen (totalLen + 1) (byteAt packet 6) 6 ipv6HeaderLen

def locateIpv6UpperLayer (packet : Bytes) : Except String (UInt8 × Nat × Nat) := do
  let info ← locateIpv6Payload packet
  return (info.nextHeader, info.payloadOffset, info.totalLen)

section Packets

open List

/-- An extension header without its next-header field.  The length counts the bytes of both fields before `rest`. -/
structure Ipv6Extension where
  type : UInt8
  len : UInt8
  rest : Bytes
  kind : type = ipv6NextHeaderHopByHop ∨ type = ipv6NextHeaderRouting ∨ type = ipv6NextHeaderDestinationOptions ∨
    type = ipv6NextHeaderAuth
  length_rest : 2 + rest.length = if type = ipv6NextHeaderAuth then (len.toNat + 2) * 4 else (len.toNat + 1) * 8

theorem Ipv6Extension.headerKind_type (extension : Ipv6Extension) :
    headerKind extension.type = if extension.type = ipv6NextHeaderAuth then .authentication else .options := by
  rcases extension.kind with h | h | h | h <;> rw [h] <;> rfl

variable {extensions : List Ipv6Extension} {last : UInt8} {before after : Bytes}
  {totalLen fuel fieldOffset payloadLen : Nat}

def chainHead (extensions : List Ipv6Extension) (last : UInt8) : UInt8 :=
  match extensions with
  | [] => last
  | extension :: _ => extension.type

def chainBytes : List Ipv6Extension → UInt8 → Bytes
  | [], _ => []
  | extension :: rest, last => chainHead rest last :: extension.len :: (extension.rest ++ chainBytes rest last)

def chainSize (extensions : List Ipv6Extension) : Nat := (extensions.map fun extension => 2 + extension.rest.length).sum

def lastField : List Ipv6Extension → Nat → Nat → Nat
  | [], _, fieldOffset => fieldOffset
  | extension :: rest, offset, _ => lastField rest (offset + (2 + extension.rest.length)) offset

theorem chainSize_cons (extension : Ipv6Extension) (rest : List Ipv6Extension) :
    chainSize (extension :: rest) = 2 + extension.rest.length + chainSize rest :=
  sum_cons

theorem length_chainBytes (extensions : List Ipv6Extension) (last : UInt8) :
    (chainBytes extensions last).length = chainSize extensions := by
  induction extensions with
  | nil => rfl
  | cons extension rest ih =>
    rw [chainBytes, chainSize_cons, length_cons, length_cons, length_append, ih]
    omega

theorem length_le_chainSize (extensions : List Ipv6Extension) : extensions.length ≤ chainSize extensions := by
  induction extensions with
  | nil => exact Nat.le_refl _
  | cons extension rest ih =>
    rw [chainSize_cons, length_cons]
    omega

theorem locateWithin_chain {packet : Bytes} (hpacket : packet = before ++ (chainBytes extensions last ++ after))
    (hfuel : extensions.length < fuel) (htotal : before.length + chainSize extensions ≤ totalLen)
    (hlast : headerKind last = .upperLayer) :
    locateWithin packet totalLen fuel (chainHead extensions last) fieldOffset before.length =
      .ok ⟨last, before.length + chainSize extensions, totalLen, lastField extensions before.length fieldOffset⟩ := by
  induction extensions generalizing before fuel fieldOffset with
  | nil =>
    cases fuel with
    | zero => omega
    | succ fuel =>
      rw [locateWithin, chainHead, hlast]
      rfl
  | cons extension rest ih =>
    cases fuel with
    | zero => omega
    | succ fuel =>
      have hlen := extension.length_rest
      rw [chainSize_cons] at htotal
      have hnext : byteAt packet before.length = chainHead rest last := by
        rw [hpacket]
        exact byteAt_field rfl
      have hlenByte : byteAt packet (before.length + 1) = extension.len := by
        rw [hpacket, byteAt_append_right (by omega), show before.length + 1 - before.length = 1 by omega]
        rfl
      have hbefore : (before ++ (chainHead rest last :: extension.len :: extension.rest)).length =
          before.length + (2 + extension.rest.length) := by
        rw [length_append, length_cons, length_cons]
        omega
      have hstep : locateWithin packet totalLen fuel (chainHead rest last) before.length
          (before ++ (chainHead rest last :: extension.len :: extension.rest)).length = _ :=
        ih (by rw [hpacket]; simp [chainBytes]) (by rw [length_cons] at hfuel; omega) (by rw [hbefore]; omega)
      rw [hbefore] at hstep
      rw [locateWithin, chainHead, chainSize_cons, lastField, ← Nat.add_assoc, ← hstep]
      rw [extension.headerKind_type]
      split_ifs at hlen ⊢ with hauth <;> grind

/-- The unfragmentable part of an IPv6 packet, without its payload length and its last next-header field. -/
structure Ipv6Lead where
  start : Octets 4
  hopLimit : UInt8
  source : Octets 16
  destination : Octets 16
  extensions : List Ipv6Extension
  version : (byteAt start.1 0).toNat / 16 = 6

namespace Ipv6Lead

variable (l : Ipv6Lead)

def bytes (payloadLen : Nat) (last : UInt8) : Bytes :=
  l.start.1 ++ (toBe 2 payloadLen ++ (chainHead l.extensions last :: (l.hopLimit :: (l.source.1 ++ l.destination.1) ++
    chainBytes l.extensions last)))

def lastFieldOffset : Nat := lastField l.extensions 40 6

def packet (upper : UInt8) (payload : Bytes) : Bytes :=
  l.bytes (chainSize l.extensions + payload.length) upper ++ payload

variable {l} {rest : Bytes}

@[simp] theorem length_bytes : (l.bytes payloadLen last).length = 40 + chainSize l.extensions := by
  simp only [bytes, length_append, length_cons, length_toBe, length_chainBytes, l.start.2, l.source.2,
    l.destination.2]
  omega

theorem head?_bytes (l : Ipv6Lead) (payloadLen : Nat) (last : UInt8) (rest : Bytes) :
    ∃ first, (l.bytes payloadLen last ++ rest).head? = some first ∧ first.toNat / 16 = 6 := by
  have hversion := l.version
  rcases hs : l.start with ⟨start, hstart⟩
  obtain ⟨first, more, rfl⟩ := exists_cons_of_length_eq_add_one hstart
  rw [hs] at hversion
  exact ⟨first, by simp [bytes, hs], hversion⟩

theorem fields (l : Ipv6Lead) (last : UInt8) (rest : Bytes) (hlen : payloadLen < 65536) :
    let packet := l.bytes payloadLen last ++ rest
    beAt 2 packet 4 = payloadLen ∧ byteAt packet 6 = chainHead l.extensions last ∧ octetsAt 16 packet 8 = l.source ∧
      octetsAt 16 packet 24 = l.destination := by
  have hbytes : l.bytes payloadLen last ++ rest = l.start.1 ++ (toBe 2 payloadLen ++ ([chainHead l.extensions last,
      l.hopLimit] ++ (l.source.1 ++ (l.destination.1 ++ (chainBytes l.extensions last ++ rest))))) := by
    simp [bytes]
  simp (disch := simp [l.start.2, l.source.2]) only [hbytes, beAt_skip, octetsAt_skip, byteAt_append_right]
  refine ⟨?_, ?_, ?_, ?_⟩
  · simpa [l.start.2] using beAt_start hlen
  · simp [l.start.2, byteAt]
  · simp [l.start.2, octetsAt_start]
  · simp [l.start.2, l.source.2, octetsAt_start]

theorem locate (hlen : payloadLen < 65536) (hsize : chainSize l.extensions ≤ payloadLen)
    (hrest : payloadLen ≤ chainSize l.extensions + rest.length) (hlast : headerKind last = .upperLayer) :
    locateIpv6Payload (l.bytes payloadLen last ++ rest) =
      .ok ⟨last, 40 + chainSize l.extensions, 40 + payloadLen, l.lastFieldOffset⟩ := by
  obtain ⟨hpayload, hnext, -⟩ := fields l last rest hlen
  have hbefore : (l.start.1 ++ (toBe 2 payloadLen ++ (chainHead l.extensions last ::
      (l.hopLimit :: (l.source.1 ++ l.destination.1))))).length = 40 := by
    simp [l.start.2, l.source.2, l.destination.2]
  have hcount := length_le_chainSize l.extensions
  have hpacket : l.bytes payloadLen last ++ rest = (l.start.1 ++ (toBe 2 payloadLen ++ (chainHead l.extensions last ::
      (l.hopLimit :: (l.source.1 ++ l.destination.1))))) ++ (chainBytes l.extensions last ++ rest) := by
    simp [bytes]
  have hwalk : locateWithin (l.bytes payloadLen last ++ rest) (40 + payloadLen) (40 + payloadLen + 1)
      (chainHead l.extensions last) 6 (l.start.1 ++ (toBe 2 payloadLen ++ (chainHead l.extensions last ::
        (l.hopLimit :: (l.source.1 ++ l.destination.1))))).length = _ :=
    locateWithin_chain hpacket (by omega) (by rw [hbefore]; omega) hlast
  rw [hbefore] at hwalk
  simp only [locateIpv6Payload, length_append, length_bytes, hpayload, hnext, ipv6HeaderLen]
  rw [if_neg (by omega), if_neg (by omega), hwalk]
  rfl

end Ipv6Lead

theorem locateIpv6Payload_ipv6Header {rest : Bytes} (nextHeader : UInt8) (source destination : Octets 16)
    (hpayload : payloadLen < 65536) (hrest : payloadLen ≤ rest.length) (hkind : headerKind nextHeader = .upperLayer) :
    locateIpv6Payload (ipv6Header payloadLen nextHeader source destination ++ rest) =
      .ok ⟨nextHeader, 40, 40 + payloadLen, 6⟩ := by
  have hbytes : ipv6Header payloadLen nextHeader source destination =
      Ipv6Lead.bytes ⟨⟨[0x60, 0, 0, 0], rfl⟩, 64, source, destination, [], rfl⟩ payloadLen nextHeader := by
    simp [ipv6Header, Ipv6Lead.bytes, chainHead, chainBytes]
  rw [hbytes]
  exact Ipv6Lead.locate hpayload (Nat.zero_le _) (Nat.le_add_left_of_le hrest) hkind

end Packets

end ExtensionHeaders

end OutlineProxy.Tun
