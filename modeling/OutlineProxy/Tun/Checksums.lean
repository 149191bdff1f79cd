import OutlineProxy.Tun.Wire

/-! Checksums over parts, and the transport checksum of a packet that is written anew in place. -/

namespace OutlineProxy.Tun

open Sealing OnesComplement

def transportChecksumFieldOffset (protocol : UInt8) : Option Nat :=
  if protocol = ipv6NextHeaderTcp then some 16 else if protocol = ipv6NextHeaderUdp then some 6 else none

variable (packet : Bytes)

def setField (i value : Nat) : Bytes := packet.take i ++ (toBe 2 value ++ packet.drop (i + 2))

/-- The end of both functions below: the field is zeroed, the segment summed, and the sum written. -/
def writeChecksum (payloadChecksum : Bytes → Nat) (protocol : UInt8) (packet : Bytes) (start field totalLen : Nat) :
    Bytes :=
  let zeroed := setField packet (start + field) 0
  let checksum := payloadChecksum (slice zeroed start totalLen)
  setField zeroed (start + field) (if protocol = ipv6NextHeaderUdp ∧ checksum = 0 then 0xffff else checksum)

def ihl : Nat := (byteAt packet 0 &&& 0x0f).toNat * 4

def recomputeIpv4TransportChecksum : Bool × Bytes :=
  let totalLen := beAt 2 packet 2
  let protocol := byteAt packet 9
  if packet.length < ipv4HeaderLen then (false, packet)
  else if ihl packet < ipv4HeaderLen ∨ totalLen < ihl packet ∨ packet.length < totalLen then (false, packet)
  else if beAt 2 packet 6 &&& 0x3fff ≠ 0 then (false, packet)
  else
    match transportChecksumFieldOffset protocol with
    | none => (false, packet)
    | some field =>
      if totalLen < ihl packet + field + 2 then (false, packet)
      else
        let payloadChecksum := ipv4PayloadChecksum (octetsAt 4 packet 12) (octetsAt 4 packet 16) protocol
        (true, writeChecksum payloadChecksum protocol packet (ihl packet) field totalLen)

def recomputeIpv6TransportChecksum : Bool × Bytes :=
  match locateIpv6UpperLayer packet with
  | .error _ => (false, packet)
  | .ok (nextHeader, l4Offset, totalLen) =>
    if nextHeader = ipv6NextHeaderFragment then (false, packet)
    else
      match transportChecksumFieldOffset nextHeader with
      | none => (false, packet)
      | some field =>
        if totalLen < l4Offset + field + 2 ∨ packet.length < totalLen then (false, packet)
        else
          let payloadChecksum := ipv6PayloadChecksum (octetsAt 16 packet 8) (octetsAt 16 packet 24) nextHeader
          (true, writeChecksum payloadChecksum nextHeader packet l4Offset field totalLen)

def ipVersion : Option Nat := packet.head?.map fun first : UInt8 => (first >>> 4).toNat

def recomputeTransportChecksum : L4Checksum × Bytes :=
  let (recomputed, packet) :=
    if ipVersion packet = some 4 then recomputeIpv4TransportChecksum packet
    else if ipVersion packet = some 6 then recomputeIpv6TransportChecksum packet
    else (false, packet)
  (if recomputed then .recomputed else .unverified, packet)

variable {packet : Bytes} {i start stop field : Nat} {protocol : UInt8} {summed : Bytes → Bytes}
  {payloadChecksum : Bytes → Nat}

theorem setField_setField (value other : Nat) (h : i + 2 ≤ packet.length) :
    setField (setField packet i other) i value = setField packet i value := by
  have hi : (packet.take i).length = i := List.length_take_of_le (by omega)
  have hdrop : (setField packet i other).drop (i + 2) = packet.drop (i + 2) := by
    rw [setField, ← List.append_assoc, List.drop_left' (by rw [List.length_append, hi, length_toBe])]
  rw [setField, hdrop, setField, List.take_left' hi, setField]

theorem slice_setField (value : Nat) (hstart : start ≤ i) (hi : i + 2 ≤ stop) (hstop : stop ≤ packet.length) :
    slice (setField packet i value) start stop =
      (packet.take i).drop start ++ (toBe 2 value ++ (packet.drop (i + 2)).take (stop - (i + 2))) := by
  have hlead : (packet.take i).length = i := List.length_take_of_le (by omega)
  have hfront : (packet.take i).take stop = packet.take i := List.take_of_length_le (by omega)
  have hvalue : (toBe 2 value).take (stop - i) = toBe 2 value := List.take_of_length_le (by rw [length_toBe]; omega)
  rw [slice, setField, List.take_append, List.take_append, hfront, hlead, hvalue, length_toBe,
    List.drop_append_of_le_length (by omega), Nat.sub_sub]

theorem verifies_writeChecksum (hcovers : Covers summed payloadChecksum) (heven : field % 2 = 0)
    (hfield : start + field + 2 ≤ stop) (hstop : stop ≤ packet.length) :
    ∃ checksum < 65536, writeChecksum payloadChecksum protocol packet start field stop =
        setField packet (start + field) checksum ∧
      Verifies (summed (slice (setField packet (start + field) checksum) start stop)) ∧
      (protocol = ipv6NextHeaderUdp → checksum ≠ 0) := by
  have hslice := fun value => slice_setField value (Nat.le_add_right start field) hfield hstop
  have hbefore : ((packet.take (start + field)).drop start).length % 2 = 0 := by simp; omega
  have hsum := hcovers.sum (slice (setField packet (start + field) 0) start stop)
  have hverifies := fun n =>
    hcovers.verifies hbefore ((packet.drop (start + field + 2)).take (stop - (start + field + 2))) (n := n)
  rw [← hslice] at hverifies
  refine ⟨_, ?_, setField_setField _ 0 (by omega), ?_, ?_⟩
  · split <;> omega
  · rw [hslice]
    refine hverifies _ ?_
    grind
  · grind

/-- The packet is whole and no fragment, and the checksum of its segment from `start` to `stop` is over `summed`.  An
IPv6 packet may have extension headers, a routing header apart, and bytes behind its end. -/
inductive Carries : Bytes → UInt8 → (Bytes → Bytes) → Nat → Nat → Prop
  | v4 {packet : Bytes} (hversion : ipVersion packet = some 4) (hheader : ipv4HeaderLen ≤ ihl packet)
      (hsegment : ihl packet ≤ beAt 2 packet 2) (hwhole : beAt 2 packet 2 ≤ packet.length)
      (hfragment : beAt 2 packet 6 &&& 0x3fff = 0) :
      Carries packet (byteAt packet 9) (ipv4Summed (octetsAt 4 packet 12) (octetsAt 4 packet 16) (byteAt packet 9))
        (ihl packet) (beAt 2 packet 2)
  | v6 (lead : Ipv6Lead) (protocol : UInt8) (segment rest : Bytes)
      (hdirect : ∀ extension ∈ lead.extensions, extension.type ≠ ipv6NextHeaderRouting)
      (hfits : chainSize lead.extensions + segment.length < 65536) :
      Carries (lead.packet protocol segment ++ rest) protocol (ipv6Summed lead.source lead.destination protocol)
        (40 + chainSize lead.extensions) (40 + (chainSize lead.extensions + segment.length))

/-- However the bytes are cut, their checksum is the complement of the one's-complement sum of their words, and the
accumulator, which only grows until its carries are folded, ends within 64 bits.  A transport checksum written anew
verifies, is not zero for UDP, and is all that changes. -/
theorem checksums_exact : (∀ parts : List Bytes, parts.flatten.length < 2 ^ 32 →
      checksum16Parts parts = checksum16 parts.flatten ∧
      checksum16 parts.flatten = 65535 - sum (words parts.flatten) ∧
      (parts.foldl sumPart (0, none)).1 + 0xff00 < 2 ^ 64) ∧
    ∀ packet protocol summed start stop field, Carries packet protocol summed start stop →
      transportChecksumFieldOffset protocol = some field → start + field + 2 ≤ stop →
      ∃ checksum < 65536, recomputeTransportChecksum packet = (.recomputed, setField packet (start + field) checksum) ∧
        Verifies (summed (slice (setField packet (start + field) checksum) start stop)) ∧
        (protocol = ipv6NextHeaderUdp → checksum ≠ 0) := by
  refine ⟨fun parts hlength => ⟨?_, ?_, ?_⟩, fun packet protocol summed start stop field hcarries hoffset hfield => ?_⟩
  · rw [checksum16Parts_eq, checksum16_eq]
  · rw [checksum16_eq, sum_words]
  · obtain ⟨whole, hwhole, -, -, hle⟩ := sums_parts parts
    rw [hwhole, List.length_append] at hlength
    omega
  have heven : field % 2 = 0 := by grind [transportChecksumFieldOffset]
  cases hcarries with
  | v4 hversion hheader hsegment hwhole hfragment =>
    obtain ⟨checksum, hlt, hwritten, hverifies⟩ := verifies_writeChecksum (ipv4_covers ..) heven hfield hwhole
    refine ⟨checksum, hlt, ?_, hverifies⟩
    have hlong : ¬ packet.length < ipv4HeaderLen := by omega
    have hlengths :
        ¬ (ihl packet < ipv4HeaderLen ∨ beAt 2 packet 2 < ihl packet ∨ packet.length < beAt 2 packet 2) := by
      omega
    simp [recomputeTransportChecksum, recomputeIpv4TransportChecksum, hversion, hlong, hlengths, hfragment, hoffset,
      Nat.not_lt.mpr hfield, hwritten]
  | v6 lead _ segment rest _ hfits =>
    have hupper : headerKind protocol = .upperLayer := by grind [transportChecksumFieldOffset, headerKind]
    obtain ⟨first, hfirst, hsix⟩ := lead.head?_bytes (chainSize lead.extensions + segment.length) protocol
      (segment ++ rest)
    obtain ⟨-, -, hsource, hdestination⟩ := lead.fields protocol (segment ++ rest) hfits
    have hlocate := Ipv6Lead.locate hfits (Nat.le_add_right _ segment.length)
      (show _ ≤ _ + (segment ++ rest).length by simp) hupper
    have hpacket : lead.packet protocol segment ++ rest =
        lead.bytes (chainSize lead.extensions + segment.length) protocol ++ (segment ++ rest) := List.append_assoc ..
    have hwhole : 40 + (chainSize lead.extensions + segment.length) ≤
        (lead.packet protocol segment ++ rest).length := by
      simp [hpacket]
      omega
    obtain ⟨checksum, hlt, hwritten, hverifies⟩ := verifies_writeChecksum (ipv6_covers ..) heven hfield hwhole
    refine ⟨checksum, hlt, ?_, hverifies⟩
    have hkind : protocol ≠ ipv6NextHeaderFragment := by
      rintro rfl
      cases hoffset
    have hlengths : ¬ (_ < _ ∨ _ < _) := not_or.mpr ⟨Nat.not_lt.mpr hfield, Nat.not_lt.mpr hwhole⟩
    rw [← hpacket] at hfirst hsource hdestination hlocate
    generalize lead.packet protocol segment ++ rest = packet at *
    have hversion : ipVersion packet = some 6 := by
      rw [ipVersion, hfirst, Option.map_some, UInt8.toNat_shiftRight, Nat.shiftRight_eq_div_pow]
      exact congrArg some hsix
    simp [recomputeTransportChecksum, recomputeIpv6TransportChecksum, locateIpv6UpperLayer, hversion, hlocate, hkind,
      hlengths, hoffset, hsource, hdestination, hwritten]

/-- A datagram with a stale checksum. -/
def staleUdp : Bytes := [0, 53, 0, 53, 0, 10, 9, 9, 1, 2]

def staleIpv4 : Bytes :=
  ipv4Header 30 ipv6NextHeaderUdp 0 ⟨[172, 16, 0, 1], rfl⟩ ⟨[172, 16, 0, 2], rfl⟩ ++ staleUdp

/-- Hop-by-hop options and an authentication header in front of the segment. -/
def extendedLead : Ipv6Lead :=
  ⟨⟨[0x60, 0, 0, 0], rfl⟩, 64, ⟨List.replicate 16 1, rfl⟩, ⟨List.replicate 16 2, rfl⟩,
    [⟨ipv6NextHeaderHopByHop, 0, [1, 4, 0, 0, 0, 0], .inl rfl, rfl⟩,
      ⟨ipv6NextHeaderAuth, 1, List.replicate 10 0, .inr (.inr (.inr rfl)), rfl⟩], rfl⟩

theorem checksums_exact_udp : checksum16Parts [[1], [], [2, 3]] = 65535 - sum (words [1, 2, 3]) ∧
    (∃ checksum < 65536, recomputeTransportChecksum staleIpv4 = (.recomputed, setField staleIpv4 26 checksum) ∧
      checksum ≠ 0) ∧
    ∃ checksum < 65536, recomputeTransportChecksum (extendedLead.packet ipv6NextHeaderUdp staleUdp ++ [7]) =
      (.recomputed, setField (extendedLead.packet ipv6NextHeaderUdp staleUdp ++ [7]) 66 checksum) ∧ checksum ≠ 0 := by
  obtain ⟨hcut, hsum, -⟩ := checksums_exact.1 [[1], [], [2, 3]] (by decide)
  obtain ⟨four, hfour, hfirst, -, hzero⟩ := checksums_exact.2 staleIpv4 _ _ _ _ 6
    (.v4 rfl (by decide) (by decide) (by decide) rfl) rfl (by decide)
  obtain ⟨six, hsix, hsecond, -, hnone⟩ := checksums_exact.2 _ _ _ _ _ 6
    (.v6 extendedLead ipv6NextHeaderUdp staleUdp [7] (by decide) (by decide)) rfl (by decide)
  exact ⟨hcut.trans hsum, ⟨four, hfour, hfirst, hzero rfl⟩, six, hsix, hsecond, hnone rfl⟩

end OutlineProxy.Tun
