import OutlineProxy.Tun.Wire

/-! The UDP packets the engine builds towards the client. -/

namespace OutlineProxy.Tun

open Sealing OnesComplement

def udpHeaderLen : Nat := 8

structure ParsedUdpPacket where
  version : IpVersion
  sourceIp : IpAddr
  destinationIp : IpAddr
  sourcePort : UInt16
  destinationPort : UInt16
  payload : Bytes

def parseUdpDatagram (version : IpVersion) (sourceIp destinationIp : IpAddr) (udp : Bytes) (truncated : String) :
    Except String ParsedUdpPacket :=
  let udpLen := beAt 2 udp 4
  if udpLen < udpHeaderLen ∨ udp.length < udpLen then .error truncated
  else .ok
    { version := version
      sourceIp := sourceIp
      destinationIp := destinationIp
      sourcePort := UInt16.ofNat (beAt 2 udp 0)
      destinationPort := UInt16.ofNat (beAt 2 udp 2)
      payload := slice udp udpHeaderLen udpLen }

def parseIpv4UdpPacket (packet : Bytes) : Except String ParsedUdpPacket :=
  if packet.length < ipv4HeaderLen + udpHeaderLen then .error "short IPv4 UDP packet"
  else
    let headerLen := (byteAt packet 0 &&& 0x0f).toNat * 4
    let totalLen := beAt 2 packet 2
    if headerLen < ipv4HeaderLen ∨ totalLen < headerLen + udpHeaderLen then .error "invalid IPv4 packet lengths"
    else if packet.length < totalLen then .error "truncated IPv4 packet"
    else if byteAt packet 9 ≠ ipv6NextHeaderUdp then .error "expected IPv4 UDP packet"
    else
      parseUdpDatagram .v4 (.v4 (octetsAt 4 packet 12)) (.v4 (octetsAt 4 packet 16))
        (slice packet headerLen totalLen) "truncated UDP payload"

def parseIpv6UdpPacket (packet : Bytes) : Except String ParsedUdpPacket :=
  if packet.length < ipv6HeaderLen + udpHeaderLen then .error "short IPv6 UDP packet"
  else do
    let (nextHeader, udpOffset, totalLen) ← locateIpv6UpperLayer packet
    if nextHeader ≠ ipv6NextHeaderUdp then .error "expected IPv6 UDP packet"
    else
      parseUdpDatagram .v6 (.v6 (octetsAt 16 packet 8)) (.v6 (octetsAt 16 packet 24))
        (slice packet udpOffset totalLen) "truncated IPv6 UDP payload"

def parseUdpPacket (packet : Bytes) : Except String ParsedUdpPacket :=
  match packet.head? with
  | none => .error "empty TUN packet"
  | some first =>
    let version := (first >>> 4).toNat
    if version = 4 then parseIpv4UdpPacket packet
    else if version = 6 then parseIpv6UdpPacket packet
    else .error s!"unsupported IP version in TUN packet: {version}"

def udpDatagram (sourcePort destinationPort : UInt16) (checksum : Nat) (payload : Bytes) : Bytes :=
  (toBe 2 sourcePort.toNat ++ (toBe 2 destinationPort.toNat ++ toBe 2 (udpHeaderLen + payload.length))) ++
    (toBe 2 checksum ++ payload)

def buildIpv4UdpPacket (sourceIp destinationIp : Octets 4) (sourcePort destinationPort : UInt16) (payload : Bytes) :
    Except String Bytes :=
  let totalLen := ipv4HeaderLen + (udpHeaderLen + payload.length)
  let udpChecksum := ipv4PayloadChecksum sourceIp destinationIp ipv6NextHeaderUdp
    (udpDatagram sourcePort destinationPort 0 payload)
  let headerChecksum := checksum16 (ipv4Header totalLen ipv6NextHeaderUdp 0 sourceIp destinationIp)
  .ok (ipv4Header totalLen ipv6NextHeaderUdp headerChecksum sourceIp destinationIp ++
    udpDatagram sourcePort destinationPort udpChecksum payload)

def buildIpv6UdpPacket (sourceIp destinationIp : Octets 16) (sourcePort destinationPort : UInt16) (payload : Bytes) :
    Except String Bytes :=
  let udpChecksum := ipv6PayloadChecksum sourceIp destinationIp ipv6NextHeaderUdp
    (udpDatagram sourcePort destinationPort 0 payload)
  .ok (ipv6Header (udpHeaderLen + payload.length) ipv6NextHeaderUdp sourceIp destinationIp ++
    udpDatagram sourcePort destinationPort udpChecksum payload)

variable {sourcePort destinationPort : UInt16} {checksum : Nat} {payload : Bytes}

@[simp] theorem length_udpDatagram (sourcePort destinationPort : UInt16) (checksum : Nat) (payload : Bytes) :
    (udpDatagram sourcePort destinationPort checksum payload).length = 8 + payload.length := by
  simp [udpDatagram]
  omega

theorem udpDatagram_fields (sourcePort destinationPort : UInt16) (checksum : Nat) (payload : Bytes)
    (hlen : 8 + payload.length < 65536) (hchecksum : checksum < 65536) :
    let udp := udpDatagram sourcePort destinationPort checksum payload
    beAt 2 udp 0 = sourcePort.toNat ∧ beAt 2 udp 2 = destinationPort.toNat ∧ beAt 2 udp 4 = 8 + payload.length ∧
      beAt 2 udp 6 = checksum := by
  simp (disch := simp) only [udpDatagram, List.append_assoc, beAt_skip]
  exact ⟨beAt_start (UInt16.toNat_lt _), beAt_start (UInt16.toNat_lt _), beAt_start hlen, beAt_start hchecksum⟩

theorem parseUdpDatagram_udpDatagram (version : IpVersion) (sourceIp destinationIp : IpAddr)
    (sourcePort destinationPort : UInt16) (truncated : String) (hlen : 8 + payload.length < 65536)
    (hchecksum : checksum < 65536) :
    parseUdpDatagram version sourceIp destinationIp (udpDatagram sourcePort destinationPort checksum payload)
      truncated = .ok ⟨version, sourceIp, destinationIp, sourcePort, destinationPort, payload⟩ := by
  obtain ⟨hsource, hdestination, hlength, -⟩ :=
    udpDatagram_fields sourcePort destinationPort checksum payload hlen hchecksum
  have hpayload : slice (udpDatagram sourcePort destinationPort checksum payload) 8 (8 + payload.length) = payload := by
    rw [udpDatagram, ← List.append_assoc]
    exact slice_to_end (by simp) (by simp)
  simp [parseUdpDatagram, hsource, hdestination, hlength, udpHeaderLen, hpayload]

theorem parseUdpPacket_ipv4 {udp : Bytes} {parsed : ParsedUdpPacket} (source destination : Octets 4)
    (headerChecksum : Nat) (hlen : 20 + udp.length < 65536) (hudp : 8 ≤ udp.length)
    (hparse : parseUdpDatagram .v4 (.v4 source) (.v4 destination) udp "truncated UDP payload" = .ok parsed) :
    parseUdpPacket (ipv4Header (20 + udp.length) ipv6NextHeaderUdp headerChecksum source destination ++ udp) =
      .ok parsed := by
  obtain ⟨hfirst, htotal, -, hprotocol, hsource, hdestination⟩ :=
    ipv4Header_fields ipv6NextHeaderUdp headerChecksum source destination udp hlen
  have hslice : slice (ipv4Header (20 + udp.length) ipv6NextHeaderUdp headerChecksum source destination ++ udp) 20
      (20 + udp.length) = udp := slice_to_end (by simp) (by simp)
  have hshort : ¬ 20 + udp.length < 28 := by omega
  simp [parseUdpPacket, parseIpv4UdpPacket, hfirst, htotal, hprotocol, hsource, hdestination, ipv4HeaderLen,
    udpHeaderLen, hshort, hslice, hparse]

theorem parseUdpPacket_ipv6 {udp : Bytes} {parsed : ParsedUdpPacket} (source destination : Octets 16)
    (hlen : udp.length < 65536) (hudp : 8 ≤ udp.length)
    (hparse : parseUdpDatagram .v6 (.v6 source) (.v6 destination) udp "truncated IPv6 UDP payload" = .ok parsed) :
    parseUdpPacket (ipv6Header udp.length ipv6NextHeaderUdp source destination ++ udp) = .ok parsed := by
  obtain ⟨-, -, -, hsource, hdestination⟩ := ipv6Header_fields ipv6NextHeaderUdp source destination udp hlen
  have hlocate := locateIpv6Payload_ipv6Header ipv6NextHeaderUdp source destination hlen (Nat.le_refl udp.length) rfl
  have hslice : slice (ipv6Header udp.length ipv6NextHeaderUdp source destination ++ udp) 40 (40 + udp.length) = udp :=
    slice_to_end (by simp) (by simp)
  have hshort : ¬ 40 + udp.length < 48 := by omega
  simp [parseUdpPacket, parseIpv6UdpPacket, locateIpv6UpperLayer, hlocate, hsource, hdestination, ipv6HeaderLen,
    udpHeaderLen, hshort, hslice, hparse, bind, Except.bind, pure, Except.pure]

theorem udpDatagram_behind (header : Bytes) (sourcePort destinationPort : UInt16) (hlen : 8 + payload.length < 65536)
    (hchecksum : checksum < 65536) :
    beAt 2 (header ++ udpDatagram sourcePort destinationPort checksum payload) (header.length + 4) =
      8 + payload.length ∧
      beAt 2 (header ++ udpDatagram sourcePort destinationPort checksum payload) (header.length + 6) = checksum := by
  obtain ⟨-, -, hlength, hsum⟩ := udpDatagram_fields sourcePort destinationPort checksum payload hlen hchecksum
  rw [beAt_skip 2 (Nat.le_add_right _ _), beAt_skip 2 (Nat.le_add_right _ _), Nat.add_sub_cancel_left,
    Nat.add_sub_cancel_left]
  exact ⟨hlength, hsum⟩

structure ValidIpv4Udp (source destination : Octets 4) (sourcePort destinationPort : UInt16) (payload packet : Bytes) :
    Prop where
  parses : parseUdpPacket packet = .ok ⟨.v4, .v4 source, .v4 destination, sourcePort, destinationPort, payload⟩
  ipLength : beAt 2 packet 2 = packet.length
  udpLength : beAt 2 packet 24 = packet.length - 20
  headerChecksum : Verifies (packet.take 20)
  udpChecksum : Verifies (ipv4Summed source destination ipv6NextHeaderUdp (packet.drop 20))

/-- As over IPv4, and the checksum field is not zero, which would stand for no checksum. -/
structure ValidIpv6Udp (source destination : Octets 16) (sourcePort destinationPort : UInt16) (payload packet : Bytes) :
    Prop where
  parses : parseUdpPacket packet = .ok ⟨.v6, .v6 source, .v6 destination, sourcePort, destinationPort, payload⟩
  ipLength : beAt 2 packet 4 = packet.length - 40
  udpLength : beAt 2 packet 44 = packet.length - 40
  udpChecksum : Verifies (ipv6Summed source destination ipv6NextHeaderUdp (packet.drop 40))
  checksumSent : beAt 2 packet 46 ≠ 0

theorem ipv4_udp_valid_iff (source destination : Octets 4) (sourcePort destinationPort : UInt16) (payload : Bytes) :
    (∀ packet, buildIpv4UdpPacket source destination sourcePort destinationPort payload = .ok packet →
        ValidIpv4Udp source destination sourcePort destinationPort payload packet) ↔ payload.length ≤ 65507 := by
  have hchecksum : ipv4PayloadChecksum source destination ipv6NextHeaderUdp
      (udpDatagram sourcePort destinationPort 0 payload) < 65536 := by
    rw [ipv4PayloadChecksum_eq]
    omega
  simp only [buildIpv4UdpPacket, ipv4HeaderLen, udpHeaderLen, Except.ok.injEq, forall_eq']
  constructor
  · intro h
    have hlt := lt_of_eq_of_lt h.ipLength.symm (beAt_lt 2 _ 2)
    simp only [List.length_append, length_ipv4Header, length_udpDatagram] at hlt
    omega
  · intro hlen
    have hparse := parseUdpDatagram_udpDatagram .v4 (.v4 source) (.v4 destination) sourcePort destinationPort
      "truncated UDP payload" (show 8 + payload.length < 65536 by omega) hchecksum
    refine ⟨?_, ?_, ?_, ?_, ?_⟩
    · simpa using parseUdpPacket_ipv4 source destination _ (by simp; omega) (by simp) hparse
    · rw [(ipv4Header_fields _ _ _ _ _ (by omega)).2.1]
      simp
    · simpa using (udpDatagram_behind (ipv4Header _ _ _ source destination) sourcePort destinationPort
        (show 8 + payload.length < 65536 by omega) hchecksum).1
    · rw [List.take_left' (length_ipv4Header _ _)]
      exact ipv4Header_verifies _ _ _ _
    · rw [List.drop_left' (length_ipv4Header _ _)]
      exact (ipv4_covers ..).verifies (by simp) _ (.inl rfl)

theorem ipv6_udp_valid_iff (source destination : Octets 16) (sourcePort destinationPort : UInt16) (payload : Bytes) :
    (∀ packet, buildIpv6UdpPacket source destination sourcePort destinationPort payload = .ok packet →
        ValidIpv6Udp source destination sourcePort destinationPort payload packet) ↔ payload.length ≤ 65527 ∧
        ¬ Verifies (ipv6Summed source destination ipv6NextHeaderUdp
          (udpDatagram sourcePort destinationPort 0 payload)) := by
  have hchecksum : ipv6PayloadChecksum source destination ipv6NextHeaderUdp
      (udpDatagram sourcePort destinationPort 0 payload) < 65536 := by
    rw [ipv6PayloadChecksum_eq]
    omega
  rw [← (ipv6_covers ..).eq_zero_iff]
  simp only [buildIpv6UdpPacket, udpHeaderLen, Except.ok.injEq, forall_eq']
  have hbehind := fun hlen : 8 + payload.length < 65536 =>
    udpDatagram_behind (ipv6Header (8 + payload.length) ipv6NextHeaderUdp source destination)
    sourcePort destinationPort hlen hchecksum
  simp only [length_ipv6Header] at hbehind
  constructor
  · intro h
    have hlt := lt_of_eq_of_lt h.ipLength.symm (beAt_lt 2 _ 4)
    simp only [List.length_append, length_ipv6Header, length_udpDatagram, Nat.add_sub_cancel_left] at hlt
    refine ⟨by omega, ?_⟩
    rw [← (hbehind (by omega)).2]
    exact h.checksumSent
  · rintro ⟨hlen, hne⟩
    have hparse := parseUdpDatagram_udpDatagram .v6 (.v6 source) (.v6 destination) sourcePort destinationPort
      "truncated IPv6 UDP payload" (show 8 + payload.length < 65536 by omega) hchecksum
    refine ⟨?_, ?_, ?_, ?_, ?_⟩
    · simpa using parseUdpPacket_ipv6 source destination (by simp; omega) (by simp) hparse
    · rw [(ipv6Header_fields _ _ _ _ (by omega)).2.1]
      simp
    · simpa using (hbehind (by omega)).1
    · rw [List.drop_left' (length_ipv6Header _ _)]
      exact (ipv6_covers ..).verifies (by simp) _ (.inl rfl)
    · rw [(hbehind (by omega)).2]
      exact hne

/-- A built UDP packet is valid exactly if the payload leaves its lengths within 16 bits and, over IPv6, the
datagram does not verify with a checksum of zero. -/
theorem udp_packets_valid_iff (source destination : Octets 4) (source' destination' : Octets 16)
    (sourcePort destinationPort : UInt16) (payload : Bytes) :
    ((∀ packet, buildIpv4UdpPacket source destination sourcePort destinationPort payload = .ok packet →
        ValidIpv4Udp source destination sourcePort destinationPort payload packet) ↔ payload.length ≤ 65507) ∧
    ((∀ packet, buildIpv6UdpPacket source' destination' sourcePort destinationPort payload = .ok packet →
        ValidIpv6Udp source' destination' sourcePort destinationPort payload packet) ↔ payload.length ≤ 65527 ∧
        ¬ Verifies (ipv6Summed source' destination' ipv6NextHeaderUdp
          (udpDatagram sourcePort destinationPort 0 payload))) :=
  ⟨ipv4_udp_valid_iff .., ipv6_udp_valid_iff ..⟩

def localServer : Octets 16 := ⟨[0xfd, 0, 0, 0, 0, 0, 0, 0, 0, 0, 0, 0, 0, 0, 0, 1], rfl⟩

def localClient : Octets 16 := ⟨[0xfd, 0, 0, 0, 0, 0, 0, 0, 0, 0, 0, 0, 0, 0, 0, 2], rfl⟩

/-- Two bytes of payload that make the checksum of the datagram zero. -/
theorem udp_checksum_sent_as_zero :
    ∃ packet, buildIpv6UdpPacket localServer localClient 53 40000 [0x69, 0x60] = .ok packet ∧
      beAt 2 packet 46 = 0 := by
  refine ⟨_, rfl, ?_⟩
  decide

end OutlineProxy.Tun
