import OutlineProxy.Tcp.Seq
import OutlineProxy.Tun.Wire

/-! The TCP packets the stack builds, and how it parses the packets it is sent. -/

namespace OutlineProxy.Tun

open List Sealing OnesComplement UInt32

def tcpHeaderLen : Nat := 20

section Options

structure ParsedTcpOptions where
  maxSegmentSize : Option UInt16 := none
  windowScale : Option UInt8 := none
  sackPermitted : Bool := false
  sackBlocks : List (UInt32 × UInt32) := []
  timestampValue : Option UInt32 := none
  timestampEchoReply : Option UInt32 := none
deriving DecidableEq

def readBlocks : Bytes → List (UInt32 × UInt32)
  | a :: b :: c :: d :: e :: f :: g :: h :: rest =>
    (ofNat (ofBe [a, b, c, d]), ofNat (ofBe [e, f, g, h])) :: readBlocks rest
  | _ => []

def ParsedTcpOptions.read (parsed : ParsedTcpOptions) (kind : UInt8) (body : Bytes) : ParsedTcpOptions :=
  if kind = 2 ∧ body.length = 2 then
    { parsed with maxSegmentSize := some (UInt16.ofNat (max (beAt 2 body 0) 1)) }
  else if kind = 3 ∧ body.length = 1 then
    { parsed with windowScale := some (UInt8.ofNat (min (byteAt body 0).toNat 14)) }
  else if kind = 4 ∧ body = [] then { parsed with sackPermitted := true }
  else if kind = 5 ∧ 8 ≤ body.length ∧ body.length % 8 = 0 then
    { parsed with
      sackBlocks := parsed.sackBlocks ++ (readBlocks body).filter fun block => Tcp.seqLt block.1 block.2 }
  else if kind = 8 ∧ body.length = 8 then
    { parsed with
      timestampValue := some (ofNat (beAt 4 body 0))
      timestampEchoReply := some (ofNat (beAt 4 body 4)) }
  else parsed

def parseOptionsWithin : Nat → ParsedTcpOptions → Bytes → Except String ParsedTcpOptions
  | 0, parsed, _ => .ok parsed
  | _ + 1, parsed, [] => .ok parsed
  | fuel + 1, parsed, kind :: rest =>
    if kind = 0 then .ok parsed
    else if kind = 1 then parseOptionsWithin fuel parsed rest
    else
      match rest with
      | [] => .error "truncated TCP option header"
      | len :: _ =>
        if len.toNat < 2 ∨ rest.length + 1 < len.toNat then .error "invalid TCP option length"
        else
          parseOptionsWithin fuel (parsed.read kind (slice (kind :: rest) 2 len.toNat))
            ((kind :: rest).drop len.toNat)

def parseTcpOptions (options : Bytes) : Except String ParsedTcpOptions :=
  parseOptionsWithin options.length {} options

inductive TcpOption where
  | noOperation
  | maxSegmentSize (size : UInt16)
  | windowScale (shift : UInt8)
  | sackPermitted
  | sack (blocks : List (UInt32 × UInt32))
  | timestamps (value echoReply : UInt32)

open TcpOption

namespace TcpOption

def writeBlock (block : UInt32 × UInt32) : Bytes := toBe 4 block.1.toNat ++ toBe 4 block.2.toNat

def write : TcpOption → Bytes
  | .noOperation => [1]
  | .maxSegmentSize size => 2 :: 4 :: toBe 2 size.toNat
  | .windowScale shift => [3, 3, shift]
  | .sackPermitted => [4, 2]
  | .sack blocks => 5 :: UInt8.ofNat (2 + blocks.length * 8) :: blocks.flatMap writeBlock
  | .timestamps value echoReply => 8 :: 10 :: (toBe 4 value.toNat ++ toBe 4 echoReply.toNat)

def wellFormed : TcpOption → Bool
  | .maxSegmentSize size => size != 0
  | .windowScale shift => decide (shift.toNat ≤ 14)
  | .sack blocks =>
    decide (1 ≤ blocks.length ∧ blocks.length ≤ 31) && blocks.all fun block => Tcp.seqLt block.1 block.2
  | _ => true

def record (parsed : ParsedTcpOptions) : TcpOption → ParsedTcpOptions
  | .noOperation => parsed
  | .maxSegmentSize size => { parsed with maxSegmentSize := some size }
  | .windowScale shift => { parsed with windowScale := some shift }
  | .sackPermitted => { parsed with sackPermitted := true }
  | .sack blocks => { parsed with sackBlocks := parsed.sackBlocks ++ blocks }
  | .timestamps value echoReply =>
    { parsed with timestampValue := some value, timestampEchoReply := some echoReply }

end TcpOption

variable {fuel : Nat} {parsed : ParsedTcpOptions} {rest : Bytes}

theorem parseOptionsWithin_option {kind len : UInt8} {body : Bytes} {after : ParsedTcpOptions} (hkind : 1 < kind.toNat)
    (hlen : len.toNat = 2 + body.length) (hread : parsed.read kind body = after) :
    parseOptionsWithin (fuel + 1) parsed (kind :: len :: (body ++ rest)) = parseOptionsWithin fuel after rest := by
  have hzero : kind ≠ 0 := by
    rintro rfl
    simp at hkind
  have hone : kind ≠ 1 := by
    rintro rfl
    simp at hkind
  have hsplit : kind :: len :: (body ++ rest) = [kind, len] ++ (body ++ rest) := rfl
  have hbody : slice (kind :: len :: (body ++ rest)) 2 len.toNat = body := by
    rw [hlen, hsplit]
    exact slice_field rfl rfl
  have hrest : (kind :: len :: (body ++ rest)).drop len.toNat = rest := by
    rw [hlen, hsplit, ← append_assoc]
    exact drop_left' (by simp; omega)
  have hfits : ¬ (len.toNat < 2 ∨ (len :: (body ++ rest)).length + 1 < len.toNat) := by
    simp only [length_cons, length_append]
    omega
  simp only [parseOptionsWithin, if_neg hzero, if_neg hone, if_neg hfits, hbody, hrest, hread]

theorem readBlocks_append (block : UInt32 × UInt32) (body : Bytes) :
    readBlocks (writeBlock block ++ body) = block :: readBlocks body := by
  have hleft : ofBe (toBe 4 block.1.toNat) = block.1.toNat := ofBe_toBe (UInt32.toNat_lt block.1)
  have hright : ofBe (toBe 4 block.2.toNat) = block.2.toNat := ofBe_toBe (UInt32.toNat_lt block.2)
  simp only [toBe, nil_append, cons_append] at hleft hright
  simp only [writeBlock, toBe, nil_append, cons_append, readBlocks, hleft, hright, UInt32.ofNat_toNat]

theorem readBlocks_flatMap (blocks : List (UInt32 × UInt32)) :
    readBlocks (blocks.flatMap writeBlock) = blocks := by
  induction blocks with
  | nil => rfl
  | cons block blocks ih => rw [flatMap_cons, readBlocks_append, ih]

theorem length_flatMap_writeBlock (blocks : List (UInt32 × UInt32)) :
    (blocks.flatMap writeBlock).length = blocks.length * 8 := by
  induction blocks with
  | nil => rfl
  | cons block blocks ih =>
    simp only [flatMap_cons, length_append, length_cons, ih, writeBlock, length_toBe]
    omega

theorem parseOptionsWithin_write {option : TcpOption} (h : option.wellFormed = true) :
    parseOptionsWithin (fuel + 1) parsed (option.write ++ rest) =
      parseOptionsWithin fuel (option.record parsed) rest := by
  cases option with
  | noOperation => simp [write, record, parseOptionsWithin]
  | maxSegmentSize size =>
    have hvalue : beAt 2 (toBe 2 size.toNat) 0 = size.toNat := by
      exact beAt_start size.toNat_lt
    have hpos : max size.toNat 1 = size.toNat := by
      have hne : size ≠ 0 := by simpa [wellFormed] using h
      have hzero : size.toNat ≠ 0 := fun heq => hne (UInt16.toNat_inj.mp heq)
      omega
    refine parseOptionsWithin_option (by decide) (by rw [length_toBe]; rfl) ?_
    simp [ParsedTcpOptions.read, record, hvalue, hpos]
  | windowScale shift =>
    have hshift : min shift.toNat 14 = shift.toNat := by
      have hle : shift.toNat ≤ 14 := by simpa [wellFormed] using h
      omega
    refine parseOptionsWithin_option (by decide) rfl ?_
    simp [ParsedTcpOptions.read, record, byteAt, hshift]
  | sackPermitted => exact parseOptionsWithin_option (by decide) rfl (by simp [ParsedTcpOptions.read, record])
  | sack blocks =>
    simp only [wellFormed, Bool.and_eq_true, decide_eq_true_eq, all_eq_true] at h
    obtain ⟨⟨hsome, hmany⟩, hordered⟩ := h
    have hlength := length_flatMap_writeBlock blocks
    refine parseOptionsWithin_option (by decide) ?_ ?_
    · rw [hlength, UInt8.toNat_ofNat']
      omega
    · have height : 8 ≤ blocks.length * 8 := by omega
      simp [ParsedTcpOptions.read, record, hlength, height, readBlocks_flatMap, filter_eq_self.mpr hordered]
  | timestamps value echoReply =>
    have hvalue : beAt 4 (toBe 4 value.toNat ++ toBe 4 echoReply.toNat) 0 = value.toNat :=
      beAt_start (toNat_lt value)
    have hecho : beAt 4 (toBe 4 value.toNat ++ toBe 4 echoReply.toNat) 4 = echoReply.toNat := by
      exact beAt_field (length_toBe _ _).symm (toNat_lt echoReply)
    refine parseOptionsWithin_option (by decide) (by simp) ?_
    simp [ParsedTcpOptions.read, record, hvalue, hecho]

theorem one_le_length_write (option : TcpOption) : 1 ≤ option.write.length := by
  cases option <;> simp [write]

theorem parseOptionsWithin_flatMap {options : List TcpOption} {read : ParsedTcpOptions → TcpOption → ParsedTcpOptions}
    (h : ∀ option ∈ options, ∀ fuel parsed rest,
      parseOptionsWithin (fuel + 1) parsed (option.write ++ rest) = parseOptionsWithin fuel (read parsed option) rest)
    (hfuel : (options.flatMap write).length ≤ fuel) :
    parseOptionsWithin fuel parsed (options.flatMap write) = .ok (options.foldl read parsed) := by
  induction options generalizing fuel parsed with
  | nil => cases fuel <;> rfl
  | cons option options ih =>
    rw [flatMap_cons, length_append] at hfuel
    have hone := one_le_length_write option
    obtain ⟨fuel, rfl⟩ : ∃ more, fuel = more + 1 := ⟨fuel - 1, by omega⟩
    rw [flatMap_cons, h option (mem_cons_self ..),
      ih (fun other hother => h other (mem_cons_of_mem _ hother)) (by omega)]
    rfl

theorem parseTcpOptions_flatMap {options : List TcpOption} (h : ∀ option ∈ options, option.wellFormed = true) :
    parseTcpOptions (options.flatMap write) = .ok (options.foldl record {}) :=
  parseOptionsWithin_flatMap (fun option hoption _ _ _ => parseOptionsWithin_write (h option hoption)) (Nat.le_refl _)

end Options

structure TcpFields where
  sourcePort : UInt16
  destinationPort : UInt16
  sequenceNumber : UInt32
  acknowledgementNumber : UInt32
  flags : UInt8
  windowSize : UInt16
  options : Bytes

structure ParsedTcpPacket where
  version : IpVersion
  sourceIp : IpAddr
  destinationIp : IpAddr
  sourcePort : UInt16
  destinationPort : UInt16
  sequenceNumber : UInt32
  acknowledgementNumber : UInt32
  windowSize : UInt16
  options : ParsedTcpOptions
  flags : UInt8
  payload : Bytes
deriving DecidableEq

section Parse

def tcpChecksumValid (version : IpVersion) (sourceIp destinationIp : IpAddr) (segment : Bytes) : Except String Bool :=
  match version, sourceIp, destinationIp with
  | .v4, .v4 source, .v4 destination => .ok (ipv4PayloadChecksum source destination ipv6NextHeaderTcp segment == 0)
  | .v6, .v6 source, .v6 destination => .ok (ipv6PayloadChecksum source destination ipv6NextHeaderTcp segment == 0)
  | _, _, _ => .error "unexpected address family while validating TCP checksum"

def validateTcpChecksum (version : IpVersion) (sourceIp destinationIp : IpAddr) (segment : Bytes) :
    Except String Unit := do
  if ← tcpChecksumValid version sourceIp destinationIp segment then .ok () else .error "invalid TCP checksum"

def parseTcpSegment (version : IpVersion) (sourceIp destinationIp : IpAddr) (segment : Bytes) (checksum : L4Checksum) :
    Except String ParsedTcpPacket :=
  if segment.length < tcpHeaderLen then .error "short TCP segment"
  else do
    match checksum with
    | .unverified => validateTcpChecksum version sourceIp destinationIp segment
    | .recomputed => .ok ()
    let headerLen := (byteAt segment 12 >>> 4).toNat * 4
    if headerLen < tcpHeaderLen ∨ segment.length < headerLen then .error "invalid TCP header length"
    else do
      let options ← parseTcpOptions (slice segment tcpHeaderLen headerLen)
      .ok
        { version := version
          sourceIp := sourceIp
          destinationIp := destinationIp
          sourcePort := UInt16.ofNat (beAt 2 segment 0)
          destinationPort := UInt16.ofNat (beAt 2 segment 2)
          sequenceNumber := ofNat (beAt 4 segment 4)
          acknowledgementNumber := ofNat (beAt 4 segment 8)
          windowSize := UInt16.ofNat (beAt 2 segment 14)
          options := options
          flags := byteAt segment 13
          payload := segment.drop headerLen }

def parseIpv4TcpPacket (packet : Bytes) (checksum : L4Checksum) : Except String ParsedTcpPacket :=
  if packet.length < ipv4HeaderLen + tcpHeaderLen then .error "short IPv4 TCP packet"
  else
    let headerLen := (byteAt packet 0 &&& 0x0f).toNat * 4
    let totalLen := beAt 2 packet 2
    let fragmentField := beAt 2 packet 6
    if headerLen < ipv4HeaderLen ∨ totalLen < headerLen + tcpHeaderLen then .error "invalid IPv4 packet lengths"
    else if packet.length < totalLen then .error "truncated IPv4 TCP packet"
    else if checksum16 (packet.take headerLen) ≠ 0 then .error "invalid IPv4 header checksum"
    else if fragmentField &&& 0x1fff ≠ 0 ∨ fragmentField &&& 0x2000 ≠ 0 then
      .error "IPv4 fragments are not supported on TUN TCP path"
    else if byteAt packet 9 ≠ ipv6NextHeaderTcp then .error "expected IPv4 TCP packet"
    else
      parseTcpSegment .v4 (.v4 (octetsAt 4 packet 12)) (.v4 (octetsAt 4 packet 16)) (slice packet headerLen totalLen)
        checksum

def parseIpv6TcpPacket (packet : Bytes) (checksum : L4Checksum) : Except String ParsedTcpPacket :=
  if packet.length < ipv6HeaderLen + tcpHeaderLen then .error "short IPv6 TCP packet"
  else do
    let (nextHeader, segmentOffset, totalLen) ← locateIpv6UpperLayer packet
    if nextHeader = ipv6NextHeaderFragment then .error "IPv6 fragments are not supported on TUN TCP path"
    else if nextHeader ≠ ipv6NextHeaderTcp then .error "expected IPv6 TCP packet"
    else
      parseTcpSegment .v6 (.v6 (octetsAt 16 packet 8)) (.v6 (octetsAt 16 packet 24))
        (slice packet segmentOffset totalLen) checksum

def parseTcpPacket (packet : Bytes) (checksum : L4Checksum) : Except String ParsedTcpPacket :=
  match packet.head? with
  | none => .error "empty TUN TCP packet"
  | some first =>
    let version := (first >>> 4).toNat
    if version = 4 then parseIpv4TcpPacket packet checksum
    else if version = 6 then parseIpv6TcpPacket packet checksum
    else .error s!"unsupported IP version in TUN TCP packet: {version}"

end Parse

section Build

inductive TcpChecksumMode where
  | full
  | partialSum

def TcpFields.writeFixed (fields : TcpFields) : Bytes :=
  toBe 2 fields.sourcePort.toNat ++ (toBe 2 fields.destinationPort.toNat ++ (toBe 4 fields.sequenceNumber.toNat ++
    (toBe 4 fields.acknowledgementNumber.toNat ++
      ([UInt8.ofNat ((tcpHeaderLen + fields.options.length) / 4) <<< 4, fields.flags] ++
        toBe 2 fields.windowSize.toNat))))

def writeTcpHeader (fields : TcpFields) (checksum : Nat) : Bytes :=
  fields.writeFixed ++ (toBe 2 checksum ++ (toBe 2 0 ++ fields.options))

def tcpFullChecksum (pseudoA pseudoB pseudoC pseudoD tcpHeader : Bytes) (payloadParts : List Bytes) : Nat :=
  if payloadParts.length ≤ 1 then
    checksum16Parts [pseudoA, pseudoB, pseudoC, pseudoD, tcpHeader, payloadParts.head?.getD []]
  else checksum16Parts ([pseudoA, pseudoB, pseudoC, pseudoD, tcpHeader] ++ payloadParts)

def ipv4TcpPartialChecksum (source destination : Octets 4) (tcpLen : Nat) : Nat :=
  65535 - checksum16Parts [source.1, destination.1, [0, ipv6NextHeaderTcp], toBe 2 tcpLen]

def ipv6TcpPartialChecksum (source destination : Octets 16) (tcpLen : Nat) : Nat :=
  65535 - checksum16Parts [source.1, destination.1, toBe 4 tcpLen, [0, 0, 0, ipv6NextHeaderTcp]]

def buildIpv4TcpHeader (source destination : Octets 4) (fields : TcpFields) (payloadLen : Nat)
    (payloadParts : List Bytes) (mode : TcpChecksumMode) : Except String Bytes :=
  if fields.options.length % 4 ≠ 0 then .error "TCP options must be 32-bit aligned"
  else
    let tcpLen := tcpHeaderLen + fields.options.length + payloadLen
    let totalLen := ipv4HeaderLen + tcpLen
    let tcpChecksum := match mode with
      | .full =>
        tcpFullChecksum source.1 destination.1 [0, ipv6NextHeaderTcp] (toBe 2 tcpLen) (writeTcpHeader fields 0)
          payloadParts
      | .partialSum => ipv4TcpPartialChecksum source destination tcpLen
    let headerChecksum := checksum16 (ipv4Header totalLen ipv6NextHeaderTcp 0 source destination)
    .ok (ipv4Header totalLen ipv6NextHeaderTcp headerChecksum source destination ++ writeTcpHeader fields tcpChecksum)

def buildIpv6TcpHeader (source destination : Octets 16) (fields : TcpFields) (payloadLen : Nat)
    (payloadParts : List Bytes) (mode : TcpChecksumMode) : Except String Bytes :=
  if fields.options.length % 4 ≠ 0 then .error "TCP options must be 32-bit aligned"
  else
    let tcpLen := tcpHeaderLen + fields.options.length + payloadLen
    let tcpChecksum := match mode with
      | .full =>
        tcpFullChecksum source.1 destination.1 (toBe 4 tcpLen) [0, 0, 0, ipv6NextHeaderTcp] (writeTcpHeader fields 0)
          payloadParts
      | .partialSum => ipv6TcpPartialChecksum source destination tcpLen
    .ok (ipv6Header tcpLen ipv6NextHeaderTcp source destination ++ writeTcpHeader fields tcpChecksum)

def buildDataHeaderCustom (version : IpVersion) (sourceIp destinationIp : IpAddr) (fields : TcpFields)
    (payloadParts : List Bytes) : Except String Bytes :=
  let payloadLen := (payloadParts.map length).sum
  match version, sourceIp, destinationIp with
  | .v4, .v4 source, .v4 destination => buildIpv4TcpHeader source destination fields payloadLen payloadParts .full
  | .v6, .v6 source, .v6 destination => buildIpv6TcpHeader source destination fields payloadLen payloadParts .full
  | _, _, _ => .error "unexpected address family in TUN TCP response"

def buildResponsePacketCustom (version : IpVersion) (sourceIp destinationIp : IpAddr) (fields : TcpFields)
    (payload : Bytes) : Except String Bytes :=
  match version, sourceIp, destinationIp with
  | .v4, .v4 source, .v4 destination => do
    let packet ← buildIpv4TcpHeader source destination fields payload.length [payload] .full
    return packet ++ payload
  | .v6, .v6 source, .v6 destination => do
    let packet ← buildIpv6TcpHeader source destination fields payload.length [payload] .full
    return packet ++ payload
  | _, _, _ => .error "unexpected address family in TUN TCP response"

end Build

variable {fields : TcpFields} {checksum : Nat} {payload : Bytes} {payloadParts : List Bytes}

@[simp] theorem length_writeFixed (fields : TcpFields) : fields.writeFixed.length = 16 := by
  simp [TcpFields.writeFixed]

@[simp] theorem length_writeTcpHeader (fields : TcpFields) (checksum : Nat) :
    (writeTcpHeader fields checksum).length = 20 + fields.options.length := by
  simp [writeTcpHeader]
  omega

theorem tcpFullChecksum_eq (pseudoA pseudoB pseudoC pseudoD tcpHeader : Bytes) (payloadParts : List Bytes) :
    tcpFullChecksum pseudoA pseudoB pseudoC pseudoD tcpHeader payloadParts = 65535 - fold (wordSum (pseudoA ++
        (pseudoB ++ (pseudoC ++ (pseudoD ++ (tcpHeader ++ payloadParts.flatten)))))) := by
  unfold tcpFullChecksum
  by_cases hone : payloadParts.length ≤ 1
  · rw [if_pos hone, checksum16Parts_eq]
    rcases payloadParts with _ | ⟨part, _ | ⟨other, rest⟩⟩
    · simp
    · simp
    · simp at hone
  · rw [if_neg hone, checksum16Parts_eq]
    simp

theorem dataOffset_eq {len : Nat} (hle : len ≤ 40) (haligned : len % 4 = 0) :
    ((UInt8.ofNat ((20 + len) / 4) <<< 4) >>> 4).toNat * 4 = 20 + len := by
  have hshift : ∀ n < 16, ((UInt8.ofNat n <<< 4) >>> 4).toNat = n := by decide
  rw [hshift _ (by omega)]
  omega

theorem writeTcpHeader_fields (fields : TcpFields) (checksum : Nat) (payload : Bytes) :
    let segment := writeTcpHeader fields checksum ++ payload
    beAt 2 segment 0 = fields.sourcePort.toNat ∧ beAt 2 segment 2 = fields.destinationPort.toNat ∧
      beAt 4 segment 4 = fields.sequenceNumber.toNat ∧ beAt 4 segment 8 = fields.acknowledgementNumber.toNat ∧
      byteAt segment 12 = UInt8.ofNat ((20 + fields.options.length) / 4) <<< 4 ∧ byteAt segment 13 = fields.flags ∧
      beAt 2 segment 14 = fields.windowSize.toNat := by
  simp (disch := simp) only [writeTcpHeader, TcpFields.writeFixed, append_assoc, tcpHeaderLen, beAt_skip,
    byteAt_append_right]
  exact ⟨beAt_start (UInt16.toNat_lt _), beAt_start (UInt16.toNat_lt _), beAt_start (toNat_lt _),
    beAt_start (toNat_lt _), rfl, rfl, beAt_start (UInt16.toNat_lt _)⟩

variable {options : ParsedTcpOptions}

theorem parseTcpSegment_writeTcpHeader {version : IpVersion} {sourceIp destinationIp : IpAddr}
    {mode : L4Checksum} (hle : fields.options.length ≤ 40) (haligned : fields.options.length % 4 = 0)
    (hoptions : parseTcpOptions fields.options = .ok options)
    (hvalid : tcpChecksumValid version sourceIp destinationIp (writeTcpHeader fields checksum ++ payload) = .ok true) :
    parseTcpSegment version sourceIp destinationIp (writeTcpHeader fields checksum ++ payload) mode =
      .ok ⟨version, sourceIp, destinationIp, fields.sourcePort, fields.destinationPort, fields.sequenceNumber,
        fields.acknowledgementNumber, fields.windowSize, options, fields.flags, payload⟩ := by
  obtain ⟨hsource, hdestination, hseq, hack, hoffset, hflags, hwindow⟩ := writeTcpHeader_fields fields checksum payload
  have hheader :
      (byteAt (writeTcpHeader fields checksum ++ payload) 12 >>> 4).toNat * 4 = 20 + fields.options.length := by
    rw [hoffset]
    exact dataOffset_eq hle haligned
  have hslice : slice (writeTcpHeader fields checksum ++ payload) 20 (20 + fields.options.length) = fields.options := by
    simp only [writeTcpHeader, append_assoc]
    rw [← append_assoc, ← append_assoc]
    exact slice_field (by simp) (by simp)
  have hdrop : (writeTcpHeader fields checksum ++ payload).drop (20 + fields.options.length) = payload :=
    drop_left' (length_writeTcpHeader _ _)
  have hshort : ¬ 20 + fields.options.length + payload.length < 20 := by omega
  have hlong : ¬ (20 + fields.options.length < 20 ∨
    20 + fields.options.length + payload.length < 20 + fields.options.length) := by
    omega
  cases mode <;>
    simp only [parseTcpSegment, validateTcpChecksum, tcpHeaderLen, hvalid, hheader, hslice, hdrop, hoptions, hsource,
      hdestination, hseq, hack, hflags, hwindow, bind, Except.bind, length_append, length_writeTcpHeader,
      if_neg hshort, if_neg hlong, UInt16.ofNat_toNat, UInt32.ofNat_toNat, if_true]

def checkedIpv4Header (totalLen : Nat) (source destination : Octets 4) : Bytes :=
  ipv4Header totalLen ipv6NextHeaderTcp (checksum16 (ipv4Header totalLen ipv6NextHeaderTcp 0 source destination))
    source destination

/-- The header with the checksum over it and the payload. -/
def checkedTcpHeader (payloadChecksum : Bytes → Nat) (fields : TcpFields) (payload : Bytes) : Bytes :=
  writeTcpHeader fields (payloadChecksum (writeTcpHeader fields 0 ++ payload))

theorem buildIpv4TcpHeader_full (source destination : Octets 4) (haligned : fields.options.length % 4 = 0)
    (hparts : payloadParts.flatten = payload) :
    buildIpv4TcpHeader source destination fields payload.length payloadParts .full =
      .ok (checkedIpv4Header (20 + (20 + fields.options.length + payload.length)) source destination ++
        checkedTcpHeader (ipv4PayloadChecksum source destination ipv6NextHeaderTcp) fields payload) := by
  simp only [buildIpv4TcpHeader, haligned, tcpHeaderLen, ipv4HeaderLen, tcpFullChecksum_eq, hparts, checkedIpv4Header,
    checkedTcpHeader, ipv4PayloadChecksum_eq, ipv4Summed, length_append, length_writeTcpHeader, ne_eq,
    not_true_eq_false, if_false]

variable (source destination : Octets 16)

theorem buildIpv6TcpHeader_full (haligned : fields.options.length % 4 = 0)
    (hparts : payloadParts.flatten = payload) :
    buildIpv6TcpHeader source destination fields payload.length payloadParts .full =
      .ok (ipv6Header (20 + fields.options.length + payload.length) ipv6NextHeaderTcp source destination ++
        checkedTcpHeader (ipv6PayloadChecksum source destination ipv6NextHeaderTcp) fields payload) := by
  simp only [buildIpv6TcpHeader, haligned, tcpHeaderLen, tcpFullChecksum_eq, hparts, checkedTcpHeader,
    ipv6PayloadChecksum_eq, ipv6Summed, length_append, length_writeTcpHeader, ne_eq, not_true_eq_false, if_false]

theorem parseTcpPacket_ipv4 (source destination : Octets 4) (mode : L4Checksum) {segment : Bytes} {totalLen : Nat}
    (hlen : totalLen = 20 + segment.length) (hsegment : 20 ≤ segment.length) (htotal : totalLen < 65536) :
    parseTcpPacket (checkedIpv4Header totalLen source destination ++ segment) mode =
      parseTcpSegment .v4 (.v4 source) (.v4 destination) segment mode := by
  have hchecksum := (checksum16_eq_zero_iff _).mpr (ipv4Header_verifies totalLen ipv6NextHeaderTcp source destination)
  rw [checkedIpv4Header]
  generalize checksum16 (ipv4Header totalLen ipv6NextHeaderTcp 0 source destination) = headerChecksum at *
  obtain ⟨hfirst, htotalField, hfragment, hprotocol, hsource, hdestination⟩ :=
    ipv4Header_fields ipv6NextHeaderTcp headerChecksum source destination segment htotal
  have hslice : slice (ipv4Header totalLen ipv6NextHeaderTcp headerChecksum source destination ++ segment) 20 totalLen =
      segment :=
    slice_to_end (by simp) (by simp [hlen])
  have hshort : ¬ 20 + segment.length < 40 := by omega
  have hinvalid : ¬ totalLen < 40 := by omega
  have hlonger : ¬ 20 + segment.length < totalLen := by omega
  simp [parseTcpPacket, parseIpv4TcpPacket, hfirst, htotalField, hfragment, hprotocol, hsource, hdestination,
    take_left' (length_ipv4Header _ _), hchecksum, hslice, hshort, hinvalid, hlonger, ipv4HeaderLen, tcpHeaderLen]

theorem parseTcpPacket_ipv6 (mode : L4Checksum) {segment : Bytes}
    (hsegment : 20 ≤ segment.length) (hlen : segment.length < 65536) :
    parseTcpPacket (ipv6Header segment.length ipv6NextHeaderTcp source destination ++ segment) mode =
      parseTcpSegment .v6 (.v6 source) (.v6 destination) segment mode := by
  obtain ⟨-, -, -, hsource, hdestination⟩ := ipv6Header_fields ipv6NextHeaderTcp source destination segment hlen
  have hlocate := locateIpv6Payload_ipv6Header ipv6NextHeaderTcp source destination hlen (Nat.le_refl _) rfl
  have hslice : slice (ipv6Header segment.length ipv6NextHeaderTcp source destination ++ segment) 40
      (40 + segment.length) = segment :=
    slice_to_end (by simp) (by simp)
  have hshort : ¬ 40 + segment.length < 60 := by omega
  have hkind : ipv6NextHeaderTcp ≠ ipv6NextHeaderFragment := by decide
  simp [parseTcpPacket, parseIpv6TcpPacket, locateIpv6UpperLayer, hlocate, hsource, hdestination, hslice, hshort, hkind,
    ipv6HeaderLen, tcpHeaderLen, bind, Except.bind, pure, Except.pure]

def CarriesIpv4 (source destination : Octets 4) (fields : TcpFields) (options : ParsedTcpOptions)
    (payload packet : Bytes) : Prop :=
  (∀ mode, parseTcpPacket packet mode =
    .ok ⟨.v4, .v4 source, .v4 destination, fields.sourcePort, fields.destinationPort, fields.sequenceNumber,
      fields.acknowledgementNumber, fields.windowSize, options, fields.flags, payload⟩) ∧
  Verifies (packet.take 20) ∧ Verifies (ipv4Summed source destination ipv6NextHeaderTcp (packet.drop 20))

def CarriesIpv6 (fields : TcpFields) (options : ParsedTcpOptions)
    (payload packet : Bytes) : Prop :=
  (∀ mode, parseTcpPacket packet mode =
    .ok ⟨.v6, .v6 source, .v6 destination, fields.sourcePort, fields.destinationPort, fields.sequenceNumber,
      fields.acknowledgementNumber, fields.windowSize, options, fields.flags, payload⟩) ∧
  Verifies (ipv6Summed source destination ipv6NextHeaderTcp (packet.drop 40))

/-- Over either version of IP a checked segment behind its header parses back and its checksum verifies. -/
theorem checked_segment_parses {version : IpVersion} {sourceIp destinationIp : IpAddr} {summed : Bytes → Bytes}
    {payloadChecksum : Bytes → Nat} {header : Bytes} (payload : Bytes) (hcovers : Covers summed payloadChecksum)
    (hvalid : ∀ segment, tcpChecksumValid version sourceIp destinationIp segment = .ok (payloadChecksum segment == 0))
    (hparse : ∀ segment mode, segment.length = 20 + fields.options.length + payload.length →
      parseTcpPacket (header ++ segment) mode = parseTcpSegment version sourceIp destinationIp segment mode)
    (hle : fields.options.length ≤ 40) (haligned : fields.options.length % 4 = 0)
    (hoptions : parseTcpOptions fields.options = .ok options) :
    let packet := header ++ checkedTcpHeader payloadChecksum fields payload ++ payload
    (∀ mode, parseTcpPacket packet mode = .ok ⟨version, sourceIp, destinationIp, fields.sourcePort,
      fields.destinationPort, fields.sequenceNumber, fields.acknowledgementNumber, fields.windowSize, options,
      fields.flags, payload⟩) ∧ Verifies (summed (packet.drop header.length)) := by
  have hsum : Verifies (summed (checkedTcpHeader payloadChecksum fields payload ++ payload)) := by
    simp only [checkedTcpHeader, writeTcpHeader, append_assoc]
    exact hcovers.verifies (by simp) _ (.inl rfl)
  dsimp only
  rw [append_assoc, drop_left' rfl]
  refine ⟨fun mode => ?_, hsum⟩
  rw [hparse _ mode (by simp [checkedTcpHeader])]
  refine parseTcpSegment_writeTcpHeader hle haligned hoptions ?_
  exact (hvalid _).trans (congrArg (fun sum : Nat => Except.ok (sum == 0)) ((hcovers.eq_zero_iff _).mpr hsum))

theorem ipv4_tcp_packet (source destination : Octets 4) (hle : fields.options.length ≤ 40)
    (haligned : fields.options.length % 4 = 0) (hoptions : parseTcpOptions fields.options = .ok options)
    (htotal : 40 + fields.options.length + payloadParts.flatten.length ≤ 65535) :
    ∃ header, buildDataHeaderCustom .v4 (.v4 source) (.v4 destination) fields payloadParts = .ok header ∧
      buildResponsePacketCustom .v4 (.v4 source) (.v4 destination) fields payloadParts.flatten =
        .ok (header ++ payloadParts.flatten) ∧
      CarriesIpv4 source destination fields options payloadParts.flatten (header ++ payloadParts.flatten) := by
  obtain ⟨hparses, hsum⟩ := checked_segment_parses payloadParts.flatten (ipv4_covers source destination _)
    (fun _ => rfl)
    (fun segment mode hlen => parseTcpPacket_ipv4 source destination mode
      (congrArg (20 + ·) hlen.symm) (by omega) (by omega)) hle haligned hoptions
  refine ⟨_, ?_, ?_, hparses, ?_, ?_⟩
  · rw [buildDataHeaderCustom, ← length_flatten, buildIpv4TcpHeader_full source destination haligned rfl]
  · rw [buildResponsePacketCustom, buildIpv4TcpHeader_full source destination haligned flatten_singleton]
    rfl
  · rw [append_assoc, checkedIpv4Header, take_left' (length_ipv4Header _ _)]
    exact ipv4Header_verifies _ _ _ _
  · simpa [checkedIpv4Header] using hsum

theorem ipv6_tcp_packet (hle : fields.options.length ≤ 40)
    (haligned : fields.options.length % 4 = 0) (hoptions : parseTcpOptions fields.options = .ok options)
    (htotal : 20 + fields.options.length + payloadParts.flatten.length ≤ 65535) :
    ∃ header, buildDataHeaderCustom .v6 (.v6 source) (.v6 destination) fields payloadParts = .ok header ∧
      buildResponsePacketCustom .v6 (.v6 source) (.v6 destination) fields payloadParts.flatten =
        .ok (header ++ payloadParts.flatten) ∧
      CarriesIpv6 source destination fields options payloadParts.flatten (header ++ payloadParts.flatten) := by
  obtain ⟨hparses, hsum⟩ := checked_segment_parses payloadParts.flatten (ipv6_covers source destination _)
    (fun _ => rfl)
    (fun segment mode hlen => hlen ▸ parseTcpPacket_ipv6 source destination mode (by omega) (by omega))
    hle haligned hoptions
  refine ⟨_, ?_, ?_, hparses, ?_⟩
  · rw [buildDataHeaderCustom, ← length_flatten, buildIpv6TcpHeader_full source destination haligned rfl]
  · rw [buildResponsePacketCustom, buildIpv6TcpHeader_full source destination haligned flatten_singleton]
    rfl
  · simpa using hsum

/-- For every block of at most 40 bytes that the parser accepts and every payload that leaves the length field
within 16 bits, whole or in parts, the built packet parses back to its fields and payload with the options of
the block, and its checksums verify.  A block of well-formed options parses back to these options. -/
theorem tcp_packets_parse_back {fields : TcpFields} {options : ParsedTcpOptions} (payloadParts : List Bytes)
    (hle : fields.options.length ≤ 40) (haligned : fields.options.length % 4 = 0)
    (hoptions : parseTcpOptions fields.options = .ok options) :
    (∀ source destination : Octets 4, 40 + fields.options.length + payloadParts.flatten.length ≤ 65535 →
      ∃ header, buildDataHeaderCustom .v4 (.v4 source) (.v4 destination) fields payloadParts = .ok header ∧
        buildResponsePacketCustom .v4 (.v4 source) (.v4 destination) fields payloadParts.flatten =
          .ok (header ++ payloadParts.flatten) ∧
        CarriesIpv4 source destination fields options payloadParts.flatten (header ++ payloadParts.flatten)) ∧
    (∀ source destination : Octets 16, 20 + fields.options.length + payloadParts.flatten.length ≤ 65535 →
      ∃ header, buildDataHeaderCustom .v6 (.v6 source) (.v6 destination) fields payloadParts = .ok header ∧
        buildResponsePacketCustom .v6 (.v6 source) (.v6 destination) fields payloadParts.flatten =
          .ok (header ++ payloadParts.flatten) ∧
        CarriesIpv6 source destination fields options payloadParts.flatten (header ++ payloadParts.flatten)) ∧
    (∀ written : List TcpOption, (∀ option ∈ written, option.wellFormed = true) →
      fields.options = written.flatMap TcpOption.write → options = written.foldl TcpOption.record {}) := by
  refine ⟨fun source destination htotal => ipv4_tcp_packet source destination hle haligned hoptions htotal,
    fun source destination htotal => ipv6_tcp_packet source destination hle haligned hoptions htotal, ?_⟩
  intro written hwritten hblock
  rw [hblock, parseTcpOptions_flatMap hwritten] at hoptions
  exact (Except.ok.inj hoptions).symm

def synFields : TcpFields where
  sourcePort := 443
  destinationPort := 40000
  sequenceNumber := 7
  acknowledgementNumber := 9
  flags := 0x12
  windowSize := 0xffff
  options := [2, 4, 0x05, 0xb4]

theorem tcp_packets_parse_back_syn :
    ∃ header, buildDataHeaderCustom .v4 (.v4 ⟨[10, 0, 0, 1], rfl⟩) (.v4 ⟨[10, 0, 0, 2], rfl⟩) synFields [[1, 2], [3]] =
        .ok header ∧
      CarriesIpv4 ⟨[10, 0, 0, 1], rfl⟩ ⟨[10, 0, 0, 2], rfl⟩ synFields { maxSegmentSize := some 1460 } [1, 2, 3]
        (header ++ [1, 2, 3]) := by
  have hoptions : parseTcpOptions synFields.options = .ok { maxSegmentSize := some 1460 } := by decide
  obtain ⟨header, hheader, -, hcarries⟩ := (tcp_packets_parse_back [[1, 2], [3]] (by decide) (by decide)
    hoptions).1 ⟨[10, 0, 0, 1], rfl⟩ ⟨[10, 0, 0, 2], rfl⟩ (by decide)
  exact ⟨header, hheader, hcarries⟩

/-- The packet of a block that is no list of options is built and then refused by the parser, and a payload
whose length does not fit is not refused. -/
theorem malformed_options_not_parsed :
    (∃ packet, buildResponsePacketCustom .v4 (.v4 ⟨[10, 0, 0, 1], rfl⟩) (.v4 ⟨[10, 0, 0, 2], rfl⟩)
        { synFields with options := [2, 0, 0, 0] } [] = .ok packet ∧
      parseTcpPacket packet .unverified = .error "invalid TCP option length") ∧
    ∀ payload : Bytes, payload.length = 65496 →
      ∃ packet, buildResponsePacketCustom .v4 (.v4 ⟨[10, 0, 0, 1], rfl⟩) (.v4 ⟨[10, 0, 0, 2], rfl⟩)
          { synFields with options := [] } payload = .ok packet ∧ packet.length = 65536 ∧ beAt 2 packet 2 = 0 := by
  refine ⟨⟨_, rfl, by decide⟩, ?_⟩
  intro payload hlength
  refine ⟨_, rfl, ?_, ?_⟩
  · simp [hlength]
  · simp [ipv4Header, beAt, octetsAt, byteAt, toBe, range_succ, ofBe, hlength, tcpHeaderLen, ipv4HeaderLen]

end OutlineProxy.Tun
