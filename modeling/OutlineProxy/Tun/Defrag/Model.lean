import OutlineProxy.Lib.Tables
import OutlineProxy.Tun.Wire

/-! The defragmenter: fragments are buffered by key until they cover a whole packet. -/

namespace OutlineProxy.Tun.Defrag

open Tables Sealing

section Chunks

structure FragmentChunk where
  offset : Nat
  data : Bytes
deriving DecidableEq

def FragmentChunk.stop (chunk : FragmentChunk) : Nat := chunk.offset + chunk.data.length

inductive ChunkInsertOutcome where
  | inserted (bytes : Nat)
  | duplicateExact
  | overlap

/-- Offsets and lengths are far below the range of `usize`, so the end of a chunk does not overflow. -/
def insertChunk (new : FragmentChunk) : List FragmentChunk → ChunkInsertOutcome × List FragmentChunk
  | [] => (.inserted new.data.length, [new])
  | existing :: chunks =>
    if new.stop ≤ existing.offset then (.inserted new.data.length, new :: existing :: chunks)
    else if existing.stop ≤ new.offset then
      let (outcome, rest) := insertChunk new chunks
      (outcome, existing :: rest)
    else if new.offset = existing.offset ∧ new.stop = existing.stop ∧ new.data = existing.data then
      (.duplicateExact, existing :: chunks)
    else (.overlap, existing :: chunks)

def chunksCoverFrom (cursor : Nat) (totalLen : Nat) : List FragmentChunk → Bool
  | [] => cursor == totalLen
  | chunk :: chunks =>
    if chunk.offset ≠ cursor then false else chunksCoverFrom (cursor + chunk.data.length) totalLen chunks

def chunksAreComplete (chunks : List FragmentChunk) (totalLen : Nat) : Bool := chunksCoverFrom 0 totalLen chunks

end Chunks

section Sets

def reassemblyTimeout : Nat := 15000000000

def cleanupInterval : Nat := 15000000000

inductive DefragmentedPacket where
  | readyBorrowed
  | readyOwned (packet : Bytes)
  | pending
  | dropped (reason : String)

structure Limits where
  maxTotalBufferedBytes : Nat
  maxBytesPerSet : Nat
  maxFragmentSets : Nat
  maxFragmentsPerSet : Nat

structure Fragment (Key Carried : Type) where
  key : Key
  carried : Carried
  offset : Nat
  moreFragments : Bool
  payload : Bytes

structure FragmentSet (Head : Type) where
  deadline : Nat
  head : Head
  chunks : List FragmentChunk
  totalPayloadLen : Option Nat

/-- What the two families do with the header bytes of their fragments.  `join` refuses a fragment that does not
belong to the packet the set was opened for. -/
structure Heads (Carried Head : Type) where
  start : Carried → Head
  join : Head → Nat → Carried → Option Head
  size : Head → Nat
  known : Head → Bool
  buildPacket : FragmentSet Head → Except String Bytes

variable {Key Carried Head : Type} [DecidableEq Key] (heads : Heads Carried Head)

def chunkBytes (chunks : List FragmentChunk) : Nat := (chunks.map fun chunk => chunk.data.length).sum

def estimatedBytes (set : FragmentSet Head) : Nat := heads.size set.head + chunkBytes set.chunks

def isComplete (set : FragmentSet Head) : Bool :=
  heads.known set.head && set.totalPayloadLen.any fun total => chunksAreComplete set.chunks total

inductive Absorbed (Head : Type) where
  | duplicate (set : FragmentSet Head)
  | remove
  | keep (set : FragmentSet Head)

def Fragment.chunk (fragment : Fragment Key Carried) : FragmentChunk := ⟨fragment.offset, fragment.payload⟩

def absorb (limits : Limits) (now : Nat) (fragment : Fragment Key Carried) (set : FragmentSet Head) (total : Nat) :
    Absorbed Head × Nat :=
  match heads.join set.head fragment.offset fragment.carried with
  | none => (.remove, total)
  | some head =>
    let total := total + (heads.size head - heads.size set.head)
    match insertChunk fragment.chunk set.chunks with
    | (.duplicateExact, _) => (.duplicate { set with head, deadline := now + reassemblyTimeout }, total)
    | (.overlap, _) => (.remove, total)
    | (.inserted bytes, chunks) =>
      let total := total + bytes
      if !fragment.moreFragments && set.totalPayloadLen.any (fun existing => existing != fragment.chunk.stop) then
        (.remove, total)
      else
        let set := {
          deadline := now + reassemblyTimeout
          head
          chunks
          totalPayloadLen := if fragment.moreFragments then set.totalPayloadLen else some fragment.chunk.stop }
        if limits.maxFragmentsPerSet < set.chunks.length ∨ limits.maxBytesPerSet < estimatedBytes heads set ∨
            limits.maxTotalBufferedBytes < total then (.remove, total)
        else (.keep set, total)

structure Handled (Key Head : Type) where
  result : Except String DefragmentedPacket
  sets : Table Key (FragmentSet Head)
  total : Nat

def openSet (now : Nat) (fragment : Fragment Key Carried) (sets : Table Key (FragmentSet Head)) : FragmentSet Head :=
  (sets.lookup fragment.key).getD
    { deadline := now + reassemblyTimeout, head := heads.start fragment.carried, chunks := [], totalPayloadLen := none }

def openTotal (fragment : Fragment Key Carried) (sets : Table Key (FragmentSet Head)) (total : Nat) : Nat :=
  if fragment.key ∈ sets then total else total + heads.size (heads.start fragment.carried)

/-- Both families' handler.  `otherSets` and `otherBytes` are the number of the other family's sets and their
bytes. -/
def handleFragment (limits : Limits) (now : Nat) (fragment : Fragment Key Carried)
    (sets : Table Key (FragmentSet Head)) (otherSets otherBytes total : Nat) : Handled Key Head :=
  if fragment.key ∉ sets ∧ limits.maxFragmentSets ≤ size sets + otherSets then
    ⟨.ok (.dropped "fragment resource limit"), sets, total⟩
  else
    let removed := sets.erase fragment.key
    let recalculated := Tables.total (estimatedBytes heads) removed + otherBytes
    match absorb heads limits now fragment (openSet heads now fragment sets) (openTotal heads fragment sets total) with
    | (.duplicate set, total) => ⟨.ok .pending, sets.insert fragment.key set, total⟩
    | (.remove, _) => ⟨.ok (.dropped "fragment sequence dropped"), removed, recalculated⟩
    | (.keep set, total) =>
      if isComplete heads set then
        match heads.buildPacket set with
        | .ok packet => ⟨.ok (.readyOwned packet), removed, recalculated⟩
        -- the handler returns before the bytes are counted again
        | .error error => ⟨.error error, removed, total⟩
      else ⟨.ok .pending, sets.insert fragment.key set, total⟩

end Sets

section Families

def patch (i : Nat) (field bytes : Bytes) : Bytes := bytes.take i ++ (field ++ bytes.drop (i + field.length))

structure Ipv4Key where
  source : Octets 4
  destination : Octets 4
  protocol : UInt8
  identification : Nat
deriving DecidableEq

structure Ipv6Key where
  source : Octets 16
  destination : Octets 16
  identification : Nat
  upperLayerHeader : UInt8
deriving DecidableEq

structure Ipv6Head where
  lead : Bytes
  nextHeaderFieldOffset : Nat
  upperLayerHeader : UInt8

abbrev Ipv4Fragment := Fragment Ipv4Key Bytes

abbrev Ipv6Fragment := Fragment Ipv6Key Ipv6Head

abbrev Ipv4FragmentSet := FragmentSet (Option Bytes)

abbrev Ipv6FragmentSet := FragmentSet Ipv6Head

def payloadOf (chunks : List FragmentChunk) : Bytes := chunks.flatMap FragmentChunk.data

def rebuiltIpv4Header (header : Bytes) (totalLen : Nat) : Bytes :=
  let header := patch 10 (toBe 2 0) (patch 6 (toBe 2 0) (patch 2 (toBe 2 totalLen) header))
  patch 10 (toBe 2 (checksum16 header)) header

def buildIpv4Packet (set : Ipv4FragmentSet) : Except String Bytes :=
  match set.head, set.totalPayloadLen with
  | none, _ => .error "missing IPv4 first fragment header"
  | some _, none => .error "missing IPv4 reassembled payload length"
  | some header, some payloadLen =>
    if !chunksAreComplete set.chunks payloadLen then .error "incomplete IPv4 fragment set"
    else
      let totalLen := header.length + payloadLen
      if 65535 < totalLen then .error "IPv4 reassembled packet exceeds maximum length"
      else .ok (rebuiltIpv4Header header totalLen ++ payloadOf set.chunks)

def buildIpv6Packet (set : Ipv6FragmentSet) : Except String Bytes :=
  match set.totalPayloadLen with
  | none => .error "missing IPv6 reassembled payload length"
  | some payloadLen =>
    if !chunksAreComplete set.chunks payloadLen then .error "incomplete IPv6 fragment set"
    else
      let totalLen := set.head.lead.length + payloadLen
      if totalLen < ipv6HeaderLen then .error "invalid IPv6 reassembled prefix length"
      else if 65535 < totalLen - ipv6HeaderLen then .error "IPv6 reassembled payload exceeds maximum length"
      else .ok (patch 4 (toBe 2 (totalLen - ipv6HeaderLen))
        (patch set.head.nextHeaderFieldOffset [set.head.upperLayerHeader] set.head.lead) ++ payloadOf set.chunks)

def ipv6PrefixMatches (stored incoming : Bytes) : Bool :=
  if stored.length ≠ incoming.length then false
  else if stored.length < ipv6HeaderLen then false
  else stored.take 4 == incoming.take 4 && stored.drop 6 == incoming.drop 6

def ipv4Heads : Heads Bytes (Option Bytes) where
  start _ := none
  join head offset header := some (if head.isNone && offset == 0 then some header else head)
  size head := (head.map List.length).getD 0
  known head := head.isSome
  buildPacket := buildIpv4Packet

def ipv6Heads : Heads Ipv6Head Ipv6Head where
  start carried := carried
  join head _ carried :=
    if !ipv6PrefixMatches head.lead carried.lead || head.nextHeaderFieldOffset != carried.nextHeaderFieldOffset ||
        head.upperLayerHeader != carried.upperLayerHeader then none
    else some head
  size head := head.lead.length
  known _ := true
  buildPacket := buildIpv6Packet

end Families

section Inspection

inductive PacketInspection where
  | passthrough
  | ipv4Fragment (fragment : Ipv4Fragment)
  | ipv6Fragment (fragment : Ipv6Fragment)

def inspectIpv4 (packet : Bytes) : Except String PacketInspection :=
  if packet.length < ipv4HeaderLen then .error "short IPv4 packet"
  else
    let headerLen := (byteAt packet 0).toNat % 16 * 4
    let totalLen := beAt 2 packet 2
    if headerLen < ipv4HeaderLen ∨ totalLen < headerLen then .error "invalid IPv4 packet lengths"
    else if packet.length < totalLen then .error "truncated IPv4 packet"
    else
      let fragmentField := beAt 2 packet 6
      let offset := fragmentField % 0x2000 * 8
      let moreFragments := fragmentField / 0x2000 % 2 == 1
      if offset = 0 ∧ moreFragments = false then .ok .passthrough
      else
        let payload := slice packet headerLen totalLen
        if moreFragments ∧ payload.length % 8 ≠ 0 then
          .error "IPv4 non-terminal fragment payload length is not 8-byte aligned"
        else .ok (.ipv4Fragment {
          key := {
            source := octetsAt 4 packet 12
            destination := octetsAt 4 packet 16
            protocol := byteAt packet 9
            identification := beAt 2 packet 4 }
          carried := packet.take headerLen
          offset
          moreFragments
          payload })

def inspectIpv6 (packet : Bytes) : Except String PacketInspection :=
  match locateIpv6Payload packet with
  | .error error => .error error
  | .ok info =>
    if info.nextHeader ≠ ipv6NextHeaderFragment then .ok .passthrough
    else if info.totalLen < info.payloadOffset + 8 then .error "truncated IPv6 fragment header"
    else
      let fragmentOffsetAndFlags := beAt 2 packet (info.payloadOffset + 2)
      let offset := fragmentOffsetAndFlags / 8 * 8
      let moreFragments := fragmentOffsetAndFlags % 2 == 1
      let payload := slice packet (info.payloadOffset + 8) info.totalLen
      if moreFragments ∧ payload.length % 8 ≠ 0 then
        .error "IPv6 non-terminal fragment payload length is not 8-byte aligned"
      else
        let upperLayerHeader := byteAt packet info.payloadOffset
        .ok (.ipv6Fragment {
          key := {
            source := octetsAt 16 packet 8
            destination := octetsAt 16 packet 24
            identification := beAt 4 packet (info.payloadOffset + 4)
            upperLayerHeader }
          carried := {
            lead := packet.take info.payloadOffset
            nextHeaderFieldOffset := info.nextHeaderFieldOffset
            upperLayerHeader }
          offset
          moreFragments
          payload })

def inspectPacket (packet : Bytes) : Except String PacketInspection :=
  match packet.head? with
  | none => .error "empty TUN packet"
  | some first =>
    if first.toNat / 16 = 4 then inspectIpv4 packet
    else if first.toNat / 16 = 6 then inspectIpv6 packet
    else .ok .passthrough

end Inspection

structure TunDefragmenter where
  ipv4Sets : Table Ipv4Key Ipv4FragmentSet
  ipv6Sets : Table Ipv6Key Ipv6FragmentSet
  totalBufferedBytes : Nat
  nextCleanupAt : Nat
  limits : Limits

namespace TunDefragmenter

def new (limits : Limits) (now : Nat) : TunDefragmenter where
  ipv4Sets := ∅
  ipv6Sets := ∅
  totalBufferedBytes := 0
  nextCleanupAt := now + cleanupInterval
  limits

variable (d : TunDefragmenter) (now : Nat)

def bufferedIpv4 : Nat := Tables.total (estimatedBytes ipv4Heads) d.ipv4Sets

def bufferedIpv6 : Nat := Tables.total (estimatedBytes ipv6Heads) d.ipv6Sets

def sweepExpired : TunDefragmenter :=
  let ipv4Sets := retain (fun _ set => decide (now < set.deadline)) d.ipv4Sets
  let ipv6Sets := retain (fun _ set => decide (now < set.deadline)) d.ipv6Sets
  let swept := { d with ipv4Sets, ipv6Sets }
  if size ipv4Sets < size d.ipv4Sets ∨ size ipv6Sets < size d.ipv6Sets then
    { swept with totalBufferedBytes := swept.bufferedIpv4 + swept.bufferedIpv6 }
  else swept

def runMaintenanceAt : TunDefragmenter :=
  if d.nextCleanupAt ≤ now then { d.sweepExpired now with nextCleanupAt := now + cleanupInterval } else d

def handleIpv4Fragment (fragment : Ipv4Fragment) : Except String DefragmentedPacket × TunDefragmenter :=
  let handled := handleFragment ipv4Heads d.limits now fragment d.ipv4Sets (size d.ipv6Sets) d.bufferedIpv6
    d.totalBufferedBytes
  (handled.result, { d with ipv4Sets := handled.sets, totalBufferedBytes := handled.total })

def handleIpv6Fragment (fragment : Ipv6Fragment) : Except String DefragmentedPacket × TunDefragmenter :=
  let handled := handleFragment ipv6Heads d.limits now fragment d.ipv6Sets (size d.ipv4Sets) d.bufferedIpv4
    d.totalBufferedBytes
  (handled.result, { d with ipv6Sets := handled.sets, totalBufferedBytes := handled.total })

def push (packet : Bytes) : Except String DefragmentedPacket × TunDefragmenter :=
  let d := d.runMaintenanceAt now
  match inspectPacket packet with
  | .error error => (.error error, d)
  | .ok .passthrough => (.ok .readyBorrowed, d)
  | .ok (.ipv4Fragment fragment) => d.handleIpv4Fragment now fragment
  | .ok (.ipv6Fragment fragment) => d.handleIpv6Fragment now fragment

end TunDefragmenter

end OutlineProxy.Tun.Defrag
