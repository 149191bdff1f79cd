import OutlineProxy.Tun.Defrag.Exact

/-! Packets of both families and the fragments they are cut into. -/

namespace OutlineProxy.Tun

open List Sealing OnesComplement

namespace Defrag

theorem patch_skip {before after field : Bytes} {i : Nat} (hi : before.length ≤ i) :
    patch i field (before ++ after) = before ++ patch (i - before.length) field after := by
  rw [patch, patch, take_append, drop_append, take_of_length_le hi, drop_eq_nil_of_le (Nat.le_add_right_of_le hi),
    Nat.sub_add_comm hi, nil_append, append_assoc]

theorem patch_start {old field : Bytes} (hlen : old.length = field.length) (after : Bytes) :
    patch 0 field (old ++ after) = field ++ after := by
  rw [patch, Nat.zero_add, ← hlen, drop_left]
  rfl

section Aligned

variable {pieces : List Bytes} {start : Nat} {c : FragmentChunk}

theorem tile_aligned (hstart : start % 8 = 0) (haligned : ∀ piece ∈ pieces.dropLast, piece.length % 8 = 0)
    (hc : c ∈ tile start pieces) :
    c.offset % 8 = 0 ∧ (c.stop = start + pieces.flatten.length ∨ c.data.length % 8 = 0) := by
  induction pieces generalizing start with
  | nil => cases hc
  | cons piece pieces ih =>
    cases pieces with
    | nil =>
      cases mem_singleton.mp hc
      exact ⟨hstart, Or.inl (by simp [FragmentChunk.stop])⟩
    | cons second pieces =>
      rw [dropLast_cons_cons, forall_mem_cons] at haligned
      rcases mem_cons.mp hc with rfl | hc
      · exact ⟨hstart, Or.inr haligned.1⟩
      · grind [flatten_cons, length_append, Nat.add_assoc]

theorem mem_of_mem_tile (hc : c ∈ tile start pieces) : c.data ∈ pieces := by
  induction pieces generalizing start with
  | nil => cases hc
  | cons piece pieces ih =>
    rcases mem_cons.mp hc with rfl | hc
    · exact mem_cons_self
    · exact mem_cons_of_mem _ (ih hc)

theorem tile_ne_nil (hne : ∀ piece ∈ pieces, piece ≠ []) (hc : c ∈ tile start pieces) : c.data ≠ [] :=
  hne _ (mem_of_mem_tile hc)

theorem length_tile (start : Nat) (pieces : List Bytes) : (tile start pieces).length = pieces.length := by
  induction pieces generalizing start with
  | nil => rfl
  | cons piece pieces ih => rw [tile, length_cons, length_cons, ih]

theorem tile_proper {total : Nat} {full : List FragmentChunk} (hfull : Contiguous 0 full total)
    (hne : ∀ c ∈ full, c.data ≠ []) (htwo : 2 ≤ full.length) (hc : c ∈ full) : ¬(c.offset = 0 ∧ c.stop = total) := by
  rintro ⟨hzero, hstop⟩
  have hnodup := hfull.apart.1.nodup hne
  have hother : ∃ other ∈ full, other ≠ c := by
    by_contra hnone
    push Not at hnone
    have hsub : full ⊆ [c] := fun other hmem => mem_singleton.mpr (hnone other hmem)
    have hle := (subperm_of_subset hnodup hsub).length_le
    rw [length_singleton] at hle
    omega
  obtain ⟨other, hmem, hdiffer⟩ := hother
  have hlt := FragmentChunk.offset_lt_stop (hne other hmem)
  have hle := hfull.stop_le hmem
  rcases hfull.apart.1.disjoint hmem hc hdiffer with h | h <;> omega

end Aligned

/-- What all fragments of an IPv4 packet carry: all of the header but its length, its fragment field and its
checksum. -/
structure Ipv4Header where
  ihl : Nat
  tos : UInt8
  identification : Nat
  ttl : UInt8
  protocol : UInt8
  source : Octets 4
  destination : Octets 4
  options : Bytes
  ihl_range : 5 ≤ ihl ∧ ihl ≤ 15
  identification_lt : identification < 65536
  length_options : options.length = 4 * (ihl - 5)

namespace Ipv4Header

variable (h : Ipv4Header)

def bytes (totalLen fragmentField checksum : Nat) : Bytes :=
  [UInt8.ofNat (64 + h.ihl), h.tos] ++ (toBe 2 totalLen ++ (toBe 2 h.identification ++ (toBe 2 fragmentField ++
    ([h.ttl, h.protocol] ++ (toBe 2 checksum ++ (h.source.1 ++ (h.destination.1 ++ h.options)))))))

def key : Ipv4Key := ⟨h.source, h.destination, h.protocol, h.identification⟩

def fragmentField (offset : Nat) (more : Bool) : Nat := offset / 8 + if more then 0x2000 else 0

def fragmentHeader (offset : Nat) (more : Bool) (checksum : Nat) (data : Bytes) : Bytes :=
  h.bytes (4 * h.ihl + data.length) (fragmentField offset more) checksum

def fragment (offset : Nat) (more : Bool) (checksum : Nat) (data : Bytes) : Bytes :=
  h.fragmentHeader offset more checksum data ++ data

def packet (payload : Bytes) : Bytes :=
  let totalLen := 4 * h.ihl + payload.length
  h.bytes totalLen 0 (checksum16 (h.bytes totalLen 0 0)) ++ payload

variable {h} {totalLen field checksum : Nat}

@[simp] theorem length_bytes : (h.bytes totalLen field checksum).length = 4 * h.ihl := by
  have hrange := h.ihl_range
  simp only [bytes, length_append, length_cons, length_nil, length_toBe, h.source.2, h.destination.2,
    h.length_options]
  omega

theorem toNat_first : (UInt8.ofNat (64 + h.ihl)).toNat = 64 + h.ihl := by
  have hrange := h.ihl_range
  rw [UInt8.toNat_ofNat', Nat.mod_eq_of_lt (by omega)]

theorem verifies_packet_header (payload : Bytes) : Verifies ((h.packet payload).take (4 * h.ihl)) := by
  rw [packet, take_left' length_bytes]
  have hsplit : ∀ n, h.bytes (4 * h.ihl + payload.length) 0 n =
      ([UInt8.ofNat (64 + h.ihl), h.tos] ++ (toBe 2 (4 * h.ihl + payload.length) ++ (toBe 2 h.identification ++
        (toBe 2 0 ++ [h.ttl, h.protocol])))) ++ (toBe 2 n ++ (h.source.1 ++ (h.destination.1 ++ h.options))) := by
    intro n
    simp only [bytes, append_assoc]
  rw [checksum16_eq, hsplit, hsplit]
  apply verifies_of_complement
  simp

theorem fields (h : Ipv4Header) (checksum : Nat) (rest : Bytes) (htotal : totalLen < 65536) (hfield : field < 65536) :
    let packet := h.bytes totalLen field checksum ++ rest
    byteAt packet 0 = UInt8.ofNat (64 + h.ihl) ∧ beAt 2 packet 2 = totalLen ∧ beAt 2 packet 4 = h.identification ∧
      beAt 2 packet 6 = field ∧ byteAt packet 9 = h.protocol ∧ octetsAt 4 packet 12 = h.source ∧
      octetsAt 4 packet 16 = h.destination := by
  refine ⟨rfl, ?_, ?_, ?_, by simp [bytes, byteAt, toBe], ?_, ?_⟩
  all_goals simp (disch := simp [h.source.2]) only [bytes, append_assoc, beAt_skip, octetsAt_skip]
  · exact beAt_start htotal
  · exact beAt_start h.identification_lt
  · exact beAt_start hfield
  · exact octetsAt_start h.source _
  · simp [h.source.2, octetsAt_start]

variable {offset : Nat} {more : Bool} {data : Bytes}

theorem reads_fragment (hoffset : offset % 8 = 0) (hlt : offset < 65536) (hfits : 4 * h.ihl + data.length ≤ 65535)
    (hproper : ¬(offset = 0 ∧ more = false)) (haligned : more = true → data.length % 8 = 0) :
    Reads ipv4 (h.fragment offset more checksum data)
      ⟨h.key, h.fragmentHeader offset more checksum data, offset, more, data⟩ := by
  have hrange := h.ihl_range
  have hfield : fragmentField offset more < 65536 := by
    unfold fragmentField
    split <;> omega
  have hback : fragmentField offset more % 0x2000 * 8 = offset := by
    unfold fragmentField
    split <;> omega
  have hmore : (fragmentField offset more / 0x2000 % 2 == 1) = more := by grind [fragmentField, Bool.false_eq_true]
  obtain ⟨hfirst, htotal, hid, hfrag, hprotocol, hsource, hdestination⟩ :=
    fields h checksum data (show 4 * h.ihl + data.length < 65536 by omega) hfield
  have hlen : (h.fragment offset more checksum data).length = 4 * h.ihl + data.length := by
    rw [fragment, length_append, fragmentHeader, length_bytes]
  have hihl : (64 + h.ihl) % 16 * 4 = 4 * h.ihl := by omega
  have hslice : slice (h.fragment offset more checksum data) (4 * h.ihl) (4 * h.ihl + data.length) = data :=
    slice_to_end length_bytes.symm (by rw [fragmentHeader, length_bytes])
  have htake : (h.fragment offset more checksum data).take (4 * h.ihl) = h.fragmentHeader offset more checksum data :=
    take_left' length_bytes
  refine ⟨.ipv4Fragment ⟨h.key, h.fragmentHeader offset more checksum data, offset, more, data⟩, ?_, rfl⟩
  have hhead : (h.fragment offset more checksum data).head? = some (UInt8.ofNat (64 + h.ihl)) := rfl
  rw [inspectPacket, hhead]
  simp only [toNat_first]
  rw [if_pos (by omega), inspectIpv4, hlen, if_neg (by rw [ipv4HeaderLen]; omega)]
  simp only [fragment, fragmentHeader] at hslice htake ⊢
  simp only [hfirst, htotal, hid, hfrag, hprotocol, hsource, hdestination, toNat_first, hihl, hback, hmore,
    hslice, htake]
  rw [if_neg (by rw [ipv4HeaderLen]; omega), if_neg (Nat.lt_irrefl _), if_neg hproper, if_neg ?_]
  · rfl
  · rintro ⟨hmore', hodd⟩
    exact hodd (haligned hmore')

theorem rebuilt_bytes (n m k total : Nat) :
    rebuiltIpv4Header (h.bytes n m k) total = h.bytes total 0 (checksum16 (h.bytes total 0 0)) := by
  have hlen : ∀ n m k, patch 2 (toBe 2 total) (h.bytes n m k) = h.bytes total m k := by
    intro n m k
    simp (disch := simp) only [bytes, patch_skip]
    simp [patch_start]
  have hfield : ∀ n m k, patch 6 (toBe 2 0) (h.bytes n m k) = h.bytes n 0 k := by
    intro n m k
    simp (disch := simp) only [bytes, patch_skip]
    simp [patch_start]
  have hsum : ∀ n m k k', patch 10 (toBe 2 k') (h.bytes n m k) = h.bytes n m k' := by
    simp (disch := simp) only [bytes, patch_skip]
    simp [patch_start]
  simp only [rebuiltIpv4Header, hlen, hfield, hsum]

end Ipv4Header

structure Ipv4Fragmentation where
  header : Ipv4Header
  pieces : List Bytes
  checksum : FragmentChunk → Nat
  two_le : 2 ≤ pieces.length
  nonempty : ∀ piece ∈ pieces, piece ≠ []
  aligned : ∀ piece ∈ pieces.dropLast, piece.length % 8 = 0
  fits : 4 * header.ihl + pieces.flatten.length ≤ 65535

namespace Ipv4Fragmentation

variable (f : Ipv4Fragmentation)

def payload : Bytes := f.pieces.flatten

def chunks : List FragmentChunk := tile 0 f.pieces

def original : Bytes := f.header.packet f.payload

def more (c : FragmentChunk) : Bool := decide (c.stop ≠ f.payload.length)

def packet (c : FragmentChunk) : Bytes := f.header.fragment c.offset (f.more c) (f.checksum c) c.data

theorem contiguous : Contiguous 0 f.chunks f.payload.length := by
  have h := contiguous_tile 0 f.pieces
  rwa [Nat.zero_add] at h

theorem reads {c : FragmentChunk} (hc : c ∈ f.chunks) : Reads ipv4 (f.packet c)
    ⟨f.header.key, f.header.fragmentHeader c.offset (f.more c) (f.checksum c) c.data, c.offset, f.more c, c.data⟩ := by
  have hne : ∀ c ∈ f.chunks, c.data ≠ [] := fun c hc => tile_ne_nil f.nonempty hc
  have hfits : 4 * f.header.ihl + f.payload.length ≤ 65535 := f.fits
  have hstop := f.contiguous.stop_le hc
  have hlt := FragmentChunk.offset_lt_stop (hne c hc)
  obtain ⟨hoffset, hlast⟩ := tile_aligned rfl f.aligned hc
  rw [FragmentChunk.stop] at hstop hlt
  refine Ipv4Header.reads_fragment hoffset (by omega) (by omega) ?_ ?_
  · rintro ⟨hzero, hmore⟩
    refine tile_proper f.contiguous hne (by rw [chunks, length_tile]; exact f.two_le) hc ⟨hzero, ?_⟩
    simpa [more] using hmore
  · grind [more, payload]

def Good (got : List FragmentChunk) (head : Option Bytes) : Prop :=
  (∀ header, head = some header → ∃ n m k, header = f.header.bytes n m k) ∧
    ((∃ c ∈ got, c.offset = 0) → head.isSome = true)

def carried (c : FragmentChunk) : Bytes := f.header.fragmentHeader c.offset (f.more c) (f.checksum c) c.data

variable {f} {got : List FragmentChunk} {head : Option Bytes}

theorem good_start : f.Good [] none := by
  refine ⟨fun header hheader => ?_, ?_⟩
  · cases hheader
  · rintro ⟨c, hc, -⟩
    cases hc

theorem Good.join (h : f.Good got head) (c : FragmentChunk) :
    f.Good (c :: got) (if head.isNone && c.offset == 0 then some (f.carried c) else head) := by
  refine ⟨fun header hheader => ?_, ?_⟩
  · split at hheader
    · cases hheader
      exact ⟨_, _, _, rfl⟩
    · exact h.1 header hheader
  · rintro ⟨first, hfirst, hzero⟩
    split
    next => rfl
    next hother =>
      cases head with
      | some header => rfl
      | none =>
        rcases mem_cons.mp hfirst with rfl | hfirst
        · simp [hzero] at hother
        · exact h.2 ⟨first, hfirst, hzero⟩

theorem Good.size_le (h : f.Good got head) : ipv4Heads.size head ≤ 4 * f.header.ihl := by
  cases head with
  | none => exact Nat.zero_le _
  | some header =>
    obtain ⟨n, m, k, rfl⟩ := h.1 header rfl
    exact Nat.le_of_eq Ipv4Header.length_bytes

theorem exists_first (hall : f.chunks ⊆ got) : ∃ c ∈ got, c.offset = 0 := by
  have hcover := f.contiguous
  have hlen : f.chunks.length = f.pieces.length := length_tile 0 f.pieces
  have htwo := f.two_le
  cases hlist : f.chunks with
  | nil =>
    rw [hlist, length_nil] at hlen
    omega
  | cons c rest =>
    rw [hlist] at hcover
    exact ⟨c, hall (hlist ▸ mem_cons_self), hcover.1⟩

theorem Good.build {set : Ipv4FragmentSet} (h : f.Good got set.head) (hall : f.chunks ⊆ got)
    (hchunks : set.chunks = f.chunks) (htotal : set.totalPayloadLen = some f.payload.length) :
    buildIpv4Packet set = .ok f.original := by
  obtain ⟨header, hheader⟩ := Option.isSome_iff_exists.mp (h.2 (exists_first hall))
  obtain ⟨n, m, k, rfl⟩ := h.1 header hheader
  have hcomplete : chunksAreComplete f.chunks f.payload.length = true := chunksAreComplete_iff.mpr f.contiguous
  have hfits : ¬ 65535 < 4 * f.header.ihl + f.payload.length := Nat.not_lt.mpr f.fits
  simp only [buildIpv4Packet, hheader, htotal, hchunks, hcomplete, Bool.not_true, Bool.false_eq_true, if_false,
    Ipv4Header.length_bytes, if_neg hfits, Ipv4Header.rebuilt_bytes]
  rw [chunks, payloadOf_tile]
  rfl

variable (f)

def plan : Plan ipv4 where
  key := f.header.key
  full := f.chunks
  total := f.payload.length
  carried := f.carried
  packet := f.packet
  original := f.original
  headSize := 4 * f.header.ihl
  good := f.Good
  contiguous := f.contiguous
  nonempty _ hc := tile_ne_nil f.nonempty hc
  reads _ hc := f.reads hc
  start _ _ := good_start
  join _ _ hgood c _ := ⟨_, rfl, hgood.join c⟩
  size _ _ hgood := hgood.size_le
  done _ _ hgood hall hchunks htotal := ⟨hgood.2 (exists_first hall), hgood.build hall hchunks htotal⟩

end Ipv4Fragmentation

theorem chain_split (extensions : List Ipv6Extension) (mid : Bytes) (fieldOffset : Nat) :
    ∃ before after, fieldOffset + before.length = lastField extensions (fieldOffset + (1 + mid.length)) fieldOffset ∧
      ∀ last, chainHead extensions last :: (mid ++ chainBytes extensions last) = before ++ ([last] ++ after) := by
  induction extensions generalizing mid fieldOffset with
  | nil => exact ⟨[], mid, rfl, fun last => by simp [chainHead, chainBytes]⟩
  | cons extension rest ih =>
    obtain ⟨before, after, hoffset, hsplit⟩ := ih (extension.len :: extension.rest) (fieldOffset + (1 + mid.length))
    refine ⟨extension.type :: (mid ++ before), after, ?_, fun last => ?_⟩
    · grind [lastField, length_cons, length_append]
    · grind [chainHead, chainBytes]

theorem fragmentHeader_fields {packet lead data : Bytes} {upper : UInt8} {start field identification : Nat}
    (hlead : lead.length = start) (hfield : field < 65536) (hid : identification < 2 ^ 32)
    (hpacket : packet = lead ++ ([upper, 0] ++ (toBe 2 field ++ (toBe 4 identification ++ data)))) :
    byteAt packet start = upper ∧ beAt 2 packet (start + 2) = field ∧ beAt 4 packet (start + 4) = identification ∧
      slice packet (start + 8) (start + (8 + data.length)) = data ∧ packet.take start = lead := by
  subst hlead
  refine ⟨?_, ?_, ?_, ?_, ?_⟩
  · rw [hpacket]
    exact byteAt_field rfl
  · rw [hpacket, ← append_assoc]
    exact beAt_field (by simp) (by simpa using hfield)
  · rw [hpacket, ← append_assoc, ← append_assoc]
    exact beAt_field (by simp) (by simpa using hid)
  · have hsplit : packet = (lead ++ ([upper, 0] ++ (toBe 2 field ++ toBe 4 identification))) ++ data := by
      simp [hpacket]
    have hfront : (lead ++ ([upper, 0] ++ (toBe 2 field ++ toBe 4 identification))).length = lead.length + 8 := by simp
    rw [hsplit]
    exact slice_to_end hfront.symm (by rw [hfront, Nat.add_assoc])
  · rw [hpacket]
    exact take_left

end Defrag

namespace Ipv6Lead

open Defrag

variable (l : Ipv6Lead)

def key (identification : Nat) (upper : UInt8) : Ipv6Key := ⟨l.source, l.destination, identification, upper⟩

def fragmentLead (data : Bytes) : Bytes := l.bytes (chainSize l.extensions + (8 + data.length)) ipv6NextHeaderFragment

def fragment (upper : UInt8) (identification offset : Nat) (more : Bool) (data : Bytes) : Bytes :=
  l.fragmentLead data ++ ([upper, 0] ++ (toBe 2 (offset + if more then 1 else 0) ++ (toBe 4 identification ++ data)))

variable {l} {upper : UInt8} {identification offset : Nat} {more : Bool} {data : Bytes}

theorem reads_fragment (hid : identification < 2 ^ 32) (hoffset : offset % 8 = 0) (hlt : offset < 65536)
    (hfits : chainSize l.extensions + (8 + data.length) ≤ 65535) (haligned : more = true → data.length % 8 = 0) :
    Reads ipv6 (l.fragment upper identification offset more data)
      ⟨l.key identification upper, ⟨l.fragmentLead data, l.lastFieldOffset, upper⟩, offset, more, data⟩ := by
  have hflags : offset + (if more then 1 else 0) < 65536 := by
    split <;> omega
  have hback : (offset + if more then 1 else 0) / 8 * 8 = offset := by
    split <;> omega
  have hmore : ((offset + if more then 1 else 0) % 2 == 1) = more := by grind [Bool.false_eq_true]
  let tail := [upper, 0] ++ (toBe 2 (offset + if more then 1 else 0) ++ (toBe 4 identification ++ data))
  have htail : tail.length = 8 + data.length := by
    simp only [tail, length_append, length_cons, length_nil, length_toBe]
    omega
  have hpacket : l.fragment upper identification offset more data = l.fragmentLead data ++ tail := rfl
  obtain ⟨-, -, hsource, hdestination⟩ := fields l ipv6NextHeaderFragment tail
    (show chainSize l.extensions + (8 + data.length) < 65536 by omega)
  have hlocate :
      locateIpv6Payload (l.bytes (chainSize l.extensions + (8 + data.length)) ipv6NextHeaderFragment ++ tail) =
      _ := locate (by omega) (by omega) (by omega) rfl
  obtain ⟨hupper, hfield, hidentification, hslice, htake⟩ := fragmentHeader_fields
    (show (l.fragmentLead data).length = 40 + chainSize l.extensions from length_bytes) hflags hid hpacket
  rw [hpacket] at hupper hfield hidentification hslice htake
  rw [Nat.add_assoc 40 _ (8 + data.length)] at hslice
  obtain ⟨first, hfirst, hversion⟩ := l.head?_bytes (chainSize l.extensions + (8 + data.length)) ipv6NextHeaderFragment
    tail
  have hsame : l.fragmentLead data ++ tail =
      l.bytes (chainSize l.extensions + (8 + data.length)) ipv6NextHeaderFragment ++ tail := rfl
  rw [← hsame] at hlocate hsource hdestination hfirst
  refine ⟨.ipv6Fragment ⟨l.key identification upper, ⟨l.fragmentLead data, l.lastFieldOffset, upper⟩, offset, more,
    data⟩, ?_, rfl⟩
  rw [inspectPacket, hpacket, hfirst]
  dsimp only
  rw [if_neg (by omega), if_pos hversion, inspectIpv6]
  rw [hlocate]
  simp only [ne_eq, not_true_eq_false, if_false, hupper, hfield, hidentification, hsource, hdestination, hslice, htake,
    hback, hmore]
  rw [if_neg (by omega), if_neg ?_]
  · rfl
  · rintro ⟨hmore', hodd⟩
    exact hodd (haligned hmore')

theorem patch_bytes (n m : Nat) (other last : UInt8) :
    patch 4 (toBe 2 m) (patch l.lastFieldOffset [last] (l.bytes n other)) = l.bytes m last := by
  obtain ⟨before, after, hoffset, hsplit⟩ := chain_split l.extensions (l.hopLimit :: (l.source.1 ++ l.destination.1)) 6
  have hmid : 6 + (1 + (l.hopLimit :: (l.source.1 ++ l.destination.1)).length) = 40 := by
    simp [l.source.2, l.destination.2]
  rw [hmid] at hoffset
  have hbytes : ∀ n last, l.bytes n last = (l.start.1 ++ (toBe 2 n ++ before)) ++ ([last] ++ after) := by
    intro n last
    rw [bytes, hsplit last]
    simp
  have hplace : l.lastFieldOffset = (l.start.1 ++ (toBe 2 n ++ before)).length := by
    rw [lastFieldOffset, ← hoffset]
    simp [l.start.2]
    omega
  have hlast : patch l.lastFieldOffset [last] (l.bytes n other) = l.bytes n last := by
    rw [hbytes, hbytes, hplace, patch_skip (Nat.le_refl _), Nat.sub_self]
    rfl
  rw [hlast, bytes, patch_skip (Nat.le_of_eq l.start.2), l.start.2]
  exact congrArg (l.start.1 ++ ·) (patch_start (by simp) _)

theorem prefixMatches (n m : Nat) (last : UInt8) : ipv6PrefixMatches (l.bytes n last) (l.bytes m last) = true := by
  have htake : ∀ n, (l.bytes n last).take 4 = l.start.1 := fun n => take_left' l.start.2
  have hdrop : ∀ n, (l.bytes n last).drop 6 = chainHead l.extensions last ::
      (l.hopLimit :: (l.source.1 ++ l.destination.1) ++ chainBytes l.extensions last) := by
    intro n
    rw [bytes, ← append_assoc]
    exact drop_left' (by simp [l.start.2])
  have hlong : ¬ 40 + chainSize l.extensions < 40 := by omega
  simp only [ipv6PrefixMatches, length_bytes, ne_eq, not_true_eq_false, if_false, ipv6HeaderLen, if_neg hlong, htake,
    hdrop, BEq.rfl, Bool.and_self]

end Ipv6Lead

namespace Defrag

/-- An IPv6 packet cut behind its unfragmentable part into at least two pieces that fit their packets. -/
structure Ipv6Fragmentation where
  lead : Ipv6Lead
  upper : UInt8
  identification : Nat
  pieces : List Bytes
  identification_lt : identification < 2 ^ 32
  two_le : 2 ≤ pieces.length
  nonempty : ∀ piece ∈ pieces, piece ≠ []
  aligned : ∀ piece ∈ pieces.dropLast, piece.length % 8 = 0
  fits : chainSize lead.extensions + pieces.flatten.length ≤ 65535
  piece_fits : ∀ piece ∈ pieces, chainSize lead.extensions + (8 + piece.length) ≤ 65535

namespace Ipv6Fragmentation

variable (f : Ipv6Fragmentation)

def payload : Bytes := f.pieces.flatten

def chunks : List FragmentChunk := tile 0 f.pieces

def original : Bytes := f.lead.packet f.upper f.payload

def more (c : FragmentChunk) : Bool := decide (c.stop ≠ f.payload.length)

def packet (c : FragmentChunk) : Bytes := f.lead.fragment f.upper f.identification c.offset (f.more c) c.data

theorem contiguous : Contiguous 0 f.chunks f.payload.length := by
  have h := contiguous_tile 0 f.pieces
  rwa [Nat.zero_add] at h

theorem reads {c : FragmentChunk} (hc : c ∈ f.chunks) : Reads ipv6 (f.packet c)
    ⟨f.lead.key f.identification f.upper, ⟨f.lead.fragmentLead c.data, f.lead.lastFieldOffset, f.upper⟩, c.offset,
      f.more c, c.data⟩ := by
  have hfits : chainSize f.lead.extensions + f.payload.length ≤ 65535 := f.fits
  have hstop := f.contiguous.stop_le hc
  obtain ⟨hoffset, hlast⟩ := tile_aligned rfl f.aligned hc
  rw [FragmentChunk.stop] at hstop
  refine Ipv6Lead.reads_fragment f.identification_lt hoffset (by omega) (f.piece_fits _ (mem_of_mem_tile hc)) ?_
  intro hmore
  refine hlast.resolve_left fun hend => ?_
  simp [more, payload, hend] at hmore

def Good (head : Ipv6Head) : Prop :=
  ∃ n, head = ⟨f.lead.bytes n ipv6NextHeaderFragment, f.lead.lastFieldOffset, f.upper⟩

variable {f} {head : Ipv6Head}

theorem Good.join (h : f.Good head) (offset : Nat) (data : Bytes) :
    ipv6Heads.join head offset ⟨f.lead.fragmentLead data, f.lead.lastFieldOffset, f.upper⟩ = some head := by
  obtain ⟨n, rfl⟩ := h
  simp only [ipv6Heads, Ipv6Lead.fragmentLead, Ipv6Lead.prefixMatches, bne_self_eq_false, Bool.not_true, Bool.or_self,
    Bool.false_eq_true, if_false]

theorem Good.size_le (h : f.Good head) : ipv6Heads.size head ≤ 40 + chainSize f.lead.extensions := by
  obtain ⟨n, rfl⟩ := h
  exact Nat.le_of_eq Ipv6Lead.length_bytes

theorem Good.build {set : Ipv6FragmentSet} (h : f.Good set.head) (hchunks : set.chunks = f.chunks)
    (htotal : set.totalPayloadLen = some f.payload.length) : buildIpv6Packet set = .ok f.original := by
  obtain ⟨n, hhead⟩ := h
  have hcomplete : chunksAreComplete f.chunks f.payload.length = true := chunksAreComplete_iff.mpr f.contiguous
  have hfits : chainSize f.lead.extensions + f.payload.length ≤ 65535 := f.fits
  have hlong : ¬ 40 + chainSize f.lead.extensions + f.payload.length < 40 := by omega
  have hlen : 40 + chainSize f.lead.extensions + f.payload.length - 40 =
      chainSize f.lead.extensions + f.payload.length := by omega
  simp only [buildIpv6Packet, htotal, hchunks, hcomplete, hhead, Bool.not_true, Bool.false_eq_true, if_false,
    Ipv6Lead.length_bytes, ipv6HeaderLen, if_neg hlong, hlen, Ipv6Lead.patch_bytes]
  rw [if_neg (by omega), chunks, payloadOf_tile]
  rfl

variable (f)

def plan : Plan ipv6 where
  key := f.lead.key f.identification f.upper
  full := f.chunks
  total := f.payload.length
  carried c := ⟨f.lead.fragmentLead c.data, f.lead.lastFieldOffset, f.upper⟩
  packet := f.packet
  original := f.original
  headSize := 40 + chainSize f.lead.extensions
  good _ head := f.Good head
  contiguous := f.contiguous
  nonempty _ hc := tile_ne_nil f.nonempty hc
  reads _ hc := f.reads hc
  start _ _ := ⟨_, rfl⟩
  join _ head hgood c _ := ⟨head, hgood.join c.offset c.data, hgood⟩
  size _ _ hgood := hgood.size_le
  done _ _ hgood _ hchunks htotal := ⟨rfl, hgood.build hchunks htotal⟩

end Ipv6Fragmentation

end Defrag

end OutlineProxy.Tun
