import OutlineProxy.Tun.Defrag.Packets

/-! What the defragmenter as a whole returns.  The bytes of a packet that turns out too long stay counted
after its set is gone. -/

namespace OutlineProxy.Tun.Defrag

open List Runs Tables OnesComplement TunDefragmenter

def plainHeader (identification : Nat) (hid : identification < 65536) : Ipv4Header where
  ihl := 5
  tos := 0
  identification
  ttl := 64
  protocol := 17
  source := ⟨[10, 0, 0, 1], rfl⟩
  destination := ⟨[10, 0, 0, 2], rfl⟩
  options := []
  ihl_range := by decide
  identification_lt := hid
  length_options := rfl

def oversizeHeader : Ipv4Header := plainHeader 1 (by decide)

def smallLimits : Limits := ⟨65600, 65600, 16, 64⟩

def oversizeEnd : Bytes := replicate 8 0

def afterOversize (first : Bytes) : TunDefragmenter :=
  let d := ((new smallLimits 0).push 0 (oversizeHeader.fragment 0 true 0 first)).2
  (d.push 0 (oversizeHeader.fragment 65512 false 0 oversizeEnd)).2

theorem push_ipv4 {d : TunDefragmenter} {packet : Bytes} {fragment : Ipv4Fragment} {now : Nat}
    (hreads : Reads ipv4 packet fragment) (hnow : now < d.nextCleanupAt) :
    d.push now packet = d.handleIpv4Fragment now fragment := by
  obtain ⟨inspection, hinspect, hpick⟩ := hreads
  cases inspection with
  | passthrough => cases hpick
  | ipv6Fragment other => cases hpick
  | ipv4Fragment other =>
    cases hpick
    have hmaintain : d.runMaintenanceAt now = d := if_neg (Nat.not_le.mpr hnow)
    simp only [push, hinspect, hmaintain]

section Oversize

variable {first last header header' : Bytes} {key : Ipv4Key}

def waitingSet (header first : Bytes) : Ipv4FragmentSet := ⟨reassemblyTimeout, some header, [⟨0, first⟩], none⟩

def waiting (key : Ipv4Key) (header first : Bytes) : TunDefragmenter :=
  { new smallLimits 0 with
    ipv4Sets := AList.singleton key (waitingSet header first)
    totalBufferedBytes := 65532 }

theorem first_handled (hlen : first.length = 65512) (hheader : header.length = 20) :
    ((new smallLimits 0).handleIpv4Fragment 0 ⟨key, header, 0, true, first⟩).2 = waiting key header first := by
  simp [handleIpv4Fragment, new, handleFragment, absorb, openSet, openTotal, ipv4Heads,
    insertChunk, Fragment.chunk, isComplete, estimatedBytes, chunkBytes, smallLimits, size, hlen, hheader, waiting,
    waitingSet]

theorem second_handled (hlen : first.length = 65512) (hheader : header.length = 20) (hlast : last.length = 8) :
    ((waiting key header first).handleIpv4Fragment 0 ⟨key, header', 65512, false, last⟩).2 =
      { new smallLimits 0 with totalBufferedBytes := 65540 } := by
  have hlookup (set : Ipv4FragmentSet) : (AList.singleton key set : Table _ _).lookup key = some set := by
    rw [← AList.insert_empty, AList.lookup_insert]
  have herase (set : Ipv4FragmentSet) : (AList.singleton key set : Table _ _).erase key = ∅ :=
    AList.ext (kerase_cons_eq rfl)
  have hmem (set : Ipv4FragmentSet) : key ∈ (AList.singleton key set : Table _ _) := mem_singleton_self _
  simp [handleIpv4Fragment, new, waiting, handleFragment, absorb, openSet, openTotal,
    hlookup, herase, hmem, ipv4Heads, insertChunk, Fragment.chunk, FragmentChunk.stop, isComplete,
    estimatedBytes, chunkBytes, smallLimits, size, hlen, hheader, hlast, waitingSet, buildIpv4Packet,
    chunksAreComplete, chunksCoverFrom]

end Oversize

theorem afterOversize_eq {first : Bytes} (hlen : first.length = 65512) :
    afterOversize first = { new smallLimits 0 with totalBufferedBytes := 65540 } := by
  have hfirst : Reads ipv4 (oversizeHeader.fragment 0 true 0 first) _ :=
    Ipv4Header.reads_fragment rfl (by decide) (by rw [hlen]; decide) (by simp) (fun _ => by rw [hlen])
  have hsecond : Reads ipv4 (oversizeHeader.fragment 65512 false 0 oversizeEnd) _ :=
    Ipv4Header.reads_fragment rfl (by decide) (by decide) (by simp) (by simp)
  rw [afterOversize, push_ipv4 hfirst (by decide), first_handled hlen Ipv4Header.length_bytes]
  dsimp only
  rw [push_ipv4 hsecond (show 0 < 0 + cleanupInterval by decide), second_handled hlen Ipv4Header.length_bytes rfl]

def shortPacket : Ipv4Fragmentation where
  header := plainHeader 2 (by decide)
  pieces := [replicate 48 1, replicate 8 2]
  checksum _ := 0
  two_le := by decide
  nonempty := by decide
  aligned := by decide
  fits := by decide

def oversizeStart : Bytes := replicate 65512 0

/-- After a packet that was too long nothing is buffered, and yet a packet of 76 bytes is dropped although all buffers
together may hold 65600. -/
theorem stale_count_drops :
    (afterOversize oversizeStart).ipv4Sets = ∅ ∧ (afterOversize oversizeStart).ipv6Sets = ∅ ∧
      (afterOversize oversizeStart).limits = smallLimits ∧
      shortPacket.plan.headSize + shortPacket.plan.total = 76 ∧ shortPacket.chunks.length = 2 ∧
      ⟨0, replicate 48 1⟩ ∈ shortPacket.chunks ∧
      ((afterOversize oversizeStart).push 0 (shortPacket.packet ⟨0, replicate 48 1⟩)).1 =
        .ok (.dropped "fragment sequence dropped") := by
  have hlen : oversizeStart.length = 65512 := length_replicate
  rw [afterOversize_eq hlen]
  exact ⟨rfl, rfl, rfl, by decide, rfl, mem_cons_self, rfl⟩

section Whole

variable {limits : Limits} {start : Nat} {events : List Event} {d : TunDefragmenter}

theorem built_cases (hrun : Run step (fun _ _ => True) (new limits start) events d) {now : Nat}
    {packet out : Bytes} (hout : (d.push now packet).1 = .ok (.readyOwned out)) :
    (∃ key, BuiltIpv4 (pushed events ++ [packet]) key out) ∨ ∃ key, BuiltIpv6 (pushed events ++ [packet]) key out := by
  rcases hinspect : inspectPacket packet with error | inspection
  · simp only [push, hinspect] at hout
    cases hout
  · cases inspection with
    | passthrough =>
      simp only [push, hinspect] at hout
      cases hout
    | ipv4Fragment fragment =>
      obtain ⟨set, hsourced, -, hbuild⟩ := built_of_run lawful_ipv4 rfl hrun ⟨_, hinspect, rfl⟩ rfl hout
      exact Or.inl ⟨_, builtIpv4_of_sourced hsourced hbuild⟩
    | ipv6Fragment fragment =>
      obtain ⟨set, hsourced, -, hbuild⟩ := built_of_run lawful_ipv6 rfl hrun ⟨_, hinspect, rfl⟩ rfl hout
      exact Or.inr ⟨_, builtIpv6_of_sourced hsourced hbuild⟩

/-- What the defragmenter returns.  The fragments of a packet that find the limits kept, the counted bytes included,
give `pending` until none is missing and then the packet.  A fragment in conflict with buffered bytes discards
its set, and what is built later comes from later fragments.  Nothing is ever built across keys or over a gap. -/
theorem defragmenter_exact (limits : Limits) (start : Nat) :
    (∀ (f : Ipv4Fragmentation) (d : TunDefragmenter) feeds p now c, d.ipv4Sets.lookup f.header.key = none →
      Run (feed f.plan) (Within f.plan) ⟨d, [], 0⟩ feeds p → Within f.plan p (.own now c) →
      (f.chunks ⊆ c :: p.got → (p.d.push now (f.packet c)).1 = .ok (.readyOwned f.original)) ∧
      (¬ f.chunks ⊆ c :: p.got → (p.d.push now (f.packet c)).1 = .ok .pending)) ∧
    (∀ f : Ipv4Fragmentation, Verifies (f.original.take (4 * f.header.ihl))) ∧
    (∀ (f : Ipv6Fragmentation) (d : TunDefragmenter) feeds p now c,
      d.ipv6Sets.lookup (f.lead.key f.identification f.upper) = none →
      Run (feed f.plan) (Within f.plan) ⟨d, [], 0⟩ feeds p → Within f.plan p (.own now c) →
      (f.chunks ⊆ c :: p.got → (p.d.push now (f.packet c)).1 = .ok (.readyOwned f.original)) ∧
      (¬ f.chunks ⊆ c :: p.got → (p.d.push now (f.packet c)).1 = .ok .pending)) ∧
    (∀ events d, Run step (fun _ _ => True) (new limits start) events d → ∀ now packet,
      (∀ (fragment : Ipv4Fragment) set c, Reads ipv4 packet fragment →
        (d.runMaintenanceAt now).ipv4Sets.lookup fragment.key = some set → c ∈ set.chunks →
        fragment.chunk.offset < c.stop → c.offset < fragment.chunk.stop → c ≠ fragment.chunk →
        (d.push now packet).1 = .ok (.dropped "fragment sequence dropped") ∧
          (d.push now packet).2.ipv4Sets.lookup fragment.key = none) ∧
      (∀ (fragment : Ipv6Fragment) set c, Reads ipv6 packet fragment →
        (d.runMaintenanceAt now).ipv6Sets.lookup fragment.key = some set → c ∈ set.chunks →
        fragment.chunk.offset < c.stop → c.offset < fragment.chunk.stop → c ≠ fragment.chunk →
        (d.push now packet).1 = .ok (.dropped "fragment sequence dropped") ∧
          (d.push now packet).2.ipv6Sets.lookup fragment.key = none) ∧
      ∀ out, (d.push now packet).1 = .ok (.readyOwned out) →
        (∃ key, BuiltIpv4 (pushed events ++ [packet]) key out) ∨
          ∃ key, BuiltIpv6 (pushed events ++ [packet]) key out) ∧
    (∀ (d : TunDefragmenter) key events later, d.ipv4Sets.lookup key = none →
      Run step (fun _ _ => True) d events later → ∀ now packet (fragment : Ipv4Fragment) out,
      Reads ipv4 packet fragment → fragment.key = key → (later.push now packet).1 = .ok (.readyOwned out) →
      BuiltIpv4 (pushed events ++ [packet]) key out) ∧
    ∀ (d : TunDefragmenter) key events later, d.ipv6Sets.lookup key = none →
      Run step (fun _ _ => True) d events later → ∀ now packet (fragment : Ipv6Fragment) out,
      Reads ipv6 packet fragment → fragment.key = key → (later.push now packet).1 = .ok (.readyOwned out) →
      BuiltIpv6 (pushed events ++ [packet]) key out := by
  refine ⟨?_, fun f => Ipv4Header.verifies_packet_header _, ?_, ?_, ?_, ?_⟩
  · intro f d feeds p now c hnone hrun hwithin
    exact reassembles lawful_ipv4 hnone hrun hwithin
  · intro f d feeds p now c hnone hrun hwithin
    exact reassembles lawful_ipv6 hnone hrun hwithin
  · intro events d hrun now packet
    exact ⟨fun _ _ _ => overlap_discards lawful_ipv4 (.run lawful_ipv4 rfl hrun),
      fun _ _ _ => overlap_discards lawful_ipv6 (.run lawful_ipv6 rfl hrun), fun out hout => built_cases hrun hout⟩
  · intro d key events later hnone hrun now packet fragment out hreads hkey hout
    obtain ⟨set, hsourced, -, hbuild⟩ := built_of_run lawful_ipv4 hnone hrun hreads hkey hout
    exact builtIpv4_of_sourced hsourced hbuild
  · intro d key events later hnone hrun now packet fragment out hreads hkey hout
    obtain ⟨set, hsourced, -, hbuild⟩ := built_of_run lawful_ipv6 hnone hrun hreads hkey hout
    exact builtIpv6_of_sourced hsourced hbuild

def shortFirst : FragmentChunk := ⟨0, replicate 48 1⟩

def shortSecond : FragmentChunk := ⟨48, replicate 8 2⟩

/-- The last fragment comes first. -/
theorem defragmenter_exact_short :
    let d := new smallLimits 0
    let next := (d.push 0 (shortPacket.packet shortSecond)).2
    (d.push 0 (shortPacket.packet shortSecond)).1 = .ok .pending ∧
      (next.push 5 (shortPacket.packet shortFirst)).1 = .ok (.readyOwned shortPacket.original) := by
  have hfirst : shortFirst ∈ shortPacket.chunks := mem_cons_self
  have hsecond : shortSecond ∈ shortPacket.chunks := mem_cons_of_mem _ mem_cons_self
  have hnot : ¬ shortPacket.chunks ⊆ [shortSecond] := fun h => absurd (h hfirst) (by decide)
  have hwithin : Within shortPacket.plan ⟨new smallLimits 0, [], 0⟩ (.own 0 shortSecond) :=
    ⟨fun h => absurd (h hfirst) (by decide), by decide, hsecond, by decide, by decide, by decide, by decide⟩
  have hnext : Within shortPacket.plan ⟨((new smallLimits 0).push 0 (shortPacket.packet shortSecond)).2,
      [shortSecond], 0⟩ (.own 5 shortFirst) :=
    ⟨hnot, by decide, hfirst, by decide, by decide, by decide, by decide⟩
  refine ⟨((defragmenter_exact smallLimits 0).1 shortPacket _ [] _ 0 shortSecond rfl .refl hwithin).2 hnot,
    ((defragmenter_exact smallLimits 0).1 shortPacket _ _ _ 5 shortFirst rfl (.snoc .refl hwithin rfl) hnext).1 ?_⟩
  intro c hc
  rcases mem_cons.mp hc with rfl | hc
  · exact mem_cons_self
  · cases mem_singleton.mp hc
    exact mem_cons_of_mem _ mem_cons_self

end Whole

end OutlineProxy.Tun.Defrag
