import OutlineProxy.Tcp.ReceiveMemory

/-! The right edge of the receive window that packets advertise, and when it can move backwards. -/

namespace OutlineProxy.Tcp

open List Serial Reassembly ReceiveSide Clock

variable {s t : TcpFlowState}

theorem receiveRoom_congr (h : t.receiveSide = s.receiveSide) :
    receiveRoom t = receiveRoom s := by
  have hcap : t.receiveWindowCapacity = s.receiveWindowCapacity := congrArg receiveWindowCapacity h
  rw [receiveRoom, receiveRoom, bufferedClientBytes_congr h, hcap]

theorem advertisedReceiveWindow_toNat (state : TcpFlowState) :
    (advertisedReceiveWindow state).toNat = min (receiveRoom state / 64) 65535 := by
  have hlt : min (receiveRoom state / 64) 65535 < 2 ^ 16 := by omega
  simp only [advertisedReceiveWindow, tcpServerWindowScale, Nat.shiftRight_eq_div_pow]
  exact UInt16.toNat_ofNat_of_lt hlt

def packetEdge (r : Nat) (packet : OutPacket) : Nat := r + packet.window.toNat <<< tcpServerWindowScale

def advance (before after : TcpFlowState) : Nat := (after.rcvNxt - before.rcvNxt).toNat

section Windows

variable {state : TcpFlowState}

theorem flushServerData_packets {P : OutPacket → Prop}
    (hemit : ∀ s payload pacing mss available sentAt, s.receiveSide = state.receiveSide →
      P (emitServerData s payload pacing mss available sentAt).2)
    (s : TcpFlowState) (clock : Clock) (hs : s.receiveSide = state.receiveSide) :
    ∀ p ∈ (flushServerData s clock).2, P p := by
  refine (flushServerData_rounds s clock
    (I := fun t packets _ => t.receiveSide = state.receiveSide ∧ ∀ p ∈ packets, P p)
    (fun h hround => ?_) ⟨hs, fun p hm => absurd hm not_mem_nil⟩).elim fun _ h => h.2
  obtain ⟨hside, hall⟩ := h
  cases hround with
  | drop | wait => exact ⟨hside, hall⟩
  | emit _ _ hsent =>
    rw [← hsent]
    exact ⟨(receiveSide_emitServerData ..).trans hside,
      forall_mem_append.2 ⟨hall, forall_mem_singleton.2 (hemit _ _ _ _ _ _ hside)⟩⟩

theorem flushServerData_windows (s : TcpFlowState) (clock : Clock) (hs : s.receiveSide = state.receiveSide) :
    ∀ p ∈ (flushServerData s clock).2, p.window = advertisedReceiveWindow state := by
  refine flushServerData_packets (P := fun p => p.window = advertisedReceiveWindow state) ?_ s clock hs
  intro s payload pacing mss available sentAt hs
  refine Eq.trans ?_ (advertisedReceiveWindow_congr hs)
  simp only [emitServerData]
  split <;> rfl

theorem maybeEmitServerFin_window {clock : Clock} {packet : OutPacket}
    (hs : s.receiveSide = state.receiveSide) (hp : (maybeEmitServerFin s clock).2 = some packet) :
    packet.window = advertisedReceiveWindow state := by
  simp only [maybeEmitServerFin] at hp
  split at hp
  · simp at hp
  · obtain rfl := Option.some.inj hp
    exact advertisedReceiveWindow_congr hs

theorem maybeEmitZeroWindowProbe_window {now : Instant} {packet : OutPacket}
    (hs : s.receiveSide = state.receiveSide) (hp : (maybeEmitZeroWindowProbe s now).2 = some packet) :
    packet.window = advertisedReceiveWindow state := by
  simp only [maybeEmitZeroWindowProbe] at hp
  split at hp
  · simp at hp
  · split at hp
    · simp at hp
    · split at hp
      · obtain rfl := Option.some.inj hp
        exact advertisedReceiveWindow_congr hs
      · simp at hp

theorem flushServerOutput_windows (s : TcpFlowState) (clock : Clock) (hs : s.receiveSide = state.receiveSide) :
    ∀ p ∈ flushPackets (flushServerOutput s clock).2, p.window = advertisedReceiveWindow state := by
  intro p hp
  unfold flushServerOutput at hp
  split at hp
  · simp [flushPackets] at hp
  · simp only [flushPackets, mem_append, Option.mem_toList] at hp
    have hdata : (flushServerData s clock).1.receiveSide = state.receiveSide :=
      (receiveSide_flushServerData s clock).trans hs
    rcases hp with (hp | hp) | hp
    · exact flushServerData_windows s clock hs p hp
    · exact maybeEmitServerFin_window hdata hp
    · exact maybeEmitZeroWindowProbe_window ((receiveSide_maybeEmitServerFin ..).trans hdata) hp

end Windows

section Delivery

variable {state : TcpFlowState} {tcp : TunTcpConfig} {trimmed : TrimmedSegment} {clock : Clock}

theorem resolveClientAck_window {send data fin had : Bool} {flush : ServerFlush}
    {serverSeq rcvNxt : UInt32} {now : Instant} {packet : OutPacket} (hs : s.receiveSide = state.receiveSide)
    (hp : (resolveClientAck s send data fin had flush serverSeq rcvNxt now).2 = some packet) :
    packet.window = advertisedReceiveWindow state := by
  simp only [resolveClientAck] at hp
  split at hp
  · simp at hp
  · split at hp
    · simp at hp
    · split at hp
      · obtain rfl := Option.some.inj hp
        exact advertisedReceiveWindow_congr (Eq.trans rfl hs)
      · simp at hp

theorem applyInboundAndFlush_serverFlush (state : TcpFlowState) (trimmed : TrimmedSegment) (clock : Clock) :
    (applyInboundAndFlush state trimmed clock).2.serverFlush =
      (flushServerOutput (applyInbound state trimmed).1 clock).2 := by
  simp only [applyInboundAndFlush]

theorem applyInboundAndFlush_pendingAck (state : TcpFlowState) (trimmed : TrimmedSegment) (clock : Clock) :
    (applyInboundAndFlush state trimmed clock).2.pendingAck =
      (resolveClientAck (flushServerOutput (applyInbound state trimmed).1 clock).1
        (segmentRequiresAck trimmed.sequenceNumber trimmed.flags trimmed.payload.length state.rcvNxt)
        (!trimmed.payload.isEmpty) (applyInbound state trimmed).2.2 (!state.pendingClientSegments.isEmpty)
        (flushServerOutput (applyInbound state trimmed).1 clock).2
        (applyInbound state trimmed).1.serverSeq (applyInbound state trimmed).1.rcvNxt
        (clock.reading
          ((flushServerOutput (applyInbound state trimmed).1 clock).2.dataPackets.length + 4))).2 := by
  simp only [applyInboundAndFlush]

theorem deliverSegment_windows (halive : (deliverSegment state tcp trimmed clock).fate = .alive) :
    ∀ p ∈ (deliverSegment state tcp trimmed clock).packets,
      p.window = advertisedReceiveWindow (applyInbound state trimmed).1 := by
  have hpackets : ∀ p ∈ (applyInboundAndFlush state trimmed clock).2.pendingAck.toList ++
      flushPackets (applyInboundAndFlush state trimmed clock).2.serverFlush,
      p.window = advertisedReceiveWindow (applyInbound state trimmed).1 := by
    intro p hp
    rw [applyInboundAndFlush_serverFlush, applyInboundAndFlush_pendingAck] at hp
    rcases mem_append.1 hp with hp | hp
    · exact resolveClientAck_window (receiveSide_flushServerOutput ..) (Option.mem_toList.1 hp)
    · exact flushServerOutput_windows (applyInbound state trimmed).1 clock rfl p hp
  unfold deliverSegment at halive ⊢
  generalize applyInboundAndFlush state trimmed clock = result at halive hpackets ⊢
  dsimp only at halive hpackets ⊢
  split at halive
  · simp [abortFlow] at halive
  · rename_i hok
    rw [if_neg hok]
    exact hpackets

theorem applyInbound_of_queue_nil (hq : state.pendingClientSegments = []) (trimmed : TrimmedSegment)
    (hfin : trimmed.flags.fin = false) :
    (applyInbound state trimmed).1.pendingClientSegments = [] ∧ (applyInbound state trimmed).2.2 = false := by
  have hf : (normalizeTrimmedSegment trimmed state.rcvNxt).fin = false := by
    simp [normalizeTrimmedSegment, normalizeClientSegmentParts, hfin]
  simp only [applyInbound, applyClientSegment, hf, Bool.false_eq_true, if_false]
  split
  · exact ⟨hq, rfl⟩
  · simp [drainReadyBufferedSegmentsFromState, hq, drainReadyBufferedSegments]

theorem deliverSegment_silent (halive : (deliverSegment state tcp trimmed clock).fate = .alive)
    (hdata : state.pendingServerData = []) (hfinPending : state.serverFinPending = false)
    (hq : state.pendingClientSegments = []) (hunacked : state.unackedInOrderSegments = 0)
    (hfin : trimmed.flags.fin = false) (hpayload : trimmed.payload ≠ []) :
    (deliverSegment state tcp trimmed clock).packets = [] := by
  obtain ⟨hqueue, hclose⟩ := applyInbound_of_queue_nil hq trimmed hfin
  have hdown := downSide_applyInbound state trimmed
  have hd : (applyInbound state trimmed).1.pendingServerData = [] :=
    (congrArg DownSide.pendingServerData hdown).trans hdata
  have hf : (applyInbound state trimmed).1.serverFinPending = false :=
    (congrArg DownSide.serverFinPending hdown).trans hfinPending
  have hu : (applyInbound state trimmed).1.unackedInOrderSegments = 0 :=
    (congrArg DownSide.unackedInOrderSegments hdown).trans hunacked
  obtain ⟨hnone, -, hpackets, hidle, -⟩ := flushServerOutput_idle clock hd hf
  have hcount := congrArg DownSide.unackedInOrderSegments hidle
  change (flushServerOutput (applyInbound state trimmed).1 clock).1.unackedInOrderSegments =
    (applyInbound state trimmed).1.unackedInOrderSegments at hcount
  have hsegments : (flushServerOutput (applyInbound state trimmed).1 clock).1.pendingClientSegments = [] :=
    (congrArg pendingClientSegments
      (receiveSide_flushServerOutput (applyInbound state trimmed).1 clock)).trans hqueue
  have hack : (applyInboundAndFlush state trimmed clock).2.pendingAck = none := by
    rw [applyInboundAndFlush_pendingAck]
    have hcarries : trimmed.payload.isEmpty = false := by simpa using hpayload
    have himmediate : decide (1 ≤ 0) = false := rfl
    simp only [resolveClientAck, hq, hclose, hnone, hsegments, hcount, hu, hcarries, himmediate,
      isEmpty_nil, Bool.not_true, Bool.not_false, Bool.or_self, Bool.false_eq_true, if_false]
    split <;> rfl
  have hflush : flushPackets (applyInboundAndFlush state trimmed clock).2.serverFlush = [] := by
    rw [applyInboundAndFlush_serverFlush]
    exact hpackets
  unfold deliverSegment at halive ⊢
  generalize applyInboundAndFlush state trimmed clock = result at halive hack hflush ⊢
  dsimp only at halive hack hflush ⊢
  split at halive
  · simp [abortFlow] at halive
  · rename_i hok
    rw [if_neg hok]
    simp [hack, hflush]

theorem applyInbound_delivers_nothing (h : (normalizeTrimmedSegment trimmed state.rcvNxt).payload = []) :
    (applyInbound state trimmed).2.1 = [] := by
  simp only [applyInbound, applyClientSegment, h, isEmpty_nil, Bool.true_and, if_true]
  cases hf : (normalizeTrimmedSegment trimmed state.rcvNxt).fin <;> simp

end Delivery

/-- The packet stores no payload out of order, and hands payload over only on a flow with nothing to send and no
segment waiting for its acknowledgement, so that no packet is built before the payload is counted. -/
def Quiet (state : TcpFlowState) (packet : ParsedTcpPacket) : Prop :=
  if seqGt packet.sequenceNumber state.rcvNxt then packet.payload = []
  else
    (normalizeClientSegmentParts packet.sequenceNumber packet.flags packet.payload state.rcvNxt).payload = []
      ∨ (packet.flags.fin = false ∧ state.pendingServerData = [] ∧ state.serverFinPending = false
        ∧ state.pendingClientSegments = [] ∧ state.unackedInOrderSegments = 0)

instance (state : TcpFlowState) (packet : ParsedTcpPacket) : Decidable (Quiet state packet) :=
  inferInstanceAs (Decidable (ite _ _ _))

/-- The edge of the window does not move back, and the packets advertise the window reached. -/
structure Steady (before after : TcpFlowState) (packets : List OutPacket) : Prop where
  edge : receiveRoom before ≤ advance before after + receiveRoom after
  windows : ∀ p ∈ packets, p.window = advertisedReceiveWindow after

variable {packets : List OutPacket}

section Steps

variable {state : TcpFlowState} {tcp : TunTcpConfig} {packet : ParsedTcpPacket} {trimmed : TrimmedSegment}
  {clock : Clock}

theorem Steady.of_side {before after : TcpFlowState} (hside : after.receiveSide = before.receiveSide)
    (hwindows : ∀ p ∈ packets, p.window = advertisedReceiveWindow before) :
    Steady before after packets where
  edge := by
    rw [receiveRoom_congr hside]
    exact Nat.le_add_left _ _
  windows p hp := (hwindows p hp).trans (advertisedReceiveWindow_congr hside).symm

theorem ingestSegment_windows (hnot : ∀ trimmed, classifyInboundSegment state packet ≠ .deliver trimmed)
    (halive : (ingestSegment state tcp packet clock).fate = .alive) :
    ∀ p ∈ (ingestSegment state tcp packet clock).packets,
      p.window = advertisedReceiveWindow (ingestSegment state tcp packet clock).state := by
  have hreply : ∀ s : TcpFlowState, ∀ p ∈ (commitAndReply (clearDelayedAck s) tcp (clock.reading 0)
      pureAck).packets, p.window = advertisedReceiveWindow (commitAndReply (clearDelayedAck s) tcp
        (clock.reading 0) pureAck).state := by
    intro s p hp
    exact pureAck_window rfl p hp
  unfold ingestSegment at halive ⊢
  cases hcl : classifyInboundSegment state packet with
  | deliver trimmed => exact absurd hcl (hnot trimmed)
  | outsideReceiveWindow => exact hreply state
  | beyondExpectedSequence => grind [abortFlow, queueFutureSegmentWithRecvWindow_cases]

theorem QueueInv.deliver_edge {isn : UInt32} {r offset : Nat} {q : List (Block UInt8)}
    {state' : TcpFlowState} (h : QueueInv isn r state.receiveSide q)
    (hseq : packet.sequenceNumber = point isn offset) (h1 : offset ≤ r) (h2 : r ≤ offset + 2 ^ 31)
    (htrim : trimPacketToReceiveWindow state packet = some trimmed)
    (hside : state'.receiveSide = deliveredSide state trimmed) :
    receiveRoom state ≤ advance state state' + receiveRoom state' := by
  obtain ⟨hlen, -, -, hcap, -, hnext, -⟩ := h.deliver hseq h1 h2 htrim
  have hcapacity : state.receiveWindowCapacity < 2 ^ 31 := h.capacity
  have hcap' : state'.receiveWindowCapacity = state.receiveWindowCapacity :=
    (congrArg ReceiveSide.receiveWindowCapacity hside).trans hcap
  have hrcv' : state'.rcvNxt = point isn (drain r (normalBlock r offset trimmed :: q)).next :=
    (congrArg ReceiveSide.rcvNxt hside).trans hnext
  -- the block stands at `r`, so the drain takes it off the queue
  have hrest : bytes (drain r (normalBlock r offset trimmed :: q)).rest ≤ bytes q := drain_rest_bytes (le_refl r)
  have hmove := drain_next r (normalBlock r offset trimmed :: q)
  have hstops : ∀ b ∈ normalBlock r offset trimmed :: q, b.stop ≤ r + state.receiveWindowCapacity := by
    intro b hb
    rcases mem_cons.1 hb with rfl | hb
    · exact Nat.add_le_add_left (hlen.trans (Nat.sub_le _ _)) r
    · exact h.inside b hb
  have hfar : (drain r (normalBlock r offset trimmed :: q)).next ≤ r + state.receiveWindowCapacity + 1 := by
    have hle := drain_next_le hstops (Nat.le_add_right r state.receiveWindowCapacity)
    have := (drain r (normalBlock r offset trimmed :: q)).closed.toNat_le
    omega
  have hrcv : state.rcvNxt = point isn r := h.rcvNxt
  have hadvance : advance state state' = (drain r (normalBlock r offset trimmed :: q)).next - r := by
    rw [advance, hrcv', hrcv, toNat_point_sub_point isn (by omega) (by omega)]
  rw [hadvance, receiveRoom, receiveRoom, hcap', h.buffered_eq, h.buffered_delivered hseq h1 h2 htrim hside]
  omega

theorem normalize_trimmed_nil (htrim : trimPacketToReceiveWindow state packet = some trimmed)
    (h : (normalizeClientSegmentParts packet.sequenceNumber packet.flags packet.payload state.rcvNxt).payload = []) :
    (normalizeTrimmedSegment trimmed state.rcvNxt).payload = [] := by
  obtain ⟨hseq, htake, -, -⟩ := trim_spec htrim
  have hle : trimmed.payload.length ≤ packet.payload.length := by
    rw [htake]
    exact length_take_le' _ _
  simp only [normalizeTrimmedSegment, normalizeClientSegmentParts, hseq] at h ⊢
  generalize (if seqLt packet.sequenceNumber state.rcvNxt = true then _ else 0 : Nat) = overlap at h ⊢
  have hold : packet.payload.length ≤ overlap := by
    split at h
    · assumption
    · exact drop_eq_nil_iff.1 h
  rw [if_pos (hle.trans hold)]

theorem Steady.deliver (h : ReceiveInv tcp state) (hopen : clientFinSeen state.status = false)
    (hquiet : Quiet state packet) (hbefore : seqGt packet.sequenceNumber state.rcvNxt = false)
    (htrim : trimPacketToReceiveWindow state packet = some trimmed)
    (halive : (deliverSegment state tcp trimmed clock).fate = .alive) :
    Steady state (deliverSegment state tcp trimmed clock).state (deliverSegment state tcp trimmed clock).packets := by
  obtain ⟨isn, r, q, offset, hr, hq, hseq, h1, h2, hgt⟩ := (h.queue hopen).place packet.sequenceNumber
  have hle : offset ≤ r := by
    rw [hgt, decide_eq_false_iff_not] at hbefore
    omega
  obtain ⟨-, -, hside⟩ := deliverSegment_receiveSide halive
  refine ⟨hq.deliver_edge hseq hle h1 htrim hside, fun p hp => ?_⟩
  have hwindow := deliverSegment_windows halive p hp
  -- either nothing was handed over, or no packet was built
  have hnothing : (normalizeTrimmedSegment trimmed state.rcvNxt).payload = [] →
      p.window = advertisedReceiveWindow (deliverSegment state tcp trimmed clock).state := by
    intro hn
    rw [hwindow]
    refine (advertisedReceiveWindow_congr ?_).symm
    rw [hside, deliveredSide, applyInbound_delivers_nothing hn, append_nil]
    rfl
  obtain ⟨-, htake, hfinImp, -⟩ := trim_spec htrim
  simp only [Quiet, hbefore, Bool.false_eq_true, if_false] at hquiet
  rcases hquiet with hold | ⟨hfin, hdata, hpending, hqueue, hunacked⟩
  · exact hnothing (normalize_trimmed_nil htrim hold)
  · by_cases hpayload : trimmed.payload = []
    · refine hnothing ?_
      simp [normalizeTrimmedSegment, normalizeClientSegmentParts, hpayload]
    · have hf : trimmed.flags.fin = false := by
        by_contra hc
        have := (hfinImp (by simpa using hc)).1
        simp [hfin] at this
      rw [deliverSegment_silent halive hdata hpending hqueue hunacked hf hpayload] at hp
      exact absurd hp not_mem_nil

theorem Steady.ingest_open (h : ReceiveInv tcp state) (hopen : clientFinSeen state.status = false)
    (hquiet : Quiet state packet) (halive : (ingestSegment state tcp packet clock).fate = .alive) :
    Steady state (ingestSegment state tcp packet clock).state
      (ingestSegment state tcp packet clock).packets := by
  cases hcl : classifyInboundSegment state packet with
  | deliver trimmed =>
    have he : ingestSegment state tcp packet clock = deliverSegment state tcp trimmed clock := by
      simp only [ingestSegment, hcl]
    rw [he] at halive ⊢
    simp only [classifyInboundSegment] at hcl
    split at hcl
    · simp at hcl
    · rename_i hgt
      cases htrim : trimPacketToReceiveWindow state packet with
      | none => simp [htrim] at hcl
      | some t =>
        simp only [htrim, InboundSegmentDisposition.deliver.injEq] at hcl
        subst hcl
        exact .deliver h hopen hquiet (by simpa using hgt) htrim halive
  | _ =>
    have hwindows := ingestSegment_windows (fun t ht => by simp [hcl] at ht) halive
    rcases ingestSegment_cases halive with
      ⟨-, -, hside⟩ | ⟨trimmed, hbeyond, htrim, -, -, -, hside⟩ | ⟨trimmed, hbefore, htrim, -, -, -⟩
    · refine ⟨?_, hwindows⟩
      rw [receiveRoom_congr hside]
      exact Nat.le_add_left _ _
    · -- a queued segment carries no payload
      obtain ⟨isn, r, q, offset, hr, hq, hseq, h1, h2, hgt⟩ := (h.queue hopen).place packet.sequenceNumber
      have hlt := hbeyond
      rw [hgt, decide_eq_true_iff] at hlt
      have hbytes := (hq.buffered_queueSegment hseq hlt h2 htrim hside).1
      have hempty : trimmed.payload.length = 0 := by
        rw [Quiet, if_pos hbeyond] at hquiet
        rw [(trim_spec htrim).2.1, hquiet]
        simp
      have hcap : (ingestSegment state tcp packet clock).state.receiveWindowCapacity =
          state.receiveWindowCapacity := congrArg receiveWindowCapacity hside
      refine ⟨?_, hwindows⟩
      rw [receiveRoom, receiveRoom, hcap]
      omega
    · simp [classifyInboundSegment, hbefore, htrim] at hcl

theorem Steady.ingest (h : ReceiveInv tcp state) (hgate : passesFinGate state packet)
    (hquiet : Quiet state packet) (halive : (ingestSegment state tcp packet clock).fate = .alive) :
    Steady state (ingestSegment state tcp packet clock).state
      (ingestSegment state tcp packet clock).packets := by
  cases hs : clientFinSeen state.status with
  | false => exact .ingest_open h hs hquiet halive
  | true =>
    have hempty := empty_of_passesFinGate hgate hs
    have hside := ingestSegment_of_empty hempty halive
    refine .of_side hside fun p hp => ?_
    cases hcl : classifyInboundSegment state packet with
    | deliver trimmed =>
      have he : ingestSegment state tcp packet clock = deliverSegment state tcp trimmed clock := by
        simp only [ingestSegment, hcl]
      have ht : trimmed = ⟨packet.sequenceNumber, packet.flags, packet.payload⟩ := by
        grind [classifyInboundSegment, trimPacketToReceiveWindow]
      rw [he] at halive hp
      rw [deliverSegment_windows halive p hp]
      simp [ht, applyInbound, normalizeTrimmedSegment, normalizeClientSegmentParts, hempty]
    | _ => grind [ingestSegment_windows, advertisedReceiveWindow_congr]

theorem Steady.of_same {u : TcpFlowState} (h : t.receiveSide = s.receiveSide)
    (hs : Steady t u packets) : Steady s u packets where
  edge := by
    have hrcv : t.rcvNxt = s.rcvNxt := congrArg rcvNxt h
    have hedge := hs.edge
    rwa [receiveRoom_congr h, advance, hrcv] at hedge
  windows := hs.windows

theorem Steady.handle (h : ReceiveInv tcp state) (hquiet : Quiet state packet)
    (halive : (handleExistingFlow state tcp packet clock).fate = .alive) :
    Steady state (handleExistingFlow state tcp packet clock).state
      (handleExistingFlow state tcp packet clock).packets := by
  rcases handleExistingFlow_arrives halive with hb | ⟨s, clock', hsame, hgate, he⟩
  · exact .of_side hb.side hb.windows
  · have hrcv : s.rcvNxt = state.rcvNxt := congrArg rcvNxt hsame.side
    have hsegments : s.pendingClientSegments = state.pendingClientSegments :=
      congrArg pendingClientSegments hsame.side
    rw [he] at halive ⊢
    refine .of_same hsame.side (.ingest (h.congr hsame.side fun hs => hsame.finSeen.trans hs)
      (hsame.passesFinGate.mpr hgate) ?_ halive)
    simpa only [Quiet, hrcv, hsegments, hsame.pendingServerData, hsame.serverFinPending,
      hsame.unackedInOrderSegments] using hquiet

theorem Steady.pump (state : TcpFlowState) (tcp : TunTcpConfig)
    (hwindows : ∀ p ∈ packets, p.window = advertisedReceiveWindow (pumpDrain state tcp)) :
    Steady state (pumpDrain state tcp) packets where
  edge := by
    obtain ⟨-, -, hcap, -⟩ := pumpDrain_receiveSide state tcp
    have hbytes := bufferedClientBytes_pumpDrain_le state tcp
    rw [receiveRoom, receiveRoom]
    omega
  windows := hwindows

end Steps

/-- Work of the engine that is not about inbound segments: it leaves the receive side alone, and
its packets advertise the window of the flow. -/
structure Work (before after : TcpFlowState) (packets : List OutPacket) : Prop where
  side : after.receiveSide = before.receiveSide
  finSeen : clientFinSeen after.status = clientFinSeen before.status
  windows : ∀ p ∈ packets, p.window = advertisedReceiveWindow before

/-- The runs of a flow whose inbound packets all satisfy `ok`, with the position of `rcvNxt` and the right edges of the
packets built and of those written, oldest first. A packet is built under the flow's lock and written after it: `order`
says which of those built the next write may take. After a drain the pump may send a window update. -/
inductive WindowRun (tcp : TunTcpConfig) (ok : TcpFlowState → ParsedTcpPacket → Prop) (order : Nat → Prop) :
    TcpFlowState → Nat → List Nat → List Nat → Prop
  | start {state : TcpFlowState} (r : Nat) : WellQueued state →
      bufferedClientBytes state ≤ state.receiveWindowCapacity →
      state.receiveWindowCapacity ≤ tcp.maxBufferedClientBytes → WindowRun tcp ok order state r [] []
  | packet {state : TcpFlowState} {r : Nat} {built edges : List Nat} (packet : ParsedTcpPacket) (clock : Clock) :
      WindowRun tcp ok order state r built edges → ok state packet →
      (handleExistingFlow state tcp packet clock).fate = .alive →
      WindowRun tcp ok order (handleExistingFlow state tcp packet clock).state
        (r + advance state (handleExistingFlow state tcp packet clock).state)
        (built ++ (handleExistingFlow state tcp packet clock).packets.map
          (packetEdge (r + advance state (handleExistingFlow state tcp packet clock).state))) edges
  | pump {state : TcpFlowState} {r : Nat} {built edges : List Nat} (update : Bool) :
      WindowRun tcp ok order state r built edges → WindowRun tcp ok order (pumpDrain state tcp) r
        (built ++ (if update then pureAck (pumpDrain state tcp) else []).map (packetEdge r)) edges
  | work {state state' : TcpFlowState} {r : Nat} {built edges : List Nat} {packets : List OutPacket} :
      WindowRun tcp ok order state r built edges → Work state state' packets →
      WindowRun tcp ok order state' r (built ++ packets.map (packetEdge r)) edges
  | write {state : TcpFlowState} {r e : Nat} {built edges : List Nat} (i : Nat) :
      WindowRun tcp ok order state r built edges → order i → built[i]? = some e →
      WindowRun tcp ok order state r (built.eraseIdx i) (edges ++ [e])

/-- No edge built so far lies beyond the window, nor beyond the largest one from `r`. -/
structure EdgeInv (tcp : TunTcpConfig) (state : TcpFlowState) (r : Nat) (edges : List Nat) : Prop where
  receive : ReceiveInv tcp state
  ordered : edges.Pairwise fun e e' => e ≤ e' + (2 ^ tcpServerWindowScale - 1)
  inside : ∀ e ∈ edges, e ≤ r + receiveRoom state ∧ e ≤ r + 65535 * 64

variable {tcp : TunTcpConfig} {state : TcpFlowState} {r : Nat} {built edges : List Nat}

theorem packetEdge_eq {packet : OutPacket} (h : packet.window = advertisedReceiveWindow state) :
    packetEdge r packet = r + min (receiveRoom state / 64) 65535 * 64 := by
  rw [packetEdge, h, advertisedReceiveWindow_toNat, Nat.shiftLeft_eq]
  rfl

theorem EdgeInv.step {state' : TcpFlowState} (h : EdgeInv tcp state r edges)
    (hreceive : ReceiveInv tcp state') (hs : Steady state state' packets) :
    EdgeInv tcp state' (r + advance state state')
      (edges ++ packets.map (packetEdge (r + advance state state'))) := by
  have hedge := hs.edge
  have hnew : ∀ e ∈ packets.map (packetEdge (r + advance state state')),
      e = r + advance state state' + min (receiveRoom state' / 64) 65535 * 64 := by
    intro e he
    obtain ⟨p, hp, rfl⟩ := mem_map.1 he
    exact packetEdge_eq (hs.windows p hp)
  refine ⟨hreceive, pairwise_append.2 ⟨h.ordered, ?_, fun e he e' he' => ?_⟩, fun e he => ?_⟩
  · refine pairwise_iff_forall_sublist.2 fun {a b} hab => ?_
    have ha := hnew a (hab.subset mem_cons_self)
    have hb := hnew b (hab.subset (mem_cons_of_mem _ mem_cons_self))
    omega
  · have hin := h.inside e he
    have hlast := hnew e' he'
    simp only [tcpServerWindowScale]
    omega
  · have hinside := h.inside
    grind

theorem advance_of_rcvNxt_eq (h : t.rcvNxt = s.rcvNxt) : advance s t = 0 := by
  simp [advance, h]

theorem WindowRun.inv (hrun : WindowRun tcp Quiet (· = 0) state r built edges) :
    EdgeInv tcp state r (edges ++ built) := by
  induction hrun with
  | start r hq hb hc => exact ⟨⟨hb, hc, fun _ => hq⟩, List.Pairwise.nil, by simp⟩
  | packet packet clock _ hquiet halive ih =>
    rw [← append_assoc]
    exact ih.step (ih.receive.packet halive) (.handle ih.receive hquiet halive)
  | @pump state r built edges update _ ih =>
    have hwindows : ∀ p ∈ (if update then pureAck (pumpDrain state tcp) else []),
        p.window = advertisedReceiveWindow (pumpDrain state tcp) := by
      intro p hp
      cases update
      · simp at hp
      · exact pureAck_window rfl p hp
    have hstep := ih.step ih.receive.pump (.pump state tcp hwindows)
    rwa [advance_of_rcvNxt_eq (pumpDrain_receiveSide state tcp).1, append_assoc] at hstep
  | work _ hwork ih =>
    have hstep := ih.step (ih.receive.congr hwork.side fun hs => hwork.finSeen.trans hs)
      (.of_side hwork.side hwork.windows)
    rwa [advance_of_rcvNxt_eq (congrArg rcvNxt hwork.side), append_assoc] at hstep
  | @write _ _ _ built _ _ _ hfirst hbuilt ih =>
    subst hfirst
    cases built with
    | nil => cases hbuilt
    | cons e rest =>
      cases hbuilt
      rwa [append_cons] at ih

theorem WindowRun.writeAll {ok : TcpFlowState → ParsedTcpPacket → Prop} {order : Nat → Prop}
    (hrun : WindowRun tcp ok order state r built edges) (hfirst : order 0) :
    WindowRun tcp ok order state r [] (edges ++ built) := by
  induction built generalizing edges with
  | nil => rwa [append_nil]
  | cons e rest ih =>
    rw [append_cons]
    exact ih (hrun.write 0 hfirst rfl)

theorem trim_of_inside {packet : ParsedTcpPacket} {isn : UInt32} {k : Nat}
    (hrcv : state.rcvNxt = point isn r) (hseq : packet.sequenceNumber = point isn k)
    (hreach : r + receiveRoom state ≤ k + 2 ^ 31)
    (hin : k + packet.payload.length + packet.flags.fin.toNat ≤ r + receiveRoom state) :
    trimPacketToReceiveWindow state packet = some ⟨packet.sequenceNumber, packet.flags, packet.payload⟩ := by
  unfold trimPacketToReceiveWindow
  split
  · rfl
  · rename_i hcontent
    have hpos : 0 < packet.payload.length + packet.flags.fin.toNat := by
      by_contra hc
      have hp : packet.payload = [] := length_eq_zero_iff.1 (by omega)
      have hf : packet.flags.fin = false := by
        rw [← Bool.toNat_eq_zero]
        omega
      simp [hp, hf] at hcontent
    dsimp only
    rw [receiveWindowEnd_point hrcv, hseq, seqGe_point isn (by omega) (by omega),
      decide_eq_false (by omega), toNat_point_sub_point isn (by omega) (by omega)]
    simp only [Bool.false_eq_true, if_false]
    rw [if_neg (by omega)]

/-- While every inbound packet is quiet and packets are written in the order they were built, the right
edge of a later packet is behind that of an earlier one by scale rounding at most, and a segment inside
a window advertised so far is taken whole: `k` is its stream position, read within half the sequence
space of the right edge. -/
theorem advertised_edge_never_shrinks (hrun : WindowRun tcp Quiet (· = 0) state r built edges) :
    (edges.Pairwise fun e e' => e ≤ e' + (2 ^ tcpServerWindowScale - 1)) ∧
      ∀ e ∈ edges, ∀ (packet : ParsedTcpPacket) (k : Nat),
        packet.sequenceNumber = state.rcvNxt - UInt32.ofNat r + UInt32.ofNat k →
        r + receiveRoom state ≤ k + 2 ^ 31 → k + packet.payload.length + packet.flags.fin.toNat ≤ e →
        trimPacketToReceiveWindow state packet = some ⟨packet.sequenceNumber, packet.flags, packet.payload⟩ := by
  have h := hrun.inv
  refine ⟨(pairwise_append.mp h.ordered).1, fun e he packet k hseq hreach hin => ?_⟩
  have hrcv : state.rcvNxt = point (state.rcvNxt - UInt32.ofNat r) r := by rw [point, sub_add_cancel]
  exact trim_of_inside hrcv hseq hreach (hin.trans (h.inside e (mem_append_left _ he)).1)

/-- The client's keepalive probe is answered with an acknowledgement; the last byte of the window
it advertises is then taken whole. -/
theorem advertised_edge_never_shrinks_after_ack :
    let probe : ParsedTcpPacket := ⟨99, 1000, 65535, none, none, false, [], none, { ack := true }, []⟩
    let last : ParsedTcpPacket := ⟨65635, 1000, 65535, none, none, false, [], none, { ack := true }, [7]⟩
    Quiet sampleFlow probe ∧
      trimPacketToReceiveWindow (handleExistingFlow sampleFlow {} probe (still 0)).state last =
        some ⟨last.sequenceNumber, last.flags, last.payload⟩ := by
  intro probe last
  have hquiet : Quiet sampleFlow probe := by decide
  have hstart : WindowRun {} Quiet (· = 0) sampleFlow 100 [] [] :=
    .start 100 (wellQueued_of_empty rfl (by decide)) (by decide) (by decide)
  have hrun := (hstart.packet probe (still 0) hquiet (by decide +kernel)).writeAll rfl
  exact ⟨hquiet, (advertised_edge_never_shrinks hrun).2 65636 (by decide +kernel) last 65635
    (by decide +kernel) (by decide +kernel) (by decide +kernel)⟩

/-- The edge moves back by 256 bytes when 200 bytes are stored out of order, and a segment inside
the first window is then trimmed; it moves back by 192 bytes after two segments in order, because
the acknowledgement of the second is built before its payload is counted; and by 392 bytes, all packets
quiet, when the window update of the pump is written before an acknowledgement built earlier. -/
theorem advertised_edge_shrinks :
    let data (seq : UInt32) : ParsedTcpPacket :=
      ⟨seq, 1000, 65535, none, none, false, [], none, { ack := true }, replicate 200 0⟩
    (∃ state, WindowRun {} (fun _ _ => True) (· = 0) state 100 [] [100 + 65536, 100 + 65280] ∧
      (trimPacketToReceiveWindow state (data (100 + 65300))).map (fun t => t.payload.length) = some 36) ∧
    (∃ state, WindowRun {} (fun _ _ => True) (· = 0) state 500 [] [500 + 65280, 500 + 65088]) ∧
    ∃ state, WindowRun {} Quiet (fun _ => True) state 300 [] [300 + 65728, 100 + 65536] := by
  intro data
  let probe : ParsedTcpPacket := ⟨99, 1000, 65535, none, none, false, [], none, { ack := true }, []⟩
  have hstart (ok order) : WindowRun {} ok order sampleFlow 100 [] [] :=
    .start 100 (wellQueued_of_empty rfl (by decide)) (by decide) (by decide)
  refine ⟨?_, ?_, ?_⟩
  · have hfirst := (hstart (fun _ _ => True) (· = 0)).packet probe (still 0) trivial (by decide +kernel)
    have hsecond := hfirst.packet (data 200) (still 1) trivial (by decide +kernel)
    refine ⟨(handleExistingFlow (handleExistingFlow sampleFlow {} probe (still 0)).state {} (data 200)
      (still 1)).state, ?_, by decide +kernel⟩
    convert hsecond.writeAll rfl using 1 <;> decide +kernel
  · have hfirst := (hstart (fun _ _ => True) (· = 0)).packet (data 100) (still 0) trivial (by decide +kernel)
    have hsecond := hfirst.packet (data 300) (still 1) trivial (by decide +kernel)
    have hthird := hsecond.packet probe (still 2) trivial (by decide +kernel)
    refine ⟨(handleExistingFlow (handleExistingFlow (handleExistingFlow sampleFlow {} (data 100)
      (still 0)).state {} (data 300) (still 1)).state {} probe (still 2)).state, ?_⟩
    convert hthird.writeAll rfl using 1 <;> decide +kernel
  · have hfirst := (hstart Quiet fun _ => True).packet probe (still 0) (by decide) (by decide +kernel)
    have hsecond := hfirst.packet (data 100) (still 1) (by decide +kernel) (by decide +kernel)
    have hupdate := ((hsecond.pump true).write (e := 300 + 65728) 1 trivial (by decide +kernel)).writeAll trivial
    refine ⟨pumpDrain (handleExistingFlow (handleExistingFlow sampleFlow {} probe (still 0)).state {} (data 100)
      (still 1)).state {}, ?_⟩
    convert hupdate using 1 <;> decide +kernel

end OutlineProxy.Tcp
