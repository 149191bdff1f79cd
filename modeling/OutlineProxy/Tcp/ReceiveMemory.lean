import OutlineProxy.Tcp.Arrival

/-! Memory of the receive side, and what one packet can do to the length of the reassembly queue. -/

namespace OutlineProxy.Tcp

open Serial Reassembly ReceiveSide

/-- The queue of the flow is sorted, lies beyond `rcvNxt` and inside the receive window.  Positions
are counted from a point half the sequence space before `rcvNxt`, so every packet has one. -/
def WellQueued (state : TcpFlowState) : Prop :=
  ∃ isn r q, 2 ^ 31 ≤ r ∧ QueueInv isn r state.receiveSide q

theorem wellQueued_of_empty {state : TcpFlowState} (hq : state.pendingClientSegments = [])
    (hcap : state.receiveWindowCapacity < 2 ^ 31) : WellQueued state := by
  refine ⟨state.rcvNxt - UInt32.ofNat (2 ^ 31), 2 ^ 31, [], le_rfl, ?_, ?_, List.Pairwise.nil, ?_, ?_, hcap⟩
  · rw [point, sub_add_cancel]
    rfl
  · simp [TcpFlowState.receiveSide, hq]
  all_goals simp

def straddled (state : TcpFlowState) (trimmed : TrimmedSegment) : Nat :=
  state.pendingClientSegments.countP fun existing =>
    seqGt existing.sequenceNumber trimmed.sequenceNumber
      && seqLt (bufferedClientSegmentDataEnd existing)
        (trimmed.sequenceNumber + UInt32.ofNat trimmed.payload.length)

/-- The packet straddles no queued segment, or the queue has room for one more piece for each one
it straddles. -/
def RoomForStraddled (state : TcpFlowState) (tcp : TunTcpConfig) (packet : ParsedTcpPacket) : Prop :=
  ∀ trimmed ∈ trimPacketToReceiveWindow state packet, straddled state trimmed = 0 ∨
      state.pendingClientSegments.length + additionalSegments trimmed + straddled state trimmed ≤
        tcp.maxBufferedClientSegments

instance (state : TcpFlowState) (tcp : TunTcpConfig) (packet : ParsedTcpPacket) :
    Decidable (RoomForStraddled state tcp packet) :=
  inferInstanceAs (Decidable (∀ trimmed ∈ trimPacketToReceiveWindow state packet, _ ∨ _))

/-- The runs of a flow under arbitrary packets, pump drains and the rest of the engine, which
leaves the receive side alone and never reopens the client's half. -/
inductive ReceiveRun (tcp : TunTcpConfig) : TcpFlowState → Prop
  | start {state : TcpFlowState} : WellQueued state → bufferedClientBytes state ≤ state.receiveWindowCapacity →
      state.receiveWindowCapacity ≤ tcp.maxBufferedClientBytes → ReceiveRun tcp state
  | packet {state : TcpFlowState} (packet : ParsedTcpPacket) (clock : Clock) : ReceiveRun tcp state →
      (handleExistingFlow state tcp packet clock).fate = .alive →
      ReceiveRun tcp (handleExistingFlow state tcp packet clock).state
  | pump {state : TcpFlowState} : ReceiveRun tcp state → ReceiveRun tcp (pumpDrain state tcp)
  | other {state state' : TcpFlowState} : ReceiveRun tcp state → state'.receiveSide = state.receiveSide →
      (clientFinSeen state.status = true → clientFinSeen state'.status = true) → ReceiveRun tcp state'

structure ReceiveInv (tcp : TunTcpConfig) (state : TcpFlowState) : Prop where
  buffered : bufferedClientBytes state ≤ state.receiveWindowCapacity
  capacity : state.receiveWindowCapacity ≤ tcp.maxBufferedClientBytes
  queue : clientFinSeen state.status = false → WellQueued state

variable {tcp : TunTcpConfig} {state : TcpFlowState}

theorem ReceiveInv.congr {s t : TcpFlowState} (h : ReceiveInv tcp s) (hside : t.receiveSide = s.receiveSide)
    (hfin : clientFinSeen s.status = true → clientFinSeen t.status = true) : ReceiveInv tcp t := by
  have hcap : t.receiveWindowCapacity = s.receiveWindowCapacity := congrArg receiveWindowCapacity hside
  refine ⟨?_, hcap ▸ h.capacity, fun hopen => ?_⟩
  · rw [bufferedClientBytes_congr hside, hcap]
    exact h.buffered
  · have hqueue := h.queue
    grind [WellQueued]

theorem ReceiveInv.pump (h : ReceiveInv tcp state) : ReceiveInv tcp (pumpDrain state tcp) := by
  obtain ⟨-, -, hc1, hc2⟩ := pumpDrain_receiveSide state tcp
  have hle := bufferedClientBytes_pumpDrain_le state tcp
  have hb := h.buffered
  have hc := h.capacity
  have hstatus : (pumpDrain state tcp).status = state.status := by
    simp only [pumpDrain, growReceiveWindow]
    split_ifs <;> rfl
  refine ⟨by omega, by omega, fun hopen => ?_⟩
  obtain ⟨isn, r, q, hr, hq⟩ := h.queue (hstatus ▸ hopen)
  exact ⟨isn, r, q, hr, hq.pump tcp⟩

theorem empty_of_passesFinGate {packet : ParsedTcpPacket} (hgate : passesFinGate state packet)
    (hseen : clientFinSeen state.status = true) : packet.payload = [] ∧ packet.flags.fin = false := by
  simp only [passesFinGate, hseen, segmentRequiresAck, Bool.true_and, Bool.or_eq_false_iff, bne_eq_false_iff_eq,
    List.length_eq_zero_iff] at hgate
  exact hgate.1

variable {clock : Clock}

theorem ingestSegment_of_empty {packet : ParsedTcpPacket} (hempty : packet.payload = [] ∧ packet.flags.fin = false)
    (halive : (ingestSegment state tcp packet clock).fate = .alive) :
    (ingestSegment state tcp packet clock).state.receiveSide = state.receiveSide := by
  have htrim : trimPacketToReceiveWindow state packet =
      some ⟨packet.sequenceNumber, packet.flags, packet.payload⟩ := by
    simp [trimPacketToReceiveWindow, hempty]
  rcases ingestSegment_cases halive with
    ⟨-, -, hside⟩ | ⟨trimmed, -, ht, -, -, -, hside⟩ | ⟨trimmed, -, ht, -, -, hside⟩
  · exact hside
  · grind [queueFutureSegment, TcpFlowState.receiveSide, Option.some.inj]
  · grind [applyInbound, normalizeTrimmedSegment, normalizeClientSegmentParts, TcpFlowState.receiveSide]

variable {trimmed : TrimmedSegment}

theorem clientFinSeen_deliverSegment (halive : (deliverSegment state tcp trimmed clock).fate = .alive) :
    clientFinSeen (deliverSegment state tcp trimmed clock).state.status =
      (clientFinSeen state.status || (deliverSegment state tcp trimmed clock).closedClientHalf) := by
  have hflush : clientFinSeen (applyInboundAndFlush state trimmed clock).1.status = clientFinSeen state.status := by
    simp [applyInboundAndFlush]
  unfold deliverSegment at halive ⊢
  generalize applyInboundAndFlush state trimmed clock = result at halive hflush ⊢
  have hcommit : ∀ (s : TcpFlowState) now, (commitFlowChanges s tcp now).1.status = s.status :=
    fun s now => congrArg DownSide.status (downSide_commitFlowChanges s tcp now)
  dsimp only at halive hflush ⊢
  split at halive
  · simp [abortFlow] at halive
  · grind [clientFinSeen_transitionOnClientFin]

variable {isn : UInt32} {r : Nat} {q : List (Block UInt8)}

theorem QueueInv.buffered_eq (h : QueueInv isn r state.receiveSide q) :
    bufferedClientBytes state = bytes q + (state.pendingClientData.map List.length).sum := by
  have hh : Reps isn state.pendingClientSegments q := h.reps
  rw [bufferedClientBytes, hh.bytes_eq]

variable {offset : Nat}

theorem QueueInv.buffered_queueSegment (h : QueueInv isn r state.receiveSide q)
    {packet : ParsedTcpPacket} {state' : TcpFlowState}
    (hseq : packet.sequenceNumber = point isn offset) (h1 : r < offset) (h2 : offset < r + 2 ^ 31)
    (htrim : trimPacketToReceiveWindow state packet = some trimmed)
    (hside : state'.receiveSide = { state.receiveSide with
      pendingClientSegments := queueFutureSegment state.pendingClientSegments trimmed state.rcvNxt }) :
    bufferedClientBytes state' ≤ bufferedClientBytes state + trimmed.payload.length ∧
      trimmed.payload.length ≤ receiveRoom state := by
  obtain ⟨hfits, hqueued⟩ := h.queueSegment hseq h1 h2 htrim
  rw [← hside] at hqueued
  have hdata : state'.pendingClientData = state.pendingClientData := congrArg pendingClientData hside
  have hadd := bytes_add_le q ⟨offset, trimmed.payload, trimmed.flags.fin⟩
  constructor
  · rw [hqueued.buffered_eq, h.buffered_eq, hdata]
    simp only at hadd
    omega
  · rcases hfits with ⟨hd, -⟩ | hend
    · simp [hd]
    · omega

section Deliver

variable (h : QueueInv isn r state.receiveSide q) {packet : ParsedTcpPacket} {state' : TcpFlowState}
  (hseq : packet.sequenceNumber = point isn offset) (h1 : offset ≤ r) (h2 : r ≤ offset + 2 ^ 31)
  (htrim : trimPacketToReceiveWindow state packet = some trimmed)
  (hside : state'.receiveSide = deliveredSide state trimmed)

include h hseq h1 h2 htrim hside

theorem QueueInv.buffered_delivered :
    bufferedClientBytes state' = bytes (drain r (normalBlock r offset trimmed :: q)).rest +
      ((state.pendingClientData.map List.length).sum +
        (drain r (normalBlock r offset trimmed :: q)).out.flatten.length) := by
  obtain ⟨-, hout, -, -, hdata, -, hreps⟩ := h.deliver hseq h1 h2 htrim
  have hsegments : state'.pendingClientSegments = (applyInbound state trimmed).1.pendingClientSegments :=
    congrArg pendingClientSegments hside
  have hpending : state'.pendingClientData =
      state.pendingClientData ++ (drain r (normalBlock r offset trimmed :: q)).out := by
    rw [← hdata, ← hout]
    exact congrArg pendingClientData hside
  rw [bufferedClientBytes, hsegments, hreps.bytes_eq, hpending, List.map_append, List.sum_append, List.length_flatten]

theorem QueueInv.buffered_deliver : bufferedClientBytes state' ≤ bufferedClientBytes state + receiveRoom state := by
  obtain ⟨hlen, -⟩ := h.deliver hseq h1 h2 htrim
  have hbytes := drain_bytes r (normalBlock r offset trimmed :: q)
  rw [bytes_cons] at hbytes
  rw [h.buffered_eq, h.buffered_delivered hseq h1 h2 htrim hside]
  omega

end Deliver

theorem WellQueued.place (h : WellQueued state) (seq : UInt32) : ∃ isn r q offset, 2 ^ 31 ≤ r ∧
    QueueInv isn r state.receiveSide q ∧ seq = point isn offset ∧ r ≤ offset + 2 ^ 31 ∧ offset < r + 2 ^ 31 ∧
    seqGt seq state.rcvNxt = decide (r < offset) := by
  obtain ⟨isn, r, q, hr, hq⟩ := h
  obtain ⟨offset, hseq, h1, h2⟩ := exists_point_near isn seq hr
  refine ⟨isn, r, q, offset, hr, hq, hseq, h1, h2, ?_⟩
  rw [hseq, show state.rcvNxt = point isn r from hq.rcvNxt, seqGt_point isn h1 h2]

theorem ReceiveInv.ingest_open (h : ReceiveInv tcp state) (hopen : clientFinSeen state.status = false)
    {packet : ParsedTcpPacket} (halive : (ingestSegment state tcp packet clock).fate = .alive)
    (hfin : clientFinSeen (ingestSegment state tcp packet clock).state.status = false →
      (ingestSegment state tcp packet clock).closedClientHalf = false) :
    ReceiveInv tcp (ingestSegment state tcp packet clock).state := by
  obtain ⟨isn, r, q, offset, hr, hq, hseq, h1, h2, hgt⟩ := (h.queue hopen).place packet.sequenceNumber
  have hb := h.buffered
  have hroom : bufferedClientBytes state + receiveRoom state ≤ state.receiveWindowCapacity := by
    rw [receiveRoom]
    omega
  rcases ingestSegment_cases halive with
    ⟨-, -, hside⟩ | ⟨trimmed, hbeyond, htrim, -, -, -, hside⟩ | ⟨trimmed, hbefore, htrim, -, hclose, hside⟩
  · exact h.congr hside fun hs => by simp [hopen] at hs
  · -- the segment is queued inside the window
    rw [hgt, decide_eq_true_iff] at hbeyond
    have hcap : (ingestSegment state tcp packet clock).state.receiveWindowCapacity =
        state.receiveWindowCapacity := congrArg receiveWindowCapacity hside
    refine ⟨?_, hcap ▸ h.capacity, fun _ =>
      ⟨isn, r, add q ⟨offset, trimmed.payload, trimmed.flags.fin⟩, hr, ?_⟩⟩
    · rw [hcap]
      have hbytes := hq.buffered_queueSegment hseq hbeyond h2 htrim hside
      omega
    · rw [hside]
      exact (hq.queueSegment hseq hbeyond h2 htrim).2
  · -- the segment is delivered and the queue drained behind it
    rw [hgt, decide_eq_false_iff_not, Nat.not_lt] at hbefore
    obtain ⟨hlen, -, hc, hcapacity, -, hnext, hreps⟩ := hq.deliver hseq hbefore h1 htrim
    have hcap : (ingestSegment state tcp packet clock).state.receiveWindowCapacity = state.receiveWindowCapacity :=
      (congrArg receiveWindowCapacity hside).trans hcapacity
    refine ⟨?_, hcap ▸ h.capacity, fun ho => ⟨isn, _, _, ?_, hq.drained _ rfl hlen ?_ ?_ hcap ?_⟩⟩
    · rw [hcap]
      exact (hq.buffered_deliver hseq hbefore h1 htrim hside).trans hroom
    · have := drain_next r (normalBlock r offset trimmed :: q)
      omega
    · rw [hside]
      exact hnext
    · rw [hside]
      exact hreps
    · rw [← hc, ← hclose]
      exact hfin ho

theorem clientFinSeen_ingestSegment {packet : ParsedTcpPacket}
    (halive : (ingestSegment state tcp packet clock).fate = .alive) :
    clientFinSeen (ingestSegment state tcp packet clock).state.status =
      (clientFinSeen state.status || (ingestSegment state tcp packet clock).closedClientHalf) := by
  have hreply : ∀ s : TcpFlowState, s.status = state.status →
      clientFinSeen (commitAndReply (clearDelayedAck s) tcp (clock.reading 0) pureAck).state.status =
        (clientFinSeen state.status ||
          (commitAndReply (clearDelayedAck s) tcp (clock.reading 0) pureAck).closedClientHalf) := by
    intro s hs
    have hc := congrArg DownSide.status (downSide_commitFlowChanges (clearDelayedAck s) tcp (clock.reading 0))
    simp only [commitAndReply, Bool.or_false]
    exact congrArg clientFinSeen (hc.trans hs)
  unfold ingestSegment at halive ⊢
  cases hcl : classifyInboundSegment state packet with
  | outsideReceiveWindow => exact hreply state rfl
  | deliver trimmed =>
    rw [hcl] at halive
    exact clientFinSeen_deliverSegment halive
  | beyondExpectedSequence =>
    rw [hcl] at halive
    rcases queueFutureSegmentWithRecvWindow_cases state tcp packet with
      ⟨-, he⟩ | ⟨_, -, he⟩ | ⟨_, -, -, -, he⟩
    · simp only [he]
      exact hreply state rfl
    · simp [he, abortFlow] at halive
    · simp only [he]
      exact hreply _ rfl

theorem ReceiveInv.ingest (h : ReceiveInv tcp state) {packet : ParsedTcpPacket} (hgate : passesFinGate state packet)
    (halive : (ingestSegment state tcp packet clock).fate = .alive) :
    ReceiveInv tcp (ingestSegment state tcp packet clock).state := by
  have hseen := clientFinSeen_ingestSegment halive
  cases hs : clientFinSeen state.status with
  | false =>
    refine h.ingest_open hs halive fun hf => ?_
    rw [hseen, hs, Bool.false_or] at hf
    exact hf
  | true =>
    exact h.congr (ingestSegment_of_empty (empty_of_passesFinGate hgate hs) halive) fun _ => by
      rw [hseen, hs, Bool.true_or]

theorem ReceiveInv.packet (h : ReceiveInv tcp state) {packet : ParsedTcpPacket}
    (halive : (handleExistingFlow state tcp packet clock).fate = .alive) :
    ReceiveInv tcp (handleExistingFlow state tcp packet clock).state := by
  rcases handleExistingFlow_arrives halive with hb | ⟨s, clock', hsame, hgate, he⟩
  · exact h.congr hb.side fun hs => hb.finSeen.trans hs
  · rw [he] at halive ⊢
    exact (h.congr hsame.side fun hs => hsame.finSeen.trans hs).ingest (hsame.passesFinGate.mpr hgate) halive

theorem ReceiveRun.inv (hrun : ReceiveRun tcp state) : ReceiveInv tcp state := by
  induction hrun with
  | start hq hb hc => exact ⟨hb, hc, fun _ => hq⟩
  | packet packet clock _ halive ih => exact ih.packet halive
  | pump _ ih => exact ih.pump
  | other _ hside hfin ih => exact ih.congr hside hfin

theorem straddled_eq (h : QueueInv isn r state.receiveSide q)
    (hseq : trimmed.sequenceNumber = point isn offset) (h1 : r < offset)
    (h2 : offset + trimmed.payload.length < r + 2 ^ 31) :
    straddled state trimmed = islands ⟨offset, trimmed.payload, trimmed.flags.fin⟩ q := by
  have hreps : Reps isn state.pendingClientSegments q := h.reps
  have hnear := h.near
  unfold straddled islands
  generalize state.pendingClientSegments = queue at hreps
  clear h
  induction hreps with
  | nil => rfl
  | @cons segment b queue q hx _ ih =>
    obtain ⟨hb1, hb2⟩ := hnear b List.mem_cons_self
    have hstop : b.pos ≤ b.stop := Nat.le_add_right _ _
    rw [List.countP_cons, List.countP_cons, ih fun z hz => hnear z (List.mem_cons_of_mem _ hz), hx.dataEnd,
      hx.seq, hseq, ← point_add, seqGt_point isn (by omega) (by omega), seqLt_point isn (by omega) (by omega)]
    rfl

theorem length_queueFutureSegment_le (h : QueueInv isn r state.receiveSide q) {packet : ParsedTcpPacket}
    (hseq : packet.sequenceNumber = point isn offset) (h1 : r < offset) (h2 : offset < r + 2 ^ 31)
    (htrim : trimPacketToReceiveWindow state packet = some trimmed) :
    (queueFutureSegment state.pendingClientSegments trimmed state.rcvNxt).length ≤
      state.pendingClientSegments.length + additionalSegments trimmed + straddled state trimmed := by
  obtain ⟨hfits, hqueued⟩ := h.queueSegment hseq h1 h2 htrim
  have hcap : state.receiveWindowCapacity < 2 ^ 31 := h.capacity
  have hroom : receiveRoom state ≤ state.receiveWindowCapacity := Nat.sub_le _ _
  have hreps : Reps isn state.pendingClientSegments q := h.reps
  have hafter : Reps isn (queueFutureSegment state.pendingClientSegments trimmed state.rcvNxt)
      (add q ⟨offset, trimmed.payload, trimmed.flags.fin⟩) := hqueued.reps
  rcases hfits with ⟨hd, hf⟩ | hend
  · simp [queueFutureSegment, hd, hf]
    omega
  · have hlen := length_add_le q ⟨offset, trimmed.payload, trimmed.flags.fin⟩
    rw [straddled_eq h ((trim_spec htrim).1.trans hseq) h1 (by omega), hafter.length_eq, hreps.length_eq]
    by_cases hskip : (trimmed.payload.isEmpty && !trimmed.flags.fin) = true
    · grind [List.isEmpty_iff, Bool.not_eq_true', add_of_isEmpty]
    · grind [additionalSegments, Bool.false_eq_true]

def ReachesQueue (state : TcpFlowState) (packet : ParsedTcpPacket) : Prop :=
  passesFinGate state packet ∧ seqGt packet.sequenceNumber state.rcvNxt = true

theorem ReceiveInv.length_queued (h : ReceiveInv tcp state) {packet : ParsedTcpPacket}
    (hreach : ReachesQueue state packet) (hroom : RoomForStraddled state tcp packet)
    (hqueued : (queueFutureSegmentWithRecvWindow state tcp packet).2 = .queued) :
    (queueFutureSegmentWithRecvWindow state tcp packet).1.pendingClientSegments.length ≤
      tcp.maxBufferedClientSegments := by
  rcases queueFutureSegmentWithRecvWindow_cases state tcp packet with
    ⟨-, he⟩ | ⟨_, -, he⟩ | ⟨trimmed, htrim, hlimit, -, he⟩
  · simp [he] at hqueued
  · simp [he] at hqueued
  · rw [he]
    have hbound : state.pendingClientSegments.length + additionalSegments trimmed
        + straddled state trimmed ≤ tcp.maxBufferedClientSegments := by
      rcases hroom trimmed htrim with hzero | hle
      · omega
      · exact hle
    cases hs : clientFinSeen state.status with
    | false =>
      obtain ⟨isn, r, q, offset, hr, hq, hseq, h1, h2, hgt⟩ := (h.queue hs).place packet.sequenceNumber
      have hbeyond := hreach.2
      rw [hgt, decide_eq_true_iff] at hbeyond
      exact (length_queueFutureSegment_le hq hseq hbeyond h2 htrim).trans hbound
    | true =>
      have hempty := empty_of_passesFinGate hreach.1 hs
      have ht : trimmed = ⟨packet.sequenceNumber, packet.flags, packet.payload⟩ := by
        simpa [trimPacketToReceiveWindow, hempty] using htrim.symm
      simp only [ht, queueFutureSegment, hempty, List.isEmpty_nil, Bool.not_false, Bool.and_self, if_true]
      omega

/-- In every run the bytes held for the client's half fit the receive window, a packet with room
for every segment it straddles keeps the queue within its cap, and a packet that is not queued
leaves the queue as it was. -/
theorem receive_memory_bound (hrun : ReceiveRun tcp state) :
    bufferedClientBytes state ≤ state.receiveWindowCapacity ∧
      state.receiveWindowCapacity ≤ tcp.maxBufferedClientBytes ∧
      (∀ packet, ReachesQueue state packet → RoomForStraddled state tcp packet →
        (queueFutureSegmentWithRecvWindow state tcp packet).2 = .queued →
        (queueFutureSegmentWithRecvWindow state tcp packet).1.pendingClientSegments.length ≤
          tcp.maxBufferedClientSegments) ∧
      (∀ packet, (queueFutureSegmentWithRecvWindow state tcp packet).2 ≠ .queued →
        (queueFutureSegmentWithRecvWindow state tcp packet).1.pendingClientSegments =
          state.pendingClientSegments) := by
  have h := hrun.inv
  refine ⟨h.buffered, h.capacity, fun packet => h.length_queued, fun packet hq => ?_⟩
  rcases queueFutureSegmentWithRecvWindow_cases state tcp packet with
    ⟨-, he⟩ | ⟨_, -, he⟩ | ⟨_, -, -, -, he⟩
  · rw [he]
  · rw [he]
  · simp [he] at hq

def dataPacket (sequenceNumber : UInt32) (payload : Bytes) : ParsedTcpPacket :=
  ⟨sequenceNumber, 1000, 65535, none, none, false, [], none, { ack := true }, payload⟩

/-- A flow that holds the second and the fourth byte beyond the expected one. -/
def twoQueued (tcp : TunTcpConfig) : TcpFlowState :=
  let one := (handleExistingFlow sampleFlow tcp (dataPacket 102 [2]) (Clock.still 0)).state
  (handleExistingFlow one tcp (dataPacket 104 [4]) (Clock.still 1)).state

def widePacket : ParsedTcpPacket := dataPacket 101 [1, 2, 3, 4, 5]

/-- The packet straddles both segments and is cut in three. -/
theorem receive_memory_bound_roomy :
    ReceiveRun {} (twoQueued {}) ∧ ReachesQueue (twoQueued {}) widePacket ∧
      RoomForStraddled (twoQueued {}) {} widePacket ∧
      (queueFutureSegmentWithRecvWindow (twoQueued {}) {} widePacket).2 = .queued ∧
      (queueFutureSegmentWithRecvWindow (twoQueued {}) {} widePacket).1.pendingClientSegments.length ≤ 4096 := by
  have hstart : ReceiveRun {} sampleFlow := .start (wellQueued_of_empty rfl (by decide)) (by decide) (by decide)
  have hrun : ReceiveRun {} (twoQueued {}) := (hstart.packet _ _ (by decide +kernel)).packet _ _ (by decide +kernel)
  have hreach : ReachesQueue (twoQueued {}) widePacket := ⟨by unfold passesFinGate; decide +kernel, by decide +kernel⟩
  have hroom : RoomForStraddled (twoQueued {}) {} widePacket := by decide +kernel
  have hqueued : (queueFutureSegmentWithRecvWindow (twoQueued {}) {} widePacket).2 = .queued := by decide +kernel
  exact ⟨hrun, hreach, hroom, hqueued, (receive_memory_bound hrun).2.2.1 widePacket hreach hroom hqueued⟩

/-- Where three segments are allowed the queue ends with five. -/
theorem receive_memory_straddling_packet :
    let tcp : TunTcpConfig := { maxBufferedClientSegments := 3 }
    ReceiveRun tcp (twoQueued tcp) ∧ ReachesQueue (twoQueued tcp) widePacket ∧
      (queueFutureSegmentWithRecvWindow (twoQueued tcp) tcp widePacket).2 = .queued ∧
      (queueFutureSegmentWithRecvWindow (twoQueued tcp) tcp widePacket).1.pendingClientSegments.length = 5 ∧
      (handleExistingFlow (twoQueued tcp) tcp widePacket (Clock.still 2)).fate = .alive := by
  intro tcp
  have hstart : ReceiveRun tcp sampleFlow := .start (wellQueued_of_empty rfl (by decide)) (by decide) (by decide)
  have hrun : ReceiveRun tcp (twoQueued tcp) := (hstart.packet _ _ (by decide +kernel)).packet _ _ (by decide +kernel)
  exact ⟨hrun, ⟨by unfold passesFinGate; decide +kernel, by decide +kernel⟩, by decide +kernel,
    by decide +kernel, by decide +kernel⟩

end OutlineProxy.Tcp
