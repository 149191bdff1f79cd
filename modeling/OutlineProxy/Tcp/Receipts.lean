import OutlineProxy.Tcp.WindowEdge

/-! What the data packets of a flow acknowledge.  A repeated one carries the plain maximum of `rcvNxt` and the
number stored with the segment, which is the older of the two once `rcvNxt` has wrapped. -/

namespace OutlineProxy.Tcp

open Serial

variable {state : TcpFlowState} {clock : Clock}

/-- As plain words, the number stored with the segment at `index` is not above `rcvNxt`. -/
def StoredBelow (state : TcpFlowState) (index : Option Nat) : Prop :=
  ∀ segment, index.bind (state.unackedServerSegments[·]?) = some segment →
    segment.acknowledgementNumber ≤ state.rcvNxt

instance (state : TcpFlowState) (index : Option Nat) : Decidable (StoredBelow state index) :=
  inferInstanceAs (Decidable (∀ segment ∈ index.bind (state.unackedServerSegments[·]?),
    segment.acknowledgementNumber ≤ state.rcvNxt))

theorem flushServerOutput_acks (state : TcpFlowState) (clock : Clock) :
    ∀ p ∈ (flushServerOutput state clock).2.dataPackets, p.acknowledgementNumber = state.rcvNxt := by
  unfold flushServerOutput
  split
  · simp
  · refine flushServerData_packets (P := fun p => p.acknowledgementNumber = state.rcvNxt) ?_ state clock rfl
    intro s payload pacing mss available sentAt hs
    have hrcv : s.rcvNxt = state.rcvNxt := congrArg ReceiveSide.rcvNxt hs
    simp only [emitServerData]
    split <;> exact hrcv

theorem max_eq_left_iff_le (x y : UInt32) : max x y = x ↔ y ≤ x := by
  change (if x ≤ y then y else x) = x ↔ y ≤ x
  split
  · rename_i hle
    exact ⟨fun heq => heq ▸ UInt32.le_refl _, fun hge => UInt32.le_antisymm hge hle⟩
  · rename_i hgt
    exact iff_of_true rfl (UInt32.le_of_lt (UInt32.not_le.1 hgt))

variable {packet : OutPacket}

theorem resendSegment_ack_iff {index : Nat} {mark : ServerSegment → ServerSegment}
    (hp : (resendSegment state index mark).2 = some packet) :
    packet.acknowledgementNumber = state.rcvNxt ↔ StoredBelow state (some index) := by
  unfold resendSegment at hp
  unfold StoredBelow
  split at hp
  · cases hp
  · rename_i segment hsegment
    have hack : packet.acknowledgementNumber = max state.rcvNxt segment.acknowledgementNumber := by
      rw [← Option.some.inj hp]
      rfl
    simp [hack, hsegment, max_eq_left_iff_le]

theorem retransmitOldestUnackedPacket_ack_iff (hp : (retransmitOldestUnackedPacket state clock).2 = some packet) :
    packet.acknowledgementNumber = state.rcvNxt ↔ StoredBelow state (fastRetransmitIndex state) := by
  unfold retransmitOldestUnackedPacket at hp
  split at hp
  · cases hp
  · rename_i index hindex
    rw [hindex]
    exact resendSegment_ack_iff hp

theorem retransmitDueSegment_ack_iff (hp : (retransmitDueSegment state clock).2 = some packet) :
    packet.acknowledgementNumber = state.rcvNxt ↔ StoredBelow state (dueRetransmitIndex state clock) := by
  unfold retransmitDueSegment at hp
  split at hp
  · cases hp
  · rename_i index hindex
    rw [hindex]
    exact resendSegment_ack_iff hp

section Receiving

def Takes (before : UInt32) (pending : List Bytes) (after : UInt32) (ready : List Bytes) (close : Bool) : Prop :=
  ∃ n, after = before + UInt32.ofNat n ∧ chunksLen ready + close.toNat = chunksLen pending + n

theorem Takes.trans {a b c : UInt32} {p q r : List Bytes} {close : Bool} (h : Takes a p b q false)
    (k : Takes b q c r close) :
    Takes a p c r close := by
  obtain ⟨n, rfl, hn⟩ := h
  obtain ⟨m, rfl, hm⟩ := k
  exact ⟨n + m, by rw [UInt32.ofNat_add, UInt32.add_assoc], by simp at hn; omega⟩

theorem applyClientSegment_takes (expectedSeq : UInt32) (segment : ClientSegmentView) (pending : List Bytes) :
    Takes expectedSeq pending (applyClientSegment expectedSeq segment pending).1
      (applyClientSegment expectedSeq segment pending).2.1 (applyClientSegment expectedSeq segment pending).2.2 := by
  have hdata : ∀ taken : UInt32 × List Bytes, taken = (if segment.payload.isEmpty then (expectedSeq, pending)
      else (expectedSeq + UInt32.ofNat segment.payload.length, pending ++ [segment.payload])) →
      Takes expectedSeq pending taken.1 taken.2 false := by
    rintro taken rfl
    split
    · exact ⟨0, by simp, rfl⟩
    · exact ⟨_, rfl, by simp [chunksLen]⟩
  unfold applyClientSegment
  generalize htaken : (if segment.payload.isEmpty = true then _ else _ : UInt32 × List Bytes) = taken
  have htaken := hdata taken htaken.symm
  dsimp only
  split
  · exact htaken.trans ⟨1, rfl, rfl⟩
  · exact htaken

theorem drainReadyBufferedSegments_takes (segments : List BufferedClientSegment) (expectedSeq : UInt32)
    (pending : List Bytes) :
    let drained := drainReadyBufferedSegments expectedSeq segments pending
    Takes expectedSeq pending drained.1 drained.2.2.1 drained.2.2.2 := by
  dsimp only
  induction segments generalizing expectedSeq pending with
  | nil => exact ⟨0, by simp [drainReadyBufferedSegments], rfl⟩
  | cons segment rest ih =>
    rw [drainReadyBufferedSegments]
    split
    · exact ⟨0, by simp, rfl⟩
    · dsimp only
      split
      · exact ih expectedSeq pending
      · have happly := applyClientSegment_takes expectedSeq (normalizeClientSegmentParts segment.sequenceNumber
          segment.flags segment.payload expectedSeq) pending
        split <;> rename_i heq <;> rw [heq] at happly
        · exact happly
        · exact happly.trans (ih _ _)

theorem applyInbound_takes (state : TcpFlowState) (trimmed : TrimmedSegment) :
    Takes state.rcvNxt [] (applyInbound state trimmed).1.rcvNxt (applyInbound state trimmed).2.1
      (applyInbound state trimmed).2.2 := by
  unfold applyInbound
  dsimp only
  split
  · exact ⟨0, by simp, rfl⟩
  · have happly := applyClientSegment_takes state.rcvNxt (normalizeTrimmedSegment trimmed state.rcvNxt) []
    split
    · rename_i hclose
      rw [hclose] at happly
      exact happly
    · rename_i hclose
      rw [Bool.eq_false_iff.2 hclose] at happly
      exact happly.trans (drainReadyBufferedSegments_takes ..)

end Receiving

structure Receipt where
  packet : OutPacket
  rcvNxt : UInt32
  received : Nat

/-- A flow with the payload and FIN it has received, counted in sequence numbers, and the data packets
built for it, oldest first. -/
structure Receipts where
  state : TcpFlowState
  received : Nat := 0
  built : List Receipt := []

def Receipts.sent (r : Receipts) (next : TcpFlowState) (packets : List OutPacket) : Receipts :=
  { r with state := next, built := r.built ++ packets.map fun p => ⟨p, r.state.rcvNxt, r.received⟩ }

def Receipts.deliver (r : Receipts) (trimmed : TrimmedSegment) : Receipts :=
  let (next, payload, close) := applyInbound r.state trimmed
  { r with state := next, received := r.received + chunksLen payload + close.toNat }

/-- The runs of a flow from the client's first sequence number on, whose retransmissions meet `ok`. -/
inductive ReceiptRun (ok : TcpFlowState → Option Nat → Prop) (isn : UInt32) : Receipts → Prop
  | start {state : TcpFlowState} : state.rcvNxt = isn → ReceiptRun ok isn { state := state }
  | deliver {r : Receipts} (trimmed : TrimmedSegment) : ReceiptRun ok isn r → ReceiptRun ok isn (r.deliver trimmed)
  | flush {r : Receipts} (clock : Clock) : ReceiptRun ok isn r → ReceiptRun ok isn
      (r.sent (flushServerOutput r.state clock).1 (flushServerOutput r.state clock).2.dataPackets)
  | fastRetransmit {r : Receipts} (clock : Clock) : ReceiptRun ok isn r → ok r.state (fastRetransmitIndex r.state) →
      ReceiptRun ok isn (r.sent (retransmitOldestUnackedPacket r.state clock).1
        (retransmitOldestUnackedPacket r.state clock).2.toList)
  | timeoutRetransmit {r : Receipts} (clock : Clock) : ReceiptRun ok isn r →
      ok r.state (dueRetransmitIndex r.state clock) →
      ReceiptRun ok isn (r.sent (retransmitDueSegment r.state clock).1 (retransmitDueSegment r.state clock).2.toList)
  | other {r : Receipts} {state : TcpFlowState} : ReceiptRun ok isn r → state.rcvNxt = r.state.rcvNxt →
      ReceiptRun ok isn { r with state := state }

structure ReceiptInv (isn : UInt32) (r : Receipts) : Prop where
  position : r.state.rcvNxt = point isn r.received
  acks : ∀ b ∈ r.built, b.packet.acknowledgementNumber = b.rcvNxt ∧ b.rcvNxt = point isn b.received
  ordered : r.built.Pairwise fun b b' => b.received ≤ b'.received
  past : ∀ b ∈ r.built, b.received ≤ r.received

variable {isn : UInt32} {r : Receipts}

theorem ReceiptInv.sent (h : ReceiptInv isn r) {next : TcpFlowState} {packets : List OutPacket}
    (hnext : next.rcvNxt = r.state.rcvNxt) (hacks : ∀ p ∈ packets, p.acknowledgementNumber = r.state.rcvNxt) :
    ReceiptInv isn (r.sent next packets) := by
  have hnew : ∀ b ∈ packets.map fun p => (⟨p, r.state.rcvNxt, r.received⟩ : Receipt),
      b.packet.acknowledgementNumber = b.rcvNxt ∧ b.rcvNxt = point isn b.received ∧ b.received = r.received := by
    intro b hb
    obtain ⟨p, hp, rfl⟩ := List.mem_map.1 hb
    exact ⟨hacks p hp, h.position, rfl⟩
  refine ⟨hnext.trans h.position, fun b hb => ?_, List.pairwise_append.2 ⟨h.ordered, ?_, fun b hb b' hb' => ?_⟩,
    fun b hb => ?_⟩
  · rcases List.mem_append.1 hb with hb | hb
    · exact h.acks b hb
    · exact ⟨(hnew b hb).1, (hnew b hb).2.1⟩
  · exact List.pairwise_map.2 (List.pairwise_of_forall fun _ _ => Nat.le_refl _)
  · exact (hnew b' hb').2.2 ▸ h.past b hb
  · rcases List.mem_append.1 hb with hb | hb
    · exact h.past b hb
    · exact (hnew b hb).2.2.le

theorem ReceiptInv.deliver (h : ReceiptInv isn r) (trimmed : TrimmedSegment) : ReceiptInv isn (r.deliver trimmed) := by
  obtain ⟨n, hrcv, hn⟩ := applyInbound_takes r.state trimmed
  have hreceived : (r.deliver trimmed).received = r.received + n := by
    have hdef : (r.deliver trimmed).received = r.received + chunksLen (applyInbound r.state trimmed).2.1 +
      (applyInbound r.state trimmed).2.2.toNat := rfl
    simp only [chunksLen, List.map_nil, List.sum_nil] at hn hdef
    omega
  have hstate : (r.deliver trimmed).state.rcvNxt = r.state.rcvNxt + UInt32.ofNat n := hrcv
  refine ⟨?_, h.acks, h.ordered, fun b hb => ?_⟩
  · rw [hstate, hreceived, h.position, point_add]
  · have hpast := h.past b hb
    omega

theorem ReceiptRun.inv (hrun : ReceiptRun StoredBelow isn r) : ReceiptInv isn r := by
  induction hrun with
  | start hstart => exact ⟨by simp [hstart], by simp, .nil, by simp⟩
  | deliver trimmed _ ih => exact ih.deliver trimmed
  | @flush r clock _ ih =>
    exact ih.sent (congrArg ReceiveSide.rcvNxt (receiveSide_flushServerOutput ..))
      (flushServerOutput_acks r.state clock)
  | @fastRetransmit r clock _ hok ih =>
    refine ih.sent (congrArg ReceiveSide.rcvNxt (receiveSide_retransmitOldestUnackedPacket ..)) fun p hp => ?_
    exact (retransmitOldestUnackedPacket_ack_iff (Option.mem_toList.1 hp)).2 hok
  | @timeoutRetransmit r clock _ hok ih =>
    refine ih.sent (congrArg ReceiveSide.rcvNxt (receiveSide_retransmitDueSegment ..)) fun p hp => ?_
    exact (retransmitDueSegment_ack_iff (Option.mem_toList.1 hp)).2 hok
  | other _ hsame ih => exact { ih with position := hsame.trans ih.position }

/-- A flush acknowledges `rcvNxt`, and so does a retransmission exactly where the number stored with
its segment is not above `rcvNxt` as a plain word.  In a run all of whose retransmissions are such,
every data packet acknowledges what had been received when it was built, and none less than one
before it. -/
theorem retransmissions_acknowledge_received (state : TcpFlowState) (clock : Clock) :
    (∀ p ∈ (flushServerOutput state clock).2.dataPackets, p.acknowledgementNumber = state.rcvNxt) ∧
    (∀ p, (retransmitOldestUnackedPacket state clock).2 = some p →
      (p.acknowledgementNumber = state.rcvNxt ↔ StoredBelow state (fastRetransmitIndex state))) ∧
    (∀ p, (retransmitDueSegment state clock).2 = some p →
      (p.acknowledgementNumber = state.rcvNxt ↔ StoredBelow state (dueRetransmitIndex state clock))) ∧
    ∀ isn r, ReceiptRun StoredBelow isn r →
      (∀ b ∈ r.built, b.packet.acknowledgementNumber = b.rcvNxt ∧ b.rcvNxt = point isn b.received) ∧
      r.built.Pairwise fun b b' => b.received ≤ b'.received :=
  ⟨flushServerOutput_acks state clock, fun _ => retransmitOldestUnackedPacket_ack_iff,
    fun _ => retransmitDueSegment_ack_iff, fun _ _ hrun => ⟨hrun.inv.acks, hrun.inv.ordered⟩⟩

/-- One byte is sent while the client's next number is `rcvNxt`, and then a byte of the client comes in. -/
def receiptsFrom (rcvNxt : UInt32) : Receipts :=
  let pushed : Receipts := { state := pushServerChunk { sampleFlow with rcvNxt } [1] }
  let sent := pushed.sent (flushServerOutput pushed.state (.still 0)).1
    (flushServerOutput pushed.state (.still 0)).2.dataPackets
  sent.deliver ⟨rcvNxt, { ack := true }, [7]⟩

theorem receiptsFrom_run (ok : TcpFlowState → Option Nat → Prop) (rcvNxt : UInt32) :
    ReceiptRun ok rcvNxt (receiptsFrom rcvNxt) := by
  have hstart : ReceiptRun ok rcvNxt { state := pushServerChunk { sampleFlow with rcvNxt } [1] } := .start rfl
  unfold receiptsFrom
  exact .deliver _ (.flush (.still 0) hstart)

/-- The timer runs out. -/
theorem retransmissions_acknowledge_received_resent : ∃ r, ReceiptRun StoredBelow 100 r ∧ r.built.length = 2 ∧
    (∀ b ∈ r.built, b.packet.acknowledgementNumber = b.rcvNxt ∧ b.rcvNxt = point 100 b.received) ∧
    r.built.Pairwise fun b b' => b.received ≤ b'.received := by
  have hrun : ReceiptRun StoredBelow 100 _ :=
    .timeoutRetransmit (.still (secs 5)) (receiptsFrom_run _ 100) (by decide +kernel)
  exact ⟨_, hrun, by decide +kernel, (retransmissions_acknowledge_received sampleFlow (.still 0)).2.2.2 100 _ hrun⟩

/-- Across the wrap the number acknowledged goes back by one. -/
theorem retransmission_acknowledges_less :
    (receiptsFrom 0xFFFFFFFF).state.rcvNxt = 0 ∧ ∃ r, ReceiptRun (fun _ _ => True) 0xFFFFFFFF r ∧
      r.built.map (fun b => (b.packet.acknowledgementNumber, b.rcvNxt, b.received)) =
        [(0xFFFFFFFF, 0xFFFFFFFF, 0), (0xFFFFFFFF, 0, 1)] := by
  refine ⟨by decide +kernel, _, .timeoutRetransmit (.still (secs 5)) (receiptsFrom_run _ _) trivial, ?_⟩
  decide +kernel

end OutlineProxy.Tcp
