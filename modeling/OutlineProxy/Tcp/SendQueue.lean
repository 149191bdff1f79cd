import OutlineProxy.Tcp.Chain

/-! The send queue of a flow on the positions of the pushed stream. -/

namespace OutlineProxy.Tcp

open List Serial

theorem chunksLen_eq (chunks : List Bytes) : chunksLen chunks = chunks.flatten.length := by
  rw [chunksLen, length_flatten]

theorem takeChunks_flatten (target slots : Nat) (chunks : List Bytes) :
    (takeChunks target slots chunks).1.flatten ++ (takeChunks target slots chunks).2.flatten = chunks.flatten := by
  induction chunks generalizing target slots with
  | nil => rfl
  | cons front rest ih =>
    rw [takeChunks]
    split_ifs with h1 h2 h3
    · rfl
    · rw [ih, flatten_cons, isEmpty_iff.1 h2, nil_append]
    · simp only [flatten_cons, append_assoc, ih]
    · simp only [flatten_cons, flatten_nil, append_nil, ← append_assoc, take_append_drop]

theorem takeChunks_ne_nil {target slots : Nat} {chunks : List Bytes} {chunk : Bytes}
    (h : chunk ∈ (takeChunks target slots chunks).1) : chunk ≠ [] := by
  induction chunks generalizing target slots with
  | nil => simp [takeChunks] at h
  | cons front rest ih => grind [takeChunks, length, length_take, length_nil]

theorem sliceChunks_collect (chunks : List Bytes) (wanted : Nat) :
    sliceChunks.collect chunks wanted = chunks.flatten.take wanted := by
  induction chunks generalizing wanted with
  | nil => simp [sliceChunks.collect]
  | cons chunk rest ih =>
    rw [sliceChunks.collect]
    split_ifs with h
    · simp [h]
    · rw [ih, flatten_cons, take_append]

theorem sliceChunks_eq {chunks : List Bytes} {start stop : Nat} (h : start ≤ stop) :
    sliceChunks chunks start stop = (chunks.flatten.take stop).drop start := by
  induction chunks generalizing start stop with
  | nil => simp [sliceChunks]
  | cons chunk rest ih =>
    rw [sliceChunks, flatten_cons, take_append, drop_append]
    split_ifs with h1 h2
    · grind [take_of_length_le, Nat.sub_le_sub_right, drop_eq_nil_of_le]
    · simp [Nat.sub_eq_zero_of_le h2]
    · have hall : chunk.take stop = chunk := take_of_length_le (by omega)
      rw [sliceChunks_collect, hall, Nat.sub_eq_zero_of_le (Nat.le_of_not_le h1), drop_zero]

/-- The segment is the piece of the stream at position `k`, at most `mss` bytes of data. -/
structure DataPiece (stream : Bytes) (mss : Nat) (k : Nat) (segment : ServerSegment) : Prop where
  payload : segment.payload = (stream.drop k).take segment.payload.length
  inside : k + segment.payload.length ≤ stream.length
  le_mss : segment.payload.length ≤ mss
  syn : segment.flags.syn = false
  fin : segment.flags.fin = false

variable {stream : Bytes} {mss : Nat} {isn : UInt32}

theorem DataPiece.len {k : Nat} {segment : ServerSegment} (h : DataPiece stream mss k segment) :
    serverSegmentLen segment = segment.payload.length := by
  simp [serverSegmentLen, h.syn, h.fin]

theorem DataPiece.same {k : Nat} {s t : ServerSegment} (hs : SameSegment s t)
    (h : DataPiece stream mss k s) : DataPiece stream mss k t where
  payload := by rw [hs.payload]; exact h.payload
  inside := by rw [hs.payload]; exact h.inside
  le_mss := by rw [hs.payload]; exact h.le_mss
  syn := hs.flags ▸ h.syn
  fin := hs.flags ▸ h.fin

theorem DataPiece.push {k : Nat} {segment : ServerSegment} (h : DataPiece stream mss k segment)
    (chunk : Bytes) : DataPiece (stream ++ chunk) mss k segment where
  payload := by
    have hin := h.inside
    rw [drop_append_of_le_length (by omega), take_append_of_le_length]
    · exact h.payload
    · rw [length_drop]
      omega
  inside := by
    have hin := h.inside
    rw [length_append]
    omega
  le_mss := h.le_mss
  syn := h.syn
  fin := h.fin

theorem Chain.payloads {base stop : Nat} {segments : List ServerSegment}
    (h : Chain isn (DataPiece stream mss) base segments stop) :
    (segments.map ServerSegment.payload).flatten = (stream.drop base).take (stop - base) := by
  induction h with
  | nil k => simp
  | @cons segment rest k stop _ _ hp htail ih =>
    have hle := htail.le
    rw [hp.len] at hle ih
    rw [map_cons, flatten_cons, ih, hp.payload, length_take, length_drop]
    have hmin : min segment.payload.length (stream.length - k) = segment.payload.length := by
      have := hp.inside
      omega
    rw [hmin, ← drop_drop, ← take_add]
    congr 1
    omega

structure CutPiece (template : ServerSegment) (chunks : List Bytes) (mss sent offset stop k : Nat)
    (segment : ServerSegment) : Prop where
  position : k = sent + offset
  lt : offset < stop
  le_total : stop ≤ chunksLen chunks
  le_mss : stop ≤ offset + mss
  eq : segment = { template with
      sequenceNumber := segment.sequenceNumber
      payload := (chunks.flatten.take stop).drop offset }

section Cut

variable {template segment : ServerSegment} {chunks : List Bytes} {sent offset stop k : Nat}

theorem CutPiece.length (h : CutPiece template chunks mss sent offset stop k segment) :
    segment.payload.length = stop - offset := by
  have hle := h.le_total
  rw [chunksLen_eq] at hle
  rw [h.eq, length_drop, length_take, Nat.min_eq_left hle]

theorem cutSegments_cut (isn : UInt32) (sent : Nat) (hmss : 0 < mss) (hsyn : template.flags.syn = false)
    (hfin : template.flags.fin = false) (fuel offset : Nat) (hoffset : offset ≤ chunksLen chunks)
    (hfuel : chunksLen chunks ≤ offset + fuel) :
    Chain isn (fun k s => ∃ offset stop, CutPiece template chunks mss sent offset stop k s) (sent + offset)
      (cutSegments template chunks mss fuel offset (point isn (sent + offset))) (sent + chunksLen chunks) := by
  induction fuel generalizing offset with
  | zero =>
    obtain rfl : offset = chunksLen chunks := by omega
    exact .nil _
  | succ fuel ih =>
    rw [cutSegments]
    split_ifs with hlt
    · have hstop : offset ≤ min (offset + mss) (chunksLen chunks) := by omega
      dsimp only
      rw [sliceChunks_eq hstop]
      have hpiece : CutPiece template chunks mss sent offset (min (offset + mss) (chunksLen chunks))
          (sent + offset)
          { template with
            sequenceNumber := point isn (sent + offset)
            payload := (chunks.flatten.take (min (offset + mss) (chunksLen chunks))).drop offset } :=
        ⟨rfl, by omega, by omega, by omega, rfl⟩
      have hlen : serverSegmentLen
          { template with
            sequenceNumber := point isn (sent + offset)
            payload := (chunks.flatten.take (min (offset + mss) (chunksLen chunks))).drop offset } =
          min (offset + mss) (chunksLen chunks) - offset := by
        simpa [serverSegmentLen, hsyn, hfin] using hpiece.length
      refine .cons rfl (by omega) ⟨_, _, hpiece⟩ ?_
      have hnext := ih (min (offset + mss) (chunksLen chunks)) (by omega) (by omega)
      have he : sent + min (offset + mss) (chunksLen chunks) =
          sent + offset + (min (offset + mss) (chunksLen chunks) - offset) := by omega
      rw [he, point_add] at hnext
      rw [hlen]
      exact hnext
    · obtain rfl : offset = chunksLen chunks := by omega
      exact .nil _

theorem CutPiece.dataPiece (h : CutPiece template chunks mss sent offset stop k segment)
    (hsyn : template.flags.syn = false) (hfin : template.flags.fin = false)
    (hbytes : chunks.flatten = (stream.drop sent).take (chunksLen chunks))
    (hin : sent + chunksLen chunks ≤ stream.length) : DataPiece stream mss k segment := by
  have hlen := h.length
  have hlt := h.lt
  have htotal := h.le_total
  have hmss := h.le_mss
  refine ⟨?_, ?_, by omega, ?_, ?_⟩
  · rw [hlen, h.eq, h.position, hbytes, take_take, Nat.min_eq_left htotal, drop_take, drop_drop]
  · rw [hlen, h.position]
    omega
  · rw [h.eq]
    exact hsyn
  · rw [h.eq]
    exact hfin

end Cut

def Carries (stream : Bytes) (isn : UInt32) (packet : OutPacket) : Prop :=
  ∃ k, packet.sequenceNumber = point isn k ∧ k + packet.payload.flatten.length ≤ stream.length ∧
    packet.payload.flatten = (stream.drop k).take packet.payload.flatten.length

theorem Carries.push {packet : OutPacket} (h : Carries stream isn packet) (chunk : Bytes) :
    Carries (stream ++ chunk) isn packet := by
  obtain ⟨k, hseq, hin, hbytes⟩ := h
  refine ⟨k, hseq, by rw [length_append]; omega, ?_⟩
  rw [drop_append_of_le_length (by omega), take_append_of_le_length]
  · exact hbytes
  · rw [length_drop]
    omega

def CarriesData (stream : Bytes) (isn : UInt32) (packet : OutPacket) : Prop :=
  Carries stream isn packet ∧ packet.flags.fin = false

def packetBytes (packets : List OutPacket) : Nat := (packets.map fun p => p.payload.flatten.length).sum

structure SendInv (stream : Bytes) (isn : UInt32) (sent : Nat) (state : TcpFlowState) : Prop where
  serverSeq : state.serverSeq = point isn sent
  sent_le : sent ≤ stream.length
  pending : state.pendingServerData.flatten = stream.drop sent
  total : state.pendingServerBytesTotal = chunksLen state.pendingServerData
  chain : ∃ base, Chain isn (DataPiece stream (serverMaxSegmentPayload state)) base
    state.unackedServerSegments sent

theorem serverMaxSegmentPayload_pos (state : TcpFlowState) : 0 < serverMaxSegmentPayload state := by
  have : 0 < maxServerSegmentPayload := by decide
  rw [serverMaxSegmentPayload]
  omega

theorem emitServerData_spec {state : TcpFlowState} {payload : List Bytes} {pacing : Bool}
    {mss available : Nat} {sentAt : Instant} {emitted : TcpFlowState × OutPacket}
    (hemit : emitServerData state payload pacing mss available sentAt = emitted) :
    emitted.1.serverSeq = state.serverSeq + UInt32.ofNat (chunksLen payload) ∧
      emitted.1.pendingServerData = state.pendingServerData ∧
      emitted.1.pendingServerBytesTotal = state.pendingServerBytesTotal ∧
      emitted.1.clientMaxSegmentSize = state.clientMaxSegmentSize ∧
      (∃ template : ServerSegment, template.flags.syn = false ∧ template.flags.fin = false ∧
        emitted.1.unackedServerSegments = state.unackedServerSegments ++
          cutSegments template payload mss (chunksLen payload) 0 state.serverSeq) ∧
      emitted.2.sequenceNumber = state.serverSeq ∧ emitted.2.payload = payload ∧ emitted.2.flags.fin = false := by
  have hpacket : emitted.2.sequenceNumber = state.serverSeq ∧ emitted.2.payload = payload ∧
      emitted.2.flags.fin = false := by
    rw [← hemit]
    simp only [emitServerData]
    split <;> exact ⟨rfl, rfl, rfl⟩
  subst hemit
  unfold emitServerData pushUnackedSegments resetZeroWindowPersist at hpacket ⊢
  by_cases hidle : state.pipeSegments = 0
  · rw [if_pos hidle]
    exact ⟨rfl, rfl, rfl, rfl, ⟨_, rfl, rfl, rfl⟩, hpacket⟩
  · rw [if_neg hidle]
    exact ⟨rfl, rfl, rfl, rfl, ⟨_, rfl, rfl, rfl⟩, hpacket⟩

variable {sent : Nat} {state s t : TcpFlowState}

theorem SendInv.taken (h : SendInv stream isn sent state) (target : Nat) :
    (takePendingServerPayload state target).1.flatten ++
      (takePendingServerPayload state target).2.pendingServerData.flatten = stream.drop sent :=
  (takeChunks_flatten target maxWritePayloadChunks state.pendingServerData).trans h.pending

theorem SendInv.emit (h : SendInv stream isn sent state) {target : Nat} {pacing : Bool} {available : Nat}
    {sentAt : Instant} {emitted : TcpFlowState × OutPacket}
    (hemit : emitServerData (takePendingServerPayload state target).2 (takePendingServerPayload state target).1
      pacing (serverMaxSegmentPayload state) available sentAt = emitted) :
    SendInv stream isn (sent + chunksLen (takePendingServerPayload state target).1) emitted.1 ∧
      CarriesData stream isn emitted.2 ∧
      emitted.2.payload.flatten.length = chunksLen (takePendingServerPayload state target).1 ∧
      serverMaxSegmentPayload emitted.1 = serverMaxSegmentPayload state := by
  have hsplit := h.taken target
  have htotal : (takePendingServerPayload state target).2.pendingServerBytesTotal =
      state.pendingServerBytesTotal - chunksLen (takePendingServerPayload state target).1 := rfl
  have hseq : (takePendingServerPayload state target).2.serverSeq = point isn sent := h.serverSeq
  have hqueue : (takePendingServerPayload state target).2.unackedServerSegments = state.unackedServerSegments := rfl
  have hmax : (takePendingServerPayload state target).2.clientMaxSegmentSize = state.clientMaxSegmentSize := rfl
  generalize (takePendingServerPayload state target).1 = taken at hemit hsplit htotal ⊢
  generalize (takePendingServerPayload state target).2 = left at hemit hsplit htotal hseq hqueue hmax
  obtain ⟨eseq, epending, etotal, emax, ⟨template, hsyn, hfin, echain⟩, pseq, ppayload, pfin⟩ :=
    emitServerData_spec hemit
  have hlen := congrArg length hsplit
  rw [length_append, length_drop, ← chunksLen_eq, ← chunksLen_eq] at hlen
  have hle := h.sent_le
  have hin : sent + chunksLen taken ≤ stream.length := by omega
  have hbytes : taken.flatten = (stream.drop sent).take (chunksLen taken) := by
    rw [← hsplit, chunksLen_eq, take_left]
  have hrest : left.pendingServerData.flatten = stream.drop (sent + chunksLen taken) := by
    rw [← drop_drop, ← hsplit, chunksLen_eq, drop_left]
  have hchunks : chunksLen state.pendingServerData = chunksLen taken + chunksLen left.pendingServerData := by
    rw [chunksLen_eq state.pendingServerData, h.pending, length_drop]
    omega
  have hmss : serverMaxSegmentPayload emitted.1 = serverMaxSegmentPayload state := by
    simp only [serverMaxSegmentPayload, emax, hmax]
  obtain ⟨base, hchain⟩ := h.chain
  refine ⟨⟨?_, hin, ?_, ?_, base, ?_⟩, ⟨⟨sent, ?_, ?_, ?_⟩, pfin⟩, ?_, hmss⟩
  · rw [eseq, hseq, point_add]
  · rw [epending, hrest]
  · have ht := h.total
    rw [etotal, epending, htotal]
    omega
  · rw [hmss, echain, hqueue, hseq]
    have hcut := cutSegments_cut isn sent (serverMaxSegmentPayload_pos state) hsyn hfin
      (chunksLen taken) 0 (Nat.zero_le _) (Nat.le_add_left _ _)
    refine hchain.append (hcut.mono fun k s hpiece => ?_)
    obtain ⟨_, _, hpiece⟩ := hpiece
    exact hpiece.dataPiece hsyn hfin hbytes hin
  · rw [pseq, hseq]
  · rw [ppayload, ← chunksLen_eq]
    exact hin
  · rw [ppayload, ← chunksLen_eq]
    exact hbytes
  · rw [ppayload, chunksLen_eq]

theorem SendInv.of_fields (h : SendInv stream isn sent s)
    (hseq : t.serverSeq = s.serverSeq) (hpending : t.pendingServerData = s.pendingServerData)
    (htotal : t.pendingServerBytesTotal = s.pendingServerBytesTotal)
    (hqueue : t.unackedServerSegments = s.unackedServerSegments)
    (hmss : serverMaxSegmentPayload t = serverMaxSegmentPayload s) : SendInv stream isn sent t := by
  obtain ⟨base, hchain⟩ := h.chain
  exact ⟨hseq.trans h.serverSeq, h.sent_le, hpending ▸ h.pending, by rw [htotal, hpending, h.total],
    base, by rw [hmss, hqueue]; exact hchain⟩

theorem SendInv.congr (h : SendInv stream isn sent s)
    (hdown : t.downSide = s.downSide) (hqueue : t.unackedServerSegments = s.unackedServerSegments) :
    SendInv stream isn sent t := by
  simp only [TcpFlowState.downSide, DownSide.mk.injEq] at hdown
  obtain ⟨-, hpending, -, -, hseq, htotal, hmax⟩ := hdown
  exact h.of_fields hseq hpending htotal hqueue (by simp only [serverMaxSegmentPayload, hmax])

theorem SendInv.flushServerData (h : SendInv stream isn sent state) (clock : Clock) :
    SendInv stream isn (sent + packetBytes (flushServerData state clock).2) (flushServerData state clock).1 ∧
      ∀ p ∈ (flushServerData state clock).2, CarriesData stream isn p := by
  have hrefill : SendInv stream isn sent (refilled state (clock.reading 0)) := h.congr rfl rfl
  refine (flushServerData_rounds state clock
    (I := fun s packets _ => (SendInv stream isn (sent + packetBytes packets) s ∧
      ∀ p ∈ packets, CarriesData stream isn p) ∧ serverMaxSegmentPayload s = serverMaxSegmentPayload state)
    (fun h hround => ?_) ⟨⟨hrefill, fun p hp => absurd hp not_mem_nil⟩, rfl⟩).elim fun _ h => h.1
  obtain ⟨⟨hsend, hall⟩, hmss⟩ := h
  cases hround with
  | drop hqueue =>
    -- an empty chunk holds no bytes
    have hpending := hsend.pending
    have htotal := hsend.total
    rw [hqueue] at hpending htotal
    exact ⟨⟨⟨hsend.serverSeq, hsend.sent_le, hpending, by simpa [chunksLen] using htotal, hsend.chain⟩, hall⟩, hmss⟩
  | wait => exact ⟨⟨hsend.congr rfl rfl, hall⟩, hmss⟩
  | emit _ _ hemit =>
    rw [← hmss] at hemit
    obtain ⟨hnext, hcarries, hbytes, hsame⟩ := hsend.emit hemit
    refine ⟨⟨?_, forall_mem_append.2 ⟨hall, by simpa using hcarries⟩⟩, hsame.trans hmss⟩
    rw [packetBytes, map_append, sum_append, map_singleton, sum_singleton, hbytes, ← Nat.add_assoc]
    exact hnext

structure FinInv (stream : Bytes) (isn : UInt32) (state : TcpFlowState) : Prop where
  serverSeq : state.serverSeq = point isn (stream.length + 1)
  pending : state.pendingServerData = []
  total : state.pendingServerBytesTotal = 0
  finPending : state.serverFinPending = false
  queue : ∀ segment ∈ state.unackedServerSegments, segment.sequenceNumber = point isn stream.length ∧
    segment.payload = [] ∧ segment.flags = { fin := true, ack := true }
  single : state.unackedServerSegments.length ≤ 1

theorem FinInv.congr (h : FinInv stream isn s) (hdown : t.downSide = s.downSide)
    (hqueue : t.unackedServerSegments <:+ s.unackedServerSegments) : FinInv stream isn t := by
  simp only [TcpFlowState.downSide, DownSide.mk.injEq] at hdown
  obtain ⟨-, hpending, hfin, -, hseq, htotal, -⟩ := hdown
  exact ⟨hseq.trans h.serverSeq, hpending.trans h.pending, htotal.trans h.total, hfin.trans h.finPending,
    fun segment hs => h.queue segment (hqueue.mem hs), hqueue.length_le.trans h.single⟩

theorem SendInv.sent_of_queue_nil (h : SendInv stream isn sent state)
    (hqueue : state.pendingServerData = []) : sent = stream.length := by
  have hbytes := h.pending
  rw [hqueue, flatten_nil] at hbytes
  have hle := drop_eq_nil_iff.1 hbytes.symm
  have := h.sent_le
  omega

theorem SendInv.emitFin {packet : OutPacket} (h : SendInv stream isn sent state) (clock : Clock)
    (hfin : (maybeEmitServerFin state clock).2 = some packet) :
    state.serverFinPending = true ∧ state.unackedServerSegments = [] ∧ state.pendingServerData = [] ∧
      FinInv stream isn (maybeEmitServerFin state clock).1 ∧
      packet.sequenceNumber = point isn stream.length ∧ packet.payload.flatten = [] ∧ packet.flags.fin = true := by
  unfold maybeEmitServerFin at hfin ⊢
  split at hfin
  · simp at hfin
  · rename_i hready
    rw [if_neg hready]
    simp only [Bool.or_eq_true, not_or, Bool.not_eq_true, Bool.not_eq_false, Bool.not_eq_eq_eq_not,
      Bool.not_true, ne_eq, isEmpty_eq_false_iff, not_not] at hready
    obtain ⟨⟨⟨⟨hpending, hqueue⟩, hunacked⟩, -⟩, -⟩ := hready
    have hsent := h.sent_of_queue_nil hqueue
    have hseq : state.serverSeq = point isn stream.length := hsent ▸ h.serverSeq
    obtain ⟨timestamps, hstatus⟩ := setFlowStatus_eq
      { state with serverSeq := state.serverSeq + 1, serverFinPending := false } (finStatus state.status)
      (clock.reading 0)
    dsimp only
    rw [hstatus]
    obtain rfl := Option.some.inj hfin
    refine ⟨hpending, hunacked, hqueue, ⟨?_, hqueue, ?_, rfl, fun segment hs => ?_, ?_⟩, hseq, rfl, rfl⟩
    · rw [point_succ, ← hseq]
    · rw [h.total, hqueue]
      rfl
    · grind [mem_singleton]
    · simp [hunacked]

theorem SendInv.probe (h : SendInv stream isn sent state) (now : Instant) :
    SendInv stream isn sent (maybeEmitZeroWindowProbe state now).1 ∧
      ∀ p ∈ (maybeEmitZeroWindowProbe state now).2, CarriesData stream isn p := by
  unfold maybeEmitZeroWindowProbe
  split
  · exact ⟨h, by simp⟩
  · split
    · exact ⟨h, by simp⟩
    · split
      · rename_i probeByte front rest hqueue
        refine ⟨h.congr rfl rfl, fun p hp => ?_⟩
        obtain rfl := Option.some.inj hp
        have hbytes := h.pending
        rw [hqueue, flatten_cons, cons_append] at hbytes
        have hlt : sent < stream.length := by grind [length, length_cons, length_drop]
        refine ⟨⟨sent, h.serverSeq, hlt, ?_⟩, rfl⟩
        simp only [buildFlowPacket, flatten_cons, flatten_nil, append_nil, ← hbytes]
        rfl
      · exact ⟨h, by simp⟩

section Resend

variable {index : Nat} {mark : ServerSegment → ServerSegment}

theorem SendInv.resend (h : SendInv stream isn sent state) (hmark : ∀ s, SameSegment s (mark s)) :
    SendInv stream isn sent (resendSegment state index mark).1 ∧
      ∀ p ∈ (resendSegment state index mark).2, CarriesData stream isn p := by
  unfold resendSegment
  cases hget : state.unackedServerSegments[index]? with
  | none => exact ⟨h, by simp⟩
  | some segment =>
    obtain ⟨base, hchain⟩ := h.chain
    obtain ⟨k, -, -, hseq, hpiece⟩ := hchain.mem (mem_of_getElem? hget)
    refine ⟨{ h with chain := ⟨base, hchain.set (fun _ _ _ hs hp => hp.same hs) index hmark hget⟩ }, fun p hp => ?_⟩
    obtain rfl := Option.some.inj hp
    refine ⟨⟨k, hseq, ?_, ?_⟩, hpiece.fin⟩
    · simpa [buildFlowDataPacket] using hpiece.inside
    · simpa [buildFlowDataPacket] using hpiece.payload

theorem FinInv.resend (h : FinInv stream isn state) (hmark : ∀ s, SameSegment s (mark s)) :
    FinInv stream isn (resendSegment state index mark).1 ∧
      ∀ p ∈ (resendSegment state index mark).2, p.sequenceNumber = point isn stream.length ∧
        p.payload.flatten = [] := by
  unfold resendSegment
  cases hget : state.unackedServerSegments[index]? with
  | none => exact ⟨h, by simp⟩
  | some segment =>
    obtain ⟨hseq, hpayload, hflags⟩ := h.queue segment (mem_of_getElem? hget)
    refine ⟨{ h with queue := fun s hs => ?_, single := ?_ }, fun p hp => ?_⟩
    · rcases mem_or_eq_of_mem_set hs with hs | rfl
      · exact h.queue s hs
      · have hsame := hmark segment
        exact ⟨hsame.sequenceNumber.trans hseq, hsame.payload.trans hpayload, hsame.flags.trans hflags⟩
    · exact (length_set ..).trans_le h.single
    · obtain rfl := Option.some.inj hp
      exact ⟨hseq, by simp [buildFlowDataPacket, hpayload]⟩

end Resend

structure SendQueue where
  serverSeq : UInt32
  pendingServerData : List Bytes
  pendingServerBytesTotal : Nat
  serverFinPending : Bool
  unackedServerSegments : List ServerSegment
  clientMaxSegmentSize : Option UInt16

def TcpFlowState.sendQueue (state : TcpFlowState) : SendQueue :=
  ⟨state.serverSeq, state.pendingServerData, state.pendingServerBytesTotal, state.serverFinPending,
    state.unackedServerSegments, state.clientMaxSegmentSize⟩

theorem SendInv.of_queue (h : SendInv stream isn sent s)
    (hq : t.sendQueue = s.sendQueue) : SendInv stream isn sent t := by
  simp only [TcpFlowState.sendQueue, SendQueue.mk.injEq] at hq
  obtain ⟨hseq, hpending, htotal, -, hunacked, hmax⟩ := hq
  exact h.of_fields hseq hpending htotal hunacked (by simp only [serverMaxSegmentPayload, hmax])

theorem FinInv.of_queue (h : FinInv stream isn s) (hq : t.sendQueue = s.sendQueue) :
    FinInv stream isn t := by
  simp only [TcpFlowState.sendQueue, SendQueue.mk.injEq] at hq
  obtain ⟨hseq, hpending, htotal, hfin, hunacked, -⟩ := hq
  exact ⟨hseq.trans h.serverSeq, hpending.trans h.pending, htotal.trans h.total, hfin.trans h.finPending,
    hunacked ▸ h.queue, hunacked ▸ h.single⟩

theorem SendInv.push (h : SendInv stream isn sent state) (chunk : Bytes) :
    SendInv (stream ++ chunk) isn sent (pushServerChunk state chunk) := by
  have hle := h.sent_le
  obtain ⟨base, hchain⟩ := h.chain
  refine ⟨h.serverSeq, by rw [length_append]; omega, ?_, ?_, base, hchain.mono fun _ _ hp => hp.push chunk⟩
  · rw [drop_append_of_le_length hle, ← h.pending]
    simp [pushServerChunk, chargePendingServer]
  · have htotal := h.total
    grind [pushServerChunk, chargePendingServer, chunksLen]

theorem SendInv.flushServerOutput (h : SendInv stream isn sent state) (clock : Clock) :
    let after := (Tcp.flushServerOutput state clock).1
    let flush := (Tcp.flushServerOutput state clock).2
    (SendInv stream isn (sent + packetBytes flush.dataPackets) after ∧
        after.serverFinPending = state.serverFinPending ∧ flush.finPacket = none ∧
        ∀ p ∈ flushPackets flush, CarriesData stream isn p) ∨
      FinInv stream isn after ∧ sent + packetBytes flush.dataPackets = stream.length ∧
        flush.probePacket = none ∧ state.serverFinPending = true ∧ (∃ fin, flush.finPacket = some fin) ∧
        ∀ p ∈ flushPackets flush, CarriesData stream isn p ∨
          (p.sequenceNumber = point isn stream.length ∧ p.payload.flatten = []) := by
  dsimp only
  unfold Tcp.flushServerOutput
  split
  · exact Or.inl ⟨h, rfl, rfl, by simp [flushPackets]⟩
  · obtain ⟨hdata, hpackets⟩ := h.flushServerData clock
    have hpending := serverFinPending_flushServerData state clock
    generalize Tcp.flushServerData state clock = flushed at hdata hpackets hpending ⊢
    obtain ⟨s1, dataPackets⟩ := flushed
    dsimp only at hdata hpackets hpending ⊢
    cases hfin : (maybeEmitServerFin s1 (clock.drop (dataPackets.length + 1))).2 with
    | none =>
      have hprobe := hdata.probe
      grind [maybeEmitServerFin, maybeEmitZeroWindowProbe, flushPackets]
    | some packet =>
      obtain ⟨hready, -, hqueue, hfinished, hseq, hpayload, -⟩ := hdata.emitFin _ hfin
      have hall := hdata.sent_of_queue_nil hqueue
      have hnoprobe : maybeEmitZeroWindowProbe (maybeEmitServerFin s1 (clock.drop (dataPackets.length + 1))).1
          (clock.reading (dataPackets.length + 3)) =
          ((maybeEmitServerFin s1 (clock.drop (dataPackets.length + 1))).1, none) := by
        simp [maybeEmitZeroWindowProbe, hfinished.pending]
      rw [hnoprobe]
      refine Or.inr ⟨hfinished, hall, rfl, hpending ▸ hready, ⟨packet, rfl⟩, fun p hp => ?_⟩
      simp only [flushPackets, Option.toList_none, Option.toList_some, append_nil, mem_append, mem_singleton] at hp
      rcases hp with hp | rfl
      · exact Or.inl (hpackets p hp)
      · exact Or.inr ⟨hseq, hpayload⟩

theorem sendQueue_eq (hdown : t.downSide = s.downSide)
    (hqueue : t.unackedServerSegments = s.unackedServerSegments) : t.sendQueue = s.sendQueue := by
  grind [TcpFlowState.downSide, TcpFlowState.sendQueue]

theorem FinInv.chain (h : FinInv stream isn state) :
    ∃ base, Chain isn (fun _ _ => True) base state.unackedServerSegments (stream.length + 1) ∧
      (state.unackedServerSegments.map ServerSegment.payload).flatten = stream.drop base := by
  have hsingle := h.single
  cases hq : state.unackedServerSegments with
  | nil => exact ⟨stream.length + 1, .nil _, by simp⟩
  | cons segment rest =>
    obtain ⟨hseq, hpayload, hflags⟩ := h.queue segment (by simp [hq])
    obtain rfl : rest = [] := length_eq_zero_iff.1 (by
      rw [hq, length_cons] at hsingle
      omega)
    have hlen : serverSegmentLen segment = 1 := by simp [serverSegmentLen, hpayload, hflags]
    refine ⟨stream.length, .cons hseq (by omega) trivial ?_, by simp [hpayload]⟩
    rw [hlen]
    exact .nil _

end OutlineProxy.Tcp
