import OutlineProxy.Tcp.Accounting

/-! Whole runs of the sender keep the in-flight accounting equal to the full scan. -/

namespace OutlineProxy.Tcp

open List Serial Spans

variable {origin : UInt32} {limit sent : Nat} {now : Instant} {state s t : TcpFlowState}

structure AccountInv (origin : UInt32) (limit sent : Nat) (now : Instant) (state : TcpFlowState) :
    Prop where
  tracked : ∃ acked spans, Tracked origin limit sent acked spans state.positions
  timed : Timed now state
  exact : Exact state

structure Ledger where
  positions : Positions
  pipeBytes : Nat
  pipeSegments : Nat
  earliestUnsackedSent : Option Instant
  unackedReordered : Bool
  firstTxMstamp : Instant

def TcpFlowState.ledger (state : TcpFlowState) : Ledger :=
  ⟨state.positions, state.pipeBytes, state.pipeSegments, state.earliestUnsackedSent,
    state.unackedReordered, state.firstTxMstamp⟩

section

variable (h : AccountInv origin limit sent now s)

include h

theorem AccountInv.of_ledger (he : t.ledger = s.ledger) :
    AccountInv origin limit sent now t := by
  simp only [TcpFlowState.ledger, TcpFlowState.positions, Ledger.mk.injEq, Positions.mk.injEq] at he
  obtain ⟨⟨hseq, hack, hqueue, hboard⟩, hbytes, hsegments, hearliest, hreordered, hfirst⟩ := he
  have hpositions : t.positions = s.positions := by
    simp only [TcpFlowState.positions, hseq, hack, hqueue, hboard]
  refine ⟨hpositions ▸ h.tracked, ⟨hfirst ▸ h.timed.firstTx, hqueue ▸ h.timed.segments⟩, ?_⟩
  refine ⟨?_, ?_, ?_, ?_⟩
  · rw [hbytes, hqueue, hboard, h.exact.pipeBytes]
  · rw [hsegments, hqueue, hboard, h.exact.pipeSegments]
  · rw [hearliest, hqueue, hboard, h.exact.earliest]
  · rw [hqueue, hreordered]
    exact h.exact.reordered

theorem AccountInv.later {later : Instant} (hle : now ≤ later) :
    AccountInv origin limit sent later s := by
  refine ⟨h.tracked, ⟨h.timed.firstTx.trans hle, fun x hx => ?_⟩, h.exact⟩
  obtain ⟨hsnapshot, hsent, hlast⟩ := h.timed.segments x hx
  exact ⟨hsnapshot, hsent.trans hle, hlast.trans hle⟩

theorem AccountInv.sends {bytes : Nat} {sentAt : Instant}
    (hsends : Sends origin sent bytes sentAt s t) (hnow : now ≤ sentAt) (hlimit : sent + bytes ≤ limit) :
    AccountInv origin limit (sent + bytes) sentAt t := by
  obtain ⟨acked, spans, htracked⟩ := h.tracked
  exact ⟨⟨acked, spans, hsends.tracked htracked hlimit⟩, hsends.timed h.timed hnow,
    hsends.exact htracked h.timed hnow h.exact hlimit⟩

theorem AccountInv.serverSeq : s.serverSeq = point origin sent := by
  obtain ⟨_, _, htracked⟩ := h.tracked
  exact htracked.serverSeq

end

theorem chunksLen_takeChunks_le (target slots : Nat) (chunks : List Bytes) :
    chunksLen (takeChunks target slots chunks).1 ≤ target := by
  induction chunks generalizing target slots with
  | nil => exact Nat.zero_le _
  | cons front rest ih =>
    rw [takeChunks]
    split_ifs with hstop hempty hfits
    · exact Nat.zero_le _
    · exact ih target slots
    · have hrest := ih (target - front.length) (slots - 1)
      simp only [chunksLen, map_cons, sum_cons] at hrest ⊢
      omega
    · simp [chunksLen]

theorem chunksLen_pos_of_taken {target : Nat} (hne : (takePendingServerPayload state target).1 ≠ []) :
    0 < chunksLen (takePendingServerPayload state target).1 := by
  obtain ⟨chunk, rest, hcons⟩ := exists_cons_of_ne_nil hne
  have hchunk : chunk ≠ [] := by
    have hmem : chunk ∈ (takeChunks target maxWritePayloadChunks state.pendingServerData).1 := by
      change chunk ∈ (takePendingServerPayload state target).1
      rw [hcons]
      exact mem_cons_self
    exact takeChunks_ne_nil hmem
  have := length_pos_iff.2 hchunk
  rw [hcons, chunksLen, map_cons, sum_cons]
  omega

theorem ledger_maybeEmitZeroWindowProbe (state : TcpFlowState) (now : Instant) :
    (maybeEmitZeroWindowProbe state now).1.ledger = state.ledger := by
  obtain ⟨_, _, hprobe⟩ := maybeEmitZeroWindowProbe_eq state now
  rw [hprobe]
  rfl

section Flush

variable {clock : Clock} {I : Nat → Instant → TcpFlowState → Prop}

/-- A property of the sender, of its position and of the time, that survives everything a flush is
made of: sends up to `limit` and steps that leave the ledger alone. -/
structure SendRule (origin : UInt32) (limit : Nat) (I : Nat → Instant → TcpFlowState → Prop) : Prop where
  serverSeq : ∀ {sent now s}, I sent now s → s.serverSeq = point origin sent
  later : ∀ {sent now later s}, I sent now s → now ≤ later → I sent later s
  quiet : ∀ {sent now s t}, I sent now s → t.ledger = s.ledger → I sent now t
  sends : ∀ {sent bytes now sentAt s t}, I sent now s → Sends origin sent bytes sentAt s t →
    now ≤ sentAt → sent + bytes ≤ limit → I (sent + bytes) sentAt t

theorem accountInv_sendRule : SendRule origin limit (AccountInv origin limit) where
  serverSeq h := h.serverSeq
  later h hle := h.later hle
  quiet h he := h.of_ledger he
  sends h hsends hnow hlimit := h.sends hsends hnow hlimit

theorem SendRule.flushServerData (rule : SendRule origin limit I) (h : I sent now state)
    (hnow : now ≤ clock.start) (hlimit : sent + (sendWindowRemaining state).toNat ≤ limit) :
    ∃ sent', sent' ≤ sent + (sendWindowRemaining state).toNat ∧
      I sent' (clock.reading (flushServerData state clock).2.length) (flushServerData state clock).1 := by
  have hrefill : I sent (clock.reading 0) (refilled state (clock.reading 0)) :=
    rule.later (rule.quiet h rfl) (hnow.trans (clock.start_le 0))
  have havailable : availableWindow (refilled state (clock.reading 0)) ≤
      (sendWindowRemaining state).toNat := Nat.min_le_left _ _
  refine (flushServerData_rounds state clock (I := fun s packets left =>
    ∃ sent', sent' + left ≤ sent + (sendWindowRemaining state).toNat ∧ I sent' (clock.reading packets.length) s)
    (fun {s packets available _ _ _} h hround => ?_) ⟨sent, by omega, hrefill⟩).elim
      fun left ⟨sent', hsent', hinv⟩ => ⟨sent', by omega, hinv⟩
  obtain ⟨sent', hsent', hinv⟩ := h
  cases hround with
  | drop | wait => exact ⟨sent', hsent', rule.quiet hinv rfl⟩
  | @emit target pacing _ hle htaken hemit =>
    have hpos := chunksLen_pos_of_taken htaken
    have hshort : chunksLen (takePendingServerPayload s target).1 ≤ target := chunksLen_takeChunks_le ..
    have hleft := rule.quiet (t := (takePendingServerPayload s target).2) hinv rfl
    refine ⟨sent' + chunksLen (takePendingServerPayload s target).1, by omega, ?_⟩
    rw [length_append, ← hemit]
    exact rule.sends hleft (emitServerData_sends (rule.serverSeq hleft) hpos
      (serverMaxSegmentPayload_pos state) pacing available) (clock.mono (Nat.le_succ _)) (by omega)

theorem SendRule.flushServerOutput (rule : SendRule origin limit I) (h : I sent now state)
    (hnow : now ≤ clock.start) (hlimit : sent + (sendWindowRemaining state).toNat + 1 ≤ limit) :
    ∃ sent', I sent' clock.stop (flushServerOutput state clock).1 := by
  unfold Tcp.flushServerOutput
  split
  · exact ⟨sent, rule.later h (hnow.trans ((clock.start_le 0).trans (clock.le_stop 0)))⟩
  · obtain ⟨sent', hsent', hdata⟩ := rule.flushServerData h hnow (by omega)
    generalize Tcp.flushServerData state clock = flushed at hdata ⊢
    obtain ⟨s1, dataPackets⟩ := flushed
    dsimp only at hdata ⊢
    rcases maybeEmitServerFin_sends (rule.serverSeq hdata) (clock.drop (dataPackets.length + 1)) with
      hsame | hsends
    · rw [hsame]
      exact ⟨sent', rule.later (rule.quiet hdata (ledger_maybeEmitZeroWindowProbe ..)) (clock.le_stop _)⟩
    · have hmono : clock.reading dataPackets.length ≤ (clock.drop (dataPackets.length + 1)).reading 1 :=
        clock.mono (by omega)
      have hfin := rule.sends hdata hsends hmono (by omega)
      exact ⟨sent' + 1, rule.later (rule.quiet hfin (ledger_maybeEmitZeroWindowProbe ..))
        ((clock.drop (dataPackets.length + 1)).le_stop 1)⟩

end Flush

section Ack

variable {ack : Nat} {blocks : List (UInt32 × UInt32)} {clock : Clock}

theorem AccountInv.settle (h : AccountInv origin limit sent now s) : AccountInv origin sent sent now s := by
  obtain ⟨acked, spans, htracked⟩ := h.tracked
  obtain ⟨base, hbase, hchain⟩ := htracked.queue
  have hle := htracked.sent_le
  have hacked := htracked.acked_near
  refine ⟨⟨acked, spans, htracked.far, le_rfl, htracked.serverSeq, htracked.lastClientAck, by omega,
    htracked.acked_le, ⟨base, by omega, hchain⟩, htracked.board, htracked.apart, fun x hx => ?_⟩, h.timed, h.exact⟩
  obtain ⟨hlo, hne, hhi⟩ := htracked.proper x hx
  exact ⟨(Nat.sub_le_sub_right (Nat.succ_le_succ hle) _).trans hlo, hne, hhi⟩

theorem exact_ackUpdated (h : Exact state) (acknowledgementNumber : UInt32)
    (blocks : List (UInt32 × UInt32)) : Exact (ackUpdated state acknowledgementNumber blocks) := by
  unfold ackUpdated
  dsimp only
  split_ifs with hadvanced
  · exact exact_rebuildUnackedAccounting _
  · have hsame : (updateSackScoreboard state.sackScoreboard acknowledgementNumber blocks).1 = state.sackScoreboard := by
      grind [updateSackScoreboard]
    rw [hsame]
    exact h

theorem timed_ackUpdated (h : Timed now state) (acknowledgementNumber : UInt32)
    (blocks : List (UInt32 × UInt32)) : Timed now (ackUpdated state acknowledgementNumber blocks) := by
  unfold ackUpdated
  dsimp only
  split_ifs <;> exact ⟨h.firstTx, h.segments⟩

theorem AccountInv.ackUpdated (h : AccountInv origin sent sent now state) (hle : ack ≤ sent)
    (hnear : sent < ack + 2 ^ 31) (hblocks : ∀ b ∈ blocks, seqGt b.2 state.serverSeq = false) :
    AccountInv origin sent sent now (ackUpdated state (point origin ack) blocks) := by
  obtain ⟨acked, spans, htracked⟩ := h.tracked
  have hpositions : (Tcp.ackUpdated state (point origin ack) blocks).positions = { state.positions with
        board := (updateSackScoreboard state.sackScoreboard (point origin ack) blocks).1 } := by
    unfold Tcp.ackUpdated
    dsimp only
    split_ifs <;> rfl
  refine ⟨?_, timed_ackUpdated h.timed _ _, exact_ackUpdated h.exact _ _⟩
  rw [hpositions]
  have hboard : state.sackScoreboard = toBoard origin spans := htracked.board
  have hseq : state.serverSeq = point origin sent := htracked.serverSeq
  rw [hseq] at hblocks
  rcases updateSackScoreboard_spans (by omega : sent < sent + 1 - 2 ^ 31 + 2 ^ 31)
      (⟨by omega, hle⟩ : sent + 1 - 2 ^ 31 ≤ ack ∧ ack ≤ sent) htracked.proper hblocks with
    hsame | ⟨next, hnext, hapart, hproper⟩
  · rw [hboard, hsame]
    exact ⟨acked, spans, { htracked with board := rfl }⟩
  · rw [hboard, hnext]
    exact ⟨acked, next, { htracked with board := rfl, apart := hapart, proper := hproper }⟩

def Beyond (origin : UInt32) (sent ack : Nat) (segments : List ServerSegment) : Prop :=
  ∀ x ∈ segments, ∃ k, x.sequenceNumber = point origin k ∧ 0 < serverSegmentLen x ∧ sent < k + 2 ^ 31 ∧
    k + serverSegmentLen x ≤ sent ∧ ack < k + serverSegmentLen x

theorem Chain.toBeyond {base : Nat} {segments : List ServerSegment}
    (h : Chain origin (fun k x => ack < k + serverSegmentLen x) base segments sent)
    (hbase : sent < base + 2 ^ 31) : Beyond origin sent ack segments := by
  intro x hx
  obtain ⟨k, hk, hstop, hseq, hbeyond⟩ := h.mem hx
  exact ⟨k, hseq, h.len_pos hx, by omega, hstop, hbeyond⟩

theorem AccountInv.ackTrimmed (h : AccountInv origin sent sent now state) (hle : ack ≤ sent)
    (hnear : sent < ack + 2 ^ 31) (hbeyond : Beyond origin sent ack state.unackedServerSegments) :
    AccountInv origin sent sent now (ackTrimmed state (point origin ack)) := by
  obtain ⟨acked, spans, htracked⟩ := h.tracked
  have hboard : state.sackScoreboard = toBoard origin spans := htracked.board
  have hw : sent < sent + 1 - 2 ^ 31 + 2 ^ 31 := by omega
  obtain ⟨kept, hkept, hapart, hproper, hwhole⟩ := trimSackScoreboard_spans hw
    (⟨by omega, hle⟩ : sent + 1 - 2 ^ 31 ≤ ack ∧ ack ≤ sent) htracked.apart htracked.proper
  rw [← hboard] at hkept hwhole
  have hpositions : (Tcp.ackTrimmed state (point origin ack)).positions =
      { state.positions with board := toBoard origin kept } := by
    unfold Tcp.ackTrimmed
    dsimp only
    rw [← hkept]
    split_ifs <;> rfl
  have hnext : Tracked origin sent sent acked kept (Tcp.ackTrimmed state (point origin ack)).positions := by
    rw [hpositions]
    refine { htracked with board := rfl, apart := hapart, proper := fun x hx => ?_ }
    obtain ⟨hlo, hne, hhi⟩ := hproper x hx
    exact ⟨(by omega : sent + 1 - 2 ^ 31 ≤ ack).trans hlo, hne, hhi⟩
  have htimed : Timed now (Tcp.ackTrimmed state (point origin ack)) := by
    unfold Tcp.ackTrimmed
    dsimp only
    split_ifs <;> exact ⟨h.timed.firstTx, h.timed.segments⟩
  refine ⟨⟨acked, kept, hnext⟩, htimed, ?_⟩
  have hqueue : (Tcp.ackTrimmed state (point origin ack)).unackedServerSegments =
      state.unackedServerSegments := congrArg Positions.segments hpositions
  cases hclipped : (trimSackScoreboard state.sackScoreboard (point origin ack)).2 with
  | true =>
    unfold Tcp.ackTrimmed
    dsimp only
    rw [if_pos hclipped]
    exact exact_rebuildUnackedAccounting _
  | false =>
    have hsame : inPipe (Tcp.ackTrimmed state (point origin ack)).sackScoreboard
        (Tcp.ackTrimmed state (point origin ack)).unackedServerSegments =
        inPipe state.sackScoreboard state.unackedServerSegments := by
      rw [hqueue]
      refine filter_congr fun x hx => ?_
      obtain ⟨k, hseq, hpos, hk, hstop, hend⟩ := hbeyond x hx
      have hiff : segmentIsSackedIn (Tcp.ackTrimmed state (point origin ack)).sackScoreboard x = true ↔
          segmentIsSackedIn state.sackScoreboard x = true := by
        refine (hnext.sacked_iff hseq hpos hk hstop).trans
          (Iff.trans ?_ (htracked.sacked_iff hseq hpos hk hstop).symm)
        rw [hwhole hclipped]
        exact covers_filter_iff _ (fun s _ => by simp) hend
      rw [Bool.eq_iff_iff.2 hiff]
    obtain ⟨hbytes, hsegments, hearliest, hreordered⟩ := exact_iff.1 h.exact
    rw [exact_iff, hsame, hqueue]
    unfold Tcp.ackTrimmed
    dsimp only
    rw [if_neg (by simp [hclipped])]
    exact ⟨hbytes, hsegments, hearliest, hreordered⟩

theorem exact_refreshEarliestAfterPop
    (h : PipeCounts state.sackScoreboard state.unackedServerSegments state.pipeBytes state.pipeSegments)
    (hreordered : ¬(sendTimes state.unackedServerSegments).Pairwise (· ≤ ·) → state.unackedReordered = true) :
    Exact (refreshEarliestAfterPop state) := by
  obtain ⟨hbytes, hcount⟩ := h
  unfold refreshEarliestAfterPop
  split_ifs with hempty hflag
  · rw [List.isEmpty_iff] at hempty
    refine exact_iff.2 ⟨hbytes, hcount, ?_, fun hnot => absurd ?_ hnot⟩
    · simp [hempty, inPipe, sendTimes]
    · simp [hempty, sendTimes]
  · exact exact_rebuildUnackedAccounting _
  · have hsorted : (sendTimes state.unackedServerSegments).Pairwise (· ≤ ·) := by
      by_contra hnot
      exact hflag (hreordered hnot)
    exact exact_iff.2 ⟨hbytes, hcount, earliest_of_pairwise hsorted, hreordered⟩

theorem refreshEarliestAfterPop_frame (state : TcpFlowState) :
    (refreshEarliestAfterPop state).positions = state.positions ∧
      (refreshEarliestAfterPop state).firstTxMstamp = state.firstTxMstamp := by
  unfold refreshEarliestAfterPop
  split_ifs <;> exact ⟨rfl, rfl⟩

theorem ledger_advanceServerAck (state : TcpFlowState) (acknowledgementNumber : UInt32) (clock : Clock) :
    (advanceServerAck state acknowledgementNumber clock).1.ledger =
      (refreshEarliestAfterPop (popAcked acknowledgementNumber clock 0 state.unackedServerSegments
        { state with lastClientAck := acknowledgementNumber, duplicateAckCount := 0 } {}).1).ledger := by
  simp only [advanceServerAck]
  split
  · split <;> rfl
  · rfl

theorem ledger_duplicateServerAck (state : TcpFlowState) (advanced : Bool) :
    (duplicateServerAck state advanced).1.ledger = state.ledger := by
  simp only [duplicateServerAck]
  split_ifs <;> rfl

section

variable (h : AccountInv origin sent sent now state)

include h

theorem AccountInv.advance (hle : ack ≤ sent) (hnear : sent < ack + 2 ^ 31) :
    AccountInv origin sent sent now (advanceServerAck state (point origin ack) clock).1 ∧
      Beyond origin sent ack (advanceServerAck state (point origin ack) clock).1.unackedServerSegments := by
  obtain ⟨acked, spans, htracked⟩ := h.tracked
  obtain ⟨base, hbase, hchain⟩ := htracked.queue
  obtain ⟨hbytes, hcount, -, hreordered⟩ := exact_iff.1 h.exact
  have hcounts : PipeCounts state.sackScoreboard state.unackedServerSegments state.pipeBytes
      state.pipeSegments := ⟨hbytes, hcount⟩
  obtain ⟨rest, bytes, count, stamp, hsuffix, hpipe, hhead, hstamp, hpop⟩ := @popAcked_spec (point origin ack) clock
      { state with lastClientAck := point origin ack, duplicateAckCount := 0 } _ 0 {} hcounts
  obtain ⟨start, hstart, hrest⟩ := hchain.suffix hsuffix
  have hbeyond : Chain origin (fun k x => ack < k + serverSegmentLen x) start rest sent := by
    refine hrest.beyond fun x hx => ?_
    obtain ⟨hseq, hstop⟩ := hrest.head hx
    have hshort := hhead x hx
    rw [serverSegmentEnd_point hseq, seqGe_point origin (by omega) (by omega)] at hshort
    simpa using hshort
  let popped : TcpFlowState := { state with
    lastClientAck := point origin ack, duplicateAckCount := 0, unackedServerSegments := rest,
    pipeBytes := bytes, pipeSegments := count, firstTxMstamp := stamp }
  have hexact : Exact (refreshEarliestAfterPop popped) := by
    refine exact_refreshEarliestAfterPop hpipe fun hnot => hreordered fun hsorted => hnot ?_
    exact hsorted.sublist (hsuffix.sublist.map _)
  obtain ⟨hpositions, hfirst⟩ := refreshEarliestAfterPop_frame popped
  have hinv : AccountInv origin sent sent now (refreshEarliestAfterPop popped) := by
    refine ⟨⟨ack, spans, ?_⟩, ⟨?_, fun x hx => ?_⟩, hexact⟩
    · rw [hpositions]
      exact { htracked with
        lastClientAck := rfl, acked_near := hnear, acked_le := hle, queue := ⟨start, by omega, hbeyond⟩ }
    · rw [hfirst]
      exact hstamp now h.timed.firstTx fun x hx => (h.timed.segments x hx).2.2
    · rw [unacked_refreshEarliestAfterPop] at hx
      exact h.timed.segments x (hsuffix.mem hx)
  have hledger := ledger_advanceServerAck state (point origin ack) clock
  rw [hpop] at hledger
  refine ⟨hinv.of_ledger hledger, ?_⟩
  have hqueue : (advanceServerAck state (point origin ack) clock).1.unackedServerSegments = rest :=
    (congrArg (fun l => l.positions.segments) hledger).trans (congrArg Positions.segments hpositions)
  rw [hqueue]
  exact hbeyond.toBeyond (by omega)

theorem AccountInv.ackBranch (hle : ack ≤ sent) (hnear : sent < ack + 2 ^ 31) (advanced : Bool) (clock : Clock) :
    AccountInv origin sent sent now (ackBranch state advanced (point origin ack) clock).1 ∧ Beyond origin sent ack
        (ackBranch state advanced (point origin ack) clock).1.unackedServerSegments := by
  obtain ⟨acked, spans, htracked⟩ := h.tracked
  obtain ⟨base, hbase, hchain⟩ := htracked.queue
  have hlast : state.lastClientAck = point origin acked := htracked.lastClientAck
  have hacked := htracked.acked_near
  have hacked' := htracked.acked_le
  have hold : ack ≤ acked → Beyond origin sent ack state.unackedServerSegments := by
    intro hstale
    have hbeyond : Chain origin (fun k x => ack < k + serverSegmentLen x) base state.unackedServerSegments sent :=
      hchain.mono fun k x hx => by omega
    exact hbeyond.toBeyond hbase
  unfold Tcp.ackBranch
  split_ifs with hempty habove hequal
  · rw [List.isEmpty_iff] at hempty
    refine ⟨⟨⟨ack, spans, htracked.far, le_rfl, htracked.serverSeq, rfl, hnear, hle, ⟨sent, by omega, ?_⟩,
      htracked.board, htracked.apart, htracked.proper⟩, ⟨h.timed.firstTx, h.timed.segments⟩,
      ⟨h.exact.pipeBytes, h.exact.pipeSegments, h.exact.earliest, h.exact.reordered⟩⟩, ?_⟩
    · rw [hempty]
      exact .nil sent
    · intro x hx
      simp [hempty] at hx
  · exact h.advance hle hnear
  · have heq : point origin ack = point origin acked := (beq_iff_eq.1 hequal).trans hlast
    have hsame : ack = acked := (point_inj (by omega) (by omega)).1 heq
    refine ⟨h.of_ledger (ledger_duplicateServerAck ..), ?_⟩
    rw [unacked_duplicateServerAck]
    exact hold hsame.le
  · rw [hlast, seqGt_point origin (by omega) (by omega)] at habove
    exact ⟨h, hold (by simpa using habove)⟩

theorem AccountInv.processServerAck (clock : Clock) (hle : ack ≤ sent)
    (hnear : sent < ack + 2 ^ 31) (hblocks : ∀ b ∈ blocks, seqGt b.2 state.serverSeq = false) :
    AccountInv origin sent sent now (processServerAck state (point origin ack) blocks clock).1 := by
  have hupdated := h.ackUpdated hle hnear hblocks
  have hbranch := hupdated.ackBranch hle hnear
    (updateSackScoreboard state.sackScoreboard (point origin ack) blocks).2 clock
  exact hbranch.1.ackTrimmed hle hnear hbranch.2

end

end Ack

theorem AccountInv.resend {index : Nat} {mark : ServerSegment → ServerSegment} {later : Instant}
    (h : AccountInv origin sent sent now state) (hnow : now ≤ later) (hmark : ∀ x, SameSegment x (mark x))
    (hstamps : ∀ x, (mark x).firstTxSnapshot = x.firstTxSnapshot ∧ (mark x).firstSent = x.firstSent ∧
      (mark x).lastSent ≤ later) :
    AccountInv origin sent sent later (resendSegment state index mark).1 := by
  unfold resendSegment
  cases hget : state.unackedServerSegments[index]? with
  | none => exact h.later hnow
  | some segment =>
    obtain ⟨acked, spans, htracked⟩ := h.tracked
    obtain ⟨base, hbase, hchain⟩ := htracked.queue
    have hset := hchain.set (fun k x y hsame hx => by rw [hsame.len]; exact hx) index hmark hget
    refine ⟨⟨acked, spans, { htracked with queue := ⟨base, hbase, hset⟩ }⟩,
      ⟨h.timed.firstTx.trans hnow, fun x hx => ?_⟩, exact_rebuildUnackedAccounting _⟩
    rcases mem_or_eq_of_mem_set hx with hx | rfl
    · obtain ⟨hsnapshot, hsent, hlast⟩ := h.timed.segments x hx
      exact ⟨hsnapshot, hsent.trans hnow, hlast.trans hnow⟩
    · obtain ⟨hsnapshot, hsent, -⟩ := h.timed.segments segment (mem_of_getElem? hget)
      obtain ⟨hs, hf, hl⟩ := hstamps segment
      exact ⟨by rw [hs, hf]; exact hsnapshot, by rw [hf]; exact hsent.trans hnow, hl⟩

def TcpFlowState.trackedNumbers (state : TcpFlowState) : List UInt32 :=
  state.lastClientAck :: (state.sackScoreboard.map SequenceRange.start ++
    state.unackedServerSegments.map ServerSegment.sequenceNumber)

theorem AccountInv.widen (h : AccountInv origin sent sent now state) {room : Nat}
    (hroom : ∀ x ∈ state.trackedNumbers, (state.serverSeq - x).toNat + room < 2 ^ 31) :
    AccountInv origin (sent + room) sent now state := by
  obtain ⟨acked, spans, htracked⟩ := h.tracked
  obtain ⟨base, hbase, hchain⟩ := htracked.queue
  have hseq : state.serverSeq = point origin sent := htracked.serverSeq
  have hdist : ∀ k, k ≤ sent → sent < k + 2 ^ 31 → point origin k ∈ state.trackedNumbers →
      sent + room < k + 2 ^ 31 := by
    intro k hk hnear hm
    have hclose := hroom _ hm
    rw [hseq, toNat_point_sub_point origin hk (by omega)] at hclose
    omega
  have hack : sent + room < acked + 2 ^ 31 := by
    refine hdist acked htracked.acked_le htracked.acked_near ?_
    rw [← show state.lastClientAck = point origin acked from htracked.lastClientAck]
    exact mem_cons_self
  have hqueue : ∃ base, sent + room < base + 2 ^ 31 ∧
      Chain origin (fun k s => acked < k + serverSegmentLen s) base state.unackedServerSegments sent := by
    cases hhead : state.unackedServerSegments.head? with
    | none =>
      have hacked := htracked.acked_le
      rw [head?_eq_none_iff.1 hhead]
      exact ⟨sent, by omega, .nil sent⟩
    | some x =>
      obtain ⟨hx, hstop⟩ := hchain.head hhead
      refine ⟨base, hdist base hchain.le hbase ?_, hchain⟩
      rw [← hx]
      exact mem_cons_of_mem _ (mem_append_right _ (mem_map_of_mem (mem_of_head? hhead)))
  refine ⟨⟨acked, spans, htracked.far, Nat.le_add_right _ _, htracked.serverSeq, htracked.lastClientAck,
    hack, htracked.acked_le, hqueue, htracked.board, htracked.apart, fun x hx => ?_⟩, h.timed, h.exact⟩
  obtain ⟨hlo, hne, hhi⟩ := htracked.proper x hx
  have hboard : state.sackScoreboard = toBoard origin spans := htracked.board
  have hm : point origin x.1 ∈ state.trackedNumbers := by
    refine mem_cons_of_mem _ (mem_append_left _ ?_)
    rw [hboard]
    exact mem_map.2 ⟨toRange origin x, mem_map_of_mem hx, rfl⟩
  have hnear := hdist x.1 (by omega) (by omega) hm
  exact ⟨Nat.sub_le_of_le_add (Nat.succ_le_of_lt hnear), hne, hhi⟩

theorem AccountInv.point_back (h : AccountInv origin sent sent now state) {number : UInt32}
    (hnear : (state.serverSeq - number).toNat < 2 ^ 31) :
    number = point origin (sent - (state.serverSeq - number).toNat) ∧ (state.serverSeq - number).toNat ≤ sent := by
  obtain ⟨acked, spans, htracked⟩ := h.tracked
  have hfar := htracked.far
  have hle : (state.serverSeq - number).toNat ≤ sent := by omega
  have hback : point origin (sent - (state.serverSeq - number).toNat) +
      UInt32.ofNat (state.serverSeq - number).toNat = state.serverSeq := by
    rw [← point_add, Nat.sub_add_cancel hle, h.serverSeq]
  rw [UInt32.ofNat_toNat] at hback
  refine ⟨?_, hle⟩
  rw [← add_sub_cancel_right (point origin _) (state.serverSeq - number), hback, sub_sub_cancel]

inductive AccountStep where
  | flush
  | ack (acknowledgementNumber : UInt32) (sackBlocks : List (UInt32 × UInt32))
  | fastRetransmit
  | timeoutRetransmit

/-- Runs of the sender from the end of the handshake on, every step of which meets `ok`.  `now` is
the time the run has reached; a step that leaves the ledger alone may be anything. -/
inductive AccountRun (ok : TcpFlowState → AccountStep → Prop) : Instant → TcpFlowState → Prop
  | start {now : Instant} {state : TcpFlowState} : state.unackedServerSegments = [] →
      state.sackScoreboard = [] → state.pipeBytes = 0 → state.pipeSegments = 0 →
      state.earliestUnsackedSent = none → state.lastClientAck = state.serverSeq →
      state.firstTxMstamp ≤ now → AccountRun ok now state
  | flush {now : Instant} {state : TcpFlowState} (clock : Clock) : AccountRun ok now state →
      now ≤ clock.start → ok state .flush → AccountRun ok clock.stop (flushServerOutput state clock).1
  | ack {now : Instant} {state : TcpFlowState} (number : UInt32) (blocks : List (UInt32 × UInt32))
      (clock : Clock) : AccountRun ok now state → now ≤ clock.start → ok state (.ack number blocks) →
      AccountRun ok clock.stop (processServerAck state number blocks clock).1
  | fastRetransmit {now : Instant} {state : TcpFlowState} (clock : Clock) : AccountRun ok now state →
      now ≤ clock.start → ok state .fastRetransmit →
      AccountRun ok clock.stop (retransmitOldestUnackedPacket state clock).1
  | timeoutRetransmit {now : Instant} {state : TcpFlowState} (clock : Clock) : AccountRun ok now state →
      now ≤ clock.start → ok state .timeoutRetransmit →
      AccountRun ok clock.stop (retransmitDueSegment state clock).1
  | other {now later : Instant} {s t : TcpFlowState} : AccountRun ok now s → now ≤ later →
      t.ledger = s.ledger → AccountRun ok later t

/-- Every number a step compares lies in one half of the number space, and no SACK block names a
byte that has not been sent. -/
def Unambiguous (state : TcpFlowState) : AccountStep → Prop
  | .flush => ∀ x ∈ state.trackedNumbers,
      (state.serverSeq - x).toNat + ((sendWindowRemaining state).toNat + 1) < 2 ^ 31
  | .ack number blocks => (state.serverSeq - number).toNat < 2 ^ 31 ∧
      ∀ block ∈ blocks, seqGt block.2 state.serverSeq = false
  | .fastRetransmit | .timeoutRetransmit => True

-- Both are computed by going through the list: the words themselves are too many to enumerate.
theorem unambiguous_flush_of_all (h : state.trackedNumbers.all (fun x =>
      (state.serverSeq - x).toNat + ((sendWindowRemaining state).toNat + 1) < 2 ^ 31) = true) :
    Unambiguous state .flush := by
  intro x hx
  exact of_decide_eq_true (all_eq_true.1 h x hx)

theorem unambiguous_ack_of_all {number : UInt32} {blocks : List (UInt32 × UInt32)}
    (hnear : (state.serverSeq - number).toNat < 2 ^ 31)
    (h : blocks.all (fun block => !seqGt block.2 state.serverSeq) = true) : Unambiguous state (.ack number blocks) := by
  refine ⟨hnear, fun block hblock => ?_⟩
  simpa using all_eq_true.1 h block hblock

theorem Clock.start_le_stop (clock : Clock) : clock.start ≤ clock.stop :=
  (clock.start_le 0).trans (clock.le_stop 0)

theorem AccountInv.start (hqueue : state.unackedServerSegments = []) (hboard : state.sackScoreboard = [])
    (hbytes : state.pipeBytes = 0) (hsegments : state.pipeSegments = 0)
    (hearliest : state.earliestUnsackedSent = none) (hack : state.lastClientAck = state.serverSeq)
    (hfirst : state.firstTxMstamp ≤ now) :
    AccountInv (state.serverSeq - UInt32.ofNat (2 ^ 31)) (2 ^ 31) (2 ^ 31) now state := by
  have hseq : state.serverSeq = point (state.serverSeq - UInt32.ofNat (2 ^ 31)) (2 ^ 31) :=
    (sub_add_cancel _ _).symm
  have hchain : Chain (state.serverSeq - UInt32.ofNat (2 ^ 31))
      (fun k s => 2 ^ 31 < k + serverSegmentLen s) (2 ^ 31) state.unackedServerSegments (2 ^ 31) := by
    rw [hqueue]
    exact .nil _
  refine ⟨⟨2 ^ 31, [], le_rfl, le_rfl, hseq, hack.trans hseq, by omega, le_rfl, ⟨2 ^ 31, by omega, hchain⟩,
    hboard, .nil, by simp⟩, ⟨hfirst, by simp [hqueue]⟩, exact_iff.2 ⟨?_, ?_, ?_, ?_⟩⟩
  · simp [hbytes, hqueue, inPipe]
  · simp [hsegments, hqueue, inPipe]
  · simp [hearliest, hqueue, inPipe, sendTimes]
  · simp [hqueue, sendTimes]

theorem AccountRun.inv (h : AccountRun Unambiguous now state) :
    ∃ origin sent, AccountInv origin sent sent now state := by
  induction h with
  | start hqueue hboard hbytes hsegments hearliest hack hfirst =>
    exact ⟨_, _, .start hqueue hboard hbytes hsegments hearliest hack hfirst⟩
  | flush clock _ hnow hok ih =>
    obtain ⟨origin, sent, hinv⟩ := ih
    obtain ⟨sent', hnext⟩ := accountInv_sendRule.flushServerOutput (hinv.widen hok) hnow le_rfl
    exact ⟨origin, sent', hnext.settle⟩
  | @ack now state number blocks clock _ hnow hok ih =>
    obtain ⟨origin, sent, hinv⟩ := ih
    obtain ⟨hnear, hblocks⟩ := hok
    obtain ⟨hnumber, -⟩ := hinv.point_back hnear
    refine ⟨origin, sent, ?_⟩
    have hnext := hinv.processServerAck clock (Nat.sub_le sent (state.serverSeq - number).toNat)
      (by omega) hblocks
    rw [← hnumber] at hnext
    exact hnext.later (hnow.trans clock.start_le_stop)
  | @fastRetransmit now state clock _ hnow _ ih =>
    obtain ⟨origin, sent, hinv⟩ := ih
    refine ⟨origin, sent, ?_⟩
    unfold retransmitOldestUnackedPacket
    split
    · exact hinv.later (hnow.trans clock.start_le_stop)
    · exact hinv.resend (hnow.trans clock.start_le_stop) (fun _ => ⟨rfl, rfl, rfl⟩)
        fun _ => ⟨rfl, rfl, clock.le_stop _⟩
  | @timeoutRetransmit now state clock _ hnow _ ih =>
    obtain ⟨origin, sent, hinv⟩ := ih
    refine ⟨origin, sent, ?_⟩
    unfold retransmitDueSegment
    split
    · exact hinv.later (hnow.trans clock.start_le_stop)
    · exact hinv.resend (hnow.trans clock.start_le_stop) (fun _ => ⟨rfl, rfl, rfl⟩)
        fun _ => ⟨rfl, rfl, clock.le_stop _⟩
  | other _ hlater hledger ih =>
    obtain ⟨origin, sent, hinv⟩ := ih
    exact ⟨origin, sent, (hinv.of_ledger hledger).later hlater⟩

/-- In every run of unambiguous steps the counters equal the full scan, and whatever acknowledgement
comes next, its pop loop never subtracts more than there is. -/
theorem inflight_accounting_exact (h : AccountRun Unambiguous now state) :
    Exact state ∧ ∀ number blocks clock, now ≤ clock.start →
        let before : TcpFlowState :=
          { ackUpdated state number blocks with lastClientAck := number, duplicateAckCount := 0 }
        popAckedChecked number clock 0 before.unackedServerSegments before {} =
          some (popAcked number clock 0 before.unackedServerSegments before {}) := by
  obtain ⟨origin, sent, hinv⟩ := h.inv
  refine ⟨hinv.exact, fun number blocks clock hnow => ?_⟩
  obtain ⟨hbytes, hsegments, -, -⟩ := exact_iff.1 (exact_ackUpdated hinv.exact number blocks)
  have htimed := timed_ackUpdated hinv.timed number blocks
  refine popAckedChecked_eq 0 {} ⟨hbytes, hsegments⟩ fun x hx => ?_
  obtain ⟨hsnapshot, hsent, -⟩ := htimed.segments x hx
  exact ⟨hsnapshot, hsent.trans hnow⟩

def openFlow : TcpFlowState := (processServerAck sampleFlow 1000 [] (Clock.still 0)).1

theorem openFlow_run (ok : TcpFlowState → AccountStep → Prop) : AccountRun ok 0 openFlow :=
  .start rfl rfl rfl rfl rfl rfl le_rfl

/-- Two writes, the second one SACKed, the first one resent after its timer and then
acknowledged in its middle. -/
theorem inflight_accounting_exact_sacked :
    let first := (flushServerOutput (pushServerChunk openFlow [1, 2, 3]) (Clock.still 1)).1
    let second := (flushServerOutput (pushServerChunk first [4, 5]) (Clock.still 2)).1
    let sacked := (processServerAck second 1000 [(1003, 1005)] (Clock.still 3)).1
    let resent := (retransmitDueSegment sacked (Clock.still (secs 3))).1
    let state := (processServerAck resent 1002 [] (Clock.still (secs 4))).1
    Exact state ∧ state.pipeBytes = 3 ∧ state.pipeSegments = 1 ∧ state.earliestUnsackedSent = some (secs 3) := by
  intro first second sacked resent state
  have hpushed : AccountRun Unambiguous 0 (pushServerChunk openFlow [1, 2, 3]) := (openFlow_run _).other le_rfl rfl
  have hfirst : AccountRun Unambiguous 1 first :=
    hpushed.flush (Clock.still 1) (by decide) (unambiguous_flush_of_all (by decide +kernel))
  have hmore : AccountRun Unambiguous 1 (pushServerChunk first [4, 5]) := hfirst.other le_rfl rfl
  have hsecond : AccountRun Unambiguous 2 second :=
    hmore.flush (Clock.still 2) (by decide) (unambiguous_flush_of_all (by decide +kernel))
  have hsacked : AccountRun Unambiguous 3 sacked := hsecond.ack 1000 [(1003, 1005)] (Clock.still 3) (by decide)
      (unambiguous_ack_of_all (by decide +kernel) (by decide +kernel))
  have hresent : AccountRun Unambiguous (secs 3) resent :=
    hsacked.timeoutRetransmit (Clock.still (secs 3)) (by decide) trivial
  have hstate : AccountRun Unambiguous (secs 4) state := hresent.ack 1002 [] (Clock.still (secs 4)) (by decide)
      (unambiguous_ack_of_all (by decide +kernel) (by decide +kernel))
  exact ⟨(inflight_accounting_exact hstate).1, by decide +kernel, by decide +kernel, by decide +kernel⟩

/-- The client SACKs five bytes that are not sent yet.  The bytes then enter the pipe although the
scoreboard covers them, and their acknowledgement never takes them out again. -/
theorem inflight_accounting_drifts :
    let claimed := (processServerAck openFlow 1000 [(1000, 1005)] (Clock.still 1)).1
    let sent := (flushServerOutput (pushServerChunk claimed [1, 2, 3, 4, 5]) (Clock.still 2)).1
    let acked := (processServerAck sent 1005 [] (Clock.still 3)).1
    AccountRun (fun _ _ => True) 2 sent ∧ sent.pipeBytes = 5 ∧
      (unackedAccountingSnapshot sent.unackedServerSegments sent.sackScoreboard).pipeBytes = 0 ∧
      AccountRun (fun _ _ => True) 3 acked ∧ acked.unackedServerSegments = [] ∧ acked.pipeBytes = 5 := by
  intro claimed sent acked
  have hclaimed : AccountRun (fun _ _ => True) 1 claimed :=
    (openFlow_run _).ack 1000 [(1000, 1005)] (Clock.still 1) (by decide) trivial
  have hpushed : AccountRun (fun _ _ => True) 1 (pushServerChunk claimed [1, 2, 3, 4, 5]) :=
    hclaimed.other le_rfl rfl
  have hsent : AccountRun (fun _ _ => True) 2 sent := hpushed.flush (Clock.still 2) (by decide) trivial
  have hacked : AccountRun (fun _ _ => True) 3 acked := hsent.ack 1005 [] (Clock.still 3) (by decide) trivial
  exact ⟨hsent, by decide +kernel, by decide +kernel, hacked, by decide +kernel, by decide +kernel⟩

end OutlineProxy.Tcp
