import OutlineProxy.Tcp.Downlink

/-! Acknowledgements of an honest client, of a prefix of what was put on the wire.  A zero-window probe
carries the byte at `serverSeq` without moving it, so the acknowledgement of that byte is refused. -/

namespace OutlineProxy.Tcp

open Serial

variable {isn : UInt32} {d : Downlink} {state : TcpFlowState} {packet : ParsedTcpPacket}

def Downlink.onWire (d : Downlink) : Nat := max d.sent d.probed

structure SendWindow where
  size : UInt32
  windowEnd : UInt32
  updateSeq : UInt32
  updateAck : UInt32
deriving DecidableEq

def TcpFlowState.sendWindow (state : TcpFlowState) : SendWindow where
  size := state.clientWindow
  windowEnd := state.clientWindowEnd
  updateSeq := state.clientWindowUpdateSeq
  updateAck := state.clientWindowUpdateAck

def carriedWindow (state : TcpFlowState) (packet : ParsedTcpPacket) : SendWindow where
  size := decodeClientWindow packet state.clientWindowScale
  windowEnd := packet.acknowledgementNumber + decodeClientWindow packet state.clientWindowScale
  updateSeq := packet.sequenceNumber
  updateAck := packet.acknowledgementNumber

def SendWindow.Supersedes (held carried : SendWindow) : Prop :=
  seqGt carried.updateSeq held.updateSeq = false ∧ (carried.updateSeq = held.updateSeq →
      seqGt carried.updateAck held.updateAck = false ∧
      (carried.updateAck = held.updateAck → carried.size ≤ held.size))

/-- The window of an accepted packet is taken, unless the flow holds that of a segment no older. -/
def WindowAbsorbed (before after : TcpFlowState) (packet : ParsedTcpPacket) : Prop :=
  after.sendWindow = carriedWindow before packet ∨
    before.sendWindow.Supersedes (carriedWindow before packet) ∧ after.sendWindow = before.sendWindow

theorem updateClientSendWindow_absorbs (state : TcpFlowState) (packet : ParsedTcpPacket) :
    WindowAbsorbed state (updateClientSendWindow state packet) packet := by
  unfold updateClientSendWindow
  simp only
  split
  · exact .inl rfl
  · rename_i hstale
    refine .inr ⟨?_, rfl⟩
    simp only [Bool.or_eq_true, Bool.and_eq_true, beq_iff_eq, decide_eq_true_eq, not_or, not_and,
      Bool.not_eq_true, UInt32.not_lt] at hstale
    exact ⟨hstale.1.1, hstale.1.2⟩

theorem sendWindow_absorbAcceptedClientPacket (state : TcpFlowState) (packet : ParsedTcpPacket) (now : Instant) :
    (absorbAcceptedClientPacket state packet now).sendWindow =
      (updateClientSendWindow state packet).sendWindow := by
  unfold absorbAcceptedClientPacket noteRecentClientTimestamp updateClientSendWindow resetZeroWindowPersist
  simp only [TcpFlowState.sendWindow]
  split_ifs <;> rfl

theorem absorbAcceptedClientPacket_absorbs (state : TcpFlowState) (packet : ParsedTcpPacket) (now : Instant) :
    WindowAbsorbed state (absorbAcceptedClientPacket state packet now) packet := by
  have habsorbs := updateClientSendWindow_absorbs state packet
  rwa [WindowAbsorbed, ← sendWindow_absorbAcceptedClientPacket state packet now] at habsorbs

theorem DownlinkInv.serverSeq (h : DownlinkInv isn d) : d.state.serverSeq = point isn d.sent := by
  cases h.phase with
  | data hsend => exact hsend.serverSeq
  | finished hfinished _ _ hsent => rw [hsent, hfinished.serverSeq]

def Downlink.behind (d : Downlink) (k : Nat) : Nat := (d.sent - k) % 2 ^ 32

theorem Downlink.behind_lt (d : Downlink) (k : Nat) : d.behind k < 2 ^ 32 := Nat.mod_lt _ (by decide)

theorem point_behind {k : Nat} (hk : k ≤ d.sent) :
    point isn d.sent = point (point isn k) (d.behind k) := by
  obtain ⟨rest, hrest⟩ := Nat.exists_eq_add_of_le hk
  apply UInt32.toNat_inj.1
  simp only [Downlink.behind, hrest, point, UInt32.toNat_add, UInt32.toNat_ofNat']
  omega

theorem seqGt_behind (ack : UInt32) {behind : Nat} (hb : behind < 2 ^ 32) :
    seqGt ack (point ack behind) = false ↔ behind ≤ 2 ^ 31 := by
  rw [← Bool.not_eq_true, seqGt_iff]
  rcases Nat.eq_zero_or_pos behind with rfl | hpos
  · simp
  · have hdist := toNat_point_sub_point_of_lt ack hpos (by omega)
    rw [point_zero] at hdist
    rw [hdist]
    omega

theorem DownlinkInv.seqGt_serverSeq (h : DownlinkInv isn d) {k : Nat} (hk : k ≤ d.onWire) :
    seqGt (point isn k) d.state.serverSeq = false ↔ k ≤ d.sent ∧ d.behind k ≤ 2 ^ 31 := by
  have hprobed := h.probed
  rw [h.serverSeq]
  rcases Nat.lt_or_ge d.sent k with habove | hbelow
  · grind [Downlink.onWire, seqGt_point]
  · rw [point_behind hbelow, seqGt_behind _ (d.behind_lt k)]
    simp [hbelow]

theorem sendWindowRemaining_of_carried {ack : UInt32} {behind : Nat} (hseq : state.serverSeq = point ack behind)
    (hend : state.clientWindowEnd = ack + state.clientWindow) (hbehind : behind ≤ 2 ^ 31)
    (hpos : 0 < state.clientWindow.toNat) (hsmall : state.clientWindow.toNat ≤ 2 ^ 30) :
    (sendWindowRemaining state).toNat = state.clientWindow.toNat - behind := by
  have hend' : state.clientWindowEnd = point ack state.clientWindow.toNat := by
    rw [hend, point, UInt32.ofNat_toNat]
  rw [sendWindowRemaining, hend', hseq, seqGe_point ack (by omega) (by omega)]
  by_cases hfull : state.clientWindow.toNat ≤ behind
  · simp [hfull]
  · rw [if_neg (by simpa using hfull), toNat_point_sub_point ack (by omega) (by omega)]

theorem decodeClientWindow_le (packet : ParsedTcpPacket) (scale : UInt8) :
    (decodeClientWindow packet scale).toNat ≤ 2 ^ 30 := by
  have hsize := packet.windowSize.toNat_lt
  unfold decodeClientWindow
  split
  · rw [UInt16.toNat_toUInt32]
    omega
  · have hscale : (min scale 14).toUInt32.toNat ≤ 14 := by
      change (if scale ≤ 14 then scale else 14).toNat ≤ 14
      split
      · exact UInt8.le_iff_toNat_le.1 ‹_›
      · exact le_rfl
    rw [UInt32.toNat_shiftLeft, UInt16.toNat_toUInt32, Nat.mod_eq_of_lt (by omega : _ < 32), Nat.shiftLeft_eq]
    refine (Nat.mod_le _ _).trans ?_
    calc packet.windowSize.toNat * 2 ^ (min scale 14).toUInt32.toNat
        ≤ 2 ^ 16 * 2 ^ 14 := Nat.mul_le_mul hsize.le (Nat.pow_le_pow_right (by decide) hscale)
      _ = 2 ^ 30 := by decide

section Honest

variable {k : Nat}

/-- An honest acknowledgement is accepted, and its window absorbed, exactly if it does not cover a
probe's byte and is at most half the number space behind.  A non-zero window it brings then opens
as much room as it has left at the send position.  A refused one changes nothing, however often
the client repeats it. -/
theorem honest_ack_accepted (hd : DownlinkRun isn d) (hk : k ≤ d.onWire)
    (hack : packet.acknowledgementNumber = isn + UInt32.ofNat k)
    (hflags : packet.flags.ack = true ∧ packet.flags.syn = false ∧ packet.flags.rst = false)
    (hwindow : packetOverlapsReceiveWindow d.state packet = true)
    (htimestamps : validatePacketTimestamps d.state packet = .accept) (tcp : TunTcpConfig) (clock : Clock) :
    let after := absorbAcceptedClientPacket d.state packet (clock.reading 0)
    let carried := carriedWindow d.state packet
    (validateExistingPacket d.state packet = .accept ∧ WindowAbsorbed d.state after packet ↔
      k ≤ d.sent ∧ d.behind k ≤ 2 ^ 31) ∧
    (k ≤ d.sent ∧ d.behind k ≤ 2 ^ 31 → after.sendWindow = carried → 0 < carried.size →
      (sendWindowRemaining after).toNat = carried.size.toNat - d.behind k) ∧ (¬(k ≤ d.sent ∧ d.behind k ≤ 2 ^ 31) →
      handleExistingFlow d.state tcp packet clock = { state := d.state, packets := pureAck d.state }) := by
  intro after carried
  have hjudged : validateExistingPacket d.state packet =
      if seqGt packet.acknowledgementNumber d.state.serverSeq then
        challengeOrIgnore d.state packet "ack_above_snd_nxt"
      else .accept := by simp [validateExistingPacket, hflags, htimestamps]
  have hbound : seqGt packet.acknowledgementNumber d.state.serverSeq = false ↔
      k ≤ d.sent ∧ d.behind k ≤ 2 ^ 31 := by
    rw [hack]
    exact hd.inv.seqGt_serverSeq hk
  refine ⟨?_, fun hsent htaken hopen => ?_, fun hrefused => ?_⟩
  · grind [challengeOrIgnore, absorbAcceptedClientPacket_absorbs]
  · have hseq : after.serverSeq = point packet.acknowledgementNumber (d.behind k) := by
      have hkeep : after.serverSeq = d.state.serverSeq :=
        congrArg DownSide.serverSeq (downSide_absorbAcceptedClientPacket d.state (clock.reading 0) packet)
      rw [hkeep, hd.inv.serverSeq, hack]
      exact point_behind hsent.1
    have hsize : after.clientWindow = carried.size := congrArg SendWindow.size htaken
    have hend : after.clientWindowEnd = packet.acknowledgementNumber + after.clientWindow := by
      rw [hsize]
      exact congrArg SendWindow.windowEnd htaken
    rw [← hsize] at hopen ⊢
    have hsmall : after.clientWindow.toNat ≤ 2 ^ 30 := by
      rw [hsize]
      exact decodeClientWindow_le packet d.state.clientWindowScale
    exact sendWindowRemaining_of_carried hseq hend hsent.2 (UInt32.lt_iff_toNat_lt.1 hopen) hsmall
  · grind [seqGt, challengeOrIgnore, isDuplicateSyn, handleExistingFlow, Bool.false_eq_true]

def clientAck (acknowledgementNumber : UInt32) (windowSize : UInt16) : ParsedTcpPacket :=
  { sequenceNumber := 100, acknowledgementNumber := acknowledgementNumber, windowSize := windowSize,
    flags := { ack := true } }

def shutFlow : TcpFlowState := updateClientSendWindow sampleFlow (clientAck 1000 0)

def probedFlow : Downlink :=
  ({ state := pushServerChunk shutFlow [65, 66], pushed := [65, 66] } : Downlink).flush (Clock.still 0)

theorem probedFlow_run : DownlinkRun 1000 probedFlow := by
  have hstart : DownlinkRun 1000 { state := shutFlow } :=
    .start (by decide +kernel) (by decide +kernel) (by decide +kernel) (by decide +kernel) (by decide +kernel)
  have hpushed : DownlinkRun 1000 { state := pushServerChunk shutFlow [65, 66], pushed := [65, 66] } :=
    hstart.push [65, 66] rfl
  exact hpushed.flush (Clock.still 0)

/-- The client drops the probe's byte and opens its window. -/
theorem honest_ack_accepted_before_probe :
    let reopen := clientAck 1000 2
    let after := absorbAcceptedClientPacket probedFlow.state reopen ((Clock.still 1).reading 0)
    validateExistingPacket probedFlow.state reopen = .accept ∧
      WindowAbsorbed probedFlow.state after reopen ∧ (sendWindowRemaining after).toNat = 2 := by
  intro reopen after
  have hnumber : reopen.acknowledgementNumber = 1000 + UInt32.ofNat 0 := rfl
  have hhonest := honest_ack_accepted probedFlow_run (Nat.zero_le _) hnumber ⟨rfl, rfl, rfl⟩
    (by decide +kernel) (by decide +kernel) {} (Clock.still 1)
  have hsent : 0 ≤ probedFlow.sent ∧ probedFlow.behind 0 ≤ 2 ^ 31 := by decide +kernel
  have hroom := hhonest.2.1 hsent (by decide +kernel) (by decide +kernel)
  have hbehind : probedFlow.behind 0 = 0 := by decide +kernel
  exact ⟨(hhonest.1.2 hsent).1, (hhonest.1.2 hsent).2, hroom⟩

/-- The client keeps the probe's byte and opens its window: its acknowledgement is refused, and the
send window stays shut. -/
theorem honest_ack_of_probe_refused :
    let reopen := clientAck 1001 2
    let after := (handleExistingFlow probedFlow.state {} reopen (Clock.still 1)).state
    DownlinkRun 1000 probedFlow ∧ probedFlow.built.map (fun p => (p.sequenceNumber, p.payload)) = [(1000, [[65]])] ∧
      probedFlow.onWire = 1 ∧ packetOverlapsReceiveWindow probedFlow.state reopen = true ∧
      validatePacketTimestamps probedFlow.state reopen = .accept ∧
      validateExistingPacket probedFlow.state reopen = .challengeAck "ack_above_snd_nxt" ∧
      sendWindowRemaining after = 0 :=
  ⟨probedFlow_run, by decide +kernel, by decide +kernel, by decide +kernel, by decide +kernel,
    by decide +kernel, by decide +kernel⟩

end Honest

end OutlineProxy.Tcp
