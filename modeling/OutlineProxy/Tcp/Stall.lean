import OutlineProxy.Tcp.FlushExit
import OutlineProxy.Tcp.HonestAck

/-! A downlink that still has data to send waits for a timer.  The flush is blocked by the window's
right edge, the persist timer by its size.  The two agree as long as a window counts from an
acknowledgement no older than the oldest unacknowledged byte. -/

namespace OutlineProxy.Tcp

open List Serial Clock

variable {origin : UInt32} {limit sent : Nat} {now : Instant} {state s t : TcpFlowState}

def takesWindow (state : TcpFlowState) (packet : ParsedTcpPacket) : Bool :=
  let decodedWindow := decodeClientWindow packet state.clientWindowScale
  seqGt packet.sequenceNumber state.clientWindowUpdateSeq
    || (packet.sequenceNumber == state.clientWindowUpdateSeq
      && (seqGt packet.acknowledgementNumber state.clientWindowUpdateAck
        || (packet.acknowledgementNumber == state.clientWindowUpdateAck
          && decide (state.clientWindow < decodedWindow))))
    || decodedWindow == 0

theorem sendWindow_absorb (state : TcpFlowState) (packet : ParsedTcpPacket) (now : Instant) :
    (absorbAcceptedClientPacket state packet now).sendWindow =
      if takesWindow state packet then carriedWindow state packet else state.sendWindow := by
  rw [sendWindow_absorbAcceptedClientPacket]
  unfold updateClientSendWindow takesWindow
  dsimp only
  split <;> rfl

def SendWindow.base (window : SendWindow) : UInt32 := window.windowEnd - window.size

def TcpFlowState.oldestOutstanding (state : TcpFlowState) : UInt32 :=
  (state.unackedServerSegments.head?.map ServerSegment.sequenceNumber).getD state.serverSeq

def TcpFlowState.behind (state : TcpFlowState) (x : UInt32) : Nat := (state.serverSeq - x).toNat

theorem behind_add {n : Nat} (hseq : t.serverSeq = s.serverSeq + UInt32.ofNat n) (hn : n < 2 ^ 32) (x : UInt32) :
    t.behind x = (s.behind x + n) % 2 ^ 32 := by
  rw [TcpFlowState.behind, hseq, add_sub_right_comm, UInt32.toNat_add, UInt32.toNat_ofNat_of_lt' hn]
  rfl

theorem behind_advance {n : Nat} {x : UInt32} (hseq : t.serverSeq = s.serverSeq + UInt32.ofNat n)
    (hroom : s.behind x + n < 2 ^ 32) : t.behind x = s.behind x + n := by
  rw [behind_add hseq (by omega), Nat.mod_eq_of_lt hroom]

theorem behind_congr (hseq : t.serverSeq = s.serverSeq) (x : UInt32) : t.behind x = s.behind x := by
  rw [TcpFlowState.behind, hseq, TcpFlowState.behind]

/-- A non-zero window is of a legal size and counts from no byte older than the oldest one
outstanding. -/
structure WindowInv (state : TcpFlowState) : Prop where
  small : state.sendWindow.size.toNat ≤ 2 ^ 30
  reaches : state.sendWindow.size ≠ 0 → state.behind state.sendWindow.base ≤ state.behind state.oldestOutstanding

theorem WindowInv.opens (h : WindowInv state) (hidle : state.unackedServerSegments = [])
    (hopen : state.clientWindow ≠ 0) : sendWindowRemaining state ≠ 0 := by
  have hnear := h.reaches hopen
  have holdest : state.oldestOutstanding = state.serverSeq := by
    rw [TcpFlowState.oldestOutstanding, hidle]
    rfl
  rw [holdest, TcpFlowState.behind, TcpFlowState.behind, sub_self] at hnear
  have hbase : state.serverSeq - state.sendWindow.base = 0 := UInt32.toNat_inj.1 (Nat.le_zero.1 hnear)
  have hend : state.clientWindowEnd = state.serverSeq + state.clientWindow := by
    rw [sub_eq_zero.1 hbase]
    exact (sub_add_cancel _ _).symm
  have hpos : 0 < state.clientWindow.toNat := by
    rw [Nat.pos_iff_ne_zero]
    exact fun hzero => hopen (UInt32.toNat_inj.1 hzero)
  have hroom := sendWindowRemaining_of_carried (point_zero state.serverSeq).symm hend (Nat.zero_le _) hpos h.small
  intro hzero
  rw [hzero] at hroom
  exact absurd hroom.symm (by simpa using hpos.ne')

theorem oldestOutstanding_ledger (h : t.ledger = s.ledger) :
    t.oldestOutstanding = s.oldestOutstanding ∧ t.serverSeq = s.serverSeq := by
  have hpositions := congrArg Ledger.positions h
  have hseq : t.serverSeq = s.serverSeq := congrArg Positions.serverSeq hpositions
  have hqueue : t.unackedServerSegments = s.unackedServerSegments := congrArg Positions.segments hpositions
  refine ⟨?_, hseq⟩
  unfold TcpFlowState.oldestOutstanding
  rw [hqueue, hseq]

theorem WindowInv.transfer (h : WindowInv s)
    (hsame : t.oldestOutstanding = s.oldestOutstanding ∧ t.serverSeq = s.serverSeq)
    (hwindow : t.sendWindow = s.sendWindow) : WindowInv t := by
  refine ⟨hwindow ▸ h.small, fun hopen => ?_⟩
  rw [behind_congr hsame.2, behind_congr hsame.2, hwindow, hsame.1]
  exact h.reaches (hwindow ▸ hopen)

theorem WindowInv.congr (h : WindowInv s) (hledger : t.ledger = s.ledger) (hwindow : t.sendWindow = s.sendWindow) :
    WindowInv t :=
  h.transfer (oldestOutstanding_ledger hledger) hwindow

theorem Chain.oldest {P : Nat → ServerSegment → Prop} {base : Nat}
    (h : Chain origin P base state.unackedServerSegments sent) (hseq : state.serverSeq = point origin sent) :
    state.oldestOutstanding = point origin base := by
  unfold TcpFlowState.oldestOutstanding
  cases hhead : state.unackedServerSegments.head? with
  | none =>
    have hsum := h.sum_len
    rw [head?_eq_none_iff.1 hhead, map_nil, sum_nil, Nat.add_zero] at hsum
    rw [hsum]
    exact hseq
  | some segment => exact (h.head hhead).1

theorem AccountInv.oldest (h : AccountInv origin limit sent now state) :
    ∃ base, limit < base + 2 ^ 31 ∧ base ≤ sent ∧ sent ≤ limit ∧
      state.oldestOutstanding = point origin base ∧ state.behind state.oldestOutstanding = sent - base ∧
      Chain origin (fun _ _ => True) base state.unackedServerSegments sent := by
  obtain ⟨acked, spans, htracked⟩ := h.tracked
  obtain ⟨base, hbase, hchain⟩ := htracked.queue
  have hle := htracked.sent_le
  have hbehind := hchain.le
  have hpoint : state.oldestOutstanding = point origin base := hchain.oldest h.serverSeq
  refine ⟨base, hbase, hbehind, hle, hpoint, ?_, hchain.mono fun _ _ _ => trivial⟩
  rw [hpoint, TcpFlowState.behind, h.serverSeq]
  exact toNat_point_sub_point origin hbehind (by omega)

theorem Sends.oldest {bytes : Nat} {sentAt : Instant} (h : Sends origin sent bytes sentAt s t)
    (hseq : s.serverSeq = point origin sent) : t.oldestOutstanding = s.oldestOutstanding := by
  obtain ⟨fresh, hne, hqueue, -, hchain⟩ := h.segments
  unfold TcpFlowState.oldestOutstanding
  rw [hqueue]
  cases hold : s.unackedServerSegments with
  | cons segment rest => rfl
  | nil =>
    obtain ⟨segment, rest, rfl⟩ := exists_cons_of_ne_nil hne
    rw [nil_append, hseq]
    exact (hchain.head rfl).1

theorem oldest_sendRule (oldest : UInt32) (start : Nat) :
    SendRule origin limit fun sent now s =>
      AccountInv origin limit sent now s ∧ s.oldestOutstanding = oldest ∧ start ≤ sent where
  serverSeq h := h.1.serverSeq
  later h hle := ⟨h.1.later hle, h.2⟩
  quiet h he := ⟨h.1.of_ledger he, (oldestOutstanding_ledger he).1.trans h.2.1, h.2.2⟩
  sends h hsends hnow hlimit := ⟨h.1.sends hsends hnow hlimit,
    (hsends.oldest h.1.serverSeq).trans h.2.1, h.2.2.trans (Nat.le_add_right _ _)⟩

/-- What bounds a flush from outside the ledger: the client's window and the controller's ceilings. -/
structure SendLimits where
  window : SendWindow
  inflightHi : Nat
  inflightLo : Nat

open SendLimits

def TcpFlowState.limits (state : TcpFlowState) : SendLimits :=
  ⟨state.sendWindow, state.bbr.inflightHi, state.bbr.inflightLo⟩

theorem limits_flushServerOutput (state : TcpFlowState) (clock : Clock) :
    (flushServerOutput state clock).1.limits = state.limits := by
  refine flushServerOutput_keeps state clock (f := TcpFlowState.limits)
    (fun _ _ => rfl) (fun s clock => ?_) (fun s now => ?_)
  · obtain ⟨_, _, _, _, _, _, _, _, hfin⟩ := maybeEmitServerFin_eq s clock
    rw [hfin]
    rfl
  · obtain ⟨_, _, hprobe⟩ := maybeEmitZeroWindowProbe_eq s now
    rw [hprobe]
    rfl

theorem limits_processServerAck (state : TcpFlowState) (ack : UInt32) (blocks : List (UInt32 × UInt32))
    (clock : Clock) : (processServerAck state ack blocks clock).1.limits = state.limits :=
  (touches_processServerAck ..).keeps fun _ _ => rfl

theorem limits_resendSegment (state : TcpFlowState) (index : Nat) (mark : ServerSegment → ServerSegment) :
    (resendSegment state index mark).1.limits = state.limits := by
  unfold resendSegment
  split <;> rfl

theorem absorb_frame (state : TcpFlowState) (packet : ParsedTcpPacket) (now : Instant) :
    (absorbAcceptedClientPacket state packet now).ledger = state.ledger ∧
      (absorbAcceptedClientPacket state packet now).bbr = state.bbr := by
  unfold absorbAcceptedClientPacket noteRecentClientTimestamp updateClientSendWindow resetZeroWindowPersist
  dsimp only
  split_ifs <;> exact ⟨rfl, rfl⟩

section Preservation

variable {clock : Clock} {packet : ParsedTcpPacket}

theorem WindowInv.flush (h : WindowInv state) (hinv : AccountInv origin sent sent now state)
    (hok : Unambiguous state .flush) (hnow : now ≤ clock.start) :
    WindowInv (flushServerOutput state clock).1 := by
  have hwide := hinv.widen hok
  obtain ⟨base, hbase, hle, -, -, hbehind, -⟩ := hwide.oldest
  obtain ⟨sent', hnext, hold, hmore⟩ :=
    (oldest_sendRule state.oldestOutstanding sent).flushServerOutput ⟨hwide, rfl, le_rfl⟩ hnow le_rfl
  have hwindow := congrArg window (limits_flushServerOutput state clock)
  obtain ⟨-, -, -, hlimit, -, -, -⟩ := hnext.oldest
  generalize (flushServerOutput state clock).1 = after at hnext hold hwindow ⊢
  change after.sendWindow = state.sendWindow at hwindow
  have hseq : after.serverSeq = state.serverSeq + UInt32.ofNat (sent' - sent) := by
    rw [hnext.serverSeq, hinv.serverSeq, ← point_add, Nat.add_sub_cancel' hmore]
  refine ⟨hwindow ▸ h.small, fun hopen => ?_⟩
  rw [hwindow] at hopen ⊢
  have hnear := h.reaches hopen
  rw [hold, behind_advance hseq (by omega), behind_advance hseq (by omega)]
  omega

theorem AccountInv.oldest_processServerAck (hinv : AccountInv origin sent sent now state) {ack n : Nat}
    (hack : ack ≤ sent) (hnear : sent < ack + 2 ^ 31) (blocks : List (UInt32 × UInt32)) (clock : Clock)
    (hold : n ≤ state.behind state.oldestOutstanding) (hnew : n ≤ sent - ack) :
    n ≤ (Tcp.processServerAck state (point origin ack) blocks clock).1.behind
      (Tcp.processServerAck state (point origin ack) blocks clock).1.oldestOutstanding := by
  obtain ⟨base, hbase, hle, -, -, hbehind, hchain⟩ := hinv.oldest
  obtain ⟨popped, hsplit, hpopped⟩ := processServerAck_pops state clock (point origin ack) blocks
  have hseq : (Tcp.processServerAck state (point origin ack) blocks clock).1.serverSeq = state.serverSeq :=
    congrArg DownSide.serverSeq (downSide_processServerAck ..)
  generalize (Tcp.processServerAck state (point origin ack) blocks clock).1 = after at hsplit hseq ⊢
  rw [hsplit] at hchain
  obtain ⟨mid, hfront, hback⟩ := hchain.split
  have hmid : mid = base ∨ mid ≤ ack := by
    by_cases hnil : popped = []
    · subst hnil
      cases hfront
      exact .inl rfl
    · obtain ⟨segment, hm, k, hk, hstop⟩ := hfront.exists_last hnil
      have hcovered := hpopped segment hm
      have hfits := hback.le
      have hfirst := hfront.le
      rw [serverSegmentEnd_point hk, hstop, seqGe_point origin (by omega) (by omega)] at hcovered
      exact .inr (by simpa using hcovered)
  have hpoint : after.oldestOutstanding = point origin mid := hback.oldest (hseq.trans hinv.serverSeq)
  have hstart := hfront.le
  have hfits := hback.le
  rw [hpoint, TcpFlowState.behind, hseq, hinv.serverSeq, toNat_point_sub_point origin hfits (by omega)]
  omega

/-- The window a packet leaves in force counts from a byte between the oldest one outstanding and the packet's own
acknowledgement: a window taken acknowledges all that was acknowledged before, unless it is zero, and one passed over
acknowledges nothing beyond the window held. -/
def InOrder (state : TcpFlowState) (packet : ParsedTcpPacket) : Prop :=
  if takesWindow state packet then
    decodeClientWindow packet state.clientWindowScale ≠ 0 →
      state.behind packet.acknowledgementNumber ≤ state.behind state.oldestOutstanding
  else state.clientWindow ≠ 0 → state.behind state.sendWindow.base ≤ state.behind packet.acknowledgementNumber

instance (state : TcpFlowState) (packet : ParsedTcpPacket) : Decidable (InOrder state packet) := by
  unfold InOrder
  infer_instance

theorem base_carriedWindow (state : TcpFlowState) (packet : ParsedTcpPacket) :
    (carriedWindow state packet).base = packet.acknowledgementNumber := by
  exact add_sub_cancel_right _ _

theorem WindowInv.absorb (h : WindowInv state) (hok : InOrder state packet) (now : Instant) :
    WindowInv (absorbAcceptedClientPacket state packet now) ∧
      ((absorbAcceptedClientPacket state packet now).sendWindow.size ≠ 0 →
        state.behind (absorbAcceptedClientPacket state packet now).sendWindow.base ≤
          state.behind packet.acknowledgementNumber) := by
  have hsame := oldestOutstanding_ledger (absorb_frame state packet now).1
  have hwindow := sendWindow_absorb state packet now
  unfold InOrder at hok
  by_cases htakes : takesWindow state packet = true
  · rw [if_pos htakes] at hok hwindow
    refine ⟨⟨?_, fun hopen => ?_⟩, fun _ => ?_⟩
    · rw [hwindow]
      exact decodeClientWindow_le packet state.clientWindowScale
    · rw [hwindow] at hopen ⊢
      rw [behind_congr hsame.2, behind_congr hsame.2, hsame.1, base_carriedWindow]
      exact hok hopen
    · rw [hwindow, base_carriedWindow]
  · rw [if_neg htakes] at hok hwindow
    exact ⟨h.transfer hsame hwindow, hwindow ▸ hok⟩

theorem WindowInv.acknowledge (h : WindowInv state) (hinv : AccountInv origin sent sent now state)
    {number : UInt32} (hnear : (state.serverSeq - number).toNat < 2 ^ 31)
    (hwithin : state.sendWindow.size ≠ 0 → state.behind state.sendWindow.base ≤ state.behind number)
    (blocks : List (UInt32 × UInt32)) (clock : Clock) :
    WindowInv (processServerAck state number blocks clock).1 := by
  have hwindow : (processServerAck state number blocks clock).1.sendWindow = state.sendWindow :=
    congrArg window (limits_processServerAck ..)
  have hseq : (processServerAck state number blocks clock).1.serverSeq = state.serverSeq :=
    congrArg DownSide.serverSeq (downSide_processServerAck ..)
  refine ⟨hwindow ▸ h.small, fun hopen => ?_⟩
  rw [hwindow] at hopen ⊢
  obtain ⟨hpoint, hle⟩ := hinv.point_back hnear
  change number = point origin (sent - state.behind number) at hpoint
  change state.behind number ≤ sent at hle
  have hclose : state.behind number < 2 ^ 31 := hnear
  have hnext := hinv.oldest_processServerAck (Nat.sub_le sent (state.behind number)) (by omega)
    blocks clock (h.reaches hopen) ((hwithin hopen).trans (by omega))
  rw [← hpoint] at hnext
  rw [behind_congr hseq]
  exact hnext

end Preservation

structure Blank (now : Instant) (state : TcpFlowState) : Prop where
  queue : state.unackedServerSegments = []
  board : state.sackScoreboard = []
  pipeBytes : state.pipeBytes = 0
  pipeSegments : state.pipeSegments = 0
  earliest : state.earliestUnsackedSent = none
  firstTx : state.firstTxMstamp ≤ now

variable {later : Instant}

theorem Blank.of_ledger (h : Blank now s) (hledger : t.ledger = s.ledger) (hle : now ≤ later) :
    Blank later t := by
  simp only [TcpFlowState.ledger, TcpFlowState.positions, Ledger.mk.injEq, Positions.mk.injEq] at hledger
  obtain ⟨⟨-, -, hqueue, hboard⟩, hbytes, hsegments, hearliest, -, hfirst⟩ := hledger
  exact ⟨hqueue.trans h.queue, hboard.trans h.board, hbytes.trans h.pipeBytes,
    hsegments.trans h.pipeSegments, hearliest.trans h.earliest, hfirst ▸ h.firstTx.trans hle⟩

theorem processServerAck_forgets (hidle : state.unackedServerSegments = []) (last number : UInt32)
    (blocks : List (UInt32 × UInt32)) (clock : Clock) :
    (processServerAck { state with lastClientAck := last } number blocks clock).1 =
      (processServerAck state number blocks clock).1 := by
  have hupdated : ackUpdated { state with lastClientAck := last } number blocks =
      { ackUpdated state number blocks with lastClientAck := last } := by
    unfold ackUpdated
    dsimp only
    split <;> rfl
  have hempty : (ackUpdated state number blocks).unackedServerSegments = [] := by
    unfold ackUpdated
    dsimp only
    split <;> exact hidle
  rw [processServerAck_eq, processServerAck_eq, hupdated]
  unfold ackBranch
  rw [if_pos (by simp [hempty]), if_pos (by simp [hempty])]

inductive StallStep where
  | opening (packet : ParsedTcpPacket)
  | packet (packet : ParsedTcpPacket)
  | flush
  | fastRetransmit
  | timeoutRetransmit

/-- Runs of a flow's sender from its SYN on, every step of which meets `ok`. Before the end of the handshake an
accepted packet is absorbed and its acknowledgement not processed. A step that leaves the ledger and the limits alone
may be anything. -/
inductive StallRun (ok : TcpFlowState → StallStep → Prop) : Instant → TcpFlowState → Prop
  | syn (tcp : TunTcpConfig) (gsoEnabled : Bool) (idleTimeout : Duration) (packet : ParsedTcpPacket)
      (serverIsn : UInt32) (now : Instant) : packet.flags.syn = true →
      StallRun ok now (TcpFlowState.new tcp gsoEnabled idleTimeout packet serverIsn now)
  | opening {now later : Instant} {s : TcpFlowState} (packet : ParsedTcpPacket) : StallRun ok now s →
      now ≤ later → s.status = .synReceived → ok s (.opening packet) →
      StallRun ok later (absorbAcceptedClientPacket s packet later)
  | handshake {now : Instant} {s : TcpFlowState} (packet : ParsedTcpPacket) (clock : Clock) :
      StallRun ok now s → now ≤ clock.start → s.status = .synReceived → ok s (.packet packet) →
      StallRun ok clock.stop (processServerAck
        (setFlowStatus (absorbAcceptedClientPacket s packet (clock.reading 0)) .established (clock.reading 1))
        packet.acknowledgementNumber packet.sackBlocks (clock.drop 2)).1
  | packet {now : Instant} {s : TcpFlowState} (packet : ParsedTcpPacket) (clock : Clock) :
      StallRun ok now s → now ≤ clock.start → s.status ≠ .synReceived → ok s (.packet packet) →
      StallRun ok clock.stop (processServerAck (absorbAcceptedClientPacket s packet (clock.reading 0))
        packet.acknowledgementNumber packet.sackBlocks (clock.drop 1)).1
  | ackProgress {now later : Instant} {s : TcpFlowState} (effect : AckEffect) : StallRun ok now s →
      now ≤ later → StallRun ok later (noteAckProgress s effect later)
  | flush {now : Instant} {s : TcpFlowState} (clock : Clock) : StallRun ok now s → now ≤ clock.start →
      ok s .flush → StallRun ok clock.stop (flushServerOutput s clock).1
  | fastRetransmit {now : Instant} {s : TcpFlowState} (clock : Clock) : StallRun ok now s →
      now ≤ clock.start → ok s .fastRetransmit → StallRun ok clock.stop (retransmitOldestUnackedPacket s clock).1
  | timeoutRetransmit {now : Instant} {s : TcpFlowState} (clock : Clock) : StallRun ok now s →
      now ≤ clock.start → ok s .timeoutRetransmit → StallRun ok clock.stop (retransmitDueSegment s clock).1
  | other {now later : Instant} {s t : TcpFlowState} : StallRun ok now s → now ≤ later →
      t.ledger = s.ledger → t.limits = s.limits → (s.status = .synReceived → t.status = .synReceived) →
      StallRun ok later t

/-- Packets arrive in order as far as window and acknowledgement go, all numbers compared lie in one half of the number
space, and the congestion window survives its cut to 32 bits. -/
def SteadyStep (state : TcpFlowState) : StallStep → Prop
  | .opening packet => InOrder state packet
  | .packet packet =>
    InOrder state packet ∧ Unambiguous state (.ack packet.acknowledgementNumber packet.sackBlocks)
  | .flush => Unambiguous state .flush ∧
    (2 ^ 32 ∣ congestionWindowRemaining state → congestionWindowRemaining state = 0)
  | .fastRetransmit | .timeoutRetransmit => True

structure StallInv (now : Instant) (state : TcpFlowState) : Prop where
  window : WindowInv state
  ceilings : Ceilings state.bbr
  account : AccountRun Unambiguous now state ∨ state.status = .synReceived ∧ Blank now state

section Steps

variable {clock : Clock} {packet : ParsedTcpPacket} {number : UInt32} {blocks : List (UInt32 × UInt32)}

theorem WindowInv.syn (tcp : TunTcpConfig) (gsoEnabled : Bool) (idleTimeout : Duration) (serverIsn : UInt32)
    (now : Instant) (hsyn : packet.flags.syn = true) :
    WindowInv (TcpFlowState.new tcp gsoEnabled idleTimeout packet serverIsn now) := by
  have hdecode : decodeClientWindow packet (packet.windowScale.getD 0) = packet.windowSize.toUInt32 := by
    rw [decodeClientWindow, if_pos hsyn]
  refine ⟨?_, fun _ => ?_⟩
  · change packet.windowSize.toUInt32.toNat ≤ 2 ^ 30
    rw [← hdecode]
    exact decodeClientWindow_le ..
  · change (serverIsn + 1 - (serverIsn + 1 + decodeClientWindow packet (packet.windowScale.getD 0) -
      packet.windowSize.toUInt32)).toNat ≤ _
    rw [hdecode, add_sub_cancel_right, sub_self]
    exact Nat.zero_le _

theorem acknowledge_of_account (h : AccountRun Unambiguous now state ∨ Blank now state) (hwindow : WindowInv state)
    (hwithin : state.sendWindow.size ≠ 0 → state.behind state.sendWindow.base ≤ state.behind number)
    (hok : Unambiguous state (.ack number blocks)) (hnow : now ≤ clock.start) :
    WindowInv (processServerAck state number blocks clock).1 ∧
      AccountRun Unambiguous clock.stop (processServerAck state number blocks clock).1 := by
  rcases h with hrun | hblank
  · obtain ⟨origin, sent, hinv⟩ := hrun.inv
    exact ⟨hwindow.acknowledge hinv hok.1 hwithin blocks clock, hrun.ack number blocks clock hnow hok⟩
  · -- with nothing outstanding the last acknowledgement is not read
    have hstart : AccountRun Unambiguous now { state with lastClientAck := state.serverSeq } :=
      .start hblank.queue hblank.board hblank.pipeBytes hblank.pipeSegments hblank.earliest rfl hblank.firstTx
    have hsame : WindowInv { state with lastClientAck := state.serverSeq } := ⟨hwindow.small, hwindow.reaches⟩
    obtain ⟨origin, sent, hinv⟩ := hstart.inv
    have hnext := hsame.acknowledge hinv hok.1 hwithin blocks clock
    have hrun := hstart.ack number blocks clock hnow hok
    rw [processServerAck_forgets hblank.queue] at hnext hrun
    exact ⟨hnext, hrun⟩

theorem noteAckProgress_frame (state : TcpFlowState) (effect : AckEffect) (now : Instant) :
    (noteAckProgress state effect now).ledger = state.ledger ∧
      (noteAckProgress state effect now).sendWindow = state.sendWindow ∧
      (noteAckProgress state effect now).status = state.status := by
  unfold noteAckProgress
  split <;> dsimp only <;> split <;> split <;> exact ⟨rfl, rfl, rfl⟩

theorem Ceilings.noteAckProgress (h : Ceilings state.bbr) (effect : AckEffect) (now : Instant) :
    Ceilings (noteAckProgress state effect now).bbr := by
  have hack : ∀ s : TcpFlowState, s.bbr = state.bbr → Ceilings (s.bbr.onAck (serverMaxSegmentPayload s)
      s.pipeBytes effect.bytesAcked effect.rateSample effect.rttSample now) := by
    intro s hs
    exact (hs ▸ h : Ceilings s.bbr).onAck (serverMaxSegmentPayload_pos s) ..
  unfold Tcp.noteAckProgress
  split <;> dsimp only <;> split <;> split
  all_goals first
    | exact hack _ rfl
    | exact h

theorem oldest_resendSegment {mark : ServerSegment → ServerSegment}
    (hmark : ∀ x, (mark x).sequenceNumber = x.sequenceNumber) (state : TcpFlowState) (index : Nat) :
    (resendSegment state index mark).1.oldestOutstanding = state.oldestOutstanding ∧
      (resendSegment state index mark).1.serverSeq = state.serverSeq := by
  unfold resendSegment
  split
  · exact ⟨rfl, rfl⟩
  · rename_i segment hget
    refine ⟨?_, rfl⟩
    change ((state.unackedServerSegments.set index (mark segment)).head?.map
      ServerSegment.sequenceNumber).getD state.serverSeq = _
    unfold TcpFlowState.oldestOutstanding
    cases hqueue : state.unackedServerSegments with
    | nil => rfl
    | cons first rest =>
      cases index with
      | zero => grind
      | succ index => rfl

theorem WindowInv.resend {mark : ServerSegment → ServerSegment}
    (hmark : ∀ x, (mark x).sequenceNumber = x.sequenceNumber) (h : WindowInv state) (index : Nat) :
    WindowInv (resendSegment state index mark).1 :=
  h.transfer (oldest_resendSegment hmark state index) (congrArg window (limits_resendSegment ..))

theorem Ceilings.of_limits (h : Ceilings s.bbr) (hlimits : t.limits = s.limits) : Ceilings t.bbr :=
  h.congr (congrArg inflightHi hlimits) (congrArg inflightLo hlimits)

theorem StallInv.quiet (h : StallInv now s) (hlater : now ≤ later) (hledger : t.ledger = s.ledger)
    (hstatus : s.status = .synReceived → t.status = .synReceived) :
    AccountRun Unambiguous later t ∨ t.status = .synReceived ∧ Blank later t :=
  h.account.imp (fun hrun => hrun.other hlater hledger)
    fun hopening => ⟨hstatus hopening.1, hopening.2.of_ledger hledger hlater⟩

theorem StallInv.opening (h : StallInv now state) (hlater : now ≤ later)
    (hok : InOrder state packet) : StallInv later (absorbAcceptedClientPacket state packet later) := by
  obtain ⟨hledger, hbbr⟩ := absorb_frame state packet later
  have hsame : (absorbAcceptedClientPacket state packet later).status = state.status :=
    congrArg DownSide.status (downSide_absorbAcceptedClientPacket state later packet)
  exact ⟨(h.window.absorb hok later).1, hbbr ▸ h.ceilings, h.quiet hlater hledger hsame.trans⟩

theorem StallInv.acknowledge (clock : Clock) (h : StallInv now state) (hnow : now ≤ clock.start)
    (hok : SteadyStep state (.packet packet)) (readAt : Instant)
    (hledger : s.ledger = (absorbAcceptedClientPacket state packet readAt).ledger)
    (hlimits : s.limits = (absorbAcceptedClientPacket state packet readAt).limits) :
    StallInv clock.stop (processServerAck s packet.acknowledgementNumber packet.sackBlocks clock).1 := by
  obtain ⟨hinorder, hnumbers⟩ := hok
  obtain ⟨habsorbed, hwithin⟩ := h.window.absorb hinorder readAt
  have hsame := hledger.trans (absorb_frame state packet readAt).1
  have hsize : s.sendWindow = (absorbAcceptedClientPacket state packet readAt).sendWindow :=
    congrArg SendLimits.window hlimits
  have hwindow : WindowInv s := habsorbed.congr hledger hsize
  have hseq := (oldestOutstanding_ledger hsame).2
  rw [← hsize] at hwithin
  have hwithin' : s.sendWindow.size ≠ 0 → s.behind s.sendWindow.base ≤ s.behind packet.acknowledgementNumber := by
    intro hopen
    rw [behind_congr hseq, behind_congr hseq]
    exact hwithin hopen
  have hok : Unambiguous s (.ack packet.acknowledgementNumber packet.sackBlocks) := by
    unfold Unambiguous
    rw [hseq]
    exact hnumbers
  have hceilings : Ceilings s.bbr := by
    refine Ceilings.of_limits ?_ hlimits
    rw [(absorb_frame state packet readAt).2]
    exact h.ceilings
  have hnext := acknowledge_of_account (h.account.imp (fun hrun => hrun.other le_rfl hsame)
    fun hopening => hopening.2.of_ledger hsame le_rfl) hwindow hwithin' hok hnow
  exact ⟨hnext.1, hceilings.of_limits (limits_processServerAck ..), .inl hnext.2⟩

theorem StallInv.flush (h : StallInv now state) (hnow : now ≤ clock.start) (hok : Unambiguous state .flush) :
    StallInv clock.stop (flushServerOutput state clock).1 := by
  have hceilings := h.ceilings.of_limits (limits_flushServerOutput state clock)
  rcases h.account with hrun | ⟨hstatus, hblank⟩
  · obtain ⟨origin, sent, hinv⟩ := hrun.inv
    exact ⟨h.window.flush hinv hok hnow, hceilings, .inl (hrun.flush clock hnow hok)⟩
  · -- before the end of the handshake nothing is flushed
    have hsame : (flushServerOutput state clock).1 = state := by
      unfold flushServerOutput
      rw [if_pos hstatus]
    rw [hsame]
    exact ⟨h.window, h.ceilings, .inr ⟨hstatus, hblank.of_ledger rfl (hnow.trans clock.start_le_stop)⟩⟩

theorem StallInv.resend {next : TcpFlowState} (h : StallInv now state) (hlater : now ≤ later)
    (hnext : next = state ∨ ∃ index mark, next = (resendSegment state index mark).1 ∧
      ∀ x : ServerSegment, (mark x).sequenceNumber = x.sequenceNumber)
    (hrun : AccountRun Unambiguous now state → AccountRun Unambiguous later next) : StallInv later next := by
  rcases hnext with rfl | ⟨index, mark, rfl, hmark⟩
  · refine ⟨h.window, h.ceilings, h.account.imp hrun fun hopening => ?_⟩
    exact ⟨hopening.1, hopening.2.of_ledger rfl hlater⟩
  · refine ⟨h.window.resend hmark index, h.ceilings.of_limits (limits_resendSegment ..),
      h.account.imp hrun fun hopening => ?_⟩
    have hidle : resendSegment state index mark = (state, none) := by
      rw [resendSegment, hopening.2.queue]
      rfl
    rw [hidle]
    exact ⟨hopening.1, hopening.2.of_ledger rfl hlater⟩

theorem StallInv.fastRetransmit (h : StallInv now state) (hnow : now ≤ clock.start) :
    StallInv clock.stop (retransmitOldestUnackedPacket state clock).1 := by
  refine h.resend (hnow.trans clock.start_le_stop) ?_ fun hrun => hrun.fastRetransmit clock hnow trivial
  unfold retransmitOldestUnackedPacket
  split
  · exact .inl rfl
  · exact .inr ⟨_, _, rfl, fun _ => rfl⟩

theorem StallInv.timeoutRetransmit (h : StallInv now state) (hnow : now ≤ clock.start) :
    StallInv clock.stop (retransmitDueSegment state clock).1 := by
  refine h.resend (hnow.trans clock.start_le_stop) ?_ fun hrun => hrun.timeoutRetransmit clock hnow trivial
  unfold retransmitDueSegment
  split
  · exact .inl rfl
  · exact .inr ⟨_, _, rfl, fun _ => rfl⟩

end Steps

theorem StallRun.inv (h : StallRun SteadyStep now state) : StallInv now state := by
  induction h with
  | syn tcp gsoEnabled idleTimeout packet serverIsn now hsyn =>
    exact ⟨.syn tcp gsoEnabled idleTimeout serverIsn now hsyn, ceilings_new now tcp.downlinkMaxRateBps,
      .inr ⟨rfl, rfl, rfl, rfl, rfl, rfl, le_rfl⟩⟩
  | opening packet _ hlater _ hok ih => exact ih.opening hlater hok
  | handshake packet clock _ hnow _ hok ih =>
    obtain ⟨_, hset⟩ := setFlowStatus_eq (absorbAcceptedClientPacket _ packet (clock.reading 0)) .established
      (clock.reading 1)
    exact ih.acknowledge (clock.drop 2) hnow hok (clock.reading 0) (by rw [hset]; rfl) (by rw [hset]; rfl)
  | packet packet clock _ hnow _ hok ih =>
    exact ih.acknowledge (clock.drop 1) hnow hok (clock.reading 0) rfl rfl
  | @ackProgress now later s effect _ hlater ih =>
    obtain ⟨hledger, hwindow, hstatus⟩ := noteAckProgress_frame s effect later
    exact ⟨ih.window.congr hledger hwindow, ih.ceilings.noteAckProgress effect later,
      ih.quiet hlater hledger hstatus.trans⟩
  | flush clock _ hnow hok ih => exact ih.flush hnow hok.1
  | fastRetransmit clock _ hnow _ ih => exact ih.fastRetransmit hnow
  | timeoutRetransmit clock _ hnow _ ih => exact ih.timeoutRetransmit hnow
  | other _ hlater hledger hlimits hstatus ih =>
    exact ⟨ih.window.congr hledger (congrArg window hlimits), ih.ceilings.of_limits hlimits,
      ih.quiet hlater hledger hstatus⟩

section Deadlines

variable {deadline : Instant}

theorem earlier_left {x y : Option Instant} (h : ∃ c ∈ x, c ≤ deadline) : ∃ c ∈ earlier x y, c ≤ deadline := by
  obtain ⟨c, rfl, hle⟩ := h
  cases y with
  | none => exact ⟨c, rfl, hle⟩
  | some b => exact ⟨min c b, rfl, (min_le_left c b).trans hle⟩

theorem foldl_earlier {timers : List (Option Instant)} {first : Option Instant}
    (h : (∃ c ∈ first, c ≤ deadline) ∨ some deadline ∈ timers) :
    ∃ c ∈ timers.foldl earlier first, c ≤ deadline := by
  induction timers generalizing first with
  | nil =>
    rcases h with h | h
    · exact h
    · cases h
  | cons timer rest ih =>
    apply ih
    rcases h with h | h
    · exact .inl (earlier_left h)
    · rcases mem_cons.1 h with hhere | hlater
      · refine .inl ?_
        cases hhere
        cases first with
        | none => exact ⟨deadline, rfl, le_rfl⟩
        | some b => exact ⟨min b deadline, rfl, min_le_right b deadline⟩
      · exact .inr hlater

def retryTimers (state : TcpFlowState) (now : Instant) : List (Option Instant) :=
  [nextRetransmissionDeadline state, nextZeroWindowProbeDeadline state now, nextPacingDeadline state]

theorem nextFlowDeadline_le (h : some deadline ∈ retryTimers state now) (tcp : TunTcpConfig)
    (idleTimeout : Duration) : ∃ c ∈ nextFlowDeadline state tcp idleTimeout now, c ≤ deadline := by
  have hstart : ∃ c ∈ [nextRetransmissionDeadline state, nextZeroWindowProbeDeadline state now,
      nextPacingDeadline state, nextKeepaliveDeadline state tcp.keepaliveIdle tcp.keepaliveInterval,
      state.delayedAckDeadline].foldl earlier none, c ≤ deadline :=
    foldl_earlier (.inr (mem_append_left [_, _] h))
  have hstep : ∀ x y, ∀ c : Prop, [Decidable c] → (∃ d ∈ x, d ≤ deadline) →
      ∃ d ∈ (if c then earlier x y else x), d ≤ deadline := by
    intro x y c _ hx
    split
    · exact earlier_left hx
    · exact hx
  unfold nextFlowDeadline
  dsimp only
  have hhalf := hstep _ (some (state.timestamps.statusSince + tcp.halfCloseTimeout))
    (isHalfClosedStatus state.status = true) (hstep _
      (some (state.timestamps.statusSince + tcp.handshakeTimeout)) (state.status = .synReceived) hstart)
  split
  · exact earlier_left hhalf
  · exact earlier_left hhalf

theorem isSome_earliest_of_unsacked (h : Exact state) (hne : state.unackedServerSegments ≠ [])
    (hunsacked : ∀ x ∈ state.unackedServerSegments, serverSegmentIsSacked state x = false) :
    state.earliestUnsackedSent.isSome = true := by
  have hpipe : inPipe state.sackScoreboard state.unackedServerSegments = state.unackedServerSegments := by
    refine filter_eq_self.2 fun x hx => ?_
    rw [Bool.not_eq_true']
    exact hunsacked x hx
  obtain ⟨-, -, hearliest, -⟩ := exact_iff.1 h
  rw [hearliest, hpipe, Option.isSome_iff_ne_none, Ne, min?_eq_none_iff, sendTimes, map_eq_nil_iff]
  exact hne

theorem congestionWindowRemaining_pos (h : Ceilings state.bbr) (hpipe : state.pipeBytes = 0) :
    congestionWindowRemaining state ≠ 0 := by
  have hmss := serverMaxSegmentPayload_pos state
  have hcap : 0 < inflightCap state := inflightCapFrom_pos hmss
  have hhi := h.hi
  have hlo := h.lo
  have hten : 0 < serverMaxSegmentPayload state * tcpInitialCwndSegments := Nat.mul_pos hmss (by decide)
  unfold congestionWindowRemaining
  dsimp only
  rw [hpipe]
  split <;> omega

end Deadlines

/-- In a run of steady steps, a flush that leaves data queued has armed a timer that retries, and
the flow's deadline is no later.  In every state of the run, a window that blocks the flush with
nothing in flight arms the persist timer. -/
theorem queued_downlink_keeps_a_timer (h : StallRun SteadyStep now state) (hok : SteadyStep state .flush)
    (hstatus : state.status ≠ .synReceived)
    (hunsacked : ∀ x ∈ state.unackedServerSegments, serverSegmentIsSacked state x = false)
    (tcp : TunTcpConfig) (clock : Clock) (readAt : Instant) :
    let after := (flushServerOutput state clock).1
    (after.pendingServerData ≠ [] → ∃ retry, some retry ∈ retryTimers after readAt ∧
      ∃ next ∈ nextFlowDeadline after tcp after.idleTimeout readAt, next ≤ retry) ∧
    (sendWindowRemaining state = 0 → state.unackedServerSegments = [] → state.pendingServerData ≠ [] →
      (nextZeroWindowProbeDeadline state readAt).isSome = true) := by
  intro after
  have hinv := h.inv
  -- a window that blocks an idle sender is zero
  have hblocked : sendWindowRemaining state = 0 → state.unackedServerSegments = [] → state.clientWindow = 0 := by
    intro hshut hidle
    by_contra hopen
    exact hinv.window.opens hidle hopen hshut
  have hprobe : ∀ s : TcpFlowState, s.clientWindow = 0 → s.unackedServerSegments = [] → s.pendingServerData ≠ [] →
      nextZeroWindowProbeDeadline s readAt = some (s.nextZeroWindowProbeAt.getD readAt) := by
    grind [nextZeroWindowProbeDeadline]
  refine ⟨fun hqueued => ?_, fun hshut hidle hqueued => ?_⟩
  · suffices harmed : ∃ retry, some retry ∈ retryTimers after readAt by
      obtain ⟨retry, hretry⟩ := harmed
      exact ⟨retry, hretry, nextFlowDeadline_le hretry tcp _⟩
    have hresent : after.earliestUnsackedSent.isSome = true → ∃ retry, some retry ∈ retryTimers after readAt := by
      intro hsome
      obtain ⟨sent, hsent⟩ := Option.isSome_iff_exists.1 hsome
      refine ⟨sent + after.retransmissionTimeout, mem_cons.2 (.inl ?_)⟩
      rw [nextRetransmissionDeadline, hsent]
      rfl
    rcases flushServerOutput_exit hstatus hqueued with hpaced | hflight | ⟨hshut, hledger, hsize⟩
    · obtain ⟨at_, hat⟩ := Option.isSome_iff_exists.1 hpaced
      refine ⟨at_, mem_cons_of_mem _ (mem_cons_of_mem _ (mem_singleton.2 ?_))⟩
      rw [nextPacingDeadline, if_neg (by simpa using hqueued)]
      exact hat.symm
    · exact hresent hflight
    · have hrun := hinv.account.resolve_right fun hsyn => hstatus hsyn.1
      obtain ⟨origin, sent, haccount⟩ := hrun.inv
      have hearliest : after.earliestUnsackedSent = state.earliestUnsackedSent :=
        congrArg Ledger.earliestUnsackedSent hledger
      have hqueue : after.unackedServerSegments = state.unackedServerSegments :=
        congrArg (fun l => l.positions.segments) hledger
      by_cases hidle : state.unackedServerSegments = []
      · have hpipe : state.pipeBytes = 0 := by
          obtain ⟨hbytes, -⟩ := exact_iff.1 haccount.exact
          rw [hbytes, hidle]
          rfl
        have hwide : congestionWindowRemaining state % 2 ^ 32 ≠ 0 := fun hcut =>
          congestionWindowRemaining_pos hinv.ceilings hpipe (hok.2 (Nat.dvd_of_mod_eq_zero hcut))
        have hzero : sendWindowRemaining state = 0 := by
          have hnarrow : (sendWindowRemaining state).toNat = 0 := by
            unfold availableWindow at hshut
            omega
          exact UInt32.toNat_inj.1 hnarrow
        have htimer := hprobe after (hsize.trans (hblocked hzero hidle)) (hqueue.trans hidle) hqueued
        exact ⟨_, mem_cons_of_mem _ (mem_cons.2 (.inl htimer.symm))⟩
      · apply hresent
        rw [hearliest]
        exact isSome_earliest_of_unsacked haccount.exact hidle hunsacked
  · rw [hprobe state (hblocked hshut hidle) hidle hqueued]
    rfl

def newFlow : TcpFlowState :=
  TcpFlowState.new .standard false (secs 300)
    { sequenceNumber := 99, acknowledgementNumber := 0, windowSize := 65535, flags := { syn := true } } 999 0

/-- Six bytes meet a window of four, and the acknowledgement of the four shuts the window. -/
theorem queued_downlink_keeps_a_timer_shut :
    let opened := (processServerAck (setFlowStatus (absorbAcceptedClientPacket newFlow (clientAck 1000 4) 0)
      .established 0) 1000 [] (still 0)).1
    let sent := (flushServerOutput (pushServerChunk opened [1, 2, 3, 4, 5, 6]) (still 1)).1
    let shut := (processServerAck (absorbAcceptedClientPacket sent (clientAck 1004 0) 2) 1004 [] (still 2)).1
    let after := (flushServerOutput shut (still 3)).1
    after.pendingServerData = [[5, 6]] ∧ ∃ retry, some retry ∈ retryTimers after 3 ∧
      ∃ next ∈ nextFlowDeadline after {} after.idleTimeout 3, next ≤ retry := by
  intro opened sent shut after
  have hsyn : StallRun SteadyStep 0 newFlow := .syn {} false (secs 300) _ 999 0 rfl
  have hopened : StallRun SteadyStep 0 opened := hsyn.handshake (clientAck 1000 4) (still 0) (by decide) rfl
      ⟨by decide +kernel, unambiguous_ack_of_all (by decide +kernel) (by decide +kernel)⟩
  have hpushed : StallRun SteadyStep 0 (pushServerChunk opened [1, 2, 3, 4, 5, 6]) :=
    hopened.other le_rfl rfl rfl fun hstatus => hstatus
  have hsent : StallRun SteadyStep 1 sent :=
    hpushed.flush (still 1) (by decide) ⟨unambiguous_flush_of_all (by decide +kernel), by decide +kernel⟩
  have hshut : StallRun SteadyStep 2 shut :=
    hsent.packet (clientAck 1004 0) (still 2) (by decide) (by decide +kernel)
      ⟨by decide +kernel, unambiguous_ack_of_all (by decide +kernel) (by decide +kernel)⟩
  have hqueued : after.pendingServerData = [[5, 6]] := by decide +kernel
  have htimer := queued_downlink_keeps_a_timer hshut
    ⟨unambiguous_flush_of_all (by decide +kernel), by decide +kernel⟩
    (by decide +kernel) (by decide +kernel) {} (still 3) 3
  have hne : (flushServerOutput shut (still 3)).1.pendingServerData ≠ [] := by decide +kernel
  exact ⟨hqueued, htimer.1 hne⟩

/-- The client sends ten bytes that are lost, then a segment behind them, and repeats the ten with an
acknowledgement of all four bytes it has received.  The flow processes the acknowledgement and
passes over the window, whose segment is older than the one it holds.  Two bytes stay queued behind
a window of four with no room, and no timer is armed. -/
theorem queued_downlink_stalls :
    let opened := (handleExistingFlow newFlow {} (clientAck 1000 4) (still 0)).state
    let sent := (flushServerOutput (pushServerChunk opened [1, 2, 3, 4, 5, 6]) (still 1)).1
    let ahead := (handleExistingFlow sent {} { clientAck 1000 4 with sequenceNumber := 110 }
      (still 2)).state
    let acked := (handleExistingFlow ahead {} { clientAck 1004 4 with payload := replicate 10 7 }
      (still 3)).state
    let after := (flushServerOutput acked (still 4)).1
    acked.status = .established ∧ acked.unackedServerSegments = [] ∧ acked.clientWindow = 4 ∧
      sendWindowRemaining acked = 0 ∧ nextZeroWindowProbeDeadline acked 4 = none ∧
      after.pendingServerData = [[5, 6]] ∧ retryTimers after 4 = [none, none, none] := by
  decide +kernel

/-- Whatever the acknowledgements and losses, the controller lets an idle flow send. -/
theorem idle_flow_may_send {ok : TcpFlowState → StallStep → Prop} (h : StallRun ok now state)
    (hpipe : state.pipeBytes = 0) : congestionWindowRemaining state ≠ 0 := by
  refine congestionWindowRemaining_pos ?_ hpipe
  clear hpipe
  have habsorb : ∀ s packet readAt, Ceilings s.bbr → Ceilings (absorbAcceptedClientPacket s packet readAt).bbr :=
    fun s packet readAt hs => (absorb_frame s packet readAt).2 ▸ hs
  induction h with
  | syn tcp _ _ _ _ now => exact ceilings_new now tcp.downlinkMaxRateBps
  | opening packet _ _ _ _ ih => exact habsorb _ packet _ ih
  | handshake packet _ _ _ _ _ ih =>
    refine Ceilings.of_limits ?_ (limits_processServerAck ..)
    unfold setFlowStatus
    split <;> exact habsorb _ packet _ ih
  | packet packet _ _ _ _ _ ih => exact (habsorb _ packet _ ih).of_limits (limits_processServerAck ..)
  | ackProgress effect _ _ ih => exact ih.noteAckProgress effect _
  | flush clock _ _ _ ih => exact ih.of_limits (limits_flushServerOutput _ clock)
  | fastRetransmit _ _ _ _ ih | timeoutRetransmit _ _ _ _ ih =>
    first | unfold retransmitOldestUnackedPacket | unfold retransmitDueSegment
    split
    · exact ih
    · exact ih.of_limits (limits_resendSegment ..)
  | other _ _ _ hlimits _ ih => exact ih.of_limits hlimits

/-- Four bytes are sent and acknowledged, and the controller takes note of it. -/
theorem idle_flow_may_send_acked :
    let opened := (processServerAck (setFlowStatus (absorbAcceptedClientPacket newFlow (clientAck 1000 4) 0)
      .established 0) 1000 [] (still 0)).1
    let sent := (flushServerOutput (pushServerChunk opened [1, 2, 3, 4]) (still 1)).1
    let acked := processServerAck (absorbAcceptedClientPacket sent (clientAck 1004 4) 2) 1004 [] (still 2)
    let after := noteAckProgress acked.1 acked.2 3
    sent.pipeBytes = 4 ∧ after.pipeBytes = 0 ∧ congestionWindowRemaining after ≠ 0 := by
  intro opened sent acked after
  have hsyn : StallRun (fun _ _ => True) 0 newFlow := .syn {} false (secs 300) _ 999 0 rfl
  have hopened : StallRun (fun _ _ => True) 0 opened :=
    hsyn.handshake (clientAck 1000 4) (still 0) (by decide) rfl trivial
  have hpushed : StallRun (fun _ _ => True) 0 (pushServerChunk opened [1, 2, 3, 4]) :=
    hopened.other le_rfl rfl rfl fun hstatus => hstatus
  have hsent : StallRun (fun _ _ => True) 1 sent := hpushed.flush (still 1) (by decide) trivial
  have hacked : StallRun (fun _ _ => True) 2 acked.1 :=
    hsent.packet (clientAck 1004 4) (still 2) (by decide) (by decide +kernel) trivial
  have hidle : after.pipeBytes = 0 := by decide +kernel
  exact ⟨by decide +kernel, hidle, idle_flow_may_send (hacked.ackProgress acked.2 (by decide)) hidle⟩

end OutlineProxy.Tcp
