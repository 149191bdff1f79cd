import OutlineProxy.Tcp.Frames

/-! The close handshake.  `ackCoversServerFin` compares plain words and `ackIsStaleServerFinRetry`
compares in sequence order, so a flow whose FIN takes a number after the wrap believes it
acknowledged by an older acknowledgement from before the wrap. -/

namespace OutlineProxy.Tcp

/-- As plain words the two numbers are no further apart than sequence order can tell. -/
def PlainlyNear (serverSeq ack : UInt32) : Prop :=
  ack.toNat < serverSeq.toNat + 2 ^ 31 ∧ serverSeq.toNat ≤ ack.toNat + 2 ^ 31

instance (serverSeq ack : UInt32) : Decidable (PlainlyNear serverSeq ack) := by
  unfold PlainlyNear
  infer_instance

theorem le_iff_seqGe_iff (serverSeq ack : UInt32) :
    (serverSeq ≤ ack ↔ seqGe ack serverSeq = true) ↔ PlainlyNear serverSeq ack := by
  have hs := serverSeq.toNat_lt
  have ha := ack.toNat_lt
  rw [seqGe_iff, UInt32.le_iff_toNat_le, UInt32.toNat_sub, PlainlyNear]
  omega

section Steps

variable {s t : TcpFlowState}

def Drained (s : TcpFlowState) : Prop := s.pendingServerData = [] ∧ s.serverFinPending = false

def finOutstanding (status : TcpFlowStatus) : Prop := serverFinSent status = true ∧ status ≠ .closed

def finAcked (status : TcpFlowStatus) : Prop := status = .finWait2 ∨ status = .timeWait

variable {status : TcpFlowStatus}

theorem finAcked.sent (h : finAcked status) : serverFinSent status = true := by
  rcases h with rfl | rfl <;> rfl

theorem finOutstanding_of_awaiting (h : serverFinAwaitingAck status = true) :
    finOutstanding status := by
  cases status <;> simp_all [finOutstanding, serverFinSent, serverFinAwaitingAck]

/-- What a change other than the acknowledgement of the FIN does to the closing of a flow. -/
structure Keeps (s t : TcpFlowState) : Prop where
  drained : Drained s → Drained t ∧ t.serverSeq = s.serverSeq
  pending : t.serverFinPending = true → s.serverFinPending = true
  outstanding : finOutstanding t.status → finOutstanding s.status ∨
    serverFinSent s.status = false ∧ s.serverFinPending = true ∧ Drained t
  acked : finAcked t.status → finAcked s.status

theorem Keeps.refl (s : TcpFlowState) : Keeps s s := ⟨fun h => ⟨h, rfl⟩, id, .inl, id⟩

structure SameClose (s t : TcpFlowState) : Prop where
  status : t.status = s.status
  data : t.pendingServerData = s.pendingServerData
  fin : t.serverFinPending = s.serverFinPending
  seq : t.serverSeq = s.serverSeq

theorem SameClose.keeps (h : SameClose s t) : Keeps s t := by
  obtain ⟨hstatus, hdata, hfin, hseq⟩ := h
  constructor <;> simp_all [Drained]

theorem SameClose.of_downSide (h : t.downSide = s.downSide) : SameClose s t := by
  simp only [TcpFlowState.downSide, DownSide.mk.injEq] at h
  exact ⟨h.1, h.2.1, h.2.2.1, h.2.2.2.2.1⟩

theorem Keeps.setFlowStatus (now : Instant)
    (hout : finOutstanding status → finOutstanding s.status) (hacked : finAcked status → finAcked s.status) :
    Keeps s (setFlowStatus s status now) := by
  obtain ⟨timestamps, heq⟩ := setFlowStatus_eq s status now
  rw [heq]
  exact ⟨fun h => ⟨h, rfl⟩, id, fun h => .inl (hout h), hacked⟩

theorem Keeps.transitionOnClientFin (s : TcpFlowState) (now : Instant) :
    Keeps s (transitionOnClientFin s now) := by
  unfold Tcp.transitionOnClientFin
  split <;> first
    | exact .refl s
    | exact .setFlowStatus now (by simp_all [finOutstanding, serverFinSent]) (by simp_all [finAcked])

theorem Keeps.flushServerOutput (s : TcpFlowState) (clock : Clock) : Keeps s (flushServerOutput s clock).1 := by
  have hidle : Drained s → Drained (Tcp.flushServerOutput s clock).1 ∧
      (Tcp.flushServerOutput s clock).1.serverSeq = s.serverSeq := by
    intro h
    obtain ⟨-, -, -, hdown, -⟩ := flushServerOutput_idle clock h.1 h.2
    exact (SameClose.of_downSide hdown).keeps.drained h
  suffices hrest : (Tcp.flushServerOutput s clock).1.status = s.status ∧
        (Tcp.flushServerOutput s clock).1.serverFinPending = s.serverFinPending ∨
      s.serverFinPending = true ∧ Drained (Tcp.flushServerOutput s clock).1 ∧
        (Tcp.flushServerOutput s clock).1.status = finStatus s.status by
    rcases hrest with ⟨hstatus, hfin⟩ | ⟨hfin, hdrained, hstatus⟩
    · exact ⟨hidle, hfin ▸ id, fun h => .inl (hstatus ▸ h), hstatus ▸ id⟩
    · refine ⟨hidle, fun _ => hfin, fun h => ?_, fun h => ?_⟩ <;> rw [hstatus] at h <;>
        cases hs : s.status <;> simp_all [finAcked, finStatus, finOutstanding, serverFinSent]
  unfold Tcp.flushServerOutput
  split
  · exact .inl ⟨rfl, rfl⟩
  · have hstatus := status_flushServerData s clock
    have hpending := serverFinPending_flushServerData s clock
    generalize flushServerData s clock = sent at hstatus hpending ⊢
    dsimp only
    obtain ⟨backoff, next, hprobe⟩ := maybeEmitZeroWindowProbe_eq
      (maybeEmitServerFin sent.1 (clock.drop (sent.2.length + 1))).1 (clock.reading (sent.2.length + 3))
    rw [hprobe, ← hstatus, ← hpending]
    unfold maybeEmitServerFin
    split
    · exact .inl ⟨rfl, rfl⟩
    · rename_i hready
      simp only [Bool.or_eq_true, not_or, Bool.not_eq_true', Bool.not_eq_false, List.isEmpty_iff] at hready
      obtain ⟨timestamps, heq⟩ := setFlowStatus_eq
        { sent.1 with serverSeq := sent.1.serverSeq + 1, serverFinPending := false } (finStatus sent.1.status)
        ((clock.drop (sent.2.length + 1)).reading 0)
      dsimp only
      rw [heq]
      exact .inr ⟨hready.1.1.1.1, ⟨hready.1.1.1.2, rfl⟩, rfl⟩

end Steps

/-- A flow on its way to its end: whether the upstream has ended, the number of the FIN once it is
sent, and whether the client has acknowledged that number since. -/
structure Closing where
  state : TcpFlowState
  eof : Bool := false
  finSeq : UInt32 := 0
  acked : Bool := false

def Closing.after (c : Closing) (next : TcpFlowState) : Closing :=
  { c with state := next, finSeq := if serverFinSent c.state.status then c.finSeq else next.serverSeq - 1 }

def Closing.acknowledges (c : Closing) (packet : ParsedTcpPacket) : Bool :=
  serverFinSent c.state.status && packet.flags.ack && seqGe packet.acknowledgementNumber (c.finSeq + 1)

/-- Plain words tell the order of an acknowledgement that comes while the FIN waits for its own. -/
def TellsOrder (state : TcpFlowState) (packet : ParsedTcpPacket) : Prop :=
  serverFinAwaitingAck state.status = true → packet.flags.ack = true →
    PlainlyNear state.serverSeq packet.acknowledgementNumber

def Closing.packet (c : Closing) (packet : ParsedTcpPacket) (now : Instant) : Closing :=
  { c.after (serverFinAck c.state packet now).1 with acked := c.acked || c.acknowledges packet }

inductive CloseRun (ok : TcpFlowState → ParsedTcpPacket → Prop) : Closing → Prop
  | start {state : TcpFlowState} : serverFinSent state.status = false → state.serverFinPending = false →
      CloseRun ok { state := state }
  | packet {c : Closing} (packet : ParsedTcpPacket) (now : Instant) : CloseRun ok c → ok c.state packet →
      CloseRun ok (c.packet packet now)
  | clientFin {c : Closing} (now : Instant) : CloseRun ok c → CloseRun ok (c.after (transitionOnClientFin c.state now))
  | push {c : Closing} (chunk : Bytes) : CloseRun ok c → c.eof = false →
      CloseRun ok (c.after (pushServerChunk c.state chunk))
  | eof {c : Closing} : CloseRun ok c → c.eof = false →
      CloseRun ok { c.after { c.state with serverFinPending := true } with eof := true }
  | flush {c : Closing} (clock : Clock) : CloseRun ok c → CloseRun ok (c.after (flushServerOutput c.state clock).1)
  | establish {c : Closing} (now : Instant) : CloseRun ok c → c.state.status = .synReceived →
      CloseRun ok (c.after (setFlowStatus c.state .established now))
  | close {c : Closing} (now : Instant) : CloseRun ok c → CloseRun ok (c.after (setFlowStatus c.state .closed now))
  | other {c : Closing} {state : TcpFlowState} : CloseRun ok c → SameClose c.state state → CloseRun ok (c.after state)

structure CloseInv (c : Closing) : Prop where
  pending : c.state.serverFinPending = true → c.eof = true
  outstanding : finOutstanding c.state.status → c.eof = true ∧ Drained c.state ∧ c.state.serverSeq = c.finSeq + 1
  acked : finAcked c.state.status → c.acked = true

variable {c : Closing}

theorem CloseInv.after (h : CloseInv c) {t : TcpFlowState} (k : Keeps c.state t) : CloseInv (c.after t) where
  pending ht := h.pending (k.pending ht)
  outstanding ht := by
    rcases k.outstanding ht with hs | ⟨hunsent, hs, hdrained⟩
    · obtain ⟨heof, hdrained, hseq⟩ := h.outstanding hs
      exact ⟨heof, (k.drained hdrained).1, by simp [Closing.after, hs.1, (k.drained hdrained).2, hseq]⟩
    · exact ⟨h.pending hs, hdrained, by simp [Closing.after, hunsent]⟩
  acked ht := h.acked (k.acked ht)

theorem CloseInv.covers (h : CloseInv c) {packet : ParsedTcpPacket} (hnear : TellsOrder c.state packet)
    (hgate : (serverFinAwaitingAck c.state.status
      && ackCoversServerFin packet.flags packet.acknowledgementNumber c.state.serverSeq) = true) :
    c.acknowledges packet = true := by
  simp only [Bool.and_eq_true, ackCoversServerFin, decide_eq_true_eq] at hgate
  obtain ⟨hawait, hack, hle⟩ := hgate
  have hsent := finOutstanding_of_awaiting hawait
  have hge := ((le_iff_seqGe_iff _ _).2 (hnear hawait hack)).1 hle
  rw [Closing.acknowledges, hsent.1, hack, ← (h.outstanding hsent).2.2, hge]
  rfl

theorem CloseInv.packet (h : CloseInv c) (packet : ParsedTcpPacket) (now : Instant)
    (hnear : TellsOrder c.state packet) : CloseInv (c.packet packet now) := by
  unfold Closing.packet serverFinAck
  split
  · rename_i hgate
    have hcovers := h.covers hnear hgate
    have hsent : serverFinSent c.state.status = true := by
      simp only [Closing.acknowledges, Bool.and_eq_true] at hcovers
      exact hcovers.1.1
    obtain ⟨heof, hdrained, hseq⟩ := h.outstanding (finOutstanding_of_awaiting (Bool.and_eq_true_iff.1 hgate).1)
    have hmoved : ∃ status timestamps, (transitionOnServerFinAck c.state now).1 =
        { c.state with status := status, timestamps := timestamps } := by
      unfold transitionOnServerFinAck
      split <;> first | exact ⟨_, _, rfl⟩ | exact ⟨_, setFlowStatus_eq ..⟩
    obtain ⟨status, timestamps, hmoved⟩ := hmoved
    rw [hmoved]
    exact ⟨h.pending, fun _ => ⟨heof, hdrained, by simp [Closing.after, hsent, hseq]⟩, fun _ => by simp [hcovers]⟩
  · have hnext := h.after (.refl c.state)
    exact ⟨hnext.pending, hnext.outstanding, fun hf => by simp [h.acked hf]⟩

theorem CloseRun.inv (hrun : CloseRun TellsOrder c) : CloseInv c := by
  induction hrun with
  | @start state hopen hpending =>
    have hsent : ∀ p : Prop, serverFinSent state.status = true → p := by simp [hopen]
    exact ⟨by simp [hpending], fun h => hsent _ h.1, fun h => hsent _ h.sent⟩
  | packet packet now _ hnear ih => exact ih.packet packet now hnear
  | clientFin now _ ih => exact ih.after (.transitionOnClientFin _ now)
  | @push c chunk _ heof ih =>
    have hnone : ∀ p : Prop, c.eof = true → p := by simp [heof]
    exact ⟨ih.pending, fun h => hnone _ (ih.outstanding h).1, ih.acked⟩
  | @eof c _ heof ih =>
    have hnone : ∀ p : Prop, c.eof = true → p := by simp [heof]
    exact ⟨fun _ => rfl, fun h => hnone _ (ih.outstanding h).1, ih.acked⟩
  | flush clock _ ih => exact ih.after (.flushServerOutput _ clock)
  | establish now _ hsyn ih =>
    exact ih.after (.setFlowStatus now (by simp [finOutstanding, serverFinSent]) (by simp [finAcked]))
  | close now _ ih => exact ih.after (.setFlowStatus now (by simp [finOutstanding]) (by simp [finAcked]))
  | other _ hsame ih => exact ih.after hsame.keeps

theorem serverFinAck_moves_iff {state : TcpFlowState} {packet : ParsedTcpPacket} (now : Instant)
    (hawait : serverFinAwaitingAck state.status = true) (hack : packet.flags.ack = true) :
    (serverFinAck state packet now).1.status ≠ state.status ↔ state.serverSeq ≤ packet.acknowledgementNumber := by
  grind [transitionOnServerFinAck, setFlowStatus, serverFinAwaitingAck, serverFinAck, ackCoversServerFin]

/-- The gate follows sequence order, and the two predicates are complements, exactly where plain
words tell that order.  A run that meets only such acknowledgements while its FIN is outstanding
counts the FIN as acknowledged, or closes on an acknowledgement, only once the FIN's number is. -/
theorem server_fin_ack_follows_sequence_order (state : TcpFlowState) (packet : ParsedTcpPacket) (now : Instant)
    (hawait : serverFinAwaitingAck state.status = true) (hack : packet.flags.ack = true) :
    (((serverFinAck state packet now).1.status ≠ state.status ↔
          seqGe packet.acknowledgementNumber state.serverSeq = true) ∧
        ackCoversServerFin packet.flags packet.acknowledgementNumber state.serverSeq =
          !ackIsStaleServerFinRetry packet.flags packet.acknowledgementNumber state.serverSeq ↔
      PlainlyNear state.serverSeq packet.acknowledgementNumber) ∧ ∀ c : Closing, CloseRun TellsOrder c →
      (c.state.status = .finWait2 ∨ c.state.status = .timeWait → c.acked = true) ∧
      ∀ (last : ParsedTcpPacket) (then_ : Instant), TellsOrder c.state last →
        (serverFinAck c.state last then_).2 = true → c.acknowledges last = true := by
  refine ⟨?_, fun c hrun => ⟨hrun.inv.acked, fun last then_ hnear hcloses => ?_⟩⟩
  · grind [ackCoversServerFin, ackIsStaleServerFinRetry, seqGe, serverFinAck_moves_iff, le_iff_seqGe_iff]
  · apply hrun.inv.covers hnear
    unfold serverFinAck at hcloses
    split at hcloses
    · assumption
    · cases hcloses

def finBeforeWrap : Closing :=
  let start : Closing := { state := { sampleFlow with serverSeq := 0xFFFFFFFF } }
  let ended : Closing := { start.after { start.state with serverFinPending := true } with eof := true }
  ended.after (flushServerOutput ended.state (.still 0)).1

theorem finBeforeWrap_run (ok : TcpFlowState → ParsedTcpPacket → Prop) : CloseRun ok finBeforeWrap :=
  .flush _ (.eof (.start rfl rfl) rfl)

def repeatedAck : ParsedTcpPacket :=
  { sequenceNumber := 100, acknowledgementNumber := 0xFFFFFFFF, windowSize := 65535, flags := { ack := true } }

/-- An acknowledgement of everything but the FIN, repeated, ends the wait for the FIN's own. -/
theorem fin_acked_by_repeated_ack :
    (ackCoversServerFin repeatedAck.flags repeatedAck.acknowledgementNumber finBeforeWrap.state.serverSeq = true ∧
      ackIsStaleServerFinRetry repeatedAck.flags repeatedAck.acknowledgementNumber finBeforeWrap.state.serverSeq =
        true) ∧
    ∃ c, CloseRun (fun _ _ => True) c ∧ c.state.status = .finWait2 ∧ c.finSeq = 0xFFFFFFFF ∧ c.acked = false := by
  refine ⟨by decide +kernel, finBeforeWrap.packet repeatedAck 0, .packet _ _ (finBeforeWrap_run _) trivial, ?_⟩
  decide +kernel

theorem server_fin_ack_follows_sequence_order_wrap :
    serverFinAwaitingAck finBeforeWrap.state.status = true ∧
      ∃ c, CloseRun TellsOrder c ∧ c.state.status = .finWait2 ∧ c.acked = true := by
  have hnear : TellsOrder finBeforeWrap.state { repeatedAck with acknowledgementNumber := 0 } :=
    fun _ _ => by decide +kernel
  have hrun := CloseRun.packet _ 0 (finBeforeWrap_run TellsOrder) hnear
  have hawait : serverFinAwaitingAck finBeforeWrap.state.status = true := by decide +kernel
  refine ⟨hawait, _, hrun, by decide +kernel, ?_⟩
  exact ((server_fin_ack_follows_sequence_order _ repeatedAck 0 hawait rfl).2 _ hrun).1 (.inl (by decide +kernel))

end OutlineProxy.Tcp
