import OutlineProxy.Tcp.Ingest

/-! A packet stops at one of the gates of `handleExistingFlow`, which leave the receive side alone, or is
ingested. -/

namespace OutlineProxy.Tcp

/-- The two flows agree on everything that decides what happens to an inbound segment. -/
structure SameArrival (s t : TcpFlowState) : Prop where
  side : t.receiveSide = s.receiveSide
  finSeen : clientFinSeen t.status = clientFinSeen s.status
  pendingServerData : t.pendingServerData = s.pendingServerData
  serverFinPending : t.serverFinPending = s.serverFinPending
  unackedInOrderSegments : t.unackedInOrderSegments = s.unackedInOrderSegments

theorem SameArrival.refl (s : TcpFlowState) : SameArrival s s := ⟨rfl, rfl, rfl, rfl, rfl⟩

variable {s t : TcpFlowState}

theorem SameArrival.trans {u : TcpFlowState} (h : SameArrival s t) (k : SameArrival t u) :
    SameArrival s u :=
  ⟨k.side.trans h.side, k.finSeen.trans h.finSeen, k.pendingServerData.trans h.pendingServerData,
    k.serverFinPending.trans h.serverFinPending, k.unackedInOrderSegments.trans h.unackedInOrderSegments⟩

theorem SameArrival.of_downSide (hside : t.receiveSide = s.receiveSide)
    (hdown : t.downSide = s.downSide) : SameArrival s t :=
  ⟨hside, congrArg (fun d => clientFinSeen d.status) hdown, congrArg DownSide.pendingServerData hdown,
    congrArg DownSide.serverFinPending hdown, congrArg DownSide.unackedInOrderSegments hdown⟩

theorem SameArrival.setFlowStatus {status : TcpFlowStatus} (now : Instant)
    (h : clientFinSeen status = clientFinSeen s.status) : SameArrival s (setFlowStatus s status now) := by
  refine ⟨by simp, clientFinSeen_setFlowStatus s now h, ?_, ?_, ?_⟩ <;>
    · unfold Tcp.setFlowStatus
      split <;> rfl

theorem sameArrival_transitionOnServerFinAck (s : TcpFlowState) (now : Instant) :
    SameArrival s (transitionOnServerFinAck s now).1 := by
  unfold transitionOnServerFinAck
  split
  all_goals first
    | exact SameArrival.refl s
    | exact SameArrival.setFlowStatus now (by simp_all [clientFinSeen])

theorem advertisedReceiveWindow_congr (h : t.receiveSide = s.receiveSide) :
    advertisedReceiveWindow t = advertisedReceiveWindow s := by
  have hcap : t.receiveWindowCapacity = s.receiveWindowCapacity := congrArg ReceiveSide.receiveWindowCapacity h
  simp only [advertisedReceiveWindow, bufferedClientBytes_congr h, hcap]

/-- The step leaves the receive side alone, and its packets advertise the window of the flow. -/
structure Bystander (state : TcpFlowState) (step : EngineStep) : Prop where
  side : step.state.receiveSide = state.receiveSide
  finSeen : clientFinSeen step.state.status = clientFinSeen state.status
  windows : ∀ p ∈ step.packets, p.window = advertisedReceiveWindow state

theorem Bystander.of_same {step : EngineStep} (h : SameArrival s t) (hb : Bystander t step) : Bystander s step where
  side := hb.side.trans h.side
  finSeen := hb.finSeen.trans h.finSeen
  windows p hp := (hb.windows p hp).trans (advertisedReceiveWindow_congr h.side)

theorem bystander_commitAndReply (state : TcpFlowState) (tcp : TunTcpConfig) (now : Instant)
    {build : TcpFlowState → List OutPacket}
    (hbuild : ∀ s : TcpFlowState, s.receiveSide = state.receiveSide → ∀ p ∈ build s,
      p.window = advertisedReceiveWindow state) :
    Bystander state (commitAndReply state tcp now build) where
  side := by simp [commitAndReply]
  finSeen := congrArg (fun d => clientFinSeen d.status) (downSide_commitFlowChanges state tcp now)
  windows := hbuild _ (receiveSide_commitFlowChanges state tcp now)

variable {state : TcpFlowState}

theorem pureAck_window (h : s.receiveSide = state.receiveSide) :
    ∀ p ∈ pureAck s, p.window = advertisedReceiveWindow state := by
  intro p hp
  rw [pureAck, List.mem_singleton] at hp
  rw [hp]
  exact advertisedReceiveWindow_congr h

theorem synAck_window (h : s.receiveSide = state.receiveSide) :
    ∀ p ∈ synAck s, p.window = advertisedReceiveWindow state := by
  intro p hp
  rw [synAck, List.mem_singleton] at hp
  rw [hp]
  exact advertisedReceiveWindow_congr h

theorem resendSegment_window {index : Nat} {mark : ServerSegment → ServerSegment}
    {packet : OutPacket} (h : s.receiveSide = state.receiveSide)
    (hp : (resendSegment s index mark).2 = some packet) :
    packet.window = advertisedReceiveWindow state := by
  unfold resendSegment at hp
  split at hp
  · simp at hp
  · obtain rfl := Option.some.inj hp
    exact advertisedReceiveWindow_congr (Eq.trans rfl h)

def passesFinGate (state : TcpFlowState) (packet : ParsedTcpPacket) : Prop :=
  (clientFinSeen state.status
    && segmentRequiresAck packet.sequenceNumber packet.flags packet.payload.length state.rcvNxt) = false

theorem SameArrival.passesFinGate {packet : ParsedTcpPacket} (h : SameArrival s t) :
    passesFinGate t packet ↔ passesFinGate s packet := by
  have hrcv : t.rcvNxt = s.rcvNxt := congrArg ReceiveSide.rcvNxt h.side
  simp only [Tcp.passesFinGate, h.finSeen, hrcv]

/-- A packet is either a bystander or is ingested by a flow that agrees with this one. -/
def Arrives (state : TcpFlowState) (tcp : TunTcpConfig) (packet : ParsedTcpPacket) (step : EngineStep) :
    Prop :=
  Bystander state step ∨ ∃ s clock, SameArrival state s ∧ passesFinGate state packet ∧
    step = ingestSegment s tcp packet clock

variable {tcp : TunTcpConfig} {packet : ParsedTcpPacket}

theorem Arrives.of_same {step : EngineStep} (h : SameArrival s t) (ha : Arrives t tcp packet step) :
    Arrives s tcp packet step := by
  rcases ha with hb | ⟨u, clock, hu, hgate, he⟩
  · exact Or.inl (hb.of_same h)
  · exact Or.inr ⟨u, clock, h.trans hu, h.passesFinGate.mp hgate, he⟩

theorem gateAndIngest_arrives (state : TcpFlowState) (tcp : TunTcpConfig) (packet : ParsedTcpPacket)
    (clock : Clock) : Arrives state tcp packet (gateAndIngest state tcp packet clock) := by
  unfold gateAndIngest
  split
  · refine Or.inl (bystander_commitAndReply state tcp _ fun s hs p hp => ?_)
    rw [List.mem_singleton.1 hp]
    rfl
  · grind [Arrives, passesFinGate, bystander_commitAndReply, pureAck_window, SameArrival.refl]

theorem acknowledgeAndIngest_arrives {clock : Clock}
    (halive : (acknowledgeAndIngest state tcp packet clock).fate = .alive) :
    Arrives state tcp packet (acknowledgeAndIngest state tcp packet clock) := by
  simp only [acknowledgeAndIngest] at halive ⊢
  generalize hack : processServerAck state packet.acknowledgementNumber packet.sackBlocks clock = acked
    at halive ⊢
  have h1 : SameArrival state acked.1 := by
    rw [← hack]
    exact .of_downSide (receiveSide_processServerAck ..) (downSide_processServerAck ..)
  obtain ⟨s1, effect⟩ := acked
  generalize hprog : (if effect.hasAckProgress = true then
    noteAckProgress s1 effect ((clock.drop state.unackedServerSegments.length).reading 0) else s1) = s2
    at halive ⊢
  have h2 : SameArrival state s2 := by
    refine h1.trans ?_
    rw [← hprog]
    split
    · exact .of_downSide (receiveSide_noteAckProgress ..) (downSide_noteAckProgress ..)
    · exact .refl s1
  generalize hfin :
      serverFinAck s2 packet ((clock.drop state.unackedServerSegments.length).reading 1) = moved at halive ⊢
  have h3 : SameArrival state moved.1 := by
    refine h2.trans ?_
    rw [← hfin, serverFinAck]
    split
    · exact sameArrival_transitionOnServerFinAck ..
    · exact .refl s2
  obtain ⟨s3, closes⟩ := moved
  split at halive
  · simp [closeFlow] at halive
  · rename_i hopen
    rw [if_neg hopen]
    generalize hre : (if effect.retransmitNow = true then retransmitOldestUnackedPacket s3
      ((clock.drop state.unackedServerSegments.length).drop 2) else (s3, none)) = resent at halive ⊢
    have h4 : SameArrival state resent.1 ∧ ∀ p, resent.2 = some p → p.window = advertisedReceiveWindow state := by
      rw [← hre]
      split
      · refine ⟨h3.trans (.of_downSide (receiveSide_retransmitOldestUnackedPacket ..)
          (downSide_retransmitOldestUnackedPacket ..)), fun p hp => ?_⟩
        unfold retransmitOldestUnackedPacket at hp
        split at hp
        · simp at hp
        · exact resendSegment_window h3.side hp
      · exact ⟨h3, fun p hp => by simp at hp⟩
    obtain ⟨s4, reply⟩ := resent
    obtain ⟨h4, hwin⟩ := h4
    cases reply with
    | none => exact Arrives.of_same h4 (gateAndIngest_arrives ..)
    | some reply =>
      dsimp only at halive ⊢
      split at halive
      · simp [abortFlow] at halive
      · rename_i hbudget
        rw [if_neg hbudget]
        refine Or.inl (.of_same h4 (bystander_commitAndReply s4 tcp _ fun s hs p hp => ?_))
        rw [List.mem_singleton.1 hp, hwin reply rfl]
        exact (advertisedReceiveWindow_congr h4.side).symm

theorem handleExistingFlow_arrives {clock : Clock}
    (halive : (handleExistingFlow state tcp packet clock).fate = .alive) :
    Arrives state tcp packet (handleExistingFlow state tcp packet clock) := by
  unfold handleExistingFlow at halive ⊢
  split at halive
  · rename_i hdup
    rw [if_pos hdup]
    exact Or.inl ⟨rfl, rfl, synAck_window rfl⟩
  · rename_i hdup
    rw [if_neg hdup]
    cases hval : validateExistingPacket state packet with
    | ignore => exact Or.inl ⟨rfl, rfl, by simp⟩
    | closeFlow reason => simp [hval, closeFlow] at halive
    | challengeAck reason => exact Or.inl ⟨rfl, rfl, pureAck_window rfl⟩
    | accept =>
      simp only [hval] at halive ⊢
      have h1 : SameArrival state (absorbAcceptedClientPacket state packet (clock.reading 0)) :=
        .of_downSide (receiveSide_absorbAcceptedClientPacket ..) (downSide_absorbAcceptedClientPacket ..)
      generalize absorbAcceptedClientPacket state packet (clock.reading 0) = s1 at halive h1 ⊢
      split at halive
      · rename_i hsyn
        rw [if_pos hsyn]
        split at halive
        · rename_i hdone
          rw [if_pos hdone]
          have h2 : SameArrival s1 (setFlowStatus s1 .established (clock.reading 1)) :=
            .setFlowStatus _ (by rw [hsyn]; rfl)
          exact .of_same (h1.trans h2) (acknowledgeAndIngest_arrives halive)
        · rename_i hdone
          rw [if_neg hdone]
          exact Or.inl (.of_same h1 (bystander_commitAndReply s1 tcp _ fun s hs => synAck_window hs))
      · rename_i hsyn
        rw [if_neg hsyn]
        exact .of_same h1 (acknowledgeAndIngest_arrives halive)

end OutlineProxy.Tcp
