import OutlineProxy.Lib.Runs

/-! The replay check on SS2022 UDP replies.  The client remembers the last packet id of one server
session, while the server runs a session of its own for every target. -/

namespace OutlineProxy.Transport

open Runs

structure Ss2022UdpState where
  clientSessionId : UInt64
  nextClientPacketId : UInt64 := 0
  serverSessionId : Option UInt64 := none
  lastServerPacketId : Option UInt64 := none

inductive UdpReplyError (ε : Type) where
  | crypto (error : ε)
  | duplicateOrOutOfOrderUdpPacket

section Replies

-- `decrypt_udp_packet_2022` with the cipher and the master key: the server session id, the packet id
-- and the payload of an authentic datagram
variable {ε : Type} (decrypt : UInt64 → List UInt8 → Except ε (UInt64 × UInt64 × List UInt8))

def decryptUdpBytes (state : Ss2022UdpState) (bytes : List UInt8) :
    Ss2022UdpState × Except (UdpReplyError ε) (List UInt8) :=
  match decrypt state.clientSessionId bytes with
  | .error error => (state, .error (.crypto error))
  | .ok (sessionId, packetId, payload) =>
    if state.lastServerPacketId.any (fun last => decide (packetId ≤ last)) ∧
        state.serverSessionId = some sessionId then
      (state, .error .duplicateOrOutOfOrderUdpPacket)
    else
      ({ state with serverSessionId := some sessionId, lastServerPacketId := some packetId }, .ok payload)

/-- The client with the ids of the authentic datagrams that arrived and of those it accepted. -/
structure Receiving where
  state : Ss2022UdpState
  arrived : List (UInt64 × UInt64) := []
  accepted : List (UInt64 × UInt64) := []

open Receiving

def Receiving.step (receiving : Receiving) (bytes : List UInt8) : Option Receiving :=
  let ids := match decrypt receiving.state.clientSessionId bytes with
    | .error _ => []
    | .ok (sessionId, packetId, _) => [(sessionId, packetId)]
  let (state, answer) := decryptUdpBytes decrypt receiving.state bytes
  some ⟨state, receiving.arrived ++ ids, receiving.accepted ++ if answer.isOk then ids else []⟩

def returnsInOrder (receiving : Receiving) (bytes : List UInt8) : Bool :=
  match decrypt receiving.state.clientSessionId bytes with
  | .error _ => true
  | .ok (sessionId, packetId, _) =>
    receiving.state.serverSessionId == some sessionId ||
      receiving.accepted.all fun ids => ids.1 != sessionId || decide (ids.2 < packetId)

variable {decrypt} {receiving next : Receiving} {bytes : List UInt8} {labels : List (List UInt8)}

theorem Receiving.step_cases (h : receiving.step decrypt bytes = some next) :
    ((∃ error, decrypt receiving.state.clientSessionId bytes = .error error) ∧ next = receiving) ∨
    ∃ sessionId packetId payload,
      decrypt receiving.state.clientSessionId bytes = .ok (sessionId, packetId, payload) ∧
      ((∃ last, receiving.state.lastServerPacketId = some last ∧ packetId ≤ last ∧
          receiving.state.serverSessionId = some sessionId ∧
          next = { receiving with arrived := receiving.arrived ++ [(sessionId, packetId)] }) ∨
        (∀ last, receiving.state.lastServerPacketId = some last →
            receiving.state.serverSessionId = some sessionId → last < packetId) ∧
          next = ⟨{ receiving.state with
              serverSessionId := some sessionId, lastServerPacketId := some packetId },
            receiving.arrived ++ [(sessionId, packetId)], receiving.accepted ++ [(sessionId, packetId)]⟩) := by
  simp only [step, decryptUdpBytes, Option.some.injEq] at h
  cases hdecrypt : decrypt receiving.state.clientSessionId bytes with
  | error error =>
    left
    simp only [hdecrypt, Except.isOk, Except.toBool, List.append_nil] at h
    exact ⟨⟨error, rfl⟩, by simpa using h.symm⟩
  | ok ids =>
    obtain ⟨sessionId, packetId, payload⟩ := ids
    right
    refine ⟨sessionId, packetId, payload, rfl, ?_⟩
    simp only [hdecrypt] at h
    by_cases hstale : receiving.state.lastServerPacketId.any (fun last => decide (packetId ≤ last)) ∧
        receiving.state.serverSessionId = some sessionId
    · left
      obtain ⟨last, hlast, hle⟩ : ∃ last, receiving.state.lastServerPacketId = some last ∧ packetId ≤ last := by
        cases hlast : receiving.state.lastServerPacketId with
        | none => simp [hlast] at hstale
        | some last => exact ⟨last, rfl, by simpa [hlast] using hstale.1⟩
      rw [if_pos hstale] at h
      refine ⟨last, hlast, hle, hstale.2, ?_⟩
      simpa [Except.isOk, Except.toBool] using h.symm
    · right
      rw [if_neg hstale] at h
      refine ⟨?_, by simpa [Except.isOk, Except.toBool] using h.symm⟩
      intro last hlast hsession
      rw [hlast] at hstale
      simpa [hsession] using hstale

structure Covered (receiving : Receiving) : Prop where
  remembered : receiving.state.serverSessionId.isSome = receiving.state.lastServerPacketId.isSome
  below : ∀ sessionId last, receiving.state.serverSessionId = some sessionId →
    receiving.state.lastServerPacketId = some last → ∀ ids ∈ receiving.accepted, ids.1 = sessionId → ids.2 ≤ last
  once : receiving.accepted.Nodup

theorem Covered.step (h : Covered receiving) (hallowed : returnsInOrder decrypt receiving bytes = true)
    (hstep : receiving.step decrypt bytes = some next) : Covered next := by
  rcases step_cases hstep with
    ⟨-, rfl⟩ | ⟨sessionId, packetId, payload, hdecrypt, ⟨-, -, -, -, rfl⟩ | ⟨hnew, rfl⟩⟩
  · exact h
  · exact ⟨h.remembered, h.below, h.once⟩
  · -- every id accepted of this session before is below the new one
    have hbelow : ∀ ids ∈ receiving.accepted, ids.1 = sessionId → ids.2 < packetId := by
      intro ids hids hsession
      simp only [returnsInOrder, hdecrypt, Bool.or_eq_true, beq_iff_eq] at hallowed
      rcases hallowed with hcurrent | hreturns
      · have hsome : receiving.state.lastServerPacketId.isSome := by
          rw [← h.remembered, hcurrent]
          rfl
        obtain ⟨last, hlast⟩ := Option.isSome_iff_exists.mp hsome
        have hle := h.below sessionId last hcurrent hlast ids hids hsession
        exact UInt64.lt_of_le_of_lt hle (hnew last hlast hcurrent)
      · have hids' := List.all_eq_true.mp hreturns ids hids
        simpa [hsession] using hids'
    refine ⟨rfl, ?_, ?_⟩
    · grind
    · have honce := h.once
      grind

theorem remembered_arrived {allowed : Receiving → List UInt8 → Prop} {clientSessionId : UInt64}
    (hrun : Run (step decrypt) allowed ⟨{ clientSessionId := clientSessionId }, [], []⟩ labels
      receiving) {sessionId last : UInt64} (hsession : receiving.state.serverSessionId = some sessionId)
    (hlast : receiving.state.lastServerPacketId = some last) : (sessionId, last) ∈ receiving.arrived := by
  revert sessionId last
  refine hrun.invariant (P := fun _ r => ∀ {sessionId last : UInt64}, r.state.serverSessionId = some sessionId →
    r.state.lastServerPacketId = some last → (sessionId, last) ∈ r.arrived) (by simp) ?_
  intro _ receiving _ next ih _ hstep sessionId last hsession hlast
  rcases step_cases hstep with ⟨-, rfl⟩ | ⟨_, _, _, -, ⟨_, -, -, -, rfl⟩ | ⟨-, rfl⟩⟩
  · exact ih hsession hlast
  · exact List.mem_append_left _ (ih hsession hlast)
  · cases hsession
    cases hlast
    simp

/-- If datagrams of a session other than the last one are above all accepted of it, no pair of ids is
accepted twice.  Whatever arrived, a datagram in order in its session is accepted. -/
theorem replies_accepted_once {clientSessionId : UInt64} (hrun : Run (step decrypt)
      (fun receiving bytes => returnsInOrder decrypt receiving bytes = true)
      ⟨{ clientSessionId := clientSessionId }, [], []⟩ labels receiving) :
    receiving.accepted.Nodup ∧
    ∀ (allowed : Receiving → List UInt8 → Prop) (labels : List (List UInt8)) (receiving : Receiving)
      (bytes : List UInt8) (sessionId packetId : UInt64) (payload : List UInt8),
      Run (step decrypt) allowed ⟨{ clientSessionId := clientSessionId }, [], []⟩ labels receiving →
      decrypt receiving.state.clientSessionId bytes = .ok (sessionId, packetId, payload) →
      (∀ ids ∈ receiving.arrived, ids.1 = sessionId → ids.2 < packetId) →
      (decryptUdpBytes decrypt receiving.state bytes).2 = .ok payload := by
  constructor
  · have hstart : Covered ⟨{ clientSessionId := clientSessionId }, [], []⟩ := ⟨rfl, by simp, .nil⟩
    exact (hrun.invariant (P := fun _ receiving => Covered receiving) hstart
      fun _ _ _ _ h hallowed hstep => h.step hallowed hstep).once
  · intro allowed labels receiving bytes sessionId packetId payload hrun hdecrypt hinOrder
    have hfresh : ¬ (receiving.state.lastServerPacketId.any (fun last => decide (packetId ≤ last)) ∧
        receiving.state.serverSessionId = some sessionId) := by
      rintro ⟨hlast, hsession⟩
      cases hremembered : receiving.state.lastServerPacketId with
      | none => simp [hremembered] at hlast
      | some last =>
        have hlt := hinOrder _ (remembered_arrived hrun hsession hremembered) rfl
        simp only [hremembered, Option.any_some, decide_eq_true_eq] at hlast
        exact UInt64.lt_irrefl _ (UInt64.lt_of_lt_of_le hlt hlast)
    simp only [decryptUdpBytes, hdecrypt, if_neg hfresh]

end Replies

def sampleDecrypt : UInt64 → List UInt8 → Except Unit (UInt64 × UInt64 × List UInt8)
  | _, sessionId :: packetId :: payload => .ok (sessionId.toUInt64, packetId.toUInt64, payload)
  | _, _ => .error ()

/-- Two sessions in turn, with one datagram repeated at once. -/
theorem replies_accepted_once_two_sessions : ∃ receiving, Run (Receiving.step sampleDecrypt)
        (fun receiving bytes => returnsInOrder sampleDecrypt receiving bytes = true)
        ⟨{ clientSessionId := 9 }, [], []⟩ [[7, 1], [8, 1], [8, 1], [7, 2]] receiving ∧
      receiving.accepted = [(7, 1), (8, 1), (7, 2)] ∧ receiving.accepted.Nodup := by
  refine exists_run rfl fun hrun => ?_
  exact ⟨rfl, (replies_accepted_once hrun).1⟩

/-- A datagram of another session between a datagram and its repetition: both are accepted. -/
theorem reply_accepted_twice : ([[7, 1], [8, 1], [7, 1]].foldlM (Receiving.step sampleDecrypt)
      ⟨{ clientSessionId := 9 }, [], []⟩).map Receiving.accepted = some [(7, 1), (8, 1), (7, 1)] := by
  rfl

end OutlineProxy.Transport
