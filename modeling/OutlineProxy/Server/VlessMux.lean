import OutlineProxy.Lib.Runs
import OutlineProxy.Lib.Tables
import OutlineProxy.Vless.MuxFrame

/-! The sub-connections of a multiplexed carrier, on the server. -/

namespace OutlineProxy.Server.VlessMux

open Runs Tables
open Vless (FrameMeta Network SessionStatus encodeFrame optionData optionError)
open Shadowsocks (Bytes Octets TargetAddr)

def maxMuxSubConns : Nat := 8

inductive SocketAddr where
  | v4 (octets : Octets 4) (port : UInt16)
  | v6 (octets : Octets 16) (port : UInt16)

def SocketAddr.toTarget : SocketAddr → TargetAddr
  | v4 octets port => .ipV4 octets port
  | v6 octets port => .ipV6 octets port

def resolvePacketAddr (lookup : Option SocketAddr) (preferIpv4Upstream : Bool) : TargetAddr → Option SocketAddr
  | .domain _ _ => lookup
  | .ipV4 octets port => some (.v4 octets port)
  | .ipV6 octets port => if preferIpv4Upstream then none else some (.v6 octets port)

inductive SubConnKind where
  | tcp (target : TargetAddr)
  | udp (defaultTarget : SocketAddr)

def SubConnKind.isUdp : SubConnKind → Bool
  | tcp _ => false
  | udp _ => true

structure MuxSubConn where
  kind : SubConnKind
  readerTask : Nat

structure Reader where
  sessionId : UInt16
  isUdp : Bool
  aborted : Bool
  finished : Bool

/-- What `dispatch_frame` fails with; the carrier takes no frame after that. -/
inductive MuxFailure where
  | missingNetwork
  | missingTarget
  | initialWrite
  | queueEnd

inductive Entry where
  | accepted (sessionId : UInt16) (initial : Bytes)
  | refusedDuplicate (sessionId : UInt16)
  | refusedLimit (sessionId : UInt16)
  | unreachable (sessionId : UInt16)
  | written (sessionId : UInt16) (target : SubConnKind) (payload : Bytes)
  | writeFailed (sessionId : UInt16)
  | endReceived (sessionId : UInt16)
  | sent (sessionId : UInt16) (status : SessionStatus) (frame : Bytes)

structure MuxState where
  subConns : Table UInt16 MuxSubConn
  readers : List Reader
  failure : Option MuxFailure
  log : List Entry

open MuxState

structure Answers where
  connected : Bool
  resolved : Option SocketAddr
  bound : Bool
  lookup : Option SocketAddr
  wrote : Bool
  queued : Bool

/-- Either what was read, with its sender for a datagram, or the end of the stream or an error. -/
inductive Upstream where
  | data (bytes : Bytes) (src : SocketAddr)
  | closed

inductive Event where
  | frame (frame : FrameMeta) (data : Option Bytes) (answers : Answers)
  | upstream (k : Nat) (event : Upstream) (queued : Bool)
  /-- An aborted task is dropped. -/
  | reaped (k : Nat)

def endFrame (sessionId : UInt16) (error : Bool) : Bytes :=
  ((encodeFrame [] sessionId .finish (if error then optionError else 0) none none none).map Prod.snd).getD []

namespace MuxState

variable (m : MuxState)

def new : MuxState := ⟨∅, [], none, []⟩

def note (entry : Entry) : MuxState := { m with log := entry :: m.log }

def fail (failure : MuxFailure) : MuxState := { m with failure := some failure }

variable (sessionId : UInt16)

def sendEnd (error queued : Bool) : MuxState :=
  if queued then m.note (.sent sessionId .finish (endFrame sessionId error)) else m.fail .queueEnd

def insertSub (kind : SubConnKind) (initial : Bytes) : MuxState :=
  { m with
    subConns := m.subConns.insert sessionId ⟨kind, m.readers.length⟩
    readers := m.readers ++ [⟨sessionId, kind.isUdp, false, false⟩]
    log := .accepted sessionId initial :: m.log }

def openTcpSub (target : TargetAddr) (initial : Option Bytes) (answers : Answers) : MuxState :=
  if answers.connected then
    if (initial.getD []).isEmpty || answers.wrote then m.insertSub sessionId (.tcp target) (initial.getD [])
    else m.fail .initialWrite
  else (m.note (.unreachable sessionId)).sendEnd sessionId true answers.queued

def openUdpSub (initial : Option Bytes) (answers : Answers) : MuxState :=
  match answers.resolved with
  | none => (m.note (.unreachable sessionId)).sendEnd sessionId true answers.queued
  | some defaultTarget =>
    if answers.bound then m.insertSub sessionId (.udp defaultTarget) (initial.getD [])
    else (m.note (.unreachable sessionId)).sendEnd sessionId true answers.queued

def handleNew (frame : FrameMeta) (data : Option Bytes) (answers : Answers) : MuxState :=
  match frame.network, frame.target with
  | none, _ => m.fail .missingNetwork
  | some _, none => m.fail .missingTarget
  | some network, some target =>
    if (m.subConns.lookup frame.sessionId).isSome then
      (m.note (.refusedDuplicate frame.sessionId)).sendEnd frame.sessionId true answers.queued
    else if maxMuxSubConns ≤ size m.subConns then
      (m.note (.refusedLimit frame.sessionId)).sendEnd frame.sessionId true answers.queued
    else
      match network with
      | .tcp => m.openTcpSub frame.sessionId target data answers
      | .udp => m.openUdpSub frame.sessionId data answers

def abortReader (k : Nat) : MuxState :=
  { m with readers := m.readers.modify k fun reader => { reader with aborted := true } }

def finishSub : MuxState :=
  match m.subConns.lookup sessionId with
  | none => m
  | some sub => { m.abortReader sub.readerTask with subConns := m.subConns.erase sessionId }

def packetTarget (preferIpv4Upstream : Bool) (frame : FrameMeta) (answers : Answers) (defaultTarget : SocketAddr) :
    Option SocketAddr :=
  match frame.target with
  | some addr => resolvePacketAddr answers.lookup preferIpv4Upstream addr
  | none => some defaultTarget

def handleKeep (preferIpv4Upstream : Bool) (frame : FrameMeta) (data : Option Bytes) (answers : Answers) : MuxState :=
  match m.subConns.lookup frame.sessionId, data with
  | none, _ => m
  | some _, none => m
  | some ⟨.tcp target, _⟩, some payload =>
    let m := m.note (.written frame.sessionId (.tcp target) payload)
    if answers.wrote then m else (m.note (.writeFailed frame.sessionId)).finishSub frame.sessionId
  | some ⟨.udp defaultTarget, _⟩, some payload =>
    match packetTarget preferIpv4Upstream frame answers defaultTarget with
    | some dst => m.note (.written frame.sessionId (.udp dst) payload)
    | none => m

def handleEnd : MuxState := (m.note (.endReceived sessionId)).finishSub sessionId

def dispatchFrame (preferIpv4Upstream : Bool) (frame : FrameMeta) (data : Option Bytes)
    (answers : Answers) : MuxState :=
  match frame.status with
  | .new => m.handleNew frame data answers
  | .keep => m.handleKeep preferIpv4Upstream frame data answers
  | .finish => m.handleEnd frame.sessionId
  | .keepAlive => m

def stopReader (k : Nat) : MuxState :=
  { m with readers := m.readers.modify k fun reader => { reader with finished := true } }

def leaveReader (k : Nat) (sessionId : UInt16) (queued : Bool) : MuxState :=
  (if queued then m.note (.sent sessionId .finish (endFrame sessionId false)) else m).stopReader k

def runReader (k : Nat) (reader : Reader) (queued : Bool) : Upstream → MuxState
  | .closed => m.leaveReader k reader.sessionId queued
  | .data bytes src =>
    if bytes.isEmpty then if reader.isUdp then m else m.leaveReader k reader.sessionId queued
    else
      match encodeFrame [] reader.sessionId .keep optionData (if reader.isUdp then some .udp else none)
        (if reader.isUdp then some src.toTarget else none) (some bytes) with
      | some (.ok (), frame) => if queued then m.note (.sent reader.sessionId .keep frame) else m.stopReader k
      | _ => if reader.isUdp then m else m.leaveReader k reader.sessionId queued

end MuxState

def step (preferIpv4Upstream : Bool) (m : MuxState) : Event → Option MuxState
  | .frame frame data answers =>
    if m.failure.isSome then none else some (m.dispatchFrame preferIpv4Upstream frame data answers)
  | .upstream k event queued =>
    m.readers[k]?.bind fun reader => if reader.finished then none else some (m.runReader k reader queued event)
  | .reaped k => m.readers[k]?.bind fun reader => if reader.aborted then some (m.stopReader k) else none

def attachParked (parked : List (UInt16 × SubConnKind)) : MuxState :=
  parked.foldl (fun m sub => m.insertSub sub.1 sub.2 []) .new

section Standing

/-- An id is taken from its New on, until an End comes for it or a write to its target fails. It is `ended` when the
server has sent End for it since. -/
inductive Standing where
  | free
  | live
  | ended
deriving DecidableEq

def Entry.mark (id : UInt16) (before : Standing) : Entry → Standing
  | .accepted sessionId _ => if sessionId = id then .live else before
  | .sent sessionId .finish _ => if sessionId = id ∧ before = .live then .ended else before
  | .endReceived sessionId | .writeFailed sessionId => if sessionId = id then .free else before
  | _ => before

def standing (id : UInt16) : List Entry → Standing
  | [] => .free
  | entry :: log => entry.mark id (standing id log)

/-- As many sub-connections as there may be, for none of which an End was sent or received. -/
def Crowded (log : List Entry) : Prop :=
  ∃ ids : List UInt16, ids.Nodup ∧ maxMuxSubConns ≤ ids.length ∧ ∀ id ∈ ids, standing id log = .live

def Entry.Justified (log : List Entry) : Entry → Prop
  | .refusedLimit _ => Crowded log
  | .refusedDuplicate sessionId => standing sessionId log = .live
  | .written sessionId _ _ => standing sessionId log = .live
  | _ => True

def Justified : List Entry → Prop
  | [] => True
  | entry :: log => entry.Justified log ∧ Justified log

/-- The client has sent End itself for the ids the server has ended: for the id of a New or Keep, and for all of them
before a New when every place is taken. -/
def MayCome (m : MuxState) (sessionId : UInt16) : SessionStatus → Prop
  | .new =>
    standing sessionId m.log ≠ .ended ∧
      (size m.subConns < maxMuxSubConns ∨ ∀ id ∈ m.subConns.keys, standing id m.log ≠ .ended)
  | .keep => standing sessionId m.log ≠ .ended
  | .finish | .keepAlive => True

def Answered (m : MuxState) : Event → Prop
  | .frame frame _ _ => MayCome m frame.sessionId frame.status
  | .upstream _ _ _ | .reaped _ => True

instance (m : MuxState) (sessionId : UInt16) : (status : SessionStatus) → Decidable (MayCome m sessionId status)
  | .new =>
    have : Decidable (∀ id ∈ m.subConns.keys, standing id m.log ≠ .ended) := List.decidableBAll _ _
    inferInstanceAs (Decidable (_ ∧ (_ ∨ ∀ id ∈ m.subConns.keys, standing id m.log ≠ .ended)))
  | .keep => inferInstanceAs (Decidable (_ ≠ _))
  | .finish | .keepAlive => inferInstanceAs (Decidable True)

instance (m : MuxState) : (event : Event) → Decidable (Answered m event)
  | .frame frame _ _ => inferInstanceAs (Decidable (MayCome m frame.sessionId frame.status))
  | .upstream _ _ _ | .reaped _ => inferInstanceAs (Decidable True)

def Reaches (frame : FrameMeta) (data : Option Bytes) (answers : Answers) : Prop :=
  match frame.network, frame.target with
  | some .tcp, some _ => answers.connected ∧ ((data.getD []).isEmpty ∨ answers.wrote)
  | some .udp, some _ => answers.resolved.isSome ∧ answers.bound
  | _, _ => False

end Standing

section Invariant

variable {m : MuxState} {sessionId id : UInt16}

structure Sound (m : MuxState) : Prop where
  taken : ∀ id, (m.subConns.lookup id).isSome ↔ standing id m.log ≠ .free
  bound : size m.subConns ≤ maxMuxSubConns
  justified : Justified m.log

def Entry.Quiet (entry : Entry) : Prop := ∀ id before, entry.mark id before = .free ↔ before = .free

theorem quiet_sent (sessionId : UInt16) (status : SessionStatus) (frame : Bytes) :
    (Entry.sent sessionId status frame).Quiet := by
  intro id before
  cases status <;> simp only [Entry.mark]
  split
  · rename_i h
    simp [h.2]
  · rfl

variable {entry : Entry}

theorem Sound.note (h : Sound m) (hquiet : entry.Quiet) (hjustified : entry.Justified m.log) :
    Sound (m.note entry) where
  taken id := (h.taken id).trans (not_congr (hquiet id _)).symm
  bound := h.bound
  justified := ⟨hjustified, h.justified⟩

theorem Sound.fail (h : Sound m) (failure : MuxFailure) : Sound (m.fail failure) := ⟨h.taken, h.bound, h.justified⟩

theorem Sound.stopReader (h : Sound m) (k : Nat) : Sound (m.stopReader k) := ⟨h.taken, h.bound, h.justified⟩

theorem Sound.refuse (h : Sound m) {error queued : Bool} (hquiet : entry.Quiet)
    (hjustified : entry.Justified m.log) : Sound ((m.note entry).sendEnd sessionId error queued) := by
  have hnoted := h.note hquiet hjustified
  rw [sendEnd]
  split
  · exact hnoted.note (quiet_sent _ _ _) trivial
  · exact hnoted.fail _

theorem Sound.leaveReader (h : Sound m) (k : Nat) (queued : Bool) : Sound (m.leaveReader k sessionId queued) := by
  apply Sound.stopReader
  split
  · exact h.note (quiet_sent _ _ _) trivial
  · exact h

theorem size_insertSub_le (m : MuxState) (sessionId : UInt16) (kind : SubConnKind) (initial : Bytes) :
    size (m.insertSub sessionId kind initial).subConns ≤ size m.subConns + 1 :=
  Nat.succ_le_succ (size_erase_le m.subConns sessionId)

theorem Sound.insertSub (h : Sound m) (hroom : size m.subConns < maxMuxSubConns) (kind : SubConnKind)
    (initial : Bytes) :
    Sound (m.insertSub sessionId kind initial) where
  taken id := by
    rw [MuxState.insertSub, lookup_insert_eq, standing, Entry.mark]
    by_cases hid : id = sessionId
    · simp [hid]
    · rw [if_neg hid, if_neg (Ne.symm hid)]
      exact h.taken id
  bound := Nat.le_trans (size_insertSub_le m _ _ _) hroom
  justified := ⟨trivial, h.justified⟩

theorem Sound.finishSub (h : Sound m)
    (hmark : ∀ id before, entry.mark id before = if sessionId = id then .free else before)
    (hjustified : entry.Justified m.log) : Sound ((m.note entry).finishSub sessionId) := by
  have hstanding : ∀ id, standing id (entry :: m.log) ≠ .free ↔ id ≠ sessionId ∧ (m.subConns.lookup id).isSome := by
    have htaken := h.taken
    grind [standing]
  rw [MuxState.finishSub]
  split
  · rename_i hnone
    refine ⟨fun id => ?_, h.bound, hjustified, h.justified⟩
    refine Iff.trans ?_ (hstanding id).symm
    constructor
    · intro hsome
      refine ⟨?_, hsome⟩
      rintro rfl
      rw [hnone] at hsome
      cases hsome
    · intro hboth
      exact hboth.2
  · refine ⟨fun id => ?_, Nat.le_trans (size_erase_le _ _) h.bound, hjustified, h.justified⟩
    refine Iff.trans ?_ (hstanding id).symm
    rw [show (m.note entry).subConns = m.subConns from rfl, lookup_erase_eq]
    by_cases hid : id = sessionId
    · simp [hid]
    · simp [hid]

theorem Sound.start {parked : List (UInt16 × SubConnKind)} (hparked : parked.length ≤ maxMuxSubConns) :
    Sound (attachParked parked) := by
  have hall : ∀ m : MuxState, Sound m → size m.subConns + parked.length ≤ maxMuxSubConns →
      Sound (parked.foldl (fun m sub => m.insertSub sub.1 sub.2 []) m) := by
    clear hparked
    induction parked with
    | nil => exact fun m h _ => h
    | cons sub parked ih =>
      intro m h hroom
      rw [List.length_cons] at hroom
      have hle := size_insertSub_le m sub.1 sub.2 []
      exact ih (m.insertSub sub.1 sub.2 []) (h.insertSub (by omega) _ _) (by omega)
  refine hall .new ⟨fun id => ?_, Nat.zero_le _, trivial⟩
    (by rwa [show size new.subConns = 0 from rfl, Nat.zero_add])
  simp [new, standing]

theorem Sound.live (h : Sound m) (hsome : (m.subConns.lookup id).isSome) (hanswered : standing id m.log ≠ .ended) :
    standing id m.log = .live := by
  have htaken := (h.taken id).mp hsome
  cases hstanding : standing id m.log with
  | free => exact absurd hstanding htaken
  | live => rfl
  | ended => exact absurd hstanding hanswered

theorem Sound.crowded (h : Sound m) (hfull : maxMuxSubConns ≤ size m.subConns)
    (hanswered : ∀ id ∈ m.subConns.keys, standing id m.log ≠ .ended) : Crowded m.log := by
  refine ⟨m.subConns.keys, m.subConns.keys_nodup, ?_, ?_⟩
  · rwa [AList.keys, List.keys, List.length_map]
  · intro id hid
    exact h.live (AList.lookup_isSome.mpr (AList.mem_keys.mp hid)) (hanswered id hid)

variable {frame : FrameMeta}

theorem Sound.handleNew (h : Sound m) (hcome : MayCome m frame.sessionId .new) (data : Option Bytes)
    (answers : Answers) : Sound (m.handleNew frame data answers) := by
  have hunreachable : Sound ((m.note (.unreachable frame.sessionId)).sendEnd frame.sessionId true answers.queued) :=
    h.refuse (fun _ _ => Iff.rfl) trivial
  rw [MuxState.handleNew]
  split
  · exact h.fail _
  · exact h.fail _
  · split
    · rename_i hsome
      exact h.refuse (fun _ _ => Iff.rfl) (h.live hsome hcome.1)
    · split
      · rename_i hfull
        have hnone := hcome.2.resolve_left (Nat.not_lt.mpr hfull)
        exact h.refuse (fun _ _ => Iff.rfl) (h.crowded hfull hnone)
      · rename_i hroom
        have hroom := Nat.lt_of_not_le hroom
        split
        · rw [openTcpSub]
          split
          · split
            · exact h.insertSub hroom _ _
            · exact h.fail _
          · exact hunreachable
        · rw [openUdpSub]
          split
          · exact hunreachable
          · split
            · exact h.insertSub hroom _ _
            · exact hunreachable

theorem Sound.handleKeep (h : Sound m) (hcome : MayCome m frame.sessionId .keep)
    (preferIpv4Upstream : Bool) (data : Option Bytes) (answers : Answers) :
    Sound (m.handleKeep preferIpv4Upstream frame data answers) := by
  have hwritten : ∀ sub, m.subConns.lookup frame.sessionId = some sub → ∀ target payload,
      Sound (m.note (.written frame.sessionId target payload)) := by
    intro sub hsub target payload
    exact h.note (fun _ _ => Iff.rfl) (h.live (by rw [hsub]; rfl) hcome)
  unfold MuxState.handleKeep
  split
  · exact h
  · exact h
  · rename_i hsub
    dsimp only
    split
    · exact hwritten _ hsub _ _
    · exact (hwritten _ hsub _ _).finishSub (fun _ _ => rfl) trivial
  · rename_i hsub
    split
    · exact hwritten _ hsub _ _
    · exact h

theorem Sound.runReader (h : Sound m) (k : Nat) (reader : Reader) (queued : Bool) (event : Upstream) :
    Sound (m.runReader k reader queued event) := by
  cases event with
  | closed => exact h.leaveReader k queued
  | data bytes src =>
    rw [MuxState.runReader]
    split
    · split
      · exact h
      · exact h.leaveReader k queued
    · split
      · split
        · exact h.note (quiet_sent _ _ _) trivial
        · exact h.stopReader k
      · split
        · exact h
        · exact h.leaveReader k queued

theorem Sound.next {preferIpv4Upstream : Bool} {next : MuxState} {event : Event} (h : Sound m)
    (hanswered : Answered m event) (hstep : step preferIpv4Upstream m event = some next) : Sound next := by
  cases event with
  | frame frame data answers =>
    rw [step] at hstep
    split at hstep
    · cases hstep
    · cases hstep
      simp only [Answered] at hanswered
      rw [dispatchFrame]
      split <;> rename_i hstatus <;> rw [hstatus] at hanswered
      · exact h.handleNew hanswered data answers
      · exact h.handleKeep hanswered preferIpv4Upstream data answers
      · exact h.finishSub (fun _ _ => rfl) trivial
      · exact h
  | upstream k event queued =>
    obtain ⟨reader, -, hreader⟩ := Option.bind_eq_some_iff.mp hstep
    split at hreader
    · cases hreader
    · cases hreader
      exact h.runReader k reader queued event
  | reaped k =>
    obtain ⟨reader, -, hreader⟩ := Option.bind_eq_some_iff.mp hstep
    split at hreader
    · cases hreader
      exact h.stopReader k
    · cases hreader

theorem Sound.of_run {preferIpv4Upstream : Bool} {parked : List (UInt16 × SubConnKind)} {events : List Event}
    (hparked : parked.length ≤ maxMuxSubConns)
    (hrun : Run (step preferIpv4Upstream) Answered (attachParked parked) events m) : Sound m :=
  hrun.invariant (P := fun _ m => Sound m) (Sound.start hparked) fun _ _ _ _ h hanswered hstep => h.next hanswered hstep

theorem handleNew_accepted {data : Option Bytes} {answers : Answers}
    (hfree : m.subConns.lookup frame.sessionId = none) (hroom : size m.subConns < maxMuxSubConns)
    (hreaches : Reaches frame data answers) :
    standing frame.sessionId (m.handleNew frame data answers).log = .live := by
  have hinserted : ∀ kind initial, standing frame.sessionId (m.insertSub frame.sessionId kind initial).log = .live :=
    fun kind initial => if_pos rfl
  rw [handleNew]
  rw [Reaches] at hreaches
  split at hreaches
  · grind [openTcpSub]
  · grind [openUdpSub]
  · exact hreaches.elim

end Invariant

section Main

def acceptedIds : List Entry → List UInt16
  | [] => []
  | .accepted sessionId _ :: log => sessionId :: acceptedIds log
  | _ :: log => acceptedIds log

theorem mem_acceptedIds {id : UInt16} {log : List Entry} (h : standing id log ≠ .free) : id ∈ acceptedIds log := by
  induction log with
  | nil => exact absurd rfl h
  | cons entry log ih =>
    cases entry with
    | accepted sessionId initial =>
      by_cases hid : sessionId = id
      · rw [hid]
        exact List.mem_cons_self
      · rw [standing, Entry.mark, if_neg hid] at h
        exact List.mem_cons_of_mem _ (ih h)
    | sent sessionId status frame => exact ih (mt (quiet_sent sessionId status frame id _).mpr h)
    | endReceived sessionId | writeFailed sessionId =>
      by_cases hid : sessionId = id
      · exact absurd (if_pos hid) h
      · rw [standing, Entry.mark, if_neg hid] at h
        exact ih h
    | refusedDuplicate sessionId | refusedLimit sessionId | unreachable sessionId => exact ih h
    | written sessionId target payload => exact ih h

theorem not_crowded {log : List Entry} (h : (acceptedIds log).all fun id => standing id log ≠ .live) :
    ¬ Crowded log := by
  rintro ⟨ids, -, hlength, hlive⟩
  obtain ⟨id, hid⟩ := List.exists_mem_of_length_pos (Nat.lt_of_lt_of_le (by decide) hlength)
  have hstanding := hlive id hid
  have hmem : id ∈ acceptedIds log := mem_acceptedIds (by rw [hstanding]; decide)
  exact of_decide_eq_true (List.all_eq_true.mp h id hmem) hstanding

variable {preferIpv4Upstream : Bool} {parked : List (UInt16 × SubConnKind)} {events : List Event} {m : MuxState}

/-- Where the client answers the Ends of the server, an id is refused or written to only while its sub-connection lives,
the limit counts living ones only, and a New for any other id is taken. -/
theorem mux_ids_free_again (hparked : parked.length ≤ maxMuxSubConns)
    (hrun : Run (step preferIpv4Upstream) Answered (attachParked parked) events m) :
    Justified m.log ∧ ∀ frame data answers next, frame.status = .new → Answered m (.frame frame data answers) →
        step preferIpv4Upstream m (.frame frame data answers) = some next →
        standing frame.sessionId m.log ≠ .live → ¬ Crowded m.log → Reaches frame data answers →
        standing frame.sessionId next.log = .live := by
  have h := Sound.of_run hparked hrun
  refine ⟨h.justified, ?_⟩
  intro frame data answers next hstatus hanswered hstep hnotLive hnotCrowded hreaches
  simp only [Answered, hstatus] at hanswered
  have hfree : m.subConns.lookup frame.sessionId = none := by
    apply Option.not_isSome_iff_eq_none.mp
    intro hsome
    exact hnotLive (h.live hsome hanswered.1)
  have hroom : size m.subConns < maxMuxSubConns := by
    apply Nat.lt_of_not_le
    intro hfull
    exact hnotCrowded (h.crowded hfull (hanswered.2.resolve_left (Nat.not_lt.mpr hfull)))
  rw [step] at hstep
  split at hstep
  · cases hstep
  · cases hstep
    rw [dispatchFrame, hstatus]
    exact handleNew_accepted hfree hroom hreaches

def somewhere : TargetAddr := .ipV4 ⟨[192, 0, 2, 1], rfl⟩ 80

def obliging : Answers := ⟨true, none, true, none, true, true⟩

def newTcp (sessionId : UInt16) : Event := .frame ⟨sessionId, .new, 0, some somewhere, some .tcp, none⟩ none obliging

def keepOne (sessionId : UInt16) : Event :=
  .frame ⟨sessionId, .keep, optionData, none, none, none⟩ (some [7]) obliging

def endOf (sessionId : UInt16) : Event := .frame ⟨sessionId, .finish, 0, none, none, none⟩ none obliging

/-- The target ends its stream, the client answers the End, and the id is taken again. -/
theorem mux_ids_free_again_reused :
    let events := [newTcp 1, keepOne 1, .upstream 0 .closed true, endOf 1]
    ∃ m, Run (step false) Answered (attachParked []) events m ∧ Justified m.log ∧
      ∃ next, step false m (newTcp 1) = some next ∧ standing 1 next.log = .live := by
  intro events
  let state := events.foldlM (fun m event => if Answered m event then step false m event else none) (attachParked [])
  have hrun : Run (step false) Answered (attachParked []) events (state.getD .new) := run_of_foldlM rfl
  have hmain := mux_ids_free_again (Nat.zero_le _) hrun
  refine ⟨_, hrun, hmain.1, _, rfl, ?_⟩
  refine hmain.2 ⟨1, .new, 0, some somewhere, some .tcp, none⟩ none obliging
    _ rfl (by decide) rfl (by decide) ?_ ⟨rfl, .inl rfl⟩
  exact not_crowded (by decide)

/-- Eight targets end their streams.  What comes for the first id is still written, its next New is a duplicate, and
a ninth id is over the limit. -/
theorem ended_sub_conns_stay :
    let events := (List.range 8).map (fun i => newTcp (UInt16.ofNat (i + 1))) ++
      (List.range 8).map (fun k => .upstream k .closed true) ++ [keepOne 1, newTcp 1, newTcp 9]
    ∃ m, Run (step false) (fun _ _ => True) (attachParked []) events m ∧
      (m.log[4]? = some (.written 1 (.tcp somewhere) [7]) ∧ standing 1 (m.log.drop 5) = .ended) ∧
      (m.log[3]? = some (.refusedDuplicate 1) ∧ standing 1 (m.log.drop 4) = .ended) ∧
      m.log[1]? = some (.refusedLimit 9) ∧ ¬ Crowded (m.log.drop 2) := by
  intro events
  refine ⟨_, run_of_foldlM rfl, ⟨rfl, by decide⟩, ⟨rfl, by decide⟩, rfl, ?_⟩
  exact not_crowded (by decide)

end Main

end OutlineProxy.Server.VlessMux
