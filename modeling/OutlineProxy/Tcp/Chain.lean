import OutlineProxy.Tcp.Frames

/-! The queue of unacknowledged segments as a chain on the positions of the downlink stream, and
what acknowledgements and retransmissions do to it. -/

namespace OutlineProxy.Tcp

open Serial

/-- The segments follow each other from position `base` to `stop`, none is empty, and each
satisfies `P` at its own position. -/
inductive Chain (isn : UInt32) (P : Nat → ServerSegment → Prop) : Nat → List ServerSegment → Nat → Prop
  | nil (k : Nat) : Chain isn P k [] k
  | cons {segment : ServerSegment} {rest : List ServerSegment} {k stop : Nat} :
      segment.sequenceNumber = point isn k → 0 < serverSegmentLen segment → P k segment →
      Chain isn P (k + serverSegmentLen segment) rest stop → Chain isn P k (segment :: rest) stop

namespace Chain

variable {isn : UInt32} {P Q : Nat → ServerSegment → Prop} {base mid stop : Nat}
  {segments rest : List ServerSegment}

theorem le (h : Chain isn P base segments stop) : base ≤ stop := by
  induction h with
  | nil k => exact le_rfl
  | cons _ _ _ _ ih => omega

theorem append (h : Chain isn P base segments mid) (k : Chain isn P mid rest stop) :
    Chain isn P base (segments ++ rest) stop := by
  induction h with
  | nil _ => exact k
  | cons hseq hpos hp _ ih => exact .cons hseq hpos hp (ih k)

theorem mono_ge (h : Chain isn P base segments stop)
    (hpq : ∀ k s, base ≤ k → 0 < serverSegmentLen s → P k s → Q k s) : Chain isn Q base segments stop := by
  induction h with
  | nil k => exact .nil k
  | cons hseq hpos hp _ ih =>
    exact .cons hseq hpos (hpq _ _ le_rfl hpos hp) (ih fun k s hk => hpq k s (by omega))

theorem mono (hpq : ∀ k s, P k s → Q k s) (h : Chain isn P base segments stop) :
    Chain isn Q base segments stop :=
  h.mono_ge fun k s _ _ => hpq k s

theorem head (h : Chain isn P base segments stop) {s : ServerSegment} (hs : s ∈ segments.head?) :
    s.sequenceNumber = point isn base ∧ base + serverSegmentLen s ≤ stop := by
  cases h with
  | nil => simp at hs
  | cons hseq _ _ htail =>
    obtain rfl := Option.some.inj hs
    exact ⟨hseq, htail.le⟩

theorem beyond {k : Nat} (h : Chain isn P base segments stop)
    (hhead : ∀ s ∈ segments.head?, k < base + serverSegmentLen s) :
    Chain isn (fun m s => k < m + serverSegmentLen s) base segments stop := by
  cases h with
  | nil => exact .nil base
  | cons hseq hpos hp htail =>
    have hfirst := hhead _ rfl
    exact .cons hseq hpos hfirst (htail.mono_ge fun m s hm _ _ => by omega)

theorem suffix (h : Chain isn P base segments stop) (hs : rest <:+ segments) :
    ∃ k, base ≤ k ∧ Chain isn P k rest stop := by
  induction h with
  | nil k =>
    obtain rfl := List.suffix_nil.1 hs
    exact ⟨k, le_rfl, .nil k⟩
  | @cons segment tail k stop hseq hpos hp htail ih =>
    rcases List.suffix_cons_iff.1 hs with rfl | hs
    · exact ⟨k, le_rfl, .cons hseq hpos hp htail⟩
    · obtain ⟨m, hm, hc⟩ := ih hs
      exact ⟨m, by omega, hc⟩

theorem split (h : Chain isn P base (segments ++ rest) stop) :
    ∃ mid, Chain isn P base segments mid ∧ Chain isn P mid rest stop := by
  induction segments generalizing base with
  | nil => exact ⟨base, .nil base, h⟩
  | cons segment tail ih =>
    cases h with
    | cons hseq hpos hp htail =>
      obtain ⟨mid, hfront, hback⟩ := ih htail
      exact ⟨mid, .cons hseq hpos hp hfront, hback⟩

section

variable (h : Chain isn P base segments stop)

include h

theorem exists_last (hne : segments ≠ []) :
    ∃ s ∈ segments, ∃ k, s.sequenceNumber = point isn k ∧ k + serverSegmentLen s = stop := by
  induction h with
  | nil => exact absurd rfl hne
  | @cons segment tail k stop hseq hpos hp htail ih =>
    by_cases hlast : tail = []
    · subst hlast
      cases htail
      exact ⟨segment, List.mem_singleton.2 rfl, k, hseq, rfl⟩
    · obtain ⟨s, hs, m, hm⟩ := ih hlast
      exact ⟨s, List.mem_cons_of_mem _ hs, m, hm⟩

theorem sum_len :
    base + (segments.map serverSegmentLen).sum = stop := by
  induction h with
  | nil k => rfl
  | cons _ _ _ _ ih =>
    rw [List.map_cons, List.sum_cons]
    omega

theorem mem {segment : ServerSegment} (hm : segment ∈ segments) :
    ∃ k, base ≤ k ∧ k + serverSegmentLen segment ≤ stop ∧ segment.sequenceNumber = point isn k ∧ P k segment := by
  induction h with
  | nil k => simp at hm
  | @cons head tail k stop hseq hpos hp htail ih =>
    rcases List.mem_cons.1 hm with rfl | hm
    · exact ⟨k, le_rfl, htail.le, hseq, hp⟩
    · obtain ⟨m, h1, h2, h3, h4⟩ := ih hm
      exact ⟨m, by omega, h2, h3, h4⟩

theorem len_pos {segment : ServerSegment} (hm : segment ∈ segments) :
    0 < serverSegmentLen segment := by
  have hpos := h.mono_ge (Q := fun _ s => 0 < serverSegmentLen s) fun _ _ _ hpos _ => hpos
  obtain ⟨_, _, _, _, hlen⟩ := hpos.mem hm
  exact hlen

end

end Chain

variable {segment : ServerSegment}

theorem serverSegmentEnd_point {isn : UInt32} {k : Nat} (h : segment.sequenceNumber = point isn k) :
    serverSegmentEnd segment = point isn (k + serverSegmentLen segment) := by
  rw [serverSegmentEnd, h, point_add]

/-- The two segments carry the same bytes under the same number; only their send records differ. -/
structure SameSegment (s t : ServerSegment) : Prop where
  sequenceNumber : t.sequenceNumber = s.sequenceNumber
  payload : t.payload = s.payload
  flags : t.flags = s.flags

theorem SameSegment.len {s t : ServerSegment} (h : SameSegment s t) :
    serverSegmentLen t = serverSegmentLen s := by
  simp only [serverSegmentLen, h.payload, h.flags]

theorem Chain.set {isn : UInt32} {P : Nat → ServerSegment → Prop} {base stop : Nat}
    {segments : List ServerSegment} (hP : ∀ k s t, SameSegment s t → P k s → P k t)
    (h : Chain isn P base segments stop) (index : Nat) {mark : ServerSegment → ServerSegment}
    (hmark : ∀ s, SameSegment s (mark s)) (hget : segments[index]? = some segment) :
    Chain isn P base (segments.set index (mark segment)) stop := by
  induction h generalizing index with
  | nil k => simp at hget
  | @cons head tail k stop hseq hpos hp htail ih =>
    cases index with
    | zero =>
      obtain rfl : head = segment := by simpa using hget
      have hsame := hmark head
      refine .cons (hsame.sequenceNumber.trans hseq) (hsame.len ▸ hpos) (hP _ _ _ hsame hp) ?_
      rw [hsame.len]
      exact htail
    | succ index => exact .cons hseq hpos hp (ih index (by simpa using hget))

section Acknowledgements

variable (state : TcpFlowState) (clock : Clock)

theorem popAcked_pops (ack : UInt32) (i : Nat) (segments : List ServerSegment) (samples : PopSamples) :
    ∃ popped, segments = popped ++ (popAcked ack clock i segments state samples).1.unackedServerSegments ∧
      ∀ x ∈ popped, seqGe ack (serverSegmentEnd x) = true := by
  induction segments generalizing state samples i with
  | nil => exact ⟨[], rfl, by simp⟩
  | cons segment rest ih =>
    rw [popAcked]
    by_cases hcovered : seqGe ack (serverSegmentEnd segment) = true
    · have hmore : ∀ s j samples', ∃ popped, segment :: rest =
              popped ++ (popAcked ack clock j rest s samples').1.unackedServerSegments ∧
            ∀ x ∈ popped, seqGe ack (serverSegmentEnd x) = true := by
        intro s j samples'
        obtain ⟨popped, hsplit, hpopped⟩ := ih s j samples'
        refine ⟨segment :: popped, by rw [List.cons_append, ← hsplit], ?_⟩
        simpa [hcovered] using hpopped
      rw [if_neg (by simpa using hcovered)]
      dsimp only
      split <;> split <;> exact hmore ..
    · rw [if_pos (by simpa using hcovered)]
      exact ⟨[], rfl, by simp⟩

@[simp] theorem unacked_refreshEarliestAfterPop :
    (refreshEarliestAfterPop state).unackedServerSegments = state.unackedServerSegments := by
  unfold refreshEarliestAfterPop
  split
  · rfl
  · split <;> rfl

theorem advanceServerAck_pops (ack : UInt32) : ∃ popped, state.unackedServerSegments =
        popped ++ (advanceServerAck state ack clock).1.unackedServerSegments ∧
      ∀ x ∈ popped, seqGe ack (serverSegmentEnd x) = true := by
  obtain ⟨popped, hsplit, hpopped⟩ := popAcked_pops
    { state with lastClientAck := ack, duplicateAckCount := 0 } clock ack 0 state.unackedServerSegments {}
  have hrefreshed := hsplit.trans (congrArg (popped ++ ·) (unacked_refreshEarliestAfterPop _).symm)
  refine ⟨popped, ?_, hpopped⟩
  simp only [advanceServerAck]
  split
  · split <;> exact hrefreshed
  · exact hrefreshed

@[simp] theorem unacked_duplicateServerAck (advanced : Bool) :
    (duplicateServerAck state advanced).1.unackedServerSegments = state.unackedServerSegments := by
  simp only [duplicateServerAck]
  split
  · rfl
  · split <;> rfl

theorem processServerAck_pops (ack : UInt32) (blocks : List (UInt32 × UInt32)) :
    ∃ popped, state.unackedServerSegments =
        popped ++ (processServerAck state ack blocks clock).1.unackedServerSegments ∧
      ∀ x ∈ popped, seqGe ack (serverSegmentEnd x) = true := by
  have hupdated : (ackUpdated state ack blocks).unackedServerSegments = state.unackedServerSegments := by
    unfold ackUpdated
    dsimp only
    split <;> rfl
  have htrimmed : ∀ s : TcpFlowState, (ackTrimmed s ack).unackedServerSegments = s.unackedServerSegments := by
    intro s
    unfold ackTrimmed
    dsimp only
    split <;> rfl
  rw [processServerAck_eq, htrimmed, ← hupdated]
  unfold ackBranch
  split_ifs
  · exact ⟨[], rfl, by simp⟩
  · exact advanceServerAck_pops ..
  · exact ⟨[], by simp, by simp⟩
  · exact ⟨[], rfl, by simp⟩

end Acknowledgements

end OutlineProxy.Tcp
