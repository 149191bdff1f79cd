import Mathlib.Data.List.AList
import Mathlib.Algebra.Ring.Nat
import OutlineProxy.Lib.Runs

/-! The packet-up uplink of an XHTTP session.  Bodies are queued in order of their sequence number; one
that comes early is parked until the numbers before it are there and the queue has room. -/

namespace OutlineProxy.Server

open List Runs

def uplinkReorderBufferBytesCap : Nat := 256 * 1024

def uplinkReorderMaxGap : Nat := 64

def uplinkReadyBytesCap : Nat := 256 * 1024

def uplinkWaitingBytesCap : Nat := 4 * 1024 * 1024

def u64Max : Nat := 2 ^ 64 - 1

def saturatingSucc (seq : Nat) : Nat := min (seq + 1) u64Max

inductive UplinkIngestError where
  | closed
  | gapTooLarge (expected got : Nat)
  | bufferFull
  | readyFull

structure UplinkState where
  expectedSeq : Nat := 0
  ready : List (List UInt8) := []
  readyBytes : Nat := 0
  reorder : AList fun _ : Nat => List UInt8 := ∅
  reorderBytes : Nat := 0
  waitingBytes : Nat := 0
  closed : Bool := false

namespace UplinkState

def enqueue (state : UplinkState) (data : List UInt8) : UplinkState :=
  { state with
    readyBytes := state.readyBytes + data.length
    ready := state.ready ++ [data]
    expectedSeq := saturatingSucc state.expectedSeq }

def unpark (state : UplinkState) (next : List UInt8) : UplinkState :=
  { state with
    reorder := state.reorder.erase state.expectedSeq
    reorderBytes := state.reorderBytes - next.length }

def promoteWithin : Nat → UplinkState → UplinkState
  | 0, state => state
  | fuel + 1, state =>
    match state.reorder.lookup state.expectedSeq with
    | none => state
    | some next =>
      if uplinkReadyBytesCap < state.readyBytes + next.length then state
      else promoteWithin fuel ((state.unpark next).enqueue next)

def promoteParked (state : UplinkState) : UplinkState :=
  promoteWithin state.reorder.keys.length state

def park (state : UplinkState) (seq : Nat) (data : List UInt8) : UplinkState :=
  { state with
    reorder := state.reorder.insert seq data
    reorderBytes :=
      if (state.reorder.lookup seq).isNone then state.reorderBytes + data.length else state.reorderBytes }

def ingestUplink (state : UplinkState) (seq : Nat) (data : List UInt8) :
    UplinkState × Except UplinkIngestError Unit :=
  if data = [] then (state, .ok ())
  else if state.closed then (state, .error .closed)
  else if seq < state.expectedSeq then (state, .ok ())
  else if seq = state.expectedSeq then
    if state.ready ≠ [] ∧ uplinkReadyBytesCap < state.readyBytes + data.length then
      (state, .error .readyFull)
    else ((state.enqueue data).promoteParked, .ok ())
  else if uplinkReorderMaxGap < seq - state.expectedSeq then
    (state, .error (.gapTooLarge state.expectedSeq seq))
  else if uplinkReorderBufferBytesCap < state.reorderBytes + data.length then (state, .error .bufferFull)
  else (state.park seq data, .ok ())

def popUplinkReady (state : UplinkState) : UplinkState × Option (List UInt8) :=
  match state.ready with
  | [] => (state, none)
  | chunk :: rest =>
    ({ state with ready := rest, readyBytes := state.readyBytes - chunk.length }.promoteParked, some chunk)

def Covers (state : UplinkState) (seq : Nat) : Prop :=
  seq < state.expectedSeq ∨ (state.reorder.lookup seq).isSome

/-- What was popped and what is queued are the bodies in order, and what is parked comes after them. -/
structure InOrder (body : Nat → List UInt8) (popped : List (List UInt8)) (state : UplinkState) : Prop where
  queue : popped ++ state.ready = (range state.expectedSeq).map body
  bytes : state.readyBytes = (state.ready.map length).sum
  parked : ∀ seq data, state.reorder.lookup seq = some data →
    data = body seq ∧ state.expectedSeq ≤ seq ∧ seq < u64Max ∧ data.length ≤ uplinkReadyBytesCap

def Settled (state : UplinkState) : Prop :=
  ∀ data, state.reorder.lookup state.expectedSeq = some data → uplinkReadyBytesCap < state.readyBytes + data.length

variable {body : Nat → List UInt8} {popped : List (List UInt8)} {state : UplinkState}
  {seq : Nat} {data next : List UInt8}

attribute [local grind =] AList.lookup_insert AList.lookup_insert_ne AList.lookup_erase AList.lookup_erase_ne

theorem InOrder.enqueue (h : InOrder body popped state) (hseq : state.expectedSeq < u64Max)
    (hnext : state.reorder.lookup state.expectedSeq = none) (hdata : data = body state.expectedSeq) :
    InOrder body popped (state.enqueue data) ∧ (state.enqueue data).expectedSeq = state.expectedSeq + 1 := by
  have hsucc : (state.enqueue data).expectedSeq = state.expectedSeq + 1 := Nat.min_eq_left hseq
  refine ⟨⟨?_, ?_, ?_⟩, hsucc⟩
  · rw [hsucc, range_succ, map_append, ← h.queue, hdata]
    simp [UplinkState.enqueue]
  · simp [UplinkState.enqueue, h.bytes]
  · intro seq parked hparked
    have hold := h.parked seq parked hparked
    change state.reorder.lookup seq = some parked at hparked
    grind

theorem InOrder.promote (h : InOrder body popped state)
    (hnext : state.reorder.lookup state.expectedSeq = some next) :
    InOrder body popped ((state.unpark next).enqueue next) ∧
      ((state.unpark next).enqueue next).expectedSeq = state.expectedSeq + 1 := by
  obtain ⟨hbody, -, hlt, -⟩ := h.parked _ _ hnext
  have hparked := h.parked
  have hunparked : InOrder body popped (state.unpark next) := ⟨h.queue, h.bytes, by grind [unpark]⟩
  exact hunparked.enqueue hlt (AList.lookup_erase _ _) hbody

theorem Covers.promote (h : InOrder body popped state)
    (hnext : state.reorder.lookup state.expectedSeq = some next) (hcovers : Covers state seq) :
    Covers ((state.unpark next).enqueue next) seq := by
  have hsucc := (h.promote hnext).2
  unfold Covers at hcovers ⊢
  grind [enqueue, unpark]

theorem promoteWithin_keeps (fuel : Nat) (h : InOrder body popped state) :
    InOrder body popped (promoteWithin fuel state) ∧
      ∀ seq, Covers state seq → Covers (promoteWithin fuel state) seq := by
  induction fuel generalizing state with
  | zero => exact ⟨h, fun _ hcovers => hcovers⟩
  | succ fuel ih =>
    unfold promoteWithin
    cases hnext : state.reorder.lookup state.expectedSeq with
    | none => exact ⟨h, fun _ hcovers => hcovers⟩
    | some next =>
      by_cases hfull : uplinkReadyBytesCap < state.readyBytes + next.length
      · simp only [if_pos hfull]
        exact ⟨h, fun _ hcovers => hcovers⟩
      · simp only [if_neg hfull]
        obtain ⟨horder, hcovers⟩ := ih (h.promote hnext).1
        exact ⟨horder, fun seq hseq => hcovers seq (hseq.promote h hnext)⟩

theorem mem_keys_of_lookup {parked : AList fun _ : Nat => List UInt8} (h : parked.lookup seq = some data) :
    seq ∈ parked.keys :=
  AList.mem_keys.mpr (AList.lookup_isSome.mp (by rw [h]; rfl))

theorem settled_promoteWithin {fuel : Nat} (hfuel : state.reorder.keys.length ≤ fuel) :
    Settled (promoteWithin fuel state) := by
  induction fuel generalizing state with
  | zero =>
    intro data hdata
    have hmem : state.expectedSeq ∈ state.reorder.keys := mem_keys_of_lookup hdata
    simp [eq_nil_of_length_eq_zero (Nat.le_zero.mp hfuel)] at hmem
  | succ fuel ih =>
    unfold promoteWithin
    cases hnext : state.reorder.lookup state.expectedSeq with
    | none => simp [Settled, hnext]
    | some next =>
      by_cases hfull : uplinkReadyBytesCap < state.readyBytes + next.length
      · grind [Settled]
      · simp only [if_neg hfull]
        apply ih
        change (state.reorder.erase state.expectedSeq).keys.length ≤ fuel
        rw [AList.keys_erase, length_erase_of_mem (mem_keys_of_lookup hnext)]
        omega

theorem promoteWithin_of_full (hnext : state.reorder.lookup state.expectedSeq = some next)
    (hfull : uplinkReadyBytesCap < state.readyBytes + next.length) (fuel : Nat) :
    promoteWithin fuel state = state := by
  cases fuel with
  | zero => rfl
  | succ fuel => simp [promoteWithin, hnext, hfull]

theorem promoteParked_keeps (h : InOrder body popped state) :
    InOrder body popped state.promoteParked ∧ Settled state.promoteParked ∧
      ∀ seq, Covers state seq → Covers state.promoteParked seq :=
  ⟨(promoteWithin_keeps _ h).1, settled_promoteWithin (Nat.le_refl _), (promoteWithin_keeps _ h).2⟩

theorem ingestUplink_cases (state : UplinkState) (seq : Nat) (hdata : data ≠ []) :
    ((ingestUplink state seq data).1 = state ∧
        ((ingestUplink state seq data).2 = .ok () → seq < state.expectedSeq)) ∨
    (seq = state.expectedSeq ∧ (state.ready = [] ∨ state.readyBytes + data.length ≤ uplinkReadyBytesCap) ∧
        ingestUplink state seq data = ((state.enqueue data).promoteParked, .ok ())) ∨
    (state.expectedSeq < seq ∧ seq - state.expectedSeq ≤ uplinkReorderMaxGap ∧
        state.reorderBytes + data.length ≤ uplinkReorderBufferBytesCap ∧
        ingestUplink state seq data = (state.park seq data, .ok ())) := by
  unfold UplinkState.ingestUplink
  grind

theorem Settled.next_missing (h : Settled state) (horder : InOrder body popped state)
    (hroom : state.ready = [] ∨ state.readyBytes + (body state.expectedSeq).length ≤ uplinkReadyBytesCap) :
    state.reorder.lookup state.expectedSeq = none := by
  by_contra hnext
  obtain ⟨next, hnext⟩ := Option.ne_none_iff_exists'.mp hnext
  obtain ⟨hbody, -, -, hlen⟩ := horder.parked _ _ hnext
  have hfull := h next hnext
  have hbytes := horder.bytes
  grind

theorem InOrder.ingestUplink (h : InOrder body popped state) (hsettled : Settled state)
    (hbody : body seq ≠ []) (hseq : seq < u64Max) :
    let after := ingestUplink state seq (body seq)
    InOrder body popped after.1 ∧ Settled after.1 ∧ (∀ n, Covers state n → Covers after.1 n) ∧
      (after.2 = .ok () → Covers after.1 seq) := by
  dsimp only
  rcases ingestUplink_cases state seq hbody with
    ⟨hsame, hok⟩ | ⟨rfl, hroom, heq⟩ | ⟨hahead, -, hfits, heq⟩
  · rw [hsame]
    exact ⟨h, hsettled, fun _ hcovers => hcovers, fun hresult => .inl (hok hresult)⟩
  · rw [heq]
    have hmissing := hsettled.next_missing h hroom
    obtain ⟨horder, hsucc⟩ := h.enqueue hseq hmissing rfl
    obtain ⟨horder', hsettled', hcovers'⟩ := promoteParked_keeps horder
    have hcovers : ∀ n, Covers state n ∨ n = state.expectedSeq →
        Covers (state.enqueue (body state.expectedSeq)) n := by
      rintro n ((hlt | hsome) | rfl)
      · exact .inl (by omega)
      · exact .inr hsome
      · exact .inl (by omega)
    exact ⟨horder', hsettled', fun n hn => hcovers' n (hcovers n (.inl hn)), fun _ => hcovers' _ (hcovers _ (.inr rfl))⟩
  · rw [heq]
    have hparked := h.parked
    have hcaps : uplinkReorderBufferBytesCap = uplinkReadyBytesCap := rfl
    refine ⟨⟨h.queue, h.bytes, ?_⟩, ?_, ?_, fun _ => .inr ?_⟩
    · grind [park]
    · unfold Settled at hsettled ⊢
      grind [park]
    · unfold Covers
      grind [park]
    · grind [park]

structure SameQueue (a b : UplinkState) : Prop where
  expectedSeq : a.expectedSeq = b.expectedSeq
  ready : a.ready = b.ready
  readyBytes : a.readyBytes = b.readyBytes
  reorder : a.reorder = b.reorder

variable {other : UplinkState}

theorem SameQueue.inOrder (hsame : SameQueue other state) (h : InOrder body popped state) :
    InOrder body popped other := by
  obtain ⟨hqueue, hbytes, hparked⟩ := h
  obtain ⟨hexpected, hready, hreadyBytes, hreorder⟩ := hsame
  constructor <;> simpa only [hexpected, hready, hreadyBytes, hreorder]

theorem SameQueue.settled (hsame : SameQueue other state) (h : Settled state) : Settled other := by
  unfold Settled
  rw [hsame.reorder, hsame.expectedSeq, hsame.readyBytes]
  exact h

theorem SameQueue.covers (hsame : SameQueue other state) (h : Covers state seq) : Covers other seq := by
  simpa only [Covers, hsame.reorder, hsame.expectedSeq] using h

theorem InOrder.pop {chunk : List UInt8} {rest : List (List UInt8)} (h : InOrder body popped state)
    (hready : state.ready = chunk :: rest) :
    InOrder body (popped ++ [chunk]) state.popUplinkReady.1 ∧ Settled state.popUplinkReady.1 ∧
      ∀ n, Covers state n → Covers state.popUplinkReady.1 n := by
  have hrest : InOrder body (popped ++ [chunk])
      { state with ready := rest, readyBytes := state.readyBytes - chunk.length } := by
    refine ⟨?_, ?_, h.parked⟩
    · rw [← h.queue, hready]
      simp
    · rw [h.bytes, hready]
      simp
  unfold popUplinkReady
  rw [hready]
  obtain ⟨horder, hsettled, hcovers⟩ := promoteParked_keeps hrest
  exact ⟨horder, hsettled, hcovers⟩

theorem InOrder.ready_ne_nil (h : InOrder body popped state) (hsettled : Settled state)
    (hcovers : ∀ m ≤ seq, Covers state m) (hpopped : popped.length ≤ seq) : state.ready ≠ [] := by
  intro hempty
  have hlength := congrArg length h.queue
  simp only [hempty, append_nil, length_map, length_range] at hlength
  have hmissing := hsettled.next_missing h (.inl hempty)
  rcases hcovers state.expectedSeq (by omega) with hlt | hsome
  · exact Nat.lt_irrefl _ hlt
  · rw [hmissing] at hsome
    cases hsome

end UplinkState

open UplinkState

def UplinkIngestError.isFull : UplinkIngestError → Bool
  | .bufferFull | .readyFull => true
  | _ => false

structure HeldPost where
  seq : Nat
  error : UplinkIngestError

/-- A session's uplink with the POSTs it holds, the answers it gave and what the relay popped. -/
structure PacketUp where
  state : UplinkState := {}
  held : List HeldPost := []
  answers : List (Nat × Except UplinkIngestError Unit) := []
  popped : List (List UInt8) := []

open PacketUp

inductive UplinkEvent where
  | arrive (seq : Nat)
  | retry (index : Nat)
  | expire (index : Nat)
  | pop
  | closeUplink
deriving DecidableEq

namespace PacketUp

def respond (uplink : PacketUp) (seq : Nat) (result : Except UplinkIngestError Unit) : PacketUp :=
  let tornDown := match result with
    | .error (.gapTooLarge _ _) => true
    | _ => false
  { uplink with
    state := { uplink.state with closed := uplink.state.closed || tornDown }
    answers := uplink.answers ++ [(seq, result)] }

def arrive (body : Nat → List UInt8) (uplink : PacketUp) (seq : Nat) : PacketUp :=
  let (state, result) := uplink.state.ingestUplink seq (body seq)
  match result with
  | .ok () => { uplink with state := state }.respond seq (.ok ())
  | .error error =>
    if error.isFull = true ∧ state.waitingBytes + (body seq).length ≤ uplinkWaitingBytesCap then
      { uplink with
        state := { state with waitingBytes := state.waitingBytes + (body seq).length }
        held := uplink.held ++ [⟨seq, error⟩] }
    else { uplink with state := state }.respond seq (.error error)

def release (body : Nat → List UInt8) (uplink : PacketUp) (index seq : Nat) : PacketUp :=
  { uplink with
    state := { uplink.state with waitingBytes := uplink.state.waitingBytes - (body seq).length }
    held := uplink.held.eraseIdx index }

def retry (body : Nat → List UInt8) (uplink : PacketUp) (index : Nat) (post : HeldPost) : PacketUp :=
  let (state, result) := uplink.state.ingestUplink post.seq (body post.seq)
  match result with
  | .ok () => ({ uplink with state := state }.release body index post.seq).respond post.seq (.ok ())
  | .error error =>
    if error.isFull = true then
      { uplink with state := state, held := uplink.held.set index ⟨post.seq, error⟩ }
    else ({ uplink with state := state }.release body index post.seq).respond post.seq (.error error)

def step (body : Nat → List UInt8) (uplink : PacketUp) : UplinkEvent → Option PacketUp
  | .arrive seq => some (uplink.arrive body seq)
  | .retry index => uplink.held[index]?.map (uplink.retry body index)
  | .expire index =>
    uplink.held[index]?.map fun post => (uplink.release body index post.seq).respond post.seq (.error post.error)
  | .pop =>
    let (state, chunk) := uplink.state.popUplinkReady
    some { uplink with state := state, popped := uplink.popped ++ chunk.toList }
  | .closeUplink => some { uplink with state := { uplink.state with closed := true } }

variable {body : Nat → List UInt8} {uplink next : PacketUp} {event : UplinkEvent}

structure Attempt (body : Nat → List UInt8) (uplink : PacketUp) (seq : Nat) (next : PacketUp) : Prop where
  popped : next.popped = uplink.popped
  queue : SameQueue next.state (uplink.state.ingestUplink seq (body seq)).1
  kept : ∀ answer ∈ uplink.answers, answer ∈ next.answers
  answers : ∀ answer ∈ next.answers,
    answer ∈ uplink.answers ∨ answer = (seq, (uplink.state.ingestUplink seq (body seq)).2)
  held : ∀ post ∈ next.held, post ∈ uplink.held ∨ post.seq = seq ∧ post.error.isFull = true

theorem attempt_arrive (body : Nat → List UInt8) (uplink : PacketUp) (seq : Nat) :
    Attempt body uplink seq (uplink.arrive body seq) := by
  unfold arrive respond
  all_goals dsimp only
  split
  all_goals constructor
  all_goals grind [SameQueue]

theorem attempt_retry (body : Nat → List UInt8) (uplink : PacketUp) (index : Nat) (post : HeldPost) :
    Attempt body uplink post.seq (uplink.retry body index post) := by
  unfold retry respond
  all_goals dsimp only
  split
  all_goals constructor
  all_goals grind [release, SameQueue, mem_of_mem_eraseIdx, mem_or_eq_of_mem_set]

theorem step_cases (h : uplink.step body event = some next) :
    (∃ seq, (event = .arrive seq ∨ (∃ index, event = .retry index) ∧ ∃ post ∈ uplink.held, post.seq = seq) ∧
      Attempt body uplink seq next) ∨ (next.popped = uplink.popped ∧ SameQueue next.state uplink.state ∧
      (∀ answer ∈ uplink.answers, answer ∈ next.answers) ∧ (∀ answer ∈ next.answers, answer ∈ uplink.answers ∨
        ∃ post ∈ uplink.held, answer = (post.seq, .error post.error)) ∧
      (∀ post ∈ next.held, post ∈ uplink.held) ∧ (event = .pop → uplink.state.ready = [])) ∨
    (event = .pop ∧ ∃ chunk rest, uplink.state.ready = chunk :: rest ∧
      next = { uplink with
        state := uplink.state.popUplinkReady.1, popped := uplink.popped ++ [chunk] }) := by
  cases event with
  | arrive seq =>
    cases h
    exact .inl ⟨seq, .inl rfl, attempt_arrive body uplink seq⟩
  | retry index =>
    obtain ⟨post, hpost, rfl⟩ := Option.map_eq_some_iff.mp h
    exact .inl ⟨post.seq, .inr ⟨⟨index, rfl⟩, post, mem_of_getElem? hpost, rfl⟩,
      attempt_retry body uplink index post⟩
  | expire index =>
    obtain ⟨post, hpost, rfl⟩ := Option.map_eq_some_iff.mp h
    refine .inr (.inl ⟨rfl, ⟨rfl, rfl, rfl, rfl⟩, fun _ => mem_append_left _, ?_,
      fun _ hmem => mem_of_mem_eraseIdx hmem, nofun⟩)
    intro answer hanswer
    rcases mem_append.mp hanswer with hanswer | hanswer
    · exact .inl hanswer
    · exact .inr ⟨post, mem_of_getElem? hpost, mem_singleton.mp hanswer⟩
  | pop =>
    cases hready : uplink.state.ready with
    | nil =>
      have hnone : uplink.state.popUplinkReady = (uplink.state, none) := by simp [popUplinkReady, hready]
      simp only [step, hnone, Option.toList_none, append_nil, Option.some.injEq] at h
      subst h
      exact .inr (.inl ⟨rfl, ⟨rfl, rfl, rfl, rfl⟩, fun _ hmem => hmem, fun _ hmem => .inl hmem,
        fun _ hmem => hmem, fun _ => rfl⟩)
    | cons chunk rest =>
      have hsome : uplink.state.popUplinkReady.2 = some chunk := by simp [popUplinkReady, hready]
      simp only [step, hsome, Option.toList_some, Option.some.injEq] at h
      exact .inr (.inr ⟨rfl, chunk, rest, rfl, h.symm⟩)
  | closeUplink =>
    cases h
    exact .inr (.inl ⟨rfl, ⟨rfl, rfl, rfl, rfl⟩, fun _ hmem => hmem, fun _ hmem => .inl hmem,
      fun _ hmem => hmem, nofun⟩)

def belowMax : UplinkEvent → Bool
  | .arrive seq => decide (seq < u64Max)
  | _ => true

structure Delivering (body : Nat → List UInt8) (uplink : PacketUp) : Prop where
  order : InOrder body uplink.popped uplink.state
  settled : Settled uplink.state
  held : ∀ post ∈ uplink.held, post.seq < u64Max ∧ post.error.isFull = true
  answered : ∀ seq, (seq, .ok ()) ∈ uplink.answers → Covers uplink.state seq

theorem delivering_start (body : Nat → List UInt8) : Delivering body {} where
  order := ⟨rfl, rfl, nofun⟩
  settled := nofun
  held := nofun
  answered := nofun

theorem Delivering.attempt {seq : Nat} (h : Delivering body uplink) (hbody : ∀ n, body n ≠ [])
    (hseq : seq < u64Max) (hattempt : Attempt body uplink seq next) :
    Delivering body next ∧ ∀ n, Covers uplink.state n → Covers next.state n := by
  obtain ⟨horder, hsettled, hkeeps, hok⟩ := h.order.ingestUplink h.settled (hbody seq) hseq
  have hcovers : ∀ n, Covers uplink.state n → Covers next.state n := fun n hn => hattempt.queue.covers (hkeeps n hn)
  refine ⟨⟨?_, hattempt.queue.settled hsettled, ?_, ?_⟩, hcovers⟩
  · rw [hattempt.popped]
    exact hattempt.queue.inOrder horder
  · intro post hpost
    rcases hattempt.held post hpost with hpost | ⟨rfl, hfull⟩
    · exact h.held post hpost
    · exact ⟨hseq, hfull⟩
  · intro n hn
    rcases hattempt.answers _ hn with hn | hn
    · exact hcovers n (h.answered n hn)
    · obtain ⟨rfl, hresult⟩ := Prod.mk.inj hn
      exact hattempt.queue.covers (hok hresult.symm)

theorem Delivering.step (h : Delivering body uplink) (hbody : ∀ n, body n ≠ [])
    (hallowed : belowMax event = true) (hstep : uplink.step body event = some next) :
    Delivering body next ∧ (∀ n, Covers uplink.state n → Covers next.state n) ∧
      uplink.popped.length + (if event = .pop ∧ uplink.state.ready ≠ [] then 1 else 0) ≤ next.popped.length := by
  rcases step_cases hstep with ⟨seq, hseq, hattempt⟩ | ⟨hpopped, hsame, -, hanswers, hheld, hidle⟩ |
    ⟨rfl, chunk, rest, hready, rfl⟩
  · have hlt : seq < u64Max ∧ event ≠ .pop := by
      rcases hseq with rfl | ⟨⟨index, rfl⟩, post, hpost, rfl⟩
      · exact ⟨of_decide_eq_true hallowed, nofun⟩
      · exact ⟨(h.held post hpost).1, nofun⟩
    obtain ⟨hnext, hcovers⟩ := h.attempt hbody hlt.1 hattempt
    refine ⟨hnext, hcovers, ?_⟩
    simp [hlt.2, hattempt.popped]
  · refine ⟨⟨?_, hsame.settled h.settled, fun post hpost => h.held post (hheld post hpost), ?_⟩,
      fun n hn => hsame.covers hn, ?_⟩
    · rw [hpopped]
      exact hsame.inOrder h.order
    · intro seq hseq
      rcases hanswers _ hseq with hseq | ⟨post, -, heq⟩
      · exact hsame.covers (h.answered seq hseq)
      · cases heq
    · rw [hpopped, if_neg (fun hpop => hpop.2 (hidle hpop.1))]
      exact Nat.le_refl _
  · obtain ⟨horder, hsettled, hcovers⟩ := h.order.pop hready
    exact ⟨⟨horder, hsettled, h.held, fun seq hseq => hcovers seq (h.answered seq hseq)⟩, hcovers, by simp [hready]⟩

variable {labels : List UplinkEvent}

theorem delivering_of_run {start : PacketUp} (hbody : ∀ n, body n ≠ []) (hstart : Delivering body start)
    (hrun : Run (step body) (fun _ event => belowMax event = true) start labels uplink) :
    Delivering body uplink :=
  hrun.invariant (P := fun _ uplink => Delivering body uplink) hstart
    fun _ _ _ _ h hallowed hstep => (h.step hbody hallowed hstep).1

theorem popped_of_covers {start : PacketUp} {n : Nat} (hbody : ∀ n, body n ≠ [])
    (hstart : Delivering body start) (hcovers : ∀ m ≤ n, Covers start.state m)
    (hrun : Run (step body) (fun _ event => belowMax event = true) start labels uplink) :
    n < uplink.popped.length ∨ labels.count .pop ≤ uplink.popped.length := by
  have hinv := hrun.invariant (P := fun labels uplink => Delivering body uplink ∧
    (∀ m ≤ n, Covers uplink.state m) ∧ (n < uplink.popped.length ∨ labels.count .pop ≤ uplink.popped.length))
    ⟨hstart, hcovers, .inr (Nat.zero_le _)⟩ ?_
  · exact hinv.2.2
  · rintro labels uplink event next ⟨h, hall, hprogress⟩ hallowed hstep
    obtain ⟨hnext, hkeeps, hpopped⟩ := h.step hbody hallowed hstep
    refine ⟨hnext, fun m hm => hkeeps m (hall m hm), ?_⟩
    by_cases hdone : n < uplink.popped.length
    · exact .inl (Nat.lt_of_lt_of_le hdone (Nat.le_trans (Nat.le_add_right _ _) hpopped))
    · have hready := h.order.ready_ne_nil h.settled hall (Nat.le_of_not_lt hdone)
      right
      by_cases hpop : event = .pop
      · rw [if_pos ⟨hpop, hready⟩] at hpopped
        rw [count_append, hpop]
        simp only [count_singleton_self]
        omega
      · rw [count_append, count_singleton, if_neg (by simpa using hpop)]
        omega

/-- For numbers below 2^64 - 1, the relay pops the bodies in order, each once, and pops every body that
was answered with success together with those before it. -/
theorem packetUp_delivers_in_order {labels : List UplinkEvent} (hbody : ∀ n, body n ≠ [])
    (hrun : Run (step body) (fun _ event => belowMax event = true) {} labels uplink) :
    (∃ k, uplink.popped = (range k).map body) ∧
    ∀ (n : Nat) (more : List UplinkEvent) (next : PacketUp), (∀ m ≤ n, (m, .ok ()) ∈ uplink.answers) →
      Run (step body) (fun _ event => belowMax event = true) uplink more next →
      n < more.count .pop → next.popped[n]? = some (body n) := by
  have hfirst : ∀ {uplink : PacketUp}, Delivering body uplink →
      uplink.popped = (range uplink.popped.length).map body := by
    intro uplink h
    have htake := congrArg (take uplink.popped.length) h.order.queue
    have hlength := congrArg length h.order.queue
    simp only [length_append, length_map, length_range] at hlength
    rw [take_left, ← map_take, take_range, Nat.min_eq_left (by omega)] at htake
    exact htake
  have hdelivering := delivering_of_run hbody (delivering_start body) hrun
  refine ⟨⟨_, hfirst hdelivering⟩, ?_⟩
  intro n more next hanswered hmore hpops
  have hnext := delivering_of_run hbody hdelivering hmore
  have hpopped : n < next.popped.length := by
    rcases popped_of_covers hbody hdelivering (fun m hm => hdelivering.answered m (hanswered m hm)) hmore with
      hlt | hle
    · exact hlt
    · omega
  rw [hfirst hnext]
  simp [hpopped]

def bothQueued : PacketUp where
  state := { expectedSeq := 2, ready := [[0], [1]], readyBytes := 2 }
  answers := [(1, .ok ()), (0, .ok ())]

theorem packetUp_delivers_in_order_two :
    Run (step fun seq => [seq.toUInt8]) (fun _ event => belowMax event = true) {}
        [.arrive 1, .arrive 0] bothQueued ∧
      ∃ next, Run (step fun seq => [seq.toUInt8]) (fun _ event => belowMax event = true) bothQueued
          [.pop, .pop] next ∧
        next.popped[1]? = some [1] := by
  have hrun : Run (step fun seq => [seq.toUInt8]) (fun _ event => belowMax event = true) {}
      [.arrive 1, .arrive 0] bothQueued := run_of_foldlM rfl
  have hmore : Run (step fun seq => [seq.toUInt8]) (fun _ event => belowMax event = true) bothQueued
      [.pop, .pop] _ := run_of_foldlM rfl
  refine ⟨hrun, _, hmore, ?_⟩
  refine (packetUp_delivers_in_order (fun _ => cons_ne_nil _ _) hrun).2 1 [.pop, .pop] _ ?_ hmore (by decide)
  intro m hm
  have hcases : m = 0 ∨ m = 1 := by omega
  rcases hcases with rfl | rfl <;> simp [bothQueued]

section Saturation

def markLast (last seq : Nat) : List UInt8 := if seq = last then [1] else [0]

def drained (answers : List (Nat × Except UplinkIngestError Unit)) (popped : List (List UInt8)) (seq : Nat) :
    PacketUp where
  state := { expectedSeq := seq }
  answers := answers
  popped := popped

theorem post_and_pop (answers : List (Nat × Except UplinkIngestError Unit)) (popped : List (List UInt8))
    {seq : Nat} (hbody : body seq ≠ []) :
    ∃ middle, (drained answers popped seq).step body (.arrive seq) = some middle ∧ middle.step body .pop =
        some (drained (answers ++ [(seq, .ok ())]) (popped ++ [body seq]) (saturatingSucc seq)) := by
  simp [drained, step, arrive, ingestUplink, hbody, enqueue, promoteParked, promoteWithin, respond, popUplinkReady]

def isU64 : UplinkEvent → Bool
  | .arrive seq => decide (seq ≤ u64Max)
  | _ => true

theorem exists_run_drained (hbody : ∀ n, body n ≠ []) {n : Nat} (hn : n ≤ u64Max) :
    ∃ labels answers, Run (step body) (fun _ event => isU64 event = true) {} labels
      (drained answers ((range n).map body) n) := by
  induction n with
  | zero => exact ⟨[], [], .refl⟩
  | succ n ih =>
    obtain ⟨labels, answers, hrun⟩ := ih (by omega)
    obtain ⟨middle, harrive, hpop⟩ := post_and_pop answers ((range n).map body) (hbody n)
    have hsucc : saturatingSucc n = n + 1 := Nat.min_eq_left hn
    rw [hsucc] at hpop
    refine ⟨labels ++ [.arrive n] ++ [.pop], answers ++ [(n, .ok ())], ?_⟩
    rw [range_succ, map_append]
    have hallowed : isU64 (.arrive n) = true := decide_eq_true (by omega)
    exact (hrun.snoc hallowed harrive).snoc rfl hpop

theorem popped_twice_of_stays {popped : List (List UInt8)} {last : Nat}
    {answers : List (Nat × Except UplinkIngestError Unit)} (hbody : body last ≠ []) (hlast : last ≤ u64Max)
    (hstays : saturatingSucc last = last) (hrun : Run (step body) (fun _ event => isU64 event = true) {} labels
      (drained answers popped last)) :
    ∃ labels uplink, Run (step body) (fun _ event => isU64 event = true) {} labels uplink ∧
      uplink.popped = popped ++ [body last] ++ [body last] := by
  obtain ⟨middle, harrive, hpop⟩ := post_and_pop answers popped hbody
  rw [hstays] at hpop
  obtain ⟨middle', harrive', hpop'⟩ := post_and_pop (answers ++ [(last, .ok ())]) (popped ++ [body last]) hbody
  have hallowed : isU64 (.arrive last) = true := decide_eq_true hlast
  exact ⟨_, _, (((hrun.snoc hallowed harrive).snoc rfl hpop).snoc hallowed harrive').snoc rfl hpop', rfl⟩

theorem markLast_twice_ne (last k : Nat) :
    (range last).map (markLast last) ++ [markLast last last] ++ [markLast last last] ≠
      (range k).map (markLast last) := by
  intro hk
  have hlength := congrArg length hk
  have hlast := congrArg (·[last + 1]?) hk
  simp [← hlength, markLast] at hlast

/-- Number 2^64 - 1 is never counted as consumed: its repetition is popped a second time. -/
theorem largest_number_popped_twice :
    ∃ labels uplink, Run (step (markLast u64Max)) (fun _ event => isU64 event = true) {} labels uplink ∧
      uplink.popped = (range u64Max).map (markLast u64Max) ++ [markLast u64Max u64Max] ++ [markLast u64Max u64Max] ∧
      ¬ ∃ k, uplink.popped = (range k).map (markLast u64Max) := by
  have hbody : ∀ n, markLast u64Max n ≠ [] := by
    intro n
    unfold markLast
    split <;> simp
  have hstays : saturatingSucc u64Max = u64Max := Nat.min_eq_right (Nat.le_succ _)
  obtain ⟨labels, answers, hrun⟩ := exists_run_drained hbody (Nat.le_refl u64Max)
  obtain ⟨labels', uplink, hrun', hpopped⟩ := popped_twice_of_stays (hbody u64Max) (Nat.le_refl _) hstays hrun
  refine ⟨labels', uplink, hrun', hpopped, ?_⟩
  rintro ⟨k, hk⟩
  exact markLast_twice_ne u64Max k (hpopped.symm.trans hk)

end Saturation

end PacketUp

end OutlineProxy.Server
