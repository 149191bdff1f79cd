import Mathlib.Data.List.Chain
import OutlineProxy.Lib.Runs
import OutlineProxy.Shadowsocks.Request

/-! Reassembly of SOCKS5 UDP fragments.  The queue remembers the highest number it took and nothing of
the numbers below it, so a fragment that skips some goes unnoticed. -/

namespace OutlineProxy.Socks

open List Shadowsocks Runs

def socks5UdpReassemblyTimeout : Nat := 5 * 10 ^ 9

def socks5UdpReassemblyMaxBytes : Nat := 256 * 1024

inductive Socks5Error where
  | udpPacketTooShort
  | invalidUdpReservedBytes
  | targetAddr (error : TargetAddrError)
  | invalidUdpFragmentZero
  | fragmentTargetChanged
  | outOfOrderUdpFragment (number : UInt8)
  | reassemblyCapExceeded (projected limit : Nat)

structure Socks5UdpPacket where
  fragment : UInt8
  target : TargetAddr
  body : List UInt8
  payload : List UInt8

def parseUdpRequest (packet : List UInt8) : Except Socks5Error Socks5UdpPacket :=
  if packet.length < 4 then .error .udpPacketTooShort
  else if packet.getD 0 0 ≠ 0 ∨ packet.getD 1 0 ≠ 0 then .error .invalidUdpReservedBytes
  else
    let body := packet.drop 3
    match TargetAddr.fromWireBytes body with
    | .error error => .error (.targetAddr error)
    | .ok (target, consumed) => .ok ⟨packet.getD 2 0, target, body, body.drop consumed⟩

abbrev Push := Socks5UdpPacket × Nat

namespace Socks5UdpPacket

def fragmentNumber (packet : Socks5UdpPacket) : UInt8 := packet.fragment &&& 0x7f

def isLast (packet : Socks5UdpPacket) : Bool := packet.fragment &&& 0x80 != 0

end Socks5UdpPacket

structure ReassembledUdpPacket where
  target : TargetAddr
  payload : List UInt8
  addrLen : Nat

structure UdpFragmentState where
  target : TargetAddr
  fragments : List (List UInt8) := []
  highestFragment : UInt8 := 0
  totalBytes : Nat := 0
  deadline : Nat

open UdpFragmentState

def UdpFragmentState.outdated (state : UdpFragmentState) (packet : Socks5UdpPacket) (now : Nat) : Bool :=
  decide (state.deadline ≤ now) || packet.target != state.target ||
    decide (packet.fragmentNumber < state.highestFragment)

def startsAfresh (queue : Option UdpFragmentState) (packet : Socks5UdpPacket) (now : Nat) : Bool :=
  queue.all (·.outdated packet now)

def queueFor (queue : Option UdpFragmentState) (packet : Socks5UdpPacket) (now : Nat) : UdpFragmentState :=
  let fresh : UdpFragmentState := { target := packet.target, deadline := now + socks5UdpReassemblyTimeout }
  match queue with
  | none => fresh
  | some state => if state.outdated packet now then fresh else state

def UdpFragmentState.extend (state : UdpFragmentState) (packet : Socks5UdpPacket) (now : Nat) :
    UdpFragmentState :=
  { state with
    highestFragment := packet.fragmentNumber
    totalBytes := state.totalBytes + packet.payload.length
    deadline := now + socks5UdpReassemblyTimeout
    fragments := state.fragments ++ [packet.payload] }

def UdpFragmentState.assemble (state : UdpFragmentState) : Except Socks5Error (Option ReassembledUdpPacket) :=
  match state.target.toWireBytes with
  | .error error => .error (.targetAddr error)
  | .ok addrWire => .ok (some ⟨state.target, addrWire ++ state.fragments.flatten, addrWire.length⟩)

def pushFragment (queue : Option UdpFragmentState) (packet : Socks5UdpPacket) (now : Nat) :
    Option UdpFragmentState × Except Socks5Error (Option ReassembledUdpPacket) :=
  if packet.fragment = 0 then
    (none, .ok (some ⟨packet.target, packet.body, packet.body.length - packet.payload.length⟩))
  else if packet.fragmentNumber = 0 then (queue, .error .invalidUdpFragmentZero)
  else
    let state := queueFor queue packet now
    if packet.target ≠ state.target then (some state, .error .fragmentTargetChanged)
    else if packet.fragmentNumber ≤ state.highestFragment then
      (some state, .error (.outOfOrderUdpFragment packet.fragmentNumber))
    else
      let projectedTotal := state.totalBytes + packet.payload.length
      if socks5UdpReassemblyMaxBytes < projectedTotal then
        (none, .error (.reassemblyCapExceeded projectedTotal socks5UdpReassemblyMaxBytes))
      else
        let state := state.extend packet now
        if packet.isLast = false then (some state, .ok none)
        else (none, state.assemble)

section Step

variable {queue : Option UdpFragmentState} {packet : Socks5UdpPacket} {now : Nat}

theorem queueFor_target (queue : Option UdpFragmentState) (packet : Socks5UdpPacket) (now : Nat) :
    (queueFor queue packet now).target = packet.target := by
  cases queue with
  | none => rfl
  | some state => grind [queueFor, outdated]

theorem queueFor_of_startsAfresh (h : startsAfresh queue packet now = true) :
    queueFor queue packet now = { target := packet.target, deadline := now + socks5UdpReassemblyTimeout } := by
  cases queue with
  | none => rfl
  | some state => exact if_pos h

theorem queueFor_of_current {state : UdpFragmentState} (h : state.outdated packet now = false) :
    queueFor (some state) packet now = state := by
  simp [queueFor, h]

theorem queueFor_of_continues (h : startsAfresh queue packet now = false) :
    ∃ state, queue = some state ∧ state.outdated packet now = false ∧ queueFor queue packet now = state := by
  cases queue with
  | none => cases h
  | some state =>
    have hkept : state.outdated packet now = false := h
    exact ⟨state, rfl, hkept, queueFor_of_current hkept⟩

theorem pushFragment_cases (queue : Option UdpFragmentState) (packet : Socks5UdpPacket) (now : Nat) :
    let pushed := pushFragment queue packet now
    let extended := (queueFor queue packet now).extend packet now
    (packet.fragment = 0 ∧ pushed.1 = none ∧ ∃ out, pushed.2 = .ok (some out)) ∨
    (packet.fragment ≠ 0 ∧ (∃ error, pushed.2 = .error error) ∧ (pushed.1 = queue ∨ pushed.1 = none)) ∨
    (packet.fragment ≠ 0 ∧ (queueFor queue packet now).highestFragment < packet.fragmentNumber ∧
      (packet.isLast = false ∧ pushed = (some extended, .ok none) ∨
        packet.isLast = true ∧ ∃ out, extended.assemble = .ok (some out) ∧ pushed = (none, .ok (some out)))) := by
  dsimp only
  by_cases hwhole : packet.fragment = 0
  · exact .inl ⟨hwhole, by simp [pushFragment, hwhole], by simp [pushFragment, hwhole]⟩
  by_cases hzero : packet.fragmentNumber = 0
  · grind [pushFragment]
  have htarget : ¬ packet.target ≠ (queueFor queue packet now).target := by
    simp [queueFor_target]
  by_cases hold : packet.fragmentNumber ≤ (queueFor queue packet now).highestFragment
  · -- a fresh queue has highest number 0, so the number was compared with the queue that was there
    refine .inr (.inl ⟨hwhole, by simp [pushFragment, hwhole, hzero, htarget, hold], .inl ?_⟩)
    cases hafresh : startsAfresh queue packet now with
    | true =>
      rw [queueFor_of_startsAfresh hafresh] at hold
      have hnumber : packet.fragmentNumber = 0 := by
        simpa [UInt8.le_iff_toNat_le, ← UInt8.toNat_inj] using hold
      exact absurd hnumber hzero
    | false =>
      obtain ⟨state, hqueue, -, hsame⟩ := queueFor_of_continues hafresh
      have hkept : (pushFragment queue packet now).1 = some (queueFor queue packet now) := by
        simp [pushFragment, hwhole, hzero, htarget, hold]
      rw [hkept, hsame, hqueue]
  by_cases hcap : socks5UdpReassemblyMaxBytes < (queueFor queue packet now).totalBytes + packet.payload.length
  · refine .inr (.inl ⟨hwhole, ?_, .inr ?_⟩) <;> simp [pushFragment, hwhole, hzero, htarget, hold, hcap]
  cases hlast : packet.isLast with
  | false => grind [pushFragment]
  | true => grind [pushFragment, queueFor, assemble]

end Step

/-- Whatever arrives, the queue stays within its cap. -/
theorem reassembly_bounded (pushes : List Push) :
    (pushes.foldl (fun q p => (pushFragment q p.1 p.2).1) none).all fun s =>
      s.fragments.flatten.length = s.totalBytes ∧ s.totalBytes ≤ socks5UdpReassemblyMaxBytes := by
  refine foldlRecOn (motive := (Option.all _ · = true)) _ _ rfl fun queue _ push _ => ?_
  cases queue <;> grind [pushFragment, queueFor, extend]

structure IsSequence (frags : List Push) (target : TargetAddr) : Prop where
  numbers : frags.map (fun f => f.1.fragmentNumber.toNat) = range' 1 frags.length
  targets : ∀ f ∈ frags, f.1.target = target
  ends : frags.map (fun f => f.1.isLast) = replicate (frags.length - 1) false ++ [true]
  unexpired : frags.IsChain fun f g => g.2 < f.2 + socks5UdpReassemblyTimeout

/-- The datagram is the sequence: its address, then the data of its fragments in order. -/
def IsWhole (frags : List Push) (out : ReassembledUdpPacket) : Prop :=
  IsSequence frags out.target ∧ ∃ addrWire, out.target.toWireBytes = .ok addrWire ∧
    out.payload = addrWire ++ (frags.map fun f => f.1.payload).flatten ∧ out.addrLen = addrWire.length

structure Queued (state : UdpFragmentState) (held : List Push) : Prop where
  numbers : held.map (fun f => f.1.fragmentNumber.toNat) = range' 1 held.length
  highest : state.highestFragment.toNat = held.length
  targets : ∀ f ∈ held, f.1.target = state.target
  fragments : state.fragments = held.map fun f => f.1.payload
  total : state.totalBytes = (held.map fun f => f.1.payload.length).sum
  unexpired : held.IsChain fun f g => g.2 < f.2 + socks5UdpReassemblyTimeout
  deadline : ∀ f ∈ held.getLast?, state.deadline = f.2 + socks5UdpReassemblyTimeout

section Queued

variable {queue : Option UdpFragmentState} {state : UdpFragmentState} {held : List Push}
  {packet : Socks5UdpPacket} {now : Nat} {target : TargetAddr} {f g : Push}

theorem queued_fresh (target : TargetAddr) (deadline : Nat) :
    Queued { target := target, deadline := deadline } [] :=
  ⟨rfl, rfl, by simp, rfl, rfl, .nil, by simp⟩

theorem Queued.extend (h : Queued state held) (htarget : packet.target = state.target)
    (hnumber : packet.fragmentNumber.toNat = held.length + 1)
    (htime : ∀ f ∈ held.getLast?, now < f.2 + socks5UdpReassemblyTimeout) :
    Queued (state.extend packet now) (held ++ [(packet, now)]) where
  numbers := by
    rw [map_append, h.numbers, length_append, length_singleton, range'_concat]
    simp [hnumber, Nat.add_comm]
  highest := by simpa [UdpFragmentState.extend] using hnumber
  targets := forall_mem_snoc h.targets htarget
  fragments := by simp [UdpFragmentState.extend, h.fragments]
  total := by simp [UdpFragmentState.extend, h.total]
  unexpired := by
    refine isChain_append.mpr ⟨h.unexpired, .singleton _, ?_⟩
    intro f hf g hg
    rw [Option.mem_def, head?_cons, Option.some.injEq] at hg
    subst hg
    exact htime f hf
  deadline := by simp [UdpFragmentState.extend]

theorem Queued.queueFor (packet : Socks5UdpPacket) (now : Nat)
    (hqueue : match queue with | none => held = [] | some state => Queued state held) :
    Queued (queueFor queue packet now) (if startsAfresh queue packet now then [] else held) ∧
      ∀ f ∈ (if startsAfresh queue packet now then [] else held).getLast?,
        now < f.2 + socks5UdpReassemblyTimeout := by
  cases hafresh : startsAfresh queue packet now with
  | true =>
    rw [queueFor_of_startsAfresh hafresh]
    exact ⟨queued_fresh _ _, by simp⟩
  | false =>
    obtain ⟨state, rfl, hcurrent, hsame⟩ := queueFor_of_continues hafresh
    rw [hsame]
    refine ⟨hqueue, ?_⟩
    intro f hf
    rw [← hqueue.deadline f hf]
    simp only [outdated, Bool.or_eq_false_iff, decide_eq_false_iff_not] at hcurrent
    exact Nat.lt_of_not_le hcurrent.1.1

theorem Queued.isSequence (h : Queued state (held ++ [(packet, now)])) (hlast : packet.isLast = true)
    (hheld : ∀ f ∈ held, f.1.isLast = false) : IsSequence (held ++ [(packet, now)]) state.target where
  numbers := h.numbers
  targets := h.targets
  unexpired := h.unexpired
  ends := by
    have hmap : held.map (fun f => f.1.isLast) = replicate held.length false :=
      eq_replicate_iff.mpr ⟨length_map .., by simpa using hheld⟩
    simp [hmap, hlast]

theorem UdpFragmentState.assemble_cases {out : ReassembledUdpPacket} (h : state.assemble = .ok (some out)) :
    ∃ addrWire, state.target.toWireBytes = .ok addrWire ∧
      out = ⟨state.target, addrWire ++ state.fragments.flatten, addrWire.length⟩ := by
  grind [assemble]

end Queued

/-- The queue beside the history of its run: the pushes whose data it holds, and every datagram it
assembled with the pushes the data came from. -/
structure Tracked where
  queue : Option UdpFragmentState := none
  held : List Push := []
  assembled : List (List Push × ReassembledUdpPacket) := []

def Tracked.step (tracked : Tracked) (push : Push) : Option Tracked :=
  let (queue, answer) := pushFragment tracked.queue push.1 push.2
  let taken := (if startsAfresh tracked.queue push.1 push.2 then [] else tracked.held) ++ [push]
  match answer with
  | .error _ => some { tracked with queue := queue, held := if queue = none then [] else tracked.held }
  | .ok none => some { tracked with queue := queue, held := taken }
  | .ok (some out) =>
    if push.1.fragment = 0 then some { tracked with queue := queue, held := [] }
    else some ⟨queue, [], tracked.assembled ++ [(taken, out)]⟩

def skipsNone (tracked : Tracked) (push : Push) : Bool :=
  decide (push.1.fragmentNumber.toNat ≤ (queueFor tracked.queue push.1 push.2).highestFragment.toNat + 1)

structure TrackInv (labels : List Push) (tracked : Tracked) : Prop where
  queue : match tracked.queue with | none => tracked.held = [] | some state => Queued state tracked.held
  unfinished : ∀ f ∈ tracked.held, f.1.isLast = false
  held : tracked.held.Sublist labels
  assembled : ∀ entry ∈ tracked.assembled, entry.1.Sublist labels ∧ IsWhole entry.1 entry.2

theorem TrackInv.step {labels : List Push} {tracked next : Tracked} {push : Push}
    (h : TrackInv labels tracked) (hallowed : skipsNone tracked push = true)
    (hstep : tracked.step push = some next) : TrackInv (labels ++ [push]) next := by
  obtain ⟨packet, now⟩ := push
  have hlonger : labels.Sublist (labels ++ [(packet, now)]) := sublist_append_left ..
  have hearlier : ∀ entry ∈ tracked.assembled,
      entry.1.Sublist (labels ++ [(packet, now)]) ∧ IsWhole entry.1 entry.2 :=
    fun entry hentry => ⟨(h.assembled entry hentry).1.trans hlonger, (h.assembled entry hentry).2⟩
  have hkept : (if startsAfresh tracked.queue packet now then [] else tracked.held).Sublist tracked.held := by
    split
    · exact nil_sublist _
    · exact .refl _
  have htaken := (hkept.trans h.held).append (List.Sublist.refl [(packet, now)])
  rcases pushFragment_cases tracked.queue packet now with
    ⟨hwhole, hqueue, out, hanswer⟩ | ⟨-, ⟨error, hanswer⟩, hqueue⟩ | ⟨hfragment, hhigher, hcase⟩
  · simp only [Tracked.step, hanswer, hwhole, if_true, hqueue, Option.some.injEq] at hstep
    subst hstep
    exact ⟨rfl, by simp, nil_sublist _, hearlier⟩
  · simp only [Tracked.step, hanswer, Option.some.injEq] at hstep
    subst hstep
    rcases hqueue with hqueue | hqueue
    · rw [hqueue]
      cases hstate : tracked.queue with
      | none => exact ⟨rfl, by simp, nil_sublist _, hearlier⟩
      | some state =>
        have hsame := h.queue
        rw [hstate] at hsame
        exact ⟨hsame, h.unfinished, h.held.trans hlonger, hearlier⟩
    · rw [hqueue]
      exact ⟨rfl, by simp, nil_sublist _, hearlier⟩
  · -- a fragment that is taken continues the numbering, as it skips none
    obtain ⟨hqueued, htime⟩ := Queued.queueFor packet now h.queue
    have hnumber : packet.fragmentNumber.toNat =
        (if startsAfresh tracked.queue packet now then [] else tracked.held).length + 1 := by
      have hle : packet.fragmentNumber.toNat ≤ _ := of_decide_eq_true hallowed
      have hlt := UInt8.lt_iff_toNat_lt.mp hhigher
      rw [hqueued.highest] at hle hlt
      omega
    have hextended := hqueued.extend (queueFor_target ..).symm hnumber htime
    have hunfinished : ∀ f ∈ (if startsAfresh tracked.queue packet now then [] else tracked.held),
        f.1.isLast = false := fun f hf => h.unfinished f (hkept.subset hf)
    rcases hcase with ⟨hlast, hpush⟩ | ⟨hlast, out, hout, hpush⟩
    · simp only [Tracked.step, hpush, Option.some.injEq] at hstep
      subst hstep
      exact ⟨hextended, forall_mem_snoc hunfinished hlast, htaken, hearlier⟩
    · simp only [Tracked.step, hpush, if_neg hfragment, Option.some.injEq] at hstep
      subst hstep
      refine ⟨rfl, by simp, nil_sublist _, forall_mem_snoc hearlier ?_⟩
      obtain ⟨addrWire, haddr, rfl⟩ := assemble_cases hout
      refine ⟨htaken, hextended.isSequence hlast hunfinished, addrWire, haddr, ?_, rfl⟩
      rw [hextended.fragments]

theorem trackInv_of_run {labels : List Push} {tracked : Tracked}
    (hrun : Run Tracked.step (fun tracked push => skipsNone tracked push = true) {} labels tracked) :
    TrackInv labels tracked :=
  hrun.invariant (P := TrackInv) ⟨rfl, by simp, nil_sublist _, by simp⟩
    fun _ _ _ _ h hallowed hstep => h.step hallowed hstep

theorem toWireBytes_of_parseUdpRequest {bytes : List UInt8} {packet : Socks5UdpPacket}
    (h : parseUdpRequest bytes = .ok packet) : ∃ wire, packet.target.toWireBytes = .ok wire := by
  grind [parseUdpRequest, toWireBytes_of_fromWireBytes]

def pushAll : Option UdpFragmentState → List Push → List (Except Socks5Error (Option ReassembledUdpPacket))
  | _, [] => []
  | queue, push :: rest =>
    (pushFragment queue push.1 push.2).2 :: pushAll (pushFragment queue push.1 push.2).1 rest

section Sequence

variable {queue : Option UdpFragmentState} {held rest : List Push} {target : TargetAddr} {f g : Push}

section

variable (h : IsSequence (held ++ f :: rest) target)

include h

theorem IsSequence.number_at :
    f.1.fragmentNumber.toNat = held.length + 1 := by
  have hat := congrArg (·[held.length]?) h.numbers
  simpa [Nat.add_comm] using hat

theorem IsSequence.isLast_at :
    f.1.isLast = decide (rest = []) := by
  have hat := congrArg (·[held.length]?) h.ends
  cases rest with
  | nil => simpa using hat
  | cons g rest =>
    rw [getElem?_append_left (by simp)] at hat
    simpa [getElem?_replicate] using hat

theorem IsSequence.target_at : f.1.target = target :=
  h.targets f (by simp)

end

theorem IsSequence.time_at (h : IsSequence (held ++ f :: g :: rest) target) :
    g.2 < f.2 + socks5UdpReassemblyTimeout := by
  have htail := (isChain_append.mp h.unexpired).2.1
  exact (isChain_cons_cons.mp htail).1

theorem pushFragment_of_sequence (hseq : IsSequence (held ++ f :: rest) target)
    (hqueued : Queued (queueFor queue f.1 f.2) held)
    (hcap : ((held ++ f :: rest).map fun p => p.1.payload.length).sum ≤ socks5UdpReassemblyMaxBytes) :
    pushFragment queue f.1 f.2 =
      if rest = [] then (none, ((queueFor queue f.1 f.2).extend f.1 f.2).assemble)
      else (some ((queueFor queue f.1 f.2).extend f.1 f.2), .ok none) := by
  have hnumber := hseq.number_at
  have hzero : f.1.fragmentNumber ≠ 0 := by
    intro hzero
    rw [hzero] at hnumber
    cases hnumber
  have hwhole : f.1.fragment ≠ 0 := by
    intro hwhole
    exact hzero (by simp [Socks5UdpPacket.fragmentNumber, hwhole])
  have hhigher : ¬ f.1.fragmentNumber ≤ (queueFor queue f.1 f.2).highestFragment := by
    rw [UInt8.le_iff_toNat_le, hqueued.highest]
    omega
  have hfits : ¬ socks5UdpReassemblyMaxBytes < (queueFor queue f.1 f.2).totalBytes + f.1.payload.length := by
    rw [hqueued.total]
    simp only [map_append, map_cons, sum_append, sum_cons] at hcap
    omega
  by_cases hrest : rest = [] <;>
    simp [pushFragment, hwhole, hzero, queueFor_target, hhigher, hfits, hseq.isLast_at, hrest]

theorem pushAll_of_sequence {addrWire : List UInt8} (haddr : target.toWireBytes = .ok addrWire)
    (hseq : IsSequence (held ++ f :: rest) target) (hqueued : Queued (queueFor queue f.1 f.2) held)
    (hcap : ((held ++ f :: rest).map fun p => p.1.payload.length).sum ≤ socks5UdpReassemblyMaxBytes) :
    pushAll queue (f :: rest) = replicate rest.length (.ok none) ++
      [.ok (some ⟨target, addrWire ++ ((held ++ f :: rest).map fun p => p.1.payload).flatten,
        addrWire.length⟩)] := by
  have hpush := pushFragment_of_sequence hseq hqueued hcap
  have htarget : (queueFor queue f.1 f.2).target = target := (queueFor_target ..).trans hseq.target_at
  induction rest generalizing held queue f with
  | nil =>
    simp [pushAll, hpush, assemble, extend, htarget, haddr, hqueued.fragments]
  | cons g rest ih =>
    rw [if_neg (cons_ne_nil _ _)] at hpush
    have hseq' : IsSequence (held ++ [f] ++ g :: rest) target := by
      rw [← append_cons]
      exact hseq
    have htime : ∀ p ∈ held.getLast?, f.2 < p.2 + socks5UdpReassemblyTimeout := by
      intro p hp
      exact (isChain_append.mp hseq.unexpired).2.2 p hp f rfl
    have hextended := hqueued.extend (queueFor_target ..).symm hseq.number_at htime
    -- the next fragment finds the queue in time, of its target and below its number
    have hkept : queueFor (some ((queueFor queue f.1 f.2).extend f.1 f.2)) g.1 g.2 =
        (queueFor queue f.1 f.2).extend f.1 f.2 := by
      have hnumber := hseq'.number_at
      have hbefore := hseq.number_at
      have hlt := hseq.time_at
      have hle : f.1.fragmentNumber ≤ g.1.fragmentNumber := by
        rw [UInt8.le_iff_toNat_le, hnumber, hbefore]
        simp
      apply queueFor_of_current
      simp [outdated, extend, htarget, hseq'.target_at, hlt, hle]
    have hcap' : ((held ++ [f] ++ g :: rest).map fun p => p.1.payload.length).sum ≤
        socks5UdpReassemblyMaxBytes := by
      rw [← append_cons]
      exact hcap
    have hqueued' : Queued (queueFor (some ((queueFor queue f.1 f.2).extend f.1 f.2)) g.1 g.2)
        (held ++ [f]) := by
      rw [hkept]
      exact hextended
    have hrest := ih hseq' hqueued' hcap' (pushFragment_of_sequence hseq' hqueued' hcap')
      ((queueFor_target ..).trans hseq'.target_at)
    rw [pushAll, hpush, hrest, ← append_cons, length_cons, replicate_succ]
    rfl

end Sequence

/-- In a run in which no fragment skips a number, every datagram assembled from fragments is whole;
and a whole sequence that finds no queue to continue is assembled. -/
theorem assembled_whole_of_skipsNone {labels : List Push} {tracked : Tracked}
    (hrun : Run Tracked.step (fun tracked push => skipsNone tracked push = true) {} labels tracked) :
    (∀ entry ∈ tracked.assembled, entry.1.Sublist labels ∧ IsWhole entry.1 entry.2) ∧
    ∀ (f : Push) (rest : List Push) (target : TargetAddr), IsSequence (f :: rest) target →
      (∃ bytes, parseUdpRequest bytes = .ok f.1) → startsAfresh tracked.queue f.1 f.2 = true →
      ((f :: rest).map fun p => p.1.payload.length).sum ≤ socks5UdpReassemblyMaxBytes →
      ∃ out, IsWhole (f :: rest) out ∧
        pushAll tracked.queue (f :: rest) = replicate rest.length (.ok none) ++ [.ok (some out)] := by
  refine ⟨(trackInv_of_run hrun).assembled, ?_⟩
  intro f rest target hseq ⟨bytes, hparse⟩ hafresh hcap
  obtain ⟨addrWire, haddr⟩ := toWireBytes_of_parseUdpRequest hparse
  have htarget : f.1.target = target := hseq.targets f (by simp)
  rw [htarget] at haddr
  have hqueued : Queued (queueFor tracked.queue f.1 f.2) [] := by
    rw [queueFor_of_startsAfresh hafresh]
    exact queued_fresh _ _
  exact ⟨_, ⟨hseq, addrWire, haddr, rfl, rfl⟩, pushAll_of_sequence haddr hseq hqueued hcap⟩

def sampleFragment (fragment data : UInt8) : Socks5UdpPacket :=
  let wire : List UInt8 := [1, 8, 8, 8, 8, 0, 53]
  ⟨fragment, .ipV4 ⟨[8, 8, 8, 8], rfl⟩ 53, wire ++ [data], [data]⟩

theorem assembled_whole_two_fragments :
    ∃ tracked, Run Tracked.step (fun tracked push => skipsNone tracked push = true) {}
        [(sampleFragment 1 10, 0), (sampleFragment 0x82 11, 1)] tracked ∧ tracked.assembled.length = 1 ∧
      ∀ entry ∈ tracked.assembled, IsWhole entry.1 entry.2 := by
  refine exists_run rfl fun hrun => ?_
  exact ⟨rfl, fun entry hentry => ((assembled_whole_of_skipsNone hrun).1 entry hentry).2⟩

/-- Fragments 1 and 3, the latter with the end flag: fragment 2 never arrives and the datagram is
assembled without it. -/
theorem assembled_without_second_fragment :
    parseUdpRequest [0, 0, 1, 1, 8, 8, 8, 8, 0, 53, 10] = .ok (sampleFragment 1 10) ∧
    parseUdpRequest [0, 0, 0x83, 1, 8, 8, 8, 8, 0, 53, 12] = .ok (sampleFragment 0x83 12) ∧
    pushAll none [(sampleFragment 1 10, 0), (sampleFragment 0x83 12, 1)] =
      [.ok none, .ok (some ⟨(sampleFragment 1 10).target, [1, 8, 8, 8, 8, 0, 53, 10, 12], 7⟩)] := by
  refine ⟨rfl, rfl, rfl⟩

end OutlineProxy.Socks
