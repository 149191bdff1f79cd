import OutlineProxy.Lib.Runs

/-! The response header held for the first downlink message of a session.  The `send_downlink` calls of
several writers take their steps in any order, and a call that waits may be dropped. -/

namespace OutlineProxy.Server

open Runs

structure HeldResponseHeader where
  sent : Bool
  slot : Option (List UInt8)
  len : Nat

def HeldResponseHeader.new (header : List UInt8) : HeldResponseHeader := ⟨false, some header, header.length⟩

def HeldResponseHeader.pendingLen (held : HeldResponseHeader) : Nat := if held.sent then 0 else held.len

/-- A call that does not hold the lock of the slot: before the flag is loaded, before the lock, and in the
last send. -/
inductive WaitPhase where
  | entered
  | locking
  | sending

/-- A call that holds the lock; `carrying` awaits the send of the joined message. -/
inductive HoldPhase where
  | locked
  | carrying (header : List UInt8)
  | clearing
  | storing

structure Holder (Caller : Type) where
  caller : Caller
  frame : List UInt8
  phase : HoldPhase

structure QueuedFrame (Caller Pad : Type) where
  caller : Caller
  frame : List UInt8
  pad : Pad
  carries : Bool

/-- `queued` has the writer and the frame of every message of the channel. -/
structure DownlinkSession (Caller Pad Msg : Type) where
  held : HeldResponseHeader
  waiting : Caller → Option (List UInt8 × WaitPhase) := fun _ => none
  holder : Option (Holder Caller) := none
  channel : List Msg := []
  queued : List (QueuedFrame Caller Pad) := []

open DownlinkSession

inductive SendEvent (Caller Pad : Type) where
  | call (caller : Caller) (frame : List UInt8)
  | load (caller : Caller)
  | lock (caller : Caller)
  | inspect
  | carry (pad : Pad)
  | clear
  | store
  | send (caller : Caller) (pad : Pad)
  | abandon (caller : Caller)
  | abandonLocked

namespace DownlinkSession

variable {Caller Pad Msg : Type} [DecidableEq Caller]

def put (s : DownlinkSession Caller Pad Msg) (caller : Caller) (call : Option (List UInt8 × WaitPhase)) :
    DownlinkSession Caller Pad Msg :=
  { s with waiting := fun other => if other = caller then call else s.waiting other }

/-- `make` frames the bytes of a message with the pad drawn for it.  A send that finds the channel closed
leaves what a dropped one leaves. -/
def step (make : Pad → List UInt8 → Msg) (s : DownlinkSession Caller Pad Msg) :
    SendEvent Caller Pad → Option (DownlinkSession Caller Pad Msg)
  | .call caller frame =>
    if s.waiting caller = none ∧ s.holder.map Holder.caller ≠ some caller then
      some (s.put caller (some (frame, .entered)))
    else none
  | .load caller =>
    match s.waiting caller with
    | some (frame, .entered) => some (s.put caller (some (frame, if s.held.sent then .sending else .locking)))
    | _ => none
  | .lock caller =>
    match s.waiting caller, s.holder with
    | some (frame, .locking), none => some { s.put caller none with holder := some ⟨caller, frame, .locked⟩ }
    | _, _ => none
  | .inspect =>
    match s.holder, s.held.slot with
    | some ⟨caller, frame, .locked⟩, some header =>
      some { s with holder := some ⟨caller, frame, .carrying header⟩ }
    | some ⟨caller, frame, .locked⟩, none => some { s.put caller (some (frame, .sending)) with holder := none }
    | _, _ => none
  | .carry pad =>
    match s.holder with
    | some ⟨caller, frame, .carrying header⟩ =>
      some { s with
        holder := some ⟨caller, frame, .clearing⟩
        channel := s.channel ++ [make pad (header ++ frame)]
        queued := s.queued ++ [⟨caller, frame, pad, true⟩] }
    | _ => none
  | .clear =>
    match s.holder with
    | some ⟨caller, frame, .clearing⟩ =>
      some { s with holder := some ⟨caller, frame, .storing⟩, held := { s.held with slot := none } }
    | _ => none
  | .store =>
    match s.holder with
    | some ⟨_, _, .storing⟩ => some { s with holder := none, held := { s.held with sent := true } }
    | _ => none
  | .send caller pad =>
    match s.waiting caller with
    | some (frame, .sending) =>
      some { s.put caller none with
        channel := s.channel ++ [make pad frame]
        queued := s.queued ++ [⟨caller, frame, pad, false⟩] }
    | _ => none
  | .abandon caller => if (s.waiting caller).isSome then some (s.put caller none) else none
  | .abandonLocked =>
    match s.holder with
    | some ⟨_, _, .carrying _⟩ => some { s with holder := none }
    | _ => none

variable {make : Pad → List UInt8 → Msg} {header : List UInt8} {s next : DownlinkSession Caller Pad Msg}
  {event : SendEvent Caller Pad}

/-- The header is in the slot until its message is in the channel, but for the call that has just sent it. -/
structure HeldInv (make : Pad → List UInt8 → Msg) (header : List UInt8)
    (s : DownlinkSession Caller Pad Msg) : Prop where
  len : s.held.len = header.length
  sending : ∀ caller frame, s.waiting caller = some (frame, .sending) → s.queued ≠ []
  carrying : ∀ caller frame carried, s.holder = some ⟨caller, frame, .carrying carried⟩ → carried = header ∧
    s.queued = []
  clearing : ∀ caller frame, s.holder = some ⟨caller, frame, .clearing⟩ → s.queued ≠ []
  storing : ∀ caller frame, s.holder = some ⟨caller, frame, .storing⟩ → s.queued ≠ [] ∧ s.held.slot = none
  fresh : s.queued = [] → s.held.slot = some header ∧ s.held.sent = false
  spent : s.queued ≠ [] → s.held.slot = none ∨ ∃ caller frame, s.holder = some ⟨caller, frame, .clearing⟩
  channel : s.channel = s.queued.map fun q => make q.pad (if q.carries then header ++ q.frame else q.frame)
  first : ∀ i q, s.queued[i]? = some q → (q.carries = true ↔ i = 0)

attribute [local grind] put

theorem HeldInv.step (h : HeldInv make header s) (hstep : s.step make event = some next) :
    HeldInv make header next := by
  obtain ⟨hlen, hsending, hcarrying, hclearing, hstoring, hfresh, hspent, hchannel, hfirst⟩ := h
  cases event with
  | inspect =>
    simp only [step] at hstep
    split at hstep <;> cases hstep
    · rename_i hholder hslot
      -- a header is still there and nobody is about to clear it: nothing has been queued
      have hqueued : s.queued = [] := by
        by_contra hsome
        rcases hspent hsome with hnone | ⟨_, _, hclear⟩ <;> simp_all
      constructor <;> grind
    · constructor <;> grind
  | abandonLocked =>
    simp only [step] at hstep
    split at hstep <;> cases hstep
    constructor <;> grind
  | _ =>
    simp only [step] at hstep
    constructor <;> grind [List.append_eq_nil_iff]

def framesOf (caller : Caller) : SendEvent Caller Pad → List (List UInt8)
  | .call other frame => if other = caller then [frame] else []
  | _ => []

def sentBy (caller : Caller) (s : DownlinkSession Caller Pad Msg) : List (List UInt8) :=
  (s.queued.filter (·.caller = caller)).map (·.frame)

def Holder.unsent (caller : Caller) (holder : Holder Caller) : List (List UInt8) :=
  match holder.phase with
  | .locked | .carrying _ => if holder.caller = caller then [holder.frame] else []
  | .clearing | .storing => []

def unsentOf (caller : Caller) (s : DownlinkSession Caller Pad Msg) : List (List UInt8) :=
  ((s.waiting caller).map Prod.fst).toList ++ s.holder.toList.flatMap (Holder.unsent caller)

/-- A caller has one call at a time, so what it has sent and what it is sending are calls of its own in
their order. -/
structure InTurn (labels : List (SendEvent Caller Pad)) (s : DownlinkSession Caller Pad Msg) : Prop where
  once : ∀ holder, s.holder = some holder → s.waiting holder.caller = none
  order : ∀ caller, (s.sentBy caller ++ s.unsentOf caller).Sublist (labels.flatMap (framesOf caller))

theorem InTurn.step {labels : List (SendEvent Caller Pad)} (h : InTurn labels s)
    (hstep : s.step make event = some next) : InTurn (labels ++ [event]) next := by
  obtain ⟨honce, horder⟩ := h
  refine ⟨?_, ?_⟩
  · cases event <;> simp only [step] at hstep <;> grind
  · intro writer
    have hold := horder writer
    suffices hnext : (next.sentBy writer ++ next.unsentOf writer).Sublist
        (s.sentBy writer ++ s.unsentOf writer ++ framesOf writer event) by
      rw [List.flatMap_append, List.flatMap_singleton]
      exact hnext.trans (hold.append (.refl _))
    have hheld : ∀ caller frame phase, s.holder = some ⟨caller, frame, phase⟩ → s.waiting caller = none :=
      fun caller frame phase hholder => honce _ hholder
    unfold sentBy unsentOf
    cases event <;> simp only [step] at hstep
    case call caller frame =>
      split at hstep <;> cases hstep
      rename_i hfree
      by_cases hw : writer = caller
      · subst hw
        have hnone : s.holder.toList.flatMap (Holder.unsent writer) = [] := by
          cases hholder : s.holder with
          | none => rfl
          | some holder => grind [Holder.unsent]
        simp [put, framesOf, hfree.1, hnone]
      · simp [put, hw]
    case inspect =>
      split at hstep <;> cases hstep <;> rename_i hholder _
      · simp [framesOf, Holder.unsent, hholder]
      · simp only [put, hholder, framesOf]
        split_ifs <;> simp_all [Holder.unsent]
    case carry pad =>
      split at hstep <;> cases hstep
      rename_i caller frame _ hholder
      have hnone := hheld _ _ _ hholder
      by_cases hw : caller = writer
      · subst hw
        simp [framesOf, Holder.unsent, hholder, hnone]
      · simp [framesOf, Holder.unsent, hholder, hw]
    case lock caller =>
      split at hstep <;> cases hstep
      rename_i hwaiting hholder
      by_cases hw : writer = caller
      · subst hw
        simp [put, framesOf, Holder.unsent, hholder, hwaiting]
      · simp [put, framesOf, Holder.unsent, hholder, hw, Ne.symm hw]
    case load caller =>
      split at hstep <;> cases hstep
      by_cases hw : writer = caller <;> simp [put, framesOf, *]
    case send caller pad =>
      split at hstep <;> cases hstep
      rename_i hwaiting
      by_cases hw : writer = caller
      · subst hw
        simp [put, framesOf, hwaiting]
      · simp [put, framesOf, hw, Ne.symm hw]
    case abandon caller =>
      split at hstep <;> cases hstep
      by_cases hw : writer = caller <;> simp [put, framesOf, hw]
    all_goals
      split at hstep <;> cases hstep
      simp [framesOf, Holder.unsent, *]

/-- In every interleaving, with any calls dropped, the first message carries the header and no other
does, a writer's messages keep the order of its calls, and the pending length is zero only when the
header is in the channel. -/
theorem held_header_once_and_first {labels : List (SendEvent Caller Pad)}
    (hrun : Run (step make) (fun _ _ => True) { held := .new header } labels s) :
    s.channel = s.queued.map (fun q => make q.pad (if q.carries then header ++ q.frame else q.frame)) ∧
      (∀ i q, s.queued[i]? = some q → (q.carries = true ↔ i = 0)) ∧
      (∀ caller, ((s.queued.filter (·.caller = caller)).map (·.frame)).Sublist (labels.flatMap (framesOf caller))) ∧
      (header ≠ [] → s.held.pendingLen = 0 → s.queued ≠ []) := by
  have hinv : HeldInv make header s := hrun.invariant (P := fun _ s => HeldInv make header s)
    (by constructor <;> simp [HeldResponseHeader.new]) fun _ _ _ _ h _ hstep => h.step hstep
  have hturn : InTurn labels s := hrun.invariant (P := InTurn) ⟨nofun, fun _ => .refl _⟩
    fun _ _ _ _ h _ hstep => h.step hstep
  refine ⟨hinv.channel, hinv.first, fun caller => ?_, fun hheader hpending hempty => ?_⟩
  · exact (List.sublist_append_left _ _).trans (hturn.order caller)
  · obtain ⟨-, hunsent⟩ := hinv.fresh hempty
    simp only [HeldResponseHeader.pendingLen, hunsent, hinv.len] at hpending
    exact hheader (List.eq_nil_of_length_eq_zero hpending)

/-- The first writer is dropped while it waits in its send, the second one carries the header. -/
theorem held_header_once_and_first_dropped : ∃ s : DownlinkSession Bool Unit (List UInt8),
      Run (step fun _ bytes => bytes) (fun _ _ => True) { held := .new [0, 0] }
        [.call true [1], .call false [2], .load true, .load false, .lock true, .inspect, .abandonLocked, .lock false,
          .inspect, .carry (), .clear, .store, .call true [3], .load true, .send true ()] s ∧
        s.channel = [[0, 0, 2], [3]] ∧ s.held.pendingLen = 0 ∧ s.queued ≠ [] := by
  refine exists_run rfl fun hrun => ?_
  exact ⟨rfl, rfl, (held_header_once_and_first hrun).2.2.2 (by simp) rfl⟩

end DownlinkSession

end OutlineProxy.Server
