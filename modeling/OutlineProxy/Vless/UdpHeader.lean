import Mathlib.Data.Fintype.Basic
import OutlineProxy.Lib.Runs
import OutlineProxy.Shadowsocks.Wire

/-! The request header of a VLESS UDP session, bundled ahead of the first packet.  A `send_packet` call
takes the header, if it is still there, and then queues its datagram; calls overlap. -/

namespace OutlineProxy.Vless

open Runs
open Shadowsocks (Bytes)

def maxVlessUdpPayload : Nat := 64 * 1024

structure PacketSend where
  header : Option Bytes
  payload : Bytes

/-- `as u16`: the length of the largest payload wraps to zero. -/
def PacketSend.frame (send : PacketSend) : Bytes :=
  let len := UInt16.ofNat send.payload.length
  send.header.getD [] ++ [(len >>> 8).toUInt8, len.toUInt8] ++ send.payload

/-- `sent` has the call behind every datagram of the carrier. -/
structure VlessUdpTransport (Caller Pad Datagram : Type) where
  pendingHeader : Option Bytes
  calls : Caller → Option PacketSend := fun _ => none
  carrier : List Datagram := []
  sent : List (PacketSend × Pad) := []

open VlessUdpTransport

/-- `abandon`: the call is dropped in its send, or the send fails. -/
inductive PacketEvent (Caller Pad : Type) where
  | take (caller : Caller) (payload : Bytes)
  | queue (caller : Caller) (pad : Pad)
  | abandon (caller : Caller)

namespace VlessUdpTransport

variable {Caller Pad Datagram : Type} [DecidableEq Caller]

def put (t : VlessUdpTransport Caller Pad Datagram) (caller : Caller) (call : Option PacketSend) :
    VlessUdpTransport Caller Pad Datagram :=
  { t with calls := fun other => if other = caller then call else t.calls other }

/-- The steps of `send_packet`; a payload over the limit is refused before the header is touched.  `make`
pads a frame with the pad drawn for it. -/
def step (make : Pad → Bytes → Datagram) (t : VlessUdpTransport Caller Pad Datagram) :
    PacketEvent Caller Pad → Option (VlessUdpTransport Caller Pad Datagram)
  | .take caller payload =>
    match t.calls caller with
    | some _ => none
    | none =>
      if maxVlessUdpPayload < payload.length then some t
      else some { t.put caller (some ⟨t.pendingHeader, payload⟩) with pendingHeader := none }
  | .queue caller pad =>
    match t.calls caller with
    | none => none
    | some call =>
      some { t.put caller none with carrier := t.carrier ++ [make pad call.frame], sent := t.sent ++ [(call, pad)] }
  | .abandon caller =>
    match t.calls caller with
    | none => none
    | some _ => some (t.put caller none)

def headerOf (t : VlessUdpTransport Caller Pad Datagram) (caller : Caller) : Option Bytes :=
  (t.calls caller).bind PacketSend.header

/-- Until a datagram is queued, a call begins only when no other one is between taking and queueing, and
none is given up. -/
def Careful (t : VlessUdpTransport Caller Pad Datagram) : PacketEvent Caller Pad → Prop
  | .take _ _ => t.sent ≠ [] ∨ ∀ other, t.calls other = none
  | .queue _ _ => True
  | .abandon _ => t.sent ≠ []

instance [Fintype Caller] (t : VlessUdpTransport Caller Pad Datagram) :
    (event : PacketEvent Caller Pad) → Decidable (Careful t event)
  | .take _ _ => inferInstanceAs (Decidable (_ ∨ _))
  | .queue _ _ => inferInstanceAs (Decidable True)
  | .abandon _ => inferInstanceAs (Decidable (_ ≠ _))

variable {make : Pad → Bytes → Datagram} {header : Bytes} {t next : VlessUdpTransport Caller Pad Datagram}
  {event : PacketEvent Caller Pad}

/-- The header is in one place: pending, with the only call there is, or in the first datagram. -/
structure HeaderInv (make : Pad → Bytes → Datagram) (header : Bytes)
    (t : VlessUdpTransport Caller Pad Datagram) : Prop where
  carrier : t.carrier = t.sent.map fun p => make p.2 p.1.frame
  unsent : t.sent = [] → t.pendingHeader = some header ∧ (∀ other, t.calls other = none) ∨
    t.pendingHeader = none ∧ ∃ caller call, t.calls caller = some call ∧ call.header = some header ∧
      ∀ other, other ≠ caller → t.calls other = none
  later : t.sent ≠ [] → t.pendingHeader = none ∧ ∀ caller call, t.calls caller = some call → call.header = none
  first : ∀ i p, t.sent[i]? = some p → p.1.header = if i = 0 then some header else none

attribute [local grind] put

theorem HeaderInv.step (h : HeaderInv make header t) (hcareful : Careful t event)
    (hstep : t.step make event = some next) : HeaderInv make header next := by
  obtain ⟨hcarrier, hunsent, hlater, hfirst⟩ := h
  cases event with
  | take caller payload =>
    simp only [step] at hstep
    simp only [Careful] at hcareful
    refine ⟨by grind, fun hsent => ?_, by grind, by grind⟩
    rcases hunsent (by grind) with ⟨hheader, hnone⟩ | ⟨_, other, call, hcall, _⟩
    · by_cases hlarge : maxVlessUdpPayload < payload.length
      · exact .inl (by grind)
      · exact .inr ⟨by grind, caller, ⟨t.pendingHeader, payload⟩, by grind, hheader, by grind⟩
    · -- the call that has the header is still to queue, so no other one begins
      have := hcareful.resolve_left (by grind) other
      grind
  | queue caller pad =>
    simp only [step] at hstep
    rcases hcall : t.calls caller with _ | call
    · grind
    -- before anything is sent the only call is the one with the header
    have hqueued : t.pendingHeader = none ∧ call.header = (if t.sent = [] then some header else none) ∧
        ∀ other other', other ≠ caller → t.calls other = some other' → other'.header = none := by
      by_cases hsent : t.sent = []
      · rcases hunsent hsent with ⟨_, hnone⟩ | ⟨hpending, holder, _, _, _, hnone⟩ <;> grind
      · grind
    rw [hcall] at hstep
    cases hstep
    refine ⟨by grind, by simp, fun _ => ⟨hqueued.1, ?_⟩, by grind⟩
    intro other other' hother
    by_cases hsame : other = caller
    · grind
    · exact hqueued.2.2 other other' hsame (by grind)
  | abandon caller =>
    simp only [step] at hstep
    simp only [Careful] at hcareful
    constructor <;> grind

/-- In every run of careful steps the first datagram carries the request header and no later one does,
and until then the header is pending or with a call. -/
theorem vless_udp_header_first {labels : List (PacketEvent Caller Pad)}
    (hrun : Run (step make) Careful { pendingHeader := some header } labels t) :
    t.carrier = t.sent.map (fun p => make p.2 p.1.frame) ∧
      (∀ i p, t.sent[i]? = some p → p.1.header = if i = 0 then some header else none) ∧
      (t.sent = [] → t.pendingHeader = some header ∨ ∃ caller, t.headerOf caller = some header) := by
  have hinv : HeaderInv make header t := hrun.invariant (P := fun _ t => HeaderInv make header t)
    (by constructor <;> simp) fun _ _ _ _ h hcareful hstep => h.step hcareful hstep
  refine ⟨hinv.carrier, hinv.first, fun hsent => ?_⟩
  rcases hinv.unsent hsent with ⟨hheader, _⟩ | ⟨_, caller, call, hcall, hheader, _⟩
  · exact .inl hheader
  · exact .inr ⟨caller, by simp [headerOf, hcall, hheader]⟩

theorem vless_udp_header_first_two : ∃ t : VlessUdpTransport Bool Unit Bytes,
      Run (step fun _ frame => frame) Careful { pendingHeader := some [7] }
        [.take true [1], .queue true (), .take true [2], .take false [3], .queue false (), .abandon true] t ∧
        t.carrier = [[7, 0, 1, 1], [0, 1, 3]] ∧ t.carrier = t.sent.map fun p => p.1.frame := by
  refine exists_run rfl fun hrun => ?_
  exact ⟨rfl, (vless_udp_header_first hrun).1⟩

/-- Two calls that overlap queue their datagrams the other way round; and a call that is dropped in its
send takes the header with it. -/
theorem vless_udp_header_lost : (∃ t : VlessUdpTransport Bool Unit Bytes,
      Run (step fun _ frame => frame) (fun _ _ => True) { pendingHeader := some [7] }
        [.take true [1], .take false [2], .queue false (), .queue true ()] t ∧
        t.carrier = [[0, 1, 2], [7, 0, 1, 1]]) ∧ ∃ t : VlessUdpTransport Bool Unit Bytes,
        Run (step fun _ frame => frame) (fun _ _ => True) { pendingHeader := some [7] }
          [.take true [1], .abandon true, .take false [2], .queue false ()] t ∧ t.carrier = [[0, 1, 2]] :=
  ⟨⟨_, run_of_foldlM rfl, rfl⟩, _, run_of_foldlM rfl, rfl⟩

end VlessUdpTransport

end OutlineProxy.Vless
