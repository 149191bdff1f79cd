import Mathlib.Algebra.BigOperators.Group.List.Basic
import Mathlib.Algebra.Ring.Int.Defs
import OutlineProxy.Lib.Runs

/-! The gauge of active UDP flows: the first binding of a flow and its close book it, later bindings move it. -/

namespace OutlineProxy.Tun.FlowGauge

open List Runs

def uplinkConnecting : String := "connecting"

/-- How far the uplink task is: it dials, has bound the record, has recorded the creation. -/
inductive Stage where
  | dialling
  | bound
  | running
deriving DecidableEq

inductive Place where
  | table
  | closing
  | closed
deriving DecidableEq

/-- `fetched` is the name that `bind_flow_uplink` writes once it locks the record it has found. -/
structure UdpFlowState where
  groupName : String
  uplinkName : String := uplinkConnecting
  stage : Stage := .dialling
  fetched : Option String := none
  place : Place := .table

abbrev Gauge := String → String → Int

namespace Gauge

variable (gauge : Gauge) (group : String)

def add (uplink : String) (n : Int) : Gauge :=
  fun g u => if g = group ∧ u = uplink then gauge g u + n else gauge g u

def recordTunFlowCreated (uplink : String) : Gauge := gauge.add group uplink 1

def moveTunFlowActive (fromUplink toUplink : String) : Gauge :=
  if fromUplink = toUplink then gauge else (gauge.add group fromUplink (-1)).add group toUplink 1

def recordTunFlowClosed (uplink : String) : Gauge := gauge.add group uplink (-1)

end Gauge

inductive Action where
  | fetch (name : String)
  | bind
  | created
  /-- By whatever way the flow leaves the table. -/
  | remove
  | close

namespace UdpFlowState

variable (flow : UdpFlowState) (gauge : Gauge)

def bindFlowUplink (name : String) : UdpFlowState × Gauge :=
  ({ flow with uplinkName := name, stage := if flow.stage = .dialling then .bound else flow.stage, fetched := none },
    if flow.uplinkName ≠ uplinkConnecting ∧ flow.uplinkName ≠ name then
      gauge.moveTunFlowActive flow.groupName flow.uplinkName name
    else gauge)

/-- A task that finds no record to bind ends and books nothing. -/
def advance : Action → Option (UdpFlowState × Gauge)
  | .fetch name =>
    if flow.place = .table ∧ flow.fetched = none ∧ flow.stage ≠ .bound then
      some ({ flow with fetched := some name }, gauge)
    else none
  | .bind => flow.fetched.map (flow.bindFlowUplink gauge)
  | .created =>
    if flow.stage = .bound then
      some ({ flow with stage := .running }, gauge.recordTunFlowCreated flow.groupName flow.uplinkName)
    else none
  | .remove => if flow.place = .table then some ({ flow with place := .closing }, gauge) else none
  | .close =>
    if flow.place = .closing then
      some ({ flow with place := .closed }, gauge.recordTunFlowClosed flow.groupName flow.uplinkName)
    else none

/-- A close finds its flow bound, a binding finds it not closed, and no uplink has the placeholder's name. -/
def Booked : Action → Bool
  | .fetch name => name ≠ uplinkConnecting
  | .bind => flow.place ≠ .closed
  | .close => flow.uplinkName ≠ uplinkConnecting
  | _ => true

def share (group uplink : String) : Int :=
  if group = flow.groupName ∧ uplink = flow.uplinkName then
    (if flow.stage = .running then 1 else 0) - if flow.place = .closed then 1 else 0
  else 0

end UdpFlowState

structure Engine where
  flows : List UdpFlowState := []
  tunFlowsActive : Gauge := fun _ _ => 0

inductive Event where
  | create (group : String)
  | act (i : Nat) (action : Action)

namespace Engine

variable (e : Engine)

def step : Event → Option Engine
  | .create group => some { e with flows := e.flows ++ [⟨group, uplinkConnecting, .dialling, none, .table⟩] }
  | .act i action => do
    let flow ← e.flows[i]?
    let (flow, gauge) ← flow.advance e.tunFlowsActive action
    some ⟨e.flows.set i flow, gauge⟩

def Booked : Event → Bool
  | .create _ => true
  | .act i action => (e.flows[i]?).all (·.Booked action)

/-- No close is queued and no flow is between its binding and the record of its creation. -/
def Quiet : Prop := ∀ flow ∈ e.flows, flow.place ≠ .closing ∧ flow.stage ≠ .bound

def bound (group uplink : String) : Nat :=
  e.flows.countP fun flow =>
    flow.place = .table ∧ flow.stage ≠ .dialling ∧ group = flow.groupName ∧ uplink = flow.uplinkName

end Engine

structure Sound (flow : UdpFlowState) : Prop where
  named : flow.uplinkName = uplinkConnecting ↔ flow.stage = .dialling
  renamed : flow.fetched ≠ some uplinkConnecting
  settled : flow.stage = .bound → flow.fetched = none
  unclosed : flow.stage = .dialling → flow.place ≠ .closed

structure Balanced (e : Engine) : Prop where
  sound : ∀ flow ∈ e.flows, Sound flow
  total : ∀ group uplink, e.tunFlowsActive group uplink = (e.flows.map (·.share group uplink)).sum

variable {flow next : UdpFlowState} {gauge gauge' : Gauge} {e e' : Engine}

open UdpFlowState Engine

theorem Sound.advance (h : Sound flow) {action : Action} (hbooked : flow.Booked action)
    (hadvance : flow.advance gauge action = some (next, gauge')) :
    Sound next ∧ ∀ group uplink,
      gauge' group uplink = gauge group uplink + (-flow.share group uplink + next.share group uplink) := by
  cases h
  cases action with
  | bind =>
    obtain ⟨name, hname, hbind⟩ := Option.map_eq_some_iff.mp hadvance
    cases hbind
    refine ⟨by grind [Sound], fun group uplink => ?_⟩
    simp only [ite_apply, Gauge.moveTunFlowActive, Gauge.add]
    cases hstage : flow.stage <;> grind [UdpFlowState.Booked, share]
  | created =>
    obtain ⟨hstage, hsome⟩ := Option.ite_none_right_eq_some.mp hadvance
    cases hsome
    refine ⟨by grind [Sound], fun group uplink => ?_⟩
    simp only [Gauge.recordTunFlowCreated, Gauge.add]
    grind [share]
  | close =>
    obtain ⟨hplace, hsome⟩ := Option.ite_none_right_eq_some.mp hadvance
    cases hsome
    refine ⟨by grind [Sound, UdpFlowState.Booked], fun group uplink => ?_⟩
    simp only [Gauge.recordTunFlowClosed, Gauge.add]
    grind [share]
  | _ => grind [UdpFlowState.advance, UdpFlowState.Booked, share, Sound]

theorem Sound.share_eq (h : Sound flow) (hquiet : flow.place ≠ .closing ∧ flow.stage ≠ .bound)
    (group uplink : String) : flow.share group uplink = if flow.place = .table ∧ flow.stage ≠ .dialling ∧
      group = flow.groupName ∧ uplink = flow.uplinkName then 1 else 0 := by
  have hunclosed := h.unclosed
  cases hplace : flow.place <;> cases hstage : flow.stage <;> simp_all [share]

theorem Balanced.step (h : Balanced e) {event : Event} (hbooked : e.Booked event) (hstep : e.step event = some e') :
    Balanced e' := by
  cases event with
  | create group =>
    cases hstep
    refine ⟨forall_mem_snoc h.sound ?_, fun group uplink => ?_⟩
    · exact ⟨⟨fun _ => rfl, fun _ => rfl⟩, nofun, nofun, nofun⟩
    · rw [h.total, map_append, sum_append]
      simp [share]
  | act i action =>
    obtain ⟨flow, hflow, hmap⟩ := Option.bind_eq_some_iff.mp hstep
    obtain ⟨⟨next, gauge⟩, hadvance, hsome⟩ := Option.bind_eq_some_iff.mp hmap
    cases hsome
    obtain ⟨hi, hget⟩ := List.getElem?_eq_some_iff.mp hflow
    obtain ⟨hnext, hgauge⟩ := (h.sound flow (mem_of_getElem? hflow)).advance
      (by simpa [Engine.Booked, hflow] using hbooked) hadvance
    refine ⟨forall_mem_set h.sound i hnext, fun group uplink => ?_⟩
    refine (hgauge group uplink).trans ?_
    rw [h.total, map_set, sum_set']
    simp [hi, hget]

/-- While a close finds its flow bound and a binding finds it not closed, the gauge of an uplink is the number of flows
bound to it whenever nothing is pending. -/
theorem gauge_counts_flows {events : List Event} (hrun : Run step (Booked · ·) {} events e) (hquiet : e.Quiet)
    (group uplink : String) :
    e.tunFlowsActive group uplink = e.bound group uplink ∧ 0 ≤ e.tunFlowsActive group uplink := by
  have h : Balanced e := hrun.invariant (P := fun _ e => Balanced e)
    ⟨fun _ hflow => (nomatch hflow), fun _ _ => rfl⟩ fun _ _ _ _ h hbooked hstep => h.step hbooked hstep
  have heq : e.tunFlowsActive group uplink = e.bound group uplink := by
    rw [h.total, map_congr_left fun flow hflow => (h.sound flow hflow).share_eq (hquiet flow hflow) group uplink]
    simp [Engine.bound, countP_eq_length_filter, sum_map_ite]
  exact ⟨heq, heq ▸ Int.natCast_nonneg _⟩

def switched : List Event :=
  [.create "main", .act 0 (.fetch "nuxt"), .act 0 .bind, .act 0 .created, .act 0 (.fetch "sebek"), .act 0 .bind]

theorem gauge_counts_flows_switched : ∃ e, Run step (Booked · ·) {} switched e ∧ e.Quiet ∧
    e.tunFlowsActive "main" "nuxt" = 0 ∧ e.tunFlowsActive "main" "sebek" = e.bound "main" "sebek" := by
  obtain ⟨e, hrun, hquiet, hnuxt⟩ : ∃ e, Run step (Booked · ·) {} switched e ∧ e.Quiet ∧
      e.tunFlowsActive "main" "nuxt" = 0 := ⟨_, run_of_foldlM rfl, by simp [Quiet], rfl⟩
  exact ⟨e, hrun, hquiet, hnuxt, (gauge_counts_flows hrun hquiet "main" "sebek").1⟩

/-- A close before the dial is done takes one from the placeholder's series. -/
theorem gauge_left_negative : ∃ e, Run step (fun _ _ => True) {} [.create "main", .act 0 .remove, .act 0 .close] e ∧
    e.Quiet ∧ e.bound "main" uplinkConnecting = 0 ∧ e.tunFlowsActive "main" uplinkConnecting = -1 := by
  refine ⟨_, run_of_foldlM rfl, ?_, rfl, rfl⟩
  simp [Engine.Quiet]

end OutlineProxy.Tun.FlowGauge
