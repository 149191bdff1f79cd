import OutlineProxy.Lib.Deadlines
import OutlineProxy.Tcp.Maintenance

/-! The maintenance loop and the tasks it shares the flows with.  A step is what one task does between two
points at which another may run.  The heap, the table and the flows are shared; the popped batch and the phase
belong to the loop. -/

namespace OutlineProxy.Tcp

open Deadlines

abbrev FlowId := Nat

structure Flow (Key : Type) where
  key : Key
  state : TcpFlowState

inductive LoopPhase (Key : Type) where
  /-- Before the next entry of the batch, or before the next batch. -/
  | picking
  /-- The flow of the popped entry is looked up, its lock not taken yet. -/
  | locking (entry : Entry Instant Key) (id : FlowId)
  /-- In the inner loop over one flow. -/
  | planning (id : FlowId) (key : Key)
  /-- On the way into `close_flow` or `abort_flow_with_rst`, without the flow's lock. -/
  | closing (key : Key)
deriving DecidableEq

structure Scheduling (Key : Type) where
  heap : List (Entry Instant Key)
  table : Key → Option FlowId
  flows : FlowId → Option (Flow Key)
  due : List (Entry Instant Key)
  phase : LoopPhase Key

inductive SchedulingStep (Key : Type) where
  /-- `insert_flow`. -/
  | create (key : Key) (id : FlowId) (state : TcpFlowState)
  /-- A flow leaves the table. -/
  | remove (key : Key)
  /-- A change under the flow's lock that ends without a commit. -/
  | change (id : FlowId) (state : TcpFlowState)
  /-- A change under the flow's lock that ends in `commit_flow_changes`. -/
  | commit (id : FlowId) (state : TcpFlowState) (now : Instant)
  | drain (now : Instant)
  | lookup
  | lock
  | plan (now : Instant) (clock : Clock)
  /-- A packet could not be built or written. -/
  | fail
  | close

variable {Key : Type} [LinearOrder Key]

namespace Scheduling

def schedule (sys : Scheduling Key) (key : Key) (deadline : Option Instant) : Scheduling Key :=
  match deadline with
  | some deadline => { sys with heap := ⟨deadline, key⟩ :: sys.heap }
  | none => sys

def store (sys : Scheduling Key) (id : FlowId) (flow : Flow Key) : Scheduling Key :=
  { sys with flows := Function.update sys.flows id (some flow) }

/-- Nothing outside the scheduler writes `nextScheduledDeadline`, and a closed flow stays closed. -/
def MayBecome (before after : TcpFlowState) : Prop :=
  after.nextScheduledDeadline = before.nextScheduledDeadline ∧ (before.status = .closed → after.status = .closed)

instance (before after : TcpFlowState) : Decidable (MayBecome before after) := by
  unfold MayBecome
  infer_instance

def dueFor (entry : Entry Instant Key) (state : TcpFlowState) : Bool :=
  state.nextScheduledDeadline.any fun deadline => decide (entry.deadline ≤ deadline)

def planOnce (tcp : TunTcpConfig) (sys : Scheduling Key) (id : FlowId) (flow : Flow Key) (now : Instant)
    (clock : Clock) : Scheduling Key :=
  if flow.state.status = .closed then
    { sys.store id { flow with state := { flow.state with nextScheduledDeadline := none } } with
      phase := .picking }
  else
    let planned := planFlowMaintenance flow.state tcp flow.state.idleTimeout now clock
    let sys := (sys.store id { flow with state := planned.state }).schedule flow.key planned.pushed
    match planned.plan with
    | .wait deadline =>
      let sys := sys.store id
        { flow with state := { planned.state with nextScheduledDeadline := deadline } }
      { sys.schedule flow.key deadline with phase := .picking }
    | .abort _ | .close _ => { sys with phase := .closing flow.key }
    | .sendPacket .. | .sendDataPacket .. | .flushServer _ => sys

def step (tcp : TunTcpConfig) (sys : Scheduling Key) : SchedulingStep Key → Option (Scheduling Key)
  | .create key id state =>
    if (sys.flows id).isSome ∨ state.nextScheduledDeadline.isSome then none
    else some { sys.store id ⟨key, state⟩ with table := Function.update sys.table key (some id) }
  | .remove key => some { sys with table := Function.update sys.table key none }
  | .change id state =>
    (sys.flows id).bind fun flow =>
      if MayBecome flow.state state then some (sys.store id { flow with state := state }) else none
  | .commit id state now =>
    (sys.flows id).bind fun flow =>
      if MayBecome flow.state state then
        let (state, pushed) := commitFlowChanges state tcp now
        some ((sys.store id { flow with state := state }).schedule flow.key pushed)
      else none
  | .drain now =>
    if sys.due = [] ∧ sys.phase = .picking then
      let (due, heap) := takeDue sys.heap now
      some { sys with heap := heap, due := due }
    else none
  | .lookup =>
    match sys.phase, sys.due with
    | .picking, entry :: rest =>
      match sys.table entry.key with
      | some id => some { sys with due := rest, phase := .locking entry id }
      | none => some { sys with due := rest }
    | _, _ => none
  | .lock =>
    match sys.phase with
    | .locking entry id =>
      (sys.flows id).map fun flow =>
        { sys with phase := if dueFor entry flow.state then .planning id flow.key else .picking }
    | _ => none
  | .plan now clock =>
    match sys.phase with
    | .planning id _ => (sys.flows id).map fun flow => planOnce tcp sys id flow now clock
    | _ => none
  | .fail =>
    match sys.phase with
    | .planning _ key => some { sys with phase := .closing key }
    | _ => none
  | .close =>
    match sys.phase with
    | .closing key => some { sys with table := Function.update sys.table key none, phase := .picking }
    | _ => none

def run (tcp : TunTcpConfig) (sys : Scheduling Key) : List (SchedulingStep Key) → Option (Scheduling Key)
  | [] => some sys
  | label :: rest => (sys.step tcp label).bind fun next => next.run tcp rest

def initial : Scheduling Key where
  heap := []
  table _ := none
  flows _ := none
  due := []
  phase := .picking

def Reaches (tcp : TunTcpConfig) (ok : Scheduling Key → SchedulingStep Key → Prop) :
    Scheduling Key → Scheduling Key → Prop :=
  Relation.ReflTransGen fun before after => ∃ label, ok before label ∧ before.step tcp label = some after

end Scheduling

end OutlineProxy.Tcp
