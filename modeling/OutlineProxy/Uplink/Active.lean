import OutlineProxy.Lib.Runs

/-! The active uplink of a group: the pointers, what a restart finds of them, and what live flows see. -/

namespace OutlineProxy.Uplink

open Runs List

inductive TransportKind where
  | tcp
  | udp
deriving DecidableEq

inductive LoadBalancingMode where
  | activeActive
  | activePassive
deriving DecidableEq

inductive RoutingScope where
  | perFlow
  | perUplink
  | perClient
  | global
deriving DecidableEq

inductive SwitchIntent where
  | operatorHard
  | operatorSoft
  | failover
deriving DecidableEq

def SwitchIntent.migratesLiveFlows (sharedResume : Bool) : SwitchIntent → Bool
  | operatorHard => false
  | operatorSoft | failover => sharedResume

structure Group where
  mode : LoadBalancingMode
  routingScope : RoutingScope
  sharedResume : Bool
  names : List String
  stateStore : Bool

inductive Slot where
  | global
  | tcp
  | udp
deriving DecidableEq

instance {p : Slot → Prop} [DecidablePred p] : Decidable (∀ slot, p slot) :=
  decidable_of_iff (p .global ∧ p .tcp ∧ p .udp)
    ⟨fun h slot => match slot with | .global => h.1 | .tcp => h.2.1 | .udp => h.2.2, fun h => ⟨h _, h _, h _⟩⟩

def TransportKind.slot : TransportKind → Slot
  | tcp => .tcp
  | udp => .udp

section Selections

variable {α β : Type}

structure Selection (α : Type) where
  global : Option α
  tcp : Option α
  udp : Option α
deriving DecidableEq

namespace Selection

def get (s : Selection α) : Slot → Option α
  | .global => s.global
  | .tcp => s.tcp
  | .udp => s.udp

def set (s : Selection α) (a : α) : Slot → Selection α
  | .global => { s with global := some a }
  | .tcp => { s with tcp := some a }
  | .udp => { s with udp := some a }

def bind (f : α → Option β) (s : Selection α) : Selection β := ⟨s.global.bind f, s.tcp.bind f, s.udp.bind f⟩

@[simp] theorem get_set (s : Selection α) (a : α) (slot other : Slot) :
    (s.set a slot).get other = if other = slot then some a else s.get other := by
  cases slot <;> cases other <;> rfl

@[simp] theorem get_bind (f : α → Option β) (s : Selection α) (slot : Slot) :
    (s.bind f).get slot = (s.get slot).bind f := by
  cases slot <;> rfl

end Selection

end Selections

structure ActiveUplinksSnapshot extends Selection Nat where
  intent : SwitchIntent
deriving DecidableEq

namespace Group

variable (group : Group)

def strictGlobalActiveUplink : Bool := group.mode == .activePassive && group.routingScope == .global

def strictPerUplinkActiveUplink : Bool := group.mode == .activePassive && group.routingScope == .perUplink

def strictActiveUplink : Bool := group.strictGlobalActiveUplink || group.strictPerUplinkActiveUplink

def pointerSlot (transport : TransportKind) : Option Slot :=
  if group.strictGlobalActiveUplink then some .global
  else if group.strictPerUplinkActiveUplink then some transport.slot
  else none

def storeSlot (transport : TransportKind) : Slot := if group.strictGlobalActiveUplink then .global else transport.slot

def watchedSlot (transport : TransportKind) : Slot := if group.strictGlobalActiveUplink then .global else transport.slot

def find (name : String) : Option Nat := group.names.findIdx? (· == name)

end Group

inductive Verdict where
  | stay
  | abort
  | migrate (target : Nat)
deriving DecidableEq

/-- `udp_active_uplink_verdict`, and for TCP `active_uplink_verdict`; a flow without an uplink yet has no index. -/
def activeUplinkVerdict (group : Group) (transport : TransportKind) (snapshot : ActiveUplinksSnapshot) :
    Option Nat → Verdict
  | none => .stay
  | some flowIndex =>
    if group.strictActiveUplink then
      match snapshot.get (group.watchedSlot transport) with
      | none => .stay
      | some active =>
        if active = flowIndex then .stay
        else if snapshot.intent.migratesLiveFlows group.sharedResume then .migrate active
        else .abort
    else .stay

/-- The gate of `try_soft_switch_migrate`, with the uplink it goes to. -/
def softSwitchTarget (group : Group) (retryEligible : Bool) (snapshot : ActiveUplinksSnapshot) (currentIndex : Nat) :
    Option Nat :=
  if group.sharedResume && retryEligible && snapshot.intent.migratesLiveFlows group.sharedResume then
    (snapshot.get (group.watchedSlot .tcp)).filter (· ≠ currentIndex)
  else none

structure Call where
  transport : TransportKind
  index : Nat
  reason : String
  intent : SwitchIntent

/-- How far a call is; what it read is kept with the intents of the calls that had changed the pointers by then. -/
inductive Phase where
  | locked
  | stored
  | read (snapshot : ActiveUplinksSnapshot) (changedBy : Selection SwitchIntent)

structure Publication where
  before : ActiveUplinksSnapshot
  after : ActiveUplinksSnapshot
  changedBy : Selection SwitchIntent

/-- `calls` are those under way.  `changedBy` has the intent of the call that last changed each pointer. -/
structure Manager where
  active : Selection Nat
  reasons : Selection String
  persisted : Selection String
  published : ActiveUplinksSnapshot
  calls : List (Call × Phase)
  changedBy : Selection SwitchIntent
  history : List Publication

open Manager

inductive Event where
  | lock (call : Call)
  | store (k : Nat)
  | read (k : Nat)
  | publish (k : Nat)

namespace Manager

def newWithState (group : Group) (initial : Selection String) : Manager where
  active := initial.bind group.find
  reasons := (initial.bind group.find).bind fun _ => some "restored from state"
  persisted := initial
  published := ⟨initial.bind group.find, .operatorHard⟩
  calls := []
  changedBy := ⟨none, none, none⟩
  history := []

variable (group : Group) (m : Manager)

def move (call : Call) (slot : Slot) : Manager :=
  let changed := m.active.get slot ≠ some call.index
  { m with
    active := m.active.set call.index slot
    reasons :=
      if changed ∨ m.reasons.get slot = none ∨ call.reason = "manual switch" then m.reasons.set call.reason slot
      else m.reasons
    changedBy := if changed then m.changedBy.set call.intent slot else m.changedBy }

def lock (call : Call) : Manager :=
  match group.pointerSlot call.transport with
  | some slot => m.move call slot
  | none => m

def updateActive (call : Call) : Manager :=
  if group.stateStore then
    { m with persisted := m.persisted.set (group.names.getD call.index "") (group.storeSlot call.transport) }
  else m

def snapshot (call : Call) : ActiveUplinksSnapshot := ⟨m.active, call.intent⟩

/-- `send_if_modified`. -/
def send (snapshot : ActiveUplinksSnapshot) (changedBy : Selection SwitchIntent) : Manager :=
  if m.published = snapshot then m
  else { m with published := snapshot, history := ⟨m.published, snapshot, changedBy⟩ :: m.history }

end Manager

/-- One step of `set_active_uplink_index_for_transport` for one of the calls. -/
def step (group : Group) (m : Manager) : Event → Option Manager
  | .lock call =>
    if call.index < group.names.length then
      some { m.lock group call with calls := m.calls ++ [(call, .locked)] }
    else none
  | .store k =>
    match m.calls[k]? with
    | some (call, .locked) => some { m.updateActive group call with calls := m.calls.set k (call, .stored) }
    | _ => none
  | .read k =>
    match m.calls[k]? with
    | some (call, .stored) => some { m with calls := m.calls.set k (call, .read (m.snapshot call) m.changedBy) }
    | _ => none
  | .publish k =>
    match m.calls[k]? with
    | some (_, .read snapshot changedBy) => some { m.send snapshot changedBy with calls := m.calls.eraseIdx k }
    | _ => none

section Properties

variable (group : Group) (m : Manager)

/-- A restart would find the pointers as they are; it passes over names that are not configured. -/
def Kept (persisted : Selection String) (active : Selection Nat) : Prop :=
  ∀ slot, (persisted.get slot).filter (· ∈ group.names) = (active.get slot).bind (group.names[·]?)

def Converged : Prop := m.published.toSelection = m.active ∧ (group.stateStore → Kept group m.persisted m.active)

/-- A pointer that a snapshot changes comes with the intent of the call that changed it. -/
def Publication.Apt (p : Publication) : Prop :=
  ∀ slot, p.after.get slot ≠ p.before.get slot → p.changedBy.get slot = some p.after.intent

/-- Every pointer that was ever changed comes with the intent of the call that changed it last. -/
def Publication.Faithful (p : Publication) : Prop :=
  ∀ slot intent, p.changedBy.get slot = some intent → p.after.intent = intent

def Alone : Event → Prop
  | .lock _ => m.calls = []
  | .store _ | .read _ | .publish _ => True

/-- A call has the intent of the calls that changed the pointers which it leaves as they are. -/
def Agreeing : Event → Prop
  | .lock call => ∀ slot, (m.lock group call).active.get slot = m.active.get slot →
      ∀ intent ∈ m.changedBy.get slot, call.intent = intent
  | .store _ | .read _ | .publish _ => True

instance : (event : Event) → Decidable (Alone m event)
  | .lock _ => inferInstanceAs (Decidable (m.calls = []))
  | .store _ | .read _ | .publish _ => inferInstanceAs (Decidable True)

instance : (event : Event) → Decidable (Agreeing group m event)
  | .lock call => inferInstanceAs (Decidable (∀ slot, (m.lock group call).active.get slot = m.active.get slot →
      ∀ intent ∈ m.changedBy.get slot, call.intent = intent))
  | .store _ | .read _ | .publish _ => inferInstanceAs (Decidable True)

end Properties

section Restoring

variable {group : Group}

theorem find_names {name : String} {i : Nat} (h : group.find name = some i) : group.names[i]? = some name := by
  obtain ⟨hi, hname, -⟩ := findIdx?_eq_some_iff_getElem.mp h
  rw [getElem?_eq_getElem hi, eq_of_beq hname]

theorem find_eq_none {name : String} (h : group.find name = none) : name ∉ group.names := by
  intro hmem
  have hnot := findIdx?_eq_none_iff.mp h name hmem
  simp at hnot

theorem kept_restored (initial : Selection String) : Kept group initial (initial.bind group.find) := by
  intro slot
  rw [Selection.get_bind]
  cases hname : initial.get slot with
  | none => rfl
  | some name =>
    rw [Option.bind_some]
    cases hfind : group.find name with
    | none => rw [Option.filter_some_neg (by simpa using find_eq_none hfind), Option.bind_none]
    | some i => grind [find_names, Option.filter_some_pos, mem_of_getElem?]

theorem Kept.set {persisted : Selection String} {active : Selection Nat} (h : Kept group persisted active) {i : Nat}
    (hi : i < group.names.length) (slot : Slot) :
    Kept group (persisted.set (group.names.getD i "") slot) (active.set i slot) := by
  intro other
  rw [Selection.get_set, Selection.get_set]
  split
  · grind
  · exact h other

end Restoring

section Invariant

variable {group : Group} {m next : Manager} {call : Call} {slot : Slot} {event : Event}

def Pending (m : Manager) (call : Call) : Prop :=
  ∀ slot, m.active.get slot ≠ m.published.get slot → m.changedBy.get slot = some call.intent

def Owed (group : Group) (m : Manager) (call : Call) : Phase → Prop
  | .locked =>
    group.stateStore →
      Kept group (m.persisted.set (group.names.getD call.index "") (group.storeSlot call.transport)) m.active
  | .stored => group.stateStore → Kept group m.persisted m.active
  | .read snapshot changedBy =>
    (group.stateStore → Kept group m.persisted m.active) ∧ snapshot = m.snapshot call ∧ changedBy = m.changedBy

inductive Settled (group : Group) (m : Manager) : Prop
  | idle : m.calls = [] → Converged group m → Settled group m
  | busy {call : Call} {phase : Phase} : m.calls = [(call, phase)] → Pending m call → Owed group m call phase →
      Settled group m

theorem lock_frame (group : Group) (m : Manager) (call : Call) : (m.lock group call).published = m.published ∧
    (m.lock group call).persisted = m.persisted ∧ (m.lock group call).history = m.history := by
  rw [lock]
  split <;> exact ⟨rfl, rfl, rfl⟩

theorem lock_pointer (group : Group) (m : Manager) (call : Call) (slot : Slot) :
    (m.lock group call).active.get slot = m.active.get slot ∧
        (m.lock group call).changedBy.get slot = m.changedBy.get slot ∨
      (m.lock group call).changedBy.get slot = some call.intent := by
  rw [lock]
  split
  · rename_i moved _
    rw [move]
    dsimp only
    by_cases hslot : slot = moved
    · subst hslot
      by_cases hchanged : m.active.get slot ≠ some call.index
      · right
        rw [if_pos hchanged, Selection.get_set, if_pos rfl]
      · simp_all
    · left
      rw [Selection.get_set, if_neg hslot]
      refine ⟨rfl, ?_⟩
      split
      · rw [Selection.get_set, if_neg hslot]
      · rfl
  · exact .inl ⟨rfl, rfl⟩

theorem lock_active (hstrict : group.strictActiveUplink) (m : Manager) (call : Call) :
    (m.lock group call).active = m.active.set call.index (group.storeSlot call.transport) := by
  grind [lock, move, Group.pointerSlot, Group.storeSlot, Group.strictActiveUplink]

theorem Settled.lock (hgroup : group.stateStore → group.strictActiveUplink) (h : Converged group m)
    (hindex : call.index < group.names.length) (hcalls : m.calls = []) :
    Settled group { m.lock group call with calls := m.calls ++ [(call, .locked)] } := by
  refine .busy (by rw [hcalls, nil_append]) ?_ ?_
  · intro slot hne
    rw [(lock_frame group m call).1, h.1] at hne
    exact (lock_pointer group m call slot).resolve_left fun hsame => hne hsame.1
  · intro hstore
    dsimp only
    rw [(lock_frame group m call).2.1, lock_active (hgroup hstore)]
    exact (h.2 hstore).set hindex _

theorem calls_singleton {phase : Phase} {k : Nat} {entry : Call × Phase} (hcalls : m.calls = [(call, phase)])
    (hk : m.calls[k]? = some entry) : k = 0 ∧ (call, phase) = entry := by
  rw [hcalls, getElem?_singleton] at hk
  split at hk
  · rename_i hzero
    exact ⟨hzero, Option.some.inj hk⟩
  · cases hk

inductive Stepped (group : Group) (m : Manager) : Event → Manager → Prop
  | lock (call : Call) : call.index < group.names.length →
      Stepped group m (.lock call) { m.lock group call with calls := m.calls ++ [(call, .locked)] }
  | store (k : Nat) (call : Call) : m.calls[k]? = some (call, .locked) →
      Stepped group m (.store k) { m.updateActive group call with calls := m.calls.set k (call, .stored) }
  | read (k : Nat) (call : Call) : m.calls[k]? = some (call, .stored) →
      Stepped group m (.read k) { m with calls := m.calls.set k (call, .read (m.snapshot call) m.changedBy) }
  | publish (k : Nat) (call : Call) (snapshot : ActiveUplinksSnapshot) (changedBy : Selection SwitchIntent) :
      m.calls[k]? = some (call, .read snapshot changedBy) →
      Stepped group m (.publish k) { m.send snapshot changedBy with calls := m.calls.eraseIdx k }

theorem stepped_of_step (h : step group m event = some next) : Stepped group m event next := by
  cases event with
  | lock call =>
    rw [step] at h
    split at h
    · rename_i hindex
      cases h
      exact .lock call hindex
    · cases h
  | store k =>
    rw [step] at h
    split at h
    · rename_i call hk
      cases h
      exact .store k call hk
    · cases h
  | read k =>
    rw [step] at h
    split at h
    · rename_i call hk
      cases h
      exact .read k call hk
    · cases h
  | publish k =>
    rw [step] at h
    split at h
    · rename_i call snapshot changedBy hk
      cases h
      exact .publish k call snapshot changedBy hk
    · cases h

theorem send_frame (m : Manager) (snapshot : ActiveUplinksSnapshot) (changedBy : Selection SwitchIntent) :
    (m.send snapshot changedBy).active = m.active ∧ (m.send snapshot changedBy).persisted = m.persisted ∧
      (m.send snapshot changedBy).published = snapshot := by
  rw [send]
  split
  · exact ⟨rfl, rfl, by assumption⟩
  · exact ⟨rfl, rfl, rfl⟩

theorem mem_history_send {snapshot : ActiveUplinksSnapshot} {changedBy : Selection SwitchIntent} {p : Publication}
    (h : p ∈ (m.send snapshot changedBy).history) : p = ⟨m.published, snapshot, changedBy⟩ ∨ p ∈ m.history := by
  rw [send] at h
  split at h
  · exact .inr h
  · exact mem_cons.mp h

theorem Settled.busy_of_calls {k : Nat} {phase : Phase} (h : Settled group m) (hk : m.calls[k]? = some (call, phase)) :
    k = 0 ∧ m.calls = [(call, phase)] ∧ Pending m call ∧ Owed group m call phase := by
  cases h with
  | idle hcalls _ =>
    rw [hcalls] at hk
    cases hk
  | busy hcalls hpending howed => grind [calls_singleton]

theorem Settled.converged (h : Settled group m) (hcalls : m.calls = []) : Converged group m := by
  cases h with
  | idle _ hconverged => exact hconverged
  | busy hbusy _ _ =>
    rw [hcalls] at hbusy
    cases hbusy

theorem Settled.step (hgroup : group.stateStore → group.strictActiveUplink) (h : Settled group m)
    (halone : Alone m event) (hstep : Stepped group m event next) : Settled group next := by
  cases hstep with
  | lock call hindex => exact Settled.lock hgroup (h.converged halone) hindex halone
  | store k call hk =>
    obtain ⟨rfl, hcalls, hpending, howed⟩ := h.busy_of_calls hk
    refine .busy (by rw [hcalls]; rfl) ?_ ?_
    · rw [updateActive]
      split <;> exact hpending
    · intro hstore
      rw [updateActive, if_pos hstore]
      exact howed hstore
  | read k call hk =>
    obtain ⟨rfl, hcalls, hpending, howed⟩ := h.busy_of_calls hk
    refine .busy (by rw [hcalls]; rfl) hpending ?_
    exact ⟨howed, rfl, rfl⟩
  | publish k call snapshot changedBy hk =>
    obtain ⟨rfl, hcalls, -, hkept, rfl, rfl⟩ := h.busy_of_calls hk
    obtain ⟨hactive, hpersisted, hpublished⟩ := send_frame m (m.snapshot call) m.changedBy
    refine .idle (by rw [hcalls]; rfl) ⟨?_, fun hstore => ?_⟩
    · dsimp only
      rw [hpublished, hactive]
      rfl
    · dsimp only
      rw [hpersisted, hactive]
      exact hkept hstore

theorem apt_step (h : Settled group m) (hapt : ∀ p ∈ m.history, p.Apt) (hstep : Stepped group m event next) :
    ∀ p ∈ next.history, p.Apt := by
  cases hstep with
  | lock call hindex =>
    dsimp only
    rwa [(lock_frame group m call).2.2]
  | store k call hk =>
    rw [updateActive]
    split <;> exact hapt
  | read k call hk => exact hapt
  | publish k call snapshot changedBy hk =>
    obtain ⟨-, -, hpending, -, rfl, rfl⟩ := h.busy_of_calls hk
    intro p hp
    rcases mem_history_send hp with rfl | hold
    · exact hpending
    · exact hapt p hold

/-- The intents of all calls so far are the one of the call under way, as far as their pointers are still there. -/
structure Agreed (m : Manager) : Prop where
  underway : ∀ entry ∈ m.calls, ∀ slot intent, m.changedBy.get slot = some intent → entry.1.intent = intent
  faithful : ∀ p ∈ m.history, p.Faithful

theorem Agreed.step (hsettled : Settled group m) (h : Agreed m) (halone : Alone m event)
    (hagreeing : Agreeing group m event) (hstep : Stepped group m event next) : Agreed next := by
  cases hstep with
  | lock call hindex =>
    refine ⟨?_, by dsimp only; rw [(lock_frame group m call).2.2]; exact h.faithful⟩
    intro entry hentry slot intent hintent
    rw [show m.calls = [] from halone, nil_append, mem_singleton] at hentry
    subst hentry
    rcases lock_pointer group m call slot with ⟨hactive, hchanged⟩ | hown
    · exact hagreeing slot hactive intent (hchanged.symm.trans hintent)
    · exact Option.some.inj (hown.symm.trans hintent)
  | store k call hk =>
    obtain ⟨rfl, hcalls, -, -⟩ := hsettled.busy_of_calls hk
    have hunder := h.underway (call, .locked) (by rw [hcalls]; exact mem_singleton_self _)
    rw [updateActive]
    refine ⟨?_, by split <;> exact h.faithful⟩
    intro entry hentry slot intent hintent
    rw [hcalls] at hentry
    cases mem_singleton.mp hentry
    refine hunder slot intent ?_
    split at hintent <;> exact hintent
  | read k call hk =>
    obtain ⟨rfl, hcalls, -, -⟩ := hsettled.busy_of_calls hk
    refine ⟨?_, h.faithful⟩
    intro entry hentry
    rw [hcalls] at hentry
    cases mem_singleton.mp hentry
    exact h.underway (call, .stored) (by rw [hcalls]; exact mem_singleton_self _)
  | publish k call snapshot changedBy hk =>
    obtain ⟨rfl, hcalls, -, -, rfl, rfl⟩ := hsettled.busy_of_calls hk
    refine ⟨?_, ?_⟩
    · intro entry hentry
      rw [hcalls] at hentry
      cases hentry
    · intro p hp
      rcases mem_history_send hp with rfl | hold
      · exact h.underway _ (mem_of_getElem? hk)
      · exact h.faithful p hold

end Invariant

section Main

variable {group : Group} {initial : Selection String} {events : List Event} {m : Manager}

theorem settled_start (group : Group) (initial : Selection String) :
    Settled group (newWithState group initial) :=
  .idle rfl ⟨rfl, fun _ => kept_restored initial⟩

theorem settled_of_run (hgroup : group.stateStore → group.strictActiveUplink)
    (hrun : Run (step group) Alone (.newWithState group initial) events m) :
    Settled group m ∧ ∀ p ∈ m.history, p.Apt :=
  hrun.invariant (P := fun _ m => Settled group m ∧ ∀ p ∈ m.history, p.Apt)
    ⟨settled_start group initial, fun _ hp => by cases hp⟩
    fun _ _ _ _ h halone hstep =>
      ⟨h.1.step hgroup halone (stepped_of_step hstep), apt_step h.1 h.2 (stepped_of_step hstep)⟩

theorem agreed_of_run (hgroup : group.stateStore → group.strictActiveUplink)
    (hrun : Run (step group) (fun m event => Alone m event ∧ Agreeing group m event) (.newWithState group initial)
      events m) : Agreed m := by
  have hboth : Settled group m ∧ Agreed m := hrun.invariant (P := fun _ m => Settled group m ∧ Agreed m)
      ⟨settled_start group initial, fun _ hentry => (by cases hentry), fun _ hp => (by cases hp)⟩
      fun _ _ _ _ h hallowed hstep =>
        ⟨h.1.step hgroup hallowed.1 (stepped_of_step hstep),
          h.2.step h.1 hallowed.1 hallowed.2 (stepped_of_step hstep)⟩
  exact hboth.2

theorem verdict_cases (group : Group) (transport : TransportKind) (snapshot : ActiveUplinksSnapshot)
    (flow : Option Nat) :
    activeUplinkVerdict group transport snapshot flow = .stay ∨
      ∃ active, activeUplinkVerdict group transport snapshot flow =
        if snapshot.intent.migratesLiveFlows group.sharedResume then .migrate active else .abort := by
  cases flow with
  | none => exact .inl rfl
  | some flowIndex => grind [activeUplinkVerdict]

variable {snapshot : ActiveUplinksSnapshot}

theorem migrates_of_softSwitchTarget {retryEligible : Bool} {currentIndex target : Nat}
    (h : softSwitchTarget group retryEligible snapshot currentIndex = some target) :
    snapshot.intent.migratesLiveFlows group.sharedResume = true := by
  rw [softSwitchTarget] at h
  split at h
  · rename_i hgate
    exact (Bool.and_eq_true_iff.mp hgate).2
  · cases h

/-- What flows do about a pointer that was changed is what the call that changed it meant. -/
structure Observed (group : Group) (p : Publication) : Prop where
  migrate : ∀ transport flow target, activeUplinkVerdict group transport p.after flow = .migrate target →
    p.changedBy.get (group.watchedSlot transport) ≠ some .operatorHard
  abort : ∀ transport flow intent, activeUplinkVerdict group transport p.after flow = .abort →
    p.changedBy.get (group.watchedSlot transport) = some intent → intent.migratesLiveFlows group.sharedResume = false
  soft : ∀ retryEligible current target, softSwitchTarget group retryEligible p.after current = some target →
    p.changedBy.get (group.watchedSlot .tcp) ≠ some .operatorHard

theorem Publication.Faithful.observed {p : Publication} (h : p.Faithful) : Observed group p where
  migrate transport flow target hverdict hhard := by
    have hmigrates : p.after.intent.migratesLiveFlows group.sharedResume = true := by grind [verdict_cases]
    rw [h _ _ hhard] at hmigrates
    cases hmigrates
  abort transport flow intent hverdict hintent := by
    rw [← h _ _ hintent]
    grind [verdict_cases]
  soft retryEligible current target htarget hhard := by
    have hmigrates := migrates_of_softSwitchTarget htarget
    rw [h _ _ hhard] at hmigrates
    cases hmigrates

/-- Calls that come one after another leave the snapshot and the store with the pointers, and a pointer is published
with the intent of its call.  Where calls also agree in what they do not change, no flow takes one intent
for another. -/
theorem active_uplink_converges (hgroup : group.stateStore → group.strictActiveUplink)
    (hrun : Run (step group) Alone (.newWithState group initial) events m) :
    (m.calls = [] → Converged group m) ∧ (∀ p ∈ m.history, p.Apt) ∧
      (Run (step group) (fun m event => Alone m event ∧ Agreeing group m event) (.newWithState group initial) events m →
        ∀ p ∈ m.history, p.Faithful ∧ Observed group p) := by
  have h := settled_of_run hgroup hrun
  refine ⟨h.1.converged, h.2, ?_⟩
  intro hagreeing p hp
  have hfaithful := (agreed_of_run hgroup hagreeing).faithful p hp
  exact ⟨hfaithful, hfaithful.observed⟩

def threeUplinks (mode : LoadBalancingMode) : Group := ⟨mode, .global, true, ["a", "b", "c"], true⟩

def restoredOnFirst : Selection String := ⟨some "a", none, none⟩

def hardSwitch (index : Nat) : Call := ⟨.tcp, index, "manual switch", .operatorHard⟩

def failoverTo (index : Nat) : Call := ⟨.tcp, index, "successful selection", .failover⟩

def whole (call : Call) : List Event := [.lock call, .store 0, .read 0, .publish 0]

theorem active_uplink_converges_twice :
    let group := threeUplinks .activePassive
    let events := whole (failoverTo 1) ++ whole (failoverTo 2)
    ∃ m, Run (step group) Alone (.newWithState group restoredOnFirst) events m ∧ m.calls = [] ∧ Converged group m ∧
      ∀ p ∈ m.history, p.Faithful ∧ Observed group p := by
  intro group events
  let Both (m : Manager) (event : Event) : Prop := Alone m event ∧ Agreeing group m event
  let state := events.foldlM (fun m event => if Both m event then step group m event else none)
    (.newWithState group restoredOnFirst)
  let m := state.getD (.newWithState group restoredOnFirst)
  have hrun : Run (step group) Alone (.newWithState group restoredOnFirst) events m := run_of_foldlM rfl
  have hagreeing : Run (step group) Both (.newWithState group restoredOnFirst) events m := run_of_foldlM rfl
  have hmain := active_uplink_converges (fun _ => rfl) hrun
  exact ⟨m, hrun, rfl, hmain.1 rfl, hmain.2.2 hagreeing⟩

/-- Two calls that overlap leave the older choice in the store or before the flows, or the newer one with the intent of
the older; a call that changes nothing changes the intent; and a group without active uplinks persists one. -/
theorem active_uplink_races :
    let group := threeUplinks .activePassive
    let Ran := Run (step group) (fun _ _ => True) (.newWithState group restoredOnFirst)
    (∃ m, Ran ([.lock (hardSwitch 1), .lock (failoverTo 2), .store 1, .store 0] ++
      [.read 0, .publish 0, .read 0, .publish 0]) m ∧
      m.calls = [] ∧ m.active.global = some 2 ∧ m.persisted.global = some "b") ∧
    (∃ m, Ran ([.lock (hardSwitch 1), .store 0, .read 0, .lock (failoverTo 2), .store 1, .read 1] ++
        [.publish 1, .publish 0]) m ∧ m.calls = [] ∧ m.active.global = some 2 ∧ m.published.global = some 1) ∧
    (∃ m, Ran [.lock (hardSwitch 1), .lock (failoverTo 2), .store 0, .read 0, .publish 0] m ∧
      m.changedBy.global = some .failover ∧ activeUplinkVerdict group .udp m.published (some 0) = .abort) ∧
    (∃ m, Ran [.lock (failoverTo 2), .lock (hardSwitch 1), .store 0, .read 0, .publish 0] m ∧
      m.changedBy.global = some .operatorHard ∧ activeUplinkVerdict group .udp m.published (some 0) = .migrate 1) ∧
    (∃ m, Ran (whole (hardSwitch 1) ++ whole (failoverTo 1)) m ∧
      m.changedBy.global = some .operatorHard ∧ activeUplinkVerdict group .udp m.published (some 0) = .migrate 1) ∧
    ∃ m, Run (step (threeUplinks .activeActive)) (fun _ _ => True)
      (.newWithState (threeUplinks .activeActive) restoredOnFirst)
        (whole (failoverTo 1)) m ∧ m.calls = [] ∧ m.active.tcp = none ∧ m.persisted.tcp = some "b" := by
  refine ⟨⟨_, run_of_foldlM rfl, rfl, rfl, rfl⟩, ⟨_, run_of_foldlM rfl, rfl, rfl, rfl⟩, ⟨_, run_of_foldlM rfl, rfl, ?_⟩,
    ⟨_, run_of_foldlM rfl, rfl, ?_⟩, ⟨_, run_of_foldlM rfl, rfl, ?_⟩, ⟨_, run_of_foldlM rfl, rfl, rfl, rfl⟩⟩
  all_goals decide

end Main

end OutlineProxy.Uplink
