import OutlineProxy.Lib.RankedKeys
import OutlineProxy.Lib.Runs

/-! Which flow of the TCP engine makes room for another: the index of all flows and that of the flows with a carrier. -/

namespace OutlineProxy.Tun.Eviction

open RankedKeys Runs Tables Option

def evictionIndexQuantum : Nat := 1000000000

abbrev Stamp := Nat ×ₗ Nat

def Stamp.lastSeen (stamp : Stamp) : Nat := (ofLex stamp).1

def Stamp.flowId (stamp : Stamp) : Nat := (ofLex stamp).2

@[grind =] theorem Stamp.lastSeen_toLex (lastSeen flowId : Nat) :
    Stamp.lastSeen (toLex (lastSeen, flowId)) = lastSeen := rfl

@[grind =] theorem Stamp.flowId_toLex (lastSeen flowId : Nat) : Stamp.flowId (toLex (lastSeen, flowId)) = flowId := rfl

section Indexes

variable {K : Type} [LinearOrder K]

abbrev FlowEvictionIndex (K : Type) := Index Stamp K

namespace FlowEvictionIndex

variable (index : FlowEvictionIndex K)

def upsert (key : K) (flowId lastSeen : Nat) : FlowEvictionIndex K :=
  match index.ranks.lookup key with
  | some previous =>
    if flowId < previous.flowId then index
    else if previous = toLex (lastSeen, flowId) then index
    else index.place key (toLex (lastSeen, flowId))
  | none => index.place key (toLex (lastSeen, flowId))

def remove (key : K) (flowId : Nat) : FlowEvictionIndex K :=
  match index.ranks.lookup key with
  | some record => if record.flowId = flowId then index.drop key else index
  | none => index

def popOldest : Option ((K × Nat) × FlowEvictionIndex K) :=
  index.popFirst.map fun popped => ((popped.1.2, Stamp.flowId popped.1.1), popped.2)

end FlowEvictionIndex

end Indexes

def evictionIndexNeedsRefresh (indexedLastSeen lastSeen : Nat) : Bool :=
  evictionIndexQuantum ≤ lastSeen - indexedLastSeen

structure Flow (K : Type) where
  key : K
  tunnelled : Bool
  lastSeen : Nat
  evictionIndexedAt : Nat
  closed : Bool

/-- The flow that gave way to another, and the live tunnelled flows then, with when they were last seen. -/
structure Victim where
  flowId : Nat
  live : List (Nat × Nat)

structure Engine (K : Type) where
  maxFlows : Nat
  carrierSlots : Bool
  flows : Table K Nat
  states : List (Flow K)
  evictionIndex : FlowEvictionIndex K
  carrierIndex : FlowEvictionIndex K
  clock : Nat
  victims : List Victim

open Engine

/-- `full` is what `try_acquire` finds of the budget, which the UDP engine and flows that are being torn down share. -/
inductive Event (K : Type) where
  | insert (key : K) (tunnelled full : Bool) (now : Nat)
  | activity (flowId now : Nat)
  | flip (flowId : Nat) (tunnelled : Bool)
  | close (key : K)

section Model

variable {K : Type} [LinearOrder K]

namespace Engine

def new (maxFlows : Nat) (carrierSlots : Bool) : Engine K := ⟨maxFlows, carrierSlots, ∅, [], .empty, .empty, 0, []⟩

variable (e : Engine K)

def liveTunnelled : List (Nat × Nat) :=
  e.flows.entries.filterMap fun entry =>
    (e.states[entry.2]?).bind fun flow => if flow.tunnelled then some (entry.2, flow.lastSeen) else none

def unindex (key : K) (flowId : Nat) : Engine K :=
  { e with
    evictionIndex := e.evictionIndex.remove key flowId
    carrierIndex := e.carrierIndex.remove key flowId }

/-- What is common to `close_flow`, `abort_flow_with_rst` and the evictions once the flow is out of the table. -/
def removeFlow (key : K) (flowId : Nat) : Engine K :=
  { e.unindex key flowId with
    flows := e.flows.erase key
    states := e.states.modify flowId fun flow => { flow with closed := true } }

def closeFlow (key : K) : Engine K :=
  match e.flows.lookup key with
  | some flowId => e.removeFlow key flowId
  | none => e

def abortFlowWithRstIfId (key : K) (expected : Nat) : Engine K :=
  match e.flows.lookup key with
  | some flowId => if flowId = expected then e.removeFlow key flowId else e.unindex key expected
  | none => e.unindex key expected

def makeRoom : Nat → Engine K → Engine K × Bool
  | 0, e => (e, false)
  | fuel + 1, e =>
    if size e.flows < e.maxFlows then (e, true)
    else
      match e.evictionIndex.popOldest with
      | some (victim, rest) => makeRoom fuel ({ e with evictionIndex := rest }.abortFlowWithRstIfId victim.1 victim.2)
      | none => (e, false)

def register (flow : Flow K) (carrier : Bool) : Engine K :=
  let flowId := e.states.length
  { e with
    states := e.states ++ [flow]
    carrierIndex := if carrier then e.carrierIndex.upsert flow.key flowId flow.lastSeen else e.carrierIndex
    flows := e.flows.insert flow.key flowId
    evictionIndex := e.evictionIndex.upsert flow.key flowId flow.lastSeen }

def discard (flow : Flow K) : Engine K := { e with states := e.states ++ [{ flow with closed := true }] }

def evictCarrier : Option (Engine K) :=
  e.carrierIndex.popOldest.map fun popped =>
    { e with carrierIndex := popped.2, victims := ⟨popped.1.2, e.liveTunnelled⟩ :: e.victims }.abortFlowWithRstIfId
      popped.1.1 popped.1.2

def insertFlow (flow : Flow K) (full : Bool) : Engine K :=
  match e.makeRoom (e.evictionIndex.entries.card + 1) with
  | (e, false) => e.discard flow
  | (e, true) =>
    if flow.tunnelled && e.carrierSlots then
      if full then
        match e.evictCarrier with
        | some e => e.register flow true
        | none => e.discard flow
      else e.register flow true
    else e.register flow false

def recordFlowActivity (flowId : Nat) (flow : Flow K) : Engine K :=
  if flow.closed then e
  else if evictionIndexNeedsRefresh flow.evictionIndexedAt flow.lastSeen then
    { e with
      states := e.states.modify flowId fun flow => { flow with evictionIndexedAt := flow.lastSeen }
      evictionIndex := e.evictionIndex.upsert flow.key flowId flow.lastSeen }
  else e

def touch (flowId now : Nat) (flow : Flow K) : Engine K :=
  { e with
    clock := now
    states := e.states.modify flowId fun flow => { flow with lastSeen := now } }.recordFlowActivity flowId
      { flow with lastSeen := now }

def flipRoute (flowId : Nat) (tunnelled : Bool) (flow : Flow K) : Engine K :=
  let e := { e with states := e.states.modify flowId fun flow => { flow with tunnelled := tunnelled } }
  if flow.tunnelled = tunnelled then e
  else if tunnelled then
    if e.carrierSlots then { e with carrierIndex := e.carrierIndex.upsert flow.key flowId flow.lastSeen } else e
  else { e with carrierIndex := e.carrierIndex.remove flow.key flowId }

end Engine

def step (e : Engine K) : Event K → Option (Engine K)
  | .insert key tunnelled full now =>
    if e.clock ≤ now ∧ e.flows.lookup key = none then
      some ({ e with clock := now }.insertFlow ⟨key, tunnelled, now, now, false⟩ full)
    else none
  | .activity flowId now =>
    if e.clock ≤ now then (e.states[flowId]?).map (e.touch flowId now) else none
  | .flip flowId tunnelled => (e.states[flowId]?).map (e.flipRoute flowId tunnelled)
  | .close key => some (e.closeFlow key)

end Model

attribute [local grind =] lookup_erase_eq lookup_insert_eq

section Views

variable {K : Type} [LinearOrder K] {index : FlowEvictionIndex K} {key other : K} {flowId lastSeen : Nat}
  {stamp : Stamp}

@[grind .] theorem agrees_upsert (h : index.Agrees) (key : K) (flowId lastSeen : Nat) :
    (index.upsert key flowId lastSeen).Agrees := by
  rw [FlowEvictionIndex.upsert]
  split
  · split
    · exact h
    · split
      · exact h
      · exact h.place _ _
  · exact h.place _ _

@[grind .] theorem agrees_remove (h : index.Agrees) (key : K) (flowId : Nat) : (index.remove key flowId).Agrees := by
  rw [FlowEvictionIndex.remove]
  split
  · split
    · exact h.drop key
    · exact h
  · exact h

theorem lookup_upsert (h : ∀ stamp, index.ranks.lookup key = some stamp → stamp.flowId = flowId) (other : K) :
    (index.upsert key flowId lastSeen).ranks.lookup other =
      if other = key then some (toLex (lastSeen, flowId)) else index.ranks.lookup other := by
  rw [FlowEvictionIndex.upsert]
  split
  · rename_i previous hprevious
    rw [if_neg (Nat.not_lt.mpr (Nat.le_of_eq (h previous hprevious)))]
    split
    · rename_i hsame
      split
      · rename_i hother
        rw [hother, hprevious, hsame]
      · rfl
    · exact Index.lookup_place
  · exact Index.lookup_place

@[grind =] theorem lookup_remove_ne (hne : other ≠ key) :
    (index.remove key flowId).ranks.lookup other = index.ranks.lookup other := by
  rw [FlowEvictionIndex.remove]
  split
  · split
    · rw [Index.lookup_drop, if_neg hne]
    · rfl
  · rfl

theorem lookup_remove_self (h : (index.remove key flowId).ranks.lookup key = some stamp) :
    index.ranks.lookup key = some stamp ∧ stamp.flowId ≠ flowId := by
  rw [FlowEvictionIndex.remove] at h
  split at h
  · rename_i record hrecord
    split at h
    · rw [Index.lookup_drop, if_pos rfl] at h
      cases h
    · rename_i hid
      cases hrecord.symm.trans h
      exact ⟨h, hid⟩
  · rename_i hnone
    rw [hnone] at h
    cases h

@[grind →] theorem lookup_of_remove (h : (index.remove key flowId).ranks.lookup other = some stamp) :
    index.ranks.lookup other = some stamp ∧ (other = key → stamp.flowId ≠ flowId) := by
  grind [lookup_remove_self]

theorem popOldest_spec (h : index.Agrees) {popped : K × Nat} {rest : FlowEvictionIndex K}
    (hpop : index.popOldest = some (popped, rest)) :
    ∃ stamp, index.ranks.lookup popped.1 = some stamp ∧ stamp.flowId = popped.2 ∧ rest = index.drop popped.1 ∧
      ∀ key other, index.ranks.lookup key = some other → stamp.lastSeen ≤ other.lastSeen := by
  obtain ⟨⟨entry, left⟩, hfirst, heq⟩ := map_eq_some_iff.mp hpop
  cases heq
  obtain ⟨hlookup, hrest, hmin⟩ := h.popFirst hfirst
  refine ⟨entry.1, hlookup, rfl, hrest, ?_⟩
  intro key other hother
  rcases Prod.Lex.le_iff.mp (hmin key other hother) with hlt | ⟨heq, -⟩
  · exact Nat.le_of_lt hlt
  · exact Nat.le_of_eq heq

theorem remove_drop : FlowEvictionIndex.remove (index.drop key) key flowId = index.drop key := by
  rw [FlowEvictionIndex.remove, Index.lookup_drop, if_pos rfl]

theorem remove_eq_drop (h : index.ranks.lookup key = some stamp) (hid : stamp.flowId = flowId) :
    index.remove key flowId = index.drop key := by
  rw [FlowEvictionIndex.remove, h]
  exact if_pos hid

end Views

section Invariant

variable {K : Type} [LinearOrder K] {e : Engine K} {key : K} {flowId : Nat}

structure Consistent (e : Engine K) : Prop where
  eviction : e.evictionIndex.Agrees
  carrier : e.carrierIndex.Agrees
  known : ∀ (key : K) (id : Nat), e.flows.lookup key = some id → ∃ flow, e.states[id]? = some flow ∧ flow.key = key
  opened : ∀ (id : Nat) (flow : Flow K), e.states[id]? = some flow → flow.closed = false →
    e.flows.lookup flow.key = some id
  indexed : ∀ (key : K) (stamp : Stamp), e.evictionIndex.ranks.lookup key = some stamp →
    e.flows.lookup key = some stamp.flowId
  carried : ∀ (key : K) (stamp : Stamp), e.carrierIndex.ranks.lookup key = some stamp →
    e.flows.lookup key = some stamp.flowId ∧ ∃ flow : Flow K, e.states[stamp.flowId]? = some flow ∧
      flow.tunnelled ∧ stamp.lastSeen ≤ flow.lastSeen
  tunnelled : ∀ (key : K) (id : Nat) (flow : Flow K), e.flows.lookup key = some id → e.states[id]? = some flow →
    flow.tunnelled → e.carrierSlots → ∃ stamp, e.carrierIndex.ranks.lookup key = some stamp
  past : ∀ (id : Nat) (flow : Flow K), e.states[id]? = some flow → flow.lastSeen ≤ e.clock

def Fresh (e : Engine K) : Prop :=
  ∀ (key : K) (stamp : Stamp) (flow : Flow K), e.carrierIndex.ranks.lookup key = some stamp →
    e.states[stamp.flowId]? = some flow → flow.lastSeen < stamp.lastSeen + evictionIndexQuantum

@[grind =] theorem getElem?_modify_eq {α : Type} (l : List α) (i j : Nat) (f : α → α) :
    (l.modify i f)[j]? = if j = i then l[j]?.map f else l[j]? := by
  by_cases h : i = j
  · simp [h]
  · simp [h, Ne.symm h]

theorem of_getElem?_modify {α : Type} {l : List α} {i j : Nat} {f : α → α} {a : α} (h : (l.modify i f)[j]? = some a) :
    j ≠ i ∧ l[j]? = some a ∨ j = i ∧ ∃ b, l[i]? = some b ∧ a = f b := by
  grind

theorem Consistent.removeFlow (h : Consistent e) (hkey : e.flows.lookup key = some flowId) :
    Consistent (e.removeFlow key flowId) := by
  cases h
  constructor <;> simp only [Engine.removeFlow, Engine.unindex] <;> grind

theorem Fresh.removeFlow (h : Fresh e) (key : K) (flowId : Nat) : Fresh (e.removeFlow key flowId) := by
  intro other stamp flow hother hflow
  obtain ⟨hold, -⟩ := lookup_of_remove hother
  rcases of_getElem?_modify hflow with ⟨-, hstate⟩ | ⟨hid, old, hstate, rfl⟩
  · exact h other stamp flow hold hstate
  · exact h other stamp old hold (hid ▸ hstate)

theorem Consistent.pop_eviction (h : Consistent e) {popped : K × Nat} {rest : FlowEvictionIndex K}
    (hpop : e.evictionIndex.popOldest = some (popped, rest)) :
    e.flows.lookup popped.1 = some popped.2 ∧
      { e with evictionIndex := rest }.abortFlowWithRstIfId popped.1 popped.2 = e.removeFlow popped.1 popped.2 := by
  obtain ⟨stamp, hlookup, hid, rfl, -⟩ := popOldest_spec h.eviction hpop
  have hflow : e.flows.lookup popped.1 = some popped.2 := hid ▸ h.indexed _ _ hlookup
  refine ⟨hflow, ?_⟩
  rw [Engine.abortFlowWithRstIfId, hflow]
  dsimp only
  rw [if_pos rfl, Engine.removeFlow, Engine.removeFlow, Engine.unindex, Engine.unindex, remove_drop,
    remove_eq_drop hlookup hid]

theorem Consistent.pop_carrier (h : Consistent e) {next : Engine K} (hevict : e.evictCarrier = some next) :
    ∃ key flowId stamp, e.carrierIndex.ranks.lookup key = some stamp ∧ stamp.flowId = flowId ∧
      (∀ other stamp', e.carrierIndex.ranks.lookup other = some stamp' → stamp.lastSeen ≤ stamp'.lastSeen) ∧
      next = { e.removeFlow key flowId with victims := ⟨flowId, e.liveTunnelled⟩ :: e.victims } := by
  obtain ⟨⟨popped, rest⟩, hpop, rfl⟩ := map_eq_some_iff.mp hevict
  obtain ⟨stamp, hlookup, hid, rfl, hmin⟩ := popOldest_spec h.carrier hpop
  refine ⟨popped.1, popped.2, stamp, hlookup, hid, hmin, ?_⟩
  have hflow : e.flows.lookup popped.1 = some popped.2 := hid ▸ (h.carried _ _ hlookup).1
  rw [Engine.abortFlowWithRstIfId, hflow]
  dsimp only
  rw [if_pos rfl, Engine.removeFlow, Engine.removeFlow, Engine.unindex, Engine.unindex, remove_drop,
    remove_eq_drop hlookup hid]

theorem makeRoom_keeps {P : Engine K → Prop}
    (hP : ∀ e key flowId, P e → e.flows.lookup key = some flowId → P (e.removeFlow key flowId)) (fuel : Nat) :
    ∀ e : Engine K, Consistent e → P e → Consistent (e.makeRoom fuel).1 ∧ P (e.makeRoom fuel).1 := by
  induction fuel with
  | zero => exact fun e h hp => ⟨h, hp⟩
  | succ fuel ih =>
    intro e h hp
    rw [makeRoom]
    split
    · exact ⟨h, hp⟩
    · split
      · rename_i popped rest hpop
        obtain ⟨hflow, heq⟩ := h.pop_eviction hpop
        rw [heq]
        exact ih _ (h.removeFlow hflow) (hP e _ _ hp hflow)
      · exact ⟨h, hp⟩

variable {flow : Flow K}

theorem Consistent.discard (h : Consistent e) (hseen : flow.lastSeen ≤ e.clock) :
    Consistent (e.discard flow) := by
  cases h
  constructor <;> simp only [Engine.discard] <;> grind

theorem Consistent.none_of_lookup (h : Consistent e) (hkey : e.flows.lookup key = none) :
    e.evictionIndex.ranks.lookup key = none ∧ e.carrierIndex.ranks.lookup key = none := by
  refine ⟨?_, ?_⟩
  · apply eq_none_iff_forall_ne_some.mpr
    intro stamp hstamp
    rw [h.indexed key stamp hstamp] at hkey
    cases hkey
  · apply eq_none_iff_forall_ne_some.mpr
    intro stamp hstamp
    rw [(h.carried key stamp hstamp).1] at hkey
    cases hkey

theorem lookup_upsert_new {index : FlowEvictionIndex K} {lastSeen : Nat} (h : index.ranks.lookup key = none)
    (other : K) : (index.upsert key flowId lastSeen).ranks.lookup other =
      if other = key then some (toLex (lastSeen, flowId)) else index.ranks.lookup other := by
  apply lookup_upsert
  intro stamp hstamp
  rw [h] at hstamp
  cases hstamp

section

variable (h : Consistent e)

include h

theorem Consistent.register {carrier : Bool} (hnew : e.flows.lookup flow.key = none)
    (hseen : flow.lastSeen ≤ e.clock) (hcarrier : carrier = (flow.tunnelled && e.carrierSlots)) :
    Consistent (e.register flow carrier) := by
  have hevict : ∀ other, (e.evictionIndex.upsert flow.key e.states.length flow.lastSeen).ranks.lookup other = _ :=
    lookup_upsert_new (h.none_of_lookup hnew).1
  have hcarry : ∀ other, (e.carrierIndex.upsert flow.key e.states.length flow.lastSeen).ranks.lookup other = _ :=
    lookup_upsert_new (h.none_of_lookup hnew).2
  cases h
  constructor <;> simp only [Engine.register]
  case tunnelled =>
    intro key id state hkey hstate
    cases carrier with
    | false => grind
    | true =>
      simp only [↓reduceIte, hcarry]
      split
      · exact fun _ _ => ⟨_, rfl⟩
      · grind
  all_goals grind

theorem Consistent.advance {now : Nat} (hnow : e.clock ≤ now) : Consistent { e with clock := now } :=
  { h with past := fun id flow hflow => Nat.le_trans (h.past id flow hflow) hnow }

theorem Consistent.modify {f : Flow K → Flow K} (hkey : ∀ flow, (f flow).key = flow.key)
    (hroute : ∀ flow, e.states[flowId]? = some flow → (f flow).tunnelled = flow.tunnelled)
    (hclosed : ∀ flow, (f flow).closed = flow.closed)
    (hseen : ∀ flow, e.states[flowId]? = some flow → flow.lastSeen ≤ (f flow).lastSeen ∧ (f flow).lastSeen ≤ e.clock) :
    Consistent { e with states := e.states.modify flowId f } := by
  cases h
  constructor <;> grind

theorem Consistent.refresh {lastSeen : Nat} (hkey : e.flows.lookup key = some flowId) :
    Consistent { e with evictionIndex := e.evictionIndex.upsert key flowId lastSeen } := by
  have hlookup : ∀ other, (e.evictionIndex.upsert key flowId lastSeen).ranks.lookup other = _ :=
    lookup_upsert fun stamp hstamp => some.inj ((h.indexed key stamp hstamp).symm.trans hkey)
  exact { h with eviction := agrees_upsert h.eviction _ _ _, indexed := by grind [h.indexed] }

theorem Consistent.touch {now : Nat} (hnow : e.clock ≤ now)
    (hflow : e.states[flowId]? = some flow) : Consistent (e.touch flowId now flow) := by
  have hseen : Consistent
      { e with clock := now, states := e.states.modify flowId fun flow => { flow with lastSeen := now } } := by
    refine (h.advance hnow).modify (fun _ => rfl) (fun _ _ => rfl) (fun _ => rfl) ?_
    intro state hstate
    exact ⟨Nat.le_trans (h.past flowId state hstate) hnow, Nat.le_refl _⟩
  rw [Engine.touch, Engine.recordFlowActivity]
  split
  · exact hseen
  · rename_i hopen
    split
    · have hindexed : Consistent
          { e with
            clock := now
            states := (e.states.modify flowId fun flow => { flow with lastSeen := now }).modify flowId fun flow =>
              { flow with evictionIndexedAt := flow.lastSeen } } := by
        refine hseen.modify (fun _ => rfl) (fun _ _ => rfl) (fun _ => rfl) ?_
        intro state hstate
        exact ⟨Nat.le_refl _, hseen.past flowId state hstate⟩
      exact hindexed.refresh (h.opened flowId flow hflow (Bool.eq_false_iff.mpr hopen))
    · exact hseen

theorem Consistent.flipTunnelled (hflow : e.states[flowId]? = some flow)
    (hlive : e.flows.lookup flow.key = some flowId) :
    Consistent { e with
      states := e.states.modify flowId fun flow => { flow with tunnelled := true }
      carrierIndex := e.carrierIndex.upsert flow.key flowId flow.lastSeen } := by
  have hlookup : ∀ other, (e.carrierIndex.upsert flow.key flowId flow.lastSeen).ranks.lookup other = _ :=
    lookup_upsert fun stamp hstamp => some.inj ((h.carried flow.key stamp hstamp).1.symm.trans hlive)
  cases h
  constructor
  case tunnelled =>
    intro key id state hkey hstate
    rw [hlookup]
    split
    · exact fun _ _ => ⟨_, rfl⟩
    · grind
  all_goals grind

theorem Consistent.flipRoute {tunnelled : Bool} (hflow : e.states[flowId]? = some flow)
    (hlive : tunnelled = true → e.flows.lookup flow.key = some flowId) :
    Consistent (e.flipRoute flowId tunnelled flow) := by
  rw [Engine.flipRoute]
  split
  · rename_i hsame
    refine h.modify (fun _ => rfl) ?_ (fun _ => rfl) ?_
    · intro state hstate
      cases hflow.symm.trans hstate
      exact hsame.symm
    · intro state hstate
      exact ⟨Nat.le_refl _, h.past flowId state hstate⟩
  · cases tunnelled with
    | false =>
      cases h
      constructor <;> grind [FlowEvictionIndex.remove]
    | true =>
      rw [if_pos rfl]
      split
      · exact h.flipTunnelled hflow (hlive rfl)
      · rename_i hslots
        cases h
        constructor <;> grind

end

end Invariant

section Victims

variable {K : Type} [LinearOrder K] {e after : Engine K} {key : K}

def Victim.Fair (v : Victim) : Prop :=
  ∃ own ∈ v.live, own.1 = v.flowId ∧ ∀ other ∈ v.live, own.2 ≤ other.2 + evictionIndexQuantum

theorem mem_liveTunnelled {entry : Nat × Nat} : entry ∈ e.liveTunnelled ↔ ∃ key flow,
    e.flows.lookup key = some entry.1 ∧ e.states[entry.1]? = some flow ∧ flow.tunnelled ∧ flow.lastSeen = entry.2 := by
  rw [liveTunnelled, List.mem_filterMap]
  constructor
  · rintro ⟨⟨key, id⟩, hmem, hbind⟩
    obtain ⟨flow, hflow, hsome⟩ := bind_eq_some_iff.mp hbind
    split at hsome
    · rename_i htunnelled
      cases hsome
      exact ⟨key, flow, AList.mem_lookup_iff.mpr hmem, hflow, htunnelled, rfl⟩
    · cases hsome
  · rintro ⟨key, flow, hlookup, hflow, htunnelled, hseen⟩
    refine ⟨⟨key, entry.1⟩, AList.mem_lookup_iff.mp hlookup, ?_⟩
    rw [hflow, bind_some, if_pos htunnelled, hseen]

theorem Consistent.fair (h : Consistent e) (hslots : e.carrierSlots) (hfresh : Fresh e) {stamp : Stamp}
    (hlookup : e.carrierIndex.ranks.lookup key = some stamp)
    (hmin : ∀ other stamp', e.carrierIndex.ranks.lookup other = some stamp' → stamp.lastSeen ≤ stamp'.lastSeen) :
    Victim.Fair ⟨stamp.flowId, e.liveTunnelled⟩ := by
  obtain ⟨hflows, flow, hflow, htunnelled, -⟩ := h.carried key stamp hlookup
  refine ⟨(stamp.flowId, flow.lastSeen), mem_liveTunnelled.mpr ⟨key, flow, hflows, hflow, htunnelled, rfl⟩, rfl, ?_⟩
  intro other hother
  obtain ⟨otherKey, state, hotherFlows, hstate, hotherTunnelled, hseen⟩ := mem_liveTunnelled.mp hother
  obtain ⟨stamp', hstamp'⟩ := h.tunnelled otherKey other.1 state hotherFlows hstate hotherTunnelled hslots
  -- The other flow's entry is no younger than the flow itself, the victim's no older than a quantum.
  obtain ⟨hotherFlows', state', hstate', -, hle⟩ := h.carried otherKey stamp' hstamp'
  rw [← some.inj (hotherFlows.symm.trans hotherFlows')] at hstate'
  cases hstate.symm.trans hstate'
  have hvictim := hfresh key stamp flow hlookup hflow
  have horder := hmin otherKey stamp' hstamp'
  dsimp only
  omega

structure Sound (e : Engine K) : Prop extends Consistent e where
  fair : ∀ v ∈ e.victims, v.Fair

theorem Sound.evictCarrier (h : Sound e) (hslots : e.carrierSlots) (hfresh : Fresh e)
    (hevict : e.evictCarrier = some after) :
    Sound after ∧ after.clock = e.clock ∧ after.carrierSlots = e.carrierSlots ∧
      ∀ key, e.flows.lookup key = none → after.flows.lookup key = none := by
  obtain ⟨victim, _, stamp, hlookup, rfl, hmin, rfl⟩ := h.toConsistent.pop_carrier hevict
  have hremoved := h.toConsistent.removeFlow (h.carried victim stamp hlookup).1
  refine ⟨⟨{ hremoved with }, ?_⟩, rfl, rfl, ?_⟩
  · intro v hv
    rcases List.mem_cons.mp hv with rfl | hold
    · exact h.toConsistent.fair hslots hfresh hlookup hmin
    · exact h.fair v hold
  · intro key hkey
    rw [removeFlow, lookup_erase_eq, hkey, ite_self]

theorem Sound.insertFlow (h : Sound e) {flow : Flow K} {full : Bool} (hnew : e.flows.lookup flow.key = none)
    (hseen : flow.lastSeen ≤ e.clock) (hfresh : flow.tunnelled → full → Fresh e) : Sound (e.insertFlow flow full) := by
  obtain ⟨hroom, hnew', hclock, hvictims, hfresh'⟩ := makeRoom_keeps
    (P := fun room => room.flows.lookup flow.key = none ∧ room.clock = e.clock ∧ room.victims = e.victims ∧
      (Fresh e → Fresh room))
    (fun room key flowId hroom _ =>
      ⟨by rw [Engine.removeFlow, lookup_erase_eq, hroom.1, ite_self], hroom.2.1, hroom.2.2.1,
      fun he => (hroom.2.2.2 he).removeFlow key flowId⟩)
    (e.evictionIndex.entries.card + 1) e h.toConsistent ⟨hnew, rfl, rfl, id⟩
  rw [Engine.insertFlow]
  split
  · rename_i room heq
    rw [heq] at hroom hclock hvictims
    exact ⟨hroom.discard (hclock ▸ hseen), hvictims ▸ h.fair⟩
  · rename_i room heq
    rw [heq] at hroom hnew' hclock hvictims hfresh'
    have hsound : Sound room := ⟨hroom, hvictims ▸ h.fair⟩
    split
    · rename_i hcarrier
      obtain ⟨htunnelled, hslots⟩ := Bool.and_eq_true_iff.mp hcarrier
      split
      · rename_i hfull
        split
        · rename_i next hevict
          obtain ⟨hnext, hnextClock, hnextSlots, hnextNew⟩ :=
            hsound.evictCarrier hslots (hfresh' (hfresh htunnelled hfull)) hevict
          refine ⟨hnext.toConsistent.register (hnextNew _ hnew') ?_ ?_, hnext.fair⟩
          · rw [hnextClock, hclock]
            exact hseen
          · rw [hnextSlots, hcarrier]
        · exact ⟨hroom.discard (hclock ▸ hseen), hsound.fair⟩
      · exact ⟨hroom.register hnew' (hclock ▸ hseen) hcarrier.symm, hsound.fair⟩
    · rename_i hcarrier
      exact ⟨hroom.register hnew' (hclock ▸ hseen) (Bool.eq_false_iff.mpr hcarrier).symm, hsound.fair⟩

/-- A tunnelled flow finds the budget full only while the carriers' entries are fresh, and a flow that turns to a tunnel
still is in the table. -/
def Careful (e : Engine K) : Event K → Prop
  | .insert _ tunnelled full _ => tunnelled = true → full = true → Fresh e
  | .flip flowId tunnelled => tunnelled = true → ∀ flow ∈ e.states[flowId]?, e.flows.lookup flow.key = some flowId
  | _ => True

theorem Engine.new_sound (maxFlows : Nat) (carrierSlots : Bool) : Sound (.new maxFlows carrierSlots : Engine K) where
  eviction := Index.agrees_empty
  carrier := Index.agrees_empty
  known key id hkey := by cases hkey
  opened id flow hflow := by cases hflow
  indexed key stamp hkey := by cases hkey
  carried key stamp hkey := by cases hkey
  tunnelled key id flow hkey := by cases hkey
  past id flow hflow := by cases hflow
  fair v hv := by cases hv

theorem touch_victims (flowId now : Nat) (flow : Flow K) : (e.touch flowId now flow).victims = e.victims := by
  rw [touch, recordFlowActivity]
  split
  · rfl
  · split <;> rfl

theorem flipRoute_victims (flowId : Nat) (tunnelled : Bool) (flow : Flow K) :
    (e.flipRoute flowId tunnelled flow).victims = e.victims := by
  rw [flipRoute]
  split
  · rfl
  · split
    · split <;> rfl
    · rfl

theorem Sound.next (h : Sound e) {event : Event K} (hcareful : Careful e event) (hstep : step e event = some after) :
    Sound after := by
  cases event with
  | insert key tunnelled full now =>
    rw [step] at hstep
    split at hstep
    · rename_i hinsert
      cases hstep
      have hadvanced : Sound { e with clock := now } := ⟨h.toConsistent.advance hinsert.1, h.fair⟩
      exact hadvanced.insertFlow hinsert.2 (Nat.le_refl _) hcareful
    · cases hstep
  | activity flowId now =>
    rw [step] at hstep
    split at hstep
    · rename_i hnow
      obtain ⟨flow, hflow, rfl⟩ := map_eq_some_iff.mp hstep
      refine ⟨h.toConsistent.touch hnow hflow, ?_⟩
      rw [touch_victims]
      exact h.fair
    · cases hstep
  | flip flowId tunnelled =>
    obtain ⟨flow, hflow, rfl⟩ := map_eq_some_iff.mp hstep
    refine ⟨h.toConsistent.flipRoute hflow fun htunnelled => hcareful htunnelled flow hflow, ?_⟩
    rw [flipRoute_victims]
    exact h.fair
  | close key =>
    cases hstep
    rw [closeFlow]
    split
    · rename_i flowId hlookup
      exact ⟨h.toConsistent.removeFlow hlookup, h.fair⟩
    · exact h

/-- In a careful run the victim is a live tunnelled flow not seen for the longest time, up to a quantum; both
indexes hold one entry a key, and only for flows that are in the table. -/
theorem carrier_eviction_lru {maxFlows : Nat} {carrierSlots : Bool} {events : List (Event K)}
    (hrun : Run step Careful (.new maxFlows carrierSlots) events e) :
    (∀ v ∈ e.victims, v.Fair) ∧ e.evictionIndex.Agrees ∧ e.carrierIndex.Agrees ∧
      (∀ (key : K) (stamp : Stamp), e.evictionIndex.ranks.lookup key = some stamp →
        e.flows.lookup key = some stamp.flowId) ∧
      ∀ (key : K) (stamp : Stamp), e.carrierIndex.ranks.lookup key = some stamp →
        e.flows.lookup key = some stamp.flowId := by
  have h : Sound e := hrun.invariant (P := fun _ engine => Sound engine) (new_sound _ _)
    fun _ _ _ _ h hcareful hstep => h.next hcareful hstep
  exact ⟨h.fair, h.eviction, h.carrier, h.indexed, fun key stamp hkey => (h.carried key stamp hkey).1⟩

theorem fresh_iff : Fresh e ↔ ∀ entry ∈ e.carrierIndex.ranks.entries, ∀ flow ∈ e.states[Stamp.flowId entry.2]?,
    flow.lastSeen < Stamp.lastSeen entry.2 + evictionIndexQuantum := by
  constructor
  · intro h entry hentry flow hflow
    exact h entry.1 entry.2 flow (AList.mem_lookup_iff.mpr hentry) hflow
  · intro h key stamp flow hkey hflow
    exact h ⟨key, stamp⟩ (AList.mem_lookup_iff.mp hkey) flow hflow

instance : Decidable (Fresh e) :=
  @decidable_of_iff _ _ fresh_iff.symm (List.decidableBAll _ _)

instance (event : Event K) : Decidable (Careful e event) :=
  match event with
  | .insert _ tunnelled full _ => inferInstanceAs (Decidable (tunnelled = true → full = true → Fresh e))
  | .flip flowId tunnelled =>
    inferInstanceAs (Decidable (tunnelled = true → ∀ flow ∈ e.states[flowId]?, e.flows.lookup flow.key = some flowId))
  | .activity _ _ => .isTrue trivial
  | .close _ => .isTrue trivial

end Victims

/-- Flow 0 was seen again within the quantum, and makes way. -/
theorem carrier_eviction_lru_oldest :
    let events : List (Event Nat) :=
      [.insert 7 true false 0, .activity 0 500000000, .insert 8 true false 1000000000, .insert 9 true true 2000000000]
    ∃ e : Engine Nat, Run step Careful (.new 8 true) events e ∧
      e.victims = [⟨0, [(1, 1000000000), (0, 500000000)]⟩] ∧ ∀ v ∈ e.victims, v.Fair := by
  intro events
  exact exists_run rfl fun hrun => ⟨rfl, (carrier_eviction_lru hrun).1⟩

/-- Flow 0 goes although it was seen nine seconds after flow 1: activity does not reach the carriers' index. And a
flow that turns to a tunnel after its end leaves an entry there, which then goes in place of a live flow. -/
theorem carrier_eviction_misses : (∃ e : Engine Nat, Run step (fun _ _ => True) (.new 8 true)
        [.insert 7 true false 0, .insert 8 true false 1000000000, .activity 0 10000000000,
          .insert 9 true true 11000000000] e ∧
      e.victims = [⟨0, [(1, 1000000000), (0, 10000000000)]⟩] ∧ ¬ ∀ v ∈ e.victims, v.Fair) ∧
    (∃ e : Engine Nat, Run step (fun _ _ => True) (.new 8 true) [.insert 7 false false 0, .close 7, .flip 0 true] e ∧
      e.carrierIndex.ranks.lookup 7 = some (toLex (0, 0)) ∧ e.flows.lookup 7 = none) ∧
    ∃ e : Engine Nat, Run step (fun _ _ => True) (.new 8 true)
        [.insert 7 false false 0, .close 7, .flip 0 true, .insert 8 true false 1, .insert 9 true true 2] e ∧
      e.victims = [⟨0, [(1, 1)]⟩] ∧ ¬ ∀ v ∈ e.victims, v.Fair := by
  refine ⟨⟨_, run_of_foldlM rfl, rfl, ?_⟩, ⟨_, run_of_foldlM rfl, rfl, rfl⟩, _, run_of_foldlM rfl, rfl, ?_⟩
  · intro hfair
    obtain ⟨own, hown, hid, hleast⟩ := hfair _ (List.mem_singleton.mpr rfl)
    have hle := hleast (1, 1000000000) (List.mem_cons_self)
    rcases List.mem_cons.mp hown with rfl | hown
    · cases hid
    · cases List.mem_singleton.mp hown
      exact absurd hle (by decide)
  · intro hfair
    obtain ⟨own, hown, hid, -⟩ := hfair _ (List.mem_singleton.mpr rfl)
    cases List.mem_singleton.mp hown
    cases hid

end OutlineProxy.Tun.Eviction
