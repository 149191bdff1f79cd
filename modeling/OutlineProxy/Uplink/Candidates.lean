import Mathlib.Algebra.Ring.Nat
import Mathlib.Data.List.Count
import Mathlib.Data.List.MinMax
import Mathlib.Data.List.Sort
import Mathlib.Data.Prod.Lex
import OutlineProxy.Uplink.Active

/-! The choice of the active uplink of a strict group, and its way back to an uplink of higher priority. -/

namespace OutlineProxy.Uplink

open List Runs

structure TransportView where
  healthy : Option Bool
  cooldownUntil : Option Nat
  consecutiveSuccesses : Nat
  descentWindowUntil : Option Nat
  descentWindowStartedAt : Option Nat
  lossElevatedSince : Option Nat
  lossRatio : Option Nat
  lossRatioFresh : Bool
  lastAnyWireSuccess : Option Nat
deriving DecidableEq

structure UplinkConfig (W : Type) where
  weight : W
  hasFallbacks : Bool
  supportsUdp : Bool
  supportsUdpAny : Bool
deriving DecidableEq

/-- What is known of an uplink at the time of a call: `score` is its `selection_score`, `failoverScore` its
`score_latency`. -/
structure Reading where
  enabled : Bool
  tcp : TransportView
  udp : TransportView
  score : Option Nat
  failoverScore : Option Nat
deriving DecidableEq

structure SelectionConfig where
  scope : RoutingScope
  autoFailback : Bool
  probeEnabled : Bool
  minFailures : Nat
  globalUdpStrictHealth : Bool
  runtimeFailureWindow : Nat
  carrierDegradedFailover : Option Nat
  lossFailoverRatio : Nat
  lossFailoverDuration : Option Nat

structure CandidateState (W : Type) where
  index : Nat
  uplink : UplinkConfig W
  healthy : Bool
  reading : Reading
deriving DecidableEq

inductive FailoverDetail where
  | probeUnhealthy (transport : TransportKind)
  | cooldown (transport : TransportKind)

inductive SwitchReason where
  | initialSelection
  | autoFailback
  | carrierDegraded
  | lossFailover
  | failover (runtimeFailure : Bool) (details : List FailoverDetail)
  | unsupported

structure Decision where
  candidates : List Nat
  committed : Option (Nat × SwitchReason)

structure Selecting where
  transport : TransportKind
  failedActive : Option Nat
  now : Nat
  readings : Nat → Reading

section Health

def Reading.of (reading : Reading) : TransportKind → TransportView
  | .tcp => reading.tcp
  | .udp => reading.udp

namespace TransportView

variable (now : Nat) (view : TransportView)

def cooldownActive : Bool := view.cooldownUntil.any (now < ·)

def cooldownRemaining : Nat := (view.cooldownUntil.map (· - now)).getD 0

def effectiveHealth : Bool := view.healthy == some true && !view.cooldownActive now

def carrierDegradedSince : Option Nat :=
  if view.descentWindowUntil.any (now < ·) then view.descentWindowStartedAt else none

end TransportView

variable {W : Type} (config : SelectionConfig) (now : Nat) (uplink : UplinkConfig W) (reading : Reading)

def anyWireRecentSuccess (view : TransportView) : Bool :=
  uplink.hasFallbacks && view.lastAnyWireSuccess.any fun last => now - last ≤ config.runtimeFailureWindow

def fallbackBootstrapAllowed (view : TransportView) : Bool :=
  uplink.hasFallbacks && !view.cooldownActive now && view.lastAnyWireSuccess.isNone

def supportsTransport : TransportKind → Bool
  | .tcp => true
  | .udp => uplink.supportsUdpAny

def liveOn (view : TransportView) : Bool :=
  view.effectiveHealth now || anyWireRecentSuccess config now uplink view || fallbackBootstrapAllowed now uplink view

def selectionHealth (transport : TransportKind) : Bool :=
  if config.scope = .global then
    liveOn config now uplink reading.tcp &&
      (!config.globalUdpStrictHealth ||
        (!uplink.supportsUdp || (reading.udp.healthy != some false && !reading.udp.cooldownActive now)))
  else liveOn config now uplink (reading.of transport)

def strictGateTransport (transport : TransportKind) : TransportKind :=
  if config.scope = .global then .tcp else transport

end Health

def durationMax : Nat := (2 ^ 64 - 1) * 1000000000 + 999999999

section Orders

variable {W : Type} [LinearOrder W]

/-- `primary_order`, one component for each comparison; `initial_strict_order` compares the same. -/
def primaryKey (c : CandidateState W) : Bool ×ₗ Wᵒᵈ ×ₗ Nat ×ₗ Nat :=
  toLex (!c.healthy, toLex (OrderDual.toDual c.uplink.weight, toLex (c.reading.score.getD durationMax, c.index)))

def failoverKey (gate : TransportKind) (now : Nat) (c : CandidateState W) : Bool ×ₗ Nat ×ₗ Wᵒᵈ ×ₗ Nat ×ₗ Nat :=
  toLex (!c.healthy, toLex ((c.reading.of gate).cooldownRemaining now,
    toLex (OrderDual.toDual c.uplink.weight, toLex (c.reading.failoverScore.getD durationMax, c.index))))

def priorityKey (c : CandidateState W) : W ×ₗ Natᵒᵈ := toLex (c.uplink.weight, OrderDual.toDual c.index)

def higherPriority (b active : CandidateState W) : Bool :=
  active.uplink.weight < b.uplink.weight || (b.uplink.weight == active.uplink.weight && b.index < active.index)

end Orders

section Model

variable {W : Type} (config : SelectionConfig) (uplinks : List (UplinkConfig W)) (call : Selecting)

def gate : TransportKind := strictGateTransport config call.transport

def buildCandidateStates : List (CandidateState W) :=
  uplinks.zipIdx.filterMap fun entry =>
    let reading := call.readings entry.2
    if reading.enabled && supportsTransport entry.1 call.transport then
      some ⟨entry.2, entry.1, selectionHealth config call.now entry.1 reading call.transport, reading⟩
    else none

def transportFailoverDetail (reading : Reading) (transport : TransportKind) : Option FailoverDetail :=
  if config.probeEnabled && (reading.of transport).healthy == some false then some (.probeUnhealthy transport)
  else if (reading.of transport).cooldownActive call.now then some (.cooldown transport)
  else none

def strictActiveFailureDetails (candidate : CandidateState W) : List FailoverDetail :=
  let gate := gate config call
  let transports :=
    if config.scope = .global ∧ candidate.uplink.supportsUdp ∧ gate ≠ .udp then [gate, .udp] else [gate]
  transports.filterMap (transportFailoverDetail config call candidate.reading)

def FailoverDetail.isProbeUnhealthy : FailoverDetail → Bool
  | probeUnhealthy _ => true
  | cooldown _ => false

def shouldKeep (candidate : CandidateState W) : Bool :=
  let details := strictActiveFailureDetails config call candidate
  let probeHealthy := !config.probeEnabled || !details.any FailoverDetail.isProbeUnhealthy
  if config.scope = .global ∧ config.probeEnabled then probeHealthy else probeHealthy && details.isEmpty

variable [LinearOrder W]

def minStreak : Nat := config.minFailures % 2 ^ 32

def mayTakeOver (active c : CandidateState W) : Bool :=
  c.index ≠ active.index && c.healthy && active.uplink.weight ≤ c.uplink.weight &&
    minStreak config ≤ (c.reading.of (gate config call)).consecutiveSuccesses

def carrierDegradedSwitchTarget (candidates : List (CandidateState W)) (active : CandidateState W) :
    Option (CandidateState W) :=
  match config.carrierDegradedFailover, (active.reading.of (gate config call)).carrierDegradedSince call.now with
  | some threshold, some since =>
    if call.now - since < threshold then none
    else
      candidates.find? fun c =>
        mayTakeOver config call active c && ((c.reading.of (gate config call)).carrierDegradedSince call.now).isNone
  | _, _ => none

def lossFailoverSwitchTarget (candidates : List (CandidateState W)) (active : CandidateState W) :
    Option (CandidateState W) :=
  match config.lossFailoverDuration, (active.reading.of (gate config call)).lossElevatedSince with
  | some threshold, some since =>
    if config.lossFailoverRatio = 0 ∨ call.now - since < threshold then none
    else
      candidates.find? fun c =>
        mayTakeOver config call active c &&
          (c.reading.of (gate config call)).lossRatio.all fun ratio =>
            (c.reading.of (gate config call)).lossRatioFresh && ratio ≤ config.lossFailoverRatio
  | _, _ => none

def failbackEligible (active b : CandidateState W) : Bool :=
  higherPriority b active && (b.reading.of (gate config call)).healthy == some true

def failbackBest (candidates : List (CandidateState W)) (active : CandidateState W) : Option (CandidateState W) :=
  (candidates.filter (failbackEligible config call active)).argmax priorityKey

def isStable (b : CandidateState W) : Bool :=
  minStreak config ≤ (b.reading.of (gate config call)).consecutiveSuccesses

def commitFirst (commitSelection : Bool) (candidates : List (CandidateState W)) (reason : SwitchReason) : Decision :=
  match commitSelection, candidates with
  | true, first :: _ => ⟨[first.index], some (first.index, reason)⟩
  | _, _ => ⟨candidates.map CandidateState.index, none⟩

def switchTo (commitSelection : Bool) (target : CandidateState W) (reason : SwitchReason) : Decision :=
  ⟨[target.index], if commitSelection then some (target.index, reason) else none⟩

def holdActive (commitSelection : Bool) (candidates : List (CandidateState W)) (active : CandidateState W) : Decision :=
  match carrierDegradedSwitchTarget config call candidates active with
  | some target => switchTo commitSelection target .carrierDegraded
  | none =>
    match lossFailoverSwitchTarget config call candidates active with
    | some target => switchTo commitSelection target .lossFailover
    | none =>
      if config.autoFailback then
        match failbackBest config call candidates active with
        | some best =>
          if isStable config call best then commitFirst commitSelection candidates .autoFailback
          else ⟨[active.index], none⟩
        | none => ⟨[active.index], none⟩
      else ⟨[active.index], none⟩

def sortedCandidates : List (CandidateState W) :=
  (buildCandidateStates config uplinks call).insertionSort fun a b => primaryKey a ≤ primaryKey b

def strictTransportCandidates (currentActive : Option Nat) (commitSelection : Bool) : Decision :=
  let candidates := sortedCandidates config uplinks call
  let resorted := candidates.insertionSort fun a b =>
    failoverKey (gate config call) call.now a ≤ failoverKey (gate config call) call.now b
  match currentActive with
  | none => commitFirst commitSelection candidates .initialSelection
  | some activeIndex =>
    match candidates.find? fun c => c.index == activeIndex with
    | none => commitFirst commitSelection resorted .unsupported
    | some active =>
      if shouldKeep config call active && call.failedActive != some activeIndex then
        holdActive config call commitSelection candidates active
      else
        commitFirst commitSelection resorted
          (.failover (call.failedActive == some activeIndex) (strictActiveFailureDetails config call active))

end Model

section Built

variable {W : Type} {config : SelectionConfig} {uplinks : List (UplinkConfig W)} {call : Selecting}
  {c d : CandidateState W}

theorem mem_build (h : c ∈ buildCandidateStates config uplinks call) :
    uplinks[c.index]? = some c.uplink ∧ c.reading = call.readings c.index ∧
      c.healthy = selectionHealth config call.now c.uplink c.reading call.transport := by
  obtain ⟨⟨uplink, i⟩, hentry, hc⟩ := mem_filterMap.mp h
  dsimp only at hc
  split at hc
  · cases hc
    exact ⟨mem_zipIdx_iff_getElem?.mp hentry, rfl, rfl⟩
  · cases hc

theorem build_index_inj (hc : c ∈ buildCandidateStates config uplinks call)
    (hd : d ∈ buildCandidateStates config uplinks call) (h : c.index = d.index) : c = d := by
  obtain ⟨hcUplink, hcReading, hcHealthy⟩ := mem_build hc
  obtain ⟨hdUplink, hdReading, hdHealthy⟩ := mem_build hd
  obtain ⟨i, uplink, healthy, reading⟩ := c
  obtain ⟨j, uplink', healthy', reading'⟩ := d
  dsimp only at *
  subst h
  cases Option.some.inj (hcUplink.symm.trans hdUplink)
  subst hcReading hdReading hcHealthy hdHealthy
  rfl

variable {candidates : List (CandidateState W)} {reason : SwitchReason} {index : Nat}

theorem commitFirst_mem {cause : SwitchReason}
    (h : (commitFirst true candidates cause).committed = some (index, reason)) : ∃ c ∈ candidates, c.index = index := by
  cases candidates with
  | nil => cases h
  | cons first rest =>
    cases h
    exact ⟨first, mem_cons_self, rfl⟩

end Built

section Failback

variable {W : Type} [LinearOrder W] {config : SelectionConfig} {uplinks : List (UplinkConfig W)} {call : Selecting}
  {active c d : CandidateState W}

structure AtFailback (config : SelectionConfig) (uplinks : List (UplinkConfig W)) (call : Selecting)
    (active : CandidateState W) : Prop where
  autoFailback : config.autoFailback
  built : active ∈ buildCandidateStates config uplinks call
  kept : shouldKeep config call active
  notFailed : call.failedActive ≠ some active.index
  carrier : carrierDegradedSwitchTarget config call (sortedCandidates config uplinks call) active = none
  loss : lossFailoverSwitchTarget config call (sortedCandidates config uplinks call) active = none

/-- Of higher priority than the active uplink, healthy by its probes, and so for as long as it takes. -/
def Proven (config : SelectionConfig) (call : Selecting) (active c : CandidateState W) : Prop :=
  priorityKey active < priorityKey c ∧ (c.reading.of (gate config call)).healthy = some true ∧
    config.minFailures ≤ (c.reading.of (gate config call)).consecutiveSuccesses

def Ready (config : SelectionConfig) (uplinks : List (UplinkConfig W)) (call : Selecting) (active : CandidateState W) :
    Prop :=
  ∃ best ∈ buildCandidateStates config uplinks call, failbackEligible config call active best ∧
    isStable config call best ∧
    ∀ e ∈ buildCandidateStates config uplinks call, failbackEligible config call active e →
      priorityKey e ≤ priorityKey best

/-- No candidate the rule does not mean comes before the active uplink and all that it does mean. -/
def Aligned (config : SelectionConfig) (uplinks : List (UplinkConfig W)) (call : Selecting)
    (active : CandidateState W) :
    Prop :=
  Ready config uplinks call active →
    ∀ c ∈ buildCandidateStates config uplinks call, c.index ≠ active.index → ¬ Proven config call active c →
      ∃ d ∈ buildCandidateStates config uplinks call, (d.index = active.index ∨ Proven config call active d) ∧
        primaryKey d < primaryKey c

theorem head_insertionSort {α K : Type} [LinearOrder K] {key : α → K} {l rest : List α} {a : α}
    (h : l.insertionSort (fun a b => key a ≤ key b) = a :: rest) : a ∈ l ∧ ∀ b ∈ l, key a ≤ key b := by
  have hmem : ∀ b, b ∈ a :: rest ↔ b ∈ l := fun b => by rw [← h, mem_insertionSort]
  have hsorted := h ▸ pairwise_insertionSort (fun a b => key a ≤ key b) l
  refine ⟨(hmem a).mp mem_cons_self, ?_⟩
  intro b hb
  rcases mem_cons.mp ((hmem b).mpr hb) with rfl | hrest
  · exact le_refl _
  · exact (pairwise_cons.mp hsorted).1 b hrest

theorem mem_sortedCandidates :
    c ∈ sortedCandidates config uplinks call ↔ c ∈ buildCandidateStates config uplinks call :=
  mem_insertionSort _

theorem find_active (h : AtFailback config uplinks call active) :
    (sortedCandidates config uplinks call).find? (fun c => c.index == active.index) = some active := by
  have hmem := mem_sortedCandidates.mpr h.built
  cases hfind : (sortedCandidates config uplinks call).find? fun c => c.index == active.index with
  | none =>
    have hnot := find?_eq_none.mp hfind active hmem
    simp at hnot
  | some c =>
    have hbeq := find?_some hfind
    have hindex : c.index = active.index := eq_of_beq hbeq
    rw [build_index_inj (mem_sortedCandidates.mp (mem_of_find?_eq_some hfind)) h.built hindex]

theorem ready_iff : Ready config uplinks call active ↔
    ∃ best, failbackBest config call (sortedCandidates config uplinks call) active = some best ∧
      isStable config call best := by
  have hmem : ∀ c, c ∈ (sortedCandidates config uplinks call).filter (failbackEligible config call active) ↔
      c ∈ buildCandidateStates config uplinks call ∧ failbackEligible config call active c := fun c => by
    rw [mem_filter, mem_sortedCandidates]
  constructor
  · rintro ⟨best, hbest, heligible, hstable, hmax⟩
    cases hargmax : failbackBest config call (sortedCandidates config uplinks call) active with
    | none =>
      have hnil := argmax_eq_none.mp hargmax
      have hin := (hmem best).mpr ⟨hbest, heligible⟩
      rw [hnil] at hin
      cases hin
    | some m =>
      obtain ⟨hm, hmEligible⟩ := (hmem m).mp (argmax_mem hargmax)
      have hkey : priorityKey m = priorityKey best :=
        le_antisymm (hmax m hm hmEligible) (le_of_mem_argmax ((hmem best).mpr ⟨hbest, heligible⟩) hargmax)
      have hindex : m.index = best.index := congrArg (fun key => (ofLex key).2.ofDual) hkey
      rw [build_index_inj hm hbest hindex]
      exact ⟨best, rfl, hstable⟩
  · rintro ⟨best, hbest, hstable⟩
    obtain ⟨hin, heligible⟩ := (hmem best).mp (argmax_mem hbest)
    exact ⟨best, hin, heligible, hstable, fun e he heEligible =>
      le_of_mem_argmax ((hmem e).mpr ⟨he, heEligible⟩) hbest⟩

section

variable (h : AtFailback config uplinks call active)

include h

theorem decision_atFailback :
    strictTransportCandidates config uplinks call (some active.index) true =
      match failbackBest config call (sortedCandidates config uplinks call) active with
      | some best =>
        if isStable config call best then commitFirst true (sortedCandidates config uplinks call) .autoFailback
        else ⟨[active.index], none⟩
      | none => ⟨[active.index], none⟩ := by
  rw [strictTransportCandidates, find_active h]
  dsimp only
  rw [if_pos (by simpa using ⟨h.kept, h.notFailed⟩), holdActive, h.carrier]
  dsimp only
  rw [h.loss]
  dsimp only
  rw [if_pos h.autoFailback]

theorem decision_ready (hready : Ready config uplinks call active) :
    ∃ first ∈ buildCandidateStates config uplinks call,
      (∀ d ∈ buildCandidateStates config uplinks call, primaryKey first ≤ primaryKey d) ∧
      strictTransportCandidates config uplinks call (some active.index) true =
        ⟨[first.index], some (first.index, .autoFailback)⟩ := by
  obtain ⟨best, hbest, hstable⟩ := ready_iff.mp hready
  rw [decision_atFailback h, hbest]
  dsimp only
  rw [if_pos hstable]
  have hactive := mem_sortedCandidates.mpr h.built
  cases hsorted : sortedCandidates config uplinks call with
  | nil =>
    rw [hsorted] at hactive
    cases hactive
  | cons first rest =>
    obtain ⟨hfirst, hmin⟩ := head_insertionSort hsorted
    exact ⟨first, hfirst, hmin, rfl⟩

theorem decision_not_ready (hready : ¬ Ready config uplinks call active) :
    strictTransportCandidates config uplinks call (some active.index) true = ⟨[active.index], none⟩ := by
  rw [decision_atFailback h]
  cases hbest : failbackBest config call (sortedCandidates config uplinks call) active with
  | none => rfl
  | some best => exact if_neg fun hstable => hready (ready_iff.mpr ⟨best, hbest, hstable⟩)

end

def Sound (config : SelectionConfig) (uplinks : List (UplinkConfig W)) (call : Selecting) (active : CandidateState W) :
    Prop :=
  ∀ index reason, (strictTransportCandidates config uplinks call (some active.index) true).committed =
      some (index, reason) → index ≠ active.index →
    ∃ c ∈ buildCandidateStates config uplinks call, c.index = index ∧ Proven config call active c

theorem primaryKey_lt (hc : c ∈ buildCandidateStates config uplinks call)
    (hd : d ∈ buildCandidateStates config uplinks call) (hle : primaryKey c ≤ primaryKey d) (hne : c ≠ d) :
    primaryKey c < primaryKey d := by
  apply lt_of_le_of_ne hle
  intro heq
  have hindex : c.index = d.index := congrArg (fun key => (ofLex (ofLex (ofLex key).2).2).2) heq
  exact hne (build_index_inj hc hd hindex)

theorem sound_iff_aligned (h : AtFailback config uplinks call active) :
    Sound config uplinks call active ↔ Aligned config uplinks call active := by
  constructor
  · intro hsound hready c hc hne hnot
    obtain ⟨first, hfirst, hmin, hdecision⟩ := decision_ready h hready
    have hmeant : first.index = active.index ∨ Proven config call active first := by
      by_cases hactive : first.index = active.index
      · exact .inl hactive
      · obtain ⟨c', hc', hindex, hproven⟩ := hsound first.index .autoFailback (by rw [hdecision]) hactive
        rw [← build_index_inj hc' hfirst hindex]
        exact .inr hproven
    refine ⟨first, hfirst, hmeant, primaryKey_lt hfirst hc (hmin c hc) ?_⟩
    rintro rfl
    exact hmeant.elim hne hnot
  · intro haligned index reason hcommitted hne
    by_cases hready : Ready config uplinks call active
    · obtain ⟨first, hfirst, hmin, hdecision⟩ := decision_ready h hready
      rw [hdecision] at hcommitted
      cases hcommitted
      refine ⟨first, hfirst, rfl, ?_⟩
      by_contra hnot
      obtain ⟨d, hd, -, hlt⟩ := haligned hready first hfirst hne hnot
      exact not_le_of_gt hlt (hmin d hd)
    · rw [decision_not_ready h hready] at hcommitted
      cases hcommitted

end Failback

section Repeated

variable {W : Type} [LinearOrder W] {config : SelectionConfig} {uplinks : List (UplinkConfig W)} {call : Selecting}

structure Pointer where
  active : Option Nat
  switches : Nat

def select (config : SelectionConfig) (uplinks : List (UplinkConfig W)) (p : Pointer)
    (call : Selecting) : Option Pointer :=
  match (strictTransportCandidates config uplinks call p.active true).committed with
  | some (index, _) => some ⟨some index, if p.active = some index then p.switches else p.switches + 1⟩
  | none => some p

def HealthyAndAligned (config : SelectionConfig) (uplinks : List (UplinkConfig W)) (p : Pointer)
    (call : Selecting) : Prop :=
  ∃ active, p.active = some active.index ∧ AtFailback config uplinks call active ∧ Aligned config uplinks call active

def above (uplinks : List (UplinkConfig W)) (i : Nat) (uplink : UplinkConfig W) : Nat :=
  uplinks.zipIdx.countP fun entry =>
    toLex (uplink.weight, OrderDual.toDual i) < toLex (entry.1.weight, OrderDual.toDual entry.2)

theorem countP_lt_countP {α : Type} {p q : α → Bool} {l : List α} {a : α} (hpq : ∀ b ∈ l, p b → q b) (ha : a ∈ l)
    (hq : q a) (hp : ¬ p a) : l.countP p < l.countP q := by
  have hfilter : l.countP p = (l.filter q).countP p := by
    rw [countP_filter]
    apply countP_congr
    intro b hb
    simpa using hpq b hb
  rw [hfilter, countP_eq_length_filter (p := q), countP_lt_length_iff]
  exact ⟨a, mem_filter.mpr ⟨ha, hq⟩, by simpa using hp⟩

theorem above_lt_length {i : Nat} {uplink : UplinkConfig W} (h : uplinks[i]? = some uplink) :
    above uplinks i uplink < uplinks.length := by
  have hlength : uplinks.zipIdx.length = uplinks.length := length_zipIdx
  rw [above, ← hlength, countP_lt_length_iff]
  exact ⟨(uplink, i), mem_zipIdx_iff_getElem?.mpr h, by simp⟩

theorem above_lt_above {i j : Nat} {uplink other : UplinkConfig W} (h : uplinks[j]? = some other)
    (hlt : toLex (uplink.weight, OrderDual.toDual i) < toLex (other.weight, OrderDual.toDual j)) :
    above uplinks j other < above uplinks i uplink := by
  refine countP_lt_countP (a := (other, j)) ?_ (mem_zipIdx_iff_getElem?.mpr h) (by simpa using hlt) (by simp)
  intro entry _ hentry
  exact decide_eq_true (hlt.trans (of_decide_eq_true hentry))

def Bounded (uplinks : List (UplinkConfig W)) (p : Pointer) : Prop :=
  p.switches ≤ uplinks.length ∧
    ∀ i uplink, p.active = some i → uplinks[i]? = some uplink → p.switches + above uplinks i uplink ≤ uplinks.length

theorem Bounded.next {p next : Pointer} (h : Bounded uplinks p) (hallowed : HealthyAndAligned config uplinks p call)
    (hselect : select config uplinks p call = some next) : Bounded uplinks next := by
  obtain ⟨active, hactive, hat, haligned⟩ := hallowed
  have hbuilt := (mem_build hat.built).1
  have hbound := h.2 _ _ hactive hbuilt
  rw [Uplink.select] at hselect
  split at hselect
  · rename_i index reason hcommitted
    cases hselect
    rw [hactive] at hcommitted ⊢
    by_cases hsame : active.index = index
    · subst hsame
      rw [if_pos rfl]
      exact ⟨h.1, hactive ▸ h.2⟩
    · rw [if_neg fun heq => hsame (Option.some.inj heq)]
      obtain ⟨c, hc, rfl, hproven⟩ := (sound_iff_aligned hat).mpr haligned index reason hcommitted (Ne.symm hsame)
      have hcUplink := (mem_build hc).1
      have hlt : above uplinks c.index c.uplink < above uplinks active.index active.uplink :=
        above_lt_above hcUplink hproven.1
      refine ⟨by dsimp only; omega, ?_⟩
      intro i uplink hi huplink
      cases hi
      cases hcUplink.symm.trans huplink
      dsimp only
      omega
  · cases hselect
    exact h

theorem carrierDegradedSwitchTarget_mem {active target : CandidateState W}
    (h : carrierDegradedSwitchTarget config call candidates active = some target) : target ∈ candidates := by
  unfold carrierDegradedSwitchTarget at h
  split at h
  · split at h
    · cases h
    · exact mem_of_find?_eq_some h
  · cases h

theorem lossFailoverSwitchTarget_mem {active target : CandidateState W}
    (h : lossFailoverSwitchTarget config call candidates active = some target) : target ∈ candidates := by
  unfold lossFailoverSwitchTarget at h
  split at h
  · split at h
    · cases h
    · exact mem_of_find?_eq_some h
  · cases h

theorem holdActive_mem {active : CandidateState W}
    (h : (holdActive config call true candidates active).committed = some (index, reason)) :
    ∃ c ∈ candidates, c.index = index := by
  rw [holdActive] at h
  split at h
  · rename_i target htarget
    cases h
    exact ⟨target, carrierDegradedSwitchTarget_mem htarget, rfl⟩
  · split at h
    · rename_i target htarget
      cases h
      exact ⟨target, lossFailoverSwitchTarget_mem htarget, rfl⟩
    · split at h
      · split at h
        · split at h
          · exact commitFirst_mem h
          · cases h
        · cases h
      · cases h

theorem committed_mem {current : Option Nat}
    (h : (strictTransportCandidates config uplinks call current true).committed = some (index, reason)) :
    ∃ c ∈ buildCandidateStates config uplinks call, c.index = index := by
  have hsorted : (∃ c ∈ sortedCandidates config uplinks call, c.index = index) →
      ∃ c ∈ buildCandidateStates config uplinks call, c.index = index := by
    rintro ⟨c, hc, hindex⟩
    exact ⟨c, mem_sortedCandidates.mp hc, hindex⟩
  have hresorted : ∀ cause, (commitFirst true ((sortedCandidates config uplinks call).insertionSort fun a b =>
      failoverKey (gate config call) call.now a ≤ failoverKey (gate config call) call.now b) cause).committed =
        some (index, reason) → ∃ c ∈ buildCandidateStates config uplinks call, c.index = index := by
    intro cause hcommit
    obtain ⟨c, hc, hindex⟩ := commitFirst_mem hcommit
    exact ⟨c, mem_sortedCandidates.mp ((mem_insertionSort _).mp hc), hindex⟩
  cases current with
  | none => exact hsorted (commitFirst_mem h)
  | some activeIndex => grind [strictTransportCandidates, holdActive_mem]

theorem Bounded.first {p : Pointer} {active : Option Nat} (h : select config uplinks ⟨active, 0⟩ call = some p) :
    Bounded uplinks p := by
  rw [Uplink.select] at h
  split at h
  · rename_i index reason hcommitted
    cases h
    obtain ⟨c, hc, rfl⟩ := committed_mem hcommitted
    have huplink := (mem_build hc).1
    have habove := above_lt_length huplink
    have hswitches : (if active = some c.index then 0 else 0 + 1) ≤ 1 := by split <;> decide
    refine ⟨Nat.le_trans hswitches (Nat.lt_of_le_of_lt (Nat.zero_le _) habove), ?_⟩
    intro i uplink hi hget
    cases hi
    cases huplink.symm.trans hget
    dsimp only at hswitches ⊢
    omega
  · cases h
    refine ⟨Nat.zero_le _, ?_⟩
    intro i uplink _ hget
    rw [Nat.zero_add]
    exact Nat.le_of_lt (above_lt_length hget)

/-- The failback rule makes active what it means to, exactly when no other candidate is ahead in the order it commits
from; and as long as the active uplink is found healthy and that holds, it changes no more often than there are uplinks,
whatever the first call did. -/
theorem auto_failback_iff_aligned (config : SelectionConfig) (uplinks : List (UplinkConfig W)) :
    (∀ call active, AtFailback config uplinks call active →
      (Sound config uplinks call active ↔ Aligned config uplinks call active)) ∧
    ∀ start first p calls last, select config uplinks ⟨start, 0⟩ first = some p →
      Run (select config uplinks) (HealthyAndAligned config uplinks) p calls last → last.switches ≤ uplinks.length := by
  refine ⟨fun call active => sound_iff_aligned, ?_⟩
  intro start first p calls last hfirst hrun
  have hbounded := hrun.invariant (P := fun _ p => Bounded uplinks p) (Bounded.first hfirst)
    fun _ _ _ _ h hallowed hselect => h.next hallowed hselect
  exact hbounded.1

def healthyView (successes : Nat) (cooldownUntil : Option Nat) : TransportView :=
  ⟨some true, cooldownUntil, successes, none, none, none, none, false, none⟩

/-- A call with the streaks and the scores of the uplinks, those of `cooling` on cooldown. -/
def measured (streaks scores cooling : List Nat) : Selecting where
  transport := .tcp
  failedActive := none
  now := 100
  readings i :=
    let view := healthyView (streaks.getD i 0) (if i ∈ cooling then some 200 else none)
    ⟨true, view, view, scores[i]?, scores[i]?⟩

def failbackConfig : SelectionConfig := ⟨.global, true, true, 3, false, 60, none, 0, none⟩

def weighing (weights : List Nat) : List (UplinkConfig Nat) := weights.map fun weight => ⟨weight, false, true, true⟩

def candidateOf (call : Selecting) (weight i : Nat) : CandidateState Nat :=
  ⟨i, ⟨weight, false, true, true⟩, true, call.readings i⟩

def slowFirst : Selecting := measured [3, 3, 3] [30, 20, 10] []

def fastSecond : Selecting := measured [3, 3, 3] [30, 10, 20] []

def freshSecond : Selecting := measured [3, 0, 3] [30, 10, 20] []

def coolingFirst : Selecting := measured [3, 3, 3] [10, 20, 30] [0, 1]

/-- The first uplink has the highest weight and is stable: the call goes back to it from the last one, and stays. -/
theorem auto_failback_iff_aligned_back :
    Sound failbackConfig (weighing [3, 2, 1]) slowFirst (candidateOf slowFirst 1 2) ∧
      ∃ p last, select failbackConfig (weighing [3, 2, 1]) ⟨none, 0⟩ slowFirst = some p ∧
        Run (select failbackConfig (weighing [3, 2, 1])) (HealthyAndAligned failbackConfig (weighing [3, 2, 1])) p
          [slowFirst, fastSecond] last ∧ last.active = some 0 ∧ last.switches ≤ 3 := by
  have hmain := auto_failback_iff_aligned failbackConfig (weighing [3, 2, 1])
  have hat : AtFailback failbackConfig (weighing [3, 2, 1]) slowFirst (candidateOf slowFirst 1 2) :=
    ⟨rfl, by decide, rfl, by decide, rfl, rfl⟩
  have hslow : HealthyAndAligned failbackConfig (weighing [3, 2, 1]) ⟨some 0, 1⟩ slowFirst :=
    ⟨candidateOf slowFirst 3 0, rfl, ⟨rfl, by decide, rfl, by decide, rfl, rfl⟩, by unfold Aligned Ready Proven; decide⟩
  have hfast : HealthyAndAligned failbackConfig (weighing [3, 2, 1]) ⟨some 0, 1⟩ fastSecond :=
    ⟨candidateOf fastSecond 3 0, rfl, ⟨rfl, by decide, rfl, by decide, rfl, rfl⟩,
      by unfold Aligned Ready Proven; decide⟩
  have hrun : Run (select failbackConfig (weighing [3, 2, 1])) (HealthyAndAligned failbackConfig (weighing [3, 2, 1]))
      ⟨some 0, 1⟩ ([] ++ [slowFirst] ++ [fastSecond]) ⟨some 0, 1⟩ :=
    (Run.refl.snoc hslow rfl).snoc hfast rfl
  refine ⟨(hmain.1 _ _ hat).mpr ?_, ⟨some 0, 1⟩, ⟨some 0, 1⟩, rfl, hrun, rfl, hmain.2 none slowFirst _ _ _ rfl hrun⟩
  unfold Aligned Ready Proven
  decide

/-- The fastest of the candidates is made active instead: one of the same weight behind the active uplink, one that has
not been up for long, one of lower weight where the others are on cooldown; and the active uplink changes four times
among three uplinks whose health and weights stay as they are. -/
theorem failback_takes_the_fastest :
    (AtFailback failbackConfig (weighing [1, 1, 1]) slowFirst (candidateOf slowFirst 1 1) ∧
      (strictTransportCandidates failbackConfig (weighing [1, 1, 1]) slowFirst (some 1) true).committed =
        some (2, .autoFailback)) ∧
    (AtFailback failbackConfig (weighing [1, 1, 1]) freshSecond (candidateOf freshSecond 1 2) ∧
      (strictTransportCandidates failbackConfig (weighing [1, 1, 1]) freshSecond (some 2) true).committed =
        some (1, .autoFailback)) ∧ (AtFailback failbackConfig (weighing [3, 2, 1]) coolingFirst
        { candidateOf coolingFirst 2 1 with healthy := false } ∧
      (strictTransportCandidates failbackConfig (weighing [3, 2, 1]) coolingFirst (some 1) true).committed =
        some (2, .autoFailback)) ∧
    ∃ last, Run (select failbackConfig (weighing [1, 1, 1])) (fun _ _ => True) ⟨some 1, 0⟩
        [slowFirst, fastSecond, slowFirst, fastSecond] last ∧ last.switches = 4 := by
  refine ⟨⟨⟨rfl, by decide, rfl, by decide, rfl, rfl⟩, rfl⟩, ⟨⟨rfl, by decide, rfl, by decide, rfl, rfl⟩, rfl⟩,
    ⟨⟨rfl, by decide, rfl, by decide, rfl, rfl⟩, rfl⟩, _, run_of_foldlM rfl, rfl⟩

end Repeated

end OutlineProxy.Uplink
