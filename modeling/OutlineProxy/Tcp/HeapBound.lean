import OutlineProxy.Tcp.Coverage
import OutlineProxy.Tcp.Frames

/-! How many entries one flow has on the heap.  A deadline that moves earlier leaves the old entry behind, and
the loop re-arms a flow once for every entry it pops. -/

namespace OutlineProxy.Tcp

open Deadlines Function

section Plan

variable {tcp : TunTcpConfig} (state : TcpFlowState)

theorem scheduled_flushServerOutput (clock : Clock) :
    (flushServerOutput state clock).1.nextScheduledDeadline = state.nextScheduledDeadline := by
  refine flushServerOutput_keeps state clock (f := TcpFlowState.nextScheduledDeadline)
    (fun _ _ => rfl) (fun s clock => ?_) (fun s now => ?_)
  · obtain ⟨_, _, _, _, _, _, _, _, hfin⟩ := maybeEmitServerFin_eq s clock
    rw [hfin]
  · obtain ⟨_, _, hprobe⟩ := maybeEmitZeroWindowProbe_eq s now
    rw [hprobe]

theorem scheduled_retransmitDueSegment (clock : Clock) :
    (retransmitDueSegment state clock).1.nextScheduledDeadline = state.nextScheduledDeadline := by
  unfold retransmitDueSegment
  split
  · rfl
  · unfold resendSegment
    split <;> rfl

theorem scheduled_noteCongestionEvent (timeout : Bool) :
    (noteCongestionEvent state timeout).nextScheduledDeadline = state.nextScheduledDeadline := by
  unfold noteCongestionEvent
  split <;> rfl

theorem scheduled_maybeEmitKeepaliveProbe (idle : Option Duration) (interval : Duration) (now : Instant) :
    (maybeEmitKeepaliveProbe state idle interval now).1.nextScheduledDeadline = state.nextScheduledDeadline := by
  unfold maybeEmitKeepaliveProbe
  split
  · rfl
  · split <;> rfl

def PlanShape (tcp : TunTcpConfig) (deadline : Option Instant) (planned : PlannedFlow) : Prop :=
  (∃ state at_ plan, planned = committed state tcp at_ plan ∧ state.nextScheduledDeadline = deadline) ∨
    planned.pushed = none ∧ planned.state.nextScheduledDeadline = deadline

theorem planProbes_shape (tcp : TunTcpConfig) (idleTimeout : Duration) (now : Instant)
    (clock : Clock) : PlanShape tcp state.nextScheduledDeadline (planProbes state tcp idleTimeout now clock) := by
  unfold planProbes
  split
  · exact .inl ⟨_, _, _, rfl, scheduled_flushServerOutput state clock⟩
  · have hprobe : ∀ due : Bool, (if due then maybeEmitZeroWindowProbe state (clock.reading 0)
        else (state, none)).1.nextScheduledDeadline = state.nextScheduledDeadline := by
      intro due
      cases due
      · rfl
      · obtain ⟨_, _, heq⟩ := maybeEmitZeroWindowProbe_eq state (clock.reading 0)
        rw [if_pos rfl, heq]
    specialize hprobe (zeroWindowProbeIsDue state now)
    generalize (if zeroWindowProbeIsDue state now = true then
      maybeEmitZeroWindowProbe state (clock.reading 0) else (state, none)) = probed at hprobe ⊢
    obtain ⟨state', probe⟩ := probed
    dsimp only at hprobe ⊢
    rw [← hprobe]
    split
    · exact .inl ⟨_, _, _, rfl, rfl⟩
    · split
      · exact .inr ⟨rfl, rfl⟩
      · have hkeep : ∀ due : Bool, (if due then maybeEmitKeepaliveProbe state' tcp.keepaliveIdle
            tcp.keepaliveInterval (clock.reading 1) else (state', none)).1.nextScheduledDeadline =
            state'.nextScheduledDeadline := by grind [scheduled_maybeEmitKeepaliveProbe]
        specialize hkeep (keepaliveProbeIsDue state' tcp.keepaliveIdle tcp.keepaliveInterval now)
        generalize (if keepaliveProbeIsDue state' tcp.keepaliveIdle tcp.keepaliveInterval now = true then
          maybeEmitKeepaliveProbe state' tcp.keepaliveIdle tcp.keepaliveInterval (clock.reading 1)
          else (state', none)) = kept at hkeep ⊢
        obtain ⟨state'', alive⟩ := kept
        rw [← hkeep]
        split
        · exact .inl ⟨_, _, _, rfl, rfl⟩
        · split
          · exact .inl ⟨_, _, _, rfl, rfl⟩
          · exact .inr ⟨rfl, rfl⟩

theorem planFlowMaintenance_shape (tcp : TunTcpConfig) (idleTimeout : Duration) (now : Instant) (clock : Clock) :
    PlanShape tcp state.nextScheduledDeadline (planFlowMaintenance state tcp idleTimeout now clock) := by
  unfold planFlowMaintenance
  split
  · exact .inr ⟨rfl, rfl⟩
  · split
    · exact .inr ⟨rfl, rfl⟩
    · split
      · exact .inr ⟨rfl, rfl⟩
      · split
        · exact .inr ⟨rfl, rfl⟩
        · have hresent : ∀ due : Bool, (if due then retransmitDueSegment state clock
              else (state, none)).1.nextScheduledDeadline = state.nextScheduledDeadline := by
            grind [scheduled_retransmitDueSegment]
          specialize hresent (retransmitIsDue state now)
          generalize (if retransmitIsDue state now = true then retransmitDueSegment state clock
            else (state, none)) = sent at hresent ⊢
          dsimp only at hresent ⊢
          rw [← hresent]
          split
          · split
            · exact .inr ⟨rfl, scheduled_noteCongestionEvent ..⟩
            · exact .inl ⟨_, _, _, rfl, scheduled_noteCongestionEvent ..⟩
          · exact planProbes_shape ..

end Plan

def NotEarlier (tcp : TunTcpConfig) (state : TcpFlowState) (now : Instant) : Prop :=
  ∀ before ∈ state.nextScheduledDeadline, ∀ d ∈ nextFlowDeadline state tcp state.idleTimeout now, before ≤ d

variable {now : Instant}

theorem rescheduleFlow_notEarlier {tcp : TunTcpConfig} {state : TcpFlowState} (h : NotEarlier tcp state now) :
    ((rescheduleFlow state tcp now).2 = none ∨ state.nextScheduledDeadline = none ∧ state.status ≠ .closed ∧
          ∃ d, (rescheduleFlow state tcp now).2 = some d) ∧
      ((rescheduleFlow state tcp now).1.nextScheduledDeadline = none →
        (rescheduleFlow state tcp now).1.status = .closed) := by
  obtain ⟨d, hd⟩ := nextFlowDeadline_isSome state tcp state.idleTimeout now
  unfold rescheduleFlow
  by_cases hclosed : state.status = .closed
  · rw [if_pos hclosed]
    exact ⟨.inl rfl, fun _ => hclosed⟩
  · rw [if_neg hclosed, hd]
    refine ⟨?_, fun hnone => ?_⟩
    · cases hbefore : state.nextScheduledDeadline with
      | none => exact .inr ⟨rfl, hclosed, d, rfl⟩
      | some before =>
        have hle : before ≤ d := h before hbefore d hd
        simp [not_lt.2 hle]
    · cases hnone

namespace Scheduling

variable {Key : Type} [LinearOrder Key] {tcp : TunTcpConfig} {sys next : Scheduling Key}
  {label : SchedulingStep Key} {key : Key} {id : FlowId}

def claimsOf (sys : Scheduling Key) (key : Key) : Nat :=
  held sys.heap key + held sys.due key +
    match sys.phase with
    | .locking entry _ => if entry.key = key then 1 else 0
    | .planning _ k => if k = key then 1 else 0
    | .picking | .closing _ => 0

/-- The flow `id` is the only one of its key, and has at most one entry; it has none before its first
commit. -/
structure Alone (sys : Scheduling Key) (key : Key) (id : FlowId) : Prop where
  cover : CoverInv sys
  only : ∀ {x flow}, sys.flows x = some flow → flow.key = key → x = id
  count : sys.claimsOf key ≤ 1
  fresh : ∀ {flow}, sys.flows id = some flow → flow.state.nextScheduledDeadline = none →
    flow.state.status ≠ .closed → sys.claimsOf key = 0
  named : sys.Named id key

/-- The steps of a run over the flow of one key, none of which reschedules it to an earlier time. -/
def KeepsDeadline (tcp : TunTcpConfig) (key : Key) (sys : Scheduling Key) : SchedulingStep Key → Prop
  | .create k _ _ => k ≠ key
  | .commit id state now => ∀ flow, sys.flows id = some flow → flow.key = key → NotEarlier tcp state now
  | .plan now clock => ∀ id k flow, sys.phase = .planning id k → sys.flows id = some flow → flow.key = key →
      ∀ state at_ plan, planFlowMaintenance flow.state tcp flow.state.idleTimeout now clock =
        committed state tcp at_ plan → NotEarlier tcp state at_
  | _ => True

theorem held_schedule (sys : Scheduling Key) (key k : Key) (deadline : Option Instant) :
    held (sys.schedule k deadline).heap key = held sys.heap key + if deadline.isSome ∧ k = key then 1 else 0 := by
  cases deadline with
  | none => simp [schedule]
  | some d =>
    rw [schedule, held_cons]
    simp

variable {x : FlowId} {flow : Flow Key} {state : TcpFlowState}

theorem Alone.only_store (h : Alone sys key id) (hflow : sys.flows x = some flow)
    (hflows : next.flows = update sys.flows x (some { flow with state := state })) :
    ∀ {y held}, next.flows y = some held → held.key = key → y = id := by
  intro y held hheld hkey
  rw [hflows] at hheld
  by_cases hy : y = x
  · subst hy
    rw [update_self] at hheld
    cases hheld
    exact h.only hflow hkey
  · rw [update_of_ne hy] at hheld
    exact h.only hheld hkey

theorem claimsOf_store_schedule (sys : Scheduling Key) (key : Key) (x : FlowId) (flow : Flow Key) (k : Key)
    (deadline : Option Instant) : ((sys.store x flow).schedule k deadline).claimsOf key =
      sys.claimsOf key + if deadline.isSome ∧ k = key then 1 else 0 := by
  simp only [claimsOf, held_schedule, schedule_eq, store_eq]
  omega

theorem Alone.move (h : Alone sys key id) (hcover : CoverInv next) (hflows : next.flows = sys.flows)
    (hcount : next.claimsOf key ≤ sys.claimsOf key) : Alone next key id := by
  refine ⟨hcover, fun hflow hkey => ?_, hcount.trans h.count, fun hflow hnone hopen => ?_, ?_⟩
  · exact h.only (hflows ▸ hflow) hkey
  · have hzero := h.fresh (hflows ▸ hflow) hnone hopen
    omega
  · obtain ⟨flow, hflow, hkey⟩ := h.named
    exact ⟨flow, hflows ▸ hflow, hkey⟩

theorem Alone.store (h : Alone sys key id) (hcover : CoverInv next) (hflow : sys.flows x = some flow)
    (hflows : next.flows = update sys.flows x (some { flow with state := state }))
    (hother : flow.key ≠ key → next.claimsOf key ≤ sys.claimsOf key)
    (hself : flow.key = key → next.claimsOf key ≤ 1 ∧
      (state.nextScheduledDeadline = none → state.status ≠ .closed → next.claimsOf key = 0)) :
    Alone next key id := by
  refine ⟨hcover, h.only_store hflow hflows, ?_, fun {held} hheld hnone hopen => ?_, h.named.store hflow hflows⟩
  · by_cases hkey : flow.key = key
    · exact (hself hkey).1
    · exact (hother hkey).trans h.count
  · by_cases hkey : flow.key = key
    · obtain rfl := h.only hflow hkey
      rw [hflows, update_self] at hheld
      cases hheld
      exact (hself hkey).2 hnone hopen
    · have hx : id ≠ x := by
        rintro rfl
        exact hkey (Named.unique ⟨flow, hflow, rfl⟩ h.named)
      rw [hflows, update_of_ne hx] at hheld
      have hzero := h.fresh hheld hnone hopen
      have hle := hother hkey
      omega

variable {k : Key}

theorem Alone.create (h : Alone sys key id) (hk : k ≠ key)
    (hfresh : sys.flows x = none) (hnext : state.nextScheduledDeadline = none) :
    Alone { sys.store x ⟨k, state⟩ with table := update sys.table k (some x) } key id := by
  obtain ⟨flow, hflow, hkey⟩ := h.named
  have hid : id ≠ x := by
    rintro rfl
    rw [hfresh] at hflow
    cases hflow
  refine ⟨h.cover.create hfresh hnext, fun {y held} hheld hsame => ?_, h.count, fun hheld => ?_,
    flow, (update_of_ne hid _ _).trans hflow, hkey⟩
  · by_cases hy : y = x
    · subst hy
      obtain rfl : (⟨k, state⟩ : Flow Key) = held := by simpa [Scheduling.store] using hheld
      exact absurd hsame hk
    · exact h.only ((update_of_ne hy _ _).symm.trans hheld) hsame
  · exact h.fresh ((update_of_ne hid _ _).symm.trans hheld)

theorem Alone.at_work (h : Alone sys key id)
    (hphase : sys.phase = .planning x k) (hflow : sys.flows x = some flow) (hkey : flow.key = key) :
    held sys.heap key + held sys.due key = 0 ∧
      (flow.state.status ≠ .closed → flow.state.nextScheduledDeadline ≠ none) := by
  obtain rfl := h.only hflow hkey
  have hk : k = key := ((h.cover.planned hphase).unique ⟨flow, hflow, rfl⟩).trans hkey
  have hcount := h.count
  have hclaims : sys.claimsOf key = held sys.heap key + held sys.due key + 1 := by
    simp [claimsOf, hphase, hk]
  refine ⟨by omega, fun hopen hnone => ?_⟩
  have hzero := h.fresh hflow hnone hopen
  omega

theorem Alone.plan {clock : Clock} (h : Alone sys key id) (hok : KeepsDeadline tcp key sys (.plan now clock))
    (hphase : sys.phase = .planning x k) (hflow : sys.flows x = some flow) (hkey : flow.key = key)
    (hopen : flow.state.status ≠ .closed) {planned : PlannedFlow}
    (hplanned : planned = planFlowMaintenance flow.state tcp flow.state.idleTimeout now clock) :
    planned.pushed = none ∧ (planned.state.nextScheduledDeadline = none → planned.state.status = .closed) := by
  have hsome := (h.at_work hphase hflow hkey).2 hopen
  have hshape := planFlowMaintenance_shape flow.state tcp flow.state.idleTimeout now clock
  rw [← hplanned] at hshape
  rcases hshape with ⟨state, at_, plan, heq, hnext⟩ | ⟨hpushed, hnext⟩
  · have hlater := hok x k flow hphase hflow hkey state at_ plan (hplanned.symm.trans heq)
    obtain ⟨hpush, hclosed⟩ := rescheduleFlow_notEarlier hlater
    rw [heq]
    refine ⟨hpush.resolve_right fun hfirst => ?_, hclosed⟩
    exact hsome (hnext.symm.trans hfirst.1)
  · exact ⟨hpushed, fun hnone => absurd (hnext.symm.trans hnone) hsome⟩

theorem claimsOf_le (sys : Scheduling Key) (key : Key) : held sys.heap key + held sys.due key ≤ sys.claimsOf key :=
  Nat.le_add_right _ _

theorem Alone.letGo {clock : Clock} {planned : PlannedFlow}
    {deadline : Option Instant} (h : Alone sys key id) (hcover : CoverInv next)
    (hok : KeepsDeadline tcp key sys (.plan now clock)) (hphase : sys.phase = .planning x k)
    (hflow : sys.flows x = some flow) (hopen : flow.state.status ≠ .closed)
    (hplanned : planned = planFlowMaintenance flow.state tcp flow.state.idleTimeout now clock)
    (hflows : next.flows = update sys.flows x (some { flow with state := state }))
    (hclaims : next.claimsOf key = held sys.heap key + (if planned.pushed.isSome ∧ flow.key = key then 1 else 0) +
      held sys.due key + if deadline.isSome ∧ flow.key = key then 1 else 0)
    (hnext : state.nextScheduledDeadline = none → deadline = none) : Alone next key id := by
  have hle := sys.claimsOf_le key
  refine h.store hcover hflow hflows (fun hkey => hclaims.trans_le ?_) fun hkey => ?_
  · simp only [hkey, and_false, if_false]
    omega
  · obtain ⟨hpushed, -⟩ := h.plan hok hphase hflow hkey hopen hplanned
    obtain ⟨hzero, -⟩ := h.at_work hphase hflow hkey
    rw [hpushed] at hclaims
    simp only [Option.isSome_none, Bool.false_eq_true, false_and, if_false] at hclaims
    refine ⟨hclaims.trans_le ?_, fun hnone _ => hclaims.trans ?_⟩
    · split <;> omega
    · grind [Option.isSome_none, Bool.false_eq_true]

theorem Alone.step (h : Alone sys key id) (hok : KeepsDeadline tcp key sys label)
    (hstep : Stepped tcp sys label next) : Alone next key id := by
  have hcover := h.cover.step hstep
  cases hstep with
  | create hfresh hnext => exact h.create hok hfresh hnext
  | remove k => exact h.move hcover rfl le_rfl
  | @change x flow state hflow hmay =>
    refine h.store hcover hflow rfl (fun _ => le_rfl) fun hkey => ⟨h.count, fun hnone hopen => ?_⟩
    obtain rfl := h.only hflow hkey
    exact h.fresh hflow (hmay.1 ▸ hnone) fun hclosed => hopen (hmay.2 hclosed)
  | @commit x flow state now hflow hmay =>
    refine h.store hcover hflow (by simp; rfl) (fun hkey => ?_) fun hkey => ?_
    · rw [claimsOf_store_schedule, if_neg fun hboth => hkey hboth.2]
      exact le_rfl
    · obtain rfl := h.only hflow hkey
      obtain ⟨hpush, hclosed⟩ := rescheduleFlow_notEarlier (hok flow hflow hkey)
      refine ⟨?_, fun hnone hopen => absurd (hclosed hnone) hopen⟩
      rw [claimsOf_store_schedule]
      rcases hpush with hnone | ⟨hfirst, hopen, d, hd⟩
      · rw [hnone]
        simpa using h.count
      · -- the first commit pushes the only entry
        have hzero := h.fresh hflow (hmay.1 ▸ hfirst) fun hclosed => hopen (hmay.2 hclosed)
        split <;> omega
  | drain now hdue hphase =>
    refine h.move hcover rfl ?_
    have hperm := held_perm key (takeDue_perm sys.heap now)
    rw [held_append] at hperm
    simp only [claimsOf, hdue, hphase, held_nil]
    omega
  | dropped hphase hdue | found hphase hdue =>
    refine h.move hcover rfl ?_
    simp only [claimsOf, hdue, hphase, held_cons]
    omega
  | @passed entry x flow hphase hflow hdue =>
    refine h.move hcover rfl ?_
    have hnamed : sys.Named x entry.key := h.cover.loop (by rw [hphase]; exact ⟨rfl, rfl⟩)
    have hkey := hnamed.unique ⟨flow, hflow, rfl⟩
    simp only [claimsOf, hphase, hkey]
    exact le_rfl
  | skipped | fail | close => exact h.move hcover rfl (sys.claimsOf_le key)
  | @ended x k flow now clock hphase hflow hclosed =>
    have hle :
        claimsOf { sys.store x { flow with state := flow.state } with phase := .picking } key ≤ sys.claimsOf key :=
      sys.claimsOf_le key
    exact h.store hcover hflow rfl (fun _ => hle) fun _ => ⟨hle.trans h.count, fun _ hopen => absurd hclosed hopen⟩
  | @waited x k flow now clock planned deadline hphase hflow hopen hplanned hplan =>
    refine h.letGo hcover hok hphase hflow hopen hplanned (by simp; rfl) ?_ fun hnone => hnone
    simp [claimsOf, held_schedule]
    omega
  | @gaveUp x k flow now clock planned hphase hflow hopen hplanned =>
    refine h.letGo hcover hok hphase hflow hopen hplanned (by simp; rfl) ?_ fun _ => rfl
    simp [claimsOf, held_schedule]
  | @sent x k flow now clock planned hphase hflow hopen hplanned =>
    refine h.store hcover hflow (by simp; rfl) (fun hkey => ?_) fun hkey => ?_
    · rw [claimsOf_store_schedule, if_neg fun hboth => hkey hboth.2]
      exact le_rfl
    · obtain ⟨hpushed, hclosed⟩ := h.plan hok hphase hflow hkey hopen hplanned
      refine ⟨?_, fun hnone hlive => absurd (hclosed hnone) hlive⟩
      rw [claimsOf_store_schedule, hpushed]
      simpa using h.count

theorem Alone.opened (hcover : CoverInv sys)
    (hfree : ∀ x flow, sys.flows x = some flow → flow.key ≠ key) (hnone : sys.claimsOf key = 0)
    (hstep : sys.step tcp (.create key id state) = some next) : Alone next key id := by
  have hnext := hcover.step (stepped_of_step hstep)
  obtain - | ⟨hfresh, hdeadline⟩ := stepped_of_step hstep
  refine ⟨hnext, fun {x flow} hflow hkey => ?_, hnone.trans_le (Nat.zero_le 1), fun _ _ _ => hnone,
    ⟨_, update_self .., rfl⟩⟩
  by_contra hx
  exact hfree x flow ((update_of_ne hx ..).symm.trans hflow) hkey

theorem Alone.reaches (h : Alone sys key id) (hrun : Reaches tcp (KeepsDeadline tcp key) sys next) :
    Alone next key id := by
  induction hrun with
  | refl => exact h
  | tail _ hlast ih =>
    obtain ⟨label, hok, hstep⟩ := hlast
    exact ih.step hok (stepped_of_step hstep)

/-- In every state of every run over one flow in which no reschedule moves its deadline earlier, the
flow has one entry on the heap at most, however many passes and pushes there were. -/
theorem one_entry_per_flow {before opened : Scheduling Key} {state : TcpFlowState}
    (hbefore : Reaches tcp (fun _ _ => True) Scheduling.initial before)
    (hfree : ∀ x flow, before.flows x = some flow → flow.key ≠ key) (hnone : before.claimsOf key = 0)
    (hopen : before.step tcp (.create key id state) = some opened)
    (hrun : Reaches tcp (KeepsDeadline tcp key) opened sys) : held sys.heap key ≤ 1 := by
  have hopened := Alone.opened (CoverInv.initial.reaches hbefore) hfree hnone hopen
  have hclaims := (hopened.reaches hrun).count
  have hheap := sys.claimsOf_le key
  omega

theorem notEarlier_of_silent {tcp : TunTcpConfig} {state : TcpFlowState} {now : Instant}
    (hpushed : (rescheduleFlow state tcp now).2 = none) (hopen : (rescheduleFlow state tcp now).1.status ≠ .closed) :
    NotEarlier tcp state now := by
  intro before hbefore d hd
  rw [Option.mem_def] at hbefore hd
  grind [rescheduleFlow]

/-- The pass finds the timeout moved on and waits for the later one. -/
theorem one_entry_per_flow_passed :
    let opened := ((initial : Scheduling Nat).step .standard (.create 7 1 sampleFlow)).get (by decide +kernel)
    let locked := (opened.run .standard untilPass).get (by decide +kernel)
    let sys := (locked.step .standard (.plan (secs 300) (Clock.still (secs 300)))).get (by decide +kernel)
    sys.phase = .picking ∧ held sys.heap 7 ≤ 1 := by
  intro opened locked sys
  have hcommits : ∀ label ∈ untilPass, ∀ before, KeepsDeadline .standard 7 before label := by
    refine List.forall_mem_cons.2 ⟨fun _ _ _ _ _ h => (nomatch h),
      List.forall_mem_cons.2 ⟨?_, by simp [KeepsDeadline]⟩⟩
    exact fun _ _ _ _ => notEarlier_of_silent (by decide +kernel) (by decide +kernel)
  have hpass : KeepsDeadline .standard 7 locked (.plan (secs 300) (Clock.still (secs 300))) := by
    intro id k flow hphase hflow _ state at_ plan hplan
    cases hphase.symm.trans (by decide +kernel : locked.phase = .planning 1 7)
    have hplanned : (locked.flows 1).all fun flow =>
        let planned := planFlowMaintenance flow.state .standard flow.state.idleTimeout (secs 300)
          (Clock.still (secs 300))
        planned.pushed = none ∧ planned.state.status ≠ .closed := by decide +kernel
    rw [hflow] at hplanned
    simp only [Option.all_some, hplan, decide_eq_true_eq] at hplanned
    exact notEarlier_of_silent hplanned.1 hplanned.2
  exact ⟨by decide +kernel, one_entry_per_flow .refl (fun _ _ h => by cases h) rfl (Option.eq_some_of_isSome _)
    ((reaches_run (Option.eq_some_of_isSome _) hcommits).tail ⟨_, hpass, Option.eq_some_of_isSome _⟩)⟩

/-- A delayed acknowledgement brings the deadline of the flow forward to `at_`, and the loop makes its
pass over the flow then. -/
def earlierRound (state : TcpFlowState) (at_ : Instant) : List (SchedulingStep Nat) :=
  [.commit 1 { state with delayedAckDeadline := some at_ } (at_ - 1), .drain at_, .lookup, .lock,
    .plan at_ (Clock.still at_), .plan at_ (Clock.still at_)]

/-- The entries of flow 1 after `rounds` of such passes, the last of which left nothing to do. -/
def entriesAfter (rounds : List Instant) : Option (Nat × Nat × LoopPhase Nat) :=
  let opened := (initial : Scheduling Nat).run .standard [.create 7 1 sampleFlow, .commit 1 sampleFlow 0]
  let last := rounds.foldl (fun sys? at_ => sys?.bind fun sys =>
    (sys.flows 1).bind fun flow => sys.run .standard (earlierRound flow.state at_)) opened
  last.map fun sys => (held sys.heap 7, sys.due.length, sys.phase)

/-- Every such pass leaves one entry more, and no push follows the pass. -/
theorem stale_entries_pile_up :
    entriesAfter [secs 1] = some (2, 0, .picking) ∧ entriesAfter [secs 1, secs 2] = some (3, 0, .picking) ∧
      entriesAfter [secs 1, secs 2, secs 3] = some (4, 0, .picking) := by
  decide +kernel

end Scheduling

end OutlineProxy.Tcp
