import OutlineProxy.Tcp.Engine
import OutlineProxy.Tcp.Scheduler

/-! No live flow falls off the maintenance heap, whatever the tasks of the engine do in between. -/

namespace OutlineProxy.Tcp

open Deadlines Function

variable {Key : Type} {tcp : TunTcpConfig} {sys next : Scheduling Key} {label : SchedulingStep Key} {flow : Flow Key}
  {key k : Key} {id x : FlowId} {d : Instant}

namespace Scheduling

section Steps

variable [LinearOrder Key]

inductive Stepped (tcp : TunTcpConfig) (sys : Scheduling Key) : SchedulingStep Key → Scheduling Key → Prop
  | create {key : Key} {id : FlowId} {state : TcpFlowState} : sys.flows id = none →
      state.nextScheduledDeadline = none → Stepped tcp sys (.create key id state)
        { sys.store id ⟨key, state⟩ with table := update sys.table key (some id) }
  | remove (key : Key) :
      Stepped tcp sys (.remove key) { sys with table := update sys.table key none }
  | change {id : FlowId} {flow : Flow Key} {state : TcpFlowState} : sys.flows id = some flow →
      MayBecome flow.state state → Stepped tcp sys (.change id state) (sys.store id { flow with state := state })
  | commit {id : FlowId} {flow : Flow Key} {state : TcpFlowState} (now : Instant) : sys.flows id = some flow →
      MayBecome flow.state state → Stepped tcp sys (.commit id state now)
        ((sys.store id { flow with state := (rescheduleFlow state tcp now).1 }).schedule flow.key
          (rescheduleFlow state tcp now).2)
  | drain (now : Instant) : sys.due = [] → sys.phase = .picking → Stepped tcp sys (.drain now)
      { sys with heap := (takeDue sys.heap now).2, due := (takeDue sys.heap now).1 }
  | dropped {entry : Entry Instant Key} {rest : List (Entry Instant Key)} : sys.phase = .picking →
      sys.due = entry :: rest → sys.table entry.key = none → Stepped tcp sys .lookup { sys with due := rest }
  | found {entry : Entry Instant Key} {rest : List (Entry Instant Key)} {id : FlowId} :
      sys.phase = .picking → sys.due = entry :: rest → sys.table entry.key = some id →
      Stepped tcp sys .lookup { sys with due := rest, phase := .locking entry id }
  | passed {entry : Entry Instant Key} {id : FlowId} {flow : Flow Key} : sys.phase = .locking entry id →
      sys.flows id = some flow → dueFor entry flow.state = true →
      Stepped tcp sys .lock { sys with phase := .planning id flow.key }
  | skipped {entry : Entry Instant Key} {id : FlowId} {flow : Flow Key} : sys.phase = .locking entry id →
      sys.flows id = some flow → dueFor entry flow.state = false →
      Stepped tcp sys .lock { sys with phase := .picking }
  | ended {id : FlowId} {key : Key} {flow : Flow Key} {now : Instant} {clock : Clock} :
      sys.phase = .planning id key → sys.flows id = some flow → flow.state.status = .closed →
      Stepped tcp sys (.plan now clock)
        { sys.store id { flow with state := { flow.state with nextScheduledDeadline := none } } with
          phase := .picking }
  | waited {id : FlowId} {key : Key} {flow : Flow Key} {now : Instant} {clock : Clock} {planned : PlannedFlow}
      {deadline : Option Instant} : sys.phase = .planning id key → sys.flows id = some flow →
      flow.state.status ≠ .closed → planned = planFlowMaintenance flow.state tcp flow.state.idleTimeout now clock →
      planned.plan = .wait deadline → Stepped tcp sys (.plan now clock)
        { (((sys.store id { flow with state := planned.state }).schedule flow.key planned.pushed).store id
            { flow with state := { planned.state with nextScheduledDeadline := deadline } }).schedule
            flow.key deadline with phase := .picking }
  | gaveUp {id : FlowId} {key : Key} {flow : Flow Key} {now : Instant} {clock : Clock}
      {planned : PlannedFlow} : sys.phase = .planning id key → sys.flows id = some flow →
      flow.state.status ≠ .closed → planned = planFlowMaintenance flow.state tcp flow.state.idleTimeout now clock →
      Stepped tcp sys (.plan now clock)
        { (sys.store id { flow with state := planned.state }).schedule flow.key planned.pushed with
          phase := .closing flow.key }
  | sent {id : FlowId} {key : Key} {flow : Flow Key} {now : Instant} {clock : Clock}
      {planned : PlannedFlow} : sys.phase = .planning id key → sys.flows id = some flow →
      flow.state.status ≠ .closed → planned = planFlowMaintenance flow.state tcp flow.state.idleTimeout now clock →
      Stepped tcp sys (.plan now clock)
        ((sys.store id { flow with state := planned.state }).schedule flow.key planned.pushed)
  | fail {id : FlowId} {key : Key} : sys.phase = .planning id key →
      Stepped tcp sys .fail { sys with phase := .closing key }
  | close {key : Key} : sys.phase = .closing key → Stepped tcp sys .close
      { sys with table := update sys.table key none, phase := .picking }

theorem stepped_planOnce (now : Instant) (clock : Clock)
    (hphase : sys.phase = .planning id key) (hflow : sys.flows id = some flow) :
    Stepped tcp sys (.plan now clock) (planOnce tcp sys id flow now clock) := by
  unfold planOnce
  by_cases hclosed : flow.state.status = .closed
  · rw [if_pos hclosed]
    exact .ended hphase hflow hclosed
  · rw [if_neg hclosed]
    dsimp only
    generalize hplanned : planFlowMaintenance flow.state tcp flow.state.idleTimeout now clock = planned
    cases hplan : planned.plan with
    | wait deadline => exact .waited hphase hflow hclosed hplanned.symm hplan
    | abort reason => exact .gaveUp hphase hflow hclosed hplanned.symm
    | close reason => exact .gaveUp hphase hflow hclosed hplanned.symm
    | sendPacket packet packetMetric event => exact .sent hphase hflow hclosed hplanned.symm
    | sendDataPacket packet packetMetric event => exact .sent hphase hflow hclosed hplanned.symm
    | flushServer flush => exact .sent hphase hflow hclosed hplanned.symm

theorem stepped_of_step (h : sys.step tcp label = some next) : Stepped tcp sys label next := by
  cases label with
  | create key id state =>
    simp only [step] at h
    split at h
    · cases h
    · rename_i hfresh
      rw [not_or, Option.not_isSome_iff_eq_none, Option.not_isSome_iff_eq_none] at hfresh
      cases h
      exact .create hfresh.1 hfresh.2
  | remove key =>
    cases h
    exact .remove key
  | change id state =>
    obtain ⟨flow, hflow, h⟩ := Option.bind_eq_some_iff.1 h
    split at h
    · cases h
      exact .change hflow ‹_›
    · cases h
  | commit id state now =>
    obtain ⟨flow, hflow, h⟩ := Option.bind_eq_some_iff.1 h
    split at h
    · cases h
      exact .commit now hflow ‹_›
    · cases h
  | drain now =>
    simp only [step] at h
    split at h
    · rename_i hready
      cases h
      exact .drain now hready.1 hready.2
    · cases h
  | lookup =>
    simp only [step] at h
    split at h
    · rename_i entry rest hphase hdue
      split at h
      · cases h
        exact .found hphase hdue ‹_›
      · cases h
        exact .dropped hphase hdue ‹_›
    · cases h
  | lock =>
    simp only [step] at h
    split at h
    · obtain ⟨flow, hflow, rfl⟩ := Option.map_eq_some_iff.1 h
      cases hdue : dueFor _ flow.state with
      | true => exact .passed ‹_› hflow hdue
      | false => exact .skipped ‹_› hflow hdue
    · cases h
  | plan now clock =>
    simp only [step] at h
    split at h
    · obtain ⟨flow, hflow, rfl⟩ := Option.map_eq_some_iff.1 h
      exact stepped_planOnce now clock ‹_› hflow
    · cases h
  | fail =>
    simp only [step] at h
    split at h
    · cases h
      exact .fail ‹_›
    · cases h
  | close =>
    simp only [step] at h
    split at h
    · cases h
      exact .close ‹_›
    · cases h

end Steps

def Named (sys : Scheduling Key) (id : FlowId) (key : Key) : Prop :=
  ∃ flow, sys.flows id = some flow ∧ flow.key = key

def Owes (sys : Scheduling Key) (key : Key) (id : FlowId) (d : Instant) : Prop :=
  ∃ flow, sys.table key = some id ∧ sys.flows id = some flow ∧ flow.state.status ≠ .closed ∧
    flow.state.nextScheduledDeadline = some d

/-- The loop is at work on the flow, or has popped an entry that brings it there by `d`. -/
def InHand (sys : Scheduling Key) (key : Key) (id : FlowId) (d : Instant) : Prop :=
  Covers sys.due key d ∨ (∃ entry, sys.phase = .locking entry id ∧ entry.key = key ∧ entry.deadline ≤ d) ∨
    sys.phase = .planning id key ∨ sys.phase = .closing key

section Hand

variable {entry : Entry Instant Key}

section

variable (h : sys.InHand key x d)

include h

theorem InHand.of_picking (hphase : sys.phase = .picking) : Covers sys.due key d := by
  grind [InHand]

theorem InHand.of_locking (hphase : sys.phase = .locking entry id) :
    Covers sys.due key d ∨ id = x ∧ entry.key = key ∧ entry.deadline ≤ d := by
  grind [InHand]

theorem InHand.of_planning (hphase : sys.phase = .planning id k) :
    Covers sys.due key d ∨ id = x ∧ k = key := by
  grind [InHand]

theorem InHand.of_closing (hphase : sys.phase = .closing k) :
    Covers sys.due key d ∨ k = key := by
  grind [InHand]

theorem InHand.later {d' : Instant} (hle : d ≤ d') : sys.InHand key x d' := by
  rcases h with hdue | ⟨entry, hlock, hentry, hdeadline⟩ | hrest
  · exact .inl (hdue.later hle)
  · exact .inr (.inl ⟨entry, hlock, hentry, hdeadline.trans hle⟩)
  · exact .inr (.inr hrest)

end

end Hand

/-- The flow that the loop is at, and its key. -/
def LoopPhase.At : LoopPhase Key → FlowId → Key → Prop
  | .locking entry id, x, key => x = id ∧ key = entry.key
  | .planning id k, x, key => x = id ∧ key = k
  | _, _, _ => False

structure CoverInv (sys : Scheduling Key) : Prop where
  table : ∀ {key id}, sys.table key = some id → sys.Named id key
  loop : ∀ {id key}, LoopPhase.At sys.phase id key → sys.Named id key
  covered : ∀ {key id d}, sys.Owes key id d → Covers sys.heap key d ∨ sys.InHand key id d

theorem CoverInv.planned (h : CoverInv sys) (hphase : sys.phase = .planning id key) :
    sys.Named id key :=
  h.loop (by rw [hphase]; exact ⟨rfl, rfl⟩)

theorem Named.unique {key' : Key} (h : sys.Named id key) (h' : sys.Named id key') :
    key = key' := by
  obtain ⟨flow, hflow, rfl⟩ := h
  obtain ⟨flow', hflow', rfl⟩ := h'
  rw [hflow] at hflow'
  cases hflow'
  rfl

variable {state : TcpFlowState}

theorem Named.store (h : sys.Named x key) (hflow : sys.flows id = some flow)
    (hflows : next.flows = update sys.flows id (some { flow with state := state })) :
    next.Named x key := by
  unfold Named at *
  simp only [hflows, update_apply]
  grind

theorem Owes.of_store (h : next.Owes key x d)
    (htable : next.table = sys.table) (hflows : next.flows = update sys.flows id (some flow)) :
    x ≠ id ∧ sys.Owes key x d ∨ x = id ∧ sys.table key = some id ∧ flow.state.status ≠ .closed ∧
        flow.state.nextScheduledDeadline = some d := by
  unfold Owes at *
  simp only [hflows, htable, update_apply] at h
  grind

theorem CoverInv.store (h : CoverInv sys) (hflow : sys.flows id = some flow)
    (hflows : next.flows = update sys.flows id (some { flow with state := state }))
    (htable : next.table = sys.table) (hheap : sys.heap ⊆ next.heap)
    (hloop : ∀ x key, LoopPhase.At next.phase x key → LoopPhase.At sys.phase x key)
    (hothers : ∀ key x d, x ≠ id → sys.table key = some x → sys.InHand key x d → next.InHand key x d)
    (hself : ∀ d, sys.table flow.key = some id → state.status ≠ .closed → state.nextScheduledDeadline = some d →
      Covers next.heap flow.key d ∨ next.InHand flow.key id d) : CoverInv next := by
  refine ⟨fun hkey => ?_, fun hat => (h.loop (hloop _ _ hat)).store hflow hflows, fun howes => ?_⟩
  · rw [htable] at hkey
    exact (h.table hkey).store hflow hflows
  · rcases howes.of_store htable hflows with ⟨hx, howes⟩ | ⟨rfl, hkey, hopen, hnext⟩
    · have hkey : sys.table _ = some _ := howes.choose_spec.1
      exact (h.covered howes).imp (fun hcovers => hcovers.subset hheap) (hothers _ _ _ hx hkey)
    · obtain rfl := (h.table hkey).unique ⟨flow, hflow, rfl⟩
      exact hself _ hkey hopen hnext

end Scheduling

theorem nextFlowDeadline_isSome (state : TcpFlowState) (tcp : TunTcpConfig) (idleTimeout : Duration)
    (now : Instant) : ∃ d, nextFlowDeadline state tcp idleTimeout now = some d := by
  have hright : ∀ x : Option Instant, ∀ d, ∃ c, earlier x (some d) = some c := by
    intro x d
    cases x with
    | none => exact ⟨d, rfl⟩
    | some c => exact ⟨min c d, rfl⟩
  unfold nextFlowDeadline
  dsimp only
  split
  · exact hright _ _
  · exact hright _ _

theorem rescheduleFlow_next {now d : Instant}
    (h : (rescheduleFlow state tcp now).1.nextScheduledDeadline = some d) :
    state.status ≠ .closed ∧ ((rescheduleFlow state tcp now).2 = some d ∨
      ∃ before, state.nextScheduledDeadline = some before ∧ before ≤ d) := by
  obtain ⟨deadline, hdeadline⟩ := nextFlowDeadline_isSome state tcp state.idleTimeout now
  unfold rescheduleFlow at h ⊢
  by_cases hclosed : state.status = .closed
  · rw [if_pos hclosed] at h
    cases h
  · rw [if_neg hclosed, hdeadline] at h ⊢
    cases h
    refine ⟨hclosed, ?_⟩
    cases hbefore : state.nextScheduledDeadline with
    | none => exact .inl rfl
    | some before => grind

namespace Scheduling

theorem heap_subset_schedule (sys : Scheduling Key) (key : Key) (deadline : Option Instant) :
    sys.heap ⊆ (sys.schedule key deadline).heap := by
  cases deadline with
  | none => exact List.Subset.refl _
  | some d => exact List.subset_cons_self _ _

theorem covers_schedule (sys : Scheduling Key) (key : Key) (d : Instant) :
    Covers (sys.schedule key (some d)).heap key d :=
  covers_cons_self ⟨d, key⟩ sys.heap

variable {phase : LoopPhase Key}

@[simp] theorem schedule_eq (sys : Scheduling Key) (key : Key) (deadline : Option Instant) :
    (sys.schedule key deadline).table = sys.table ∧ (sys.schedule key deadline).flows = sys.flows ∧
      (sys.schedule key deadline).due = sys.due ∧ (sys.schedule key deadline).phase = sys.phase := by
  cases deadline <;> exact ⟨rfl, rfl, rfl, rfl⟩

@[simp] theorem store_eq (sys : Scheduling Key) (id : FlowId) (flow : Flow Key) :
    (sys.store id flow).table = sys.table ∧ (sys.store id flow).flows = update sys.flows id (some flow) ∧
      (sys.store id flow).heap = sys.heap ∧ (sys.store id flow).due = sys.due ∧ (sys.store id flow).phase = sys.phase :=
  ⟨rfl, rfl, rfl, rfl, rfl⟩

theorem CoverInv.cut [LinearOrder Key] (h : CoverInv sys)
    (hphase : phase = sys.phase ∨ phase = .picking ∧ sys.phase = .closing key) :
    CoverInv { sys with table := update sys.table key none, phase := phase } := by
  have hnamed : ∀ id k, sys.Named id k →
      Named { sys with table := update sys.table key none, phase := phase } id k :=
    fun _ _ hnamed => hnamed
  have htable : ∀ {k id}, update sys.table key none k = some id → k ≠ key ∧ sys.table k = some id := by grind
  refine ⟨fun hk => hnamed _ _ (h.table (htable hk).2), fun hat => ?_, ?_⟩
  · rcases hphase with rfl | ⟨rfl, -⟩
    · exact hnamed _ _ (h.loop hat)
    · cases hat
  · rintro k id d ⟨flow, hk, howed⟩
    obtain ⟨hne, hk⟩ := htable hk
    rcases h.covered ⟨flow, hk, howed⟩ with hcovers | hhand
    · exact .inl hcovers
    · refine .inr ?_
      rcases hphase with rfl | ⟨rfl, hclosing⟩
      · exact hhand
      · rcases hhand.of_closing hclosing with hdue | hsame
        · exact .inl hdue
        · exact absurd hsame.symm hne

theorem CoverInv.move {heap due : List (Entry Instant Key)} (h : CoverInv sys)
    (hloop : ∀ id key, LoopPhase.At phase id key → sys.Named id key)
    (hcovered : ∀ key id d, sys.Owes key id d → Covers sys.heap key d ∨ sys.InHand key id d →
      Covers heap key d ∨ InHand { sys with heap := heap, due := due, phase := phase } key id d) :
    CoverInv { sys with heap := heap, due := due, phase := phase } :=
  ⟨h.table, hloop _ _, fun howes => hcovered _ _ _ howes (h.covered howes)⟩

theorem CoverInv.handOn {due : List (Entry Instant Key)} (h : CoverInv sys)
    (hloop : ∀ id key, LoopPhase.At phase id key → sys.Named id key)
    (hhand : ∀ key id d, sys.Owes key id d → sys.InHand key id d →
      InHand { sys with due := due, phase := phase } key id d) :
    CoverInv { sys with due := due, phase := phase } :=
  h.move hloop fun key id d howes => Or.imp_right (hhand key id d howes)

theorem owes_of_mayBecome (hflow : sys.flows id = some flow) (hmay : MayBecome flow.state state)
    (hkey : sys.table flow.key = some id) (hopen : state.status ≠ .closed)
    (hnext : state.nextScheduledDeadline = some d) : sys.Owes flow.key id d :=
  ⟨flow, hkey, hflow, fun hclosed => hopen (hmay.2 hclosed), hmay.1 ▸ hnext⟩

theorem CoverInv.initial : CoverInv (Scheduling.initial : Scheduling Key) := by
  refine ⟨fun hkey => ?_, fun hat => ?_, ?_⟩
  · cases hkey
  · cases hat
  · rintro key id d ⟨flow, hkey, -⟩
    cases hkey

theorem CoverInv.replan (h : CoverInv sys) (hphase : sys.phase = .planning id k) (hflow : sys.flows id = some flow)
    (hflows : next.flows = update sys.flows id (some { flow with state := state }))
    (htable : next.table = sys.table) (hdue : next.due = sys.due) (hheap : sys.heap ⊆ next.heap)
    (hnext : next.phase = sys.phase ∨ next.phase = .closing flow.key ∨
      next.phase = .picking ∧ ∀ d, state.nextScheduledDeadline = some d → Covers next.heap flow.key d) :
    CoverInv next := by
  refine h.store hflow hflows htable hheap (fun _ _ hat => ?_) (fun key x d hx _ hhand => ?_)
    fun d hkey hopen hdeadline => ?_
  · rcases hnext with hsame | hclosing | ⟨hpicking, -⟩
    · exact hsame ▸ hat
    · rw [hclosing] at hat
      cases hat
    · rw [hpicking] at hat
      cases hat
  · rcases hhand.of_planning hphase with hcovers | ⟨rfl, -⟩
    · exact .inl (hdue ▸ hcovers)
    · exact absurd rfl hx
  · obtain rfl := (h.planned hphase).unique ⟨flow, hflow, rfl⟩
    rcases hnext with hsame | hclosing | ⟨-, hcovers⟩
    · exact .inr (.inr (.inr (.inl (hsame.trans hphase))))
    · exact .inr (.inr (.inr (.inr hclosing)))
    · exact .inl (hcovers d hdeadline)

theorem CoverInv.commit {now : Instant} (h : CoverInv sys)
    (hflow : sys.flows id = some flow) (hmay : MayBecome flow.state state) :
    CoverInv ((sys.store id { flow with state := (rescheduleFlow state tcp now).1 }).schedule flow.key
      (rescheduleFlow state tcp now).2) := by
  have hheap := heap_subset_schedule (sys.store id { flow with state := (rescheduleFlow state tcp now).1 }) flow.key
    (rescheduleFlow state tcp now).2
  have hhand : ∀ key x d, sys.InHand key x d → InHand
      ((sys.store id { flow with state := (rescheduleFlow state tcp now).1 }).schedule flow.key
        (rescheduleFlow state tcp now).2) key x d := by
    simp [InHand]
  refine h.store hflow (by simp; rfl) (by simp) hheap (by simp)
    (fun key x d _ _ => hhand key x d) fun d hkey hopen hnext => ?_
  obtain ⟨hlive, hpushed | ⟨before, hbefore, hle⟩⟩ := rescheduleFlow_next hnext
  · rw [hpushed]
    exact .inl (covers_schedule _ flow.key d)
  · -- a deadline that moved later is covered by what covered the earlier one
    rcases h.covered (owes_of_mayBecome hflow hmay hkey hlive hbefore) with hcovers | hhad
    · exact .inl ((hcovers.later hle).subset hheap)
    · exact .inr (hhand _ _ _ (hhad.later hle))

section Runs

variable [LinearOrder Key]

theorem CoverInv.create (h : CoverInv sys)
    (hfresh : sys.flows id = none) (hnext : state.nextScheduledDeadline = none) :
    CoverInv { sys.store id ⟨key, state⟩ with table := update sys.table key (some id) } := by
  have hnamed : ∀ x k, sys.Named x k → x ≠ id ∧
      Named { sys.store id ⟨key, state⟩ with table := update sys.table key (some id) } x k := by
    rintro x k ⟨flow, hflow, hkey⟩
    have hx : x ≠ id := by
      rintro rfl
      rw [hfresh] at hflow
      cases hflow
    exact ⟨hx, flow, (update_of_ne hx _ _).trans hflow, hkey⟩
  refine ⟨fun {k x} hk => ?_, fun hat => (hnamed _ _ (h.loop hat)).2, ?_⟩
  · by_cases hsame : k = key
    · subst hsame
      obtain rfl : id = x := by simpa using hk
      exact ⟨⟨k, state⟩, update_self .., rfl⟩
    · exact (hnamed _ _ (h.table ((update_of_ne hsame _ _).symm.trans hk))).2
  · rintro k x d ⟨flow, hk, hflow, hopen, hdeadline⟩
    by_cases hsame : k = key
    · subst hsame
      obtain rfl : id = x := by simpa using hk
      obtain rfl : (⟨k, state⟩ : Flow Key) = flow := by simpa [Scheduling.store] using hflow
      rw [hnext] at hdeadline
      cases hdeadline
    · have hk' : sys.table k = some x := (update_of_ne hsame _ _).symm.trans hk
      have hx := (hnamed _ _ (h.table hk')).1
      exact h.covered ⟨flow, hk', (update_of_ne hx _ _).symm.trans hflow, hopen, hdeadline⟩

theorem CoverInv.step (h : CoverInv sys) (hstep : Stepped tcp sys label next) : CoverInv next := by
  cases hstep with
  | create hfresh hnext => exact h.create hfresh hnext
  | remove key => exact h.cut (.inl rfl)
  | @change id flow state hflow hmay =>
    refine h.store hflow rfl rfl (List.Subset.refl _) (fun _ _ hat => hat)
      (fun _ _ _ _ _ hhand => hhand) fun d hkey hopen hnext => ?_
    exact h.covered (owes_of_mayBecome hflow hmay hkey hopen hnext)
  | commit now hflow hmay => exact h.commit hflow hmay
  | drain now hdue hphase =>
    refine h.move (fun _ _ => h.loop) fun key id d _ hbefore => ?_
    have hperm := takeDue_perm sys.heap now
    rcases hbefore with hcovers | hcovers | hrest
    · obtain ⟨entry, hentry, hcovers⟩ := hcovers.subset hperm.symm.subset
      rcases List.mem_append.1 hentry with hheap | hpopped
      · exact .inl ⟨entry, hheap, hcovers⟩
      · exact .inr (.inl ⟨entry, hpopped, hcovers⟩)
    · rw [hdue] at hcovers
      obtain ⟨entry, hentry, -⟩ := hcovers
      cases hentry
    · exact .inr (.inr hrest)
  | @dropped entry rest hphase hdue hgone =>
    refine h.handOn (fun _ _ => h.loop) fun key id d howes hhand => ?_
    rcases hhand with hcovers | hrest
    · rw [hdue] at hcovers
      rcases hcovers.of_cons with hcovers | ⟨rfl, -⟩
      · exact .inl hcovers
      · rw [howes.choose_spec.1] at hgone
        cases hgone
    · exact .inr hrest
  | @found entry rest id hphase hdue hfound =>
    refine h.handOn (fun _ _ hat => ?_) fun key x d howes hhand => ?_
    · obtain ⟨rfl, rfl⟩ := hat
      exact h.table hfound
    · have hcovers := hhand.of_picking hphase
      rw [hdue] at hcovers
      rcases hcovers.of_cons with hcovers | ⟨rfl, hle⟩
      · exact .inl hcovers
      · have hsame : some id = some x := hfound.symm.trans howes.choose_spec.1
        cases hsame
        exact .inr (.inl ⟨entry, rfl, rfl, hle⟩)
  | @passed entry id flow hphase hflow hdue =>
    refine h.handOn (fun _ _ hat => ?_) fun key x d howes hhand => ?_
    · obtain ⟨rfl, rfl⟩ := hat
      exact ⟨flow, hflow, rfl⟩
    · rcases hhand.of_locking hphase with hcovers | ⟨rfl, -⟩
      · exact .inl hcovers
      · obtain rfl := (h.table howes.choose_spec.1).unique ⟨flow, hflow, rfl⟩
        exact .inr (.inr (.inl rfl))
  | @skipped entry id flow hphase hflow hdue =>
    refine h.handOn (fun _ _ hat => ?_) fun key x d howes hhand => ?_
    · cases hat
    · rcases hhand.of_locking hphase with hcovers | ⟨rfl, -, hle⟩
      · exact .inl hcovers
      · -- an entry that is skipped comes up after the deadline
        obtain ⟨owing, -, howing, -, hnext⟩ := howes
        rw [hflow] at howing
        cases howing
        rw [dueFor, hnext] at hdue
        simp only [Option.any_some, decide_eq_false_iff_not] at hdue
        exact absurd hle hdue
  | @fail id k hphase =>
    refine h.handOn (fun _ _ hat => ?_) fun key x d _ hhand => ?_
    · cases hat
    · rcases hhand.of_planning hphase with hcovers | ⟨-, rfl⟩
      · exact .inl hcovers
      · exact .inr (.inr (.inr rfl))
  | close hphase => exact h.cut (.inr ⟨rfl, hphase⟩)
  | ended hphase hflow hclosed =>
    refine h.replan hphase hflow rfl rfl rfl (List.Subset.refl _) (.inr (.inr ⟨rfl, fun d hnone => ?_⟩))
    cases hnone
  | @waited id k flow now clock planned deadline hphase hflow hclosed hplanned hplan =>
    refine h.replan hphase hflow (by simp; rfl) (by simp) (by simp)
      (List.Subset.trans (heap_subset_schedule (sys.store id { flow with state := planned.state }) ..)
        (heap_subset_schedule (Scheduling.store _ id _) ..)) (.inr (.inr ⟨rfl, fun d hnext => ?_⟩))
    obtain rfl : deadline = some d := hnext
    exact covers_schedule _ flow.key d
  | @gaveUp id k flow now clock planned hphase hflow hclosed hplanned =>
    exact h.replan hphase hflow (by simp; rfl) (by simp) (by simp)
      (heap_subset_schedule (sys.store id { flow with state := planned.state }) ..) (.inr (.inl rfl))
  | @sent id k flow now clock planned hphase hflow hclosed hplanned =>
    exact h.replan hphase hflow (by simp; rfl) (by simp) (by simp)
      (heap_subset_schedule (sys.store id { flow with state := planned.state }) ..) (.inl (by simp))

theorem reaches_run {ok : Scheduling Key → SchedulingStep Key → Prop} {labels : List (SchedulingStep Key)}
    {start : Scheduling Key} (h : start.run tcp labels = some sys) (hok : ∀ label ∈ labels, ∀ before, ok before label) :
    Reaches tcp ok start sys := by
  induction labels generalizing start with
  | nil =>
    cases h
    exact .refl
  | cons label rest ih =>
    obtain ⟨middle, hstep, hrest⟩ := Option.bind_eq_some_iff.1 h
    exact .head ⟨label, hok _ List.mem_cons_self _, hstep⟩ (ih hrest fun label hl => hok label (.tail _ hl))

theorem CoverInv.reaches {ok : Scheduling Key → SchedulingStep Key → Prop} {start : Scheduling Key}
    (h : CoverInv start) (hrun : Reaches tcp ok start sys) : CoverInv sys := by
  induction hrun with
  | refl => exact h
  | tail _ hstep ih =>
    obtain ⟨label, -, hstep⟩ := hstep
    exact ih.step (stepped_of_step hstep)

end Runs

end Scheduling

open Scheduling in
/-- In every state of every interleaving, a flow of the table that is not closed and has a deadline
has an entry on the heap that comes up by then, unless the loop has popped such an entry or is at
work on the flow. -/
theorem live_flow_stays_covered [LinearOrder Key] {flow : Flow Key} {key : Key} {id : FlowId} {d : Instant}
    (hrun : Reaches tcp (fun _ _ => True) Scheduling.initial sys) (hkey : sys.table key = some id)
    (hflow : sys.flows id = some flow) (hopen : flow.state.status ≠ .closed)
    (hdeadline : flow.state.nextScheduledDeadline = some d) (hidle : ¬ sys.InHand key id d) :
    ∃ entry ∈ sys.heap, entry.key = key ∧ entry.deadline ≤ d :=
  ((CoverInv.initial.reaches hrun).covered ⟨flow, hkey, hflow, hopen, hdeadline⟩).resolve_right hidle

/-- A packet of the client at 10 s moves the idle timeout of a new flow on, and the loop comes to the flow when the
first timeout is up. -/
def untilPass : List (SchedulingStep Nat) :=
  let seen : TcpFlowState := { (commitFlowChanges sampleFlow .standard 0).1 with
    timestamps := { sampleFlow.timestamps with lastSeen := secs 10 } }
  [.commit 1 sampleFlow 0, .commit 1 seen (secs 10), .drain (secs 300), .lookup, .lock]

open Scheduling in
theorem live_flow_stays_covered_passed :
    let sys := ((initial : Scheduling Nat).run .standard (.create 7 1 sampleFlow :: untilPass ++
      [.plan (secs 300) (Clock.still (secs 300))])).get (by decide +kernel)
    ∃ entry ∈ sys.heap, entry.key = 7 ∧ entry.deadline ≤ secs 310 := by
  intro sys
  have hidle : ¬ sys.InHand 7 1 (secs 310) := by
    intro hhand
    obtain ⟨entry, hentry, -⟩ := hhand.of_picking (by decide +kernel)
    rw [List.length_eq_zero_iff.1 (by decide +kernel : sys.due.length = 0)] at hentry
    cases hentry
  exact live_flow_stays_covered (reaches_run (Option.eq_some_of_isSome _) fun _ _ _ => trivial) (by decide +kernel)
    (Option.eq_some_of_isSome (by decide +kernel)) (by decide +kernel) (by decide +kernel) hidle

end OutlineProxy.Tcp
