import OutlineProxy.Server.OrphanRegistry

/-! Runs of the registry: what was parked, what was handed out, and what a park evicts. -/

namespace OutlineProxy.Server.Orphans

open Runs Tables OrphanRegistry

/-- A registry with the order in which its ids were parked, all payloads ever parked and those handed out. -/
structure Tracked (Id User Payload : Type) where
  registry : OrphanRegistry Id User Payload
  parks : Nat
  parkedAt : Id → Nat
  ever : List Payload
  handed : List Payload

/-- A take is one or two looks.  Between them it may wait for a park in flight while other calls run. -/
inductive Event (Id User Payload : Type) where
  | park (now : Nat) (iteration : Iteration Id User Payload) (id : Id) (parked : Parked User Payload)
  | look (now : Nat) (id : Id) (user : User)
  | sweep (now : Nat) (iteration : Iteration Id User Payload)

def ResumeOutcome.payloads {User Payload : Type} : Option (ResumeOutcome User Payload) → List Payload
  | some (.hit parked) => [parked.payload]
  | _ => []

section Steps

variable {Id User Payload : Type} [DecidableEq Id] [DecidableEq User]

def Tracked.new (config : ResumptionConfig) : Tracked Id User Payload := ⟨.new config, 0, fun _ => 0, [], []⟩

def step (t : Tracked Id User Payload) : Event Id User Payload → Option (Tracked Id User Payload)
  | .park now iteration id parked => some {
      t with
      registry := t.registry.park now iteration id parked
      parks := t.parks + 1
      parkedAt := Function.update t.parkedAt id t.parks
      ever := parked.payload :: t.ever }
  | .look now id user =>
    if t.registry.config.enabled then
      let (outcome, registry) := t.registry.tryTakeCommitted now id user
      some { t with registry, handed := ResumeOutcome.payloads outcome ++ t.handed }
    else some t
  | .sweep now iteration => some { t with registry := t.registry.sweepExpired now iteration }

def Fresh (t : Tracked Id User Payload) : Event Id User Payload → Prop
  | .park _ _ id _ => t.registry.byId.lookup id = none
  | _ => True

end Steps

section Looking

variable {Id User Payload : Type} [DecidableEq Id] [DecidableEq User] {r : OrphanRegistry Id User Payload}
  {id : Id} {entry : ParkedEntry User Payload}

structure Same (r r' : OrphanRegistry Id User Payload) : Prop where
  config : r'.config = r.config
  perUser : r'.perUser = r.perUser
  entries : r'.byId.entries.Perm r.byId.entries

omit [DecidableEq User] in
theorem Same.lookup {r' : OrphanRegistry Id User Payload} (h : Same r r') (id : Id) :
    r'.byId.lookup id = r.byId.lookup id :=
  AList.perm_lookup h.entries

theorem tryTakeCommitted_cases (r : OrphanRegistry Id User Payload) (now : Nat) (id : Id) (user : User) :
    (r.byId.lookup id = none ∧ r.tryTakeCommitted now id user = (none, r)) ∨
    (∃ entry, r.byId.lookup id = some entry ∧ entry.deadline ≤ now ∧
      r.tryTakeCommitted now id user = (some (.miss .expired), r.remove id)) ∨
    (∃ entry, r.byId.lookup id = some entry ∧ now < entry.deadline ∧ entry.owner ≠ user ∧
      (r.tryTakeCommitted now id user).1 = some (.miss .ownerMismatch) ∧ Same r (r.tryTakeCommitted now id user).2) ∨
    (∃ entry, r.byId.lookup id = some entry ∧ now < entry.deadline ∧ entry.owner = user ∧
      r.tryTakeCommitted now id user = (some (.hit entry.parked), r.remove id)) := by
  have hback : ∀ entry, r.byId.lookup id = some entry →
      Same r { r with byId := (r.byId.erase id).insert id entry } := by
    intro entry hentry
    have hgone : id ∉ r.byId.erase id := AList.lookup_eq_none.mp (AList.lookup_erase id r.byId)
    refine ⟨rfl, rfl, ?_⟩
    dsimp only
    rw [AList.entries_insert_of_notMem hgone]
    exact (entries_perm_erase hentry).symm
  grind [tryTakeCommitted, remove]

end Looking

section Invariant

variable {Id User Payload : Type} [DecidableEq Id] [DecidableEq User] [DecidableEq Payload]
  {r r' : OrphanRegistry Id User Payload} {t next : Tracked Id User Payload} {id : Id}

def payloads (r : OrphanRegistry Id User Payload) : List Payload :=
  r.byId.entries.map fun entry => entry.2.parked.payload

omit [DecidableEq Id] [DecidableEq User] in
theorem count_payloads_le (h : r'.byId.entries.Sublist r.byId.entries) (p : Payload) :
    (payloads r').count p ≤ (payloads r).count p :=
  (h.map _).count_le p

theorem count_payloads_remove {entry : ParkedEntry User Payload} (h : r.byId.lookup id = some entry) (p : Payload) :
    (payloads r).count p = [entry.parked.payload].count p + (payloads (r.remove id)).count p := by
  have hperm := (entries_perm_erase h).map fun entry => entry.2.parked.payload
  rw [payloads, payloads, (remove_eq h).1, hperm.count_eq, List.map_cons, List.count_cons, List.count_singleton,
    Nat.add_comm]

structure Kept (config : ResumptionConfig) (t : Tracked Id User Payload) : Prop where
  config : t.registry.config = config
  books : Books none t.registry
  capped : Capped t.registry
  ordered : ∀ user, (t.registry.listOf user).Pairwise fun a b => t.parkedAt a < t.parkedAt b
  dated : ∀ user, ∀ id ∈ t.registry.listOf user, t.parkedAt id < t.parks
  accounted : ∀ p, t.handed.count p + (payloads t.registry).count p ≤ t.ever.count p

variable {config : ResumptionConfig}

theorem Kept.shrinks (h : Kept config t) (hshrinks : Shrinks t.registry r) (hbooks : Books none r) :
    Kept config { t with registry := r } where
  config := hshrinks.config.trans h.config
  books := hbooks
  capped := h.capped.shrinks hshrinks
  ordered user := (h.ordered user).sublist (hshrinks.lists user)
  dated user id hid := h.dated user id ((hshrinks.lists user).subset hid)
  accounted p := Nat.le_trans (Nat.add_le_add_left (count_payloads_le hshrinks.entries p) _) (h.accounted p)

theorem Kept.same (h : Kept config t) (hsame : Same t.registry r) : Kept config { t with registry := r } := by
  have hlists : ∀ user, r.listOf user = t.registry.listOf user := fun user => by
    rw [listOf, hsame.perUser]
    rfl
  have hcount : ∀ p, (payloads r).count p = (payloads t.registry).count p := (hsame.entries.map _).count_eq
  obtain ⟨hconfig, hbooks, ⟨huser, htable⟩, hordered, hdated, haccounted⟩ := h
  refine ⟨hsame.config.trans hconfig, hbooks.congr hsame.lookup hlists, ⟨?_, ?_⟩, ?_, ?_, ?_⟩ <;>
    simpa only [hlists, hsame.config, size, hsame.entries.length_eq, hcount]

theorem Kept.look (h : Kept config t) (now : Nat) (id : Id) (user : User) :
    Kept config { t with
      registry := (t.registry.tryTakeCommitted now id user).2
      handed := ResumeOutcome.payloads (t.registry.tryTakeCommitted now id user).1 ++ t.handed } := by
  obtain ⟨-, hlook⟩ | ⟨entry, -, -, hlook⟩ | ⟨entry, -, -, -, hmiss, hsame⟩ | ⟨entry, hentry, -, -, hlook⟩ :=
    tryTakeCommitted_cases t.registry now id user
  · rw [hlook]
    exact h
  · rw [hlook]
    exact h.shrinks (shrinks_remove _ _) (h.books.remove id)
  · rw [hmiss]
    exact h.same hsame
  · rw [hlook]
    have hkept := h.shrinks (shrinks_remove t.registry id) (h.books.remove id)
    refine { hkept with accounted := fun p => ?_ }
    have haccounted := h.accounted p
    have hcount := count_payloads_remove hentry p
    simp only [ResumeOutcome.payloads, List.count_append]
    omega

omit [DecidableEq Payload] in
theorem listOf_beforeEntry_sublist (h : Books none r) (owner user : User) (id : Id)
    (iteration : Iteration Id User Payload) :
    ((((r.evictForUser owner).pushId owner id).evictGlobally iteration).listOf user).Sublist
      (if user = owner then r.listOf user ++ [id] else r.listOf user) := by
  refine ((shrinks_evictGlobally _ _).lists user).trans ?_
  rw [pushId, listOf_insert]
  have hsub := (shrinks_evictForUser h owner).lists user
  split
  next huser =>
    rw [← huser]
    rw [← huser] at hsub
    exact hsub.append (List.Sublist.refl [id])
  next => exact hsub

theorem count_payloads_park_le (h : Books none r) (hnew : r.byId.lookup id = none) (now : Nat)
    (iteration : Iteration Id User Payload) (parked : Parked User Payload) (p : Payload) :
    (payloads (r.park now iteration id parked)).count p ≤ [parked.payload].count p + (payloads r).count p := by
  by_cases henabled : r.config.enabled = true
  · have hfresh := (h.beforeEntry hnew parked.owner iteration).fresh id parked.owner rfl
    have hshrinks : (((r.evictForUser parked.owner).pushId parked.owner id).evictGlobally
        iteration).byId.entries.Sublist r.byId.entries :=
      (shrinks_evictGlobally _ _).entries.trans (shrinks_evictForUser h parked.owner).entries
    have hcount := count_payloads_le hshrinks p
    rw [park_enabled henabled, payloads, AList.entries_insert_of_notMem (AList.lookup_eq_none.mp hfresh),
      List.map_cons, List.count_cons, List.count_singleton, Nat.add_comm]
    exact Nat.add_le_add_left hcount _
  · rw [park_disabled henabled]
    exact Nat.le_add_left _ _

theorem Kept.park (h : Kept config t) (hcap : 0 < config.orphanPerUserCap) (hglobal : 0 < config.orphanGlobalCap)
    (now : Nat) (iteration : Iteration Id User Payload) (parked : Parked User Payload)
    (hnew : t.registry.byId.lookup id = none) :
    Kept config {
      t with
      registry := t.registry.park now iteration id parked
      parks := t.parks + 1
      parkedAt := Function.update t.parkedAt id t.parks
      ever := parked.payload :: t.ever } := by
  have hconfig := h.config
  have hnot : ∀ user, id ∉ t.registry.listOf user := fun user => by grind [h.books.listed user id]
  -- an id listed before keeps its place in the order, the new one comes last
  have hdate : ∀ user, ∀ x ∈ t.registry.listOf user,
      Function.update t.parkedAt id t.parks x = t.parkedAt x ∧ t.parkedAt x < t.parks := by
    intro user x hx
    have hne : x ≠ id := fun heq => hnot user (heq ▸ hx)
    exact ⟨Function.update_of_ne hne _ _, h.dated user x hx⟩
  have hlists :
      ∀ user, ((t.registry.park now iteration id parked).listOf user).Sublist (t.registry.listOf user ++ [id]) := by
    intro user
    by_cases henabled : t.registry.config.enabled = true
    · rw [park_enabled henabled]
      refine (listOf_beforeEntry_sublist h.books parked.owner user id iteration).trans ?_
      split
      · exact List.Sublist.refl _
      · exact List.sublist_append_left _ _
    · rw [park_disabled henabled]
      exact List.sublist_append_left _ _
  refine ⟨?_, h.books.park hnew, Capped.park h.books h.capped (hconfig ▸ hcap) (hconfig ▸ hglobal) hnew, fun user => ?_,
    fun user x hx => ?_, fun p => ?_⟩
  · rw [OrphanRegistry.park]
    split
    · exact (config_beforeEntry h.books _ _ _).trans hconfig
    · exact hconfig
  · refine List.Pairwise.sublist (hlists user) (List.pairwise_append.mpr ⟨?_, List.pairwise_singleton _ _, ?_⟩)
    · refine (h.ordered user).imp_of_mem fun {a b} ha hb hlt => ?_
      simp only [(hdate user a ha).1, (hdate user b hb).1]
      exact hlt
    · grind
  · grind
  · have haccounted := h.accounted
    have hbooks := h.books
    grind [count_payloads_park_le]

theorem kept_of_run (hcap : 0 < config.orphanPerUserCap) (hglobal : 0 < config.orphanGlobalCap)
    {events : List (Event Id User Payload)} (hrun : Run step Fresh (Tracked.new config) events t) : Kept config t := by
  apply hrun.invariant (P := fun _ t => Kept config t)
  · refine ⟨rfl, ⟨?_, ?_, ?_, ?_⟩, ⟨?_, ?_⟩, ?_, ?_, ?_⟩ <;>
      simp [Tracked.new, new, listOf, size, payloads]
  · intro events t event next h hfresh hstep
    cases event with
    | park now iteration id parked =>
      cases hstep
      exact h.park hcap hglobal now iteration parked hfresh
    | look now id user =>
      have hlook := h.look
      grind [step]
    | sweep now iteration =>
      cases hstep
      rw [sweepExpired]
      split
      · exact h.shrinks (shrinks_foldl_remove _ _) (h.books.foldl_remove _)
      · exact h

end Invariant

section Evictions

variable {Id User Payload : Type} [DecidableEq Id] [DecidableEq User] [DecidableEq Payload]
  {t : Tracked Id User Payload} {config : ResumptionConfig} {id : Id}

/-- What is gone after a park: at most the oldest entry of the user, and of the others at most one that none of them
precedes. -/
structure EvictsAtMost (t : Tracked Id User Payload) (id : Id) (owner : User) (after : OrphanRegistry Id User Payload)
    (own early : Option Id) : Prop where
  rest : ∀ x ≠ id, after.byId.lookup x = if own = some x ∨ early = some x then none else t.registry.byId.lookup x
  oldest : ∀ x, own = some x → ∃ entry, t.registry.byId.lookup x = some entry ∧ entry.owner = owner ∧
    ∀ y other, t.registry.byId.lookup y = some other → other.owner = owner → y ≠ x → t.parkedAt x < t.parkedAt y
  earliest : ∀ x, early = some x → ∃ entry, t.registry.byId.lookup x = some entry ∧ own ≠ some x ∧
    ∀ y other, t.registry.byId.lookup y = some other → own ≠ some y → entry.deadline ≤ other.deadline

theorem Kept.evictForUser (h : Kept config t) (owner : User) : ∃ own : Option Id,
      (∀ x, (t.registry.evictForUser owner).byId.lookup x = if own = some x then none else t.registry.byId.lookup x) ∧
      ∀ x, own = some x → ∃ entry, t.registry.byId.lookup x = some entry ∧ entry.owner = owner ∧
        ∀ y other, t.registry.byId.lookup y = some other → other.owner = owner → y ≠ x →
          t.parkedAt x < t.parkedAt y := by
  obtain ⟨hsame, -⟩ | ⟨oldest, rest, entry, hlist, -, hentry, howner, hbyId, -⟩ := evictForUser_eq h.books owner
  · exact ⟨none, by simp [hsame], by simp⟩
  · refine ⟨some oldest, fun x => ?_, fun x hx => ?_⟩
    · rw [hbyId, lookup_erase_eq]
      grind
    · cases hx
      refine ⟨entry, hentry, howner, fun y other hother hsame hne => ?_⟩
      have hmem := (h.books.listed owner y).mpr (.inl ⟨other, hother, hsame⟩)
      have hordered := h.ordered owner
      rw [hlist] at hordered hmem
      exact (List.pairwise_cons.1 hordered).1 y ((List.mem_cons.mp hmem).resolve_left hne)

theorem Kept.park_evicts (h : Kept config t) (hglobal : 0 < config.orphanGlobalCap) (now : Nat)
    (iteration : Iteration Id User Payload) (parked : Parked User Payload) :
    ∃ own early, EvictsAtMost t id parked.owner (t.registry.park now iteration id parked) own early := by
  by_cases henabled : t.registry.config.enabled = true
  · obtain ⟨own, hrest, holdest⟩ := h.evictForUser parked.owner
    let middle := (t.registry.evictForUser parked.owner).pushId parked.owner id
    have hmiddle : ∀ x, middle.byId.lookup x = if own = some x then none else t.registry.byId.lookup x := hrest
    have hconfig : middle.config = config := (shrinks_evictForUser h.books parked.owner).config.trans h.config
    have hlookup : ∀ x ≠ id, (t.registry.park now iteration id parked).byId.lookup x =
        (middle.evictGlobally iteration).byId.lookup x := by
      intro x hx
      rw [park_enabled henabled, lookup_insert_eq, if_neg hx]
    obtain ⟨hsame, -⟩ | ⟨victim, entry, hvictim, hremove, hmin⟩ :=
      evictGlobally_eq (r := middle) (by rw [hconfig]; exact hglobal) iteration
    · exact ⟨own, none, fun x hx => by simp [hlookup x hx, hsame, hmiddle], holdest, by simp⟩
    · refine ⟨own, some victim, fun x hx => ?_, holdest, fun x hx => ?_⟩
      · grind
      · grind
  · exact ⟨none, none, fun x _ => by simp [park_disabled henabled], by simp, by simp⟩

end Evictions

section Main

variable {Id User Payload : Type} [DecidableEq Id] [DecidableEq User] [DecidableEq Payload]

omit [DecidableEq Payload] in
theorem takeForResume_hit {r : OrphanRegistry Id User Payload} {now later : Nat} {id : Id} {user : User}
    {parked : Parked User Payload} (h : (r.takeForResume now later id user).1 = .hit parked) :
    (r.tryTakeCommitted now id user).1 = some (.hit parked) ∧
      (r.takeForResume now later id user).2 = (r.tryTakeCommitted now id user).2 := by
  have hfirst := tryTakeCommitted_cases r now id user
  have hsecond := tryTakeCommitted_cases r later id user
  grind [takeForResume]

/-- The books agree and stay within the limits, a session goes to its owner before its deadline and is handed out no
more often than it was parked, a stranger's take changes nothing, and a park evicts no more than it may. -/
theorem orphan_registry_keeps_books (config : ResumptionConfig) (hcap : 0 < config.orphanPerUserCap)
    (hglobal : 0 < config.orphanGlobalCap) {events : List (Event Id User Payload)} {t : Tracked Id User Payload}
    (hrun : Run step Fresh (Tracked.new config) events t) :
    Books none t.registry ∧ (∀ user, (t.registry.listOf user).length ≤ config.orphanPerUserCap) ∧
    size t.registry.byId ≤ config.orphanGlobalCap ∧ (∀ p, t.handed.count p ≤ t.ever.count p) ∧
    (∀ now id user parked, (t.registry.tryTakeCommitted now id user).1 = some (.hit parked) →
      ∃ entry, t.registry.byId.lookup id = some entry ∧ entry.parked = parked ∧ parked.owner = user ∧
        now < entry.deadline ∧ (t.registry.tryTakeCommitted now id user).2.byId.lookup id = none) ∧
    (∀ now later id user parked, (t.registry.takeForResume now later id user).1 = .hit parked →
      ∃ entry, t.registry.byId.lookup id = some entry ∧ entry.parked = parked ∧ parked.owner = user ∧
        now < entry.deadline ∧ (t.registry.takeForResume now later id user).2.byId.lookup id = none) ∧
    (∀ now id user entry, t.registry.byId.lookup id = some entry → entry.owner ≠ user → now < entry.deadline →
      Same t.registry (t.registry.tryTakeCommitted now id user).2 ∧
        ∀ later, Same t.registry (t.registry.takeForResume now later id user).2) ∧
    ∀ now iteration id parked, ∃ own early,
      EvictsAtMost t id parked.owner (t.registry.park now iteration id parked) own early := by
  have h := kept_of_run hcap hglobal hrun
  have hlook : ∀ now id user parked, (t.registry.tryTakeCommitted now id user).1 = some (.hit parked) →
      ∃ entry, t.registry.byId.lookup id = some entry ∧ entry.parked = parked ∧ parked.owner = user ∧
        now < entry.deadline ∧ (t.registry.tryTakeCommitted now id user).2.byId.lookup id = none := by
    intro now id user parked hhit
    have howned := h.books.owned id
    have hcases := tryTakeCommitted_cases t.registry now id user
    grind
  refine ⟨h.books, fun user => h.config ▸ h.capped.user user, h.config ▸ h.capped.table,
    fun p => Nat.le_trans (Nat.le_add_right _ _) (h.accounted p), hlook, ?_, ?_,
    fun now iteration id parked => h.park_evicts hglobal now iteration parked⟩
  · intro now later id user parked hhit
    obtain ⟨hfirst, hafter⟩ := takeForResume_hit hhit
    rw [hafter]
    exact hlook now id user parked hfirst
  · intro now id user entry hentry howner hbefore
    obtain ⟨hmiss, hsame⟩ : (t.registry.tryTakeCommitted now id user).1 = some (.miss .ownerMismatch) ∧
        Same t.registry (t.registry.tryTakeCommitted now id user).2 := by
      have hcases := tryTakeCommitted_cases t.registry now id user
      grind
    refine ⟨hsame, fun later => ?_⟩
    rw [takeForResume]
    split
    · grind
    · exact ⟨rfl, rfl, List.Perm.refl _⟩

def twoCaps : ResumptionConfig := ⟨true, 30, 30, 1, 2⟩

def inOrder : Iteration Nat Nat Nat := ⟨AList.entries, fun _ => List.Perm.refl _⟩

/-- The second session of a user evicts the first one and is then taken. -/
theorem orphan_registry_keeps_books_two : ∃ t : Tracked Nat Nat Nat, Run step Fresh (Tracked.new twoCaps)
      [.park 0 inOrder 1 ⟨.tcp, 5, 70⟩, .park 3 inOrder 2 ⟨.ssUdpStream, 5, 71⟩, .look 4 2 5] t ∧
    t.handed = [71] ∧ t.ever = [71, 70] ∧ size t.registry.byId = 0 ∧ Books none t.registry := by
  have hstart : Run step Fresh (Tracked.new twoCaps) ([] : List (Event Nat Nat Nat)) _ := .refl
  have hfirst : Run step Fresh (Tracked.new twoCaps) [.park 0 inOrder 1 ⟨.tcp, 5, 70⟩] _ := hstart.snoc rfl rfl
  have hsecond : Run step Fresh (Tracked.new twoCaps)
      [.park 0 inOrder 1 ⟨.tcp, 5, 70⟩, .park 3 inOrder 2 ⟨.ssUdpStream, 5, 71⟩] _ := hfirst.snoc rfl rfl
  have hrun : Run step Fresh (Tracked.new twoCaps)
      [.park 0 inOrder 1 ⟨.tcp, 5, 70⟩, .park 3 inOrder 2 ⟨.ssUdpStream, 5, 71⟩, .look 4 2 5] _ :=
    hsecond.snoc trivial rfl
  exact ⟨_, hrun, rfl, rfl, rfl, (orphan_registry_keeps_books twoCaps (by decide) (by decide) hrun).1⟩

end Main

end OutlineProxy.Server.Orphans
