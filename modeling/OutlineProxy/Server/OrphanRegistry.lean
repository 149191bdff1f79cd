import OutlineProxy.Lib.Runs
import OutlineProxy.Lib.Tables

/-! The registry of parked sessions: indexed by session id, with a list of ids for each user. -/

namespace OutlineProxy.Server.Orphans

open Tables

inductive Kind where
  | tcp
  | vlessUdpSingle
  | vlessMux
  | ssUdpStream

structure Parked (User Payload : Type) where
  kind : Kind
  owner : User
  payload : Payload

structure ParkedEntry (User Payload : Type) where
  owner : User
  deadline : Nat
  parked : Parked User Payload

structure ResumptionConfig where
  enabled : Bool
  orphanTtlTcp : Nat
  orphanTtlUdp : Nat
  orphanPerUserCap : Nat
  orphanGlobalCap : Nat

def ResumptionConfig.ttlForKind (config : ResumptionConfig) : Kind → Nat
  | .tcp => config.orphanTtlTcp
  | _ => config.orphanTtlUdp

inductive ResumeMiss where
  | unknown
  | expired
  | ownerMismatch
  | disabled

inductive ResumeOutcome (User Payload : Type) where
  | hit (parked : Parked User Payload)
  | miss (reason : ResumeMiss)

structure OrphanRegistry (Id User Payload : Type) where
  config : ResumptionConfig
  byId : Table Id (ParkedEntry User Payload)
  perUser : Table User (List Id)

open OrphanRegistry

abbrev Iteration (Id User Payload : Type) := Walk Id (ParkedEntry User Payload)

section Model

variable {Id User Payload : Type} [DecidableEq Id] [DecidableEq User]

namespace OrphanRegistry

def new (config : ResumptionConfig) : OrphanRegistry Id User Payload := ⟨config, ∅, ∅⟩

variable (r : OrphanRegistry Id User Payload)

def listOf (user : User) : List Id := (r.perUser.lookup user).getD []

def detachFromPerUser (owner : User) (id : Id) : OrphanRegistry Id User Payload :=
  match r.perUser.lookup owner with
  | some list => { r with perUser := r.perUser.insert owner (list.filter (· ≠ id)) }
  | none => r

def remove (id : Id) : OrphanRegistry Id User Payload :=
  match r.byId.lookup id with
  | some entry => { r with byId := r.byId.erase id }.detachFromPerUser entry.owner id
  | none => r

def evictForUser (owner : User) : OrphanRegistry Id User Payload :=
  match r.listOf owner with
  | oldest :: rest =>
    if r.config.orphanPerUserCap ≤ (oldest :: rest).length then
      { r with perUser := r.perUser.insert owner rest, byId := r.byId.erase oldest }
    else r
  | [] => r

def pushId (owner : User) (id : Id) : OrphanRegistry Id User Payload :=
  { r with perUser := r.perUser.insert owner (r.listOf owner ++ [id]) }

end OrphanRegistry

def keepOldest (oldest : Option (Id × Nat)) (entry : Sigma fun _ : Id => ParkedEntry User Payload) :
    Option (Id × Nat) :=
  match oldest with
  | none => some (entry.1, entry.2.deadline)
  | some (id, deadline) => if entry.2.deadline < deadline then some (entry.1, entry.2.deadline) else some (id, deadline)

def findOldestGlobally (entries : List (Sigma fun _ : Id => ParkedEntry User Payload)) : Option Id :=
  (entries.foldl keepOldest none).map Prod.fst

namespace OrphanRegistry

variable (r : OrphanRegistry Id User Payload)

def evictGlobally (iteration : Iteration Id User Payload) : OrphanRegistry Id User Payload :=
  if r.config.orphanGlobalCap ≤ size r.byId then
    match findOldestGlobally (iteration.order r.byId) with
    | some victim => r.remove victim
    | none => r
  else r

def park (now : Nat) (iteration : Iteration Id User Payload) (id : Id) (parked : Parked User Payload) :
    OrphanRegistry Id User Payload :=
  if r.config.enabled then
    let deadline := now + r.config.ttlForKind parked.kind
    let r := ((r.evictForUser parked.owner).pushId parked.owner id).evictGlobally iteration
    { r with byId := r.byId.insert id ⟨parked.owner, deadline, parked⟩ }
  else r

def tryTakeCommitted (now : Nat) (id : Id) (user : User) :
    Option (ResumeOutcome User Payload) × OrphanRegistry Id User Payload :=
  match r.byId.lookup id with
  | none => (none, r)
  | some entry =>
    let removed := { r with byId := r.byId.erase id }
    if entry.deadline ≤ now then (some (.miss .expired), removed.detachFromPerUser entry.owner id)
    else if entry.owner ≠ user then
      (some (.miss .ownerMismatch), { removed with byId := removed.byId.insert id entry })
    else (some (.hit entry.parked), removed.detachFromPerUser entry.owner id)

def takeForResume (now later : Nat) (id : Id) (user : User) :
    ResumeOutcome User Payload × OrphanRegistry Id User Payload :=
  if r.config.enabled then
    match r.tryTakeCommitted now id user with
    | (some outcome, r) => (outcome, r)
    | (none, r) =>
      match r.tryTakeCommitted later id user with
      | (some outcome, r) => (outcome, r)
      | (none, r) => (.miss .unknown, r)
  else (.miss .disabled, r)

def sweepExpired (now : Nat) (iteration : Iteration Id User Payload) : OrphanRegistry Id User Payload :=
  if r.config.enabled then
    let expired := ((iteration.order r.byId).filter fun entry => entry.2.deadline ≤ now).map Sigma.fst
    expired.foldl remove r
  else r

end OrphanRegistry

end Model

section Books

variable {Id User Payload : Type} [DecidableEq Id] [DecidableEq User] {r : OrphanRegistry Id User Payload}
  {pending : Option (Id × User)} {id x : Id} {owner user : User} {entry : ParkedEntry User Payload}

/-- The lists name the ids of the table, each once and under its owner, and besides them an id that is about to be
entered. -/
structure Books (pending : Option (Id × User)) (r : OrphanRegistry Id User Payload) : Prop where
  listed : ∀ user id, id ∈ r.listOf user ↔
    (∃ entry, r.byId.lookup id = some entry ∧ entry.owner = user) ∨ pending = some (id, user)
  nodup : ∀ user, (r.listOf user).Nodup
  fresh : ∀ id user, pending = some (id, user) → r.byId.lookup id = none
  owned : ∀ id entry, r.byId.lookup id = some entry → entry.parked.owner = entry.owner

attribute [local grind =] lookup_insert_eq lookup_erase_eq

attribute [local grind] listOf detachFromPerUser remove

omit [DecidableEq Id] in
@[grind =] theorem listOf_insert (r : OrphanRegistry Id User Payload) (owner user : User) (list : List Id)
    (byId : Table Id (ParkedEntry User Payload)) :
    ({ r with perUser := r.perUser.insert owner list, byId } : OrphanRegistry Id User Payload).listOf user =
      if user = owner then list else r.listOf user := by
  grind

@[simp, grind =] theorem byId_detachFromPerUser (r : OrphanRegistry Id User Payload) (owner : User) (id : Id) :
    (r.detachFromPerUser owner id).byId = r.byId := by
  grind

@[simp, grind =] theorem config_detachFromPerUser (r : OrphanRegistry Id User Payload) (owner : User) (id : Id) :
    (r.detachFromPerUser owner id).config = r.config := by
  grind

@[grind =] theorem listOf_detachFromPerUser (r : OrphanRegistry Id User Payload) (owner user : User) (id : Id) :
    (r.detachFromPerUser owner id).listOf user =
      if user = owner then (r.listOf user).filter (· ≠ id) else r.listOf user := by
  grind

theorem remove_eq (h : r.byId.lookup id = some entry) :
    (r.remove id).byId = r.byId.erase id ∧ (r.remove id).config = r.config ∧ ∀ user, (r.remove id).listOf user =
        if user = entry.owner then (r.listOf user).filter (· ≠ id) else r.listOf user := by
  rw [remove, h]
  exact ⟨byId_detachFromPerUser _ _ _, config_detachFromPerUser _ _ _, fun user => listOf_detachFromPerUser _ _ _ _⟩

theorem remove_of_none (h : r.byId.lookup id = none) : r.remove id = r := by
  rw [remove, h]

@[grind =] theorem config_remove (r : OrphanRegistry Id User Payload) (id : Id) : (r.remove id).config = r.config := by
  grind

theorem listOf_remove_sublist (r : OrphanRegistry Id User Payload) (id : Id) (user : User) :
    ((r.remove id).listOf user).Sublist (r.listOf user) := by
  grind [remove_of_none, remove_eq, List.filter_sublist]

@[grind =] theorem lookup_remove (r : OrphanRegistry Id User Payload) (id x : Id) :
    (r.remove id).byId.lookup x = if x = id then none else r.byId.lookup x := by
  grind

theorem Books.remove (h : Books pending r) (id : Id) : Books pending (r.remove id) := by
  obtain ⟨hlisted, hnodup, hfresh, howned⟩ := h
  exact ⟨by grind, fun user => (hnodup user).sublist (listOf_remove_sublist r id user), by grind, by grind⟩

theorem evictForUser_eq (h : Books none r) (owner : User) :
    (r.evictForUser owner = r ∧ (r.listOf owner = [] ∨ (r.listOf owner).length < r.config.orphanPerUserCap)) ∨
    ∃ oldest rest entry, r.listOf owner = oldest :: rest ∧ r.config.orphanPerUserCap ≤ (oldest :: rest).length ∧
      r.byId.lookup oldest = some entry ∧ entry.owner = owner ∧
      (r.evictForUser owner).byId = r.byId.erase oldest ∧ (r.evictForUser owner).config = r.config ∧
      ∀ user, (r.evictForUser owner).listOf user = if user = owner then rest else r.listOf user := by
  cases hlist : r.listOf owner with
  | nil => exact .inl ⟨by rw [evictForUser, hlist], .inl rfl⟩
  | cons oldest rest =>
    by_cases hcap : r.config.orphanPerUserCap ≤ (oldest :: rest).length
    · obtain ⟨entry, hentry, howner⟩ : ∃ entry, r.byId.lookup oldest = some entry ∧ entry.owner = owner := by
        grind [h.listed owner oldest]
      have hevict : r.evictForUser owner =
          { r with perUser := r.perUser.insert owner rest, byId := r.byId.erase oldest } := by
        simp only [evictForUser, hlist, hcap, if_true]
      refine .inr ⟨oldest, rest, entry, rfl, hcap, hentry, howner, ?_⟩
      rw [hevict]
      exact ⟨rfl, rfl, fun user => listOf_insert r owner user rest _⟩
    · grind [evictForUser, Nat.lt_of_not_le]

theorem evictForUser_like_remove (h : Books none r) (owner : User) :
    r.evictForUser owner = r ∨ ∃ oldest rest entry, r.listOf owner = oldest :: rest ∧
      r.byId.lookup oldest = some entry ∧ entry.owner = owner ∧
      (r.evictForUser owner).byId = (r.remove oldest).byId ∧
      ∀ user, (r.evictForUser owner).listOf user = (r.remove oldest).listOf user := by
  have hnodup := h.nodup
  grind [evictForUser_eq, remove_eq, List.nodup_cons, List.filter_cons_of_neg, List.filter_eq_self]

theorem Books.congr {r' : OrphanRegistry Id User Payload} (h : Books pending r)
    (hbyId : ∀ id, r'.byId.lookup id = r.byId.lookup id) (hlists : ∀ user, r'.listOf user = r.listOf user) :
    Books pending r' := by
  obtain ⟨hlisted, hnodup, hfresh, howned⟩ := h
  constructor <;> simpa only [hbyId, hlists]

theorem Books.evictForUser (h : Books none r) (owner : User) : Books none (r.evictForUser owner) := by
  obtain hsame | ⟨oldest, rest, entry, -, -, -, hbyId, hlists⟩ := evictForUser_like_remove h owner
  · rw [hsame]
    exact h
  · exact (h.remove oldest).congr (fun id => by rw [hbyId]) hlists

theorem Books.pushId (h : Books none r) (owner : User) (hnew : r.byId.lookup id = none) :
    Books (some (id, owner)) (r.pushId owner id) := by
  obtain ⟨hlisted, hnodup, -, howned⟩ := h
  constructor <;> simp only [OrphanRegistry.pushId, listOf_insert] <;> grind

theorem Books.enter (h : Books (some (id, owner)) r) (hentry : entry.owner = owner)
    (howned : entry.parked.owner = entry.owner) : Books none { r with byId := r.byId.insert id entry } := by
  have hnone := h.fresh id owner rfl
  obtain ⟨hlisted, hnodup, -, howned'⟩ := h
  refine ⟨fun user x => ?_, hnodup, by simp, by grind⟩
  change x ∈ r.listOf user ↔ _
  grind

end Books

section Shrinking

variable {Id User Payload : Type} [DecidableEq Id] [DecidableEq User] {r r' r'' : OrphanRegistry Id User Payload}
  {id x : Id} {owner : User} {entry : ParkedEntry User Payload}

structure Shrinks (r r' : OrphanRegistry Id User Payload) : Prop where
  config : r'.config = r.config
  lists : ∀ user, (r'.listOf user).Sublist (r.listOf user)
  entries : r'.byId.entries.Sublist r.byId.entries

omit [DecidableEq Id] in
theorem Shrinks.refl (r : OrphanRegistry Id User Payload) : Shrinks r r :=
  ⟨rfl, fun _ => List.Sublist.refl _, List.Sublist.refl _⟩

theorem shrinks_remove (r : OrphanRegistry Id User Payload) (id : Id) : Shrinks r (r.remove id) := by
  refine ⟨config_remove r id, listOf_remove_sublist r id, ?_⟩
  cases h : r.byId.lookup id with
  | none => rw [remove_of_none h]
  | some entry =>
    rw [(remove_eq h).1]
    exact List.kerase_sublist _ _

omit [DecidableEq Id] in
theorem Shrinks.trans (h : Shrinks r r') (h' : Shrinks r' r'') : Shrinks r r'' :=
  ⟨h'.config.trans h.config, fun user => (h'.lists user).trans (h.lists user), h'.entries.trans h.entries⟩

theorem Shrinks.lookup (h : Shrinks r r') (hx : r'.byId.lookup x = some entry) : r.byId.lookup x = some entry :=
  lookup_eq_some_iff.mpr (h.entries.subset (lookup_eq_some_iff.mp hx))

theorem shrinks_evictForUser (h : Books none r) (owner : User) : Shrinks r (r.evictForUser owner) := by
  obtain ⟨hsame, -⟩ | ⟨oldest, rest, entry, hlist, -, -, -, hbyId, hconfig, hlists⟩ := evictForUser_eq h owner
  · rw [hsame]
    exact .refl r
  · refine ⟨hconfig, fun user => ?_, hbyId ▸ List.kerase_sublist _ _⟩
    rw [hlists]
    split
    next huser =>
      rw [huser, hlist]
      exact List.sublist_cons_self oldest rest
    · exact List.Sublist.refl _

theorem shrinks_foldl_remove (ids : List Id) (r : OrphanRegistry Id User Payload) :
    Shrinks r (ids.foldl remove r) := by
  induction ids generalizing r with
  | nil => exact .refl r
  | cons id ids ih => exact (shrinks_remove r id).trans (ih _)

theorem Books.foldl_remove {pending : Option (Id × User)} (h : Books pending r) (ids : List Id) :
    Books pending (ids.foldl OrphanRegistry.remove r) := by
  induction ids generalizing r with
  | nil => exact h
  | cons id ids ih => exact ih (h.remove id)

end Shrinking

section Oldest

variable {Id User Payload : Type} {entries : List (Sigma fun _ : Id => ParkedEntry User Payload)} {id : Id}
  {deadline : Nat}

theorem foldl_keepOldest (entries : List (Sigma fun _ : Id => ParkedEntry User Payload)) (id : Id) (deadline : Nat) :
    ∃ found, entries.foldl keepOldest (some (id, deadline)) = some found ∧ found.2 ≤ deadline ∧
      (∀ entry ∈ entries, found.2 ≤ entry.2.deadline) ∧
      (found = (id, deadline) ∨ ∃ entry ∈ entries, found = (entry.1, entry.2.deadline)) := by
  induction entries generalizing id deadline with
  | nil => exact ⟨(id, deadline), rfl, Nat.le_refl _, by simp, Or.inl rfl⟩
  | cons first entries ih =>
    rw [List.foldl_cons, keepOldest]
    by_cases hearlier : first.2.deadline < deadline
    · obtain ⟨found, hfound, hle, hall, hfrom⟩ := ih first.1 first.2.deadline
      exact ⟨found, by rw [if_pos hearlier, hfound], by omega, by grind, by grind⟩
    · obtain ⟨found, hfound, hle, hall, hfrom⟩ := ih id deadline
      exact ⟨found, by rw [if_neg hearlier, hfound], hle, by grind, by grind⟩

theorem findOldestGlobally_spec (hne : entries ≠ []) :
    ∃ victim ∈ entries, findOldestGlobally entries = some victim.1 ∧
      ∀ entry ∈ entries, victim.2.deadline ≤ entry.2.deadline := by
  cases entries with
  | nil => exact absurd rfl hne
  | cons first entries =>
    obtain ⟨found, hfound, hle, hall, hfrom⟩ := foldl_keepOldest entries first.1 first.2.deadline
    have hsearch : findOldestGlobally (first :: entries) = some found.1 := by
      simp [findOldestGlobally, keepOldest, hfound]
    grind

variable [DecidableEq Id] [DecidableEq User] {r : OrphanRegistry Id User Payload}

theorem evictGlobally_eq (hcap : 0 < r.config.orphanGlobalCap) (iteration : Iteration Id User Payload) :
    (r.evictGlobally iteration = r ∧ size r.byId < r.config.orphanGlobalCap) ∨
    ∃ victim entry, r.byId.lookup victim = some entry ∧ r.evictGlobally iteration = r.remove victim ∧
      ∀ x other, r.byId.lookup x = some other → entry.deadline ≤ other.deadline := by
  have hperm := iteration.perm r.byId
  by_cases hfull : r.config.orphanGlobalCap ≤ size r.byId
  · have hne : iteration.order r.byId ≠ [] := by
      intro hempty
      have hlength := hperm.length_eq
      rw [hempty, List.length_nil] at hlength
      rw [size] at hfull
      omega
    obtain ⟨victim, hvictim, hfind, hmin⟩ := findOldestGlobally_spec hne
    refine .inr ⟨victim.1, victim.2, lookup_eq_some_iff.2 (hperm.subset hvictim), ?_, fun x other hother => ?_⟩
    · rw [evictGlobally, if_pos hfull, hfind]
    · exact hmin _ (hperm.symm.subset (lookup_eq_some_iff.1 hother))
  · exact .inl ⟨if_neg hfull, Nat.lt_of_not_le hfull⟩

theorem evictGlobally_cases (r : OrphanRegistry Id User Payload) (iteration : Iteration Id User Payload) :
    r.evictGlobally iteration = r ∨ ∃ victim, r.evictGlobally iteration = r.remove victim := by
  grind [evictGlobally]

theorem shrinks_evictGlobally (r : OrphanRegistry Id User Payload) (iteration : Iteration Id User Payload) :
    Shrinks r (r.evictGlobally iteration) := by
  obtain hsame | ⟨victim, hremove⟩ := evictGlobally_cases r iteration
  · rw [hsame]
    exact .refl r
  · rw [hremove]
    exact shrinks_remove r victim

theorem Books.evictGlobally {pending : Option (Id × User)} (h : Books pending r)
    (iteration : Iteration Id User Payload) : Books pending (r.evictGlobally iteration) := by
  obtain hsame | ⟨victim, hremove⟩ := evictGlobally_cases r iteration
  · rwa [hsame]
  · rw [hremove]
    exact h.remove victim

end Oldest

section Parking

variable {Id User Payload : Type} [DecidableEq Id] [DecidableEq User] {r r' : OrphanRegistry Id User Payload}
  {id : Id} {parked : Parked User Payload} {iteration : Iteration Id User Payload} {now : Nat}

structure Capped (r : OrphanRegistry Id User Payload) : Prop where
  user : ∀ user, (r.listOf user).length ≤ r.config.orphanPerUserCap
  table : size r.byId ≤ r.config.orphanGlobalCap

omit [DecidableEq Id] in
theorem Capped.shrinks (h : Capped r) (hshrinks : Shrinks r r') : Capped r' := by
  constructor <;> rw [hshrinks.config]
  · exact fun user => Nat.le_trans (hshrinks.lists user).length_le (h.user user)
  · exact Nat.le_trans hshrinks.entries.length_le h.table

theorem park_enabled (henabled : r.config.enabled = true) :
    r.park now iteration id parked =
      { ((r.evictForUser parked.owner).pushId parked.owner id).evictGlobally iteration with
        byId := (((r.evictForUser parked.owner).pushId parked.owner id).evictGlobally iteration).byId.insert id
          ⟨parked.owner, now + r.config.ttlForKind parked.kind, parked⟩ } := by
  rw [park, if_pos henabled]

theorem park_disabled (hdisabled : ¬ r.config.enabled = true) : r.park now iteration id parked = r := by
  rw [park, if_neg hdisabled]

section

variable (h : Books none r)

include h

theorem lookup_evictForUser_none (hnew : r.byId.lookup id = none) (owner : User) :
    (r.evictForUser owner).byId.lookup id = none := by
  rw [Option.eq_none_iff_forall_ne_some]
  intro entry hentry
  rw [(shrinks_evictForUser h owner).lookup hentry] at hnew
  cases hnew

theorem Books.beforeEntry (hnew : r.byId.lookup id = none) (owner : User) (iteration : Iteration Id User Payload) :
    Books (some (id, owner)) (((r.evictForUser owner).pushId owner id).evictGlobally iteration) :=
  ((h.evictForUser owner).pushId owner (lookup_evictForUser_none h hnew owner)).evictGlobally iteration

theorem Books.park (hnew : r.byId.lookup id = none) :
    Books none (r.park now iteration id parked) := by
  by_cases henabled : r.config.enabled = true
  · rw [park_enabled henabled]
    exact (h.beforeEntry hnew parked.owner iteration).enter rfl rfl
  · rw [park_disabled henabled]
    exact h

theorem config_beforeEntry (owner : User) (id : Id) (iteration : Iteration Id User Payload) :
    (((r.evictForUser owner).pushId owner id).evictGlobally iteration).config = r.config :=
  (shrinks_evictGlobally _ _).config.trans (shrinks_evictForUser h owner).config

theorem length_evictForUser_lt (hcapped : Capped r) (hcap : 0 < r.config.orphanPerUserCap)
    (owner : User) : ((r.evictForUser owner).listOf owner).length < r.config.orphanPerUserCap := by
  have hle := hcapped.user owner
  obtain ⟨hsame, hroom⟩ | ⟨oldest, rest, entry, hlist, hfull, -, -, -, -, hlists⟩ := evictForUser_eq h owner
  · grind
  · grind

theorem size_beforeEntry_lt (hcapped : Capped r) (hglobal : 0 < r.config.orphanGlobalCap)
    (owner : User) (id : Id) (iteration : Iteration Id User Payload) :
    size (((r.evictForUser owner).pushId owner id).evictGlobally iteration).byId < r.config.orphanGlobalCap := by
  have hshrinks := shrinks_evictForUser h owner
  have hpush : ((r.evictForUser owner).pushId owner id).config = r.config := hshrinks.config
  have htable : size ((r.evictForUser owner).pushId owner id).byId ≤ r.config.orphanGlobalCap :=
    Nat.le_trans hshrinks.entries.length_le hcapped.table
  obtain ⟨hsame, hlt⟩ | ⟨victim, entry, hvictim, hremove, -⟩ := evictGlobally_eq (hpush ▸ hglobal) iteration
  · rwa [hsame, ← hpush]
  · have hsize := size_erase hvictim
    rw [hremove, (remove_eq hvictim).1]
    omega

theorem Capped.park (hcapped : Capped r) (hcap : 0 < r.config.orphanPerUserCap)
    (hglobal : 0 < r.config.orphanGlobalCap) (hnew : r.byId.lookup id = none) :
    Capped (r.park now iteration id parked) := by
  by_cases henabled : r.config.enabled = true
  · have hbefore := h.beforeEntry hnew parked.owner iteration
    have hroom := size_beforeEntry_lt h hcapped hglobal parked.owner id iteration
    have hlt := length_evictForUser_lt h hcapped hcap parked.owner
    rw [park_enabled henabled]
    constructor <;> dsimp only <;> rw [config_beforeEntry h]
    · intro user
      refine Nat.le_trans ((shrinks_evictGlobally _ iteration).lists user).length_le ?_
      rw [pushId, listOf_insert]
      split
      · rw [List.length_append, List.length_singleton]
        exact hlt
      · exact Nat.le_trans ((shrinks_evictForUser h parked.owner).lists user).length_le (hcapped.user user)
    · rw [size_insert (AList.lookup_eq_none.1 (hbefore.fresh id parked.owner rfl))]
      exact hroom
  · rw [park_disabled henabled]
    exact hcapped

end

end Parking

end OutlineProxy.Server.Orphans
