import OutlineProxy.Lib.Runs
import OutlineProxy.Routing.Table

/-! The live routing table, replaced as a whole by swaps and changed in place by the watchers of its rule
files, while decisions are resolved from it and cached under its version. -/

namespace OutlineProxy.Routing

open List Runs UInt64 Option

def CompiledRule.matchesTarget (rule : CompiledRule) : TargetAddr → Bool
  | .domain host _ => rule.domains.containsNormalizedDomain (normalizeHost host)
  | target =>
    let inSet := rule.cidrs.contains target
    if rule.invert then !inSet else inSet

/-- A reload that has stored its CIDR set. -/
structure Reload where
  table : Nat
  rule : Nat
  domains : DomainSet
  domainsStored : Bool

structure Swap where
  table : RoutingTable
  next : UInt64

/-- `since` is how many installs were complete when the version was read. -/
structure Resolution where
  table : Nat
  target : TargetAddr
  tag : Option UInt64 := none
  since : Nat := 0
  rule : Nat := 0

structure CachedDecision where
  table : Nat
  decision : RouteDecision
  tag : UInt64
  since : Nat

/-- `tables` are the tables that were published, the live one among them; `installs` are the versions at
which a content was completely installed in the live table. -/
structure SharedRoutingTable where
  tables : List RoutingTable
  current : Nat := 0
  reloads : List Reload := []
  swaps : List Swap := []
  resolutions : List Resolution := []
  cache : List CachedDecision := []
  installs : List (UInt64 × List CompiledRule)

open SharedRoutingTable

inductive TableEvent where
  | storeCidrs (table rule : Nat) (cidrs : CidrSet) (domains : DomainSet)
  | storeDomains (k : Nat)
  | bump (k : Nat)
  | readVersion (new : RoutingTable)
  | stamp (k : Nat)
  | publish (k : Nat)
  | load (target : TargetAddr)
  | tag (k : Nat)
  | read (k : Nat)

namespace SharedRoutingTable

def new (table : RoutingTable) : SharedRoutingTable where
  tables := [table]
  installs := [(table.version, table.rules)]

def versionOf (s : SharedRoutingTable) (table : Nat) : Option UInt64 := s.tables[table]?.map RoutingTable.version

def version (s : SharedRoutingTable) : Option UInt64 := s.versionOf s.current

def changeRule (s : SharedRoutingTable) (table rule : Nat) (f : CompiledRule → CompiledRule) : SharedRoutingTable :=
  { s with tables := s.tables.modify table fun t => { t with rules := t.rules.modify rule f } }

/-- A reload that would leave an inverted rule with an empty set is refused.  A resolution reads one rule
after the other, as they are by then. -/
def step (s : SharedRoutingTable) : TableEvent → Option SharedRoutingTable
  | .storeCidrs table rule cidrs domains => do
    let t ← s.tables[table]?
    let r ← t.rules[rule]?
    if r.invert && cidrs.isEmpty then none
    else some { s.changeRule table rule ({ · with cidrs }) with
        reloads := s.reloads ++ [⟨table, rule, domains, false⟩] }
  | .storeDomains k =>
    match s.reloads[k]? with
    | some ⟨table, rule, domains, false⟩ =>
      some { s.changeRule table rule ({ · with domains }) with reloads := s.reloads.set k ⟨table, rule, domains, true⟩ }
    | _ => none
  | .bump k =>
    match s.reloads[k]? with
    | some ⟨table, _, _, true⟩ =>
      match s.tables[table]? with
      | none => none
      | some t =>
        some { s with
          tables := s.tables.set table { t with version := t.version + 1 }
          reloads := s.reloads.eraseIdx k
          installs := if table = s.current then s.installs ++ [(t.version + 1, t.rules)] else s.installs }
    | _ => none
  | .readVersion new => s.version.map fun version => { s with swaps := s.swaps ++ [⟨new, version + 1⟩] }
  | .stamp k =>
    s.swaps[k]?.map fun swap => { s with swaps := s.swaps.set k { swap with table.version := swap.next } }
  | .publish k =>
    match s.swaps[k]? with
    | none => none
    | some swap =>
      if swap.table.version = swap.next then
        some { s with
          tables := s.tables ++ [swap.table]
          current := s.tables.length
          swaps := s.swaps.eraseIdx k
          installs := s.installs ++ [(swap.next, swap.table.rules)] }
      else none
  | .load target => some { s with resolutions := s.resolutions ++ [⟨s.current, target, none, 0, 0⟩] }
  | .tag k =>
    match s.resolutions[k]? with
    | some ⟨table, target, none, _, rule⟩ =>
      (s.versionOf table).map fun version =>
        { s with resolutions := s.resolutions.set k ⟨table, target, some version, s.installs.length, rule⟩ }
    | _ => none
  | .read k =>
    match s.resolutions[k]? with
    | some ⟨table, target, some tag, since, rule⟩ =>
      s.tables[table]?.map fun t =>
        match t.rules[rule]? with
        | some r =>
          if r.matchesTarget target then
            { s with
              resolutions := s.resolutions.eraseIdx k
              cache := s.cache ++ [⟨table, ⟨r.target, r.fallback⟩, tag, since⟩] }
          else { s with resolutions := s.resolutions.set k ⟨table, target, some tag, since, rule + 1⟩ }
        | none =>
          { s with
            resolutions := s.resolutions.eraseIdx k, cache := s.cache ++ [⟨table, t.defaultDecision, tag, since⟩] }
    | _ => none

/-- Swaps come one at a time, and a watcher counts up the version of the live table only, outside a swap. -/
def Apart (s : SharedRoutingTable) : TableEvent → Prop
  | .bump k => s.swaps = [] ∧ (s.reloads[k]?.all (·.table = s.current)) = true
  | .readVersion _ => s.swaps = []
  | _ => True

instance (s : SharedRoutingTable) : (event : TableEvent) → Decidable (Apart s event)
  | .bump _ => inferInstanceAs (Decidable (_ ∧ _))
  | .readVersion _ => inferInstanceAs (Decidable (_ = _))
  | .storeCidrs .. | .storeDomains _ | .stamp _ | .publish _ | .load _ | .tag _ | .read _ =>
    inferInstanceAs (Decidable True)

variable {s next : SharedRoutingTable} {event : TableEvent} {table : RoutingTable}

/-- A version that was read off a table, with what was complete by then. -/
def Tagged (s : SharedRoutingTable) (table : Nat) (tag : UInt64) (since : Nat) : Prop :=
  ∃ k, tag = ofNat k ∧ k < s.installs.length ∧
    (since < s.installs.length ∨ table ≠ s.current → k + 1 < s.installs.length)

structure Counted (s : SharedRoutingTable) : Prop where
  nonempty : s.installs ≠ []
  versions : s.installs.map Prod.fst = (range s.installs.length).map ofNat
  live : s.version = some (ofNat (s.installs.length - 1))
  retired : ∀ i version, s.versionOf i = some version → i ≠ s.current → ∃ k, version = ofNat k ∧
    k + 1 < s.installs.length
  alone : s.swaps.length ≤ 1
  swaps : ∀ swap ∈ s.swaps, swap.next = ofNat s.installs.length
  resolutions : ∀ r ∈ s.resolutions, ∀ tag, r.tag = some tag → Tagged s r.table tag r.since
  cache : ∀ d ∈ s.cache, Tagged s d.table d.tag d.since

theorem counted_new (hversion : table.version = 0) : Counted (new table) := by
  constructor <;> simp [new, version, versionOf, hversion]
  intro i a ha
  cases i with
  | zero => rfl
  | succ i => simp at ha

theorem versionOf_changeRule (s : SharedRoutingTable) (table rule i : Nat) (f : CompiledRule → CompiledRule) :
    (s.changeRule table rule f).versionOf i = s.versionOf i := by
  simp only [versionOf, changeRule, getElem?_modify]
  split <;> cases s.tables[i]? <;> rfl

theorem Counted.congr (h : Counted s) (hversions : ∀ i, next.versionOf i = s.versionOf i)
    (hcurrent : next.current = s.current) (hinstalls : next.installs = s.installs)
    (halone : next.swaps.length ≤ 1) (hswaps : ∀ swap ∈ next.swaps, swap.next = ofNat s.installs.length)
    (hresolutions : ∀ r ∈ next.resolutions, ∀ tag, r.tag = some tag → Tagged s r.table tag r.since)
    (hcache : ∀ d ∈ next.cache, Tagged s d.table d.tag d.since) : Counted next := by
  obtain ⟨hnonempty, hversion, hlive, hretired, -, -, -, -⟩ := h
  constructor <;> simpa only [version, hversions, hcurrent, hinstalls, Tagged]

/-- One more install: every version read before is behind by one. -/
theorem Tagged.grow {i tag since} (h : Tagged s i tag since) (hgrow : next.installs.length = s.installs.length + 1) :
    Tagged next i tag since := by
  obtain ⟨k, rfl, hk, -⟩ := h
  exact ⟨k, rfl, by omega, fun _ => by omega⟩

theorem Counted.tag {i : Nat} {tag : UInt64} (h : Counted s) (htag : s.versionOf i = some tag) :
    Tagged s i tag s.installs.length := by
  by_cases hlive : i = s.current
  · subst hlive
    have hpos := length_pos_of_ne_nil h.nonempty
    refine ⟨s.installs.length - 1, some.inj (htag.symm.trans h.live), by omega, ?_⟩
    rintro (hlt | hne)
    · omega
    · exact absurd rfl hne
  · obtain ⟨k, htag, hk⟩ := h.retired i tag htag hlive
    exact ⟨k, htag, by omega, fun _ => hk⟩

theorem Counted.grow (h : Counted s) (rules : List CompiledRule)
    (hinstalls : next.installs = s.installs ++ [(ofNat s.installs.length, rules)])
    (hlive : next.version = some (ofNat s.installs.length))
    (hretired : ∀ i version, next.versionOf i = some version → i ≠ next.current → s.versionOf i = some version)
    (hswaps : next.swaps = []) (hresolutions : next.resolutions = s.resolutions) (hcache : next.cache = s.cache) :
    Counted next := by
  have hgrow : next.installs.length = s.installs.length + 1 := by simp [hinstalls]
  refine ⟨by simp [hinstalls], ?_, by simpa [hgrow] using hlive, ?_, by simp [hswaps], by simp [hswaps], ?_, ?_⟩
  · rw [hgrow, range_succ, map_append, ← h.versions, hinstalls]
    simp
  · intro i version hversion hother
    obtain ⟨k, rfl, hk, -⟩ := h.tag (hretired i version hversion hother)
    exact ⟨k, rfl, by omega⟩
  · rw [hresolutions]
    exact fun r hr tag htag => (h.resolutions r hr tag htag).grow hgrow
  · rw [hcache]
    exact fun d hd => (h.cache d hd).grow hgrow

theorem ofNat_pred_add_one {n : Nat} (hn : 0 < n) : ofNat (n - 1) + 1 = ofNat n := by
  obtain ⟨m, rfl⟩ := Nat.exists_eq_succ_of_ne_zero (Nat.pos_iff_ne_zero.mp hn)
  simp [ofNat_add]

theorem Counted.step (h : Counted s) (hapart : Apart s event) (hstep : s.step event = some next) : Counted next := by
  have hpos := length_pos_of_ne_nil h.nonempty
  cases event with
  | storeCidrs i rule cidrs domains =>
    simp only [step, bind_eq_bind, bind_eq_some_iff] at hstep
    obtain ⟨t, -, r, -, hstep⟩ := hstep
    split at hstep <;> cases hstep
    exact h.congr (fun _ => versionOf_changeRule ..) rfl rfl h.alone h.swaps h.resolutions h.cache
  | storeDomains k =>
    simp only [step] at hstep
    split at hstep <;> cases hstep
    exact h.congr (fun _ => versionOf_changeRule ..) rfl rfl h.alone h.swaps h.resolutions h.cache
  | bump k =>
    simp only [step] at hstep
    obtain ⟨hnone, hlive⟩ := hapart
    split at hstep
    · rename_i i rule domains hreload
      split at hstep <;> cases hstep
      rename_i t ht
      have hi : i = s.current := by simpa [hreload] using hlive
      subst hi
      have hversion : t.version + 1 = ofNat s.installs.length := by
        have hcurrent := h.live
        rw [version, versionOf, ht, map_some, some.injEq] at hcurrent
        rw [hcurrent, ofNat_pred_add_one hpos]
      have hlt := (List.getElem?_eq_some_iff.mp ht).1
      refine h.grow t.rules (by simp [hversion]) ?_ ?_ hnone rfl rfl
      · simp [version, versionOf, hlt, hversion]
      · intro j version hj hother
        rwa [versionOf, getElem?_set_ne (Ne.symm hother)] at hj
    · cases hstep
  | readVersion new =>
    simp only [step, h.live, map_some, some.injEq] at hstep
    subst hstep
    have hnone : s.swaps = [] := hapart
    exact h.congr (fun _ => rfl) rfl rfl (by simp [hnone]) (by simp [hnone, ofNat_pred_add_one hpos])
      h.resolutions h.cache
  | stamp k =>
    obtain ⟨swap, hswap, rfl⟩ := map_eq_some_iff.mp hstep
    exact h.congr (fun _ => rfl) rfl rfl (by simpa using h.alone)
      (forall_mem_set h.swaps k (h.swaps swap (mem_of_getElem? hswap))) h.resolutions h.cache
  | publish k =>
    simp only [step] at hstep
    split at hstep
    · cases hstep
    · rename_i swap hswap
      split at hstep <;> cases hstep
      rename_i hstamped
      have hnext := h.swaps swap (mem_of_getElem? hswap)
      have hlast : s.swaps.eraseIdx k = [] := by
        have halone := h.alone
        have hk := (List.getElem?_eq_some_iff.mp hswap).1
        exact eq_nil_of_length_eq_zero (by rw [length_eraseIdx_of_lt hk]; omega)
      refine h.grow swap.table.rules (by rw [hnext]) ?_ ?_ hlast rfl rfl
      · simp [version, versionOf, hstamped, hnext]
      · intro j version hj hother
        have hlt : j < s.tables.length := by
          simp only [versionOf, getElem?_append, map_eq_some_iff] at hj
          grind
        rwa [versionOf, getElem?_append_left hlt] at hj
  | load target =>
    cases hstep
    refine h.congr (fun _ => rfl) rfl rfl h.alone h.swaps ?_ h.cache
    have hold := h.resolutions
    grind
  | tag k =>
    simp only [step] at hstep
    split at hstep
    · obtain ⟨version, hversion, rfl⟩ := map_eq_some_iff.mp hstep
      refine h.congr (fun _ => rfl) rfl rfl h.alone h.swaps (forall_mem_set h.resolutions k ?_) h.cache
      rintro tag ⟨⟩
      exact h.tag hversion
    · cases hstep
  | read k =>
    simp only [step] at hstep
    split at hstep
    · rename_i i target tag since rule hk
      obtain ⟨t, ht, hstep⟩ := map_eq_some_iff.mp hstep
      have hthis := h.resolutions _ (mem_of_getElem? hk) tag rfl
      have hresolutions := h.resolutions
      have hcache := h.cache
      have hrest : ∀ r ∈ s.resolutions.eraseIdx k, r ∈ s.resolutions := fun _ => mem_of_mem_eraseIdx
      split at hstep
      · split at hstep <;> subst hstep
        · exact h.congr (fun _ => rfl) rfl rfl h.alone h.swaps (by grind) (by grind)
        · refine h.congr (fun _ => rfl) rfl rfl h.alone h.swaps (forall_mem_set hresolutions k ?_) hcache
          rintro tag ⟨⟩
          exact hthis
      · subst hstep
        exact h.congr (fun _ => rfl) rfl rfl h.alone h.swaps (by grind) (by grind)
    · cases hstep

theorem installs_le_of_step (hstep : s.step event = some next) : s.installs.length ≤ next.installs.length := by
  cases event <;> simp only [step, bind_eq_bind] at hstep <;>
    grind [changeRule, map_eq_some_iff, bind_eq_some_iff]

theorem counted_of_run {events : List TableEvent} (hstart : Counted s) (hrun : Run step Apart s events next) :
    Counted next ∧ s.installs.length ≤ next.installs.length :=
  hrun.invariant (P := fun _ next => Counted next ∧ s.installs.length ≤ next.installs.length) ⟨hstart, Nat.le_refl _⟩
    fun _ _ _ _ h hapart hstep => ⟨h.1.step hapart hstep, Nat.le_trans h.2 (installs_le_of_step hstep)⟩

theorem toNat_ofNat {n : Nat} (h : n < 2 ^ 64) : (ofNat n).toNat = n := toNat_ofNat_of_lt' h

theorem ofNat_inj {m n : Nat} (hm : m < 2 ^ 64) (hn : n < 2 ^ 64) (h : ofNat m = ofNat n) : m = n := by
  have hnat := congrArg toNat h
  rwa [toNat_ofNat hm, toNat_ofNat hn] at hnat

/-- While swaps come one at a time and no watcher counts up a version during a swap or in a table that was
replaced, a decision whose version was read before an install was complete, or from a table that was
replaced, is not current; the versions of the installs differ, and the observed version does not go down. -/
theorem cached_decision_not_outlived (hversion : table.version = 0) {before after : List TableEvent}
    (hbefore : Run step Apart (new table) before s)
    (hafter : Run step Apart s after next) (hcount : next.installs.length ≤ 2 ^ 64) :
    (∀ d ∈ next.cache, d.since < next.installs.length ∨ d.table ≠ next.current → next.version ≠ some d.tag) ∧
      (next.installs.map Prod.fst).Nodup ∧ ∃ v w, s.version = some v ∧ next.version = some w ∧ v ≤ w := by
  have hs := (counted_of_run (counted_new hversion) hbefore).1
  obtain ⟨hnext, hle⟩ := counted_of_run hs hafter
  refine ⟨?_, ?_, _, _, hs.live, hnext.live, ?_⟩
  · intro d hd hold hcurrent
    obtain ⟨k, htag, -, hbehind⟩ := hnext.cache d hd
    rw [hnext.live, some.injEq, htag] at hcurrent
    have heq := ofNat_inj (by omega) (by omega) hcurrent
    omega
  · rw [hnext.versions]
    refine List.Nodup.map_on ?_ nodup_range
    intro m hm n hn heq
    exact ofNat_inj (by have := mem_range.mp hm; omega) (by have := mem_range.mp hn; omega) heq
  · rw [le_iff_toNat_le, toNat_ofNat (by omega), toNat_ofNat (by omega)]
    omega

/-- One rule with a domain file, and a table that drops everything. -/
def watched : RoutingTable := ⟨[⟨{}, {}, .drop, none, false⟩], .direct, none, 0⟩

def dropping : RoutingTable := ⟨[], .drop, none, 0⟩

def resolving : List TableEvent := [.load (.domain [] 0), .tag 0, .read 0, .read 0]

def reloading : List TableEvent := [.storeCidrs 0 0 {} {}, .storeDomains 0, .bump 0]

theorem cached_decision_not_outlived_swapped : ∃ s, Run step Apart (new watched)
        (resolving ++ reloading ++ [.readVersion dropping, .stamp 0, .publish 0]) s ∧
      s.cache.map CachedDecision.tag = [0] ∧ s.version = some 2 ∧ (s.installs.map Prod.fst).Nodup := by
  refine exists_run rfl fun hrun => ?_
  exact ⟨rfl, rfl, (cached_decision_not_outlived rfl hrun .refl (by decide)).2.1⟩

/-- A reload that falls between a swap's reading of the version and its publication: a decision of the old
table is current in the new one; two of them, and the observed version goes down. -/
theorem cached_decision_outlived : (∃ s, Run step (fun _ _ => True) (new watched)
        ([.readVersion dropping] ++ reloading ++ resolving ++ [.stamp 0, .publish 0]) s ∧
      s.current = 1 ∧ (∀ d ∈ s.cache, d.table = 0 ∧ s.version = some d.tag) ∧ s.cache ≠ []) ∧
    ∃ s next, Run step (fun _ _ => True) (new watched)
        ([.readVersion dropping] ++ reloading ++ reloading) s ∧
      Run step (fun _ _ => True) s [.stamp 0, .publish 0] next ∧ s.version = some 2 ∧ next.version = some 1 := by
  have hdecision : ∀ d ∈ [(⟨0, ⟨.direct, none⟩, 1, 2⟩ : CachedDecision)], d.table = 0 ∧
      some (1 : UInt64) = some d.tag := by simp
  exact ⟨⟨_, run_of_foldlM rfl, rfl, hdecision, cons_ne_nil _ _⟩, _, _, run_of_foldlM rfl, run_of_foldlM rfl, rfl, rfl⟩

end SharedRoutingTable

end OutlineProxy.Routing
