import Mathlib.Data.List.DropRight
import Mathlib.Logic.Function.Basic
import OutlineProxy.Lib.Runs
import OutlineProxy.Tun.QuicSniff

/-! What is remembered of the routes of UDP flows: verdicts to drop, and the names sniffed from QUIC Initials,
both under the version of the routing table. -/

namespace OutlineProxy.Tun

open Runs Function

/-- An entry is of no use under another version, or when it is as old as its lifetime. -/
def stale (ttl tableVersion since version now : Nat) : Bool := tableVersion ≠ version || ttl ≤ now - since

section Drops

structure DropEntry where
  tableVersion : Nat
  decidedAt : Nat

variable {κ : Type} [DecidableEq κ]

def isDropped (ttl : Nat) (entries : κ → Option DropEntry) (key : κ) (version now : Nat) :
    Bool × (κ → Option DropEntry) :=
  match entries key with
  | none => (false, entries)
  | some entry =>
    if stale ttl entry.tableVersion entry.decidedAt version now then (false, update entries key none)
    else (true, entries)

def rememberDrop (entries : κ → Option DropEntry) (key : κ) (version now : Nat) : κ → Option DropEntry :=
  update entries key (some ⟨version, now⟩)

/-- A datagram that is being handled, and the version and time at which it was resolved to a drop. -/
structure Handling (κ : Type) where
  key : κ
  dropped : Option (Nat × Nat) := none

/-- Beside each verdict to drop stand the version and the time it was resolved at, and beside each datagram
that was discarded by memory those of its check. -/
structure DropRouting (κ : Type) where
  version : Nat
  drops : κ → Bool
  entries : κ → Option DropEntry := fun _ => none
  calls : List (Handling κ) := []
  verdicts : List (κ × Nat × Nat) := []
  discarded : List (κ × Nat × Nat) := []

open DropRouting

inductive DropEvent (κ : Type) where
  | check (key : κ) (now : Nat)
  | resolve (k now : Nat)
  | remember (k now : Nat)
  | reload (version : Nat) (drops : κ → Bool)
  | evict (key : κ)

namespace DropRouting

def step (ttl : Nat) (s : DropRouting κ) : DropEvent κ → Option (DropRouting κ)
  | .check key now =>
    match isDropped ttl s.entries key s.version now with
    | (true, entries) => some { s with entries, discarded := s.discarded ++ [(key, s.version, now)] }
    | (false, entries) => some { s with entries, calls := s.calls ++ [⟨key, none⟩] }
  | .resolve k now =>
    match s.calls[k]? with
    | some ⟨key, none⟩ =>
      if s.drops key then
        some { s with
          calls := s.calls.set k ⟨key, some (s.version, now)⟩
          verdicts := s.verdicts ++ [(key, s.version, now)] }
      else some { s with calls := s.calls.eraseIdx k }
    | _ => none
  | .remember k now =>
    match s.calls[k]? with
    | some ⟨key, some _⟩ =>
      some { s with entries := rememberDrop s.entries key s.version now, calls := s.calls.eraseIdx k }
    | _ => none
  | .reload version drops => if s.version < version then some { s with version, drops } else none
  | .evict key => some { s with entries := update s.entries key none }

/-- Neither a reload nor time has come between the verdict and its being remembered. -/
def InForce (s : DropRouting κ) : DropEvent κ → Prop
  | .remember k now => (s.calls[k]?.all (·.dropped = some (s.version, now))) = true
  | _ => True

instance (s : DropRouting κ) : (event : DropEvent κ) → Decidable (InForce s event)
  | .remember .. => inferInstanceAs (Decidable (_ = _))
  | .check .. | .resolve .. | .reload .. | .evict _ => inferInstanceAs (Decidable True)

structure Justified (ttl : Nat) (s : DropRouting κ) : Prop where
  calls : ∀ call ∈ s.calls, ∀ verdict ∈ call.dropped, (call.key, verdict) ∈ s.verdicts
  entries : ∀ key entry, s.entries key = some entry → (key, entry.tableVersion, entry.decidedAt) ∈ s.verdicts
  discarded : ∀ key version now, (key, version, now) ∈ s.discarded →
    ∃ decidedAt, (key, version, decidedAt) ∈ s.verdicts ∧ now - decidedAt < ttl

variable {ttl : Nat} {s next : DropRouting κ} {event : DropEvent κ}

theorem Justified.step (h : Justified ttl s) (hforce : InForce s event) (hstep : s.step ttl event = some next) :
    Justified ttl next := by
  obtain ⟨hcalls, hentries, hdiscarded⟩ := h
  cases event with
  | check key now =>
    simp only [step, isDropped] at hstep
    cases hentry : s.entries key with
    | none =>
      simp only [hentry] at hstep
      cases hstep
      exact ⟨forall_mem_snoc hcalls nofun, hentries, hdiscarded⟩
    | some entry =>
      simp only [hentry] at hstep
      by_cases hstale : stale ttl entry.tableVersion entry.decidedAt s.version now
      · rw [if_pos hstale] at hstep
        cases hstep
        exact ⟨forall_mem_snoc hcalls nofun, by grind [update_apply], hdiscarded⟩
      · rw [if_neg hstale] at hstep
        cases hstep
        have hlive : entry.tableVersion = s.version ∧ now - entry.decidedAt < ttl := by simpa [stale] using hstale
        exact ⟨hcalls, hentries, by grind⟩
  | resolve k now =>
    simp only [step] at hstep
    split at hstep
    · rename_i key hcall
      by_cases hdrops : s.drops key
      · rw [if_pos hdrops] at hstep
        cases hstep
        exact ⟨forall_mem_set (by grind) k (by grind), by grind, by grind⟩
      · rw [if_neg hdrops] at hstep
        cases hstep
        exact ⟨fun call hcall => hcalls call (List.mem_of_mem_eraseIdx hcall), hentries, hdiscarded⟩
    · cases hstep
  | remember k now =>
    simp only [step] at hstep
    split at hstep <;> cases hstep
    rename_i key verdict hcall
    have hverdict : verdict = (s.version, now) := by simpa [InForce, hcall] using hforce
    have hmem := hcalls _ (List.mem_of_getElem? hcall) verdict rfl
    refine ⟨fun call hcall => hcalls call (List.mem_of_mem_eraseIdx hcall), ?_, hdiscarded⟩
    simp only [rememberDrop, update_apply]
    grind
  | reload version drops =>
    simp only [step] at hstep
    split at hstep <;> cases hstep
    exact ⟨hcalls, hentries, hdiscarded⟩
  | evict key =>
    cases hstep
    exact ⟨hcalls, by grind [update_apply], hdiscarded⟩

/-- As long as every verdict is remembered under the version and at the time that it was resolved at, what is
discarded by memory was resolved to a drop under the version in force, and within the lifetime. -/
theorem drop_memory_in_force {start : DropRouting κ} (hentries : start.entries = fun _ => none)
    (hcalls : start.calls = []) (hdiscarded : start.discarded = []) {events : List (DropEvent κ)}
    (hrun : Run (step ttl) InForce start events s) {key : κ} {version now : Nat}
    (hmem : (key, version, now) ∈ s.discarded) :
    ∃ decidedAt, (key, version, decidedAt) ∈ s.verdicts ∧ now - decidedAt < ttl :=
  (hrun.invariant (P := fun _ s => Justified ttl s) ⟨by simp [hcalls], by simp [hentries], by simp [hdiscarded]⟩
    fun _ _ _ _ h hforce hstep => h.step hforce hstep).discarded key version now hmem

def droppingAll : DropRouting Unit := { version := 1, drops := fun _ => true }

theorem drop_memory_in_force_repeated : ∃ s decidedAt,
      Run (step 10) InForce droppingAll [.check () 0, .resolve 0 1, .remember 0 1, .check () 5] s ∧
      ((), 1, decidedAt) ∈ s.verdicts ∧ 5 - decidedAt < 10 := by
  have hrun : Run (step 10) InForce droppingAll [.check () 0, .resolve 0 1, .remember 0 1, .check () 5] _ :=
    run_of_foldlM rfl
  obtain ⟨decidedAt, hverdict⟩ := drop_memory_in_force rfl rfl rfl hrun (List.mem_singleton_self ((), 1, 5))
  exact ⟨_, decidedAt, hrun, hverdict⟩

/-- A reload that stops dropping comes between the verdict and its being remembered: the next datagram is
discarded under the new version, under which nothing was resolved to a drop.  And a verdict that is
remembered late is honoured past its lifetime. -/
theorem drop_memory_outlives_reload : (∃ s, Run (step 10) (fun _ _ => True) droppingAll
        [.check () 0, .resolve 0 1, .reload 2 fun _ => false, .remember 0 1, .check () 5] s ∧
      s.discarded = [((), 2, 5)] ∧ s.verdicts = [((), 1, 1)]) ∧ ∃ s, Run (step 10) (fun _ _ => True) droppingAll
        [.check () 0, .resolve 0 1, .remember 0 4, .check () 12] s ∧
      s.discarded = [((), 1, 12)] ∧ s.verdicts = [((), 1, 1)] :=
  ⟨⟨_, run_of_foldlM rfl, rfl, rfl⟩, _, run_of_foldlM rfl, rfl, rfl⟩

end DropRouting

end Drops

section Names

def toAsciiLowercase (byte : UInt8) : UInt8 := if 65 ≤ byte ∧ byte ≤ 90 then byte + 32 else byte

def hostMatchesAny (host : Bytes) (list : List Bytes) : Bool :=
  let host := host.rdropWhile (· == 46)
  list.any fun suffix =>
    if host.length = suffix.length then host.map toAsciiLowercase == suffix.map toAsciiLowercase
    else if suffix.length < host.length then
      let start := host.length - suffix.length
      host[start - 1]? == some 46 && (host.drop start).map toAsciiLowercase == suffix.map toAsciiLowercase
    else false

def hostIsExcluded (host : Bytes) (exclude : List Bytes) : Bool := hostMatchesAny host exclude

def hostIsIncluded (host : Bytes) (include_ : List Bytes) : Bool := include_.isEmpty || hostMatchesAny host include_

def shouldOverrideHost (host : Bytes) (include_ exclude : List Bytes) : Bool :=
  hostIsIncluded host include_ && !hostIsExcluded host exclude

structure SniEntry where
  host : Bytes
  tableVersion : Nat
  touchedAt : Nat

structure SniffConfig where
  sniffQuic : Bool
  routeBySni : Bool
  include_ : List Bytes
  exclude : List Bytes
  ttl : Nat
  primitives : SniffPrimitives

variable {κ : Type} [DecidableEq κ] (config : SniffConfig)

namespace SniffConfig

def sniffQuicOverride (payload : Bytes) : Option Bytes :=
  if !config.sniffQuic then none
  else match sniffQuicSni config.primitives payload with
    | .found host => if shouldOverrideHost host config.include_ config.exclude then some host else none
    | .incomplete | .notMatched => none

variable (entries : κ → Option SniEntry)

def cacheRecall (key : κ) (version now : Nat) : Option Bytes × (κ → Option SniEntry) :=
  match entries key with
  | none => (none, entries)
  | some entry =>
    if stale config.ttl entry.tableVersion entry.touchedAt version now then (none, update entries key none)
    else (some entry.host, update entries key (some { entry with touchedAt := now }))

def sniffedOrRememberedDomain (key : κ) (payload : Bytes) (version now : Nat) :
    Option Bytes × (κ → Option SniEntry) :=
  match config.sniffQuicOverride payload with
  | some host => (some host, update entries key (some ⟨host, version, now⟩))
  | none => config.cacheRecall entries key version now

/-- The name a new flow is routed by and the one it is framed by; without one it goes by the address. -/
def routeAndFrame (key : κ) (payload : Bytes) (version now : Nat) :
    Option Bytes × Option Bytes :=
  if config.routeBySni then
    let name := (config.sniffedOrRememberedDomain entries key payload version now).1
    (name, name)
  else (none, config.sniffQuicOverride payload)

def Live (key : κ) (version now : Nat) (host : Bytes) : Prop :=
  ∃ entry, entries key = some entry ∧ entry.host = host ∧ entry.tableVersion = version ∧
    now - entry.touchedAt < config.ttl

/-- The datagram carries a whole ClientHello with the name, or the name is recovered from it. -/
def Shows (payload host : Bytes) : Prop :=
  CarriesHello config.primitives payload host ∨ sniffQuicSni config.primitives payload = .found host

/-- The flow goes by the name its datagram shows or by its address, or by what is remembered where it shows none. -/
def Own (key : κ) (payload : Bytes) (version now : Nat) (name : Option Bytes) : Prop :=
  (∀ host, config.Shows payload host → name = some host ∨ name = none) ∧
    ∀ host, name = some host → config.Shows payload host ∨
      (∀ own, ¬ config.Shows payload own) ∧ config.Live entries key version now host

/-- A name that is shown but not used meets no live memory of another name. -/
def Unmixed (key : κ) (payload : Bytes) (version now : Nat) : Prop :=
  config.routeBySni = true → ∀ host, config.Shows payload host →
    config.sniffQuicOverride payload = some host ∨ ∀ other, config.Live entries key version now other → other = host

variable {config} {entries : κ → Option SniEntry} {key : κ} {payload : Bytes} {version now : Nat} {host : Bytes}

theorem found_of_override (h : config.sniffQuicOverride payload = some host) :
    sniffQuicSni config.primitives payload = .found host := by
  rw [sniffQuicOverride] at h
  grind

theorem Shows.eq_of_override {name : Bytes} (h : config.Shows payload host)
    (hover : config.sniffQuicOverride payload = some name) : name = host := by
  rcases h with hcarries | hfound
  · exact eq_of_found hcarries (found_of_override hover)
  · cases hfound.symm.trans (found_of_override hover)
    rfl

theorem recall_eq_some_iff :
    (config.cacheRecall entries key version now).1 = some host ↔ config.Live entries key version now host := by
  rw [cacheRecall, Live]
  cases entries key with
  | none => simp
  | some entry =>
    have hlive : stale config.ttl entry.tableVersion entry.touchedAt version now = false ↔
        entry.tableVersion = version ∧ now - entry.touchedAt < config.ttl := by simp [stale]
    grind

omit [DecidableEq κ] in
theorem own_override : config.Own entries key payload version now (config.sniffQuicOverride payload) := by
  refine ⟨fun host hshows => ?_, fun host hname => .inl (.inr (found_of_override hname))⟩
  cases hname : config.sniffQuicOverride payload with
  | none => exact .inr rfl
  | some name => exact .inl (congrArg some (hshows.eq_of_override hname))

theorem own_recall_iff : config.Own entries key payload version now (config.cacheRecall entries key version now).1 ↔
    ∀ host, config.Shows payload host → ∀ other, config.Live entries key version now other → other = host := by
  simp only [← recall_eq_some_iff]
  constructor
  · intro hown host hshows other hname
    rcases hown.1 host hshows with h | h <;> rw [h] at hname <;> cases hname
    rfl
  · intro hunmixed
    refine ⟨fun host hshows => ?_, fun host hname => ?_⟩
    · cases hname : (config.cacheRecall entries key version now).1 with
      | none => exact .inr rfl
      | some name => exact .inl (congrArg some (hunmixed host hshows name hname))
    · by_cases hown : ∃ own, config.Shows payload own
      · obtain ⟨own, hshows⟩ := hown
        cases hunmixed own hshows host hname
        exact .inl hshows
      · exact .inr ⟨not_exists.mp hown, recall_eq_some_iff.mp hname⟩

def plain : SniffPrimitives where
  deriveInitialSecrets _ _ := ⟨[], .replicate 12 0, []⟩
  headerProtectionMask _ _ := .replicate 16 0
  decrypt _ _ _ ciphertext := some (ciphertext.take (ciphertext.length - 16))
  isIpAddr _ := false

def helloOf (host : Bytes) : ClientHello := ⟨.replicate 34 0, [], [], [], [], host, [], []⟩

/-- An Initial with one CRYPTO frame, whose ciphertext is the plaintext and a tag. -/
def initialOf (host : Bytes) : Bytes :=
  let hello := (helloOf host).bytes
  [0xc0, 0, 0, 0, 1, 0, 0, 0, 0x40, UInt8.ofNat (20 + hello.length), 0, 6, 0, UInt8.ofNat hello.length] ++ hello ++
    .replicate 16 0

theorem carriesHello_initialOf (hpieces : carriedPieces plain (initialOf host) = [(0, (helloOf host).bytes)])
    (hwell : (helloOf host).WellFormed) : CarriesHello plain (initialOf host) host :=
  ⟨helloOf host, [], hwell, rfl, by simp [hpieces], fun i hi => by simpa [hpieces] using hi⟩

end SniffConfig

end Names

end OutlineProxy.Tun
