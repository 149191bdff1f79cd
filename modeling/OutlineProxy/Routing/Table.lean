import OutlineProxy.Routing.Domain

/-! The routing table: rules compiled from the configuration, the first match wins. -/

namespace OutlineProxy.Routing

inductive RouteTarget where
  | direct
  | drop
  | group (name : Str)
deriving DecidableEq

structure RouteRule (Path : Type) where
  inlinePrefixes : List Str := []
  files : List Path := []
  inlineDomains : List Str := []
  domainFiles : List Path := []
  target : RouteTarget
  fallback : Option RouteTarget := none
  invert : Bool := false

structure RoutingTableConfig (Path : Type) where
  rules : List (RouteRule Path)
  defaultTarget : RouteTarget
  defaultFallback : Option RouteTarget := none

structure CompiledRule where
  cidrs : CidrSet
  domains : DomainSet
  target : RouteTarget
  fallback : Option RouteTarget
  invert : Bool

structure RoutingTable where
  rules : List CompiledRule
  defaultTarget : RouteTarget
  defaultFallback : Option RouteTarget
  version : UInt64 := 0

structure RouteDecision where
  primary : RouteTarget
  fallback : Option RouteTarget
deriving DecidableEq

structure FileSystem (Path : Type) where
  readToString : Path → Except Error Str
  display : Path → String

def withContext {α : Type} (context : String) : Except Error α → Except Error α
  | .ok a => .ok a
  | .error error => .error (context :: error)

section Compile

variable {Path : Type} (std : StdText) (fs : FileSystem Path)

def readLinesFromFile (kind : String) (path : Path) : Except Error (List Str) := do
  let content ← withContext ("failed to read " ++ kind ++ " file " ++ fs.display path) (fs.readToString path)
  return ((std.lines content).map (trim std)).filter fun line => !line.isEmpty && line.head? != some '#'

def readPrefixesFromFile (path : Path) : Except Error (List Str) := readLinesFromFile std fs "prefix" path

def readDomainsFromFile (path : Path) : Except Error (List Str) := readLinesFromFile std fs "domain" path

def gather (kind : String) (read : Path → Except Error (List Str)) (inline : List Str) (files : List Path) :
    Except Error (List Str) :=
  files.foldlM (fun entries file => do
    let fromFile ← withContext ("failed to read route " ++ kind ++ " file " ++ fs.display file) (read file)
    return entries ++ fromFile) inline

variable (rule : RouteRule Path)

def rulePrefixes : Except Error (List Str) :=
  gather fs "prefix" (readPrefixesFromFile std fs) rule.inlinePrefixes rule.files

def rulePatterns : Except Error (List Str) :=
  gather fs "domain" (readDomainsFromFile std fs) rule.inlineDomains rule.domainFiles

def buildCidrSet : Except Error CidrSet := do
  let prefixes ← rulePrefixes std fs rule
  CidrSet.parse std prefixes

def buildDomainSet : Except Error DomainSet := do
  let patterns ← rulePatterns std fs rule
  DomainSet.parse std patterns

def compileRule (index : Nat) (rule : RouteRule Path) : Except Error CompiledRule := do
  let cidrs ← withContext ("failed to build route " ++ toString (index + 1) ++ " CIDR set") (buildCidrSet std fs rule)
  let domains ←
    withContext ("failed to build route " ++ toString (index + 1) ++ " domain set") (buildDomainSet std fs rule)
  if rule.invert && cidrs.isEmpty then
    .error ["route " ++ toString (index + 1) ++ " has `invert = true` but no prefixes; " ++
      "an inverted empty set would match every address"]
  else if rule.invert && !domains.isEmpty then
    .error ["route " ++ toString (index + 1) ++ " has `invert = true` together with domains; " ++
      "`invert` only applies to CIDR prefixes — put the domains in a separate rule"]
  else .ok { cidrs, domains, target := rule.target, fallback := rule.fallback, invert := rule.invert }

def compileRules : Nat → List (RouteRule Path) → Except Error (List CompiledRule)
  | _, [] => .ok []
  | index, rule :: rules => do
    let compiled ← compileRule std fs index rule
    let rest ← compileRules (index + 1) rules
    return compiled :: rest

def compile (config : RoutingTableConfig Path) : Except Error RoutingTable := do
  let rules ← compileRules std fs 0 config.rules
  return { rules, defaultTarget := config.defaultTarget, defaultFallback := config.defaultFallback }

end Compile

def matchRules (p : CompiledRule → Bool) : List CompiledRule → Option RouteDecision
  | [] => none
  | rule :: rules =>
    if p rule then some { primary := rule.target, fallback := rule.fallback } else matchRules p rules

namespace RoutingTable

variable (table : RoutingTable)

def matchDomainRules (host : Str) : Option RouteDecision :=
  let host := normalizeHost host
  matchRules (fun rule => rule.domains.containsNormalizedDomain host) table.rules

def matchIpRules (ip : TargetAddr) : Option RouteDecision :=
  matchRules (fun rule =>
    let inSet := rule.cidrs.contains ip
    if rule.invert then !inSet else inSet) table.rules

def defaultDecision : RouteDecision := { primary := table.defaultTarget, fallback := table.defaultFallback }

def resolveVersioned (target : TargetAddr) : RouteDecision × UInt64 :=
  let decision := match target with
    | .domain host _ => table.matchDomainRules host
    | _ => table.matchIpRules target
  (decision.getD table.defaultDecision, table.version)

def resolve (target : TargetAddr) : RouteDecision := (table.resolveVersioned target).1

def resolveDomainOrIpVersioned (domain : Option Str) (ip : Option TargetAddr) : RouteDecision × UInt64 :=
  match domain.bind table.matchDomainRules with
  | some decision => (decision, table.version)
  | none =>
    match ip.bind table.matchIpRules with
    | some decision => (decision, table.version)
    | none => (table.defaultDecision, table.version)

def resolveDomainOrIp (domain : Option Str) (ip : Option TargetAddr) : RouteDecision :=
  (table.resolveDomainOrIpVersioned domain ip).1

end RoutingTable

section Declared

variable {Path : Type} (std : StdText) (fs : FileSystem Path)

/-- One of the rule's patterns is the catch-all, the normalised name or one of its parents. -/
def DomainRule (host : Str) (rule : RouteRule Path) : Prop :=
  ∃ patterns, rulePatterns std fs rule = .ok patterns ∧ ∃ raw ∈ patterns, PatternMatches std (normalizeHost host) raw

def InPrefixes (ip : IpAddr) (rule : RouteRule Path) : Prop :=
  ∃ prefixes, rulePrefixes std fs rule = .ok prefixes ∧ ∃ s ∈ prefixes, ∃ p, parsePrefix std s = .ok p ∧ InPrefix ip p

def AddressRule (ip : IpAddr) (rule : RouteRule Path) : Prop :=
  if rule.invert then ¬ InPrefixes std fs ip rule else InPrefixes std fs ip rule

def RouteRule.decision (rule : RouteRule Path) : RouteDecision := { primary := rule.target, fallback := rule.fallback }

open Classical in
/-- The decision the configuration declares: the earliest rule for the name, else the earliest rule for the
address, else the default. -/
noncomputable def declared (config : RoutingTableConfig Path) (domain : Option Str) (ip : Option IpAddr) :
    RouteDecision :=
  let byDomain := domain.bind fun host => config.rules.find? fun rule => decide (DomainRule std fs host rule)
  let byAddress := ip.bind fun ip => config.rules.find? fun rule => decide (AddressRule std fs ip rule)
  ((byDomain.or byAddress).map RouteRule.decision).getD
    { primary := config.defaultTarget, fallback := config.defaultFallback }

end Declared

def TargetAddr.name : TargetAddr → Option Str
  | .domain host _ => some host
  | _ => none

def TargetAddr.ip : TargetAddr → Option IpAddr
  | .ipV4 bits _ => some (.v4 bits)
  | .ipV6 bits _ => some (.v6 bits)
  | .domain _ _ => none

def TargetAddr.port : TargetAddr → UInt16
  | .ipV4 _ port | .ipV6 _ port | .domain _ port => port

section Refinement

variable {Path : Type} {std : StdText} {fs : FileSystem Path} {config : RoutingTableConfig Path}
  {rule : RouteRule Path} {rules : List (RouteRule Path)} {compiled : CompiledRule} {list : List CompiledRule}
  {table : RoutingTable}

theorem ok_of_bind_ok {α β : Type} {x : Except Error α} {f : α → Except Error β} {b : β} (h : x >>= f = .ok b) :
    ∃ a, x = .ok a ∧ f a = .ok b := by
  cases x with
  | error error => cases h
  | ok a => exact ⟨a, rfl, h⟩

theorem ok_of_withContext_ok {α : Type} {context : String} {x : Except Error α} {a : α}
    (h : withContext context x = .ok a) : x = .ok a := by
  cases x with
  | error error => cases h
  | ok b => exact h

structure Compiles (std : StdText) (fs : FileSystem Path) (rule : RouteRule Path) (compiled : CompiledRule) : Prop where
  cidrs : buildCidrSet std fs rule = .ok compiled.cidrs
  domains : buildDomainSet std fs rule = .ok compiled.domains
  target : compiled.target = rule.target
  fallback : compiled.fallback = rule.fallback
  invert : compiled.invert = rule.invert

theorem compiles_of_compileRule {index : Nat} (h : compileRule std fs index rule = .ok compiled) :
    Compiles std fs rule compiled := by
  obtain ⟨cidrs, hcidrs, h⟩ := ok_of_bind_ok h
  obtain ⟨domains, hdomains, h⟩ := ok_of_bind_ok h
  split at h
  · cases h
  · split at h
    · cases h
    · cases h
      exact ⟨ok_of_withContext_ok hcidrs, ok_of_withContext_ok hdomains, rfl, rfl, rfl⟩

theorem compiles_of_compileRules {index : Nat} (h : compileRules std fs index rules = .ok list) :
    List.Forall₂ (Compiles std fs) rules list := by
  induction rules generalizing index list with
  | nil =>
    cases h
    exact List.Forall₂.nil
  | cons rule rules ih =>
    obtain ⟨compiled, hcompiled, h⟩ := ok_of_bind_ok h
    obtain ⟨rest, hrest, h⟩ := ok_of_bind_ok h
    cases h
    exact List.Forall₂.cons (compiles_of_compileRule hcompiled) (ih hrest)

theorem Compiles.domain_iff (h : Compiles std fs rule compiled) (host : Str) :
    compiled.domains.containsNormalizedDomain (normalizeHost host) = true ↔ DomainRule std fs host rule := by
  obtain ⟨patterns, hpatterns, hparse⟩ := ok_of_bind_ok h.domains
  rw [containsNormalizedDomain_parse hparse, DomainRule]
  constructor
  · exact fun hmatch => ⟨patterns, hpatterns, hmatch⟩
  · rintro ⟨others, hothers, hmatch⟩
    cases hpatterns.symm.trans hothers
    exact hmatch

theorem Compiles.inPrefixes_iff (h : Compiles std fs rule compiled) (ip : IpAddr) (port : UInt16) :
    compiled.cidrs.contains (ip.target port) = true ↔ InPrefixes std fs ip rule := by
  obtain ⟨prefixes, hprefixes, hparse⟩ := ok_of_bind_ok h.cidrs
  rw [contains_parse hparse, InPrefixes]
  constructor
  · exact fun hmem => ⟨prefixes, hprefixes, hmem⟩
  · rintro ⟨others, hothers, hmem⟩
    cases hprefixes.symm.trans hothers
    exact hmem

theorem Compiles.address_iff (h : Compiles std fs rule compiled) (ip : IpAddr) (port : UInt16) :
    (if compiled.invert then !compiled.cidrs.contains (ip.target port) else compiled.cidrs.contains (ip.target port))
      = true ↔ AddressRule std fs ip rule := by
  rw [AddressRule, h.invert, ← h.inPrefixes_iff ip port]
  cases rule.invert <;> simp

open Classical in
theorem matchRules_eq {p : CompiledRule → Bool} {P : RouteRule Path → Prop}
    (hrules : List.Forall₂ (Compiles std fs) rules list)
    (hp : ∀ rule compiled, Compiles std fs rule compiled → (p compiled = true ↔ P rule)) :
    matchRules p list = (rules.find? fun rule => decide (P rule)).map RouteRule.decision := by
  induction hrules with
  | nil => rfl
  | @cons rule compiled rules list hrule hrest ih =>
    rw [matchRules]
    by_cases hmatch : P rule
    · rw [if_pos ((hp rule compiled hrule).mpr hmatch), List.find?_cons_of_pos (by simpa using hmatch), hrule.target,
        hrule.fallback]
      rfl
    · grind [List.find?_cons_of_neg]

theorem compile_eq_ok (h : compile std fs config = .ok table) :
    List.Forall₂ (Compiles std fs) config.rules table.rules ∧
      table.defaultDecision = { primary := config.defaultTarget, fallback := config.defaultFallback } := by
  obtain ⟨list, hlist, h⟩ := ok_of_bind_ok h
  cases h
  exact ⟨compiles_of_compileRules hlist, rfl⟩

theorem resolveDomainOrIp_eq (table : RoutingTable) (domain : Option Str) (ip : Option TargetAddr) :
    table.resolveDomainOrIp domain ip =
      ((domain.bind table.matchDomainRules).or (ip.bind table.matchIpRules)).getD table.defaultDecision := by
  grind [RoutingTable.resolveDomainOrIp, RoutingTable.resolveDomainOrIpVersioned]

theorem resolve_eq_resolveDomainOrIp (table : RoutingTable) (target : TargetAddr) :
    table.resolve target = table.resolveDomainOrIp target.name (target.ip.map (IpAddr.target target.port)) := by
  rw [resolveDomainOrIp_eq]
  cases target with
  | ipV4 bits port => rfl
  | ipV6 bits port => rfl
  | domain host port =>
    rw [TargetAddr.ip, Option.map_none, Option.bind_none, Option.or_none]
    rfl

theorem resolveDomainOrIp_eq_declared (h : compile std fs config = .ok table) (domain : Option Str)
    (ip : Option IpAddr) (port : UInt16) :
    table.resolveDomainOrIp domain (ip.map (IpAddr.target port)) = declared std fs config domain ip := by
  obtain ⟨hrules, hdefault⟩ := compile_eq_ok h
  have hdomain (host : Str) : table.matchDomainRules host = _ :=
    matchRules_eq hrules fun _ _ hrule => hrule.domain_iff host
  have haddress (ip : IpAddr) : table.matchIpRules (ip.target port) = _ :=
    matchRules_eq hrules fun _ _ hrule => hrule.address_iff ip port
  rw [resolveDomainOrIp_eq, declared, hdefault, Option.map_or]
  congr 2
  · cases domain with
    | none => rfl
    | some host => exact hdomain host
  · cases ip with
    | none => rfl
    | some ip => exact haddress ip

theorem contains_merge_map {w : Nat} (prefixes : List (BitVec w × Nat)) (ip : BitVec w) :
    Ranges.contains (Ranges.merge (maxOf w) (prefixes.map fun p => cidrToRange p.1 p.2)) ip.toNat = true ↔
      ∃ p ∈ prefixes, ip >>> (w - p.2) = p.1 >>> (w - p.2) := by
  have hranges : ∀ range, range ∈ prefixes.map (fun p => cidrToRange p.1 p.2) ↔
      ∃ addr len, (addr, len) ∈ prefixes ∧ cidrToRange addr len = range := by grind
  rw [contains_merge_cidr ip hranges]
  constructor
  · rintro ⟨addr, len, hp, hbits⟩
    exact ⟨(addr, len), hp, hbits⟩
  · rintro ⟨p, hp, hbits⟩
    exact ⟨p.1, p.2, hp, hbits⟩

/-- The compiled table answers every query as the configuration declares, and merged ranges hold the addresses of
their prefixes. -/
theorem routing_first_match (h : compile std fs config = .ok table) : (∀ domain (ip : Option IpAddr) port,
      table.resolveDomainOrIp domain (ip.map (IpAddr.target port)) = declared std fs config domain ip) ∧
    (∀ target : TargetAddr, table.resolve target = declared std fs config target.name target.ip) ∧
    (∀ (prefixes : List (BitVec 32 × Nat)) ip,
      containsV4 (mergeV4 (prefixes.map fun p => cidrToRangeV4 p.1 p.2)) ip = true ↔
        ∃ p ∈ prefixes, ip >>> (32 - p.2) = p.1 >>> (32 - p.2)) ∧ ∀ (prefixes : List (BitVec 128 × Nat)) ip,
      containsV6 (mergeV6 (prefixes.map fun p => cidrToRangeV6 p.1 p.2)) ip = true ↔
        ∃ p ∈ prefixes, ip >>> (128 - p.2) = p.1 >>> (128 - p.2) := by
  refine ⟨resolveDomainOrIp_eq_declared h, fun target => ?_, contains_merge_map, contains_merge_map⟩
  rw [resolve_eq_resolveDomainOrIp]
  exact resolveDomainOrIp_eq_declared h _ _ _

end Refinement

def plainText : StdText where
  parseIpAddr s := if s = "10.0.0.0".toList then some (.v4 0x0a000000) else none
  parseU8 s := if s = ['8'] then some 8 else none
  isWhitespace c := c = ' '
  lines s := [s]
  debug s := String.ofList s

def noFiles : FileSystem Unit where
  readToString _ := .error []
  display _ := ""

def invertedConfig : RoutingTableConfig Unit where
  rules := [{ inlineDomains := ["*.Example.com".toList], target := .drop },
    { inlinePrefixes := ["10.0.0.0/8".toList], target := .direct, invert := true }]
  defaultTarget := .group "main".toList

theorem routing_first_match_inverted : ∃ table, compile plainText noFiles invertedConfig = .ok table ∧
    table.resolveDomainOrIp (some "a.EXAMPLE.com.".toList) (some (.ipV4 0x0a010203 443)) = ⟨.drop, none⟩ ∧
    table.resolveDomainOrIp (some "notexample.com".toList) (some (.ipV4 0x0b010203 443)) = ⟨.direct, none⟩ ∧
    table.resolveDomainOrIp none (some (.ipV4 0x0a010203 443)) =
      declared plainText noFiles invertedConfig none (some (.v4 0x0a010203)) :=
  ⟨_, rfl, by decide, by decide, (routing_first_match rfl).1 none (some (.v4 0x0a010203)) 443⟩

end OutlineProxy.Routing
