import OutlineProxy.Routing.Cidr

/-! Domain suffixes of a rule, matched at label boundaries. -/

namespace OutlineProxy.Routing

open List

structure DomainSet where
  suffixes : List Str := []
  matchAll : Bool := false

open DomainSet

def trim (std : StdText) (s : Str) : Str :=
  ((s.dropWhile std.isWhitespace).reverse.dropWhile std.isWhitespace).reverse

def stripStart (start s : Str) : Str := if start.isPrefixOf s then s.drop start.length else s

def stripEnd (ending s : Str) : Str := if ending.isSuffixOf s then s.take (s.length - ending.length) else s

def normalizeHost (s : Str) : Str :=
  let s := stripStart ['*', '.'] s
  let s := stripStart ['.'] s
  let s := stripEnd ['.'] s
  if s.any Char.isUpper then s.map Char.toLower else s

def DomainSet.push (std : StdText) (set : DomainSet) (raw : Str) : Except Error DomainSet :=
  if trim std raw = ['*'] then .ok { set with matchAll := true }
  else
    let normalized := normalizeHost (trim std raw)
    if normalized.isEmpty then
      .error ["invalid domain pattern " ++ std.debug raw ++ " (want a suffix like \"example.com\" or \"*\")"]
    else .ok { set with suffixes := set.suffixes ++ [normalized] }

def DomainSet.parse (std : StdText) (patterns : List Str) : Except Error DomainSet :=
  patterns.foldlM (push std) {}

def walk (suffixes : List Str) : Nat → Str → Bool
  | 0, _ => false
  | fuel + 1, suffix =>
    if suffixes.contains suffix then true
    else
      match splitOnce '.' suffix with
      | some (_, rest) => walk suffixes fuel rest
      | none => false

def DomainSet.containsNormalizedDomain (set : DomainSet) (host : Str) : Bool :=
  if set.matchAll then true
  else if set.suffixes.isEmpty then false
  else walk set.suffixes (host.length + 1) host

def DomainSet.isEmpty (set : DomainSet) : Bool := !set.matchAll && set.suffixes.isEmpty

def AtBoundary (host s : Str) : Prop := s = host ∨ '.' :: s <:+ host

section Labels

variable {c : Char} {l a b host s : Str}

theorem not_mem_of_splitOnce_none (h : splitOnce c l = none) : c ∉ l := by
  induction l with
  | nil => exact not_mem_nil
  | cons x l ih => grind [splitOnce, Option.map_eq_none_iff, not_mem_cons_of_ne_of_not_mem]

theorem eq_of_splitOnce_some (h : splitOnce c l = some (a, b)) : l = a ++ c :: b ∧ c ∉ a := by
  induction l generalizing a with
  | nil => cases h
  | cons x l ih =>
    rw [splitOnce] at h
    by_cases hx : x = c
    · rw [if_pos hx] at h
      cases h
      exact ⟨by rw [hx, nil_append], not_mem_nil⟩
    · grind [Option.map_eq_some_iff, not_mem_cons_of_ne_of_not_mem]

theorem suffix_after_label (hnot : '.' ∉ a) : '.' :: s <:+ a ++ '.' :: b ↔ AtBoundary b s := by
  induction a with
  | nil =>
    rw [nil_append, suffix_cons_iff, cons.injEq]
    simp [AtBoundary]
  | cons x a ih => grind [mem_cons_self, suffix_cons_iff, mem_cons_of_mem]

theorem atBoundary_of_no_dot (hnot : '.' ∉ host) : AtBoundary host s ↔ s = host := by
  constructor
  · rintro (heq | hsuffix)
    · exact heq
    · exact absurd (hsuffix.subset mem_cons_self) hnot
  · exact Or.inl

theorem walk_iff {suffixes : List Str} {fuel : Nat} (hfuel : host.length < fuel) :
    walk suffixes fuel host = true ↔ ∃ s ∈ suffixes, AtBoundary host s := by
  induction fuel generalizing host with
  | zero => omega
  | succ fuel ih =>
    rw [walk]
    by_cases hhost : host ∈ suffixes
    · rw [if_pos (contains_iff_mem.mpr hhost)]
      exact iff_of_true rfl ⟨host, hhost, Or.inl rfl⟩
    · rw [if_neg (fun hcontains => hhost (contains_iff_mem.mp hcontains))]
      have hne : ∀ s ∈ suffixes, s ≠ host := fun s hs heq => hhost (heq ▸ hs)
      cases hsplit : splitOnce '.' host with
      | none => grind [Bool.false_eq_true, atBoundary_of_no_dot, not_mem_of_splitOnce_none]
      | some parts =>
        obtain ⟨a, rest⟩ := parts
        obtain ⟨hl, hnot⟩ := eq_of_splitOnce_some hsplit
        have hshort : rest.length < fuel := by
          rw [hl, length_append, length_cons] at hfuel
          omega
        refine (ih hshort).trans ?_
        constructor
        · rintro ⟨s, hs, hat⟩
          exact ⟨s, hs, Or.inr (hl ▸ (suffix_after_label hnot).mpr hat)⟩
        · rintro ⟨s, hs, heq | hsuffix⟩
          · exact absurd heq (hne s hs)
          · rw [hl] at hsuffix
            exact ⟨s, hs, (suffix_after_label hnot).mp hsuffix⟩

end Labels

section Membership

variable {std : StdText} {patterns : List Str} {set result : DomainSet}

theorem containsNormalizedDomain_iff (set : DomainSet) (host : Str) :
    set.containsNormalizedDomain host = true ↔ set.matchAll = true ∨ ∃ s ∈ set.suffixes, AtBoundary host s := by
  grind [containsNormalizedDomain, walk_iff]

def PatternMatches (std : StdText) (host raw : Str) : Prop :=
  trim std raw = ['*'] ∨ AtBoundary host (normalizeHost (trim std raw))

theorem containsNormalizedDomain_push {raw host : Str} (h : set.push std raw = .ok result) :
    result.containsNormalizedDomain host = true ↔
      set.containsNormalizedDomain host = true ∨ PatternMatches std host raw := by
  rw [push] at h
  rw [containsNormalizedDomain_iff, containsNormalizedDomain_iff, PatternMatches]
  by_cases hstar : trim std raw = ['*']
  · rw [if_pos hstar] at h
    cases h
    simp [hstar]
  · grind [mem_singleton]

theorem foldlM_push_domain {host : Str} (h : patterns.foldlM (push std) set = .ok result) :
    result.containsNormalizedDomain host = true ↔
      set.containsNormalizedDomain host = true ∨ ∃ raw ∈ patterns, PatternMatches std host raw := by
  induction patterns generalizing set with
  | nil =>
    cases h
    simp
  | cons raw patterns ih =>
    rw [foldlM_cons] at h
    cases hpush : set.push std raw with
    | error error =>
      rw [hpush] at h
      cases h
    | ok next =>
      rw [hpush] at h
      rw [ih h, containsNormalizedDomain_push hpush, or_assoc]
      simp

theorem containsNormalizedDomain_parse (h : parse std patterns = .ok set) (host : Str) :
    set.containsNormalizedDomain host = true ↔ ∃ raw ∈ patterns, PatternMatches std host raw := by
  refine (foldlM_push_domain h).trans ?_
  simp [containsNormalizedDomain]

end Membership

end OutlineProxy.Routing
