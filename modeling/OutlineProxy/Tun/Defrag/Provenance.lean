import Mathlib.Data.Set.List
import OutlineProxy.Tun.Defrag.Families

/-! Where built packets come from, and what a conflicting fragment discards. -/

namespace OutlineProxy.Tun.Defrag

open Runs

inductive Event where
  | push (now : Nat) (packet : Bytes)
  | maintain (now : Nat)

def step (d : TunDefragmenter) : Event → Option TunDefragmenter
  | .push now packet => some (d.push now packet).2
  | .maintain now => some (d.runMaintenanceAt now)

def Event.packet : Event → Option Bytes
  | .push _ packet => some packet
  | .maintain _ => none

def pushed (events : List Event) : List Bytes := events.filterMap Event.packet

section Sources

variable {Key Carried Head : Type} {heads : Heads Carried Head} {arrived more : Fragment Key Carried → Prop}
  {fragment : Fragment Key Carried} {set next : FragmentSet Head} {head : Head}

inductive HeadFrom (heads : Heads Carried Head) (arrived : Fragment Key Carried → Prop) : Head → Prop
  | start {fragment : Fragment Key Carried} : arrived fragment → HeadFrom heads arrived (heads.start fragment.carried)
  | join {head next : Head} {fragment : Fragment Key Carried} : HeadFrom heads arrived head → arrived fragment →
      heads.join head fragment.offset fragment.carried = some next → HeadFrom heads arrived next

theorem HeadFrom.mono (h : HeadFrom heads arrived head) (hmore : ∀ fragment, arrived fragment → more fragment) :
    HeadFrom heads more head := by
  induction h with
  | start hfragment => exact .start (hmore _ hfragment)
  | join _ hfragment hjoin ih => exact .join ih (hmore _ hfragment) hjoin

structure Sourced (heads : Heads Carried Head) (arrived : Fragment Key Carried → Prop)
    (set : FragmentSet Head) : Prop where
  apart : Apart set.chunks
  head : HeadFrom heads arrived set.head
  chunks : ∀ c ∈ set.chunks, ∃ fragment, arrived fragment ∧ fragment.chunk = c
  totalLen : ∀ total, set.totalPayloadLen = some total →
    ∃ fragment, arrived fragment ∧ fragment.moreFragments = false ∧ fragment.chunk.stop = total

theorem Sourced.mono (h : Sourced heads arrived set) (hmore : ∀ fragment, arrived fragment → more fragment) :
    Sourced heads more set where
  apart := h.apart
  head := h.head.mono hmore
  chunks c hc := by
    obtain ⟨fragment, hfragment, hchunk⟩ := h.chunks c hc
    exact ⟨fragment, hmore _ hfragment, hchunk⟩
  totalLen total htotal := by
    obtain ⟨fragment, hfragment, hlast⟩ := h.totalLen total htotal
    exact ⟨fragment, hmore _ hfragment, hlast⟩

theorem Sourced.duplicate {now : Nat} (h : Sourced heads arrived set) (hfragment : arrived fragment)
    (hjoin : heads.join set.head fragment.offset fragment.carried = some head) :
    Sourced heads arrived { set with head, deadline := now } where
  apart := h.apart
  head := .join h.head hfragment hjoin
  chunks := h.chunks
  totalLen := h.totalLen

theorem Sourced.absorbs {now : Nat} (h : Sourced heads arrived set) (hfragment : arrived fragment)
    (habsorbs : Absorbs heads now fragment set next) : Sourced heads arrived next := by
  obtain ⟨bytes, hinsert⟩ := habsorbs.inserted
  obtain ⟨-, hapart, hperm⟩ := insertChunk_inserted h.apart hinsert
  refine ⟨hapart, .join h.head hfragment habsorbs.joined, fun c hc => ?_, fun total htotal => ?_⟩
  · have hchunks := h.chunks
    grind
  · rw [habsorbs.totalLen] at htotal
    cases hlast : fragment.moreFragments with
    | true =>
      rw [hlast, if_pos rfl] at htotal
      exact h.totalLen total htotal
    | false => grind [Option.some.inj]

end Sources

section Runs

variable {Key Carried Head : Type} [DecidableEq Key] {family : Family Key Carried Head} {key : Key}
  {history : List Bytes} {d : TunDefragmenter} {now : Nat} {packet out : Bytes} {fragment : Fragment Key Carried}

def Arrived (family : Family Key Carried Head) (history : List Bytes) (key : Key) (fragment : Fragment Key Carried) :
    Prop :=
  fragment.key = key ∧ ∃ packet ∈ history, Reads family packet fragment

def KeySourced (family : Family Key Carried Head) (history : List Bytes) (key : Key) (d : TunDefragmenter) : Prop :=
  ∀ set, (family.sets d).lookup key = some set → Sourced family.heads (Arrived family history key) set

omit [DecidableEq Key] in
theorem Arrived.append (h : Arrived family history key fragment) (more : List Bytes) :
    Arrived family (history ++ more) key fragment := by
  obtain ⟨hkey, packet, hpacket, hreads⟩ := h
  exact ⟨hkey, packet, List.mem_append_left _ hpacket, hreads⟩

theorem KeySourced.maintain (hlaw : Lawful family) (h : KeySourced family history key d) :
    KeySourced family history key (d.runMaintenanceAt now) :=
  fun set hset => h set (hlaw.of_lookup_maintain hset)

theorem KeySourced.openSet (h : KeySourced family history key d) (now : Nat)
    (harrived : Arrived family history key fragment) :
    Sourced family.heads (Arrived family history key) (openSet family.heads now fragment (family.sets d)) := by
  rw [Defrag.openSet]
  cases hset : (family.sets d).lookup fragment.key with
  | some set =>
    rw [harrived.1] at hset
    exact h set hset
  | none =>
    exact ⟨List.Pairwise.nil, .start harrived, fun c hc => absurd hc List.not_mem_nil, fun total htotal =>
      nomatch htotal⟩

theorem KeySourced.handled (h : KeySourced family history key d) (harrived : Arrived family history key fragment) :
    (∀ set, (handled family d now fragment).sets.lookup key = some set →
      Sourced family.heads (Arrived family history key) set) ∧
    ∀ out, (handled family d now fragment).result = .ok (.readyOwned out) →
      ∃ set, Sourced family.heads (Arrived family history key) set ∧ isComplete family.heads set = true ∧
        family.heads.buildPacket set = .ok out := by
  have hopen := h.openSet now harrived
  by_cases hroom : HasRoom d.limits fragment (family.sets d) (family.otherSets d)
  · rw [Defrag.handled, (handleFragment_settle hroom).1, (handleFragment_settle hroom).2, ← harrived.1]
    rcases absorb_cases family.heads d.limits now fragment (Defrag.openSet family.heads now fragment (family.sets d))
        (openTotal family.heads fragment (family.sets d) d.totalBufferedBytes) with
      ⟨head, hjoin, -, habsorb⟩ | ⟨habsorb, -⟩ | ⟨next, habsorbs, habsorb⟩ <;> rw [habsorb, settle]
    · simpa using harrived.1 ▸ hopen.duplicate harrived hjoin
    · simp
    · have hnext := hopen.absorbs harrived habsorbs
      split
      next hcomplete =>
        refine ⟨by simp, fun out hout => ⟨next, harrived.1 ▸ hnext, hcomplete, ?_⟩⟩
        cases hbuild : family.heads.buildPacket next <;> rw [hbuild] at hout <;> cases hout
        rfl
      next => simpa using harrived.1 ▸ hnext
  · rw [Defrag.handled, handleFragment, if_pos (not_not.mp hroom)]
    refine ⟨h, ?_⟩
    rintro out ⟨⟩

theorem KeySourced.push (hlaw : Lawful family) (h : KeySourced family history key d) :
    KeySourced family (history ++ [packet]) key (d.push now packet).2 := by
  have hmore : KeySourced family (history ++ [packet]) key (d.runMaintenanceAt now) := fun set hset =>
    (h.maintain hlaw set hset).mono fun fragment hfragment => hfragment.append _
  by_cases hown : ∃ fragment, Reads family packet fragment ∧ fragment.key = key
  · obtain ⟨fragment, hreads, hkey⟩ := hown
    have harrived : Arrived family (history ++ [packet]) key fragment :=
      ⟨hkey, packet, List.mem_append_right _ List.mem_cons_self, hreads⟩
    intro set hset
    rw [(hlaw.own d now packet fragment hreads).2] at hset
    exact (hmore.handled harrived).1 set hset
  · intro set hset
    rw [hlaw.push_foreign fun fragment hreads hkey => hown ⟨fragment, hreads, hkey⟩] at hset
    exact hmore set hset

theorem KeySourced.run (hlaw : Lawful family) {start : TunDefragmenter} {events : List Event}
    (hnone : (family.sets start).lookup key = none) (hrun : Run step (fun _ _ => True) start events d) :
    KeySourced family (pushed events) key d := by
  apply hrun.invariant (P := fun events d => KeySourced family (pushed events) key d)
  · intro set hset
    rw [hnone] at hset
    cases hset
  · intro events d event next h _ hstep
    rw [pushed, List.filterMap_append]
    cases event with
    | push now packet =>
      cases hstep
      exact h.push hlaw
    | maintain now =>
      cases hstep
      rw [show [Event.maintain now].filterMap Event.packet = [] from rfl, List.append_nil]
      exact h.maintain hlaw

theorem built_of_run (hlaw : Lawful family) {start : TunDefragmenter} {events : List Event}
    (hnone : (family.sets start).lookup key = none) (hrun : Run step (fun _ _ => True) start events d)
    (hreads : Reads family packet fragment) (hkey : fragment.key = key)
    (hout : (d.push now packet).1 = .ok (.readyOwned out)) :
    ∃ set, Sourced family.heads (Arrived family (pushed events ++ [packet]) key) set ∧
      isComplete family.heads set = true ∧ family.heads.buildPacket set = .ok out := by
  have hmore : KeySourced family (pushed events ++ [packet]) key (d.runMaintenanceAt now) := fun set hset =>
    ((KeySourced.run hlaw hnone hrun).maintain hlaw set hset).mono fun fragment hfragment => hfragment.append _
  have harrived : Arrived family (pushed events ++ [packet]) key fragment :=
    ⟨hkey, packet, List.mem_append_right _ List.mem_cons_self, hreads⟩
  rw [(hlaw.own d now packet fragment hreads).1] at hout
  exact (hmore.handled harrived).2 out hout

theorem overlap_discards (hlaw : Lawful family) {set : FragmentSet Head} {c : FragmentChunk}
    (h : KeySourced family history fragment.key d) (hreads : Reads family packet fragment)
    (hset : (family.sets (d.runMaintenanceAt now)).lookup fragment.key = some set) (hc : c ∈ set.chunks)
    (hstart : fragment.chunk.offset < c.stop) (hstop : c.offset < fragment.chunk.stop)
    (hne : c ≠ fragment.chunk) : (d.push now packet).1 = .ok (.dropped "fragment sequence dropped") ∧
      (family.sets (d.push now packet).2).lookup fragment.key = none := by
  obtain ⟨hresult, hsets⟩ := hlaw.own d now packet fragment hreads
  have hopen : openSet family.heads now fragment (family.sets (d.runMaintenanceAt now)) = set := by
    rw [openSet, hset, Option.getD_some]
  have hover := insertChunk_of_overlap (h.maintain hlaw set hset).apart hc hstart hstop hne
  have hroom : HasRoom (d.runMaintenanceAt now).limits fragment (family.sets (d.runMaintenanceAt now))
      (family.otherSets (d.runMaintenanceAt now)) := fun habsent => by
    rw [← AList.lookup_eq_none, hset] at habsent
    cases habsent.1
  rw [hresult, hsets, handled, (handleFragment_settle hroom).1, (handleFragment_settle hroom).2, hopen]
  rcases absorb_cases family.heads (d.runMaintenanceAt now).limits now fragment set
      (openTotal family.heads fragment (family.sets (d.runMaintenanceAt now))
        (d.runMaintenanceAt now).totalBufferedBytes)
    with ⟨head, -, hdup, -⟩ | ⟨hremove, -⟩ | ⟨next, habsorbs, -⟩
  · rw [hover] at hdup
    cases hdup
  · rw [hremove]
    exact ⟨rfl, AList.lookup_erase _ _⟩
  · obtain ⟨bytes, hinsert⟩ := habsorbs.inserted
    rw [hinsert] at hover
    cases hover

end Runs

section Built

variable {arrived : Ipv4Fragment → Prop} {arrived6 : Ipv6Fragment → Prop}

theorem HeadFrom.ipv4 {head : Option Bytes} (h : HeadFrom ipv4Heads arrived head) {header : Bytes}
    (hsome : head = some header) : ∃ fragment, arrived fragment ∧ fragment.offset = 0 ∧ fragment.carried = header := by
  induction h with
  | start => cases hsome
  | @join head next fragment _ hfragment hjoin ih =>
    cases hjoin
    split at hsome
    next hfirst =>
      cases hsome
      rw [Bool.and_eq_true, beq_iff_eq] at hfirst
      exact ⟨fragment, hfragment, hfirst.2, rfl⟩
    next => exact ih hsome

theorem HeadFrom.ipv6 {head : Ipv6Head} (h : HeadFrom ipv6Heads arrived6 head) :
    ∃ fragment, arrived6 fragment ∧ fragment.carried = head := by
  induction h with
  | start hfragment => exact ⟨_, hfragment, rfl⟩
  | join _ _ hjoin ih =>
    simp only [ipv6Heads] at hjoin
    split at hjoin
    · cases hjoin
    · cases hjoin
      exact ih

theorem Sourced.fragments {Key Carried Head : Type} {heads : Heads Carried Head}
    {arrived : Fragment Key Carried → Prop} {set : FragmentSet Head} (h : Sourced heads arrived set) :
    ∃ fragments : List (Fragment Key Carried), (∀ f ∈ fragments, arrived f) ∧
      fragments.map Fragment.chunk = set.chunks := by
  have hrange : set.chunks ∈ Set.range (List.map fun f : Subtype arrived => f.1.chunk) := by
    rw [Set.range_list_map]
    intro c hc
    obtain ⟨f, hf, hchunk⟩ := h.chunks c hc
    exact ⟨⟨f, hf⟩, hchunk⟩
  obtain ⟨fragments, hmap⟩ := hrange
  exact ⟨fragments.map Subtype.val, List.forall_mem_map.mpr fun f _ => f.2, List.map_map.trans hmap⟩

/-- `out` is made of the payloads of arrived fragments of one key that follow each other without a gap up to the end of
a last fragment, behind the header of a first fragment of the key. -/
def BuiltIpv4 (history : List Bytes) (key : Ipv4Key) (out : Bytes) : Prop :=
  ∃ (fragments : List Ipv4Fragment) (first last : Ipv4Fragment),
    (∀ f ∈ first :: last :: fragments, Arrived ipv4 history key f) ∧ first.offset = 0 ∧
    last.moreFragments = false ∧ Contiguous 0 (fragments.map Fragment.chunk) last.chunk.stop ∧
    out = rebuiltIpv4Header first.carried (first.carried.length + last.chunk.stop) ++
      payloadOf (fragments.map Fragment.chunk)

def BuiltIpv6 (history : List Bytes) (key : Ipv6Key) (out : Bytes) : Prop :=
  ∃ (fragments : List Ipv6Fragment) (first last : Ipv6Fragment),
    (∀ f ∈ first :: last :: fragments, Arrived ipv6 history key f) ∧
    last.moreFragments = false ∧ Contiguous 0 (fragments.map Fragment.chunk) last.chunk.stop ∧
    out = patch 4 (Sealing.toBe 2 (first.carried.lead.length + last.chunk.stop - ipv6HeaderLen))
        (patch first.carried.nextHeaderFieldOffset [first.carried.upperLayerHeader] first.carried.lead) ++
      payloadOf (fragments.map Fragment.chunk)

theorem builtIpv4_of_sourced {history : List Bytes} {key : Ipv4Key} {set : Ipv4FragmentSet} {out : Bytes}
    (h : Sourced ipv4Heads (Arrived ipv4 history key) set) (hbuild : buildIpv4Packet set = .ok out) :
    BuiltIpv4 history key out := by
  obtain ⟨fragments, harrived, hmap⟩ := h.fragments
  unfold buildIpv4Packet at hbuild
  split at hbuild
  · cases hbuild
  · cases hbuild
  · rename_i header total hhead htotal
    obtain ⟨first, hfirst, hzero, hheader⟩ := HeadFrom.ipv4 h.head hhead
    obtain ⟨last, hlast, hend, hstop⟩ := h.totalLen total htotal
    split at hbuild
    · cases hbuild
    · rename_i hcomplete
      dsimp only at hbuild
      split at hbuild <;> cases hbuild
      refine ⟨fragments, first, last, by simpa using ⟨hfirst, hlast, harrived⟩, hzero, hend, ?_, ?_⟩
      · rw [hmap, hstop]
        exact chunksAreComplete_iff.mp (by simpa using hcomplete)
      · rw [hmap, hstop, hheader]

theorem builtIpv6_of_sourced {history : List Bytes} {key : Ipv6Key} {set : Ipv6FragmentSet} {out : Bytes}
    (h : Sourced ipv6Heads (Arrived ipv6 history key) set) (hbuild : buildIpv6Packet set = .ok out) :
    BuiltIpv6 history key out := by
  obtain ⟨fragments, harrived, hmap⟩ := h.fragments
  unfold buildIpv6Packet at hbuild
  split at hbuild
  · cases hbuild
  · rename_i total htotal
    obtain ⟨first, hfirst, hcarried⟩ := HeadFrom.ipv6 h.head
    obtain ⟨last, hlast, hend, hstop⟩ := h.totalLen total htotal
    split at hbuild
    · cases hbuild
    · rename_i hcomplete
      dsimp only at hbuild
      split at hbuild
      · cases hbuild
      · split at hbuild <;> cases hbuild
        refine ⟨fragments, first, last, by simpa using ⟨hfirst, hlast, harrived⟩, hend, ?_, ?_⟩
        · rw [hmap, hstop]
          exact chunksAreComplete_iff.mp (by simpa using hcomplete)
        · rw [hmap, hstop, hcarried]

end Built

end OutlineProxy.Tun.Defrag
