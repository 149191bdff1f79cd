import OutlineProxy.Lib.Runs
import OutlineProxy.Tun.Defrag.Chunks

/-! Both address families as instances of one: what a push does to the sets of a family. -/

namespace OutlineProxy.Tun.Defrag

open Tables TunDefragmenter

section Handling

variable {Key Carried Head : Type} [DecidableEq Key] {heads : Heads Carried Head} {limits : Limits}
  {now otherSets otherBytes total : Nat} {fragment : Fragment Key Carried} {sets : Table Key (FragmentSet Head)}
  {set next : FragmentSet Head}

structure Absorbs (heads : Heads Carried Head) (now : Nat) (fragment : Fragment Key Carried)
    (set next : FragmentSet Head) : Prop where
  joined : heads.join set.head fragment.offset fragment.carried = some next.head
  inserted : ∃ bytes, insertChunk fragment.chunk set.chunks = (.inserted bytes, next.chunks)
  totalLen : next.totalPayloadLen = if fragment.moreFragments then set.totalPayloadLen else some fragment.chunk.stop
  deadline : next.deadline = now + reassemblyTimeout

omit [DecidableEq Key] in
theorem absorb_cases (heads : Heads Carried Head) (limits : Limits) (now : Nat) (fragment : Fragment Key Carried)
    (set : FragmentSet Head) (total : Nat) :
    let absorbed := absorb heads limits now fragment set total
    (∃ head, heads.join set.head fragment.offset fragment.carried = some head ∧
      (insertChunk fragment.chunk set.chunks).1 = .duplicateExact ∧
        absorbed.1 = .duplicate { set with head, deadline := now + reassemblyTimeout }) ∨
    (absorbed.1 = .remove ∧
      (heads.join set.head fragment.offset fragment.carried = none ∨
        (insertChunk fragment.chunk set.chunks).1 = .overlap ∨
        (fragment.moreFragments = false ∧ ∃ len ∈ set.totalPayloadLen, len ≠ fragment.chunk.stop) ∨
        ∃ next, Absorbs heads now fragment set next ∧ (limits.maxFragmentsPerSet < next.chunks.length ∨
          limits.maxBytesPerSet < estimatedBytes heads next ∨
          limits.maxTotalBufferedBytes < absorbed.2))) ∨
    ∃ next, Absorbs heads now fragment set next ∧ absorbed.1 = .keep next := by
  dsimp only
  unfold absorb
  cases hjoin : heads.join set.head fragment.offset fragment.carried with
  | none => exact .inr (.inl ⟨rfl, .inl rfl⟩)
  | some head =>
    rcases hinsert : insertChunk fragment.chunk set.chunks with ⟨outcome, chunks⟩
    cases outcome with
    | duplicateExact => exact .inl ⟨head, rfl, rfl, rfl⟩
    | overlap => exact .inr (.inl ⟨rfl, .inr (.inl rfl)⟩)
    | inserted bytes =>
      simp only
      by_cases hdiffer : (!fragment.moreFragments &&
          set.totalPayloadLen.any fun existing => existing != fragment.chunk.stop) = true
      · rw [if_pos hdiffer]
        exact .inr (.inl ⟨rfl, .inr (.inr (.inl (by simpa [Option.any_eq_true] using hdiffer)))⟩)
      · rw [if_neg hdiffer]
        generalize hlen : (if fragment.moreFragments then set.totalPayloadLen else some fragment.chunk.stop) = len
        split
        · rename_i hlimits
          exact .inr (.inl ⟨rfl,
            .inr (.inr (.inr ⟨⟨_, head, chunks, len⟩, ⟨hjoin, ⟨bytes, hinsert⟩, hlen.symm, rfl⟩, hlimits⟩))⟩)
        · exact .inr (.inr ⟨_, ⟨hjoin, ⟨bytes, hinsert⟩, hlen.symm, rfl⟩, rfl⟩)

def HasRoom (limits : Limits) (fragment : Fragment Key Carried) (sets : Table Key (FragmentSet Head))
    (otherSets : Nat) :
    Prop :=
  ¬(fragment.key ∉ sets ∧ limits.maxFragmentSets ≤ size sets + otherSets)

/-- The answer to an absorbed fragment and the sets it leaves. -/
def settle (heads : Heads Carried Head) (fragment : Fragment Key Carried) (sets : Table Key (FragmentSet Head)) :
    Absorbed Head → Except String DefragmentedPacket × Table Key (FragmentSet Head)
  | .duplicate set => (.ok .pending, sets.insert fragment.key set)
  | .remove => (.ok (.dropped "fragment sequence dropped"), sets.erase fragment.key)
  | .keep set =>
    if isComplete heads set then ((heads.buildPacket set).map .readyOwned, sets.erase fragment.key)
    else (.ok .pending, sets.insert fragment.key set)

theorem handleFragment_settle (hroom : HasRoom limits fragment sets otherSets) :
    let handled := handleFragment heads limits now fragment sets otherSets otherBytes total
    let settled := settle heads fragment sets
      (absorb heads limits now fragment (openSet heads now fragment sets) (openTotal heads fragment sets total)).1
    handled.result = settled.1 ∧ handled.sets = settled.2 := by
  rw [handleFragment, if_neg hroom]
  rcases absorb heads limits now fragment (openSet heads now fragment sets) (openTotal heads fragment sets total) with
    ⟨outcome, after⟩
  cases outcome with
  | duplicate set => exact ⟨rfl, rfl⟩
  | remove => exact ⟨rfl, rfl⟩
  | keep set =>
    simp only [settle]
    split
    · cases heads.buildPacket set <;> exact ⟨rfl, rfl⟩
    · exact ⟨rfl, rfl⟩

theorem handleFragment_lookup_ne {key : Key} (hne : key ≠ fragment.key) :
    (handleFragment heads limits now fragment sets otherSets otherBytes total).sets.lookup key = sets.lookup key := by
  by_cases hroom : HasRoom limits fragment sets otherSets
  · rw [(handleFragment_settle hroom).2]
    unfold settle
    split
    · exact AList.lookup_insert_ne hne
    · exact AList.lookup_erase_ne hne
    · split
      · exact AList.lookup_erase_ne hne
      · exact AList.lookup_insert_ne hne
  · rw [handleFragment, if_pos (not_not.mp hroom)]

end Handling

structure Family (Key Carried Head : Type) where
  heads : Heads Carried Head
  sets : TunDefragmenter → Table Key (FragmentSet Head)
  pick : PacketInspection → Option (Fragment Key Carried)
  otherSets : TunDefragmenter → Nat
  otherBytes : TunDefragmenter → Nat

def ipv4 : Family Ipv4Key Bytes (Option Bytes) where
  heads := ipv4Heads
  sets := ipv4Sets
  pick
    | .ipv4Fragment fragment => some fragment
    | _ => none
  otherSets d := size d.ipv6Sets
  otherBytes := bufferedIpv6

def ipv6 : Family Ipv6Key Ipv6Head Ipv6Head where
  heads := ipv6Heads
  sets := ipv6Sets
  pick
    | .ipv6Fragment fragment => some fragment
    | _ => none
  otherSets d := size d.ipv4Sets
  otherBytes := bufferedIpv4

section Pushes

variable {Key Carried Head : Type} [DecidableEq Key]

def Reads (family : Family Key Carried Head) (packet : Bytes) (fragment : Fragment Key Carried) : Prop :=
  ∃ inspection, inspectPacket packet = .ok inspection ∧ family.pick inspection = some fragment

def handled (family : Family Key Carried Head) (d : TunDefragmenter) (now : Nat) (fragment : Fragment Key Carried) :
    Handled Key Head :=
  handleFragment family.heads d.limits now fragment (family.sets d) (family.otherSets d) (family.otherBytes d)
    d.totalBufferedBytes

/-- A push works on the family's sets after maintenance, and maintenance drops what has expired. -/
structure Lawful (family : Family Key Carried Head) : Prop where
  own : ∀ d now packet fragment, Reads family packet fragment →
    let swept := runMaintenanceAt d now
    (push d now packet).1 = (handled family swept now fragment).result ∧
      family.sets (push d now packet).2 = (handled family swept now fragment).sets
  other : ∀ d now packet, (∀ fragment, ¬ Reads family packet fragment) →
    family.sets (push d now packet).2 = family.sets (runMaintenanceAt d now)
  sweep : ∀ d now, family.sets (sweepExpired d now) =
    retain (fun _ set => decide (now < set.deadline)) (family.sets d)
  clock : ∀ (d : TunDefragmenter) n, family.sets { d with nextCleanupAt := n } = family.sets d

theorem sweepExpired_sets (d : TunDefragmenter) (now : Nat) :
    (d.sweepExpired now).ipv4Sets = retain (fun _ set => decide (now < set.deadline)) d.ipv4Sets ∧
      (d.sweepExpired now).ipv6Sets = retain (fun _ set => decide (now < set.deadline)) d.ipv6Sets := by
  unfold sweepExpired
  dsimp only
  split <;> exact ⟨rfl, rfl⟩

theorem lawful_ipv4 : Lawful ipv4 where
  own d now packet fragment := by
    rintro ⟨inspection, hinspect, hpick⟩
    unfold push
    rw [hinspect]
    cases inspection <;> cases hpick
    exact ⟨rfl, rfl⟩
  other d now packet hnone := by
    unfold push
    rcases hinspect : inspectPacket packet with error | inspection
    · rfl
    · cases inspection with
      | passthrough | ipv6Fragment other => rfl
      | ipv4Fragment fragment => exact absurd ⟨_, hinspect, rfl⟩ (hnone fragment)
  sweep d now := (sweepExpired_sets d now).1
  clock _ _ := rfl

theorem lawful_ipv6 : Lawful ipv6 where
  own d now packet fragment := by
    rintro ⟨inspection, hinspect, hpick⟩
    unfold push
    rw [hinspect]
    cases inspection <;> cases hpick
    exact ⟨rfl, rfl⟩
  other d now packet hnone := by
    unfold push
    rcases hinspect : inspectPacket packet with error | inspection
    · rfl
    · cases inspection with
      | passthrough | ipv4Fragment other => rfl
      | ipv6Fragment fragment => exact absurd ⟨_, hinspect, rfl⟩ (hnone fragment)
  sweep d now := (sweepExpired_sets d now).2
  clock _ _ := rfl

variable {family : Family Key Carried Head} {key : Key} {d : TunDefragmenter} {now : Nat} {packet : Bytes}
  {set : FragmentSet Head}

section

variable (h : Lawful family)

include h

theorem Lawful.maintain (d : TunDefragmenter) (now : Nat) :
    family.sets (d.runMaintenanceAt now) = family.sets d ∨
      family.sets (d.runMaintenanceAt now) = retain (fun _ set => decide (now < set.deadline)) (family.sets d) := by
  unfold runMaintenanceAt
  split
  · rw [h.clock, h.sweep]
    exact Or.inr rfl
  · exact Or.inl rfl

theorem Lawful.of_lookup_maintain
    (hset : (family.sets (d.runMaintenanceAt now)).lookup key = some set) : (family.sets d).lookup key = some set := by
  rcases h.maintain d now with hsame | hretain
  · rwa [hsame] at hset
  · rw [hretain, lookup_retain, Option.filter_eq_some_iff] at hset
    exact hset.1

theorem Lawful.lookup_maintain_none (hnone : (family.sets d).lookup key = none) :
    (family.sets (d.runMaintenanceAt now)).lookup key = none := by
  rw [Option.eq_none_iff_forall_ne_some]
  intro set hset
  rw [h.of_lookup_maintain hset] at hnone
  cases hnone

theorem Lawful.lookup_maintain (hset : (family.sets d).lookup key = some set)
    (htime : now < set.deadline) : (family.sets (d.runMaintenanceAt now)).lookup key = some set := by
  have hmaintain := h.maintain
  grind [lookup_retain]

theorem Lawful.push_foreign (hforeign : ∀ fragment, Reads family packet fragment → fragment.key ≠ key) :
    (family.sets (d.push now packet).2).lookup key = (family.sets (d.runMaintenanceAt now)).lookup key := by
  by_cases hreads : ∃ fragment, Reads family packet fragment
  · obtain ⟨fragment, hreads⟩ := hreads
    rw [(h.own d now packet fragment hreads).2]
    exact handleFragment_lookup_ne (hforeign fragment hreads).symm
  · rw [h.other d now packet fun fragment hfragment => hreads ⟨fragment, hfragment⟩]

end

end Pushes

end OutlineProxy.Tun.Defrag
