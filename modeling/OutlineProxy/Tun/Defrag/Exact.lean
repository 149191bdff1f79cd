import OutlineProxy.Tun.Defrag.Provenance

/-! The fragments of one packet, in any order and among any others, complete to that packet. -/

namespace OutlineProxy.Tun.Defrag

open Runs Tables

section Cover

variable {chunks : List FragmentChunk} {start stop : Nat} {a b c : FragmentChunk}

theorem Contiguous.stop_le (h : Contiguous start chunks stop) (hc : c ∈ chunks) : c.stop ≤ stop := by
  induction chunks generalizing start with
  | nil => cases hc
  | cons first chunks ih =>
    rcases List.mem_cons.mp hc with rfl | hc
    · have hbytes := h.2.chunkBytes
      omega
    · exact ih h.2 hc

theorem Contiguous.exists_last (h : Contiguous start chunks stop) (hne : chunks ≠ []) :
    ∃ c ∈ chunks, c.stop = stop := by
  induction chunks generalizing start with
  | nil => exact absurd rfl hne
  | cons first chunks ih =>
    cases chunks with
    | nil => exact ⟨first, List.mem_cons_self, h.2⟩
    | cons second chunks =>
      obtain ⟨c, hc, hstop⟩ := ih h.2 (List.cons_ne_nil _ _)
      exact ⟨c, List.mem_cons_of_mem _ hc, hstop⟩

theorem Apart.disjoint (h : Apart chunks) (ha : a ∈ chunks) (hb : b ∈ chunks) (hne : a ≠ b) :
    a.stop ≤ b.offset ∨ b.stop ≤ a.offset := by
  induction chunks with
  | nil => cases ha
  | cons first chunks ih =>
    obtain ⟨hfirst, hrest⟩ := List.pairwise_cons.mp h
    rcases List.mem_cons.mp ha with rfl | ha'
    · grind
    · rcases List.mem_cons.mp hb with rfl | hb'
      · exact Or.inr (hfirst a ha')
      · exact ih hrest ha' hb'

end Cover

/-- A packet cut into fragments.  `good` says what the head of a set has to be once some of them have arrived. -/
structure Plan {Key Carried Head : Type} (family : Family Key Carried Head) where
  key : Key
  full : List FragmentChunk
  total : Nat
  carried : FragmentChunk → Carried
  packet : FragmentChunk → Bytes
  original : Bytes
  headSize : Nat
  good : List FragmentChunk → Head → Prop
  contiguous : Contiguous 0 full total
  nonempty : ∀ c ∈ full, c.data ≠ []
  reads : ∀ c ∈ full, Reads family (packet c) ⟨key, carried c, c.offset, decide (c.stop ≠ total), c.data⟩
  start : ∀ c ∈ full, good [] (family.heads.start (carried c))
  join : ∀ got head, good got head → ∀ c ∈ full,
    ∃ next, family.heads.join head c.offset (carried c) = some next ∧ good (c :: got) next
  size : ∀ got head, good got head → family.heads.size head ≤ headSize
  done : ∀ got set, good got set.head → full ⊆ got → set.chunks = full → set.totalPayloadLen = some total →
    family.heads.known set.head = true ∧ family.heads.buildPacket set = .ok original

section Collecting

variable {Key Carried Head : Type} [DecidableEq Key] {family : Family Key Carried Head} (plan : Plan family)
  {limits : Limits} {got : List FragmentChunk} {set : FragmentSet Head} {c : FragmentChunk} {now total : Nat}

def Plan.fragment (c : FragmentChunk) : Fragment Key Carried :=
  ⟨plan.key, plan.carried c, c.offset, decide (c.stop ≠ plan.total), c.data⟩

structure Collecting (got : List FragmentChunk) (set : FragmentSet Head) : Prop where
  apart : Apart set.chunks
  members : ∀ c, c ∈ set.chunks ↔ c ∈ got
  within : got ⊆ plan.full
  head : plan.good got set.head
  known : ∀ len, set.totalPayloadLen = some len → len = plan.total
  last : ∀ c ∈ got, c.stop = plan.total → set.totalPayloadLen = some plan.total

variable {plan}

section

variable (h : Collecting plan got set)

include h

omit [DecidableEq Key] in
theorem Collecting.subset : set.chunks ⊆ plan.full :=
  fun c hc => h.within ((h.members c).mp hc)

omit [DecidableEq Key] in
theorem Collecting.duplicate (hc : c ∈ got) :
    ∃ next, (absorb family.heads limits now (plan.fragment c) set total).1 = .duplicate next ∧
      Collecting plan (c :: got) next ∧ next.deadline = now + reassemblyTimeout := by
  have hfull := h.within hc
  obtain ⟨head, hjoin, hgood⟩ := plan.join got set.head h.head c hfull
  have hinsert := insertChunk_of_mem h.apart ((h.members c).mpr hc) (plan.nonempty c hfull)
  refine ⟨{ set with head, deadline := now + reassemblyTimeout }, ?_,
    ⟨h.apart, fun other => ?_, ?_, hgood, h.known, ?_⟩, rfl⟩
  · simp only [absorb, Plan.fragment, Fragment.chunk, hjoin, hinsert]
  · have hmembers := h.members
    grind
  · exact List.cons_subset.mpr ⟨hfull, h.within⟩
  · have hlast := h.last
    grind

omit [DecidableEq Key] in
theorem Collecting.length_le : set.chunks.length ≤ plan.full.length :=
  (List.subperm_of_subset (h.apart.nodup fun c hc => plan.nonempty c (h.subset hc)) h.subset).length_le

omit [DecidableEq Key] in
theorem Collecting.estimatedBytes_le :
    estimatedBytes family.heads set ≤ plan.headSize + plan.total := by
  have hbytes := chunkBytes_le_of_subset (h.apart.nodup fun c hc => plan.nonempty c (h.subset hc)) h.subset
  have htotal := plan.contiguous.chunkBytes
  have hsize := plan.size got set.head h.head
  rw [estimatedBytes]
  omega

omit [DecidableEq Key] in
theorem Collecting.whole (hgot : got ≠ []) (hall : plan.full ⊆ got) :
    set.chunks = plan.full ∧ set.totalPayloadLen = some plan.total := by
  obtain ⟨c, hc⟩ := List.exists_mem_of_ne_nil got hgot
  obtain ⟨last, hlast, hstop⟩ := plan.contiguous.exists_last (List.ne_nil_of_mem (h.within hc))
  exact ⟨h.apart.eq_of_mem_iff plan.contiguous.apart.1 plan.nonempty fun c =>
    ⟨fun hc => h.subset hc, fun hc => (h.members c).mpr (hall hc)⟩, h.last last (hall hlast) hstop⟩

omit [DecidableEq Key] in
theorem Collecting.done (hgot : got ≠ []) (hall : plan.full ⊆ got) :
    family.heads.known set.head = true ∧ family.heads.buildPacket set = .ok plan.original :=
  plan.done got set h.head hall (h.whole hgot hall).1 (h.whole hgot hall).2

omit [DecidableEq Key] in
theorem Collecting.isComplete_iff (hgot : got ≠ []) :
    isComplete family.heads set = true ↔ plan.full ⊆ got := by
  have hcomplete := complete_iff_subset plan.contiguous plan.nonempty h.apart h.subset
  rw [isComplete, Bool.and_eq_true, Option.any_eq_true]
  constructor
  · rintro ⟨-, len, hlen, hcover⟩ c hc
    cases h.known len hlen
    exact (h.members c).mp (hcomplete.mp hcover hc)
  · intro hall
    exact ⟨(h.done hgot hall).1, plan.total, (h.whole hgot hall).2, hcomplete.mpr fun c hc =>
      (h.members c).mpr (hall hc)⟩

omit [DecidableEq Key] in
theorem Collecting.absorbs {next : FragmentSet Head} (hc : c ∈ plan.full)
    (habsorbs : Absorbs family.heads now (plan.fragment c) set next) : Collecting plan (c :: got) next := by
  obtain ⟨head, hjoin, hgood⟩ := plan.join got set.head h.head c hc
  obtain ⟨bytes, hinsert⟩ := habsorbs.inserted
  obtain ⟨-, hapart, hperm⟩ := insertChunk_inserted h.apart hinsert
  cases Option.some.inj (hjoin.symm.trans habsorbs.joined)
  have hlen : next.totalPayloadLen = if c.stop = plan.total then some plan.total else set.totalPayloadLen := by
    rw [habsorbs.totalLen]
    change (if decide (c.stop ≠ plan.total) = true then set.totalPayloadLen else some c.stop) = _
    by_cases hstop : c.stop = plan.total <;> simp [hstop]
  refine ⟨hapart, fun other => ?_, List.cons_subset.mpr ⟨hc, h.within⟩, hgood, fun len => ?_, fun other hother => ?_⟩
  · rw [hperm.mem_iff, List.mem_cons, List.mem_cons, h.members]
    rfl
  · have hknown := h.known
    grind
  · have hlast := h.last
    grind

omit [DecidableEq Key] in
theorem Collecting.keep (hc : c ∈ plan.full) (hnew : c ∉ got)
    (hcount : plan.full.length ≤ limits.maxFragmentsPerSet) (hset : plan.headSize + plan.total ≤ limits.maxBytesPerSet)
    (htotal : (absorb family.heads limits now (plan.fragment c) set total).2 ≤ limits.maxTotalBufferedBytes) :
    ∃ next, (absorb family.heads limits now (plan.fragment c) set total).1 = .keep next ∧
      Collecting plan (c :: got) next ∧ next.deadline = now + reassemblyTimeout := by
  obtain ⟨head, hjoin, -⟩ := plan.join got set.head h.head c hc
  have hdisjoint : ∀ other ∈ set.chunks, c.stop ≤ other.offset ∨ other.stop ≤ c.offset := by
    intro other hother
    have hne : c ≠ other := by
      rintro rfl
      exact hnew ((h.members c).mp hother)
    exact plan.contiguous.apart.1.disjoint hc (h.subset hother) hne
  obtain ⟨chunks, hinsert⟩ := insertChunk_of_disjoint hdisjoint
  rcases absorb_cases family.heads limits now (plan.fragment c) set total with
    ⟨-, -, hdup, -⟩ | ⟨-, hnone | hover | ⟨hlast, len, hlen, hdiffer⟩ | ⟨next, habsorbs, hlimits⟩⟩ |
    ⟨next, habsorbs, hkeep⟩
  · cases (congrArg Prod.fst hinsert).symm.trans hdup
  · cases hjoin.symm.trans hnone
  · cases (congrArg Prod.fst hinsert).symm.trans hover
  · exact absurd ((h.known len hlen).trans (by simpa [Plan.fragment] using hlast : c.stop = plan.total).symm) hdiffer
  · have hnext := h.absorbs hc habsorbs
    have hlength := hnext.length_le
    have hbytes := hnext.estimatedBytes_le
    omega
  · exact ⟨next, hkeep, h.absorbs hc habsorbs, habsorbs.deadline⟩

end

end Collecting

section Feeding

variable {Key Carried Head : Type} [DecidableEq Key] {family : Family Key Carried Head} (plan : Plan family)

/-- A defragmenter with the fragments of the packet that have arrived and the time of the latest. -/
structure Progress where
  d : TunDefragmenter
  got : List FragmentChunk
  last : Nat

inductive Feed where
  | own (now : Nat) (c : FragmentChunk)
  | other (now : Nat) (packet : Bytes)
  | maintain (now : Nat)

def Feed.now : Feed → Nat
  | .own now _ | .other now _ | .maintain now => now

def feed (p : Progress) : Feed → Option Progress
  | .own now c => some ⟨(p.d.push now (plan.packet c)).2, c :: p.got, now⟩
  | .other now packet => some { p with d := (p.d.push now packet).2 }
  | .maintain now => some { p with d := p.d.runMaintenanceAt now }

def countedWith (family : Family Key Carried Head) (d : TunDefragmenter) (now : Nat) (fragment : Fragment Key Carried) :
    Nat :=
  (absorb family.heads d.limits now fragment (openSet family.heads now fragment (family.sets d))
    (openTotal family.heads fragment (family.sets d) d.totalBufferedBytes)).2

/-- Nothing happens after the set's deadline, what is not of the packet is of another key, and the packet's own
fragments find the limits kept. -/
def Within (p : Progress) (event : Feed) : Prop :=
  ¬ plan.full ⊆ p.got ∧ (p.got ≠ [] → event.now < p.last + reassemblyTimeout) ∧
    match event with
    | .own now c =>
      let swept := p.d.runMaintenanceAt now
      c ∈ plan.full ∧ (p.got = [] → size (family.sets swept) + family.otherSets swept < swept.limits.maxFragmentSets) ∧
        plan.full.length ≤ swept.limits.maxFragmentsPerSet ∧
        plan.headSize + plan.total ≤ swept.limits.maxBytesPerSet ∧
        countedWith family swept now (plan.fragment c) ≤ swept.limits.maxTotalBufferedBytes
    | .other _ packet => ∀ fragment, Reads family packet fragment → fragment.key ≠ plan.key
    | .maintain _ => True

def Buffered (p : Progress) : Prop :=
  (p.got = [] ∧ (family.sets p.d).lookup plan.key = none) ∨
    ∃ set, (family.sets p.d).lookup plan.key = some set ∧ Collecting plan p.got set ∧ p.got ≠ [] ∧
      set.deadline = p.last + reassemblyTimeout

variable {plan} {p : Progress} {now : Nat} {c : FragmentChunk}

theorem Buffered.maintain (hlaw : Lawful family) (h : Buffered plan p)
    (htime : p.got ≠ [] → now < p.last + reassemblyTimeout) :
    Buffered plan { p with d := p.d.runMaintenanceAt now } := by
  rcases h with ⟨hgot, hnone⟩ | ⟨set, hset, hcollecting, hgot, hdeadline⟩
  · exact Or.inl ⟨hgot, hlaw.lookup_maintain_none hnone⟩
  · exact Or.inr ⟨set, hlaw.lookup_maintain hset (hdeadline ▸ htime hgot), hcollecting, hgot, hdeadline⟩

theorem Buffered.openSet (h : Buffered plan p) (now : Nat) (hc : c ∈ plan.full) :
    Collecting plan p.got (openSet family.heads now (plan.fragment c) (family.sets p.d)) := by
  rcases h with ⟨hgot, hnone⟩ | ⟨set, hset, hcollecting, -⟩
  · have hopen : Defrag.openSet family.heads now (plan.fragment c) (family.sets p.d) =
        ⟨now + reassemblyTimeout, family.heads.start (plan.carried c), [], none⟩ := by
      simp only [Defrag.openSet, Plan.fragment, hnone, Option.getD_none]
    rw [hopen, hgot]
    refine ⟨List.Pairwise.nil, fun c => Iff.rfl, List.nil_subset _, plan.start c hc, fun len hlen => ?_, fun c hc => ?_⟩
    · cases hlen
    · cases hc
  · grind [Defrag.openSet, set, Plan.fragment]

theorem Buffered.own (hlaw : Lawful family) (h : Buffered plan p) (hwithin : Within plan p (.own now c)) :
    (plan.full ⊆ c :: p.got → (p.d.push now (plan.packet c)).1 = .ok (.readyOwned plan.original)) ∧
    (¬ plan.full ⊆ c :: p.got → (p.d.push now (plan.packet c)).1 = .ok .pending ∧
      Buffered plan ⟨(p.d.push now (plan.packet c)).2, c :: p.got, now⟩) := by
  obtain ⟨hmissing, htime, hc, hsets, hcount, hbytes, htotal⟩ := hwithin
  obtain ⟨hresult, hafter⟩ := hlaw.own p.d now (plan.packet c) (plan.fragment c) (plan.reads c hc)
  have hswept : Buffered plan { p with d := p.d.runMaintenanceAt now } := h.maintain hlaw htime
  have hopen : Collecting plan p.got _ := hswept.openSet now hc
  have hcons : c :: p.got ≠ [] := List.cons_ne_nil _ _
  have hroom : HasRoom (p.d.runMaintenanceAt now).limits (plan.fragment c) (family.sets (p.d.runMaintenanceAt now))
      (family.otherSets (p.d.runMaintenanceAt now)) := by
    rintro ⟨habsent, hfull⟩
    rcases hswept with ⟨hgot, -⟩ | ⟨set, hset, -⟩
    · have hlt := hsets hgot
      omega
    · have hlookup : (family.sets (p.d.runMaintenanceAt now)).lookup plan.key = none := AList.lookup_eq_none.mpr habsent
      rw [hset] at hlookup
      cases hlookup
  rw [hresult, Buffered, hafter, handled, (handleFragment_settle hroom).1, (handleFragment_settle hroom).2]
  by_cases hgot : c ∈ p.got
  · obtain ⟨next, habsorb, hcollecting, hdeadline⟩ := hopen.duplicate hgot
    rw [habsorb]
    refine ⟨fun hall => absurd (fun x hx => ?_) hmissing, fun _ =>
      ⟨rfl, Or.inr ⟨next, AList.lookup_insert _, hcollecting, hcons, hdeadline⟩⟩⟩
    rcases List.mem_cons.mp (hall hx) with rfl | hx'
    · exact hgot
    · exact hx'
  · obtain ⟨next, habsorb, hcollecting, hdeadline⟩ := hopen.keep hc hgot hcount hbytes htotal
    have hiff := hcollecting.isComplete_iff hcons
    rw [habsorb, settle]
    refine ⟨fun hall => ?_, fun hnot => ?_⟩
    · rw [if_pos (hiff.mpr hall), (hcollecting.done hcons hall).2]
      rfl
    · rw [if_neg fun hcomplete => hnot (hiff.mp hcomplete)]
      exact ⟨rfl, Or.inr ⟨next, AList.lookup_insert _, hcollecting, hcons, hdeadline⟩⟩

theorem buffered_of_run (hlaw : Lawful family) {d : TunDefragmenter} {events : List Feed}
    (hnone : (family.sets d).lookup plan.key = none) (hrun : Run (feed plan) (Within plan) ⟨d, [], 0⟩ events p) :
    ¬ plan.full ⊆ p.got → Buffered plan p := by
  apply hrun.invariant (P := fun _ p => ¬ plan.full ⊆ p.got → Buffered plan p)
  · exact fun _ => Or.inl ⟨rfl, hnone⟩
  · intro events p event next h hwithin hstep hmissing
    have hbuffered := h hwithin.1
    have hswept := hbuffered.maintain hlaw hwithin.2.1
    cases event with
    | own now c =>
      cases hstep
      exact ((hbuffered.own hlaw hwithin).2 hmissing).2
    | other now packet =>
      cases hstep
      rw [Buffered, hlaw.push_foreign hwithin.2.2]
      exact hswept
    | maintain now =>
      cases hstep
      exact hswept

theorem reassembles (hlaw : Lawful family) {d : TunDefragmenter} {events : List Feed}
    (hnone : (family.sets d).lookup plan.key = none) (hrun : Run (feed plan) (Within plan) ⟨d, [], 0⟩ events p)
    (hwithin : Within plan p (.own now c)) :
    (plan.full ⊆ c :: p.got → (p.d.push now (plan.packet c)).1 = .ok (.readyOwned plan.original)) ∧
    (¬ plan.full ⊆ c :: p.got → (p.d.push now (plan.packet c)).1 = .ok .pending) := by
  have h := (buffered_of_run hlaw hnone hrun hwithin.1).own hlaw hwithin
  exact ⟨h.1, fun hnot => (h.2 hnot).1⟩

end Feeding

end OutlineProxy.Tun.Defrag
