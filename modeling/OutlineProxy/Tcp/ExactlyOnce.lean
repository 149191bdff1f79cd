import OutlineProxy.Tcp.Ingest
import OutlineProxy.Tcp.Resume

/-! The uplink across carrier migrations.  What the server has forwarded, what is under way to it, what is
left of a replay and what the pump has in hand make up what the pump has taken, as long as no send has failed.
-/

namespace OutlineProxy.Tcp

open List Transport ClientUpstreamRingBuffer

def FlowResume.Mirrored (resume : FlowResume) (stream : Bytes) : Prop :=
  ∀ ring, resume.replay = some ring → ring.Mirrors stream

theorem recordUplinkChunk_spec (resume : FlowResume) (chunk : Bytes) :
    let after := resume.recordUplinkChunk chunk
    after.1.carrierEpoch = resume.carrierEpoch ∧
      (after.2 = none → ∀ stream, resume.Mirrored stream → after.1.Mirrored (stream ++ chunk)) ∧
      (after.2 ≠ none → after.1.replay = none) := by
  dsimp only
  unfold FlowResume.recordUplinkChunk
  split
  · rename_i hnone
    refine ⟨rfl, fun _ stream _ ring hring => ?_, fun herror => absurd rfl herror⟩
    rw [hnone] at hring
    cases hring
  · rename_i ring hring
    split
    · rename_i next hpush
      refine ⟨rfl, fun _ stream h ring' hring' => ?_, fun herror => absurd rfl herror⟩
      cases hring'
      exact (h ring hring).push hpush
    · refine ⟨rfl, fun hnone => ?_, fun _ => rfl⟩
      cases hnone

theorem recordUplinkBatch_spec (resume : FlowResume) (stream : Bytes) (batch : List Bytes)
    (h : resume.Mirrored stream) : (resume.recordUplinkBatch batch).carrierEpoch = resume.carrierEpoch ∧
      (resume.recordUplinkBatch batch).Mirrored (stream ++ batch.flatten) := by
  induction batch generalizing resume stream with
  | nil =>
    rw [flatten_nil, append_nil]
    exact ⟨rfl, h⟩
  | cons chunk rest ih =>
    obtain ⟨hepoch, hpushed, hdropped⟩ := recordUplinkChunk_spec resume chunk
    unfold FlowResume.recordUplinkBatch
    split
    · grind [flatten_cons, append_assoc]
    · rename_i resume' error heq
      rw [heq] at hepoch hdropped
      refine ⟨hepoch, fun ring hring => ?_⟩
      rw [hdropped nofun] at hring
      cases hring

namespace Migration

variable {sys next : Migration} {pipe : PipeId} {bytes : Bytes}

def replayLeft (sys : Migration) : Bytes :=
  match sys.reader with
  | .replaying left => left
  | _ => []

def inHand (sys : Migration) : Bytes :=
  match sys.pump with
  | .holding batch epoch => if epoch = sys.carrier.epoch then batch.flatten else []
  | .sending left _ => left
  | _ => []

def candidate (sys : Migration) : Option PipeId :=
  match sys.reader with
  | .dialled pipe _ | .confirmed pipe _ _ => some pipe
  | _ => none

structure ExactInv (sys : Migration) : Prop where
  mirror : sys.resume.Mirrored sys.popped
  stream : sys.popped ++ sys.flow.pendingClientData.flatten = sys.uplink
  behind : sys.server.forwarded ++ (sys.pipes sys.server.attached).queue <+: sys.popped
  exact : sys.server.attached = sys.carrier.writer → (sys.pipes sys.carrier.writer).broken = false →
    sys.server.forwarded ++ (sys.pipes sys.carrier.writer).queue ++ (sys.replayLeft ++ sys.inHand) = sys.popped
  epoch : sys.resume.carrierEpoch = sys.carrier.epoch
  held : ∀ batch epoch, sys.pump = .holding batch epoch → epoch ≤ sys.carrier.epoch
  lock : ∀ left epoch, sys.pump = .sending left epoch → sys.replayLeft = []
  fresh : ∀ n, sys.dialled ≤ n → (sys.pipes n).queue = [] ∧ (sys.pipes n).report = none
  known : sys.server.attached < sys.dialled ∧ sys.carrier.writer < sys.dialled
  redial : ∀ n ∈ sys.redials, n < sys.dialled ∧ n ≠ sys.server.attached ∧ n ≠ sys.carrier.writer ∧
    (sys.pipes n).queue = [] ∧ (sys.pipes n).report = none
  dial : ∀ n, sys.candidate = some n → n < sys.dialled ∧ n ≠ sys.carrier.writer ∧ (sys.pipes n).queue = [] ∧
    ∀ k, (sys.pipes n).report = some k → n = sys.server.attached → k = sys.server.forwarded.length
  confirm : ∀ n issued k, sys.reader = .confirmed n issued k → (sys.pipes n).report = some k

theorem ExactInv.initial (flow : TcpFlowState) (sessionId : Option SessionId) (capacityBytes : Nat) :
    ExactInv (Migration.initial flow sessionId capacityBytes) where
  mirror ring hring := by
    cases hring
    exact mirrors_new capacityBytes
  stream := rfl
  behind := nil_prefix
  exact _ _ := rfl
  epoch := rfl
  held _ _ h := by cases h
  lock _ _ h := by cases h
  fresh _ _ := ⟨rfl, rfl⟩
  known := ⟨Nat.one_pos, Nat.one_pos⟩
  redial _ h := by cases h
  dial _ h := by cases h
  confirm _ _ _ h := by cases h

theorem onPipe_of_ne {n : PipeId} (f : Pipe → Pipe) (h : n ≠ pipe) : (sys.onPipe pipe f).pipes n = sys.pipes n :=
  Function.update_of_ne h ..

@[simp] theorem onPipe_self (f : Pipe → Pipe) : (sys.onPipe pipe f).pipes pipe = f (sys.pipes pipe) :=
  Function.update_self ..

theorem popBatch_flatten (batchBytes : Nat) (chunks : List Bytes) :
    (popBatch batchBytes chunks).1.flatten ++ (popBatch batchBytes chunks).2.flatten = chunks.flatten := by
  induction chunks generalizing batchBytes with
  | nil => rfl
  | cons chunk rest ih => grind [popBatch, pumpBatchBytes, flatten_cons, append_assoc]

section Steps

variable (h : ExactInv sys)

include h

theorem ExactInv.severed :
    ExactInv (sys.onPipe pipe fun pipe => { pipe with broken := true }) := by
  have hkeep : ∀ n, ((sys.onPipe pipe fun pipe => { pipe with broken := true }).pipes n).queue =
      (sys.pipes n).queue ∧ ((sys.onPipe pipe fun pipe => { pipe with broken := true }).pipes n).report =
      (sys.pipes n).report := by grind [onPipe_self, onPipe_of_ne]
  refine { h with behind := ?_, exact := fun hattached hopen => ?_, fresh := fun n hn => ?_,
                  redial := fun n hn => ?_, dial := fun n hn => ?_, confirm := fun n issued k hreader => ?_ }
  · rw [(hkeep _).1]
    exact h.behind
  · rw [(hkeep _).1]
    refine h.exact hattached ?_
    by_cases hwriter : sys.carrier.writer = pipe
    · change ((sys.onPipe pipe _).pipes sys.carrier.writer).broken = false at hopen
      rw [hwriter, onPipe_self] at hopen
      cases hopen
    · exact (congrArg Pipe.broken (onPipe_of_ne _ hwriter)).symm.trans hopen
  · rw [(hkeep n).1, (hkeep n).2]
    exact h.fresh n hn
  · rw [(hkeep n).1, (hkeep n).2]
    exact h.redial n hn
  · rw [(hkeep n).1, (hkeep n).2]
    exact h.dial n hn
  · rw [(hkeep n).2]
    exact h.confirm n issued k hreader

theorem ExactInv.broken : ExactInv sys.breakWriter :=
  h.severed

theorem ExactInv.put {pump : PumpPhase} {reader : ReaderPhase}
    (hopen : (sys.pipes sys.carrier.writer).broken = false)
    (hnext : next = { sys.put bytes with pump := pump, reader := reader })
    (hsplit : sys.replayLeft ++ sys.inHand = bytes ++ (next.replayLeft ++ next.inHand))
    (hheld : ∀ batch epoch, pump = .holding batch epoch → sys.pump = .holding batch epoch)
    (hlock : ∀ left epoch, pump = .sending left epoch → next.replayLeft = [])
    (hcandidate : next.candidate = sys.candidate)
    (hconfirm : ∀ n issued k, reader = .confirmed n issued k → sys.reader = .confirmed n issued k) :
    ExactInv next := by
  subst hnext
  have hput : (sys.put bytes).pipes sys.carrier.writer =
      { sys.pipes sys.carrier.writer with queue := (sys.pipes sys.carrier.writer).queue ++ bytes } :=
    onPipe_self _
  have hother : ∀ n ≠ sys.carrier.writer, (sys.put bytes).pipes n = sys.pipes n := fun n hn => onPipe_of_ne _ hn
  have hexact : sys.server.attached = sys.carrier.writer →
      sys.server.forwarded ++ ((sys.put bytes).pipes sys.carrier.writer).queue ++
        (replayLeft { sys.put bytes with pump := pump, reader := reader } ++
          inHand { sys.put bytes with pump := pump, reader := reader }) = sys.popped := by
    intro hattached
    rw [hput, ← h.exact hattached hopen, hsplit]
    simp only [append_assoc]
  refine ⟨h.mirror, h.stream, ?_, fun hattached _ => hexact hattached, h.epoch,
    fun batch epoch hpump => h.held batch epoch (hheld batch epoch hpump), hlock, fun n hn => ?_, h.known,
    fun n hn => ?_, fun n hn => ?_, fun n issued k hreader => ?_⟩
  · change sys.server.forwarded ++ ((sys.put bytes).pipes sys.server.attached).queue <+: sys.popped
    by_cases hattached : sys.server.attached = sys.carrier.writer
    · rw [hattached]
      exact ⟨_, hexact hattached⟩
    · rw [hother _ hattached]
      exact h.behind
  · have hne : n ≠ sys.carrier.writer := (h.known.2.trans_le hn).ne'
    rw [hother n hne]
    exact h.fresh n hn
  · have hredial := h.redial n hn
    rw [hother n hredial.2.2.1]
    exact hredial
  · have hdial := h.dial n (hcandidate.symm.trans hn)
    rw [hother n hdial.2.1]
    exact hdial
  · have hconfirm := h.confirm
    grind [candidate]

theorem ExactInv.release (hnone : sys.inHand = []) (pump : PumpPhase)
    (hbatch : ∀ batch epoch, pump ≠ .holding batch epoch) (hleft : ∀ left epoch, pump ≠ .sending left epoch) :
    ExactInv { sys with pump := pump } := by
  have hhand : inHand { sys with pump := pump } = [] := by grind [inHand]
  refine { h with exact := fun hattached hopen => ?_, held := fun batch epoch hpump => ?_,
                  lock := fun left epoch hpump => ?_ }
  · have hexact := h.exact hattached hopen
    rw [hnone] at hexact
    rw [hhand]
    exact hexact
  · exact absurd hpump (hbatch batch epoch)
  · exact absurd hpump (hleft left epoch)

theorem ExactInv.pop {tcp : TunTcpConfig} (hstep : sys.pop tcp = some next) :
    ExactInv next := by
  unfold Migration.pop at hstep
  split at hstep
  · cases hstep
  · rename_i hpump
    have hnone : sys.inHand = [] := by rw [inHand, not_not.1 hpump]
    split at hstep
    · cases hstep
      exact h.release hnone _ nofun nofun
    · split at hstep
      · cases hstep
        exact h.release hnone _ nofun nofun
      · cases hstep
        obtain ⟨hepoch, hmirrored⟩ := recordUplinkBatch_spec sys.resume sys.popped
          (popBatch 0 sys.flow.pendingClientData).1 h.mirror
        have hbytes := popBatch_flatten 0 sys.flow.pendingClientData
        have hleft : (pumpDrain sys.flow tcp).pendingClientData = (popBatch 0 sys.flow.pendingClientData).2 := by
          unfold pumpDrain growReceiveWindow
          simp only
          split <;> rfl
        generalize popBatch 0 sys.flow.pendingClientData = popped at *
        obtain ⟨batch, left⟩ := popped
        refine { h with mirror := hmirrored, stream := ?_, behind := ?_, exact := fun hattached hopen => ?_,
                        epoch := hepoch.trans h.epoch, held := fun batch' epoch hholding => ?_, lock := ?_ }
        · have hstream := h.stream
          grind [pumpDrain, append_assoc]
        · exact h.behind.trans (prefix_append ..)
        · have hexact := h.exact hattached hopen
          rw [hnone, append_nil] at hexact
          have hhand :
              inHand { sys with pump := if batch = [] then .drained else .holding batch sys.resume.carrierEpoch }
              = batch.flatten := by
            by_cases hempty : batch = []
            · simp [inHand, hempty]
            · simp [inHand, hempty, h.epoch]
          change _ ++ _ ++ (sys.replayLeft ++ inHand { sys with pump := _ }) = _
          rw [hhand, ← append_assoc, hexact]
        · have hepoch := h.epoch
          grind
        · grind

theorem ExactInv.acquire (hstep : sys.acquire = some next) : ExactInv next := by
  unfold Migration.acquire at hstep
  split at hstep
  · rename_i batch epoch hpump
    split at hstep
    · cases hstep
    · rename_i hfree
      split at hstep
      · have hrelease := h.release
        grind [inHand]
      · rename_i hsame
        cases hstep
        refine { h with exact := fun hattached hopen => ?_, held := nofun, lock := fun left epoch' _ => ?_ }
        · have hhand : sys.inHand = batch.flatten := by
            rw [inHand, hpump]
            exact if_pos (not_not.1 hsame).symm
          have hexact := h.exact hattached hopen
          rw [hhand] at hexact
          exact hexact
        · grind [carrierFree, replayLeft]
  · cases hstep

theorem ExactInv.transmit {n : Nat} (hstep : sys.transmit n = some next) : ExactInv next := by
  unfold Migration.transmit at hstep
  split at hstep
  · rename_i left epoch hpump
    split at hstep
    · cases hstep
    · rename_i hopen
      cases hstep
      refine h.put (Bool.eq_false_iff.2 hopen) rfl ?_ nofun (fun _ _ _ => h.lock left epoch hpump) rfl
        fun n issued k hreader => hreader
      have hlock : sys.replayLeft = [] := h.lock left epoch hpump
      change sys.replayLeft ++ sys.inHand = left.take n ++ (sys.replayLeft ++ left.drop n)
      rw [hlock, inHand, hpump]
      exact (take_append_drop n left).symm
  · cases hstep

theorem ExactInv.sent (hstep : sys.sent = some next) : ExactInv next := by
  unfold Migration.sent at hstep
  split at hstep
  · rename_i epoch hpump
    cases hstep
    refine h.release ?_ _ nofun nofun
    rw [inHand, hpump]
  · cases hstep

theorem ExactInv.sendFailed (hstep : sys.sendFailed = some next) : ExactInv next := by
  unfold Migration.sendFailed at hstep
  split at hstep
  · cases hstep
    refine { h.broken with exact := fun _ hopen => ?_, held := nofun, lock := nofun }
    change (sys.breakWriter.pipes sys.carrier.writer).broken = false at hopen
    rw [breakWriter, onPipe_self] at hopen
    cases hopen
  · cases hstep

theorem ExactInv.verdict {enabled graceOver : Bool} {now : Instant}
    (hstep : sys.verdict enabled now graceOver = some next) : ExactInv next := by
  unfold Migration.verdict at hstep
  split at hstep
  · rename_i epoch failed hpump
    have hnone : sys.inHand = [] := by rw [inHand, hpump]
    split at hstep
    · cases hstep
      exact h.release hnone _ nofun nofun
    · split at hstep
      · cases hstep
        exact h.release hnone _ nofun nofun
      · split at hstep
        · split at hstep
          · cases hstep
            have hreleased := h.release hnone .returned nofun nofun
            exact { hreleased with }
          · cases hstep
            exact h.release hnone _ nofun nofun
        · cases hstep
          exact h
  · cases hstep

theorem ExactInv.rest (hstep : sys.rest = some next) : ExactInv next := by
  have hrelease := h.release
  grind [Migration.rest, inHand]

theorem ExactInv.closeWriter (hstep : sys.closeWriter = some next) : ExactInv next := by
  unfold Migration.closeWriter at hstep
  split at hstep
  · rename_i hclosing
    cases hstep
    refine h.broken.release ?_ _ nofun nofun
    change (match sys.pump with | .holding .. => _ | .sending .. => _ | _ => _) = _
    rw [hclosing.1]
  · cases hstep

theorem ExactInv.readerTo (reader : ReaderPhase) (hleft : sys.replayLeft = [])
    (hreplay : ∀ left, reader ≠ .replaying left) (hdialled : ∀ n issued, reader ≠ .dialled n issued)
    (hconfirmed : ∀ n issued k, reader ≠ .confirmed n issued k) : ExactInv { sys with reader := reader } := by
  have hleft' : replayLeft { sys with reader := reader } = [] := by grind [replayLeft]
  refine { h with exact := fun hattached hopen => ?_, lock := fun _ _ _ => hleft', dial := fun n hn => ?_,
                  confirm := fun n issued k hreader => ?_ }
  · have hexact := h.exact hattached hopen
    rw [hleft] at hexact
    rw [hleft']
    exact hexact
  · grind [candidate]
  · exact absurd hreader (hconfirmed n issued k)

theorem ExactInv.plan {enabled : Bool} {now : Instant}
    (hstep : sys.plan enabled now = some next) : ExactInv next := by
  unfold Migration.plan at hstep
  split at hstep
  · cases hstep
  · rename_i hreader
    have hleft : sys.replayLeft = [] := by rw [replayLeft, not_not.1 hreader]
    split at hstep
    · cases hstep
      exact h.readerTo _ hleft nofun nofun nofun
    · cases hstep
      have hplanned := h.readerTo .planned hleft nofun nofun nofun
      exact { hplanned with }

theorem ExactInv.retire (hstep : sys.retire = some next) : ExactInv next := by
  unfold Migration.retire at hstep
  split at hstep
  · cases hstep
    exact h.broken
  · cases hstep

theorem ExactInv.dialled {issued : Option SessionId} (hstep : sys.dial issued = some next) :
    ExactInv next := by
  unfold Migration.dial at hstep
  split at hstep
  · rename_i hreader
    cases hstep
    obtain ⟨hqueue, hreport⟩ := h.fresh sys.dialled le_rfl
    have hleft : sys.replayLeft = [] := by rw [replayLeft, hreader]
    refine { h with exact := fun hattached hopen => ?_, lock := fun _ _ _ => rfl, fresh := fun n hn => ?_,
                    known := ?_, redial := fun n hn => ?_, dial := fun n hn => ?_, confirm := nofun }
    · have hexact := h.exact hattached hopen
      rw [hleft] at hexact
      exact hexact
    · exact h.fresh n ((Nat.le_succ _).trans hn)
    · exact ⟨h.known.1.trans (Nat.lt_succ_self _), h.known.2.trans (Nat.lt_succ_self _)⟩
    · rcases mem_cons.1 hn with rfl | hn
      · exact ⟨Nat.lt_succ_self _, h.known.1.ne', h.known.2.ne', hqueue, hreport⟩
      · obtain ⟨hlt, hrest⟩ := h.redial n hn
        exact ⟨hlt.trans (Nat.lt_succ_self _), hrest⟩
    · cases hn
      refine ⟨Nat.lt_succ_self _, h.known.2.ne', hqueue, fun k hk => ?_⟩
      rw [hreport] at hk
      cases hk
  · cases hstep

theorem ExactInv.confirmed (hstep : sys.confirm = some next) : ExactInv next := by
  unfold Migration.confirm at hstep
  split at hstep
  · rename_i pipe issued hreader
    obtain ⟨upAcked, hreport, rfl⟩ := Option.map_eq_some_iff.1 hstep
    have hcandidate : sys.candidate = some pipe := by rw [candidate, hreader]
    have hleft : sys.replayLeft = [] := by rw [replayLeft, hreader]
    refine { h with exact := fun hattached hopen => ?_, lock := fun _ _ _ => rfl, dial := fun n hn => ?_,
                    confirm := fun n issued' k hconfirmed => ?_ }
    · have hexact := h.exact hattached hopen
      rw [hleft] at hexact
      exact hexact
    · cases hn
      exact h.dial pipe hcandidate
    · cases hconfirmed
      exact hreport
  · cases hstep

theorem ExactInv.attach (hstep : sys.attach = some next) : ExactInv next := by
  unfold Migration.attach at hstep
  split at hstep
  · rename_i pipe issued upAcked hreader
    have hleft : sys.replayLeft = [] := by rw [replayLeft, hreader]
    have hcandidate : sys.candidate = some pipe := by rw [candidate, hreader]
    obtain ⟨hlt, -, hqueue, hacked⟩ := h.dial pipe hcandidate
    have hreport := h.confirm pipe issued upAcked hreader
    split at hstep
    · cases hstep
    · rename_i hfree
      split at hstep
      · cases hstep
        exact h.readerTo _ hleft nofun nofun nofun
      · split at hstep
        · cases hstep
          exact h.readerTo _ hleft nofun nofun nofun
        · rename_i replay hreplay
          cases hstep
          have htail : replay = sys.popped.drop upAcked := by
            unfold FlowResume.replayFrom at hreplay
            split at hreplay
            · rename_i ring hring
              exact ((h.mirror ring hring).replayFrom hreplay).2
            · cases hreplay
          have hsending : ∀ left epoch, sys.pump ≠ .sending left epoch := by
            intro left epoch hpump
            simp [carrierFree, hpump] at hfree
          have hstale :
              inHand { sys with carrier := ⟨pipe, (sys.resume.commitMigration issued).carrierEpoch⟩ } = [] := by
            unfold inHand
            split
            · rename_i batch epoch hpump
              have hold := h.held batch epoch hpump
              have hepoch := h.epoch
              refine if_neg ?_
              change epoch ≠ sys.resume.carrierEpoch + 1
              omega
            · rename_i left epoch hpump
              exact absurd hpump (hsending left epoch)
            · rfl
          refine { h with exact := fun hattached _ => ?_, epoch := rfl, held := fun batch epoch hpump => ?_,
                          lock := fun left epoch hpump => absurd hpump (hsending left epoch),
                          known := ⟨h.known.1, hlt⟩, redial := fun n hn => ?_, dial := nofun, confirm := nofun }
          · -- the connection carries nothing yet
            have hlength := hacked upAcked hreport hattached.symm
            obtain ⟨rest, hrest⟩ := (prefix_append ..).trans h.behind
            change sys.server.forwarded ++ (sys.pipes pipe).queue ++ (replay ++ inHand { sys with carrier := _ }) = _
            rw [hstale, hqueue, htail, hlength, ← hrest, drop_left, append_nil, append_nil]
          · have hold := h.held batch epoch hpump
            have hepoch := h.epoch
            change epoch ≤ sys.resume.carrierEpoch + 1
            omega
          · have hredial := h.redial
            grind
  · cases hstep

theorem ExactInv.replay {n : Nat} (hstep : sys.replay n = some next) : ExactInv next := by
  unfold Migration.replay at hstep
  split at hstep
  · rename_i left hreader
    split at hstep
    · cases hstep
    · rename_i hopen
      cases hstep
      have hleft : sys.replayLeft = left := by rw [replayLeft, hreader]
      refine h.put (Bool.eq_false_iff.2 hopen) rfl ?_ (fun _ _ hpump => hpump) (fun left' epoch hpump => ?_) ?_ nofun
      · change sys.replayLeft ++ sys.inHand = left.take n ++ (left.drop n ++ sys.inHand)
        rw [hleft, ← append_assoc, take_append_drop]
      · have hnone := h.lock left' epoch hpump
        rw [hleft] at hnone
        change left.drop n = []
        rw [hnone, drop_nil]
      · rw [candidate, candidate, hreader]
  · cases hstep

theorem ExactInv.replayed (hstep : sys.replayed = some next) : ExactInv next := by
  unfold Migration.replayed at hstep
  split at hstep
  · rename_i hreader
    cases hstep
    refine h.readerTo _ ?_ nofun nofun nofun
    rw [replayLeft, hreader]
  · cases hstep

theorem ExactInv.replayFailed (hstep : sys.replayFailed = some next) : ExactInv next := by
  unfold Migration.replayFailed at hstep
  split at hstep
  · cases hstep
    refine { h.broken with exact := fun _ hopen => ?_, lock := fun _ _ _ => rfl, dial := nofun, confirm := nofun }
    change (sys.breakWriter.pipes sys.carrier.writer).broken = false at hopen
    rw [breakWriter, onPipe_self] at hopen
    cases hopen
  · cases hstep

theorem ExactInv.delivered (hstep : sys.delivered = some next) : ExactInv next := by
  unfold Migration.delivered at hstep
  split at hstep
  · rename_i hreader
    cases hstep
    refine h.readerTo _ ?_ nofun nofun nofun
    rw [replayLeft, hreader]
  · cases hstep

theorem ExactInv.giveUp (hstep : sys.giveUp = some next) : ExactInv next := by
  unfold Migration.giveUp at hstep
  split at hstep
  case h_5 => cases hstep
  all_goals
    rename_i hreader
    cases hstep
    refine h.readerTo _ ?_ nofun nofun nofun
    rw [replayLeft, hreader]

theorem ExactInv.abandon (hstep : sys.abandon = some next) : ExactInv next := by
  unfold Migration.abandon at hstep
  split at hstep
  · rename_i hreader
    cases hstep
    have hstopped := h.readerTo .stopped (by rw [replayLeft, hreader]) nofun nofun nofun
    exact { hstopped with }
  · cases hstep

theorem ExactInv.hit (hstep : sys.hit pipe = some next) : ExactInv next := by
  unfold Migration.hit at hstep
  split at hstep
  · rename_i hredial
    cases hstep
    obtain ⟨hlt, hattached, hwriter, hqueue, hreport⟩ := h.redial pipe hredial
    have hself : (sys.report pipe).pipes pipe =
        { sys.pipes pipe with report := some sys.server.forwarded.length } := onPipe_self _
    have hother : ∀ n ≠ pipe, (sys.report pipe).pipes n = sys.pipes n := fun n hn => onPipe_of_ne _ hn
    refine { h with behind := ?_, exact := fun hsame _ => absurd hsame hwriter, fresh := fun n hn => ?_,
                    known := ⟨hlt, h.known.2⟩, redial := fun n hn => ?_, dial := fun n hn => ?_,
                    confirm := fun n issued k hconfirmed => ?_ }
    · rw [hself]
      rw [hqueue, append_nil]
      exact (prefix_append ..).trans h.behind
    · rw [hother n (hlt.trans_le hn).ne']
      exact h.fresh n hn
    · obtain ⟨hmem, hne⟩ := mem_filter.1 hn
      have hne : n ≠ pipe := of_decide_eq_true hne
      obtain ⟨hn1, -, hn3, hn4, hn5⟩ := h.redial n hmem
      rw [hother n hne]
      exact ⟨hn1, hne, hn3, hn4, hn5⟩
    · obtain ⟨hn1, hn2, hn3, hn4⟩ := h.dial n hn
      by_cases hne : n = pipe
      · subst hne
        rw [hself]
        refine ⟨hn1, hn2, hn3, fun k hk _ => ?_⟩
        exact (Option.some.inj hk).symm
      · rw [hother n hne]
        exact ⟨hn1, hn2, hn3, fun k _ hsame => absurd hsame hne⟩
    · have hbefore := h.confirm n issued k hconfirmed
      by_cases hne : n = pipe
      · rw [hne, hreport] at hbefore
        cases hbefore
      · rw [hother n hne]
        exact hbefore
  · cases hstep

theorem ExactInv.forward (n : Nat) : ExactInv (sys.forward n) := by
  set taken := (sys.pipes sys.server.attached).queue with htaken
  have hpipes : (sys.forward n).pipes = (sys.consume n).pipes := rfl
  have hself : (sys.forward n).pipes sys.server.attached =
      { sys.pipes sys.server.attached with queue := taken.drop n } := by
    rw [hpipes]
    exact onPipe_self _
  have hother : ∀ m ≠ sys.server.attached, (sys.forward n).pipes m = sys.pipes m := by
    intro m hm
    rw [hpipes]
    exact onPipe_of_ne _ hm
  have hserver : (sys.forward n).server = ⟨sys.server.attached, sys.server.forwarded ++ taken.take n⟩ := rfl
  -- what is forwarded and what is on its way stay the same together
  have hmoved : sys.server.forwarded ++ taken.take n ++ taken.drop n = sys.server.forwarded ++ taken := by
    rw [append_assoc, take_append_drop]
  refine ⟨h.mirror, h.stream, ?_, fun hattached hopen => ?_, h.epoch, h.held, h.lock, fun m hm => ?_, h.known,
    fun m hm => ?_, fun m hm => ?_, fun m issued k hconfirmed => ?_⟩
  · rw [hserver]
    rw [hself, hmoved]
    exact h.behind
  · change sys.server.attached = sys.carrier.writer at hattached
    change ((sys.forward n).pipes sys.carrier.writer).broken = false at hopen
    rw [← hattached, hself] at hopen
    have hexact := h.exact hattached (hattached ▸ hopen)
    rw [← hattached] at hexact
    rw [hserver]
    change _ ++ ((sys.forward n).pipes sys.carrier.writer).queue ++ (sys.replayLeft ++ sys.inHand) = _
    rw [← hattached, hself, hmoved]
    exact hexact
  · rw [hother m (h.known.1.trans_le hm).ne']
    exact h.fresh m hm
  · obtain ⟨hm1, hm2, hm3, hm4⟩ := h.redial m hm
    rw [hother m hm2]
    exact ⟨hm1, hm2, hm3, hm4⟩
  · obtain ⟨hm1, hm2, hm3, hm4⟩ := h.dial m hm
    rw [hserver]
    by_cases hsame : m = sys.server.attached
    · -- nothing was sent on it, so nothing is taken from it
      subst hsame
      have hnil : taken = [] := hm3
      rw [hself, hnil, take_nil, append_nil, drop_nil]
      exact ⟨hm1, hm2, rfl, hm4⟩
    · rw [hother m hsame]
      exact ⟨hm1, hm2, hm3, fun k _ heq => absurd heq hsame⟩
  · have hbefore := h.confirm m issued k hconfirmed
    by_cases hsame : m = sys.server.attached
    · subst hsame
      rw [hself]
      exact hbefore
    · rw [hother m hsame]
      exact hbefore

theorem ExactInv.change {state : TcpFlowState} {more : List Bytes}
    (hstep : sys.change state more = some next) : ExactInv next := by
  unfold Migration.change at hstep
  split at hstep
  · rename_i hmore
    cases hstep
    refine { h with stream := ?_ }
    rw [hmore.1, flatten_append, ← append_assoc, h.stream]
  · cases hstep

theorem ExactInv.step {label : MigrationStep} (hstep : sys.step label = some next) :
    ExactInv next := by
  cases label with
  | change state more => exact h.change hstep
  | pop tcp => exact h.pop hstep
  | acquire => exact h.acquire hstep
  | transmit n => exact h.transmit hstep
  | sent => exact h.sent hstep
  | sendFailed => exact h.sendFailed hstep
  | verdict enabled now graceOver => exact h.verdict hstep
  | rest => exact h.rest hstep
  | closeWriter => exact h.closeWriter hstep
  | plan enabled now => exact h.plan hstep
  | retire => exact h.retire hstep
  | dial issued => exact h.dialled hstep
  | confirm => exact h.confirmed hstep
  | attach => exact h.attach hstep
  | replay n => exact h.replay hstep
  | replayed => exact h.replayed hstep
  | replayFailed => exact h.replayFailed hstep
  | delivered => exact h.delivered hstep
  | giveUp => exact h.giveUp hstep
  | abandon => exact h.abandon hstep
  | hit pipe => exact h.hit hstep
  | forward n =>
    cases hstep
    exact h.forward n
  | sever pipe =>
    cases (Option.ite_none_right_eq_some.1 hstep).2
    exact h.severed

theorem ExactInv.run {labels : List MigrationStep} (hrun : sys.run labels = some next) :
    ExactInv next := by
  induction labels generalizing sys with
  | nil =>
    cases hrun
    exact h
  | cons label rest ih =>
    obtain ⟨middle, hstep, hrest⟩ := Option.bind_eq_some_iff.1 hrun
    exact ih (h.step hstep) hrest

end Steps

/-- In every state of every interleaving, what the server has forwarded is a prefix of the client's
uplink.  While the server listens to the installed carrier and no send on it has failed, nothing is
missing either: what is neither sent nor in hand still waits for the pump. -/
theorem uplink_exactly_once {flow : TcpFlowState} {sessionId : Option SessionId} {capacityBytes : Nat}
    {labels : List MigrationStep} (hrun : (initial flow sessionId capacityBytes).run labels = some sys) :
    sys.server.forwarded <+: sys.uplink ∧
      (sys.server.attached = sys.carrier.writer → (sys.pipes sys.carrier.writer).broken = false →
        sys.server.forwarded ++ (sys.pipes sys.carrier.writer).queue ++ (sys.replayLeft ++ sys.inHand) ++
          sys.flow.pendingClientData.flatten = sys.uplink) := by
  have hinv := (ExactInv.initial flow sessionId capacityBytes).run hrun
  refine ⟨?_, fun hattached hopen => ?_⟩
  · rw [← hinv.stream]
    exact ((prefix_append ..).trans hinv.behind).trans (prefix_append ..)
  · rw [hinv.exact hattached hopen, hinv.stream]

/-- A send that fails after three of four bytes, of which the server forwards two, and a migration to a
second carrier that sends the rest and one byte more. -/
def resumedRun (flow : TcpFlowState) : List MigrationStep :=
  [.change { flow with pendingClientData := [[1, 2, 3, 4]] } [[1, 2, 3, 4]], .pop .standard, .acquire, .transmit 3,
    .forward 2, .sendFailed, .plan true 0, .dial (some 9), .hit 1, .confirm, .attach, .replay 1, .replay 1,
    .replayed, .delivered, .verdict true 0 false, .change { flow with pendingClientData := [[5]] } [[5]],
    .pop .standard, .acquire, .transmit 1, .sent, .forward 3]

theorem uplink_exactly_once_resumed :
    ∃ sys, (initial sampleFlow (some 7) 64).run (resumedRun sampleFlow) = some sys ∧
      sys.server.forwarded = [1, 2, 3, 4, 5] ∧ sys.carrier.epoch = 1 ∧ sys.server.forwarded <+: sys.uplink := by
  have hend : ((initial sampleFlow (some 7) 64).run (resumedRun sampleFlow)).map
      (fun sys => (sys.server.forwarded, sys.carrier.epoch)) = some ([1, 2, 3, 4, 5], 1) := by
    decide +kernel
  obtain ⟨sys, hrun, heq⟩ := Option.map_eq_some_iff.1 hend
  obtain ⟨hforwarded, hepoch⟩ := Prod.mk.inj heq
  exact ⟨sys, hrun, hforwarded, hepoch, (uplink_exactly_once hrun).1⟩

end Migration

end OutlineProxy.Tcp
