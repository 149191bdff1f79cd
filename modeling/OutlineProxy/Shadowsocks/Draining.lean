import OutlineProxy.Shadowsocks.Writer

/-! What the server reads from an authenticated stream of which any part has arrived. -/

namespace OutlineProxy.Shadowsocks

open List Sealing AeadStreamDecryptor

variable {κ : Type} {p : Primitives κ} {u : Uplink} {now sender : Nat} {buffer rest after chunk : Bytes}

namespace Uplink

def shown (u : Uplink) (done : List Bytes) : Bytes := (if u.user.cipher.isSs2022 then u.target else []) ++ done.flatten

def nonceAfter (u : Uplink) (done : List Bytes) : Nat := u.firstNonce + 2 * done.length

def mode (u : Uplink) (pendingChunkLen : Option Nat) : ActiveStreamMode :=
  if u.user.cipher.isSs2022 then .ss2022 u.salt true none pendingChunkLen else .legacy u.salt pendingChunkLen

theorem nonceAfter_concat (u : Uplink) (done : List Bytes) (chunk : Bytes) :
    u.nonceAfter (done ++ [chunk]) = u.nonceAfter done + 2 := by
  simp only [nonceAfter, length_append, length_singleton]
  omega

theorem nonceAfter_le {done todo : List Bytes} (h : u.chunks = done ++ todo) :
    u.nonceAfter done + 2 * todo.length = u.nonceAfter u.chunks := by
  rw [h, nonceAfter, nonceAfter, length_append]
  omega

end Uplink

/-- Where the server is in an authenticated stream: the stream's state, what has been read, what is left to read. -/
inductive Draining (p : Primitives κ) (u : Uplink) (sender : Nat) : ActiveStream κ → Bytes → Bytes → Prop
  | header (hss2022 : u.user.cipher.isSs2022 = true) :
      Draining p u sender ⟨u.user, sender, u.key p, 1, .ss2022 u.salt false (some u.variableHeader.length) none⟩ []
        (p.aead.encrypt (u.key p) 1 u.variableHeader ++ frames p (u.key p) 2 u.chunks)
  | between (done todo : List Bytes) (hchunks : u.chunks = done ++ todo) :
      Draining p u sender ⟨u.user, sender, u.key p, u.nonceAfter done, u.mode none⟩ (u.shown done)
        (frames p (u.key p) (u.nonceAfter done) todo)
  | chunk (done todo : List Bytes) (chunk : Bytes) (hchunks : u.chunks = done ++ chunk :: todo) :
      Draining p u sender ⟨u.user, sender, u.key p, u.nonceAfter done + 1, u.mode (some chunk.length)⟩ (u.shown done)
        (p.aead.encrypt (u.key p) (u.nonceAfter done + 1) chunk ++ frames p (u.key p) (u.nonceAfter done + 2) todo)

/-- What a turn may leave: a later position in the stream, with a shorter buffer if there is more to do. A stream that
has arrived as a whole is read to its end. -/
structure Turned (p : Primitives κ) (u : Uplink) (sender : Nat) (buffer rest out : Bytes)
    (result : Bytes × ActiveStream κ × Bytes × Bool) : Prop where
  draining : Draining p u sender result.2.1 (out ++ result.2.2.1) (result.1 ++ rest)
  shorter : result.2.2.2 = true → result.1.length < buffer.length
  ended : result.2.2.2 = false → rest = [] →
    out ++ result.2.2.1 = u.plaintext ∧ u.nonceAfter u.chunks ≤ maxNonceCounter
  bounded : result.2.1.nonceCounter ≤ maxNonceCounter

variable {key : κ} {nonce : Nat}

/-- A field of the stream has arrived or not. -/
theorem arrived_cases {n : Nat} {message : Bytes}
    (hwire : buffer ++ rest = p.aead.encrypt key nonce message ++ after) (hn : message.length = n) :
    (buffer.length < n + tagLen ∧ rest ≠ []) ∨
      ¬ buffer.length < n + tagLen ∧ buffer.take (n + tagLen) = p.aead.encrypt key nonce message ∧
        buffer.drop (n + tagLen) ++ rest = after ∧ (buffer.drop (n + tagLen)).length < buffer.length := by
  have hfield := p.aead.length_encrypt key nonce message
  rw [hn] at hfield
  by_cases hshort : buffer.length < n + tagLen
  · refine .inl ⟨hshort, ?_⟩
    rintro rfl
    have hlength := congrArg length hwire
    simp only [length_append, length_nil] at hlength
    omega
  · obtain ⟨htake, hdrop⟩ := take_of_append hwire hfield (by omega)
    refine .inr ⟨hshort, htake, hdrop, ?_⟩
    rw [length_drop, tagLen]
    rw [tagLen] at hshort
    omega

theorem drainChunk_cases (hwire : buffer ++ rest = p.aead.encrypt key nonce chunk ++ after) :
    (drainChunk p buffer key nonce chunk.length = .ok ⟨buffer, nonce, some chunk.length, [], false⟩ ∧ rest ≠ []) ∨
      (∃ left, left ++ rest = after ∧ left.length < buffer.length ∧ nonce < maxNonceCounter ∧
        drainChunk p buffer key nonce chunk.length = .ok ⟨left, nonce + 1, none, chunk, true⟩) ∨
      maxNonceCounter ≤ nonce ∧ ∃ error, drainChunk p buffer key nonce chunk.length = .error error := by
  rw [drainChunk]
  obtain ⟨hshort, hrest⟩ | ⟨hshort, htake, hdrop, hless⟩ := arrived_cases hwire rfl
  · rw [if_pos hshort]
    exact .inl ⟨rfl, hrest⟩
  · rw [if_neg hshort]
    by_cases hnonce : nonce < maxNonceCounter
    · refine .inr (.inl ⟨_, hdrop, hless, hnonce, ?_⟩)
      rw [nextStreamNonce_ok hnonce, htake]
      simp only [bind, Except.bind, p.aead.decrypt_encrypt]
    · rw [nextStreamNonce, if_pos (by omega)]
      exact .inr (.inr ⟨by omega, _, rfl⟩)

theorem drainLengthHeader_cases {maxSize : Nat} (hbound : chunk.length ≤ maxSize)
    (hwide : maxSize < 256 ^ 2) (hwire : buffer ++ rest = p.aead.encrypt key nonce (toBe 2 chunk.length) ++ after) :
    (drainLengthHeader p buffer key nonce maxSize = .ok none ∧ rest ≠ []) ∨
      (∃ left, left ++ rest = after ∧ left.length < buffer.length ∧ nonce < maxNonceCounter ∧
        drainLengthHeader p buffer key nonce maxSize = .ok (some (chunk.length, left, nonce + 1))) ∨
      maxNonceCounter ≤ nonce ∧ ∃ error, drainLengthHeader p buffer key nonce maxSize = .error error := by
  rw [drainLengthHeader]
  obtain ⟨hshort, hrest⟩ | ⟨hshort, htake, hdrop, hless⟩ := arrived_cases hwire (length_toBe 2 _)
  · rw [if_pos hshort]
    exact .inl ⟨rfl, hrest⟩
  · rw [if_neg hshort]
    by_cases hnonce : nonce < maxNonceCounter
    · refine .inr (.inl ⟨_, hdrop, hless, hnonce, ?_⟩)
      rw [nextStreamNonce_ok hnonce, htake]
      simp only [bind, Except.bind, p.aead.decrypt_encrypt, length_toBe, ofBe_toBe (Nat.lt_of_le_of_lt hbound hwide)]
      rw [if_neg (by simp), if_neg (by omega)]
    · rw [nextStreamNonce, if_pos (by omega)]
      exact .inr (.inr ⟨by omega, _, rfl⟩)

theorem drainTurn_mode (buffer : Bytes) (nonce : Nat) (pending : Option Nat) :
    drainTurn p buffer ⟨u.user, sender, u.key p, nonce, u.mode pending⟩ =
      (drainPayload p buffer (u.key p) nonce pending u.user.cipher.maxPayloadLen).map fun drained =>
        (drained.buffer, ⟨u.user, sender, u.key p, drained.nonceCounter, u.mode drained.pendingLen⟩, drained.output,
          drained.more) := by
  by_cases hss2022 : u.user.cipher.isSs2022 = true
  · have hmode : ∀ pending, u.mode pending = .ss2022 u.salt true none pending := fun _ => if_pos hss2022
    have hmax : u.user.cipher.maxPayloadLen = maxChunkSize := if_pos hss2022
    simp only [hmode, hmax, drainTurn]
    cases drainPayload p buffer (u.key p) nonce pending maxChunkSize <;> rfl
  · have hmode : ∀ pending, u.mode pending = .legacy u.salt pending := fun _ => if_neg hss2022
    have hmax : u.user.cipher.maxPayloadLen = legacyMaxChunkSize := if_neg hss2022
    simp only [hmode, hmax, drainTurn]
    cases drainPayload p buffer (u.key p) nonce pending legacyMaxChunkSize <;> rfl

theorem drainTurn_chunk {done todo : List Bytes} {whole : Bytes} (hchunks : u.chunks = done ++ chunk :: todo)
    (hnonce : u.nonceAfter done + 1 ≤ maxNonceCounter) (hwhole : buffer.length ≤ whole.length)
    (hwire : buffer ++ rest = p.aead.encrypt (u.key p) (u.nonceAfter done + 1) chunk ++
      frames p (u.key p) (u.nonceAfter done + 2) todo) :
    (∃ drained, drainChunk p buffer (u.key p) (u.nonceAfter done + 1) chunk.length = .ok drained ∧
      Turned p u sender whole rest (u.shown done) (drained.buffer,
        ⟨u.user, sender, u.key p, drained.nonceCounter, u.mode drained.pendingLen⟩, drained.output, drained.more)) ∨
      (∃ error, drainChunk p buffer (u.key p) (u.nonceAfter done + 1) chunk.length = .error error) ∧
        maxNonceCounter < u.nonceAfter u.chunks := by
  obtain ⟨hshort, hrest⟩ | ⟨left, hleft, hshorter, hroom, hdrain⟩ | ⟨hfull, herror⟩ := drainChunk_cases hwire
  · refine .inl ⟨_, hshort, ?_, ?_, ?_, hnonce⟩
    · rw [append_nil, hwire]
      exact .chunk done todo chunk hchunks
    · simp
    · exact fun _ hnone => absurd hnone hrest
  · refine .inl ⟨_, hdrain, ?_, fun _ => by simpa using Nat.lt_of_lt_of_le hshorter hwhole, by simp, hroom⟩
    have hposition : Draining p u sender _ _ _ := .between (done ++ [chunk]) todo (by simp [hchunks])
    rw [u.nonceAfter_concat, Uplink.shown, flatten_concat, ← append_assoc] at hposition
    rwa [hleft]
  · have htotal := Uplink.nonceAfter_le hchunks
    rw [length_cons] at htotal
    exact .inr ⟨herror, by omega⟩

theorem parseSs2022RequestHeader_variableHeader (h : u.WellFormed now) (hss2022 : u.user.cipher.isSs2022 = true) :
    parseSs2022RequestHeader u.variableHeader = .ok u.target := by
  obtain ⟨target, timestamp, padding, hheader, htarget, _, hpadding⟩ := h.header hss2022
  obtain ⟨bytes, hbytes, hlength, _, hvariable⟩ := buildRequestHeader_cases hheader
  rw [hbytes] at htarget
  cases htarget
  rw [parseSs2022RequestHeader, hvariable, parseRequestVariableHeader_of_target hbytes hlength hpadding]
  simp [encodeTargetAndPayload, hbytes]

theorem drainTurn_header (h : u.WellFormed now) (hss2022 : u.user.cipher.isSs2022 = true)
    (hwire : buffer ++ rest = p.aead.encrypt (u.key p) 1 u.variableHeader ++ frames p (u.key p) 2 u.chunks) :
    ∃ result, drainTurn p buffer
        ⟨u.user, sender, u.key p, 1, .ss2022 u.salt false (some u.variableHeader.length) none⟩ = .ok result ∧
      Turned p u sender buffer rest [] result := by
  rw [drainTurn]
  simp only [drainHeader]
  obtain ⟨hshort, hrest⟩ | ⟨hshort, htake, hdrop, hless⟩ := arrived_cases hwire rfl
  · rw [if_pos hshort]
    refine ⟨_, rfl, ?_, by simp, fun _ hnone => absurd hnone hrest, by simp [maxNonceCounter]⟩
    simp only [hwire]
    exact .header hss2022
  · rw [if_neg hshort, nextStreamNonce_ok (by simp [maxNonceCounter]), htake]
    simp only [bind, Except.bind, p.aead.decrypt_encrypt, parseSs2022RequestHeader_variableHeader h hss2022]
    refine ⟨_, rfl, ?_, fun _ => hless, by simp, by simp [maxNonceCounter]⟩
    have hposition : Draining p u sender _ _ _ := .between [] u.chunks rfl
    simp only [Uplink.nonceAfter, Uplink.firstNonce, Uplink.mode, Uplink.shown, hss2022, if_true, length_nil,
      Nat.mul_zero, Nat.add_zero, flatten_nil, append_nil] at hposition
    rw [← hdrop] at hposition
    exact hposition

variable {active : ActiveStream κ} {out : Bytes}

theorem drainTurn_cases (h : u.WellFormed now)
    (hdraining : Draining p u sender active out (buffer ++ rest)) (hbounded : active.nonceCounter ≤ maxNonceCounter) :
    (∃ result, drainTurn p buffer active = .ok result ∧ Turned p u sender buffer rest out result) ∨
      (∃ error, drainTurn p buffer active = .error error) ∧ maxNonceCounter < u.nonceAfter u.chunks := by
  generalize hwire : buffer ++ rest = wire at hdraining
  cases hdraining with
  | header hss2022 => exact .inl (drainTurn_header h hss2022 hwire)
  | chunk done todo chunk hchunks =>
    rw [drainTurn_mode, drainPayload]
    obtain ⟨drained, hdrain, hturned⟩ | ⟨⟨error, herror⟩, hfull⟩ :=
      drainTurn_chunk hchunks hbounded (Nat.le_refl buffer.length) hwire
    · exact .inl ⟨_, by rw [hdrain]; rfl, hturned⟩
    · exact .inr ⟨⟨error, by rw [herror]; rfl⟩, hfull⟩
  | between done todo hchunks =>
    rw [drainTurn_mode, drainPayload]
    cases todo with
    | nil =>
      -- everything is read, and nothing is left to arrive
      obtain ⟨rfl, rfl⟩ := append_eq_nil_iff.mp hwire
      rw [append_nil] at hchunks
      refine .inl ⟨_, rfl, ?_, by simp, fun _ _ => ?_, hbounded⟩
      · simpa [frames] using Draining.between (p := p) (u := u) done [] (by simp [hchunks])
      · rw [hchunks]
        refine ⟨?_, hbounded⟩
        simp [Uplink.plaintext, Uplink.shown, hchunks]
    | cons chunk todo =>
      have hbound := h.bound chunk (by simp [hchunks])
      have htotal := Uplink.nonceAfter_le hchunks
      rw [length_cons] at htotal
      have hwire' := hwire
      rw [frames, Aead.frame, append_assoc] at hwire'
      obtain ⟨hshort, hrest⟩ | ⟨left, hleft, hshorter, hroom, hlength⟩ | ⟨hfull, error, herror⟩ :=
        drainLengthHeader_cases hbound u.user.cipher.maxPayloadLen_lt hwire'
      · refine .inl ⟨_, by rw [hshort]; rfl, ?_, by simp, fun _ hnone => absurd hnone hrest, hbounded⟩
        simpa [hwire] using Draining.between (p := p) (u := u) done (chunk :: todo) hchunks
      · obtain ⟨drained, hdrain, hturned⟩ | ⟨⟨error, herror⟩, hfull⟩ :=
          drainTurn_chunk hchunks hroom (Nat.le_of_lt hshorter) hleft
        · exact .inl ⟨_, by rw [hlength]; simp only [hdrain]; rfl, hturned⟩
        · exact .inr ⟨⟨error, by rw [hlength]; simp only [herror]; rfl⟩, hfull⟩
      · exact .inr ⟨⟨error, by rw [herror]; rfl⟩, by omega⟩

structure Drains (p : Primitives κ) (u : Uplink) (sender : Nat) (rest out : Bytes)
    (result : Bytes × ActiveStream κ × Bytes) : Prop where
  draining : Draining p u sender result.2.1 (out ++ result.2.2) (result.1 ++ rest)
  ended : rest = [] → out ++ result.2.2 = u.plaintext ∧ u.nonceAfter u.chunks ≤ maxNonceCounter
  bounded : result.2.1.nonceCounter ≤ maxNonceCounter

theorem drainLoop_cases (h : u.WellFormed now) {fuel : Nat}
    (hfuel : buffer.length < fuel) (hdraining : Draining p u sender active out (buffer ++ rest))
    (hbounded : active.nonceCounter ≤ maxNonceCounter) :
    (∃ result, drainLoop p fuel buffer active = .ok result ∧ Drains p u sender rest out result) ∨
      (∃ error, drainLoop p fuel buffer active = .error error) ∧ maxNonceCounter < u.nonceAfter u.chunks := by
  induction fuel generalizing buffer active out with
  | zero => exact absurd hfuel (Nat.not_lt_zero _)
  | succ fuel ih =>
    rw [drainLoop]
    obtain ⟨⟨left, next, output, more⟩, hturn, hturned⟩ | ⟨⟨error, herror⟩, hfull⟩ :=
      drainTurn_cases h hdraining hbounded
    · rw [hturn]
      cases more with
      | false => exact .inl ⟨_, rfl, hturned.draining, hturned.ended rfl, hturned.bounded⟩
      | true =>
        have hshorter : left.length < buffer.length := hturned.shorter rfl
        obtain ⟨⟨last, final, others⟩, hloop, hdrains⟩ | ⟨⟨error, herror⟩, hfull⟩ :=
          ih (Nat.lt_of_lt_of_le hshorter (Nat.le_of_lt_succ hfuel)) hturned.draining hturned.bounded
        · refine .inl ⟨(last, final, output ++ others), ?_, ?_, ?_, hdrains.bounded⟩
          · simp only [hloop]
            rfl
          · simpa only [append_assoc] using hdrains.draining
          · simpa only [append_assoc] using hdrains.ended
        · refine .inr ⟨⟨error, ?_⟩, hfull⟩
          simp only [herror]
          rfl
    · exact .inr ⟨⟨error, by rw [herror]⟩, hfull⟩

theorem Draining.userIndex {left : Bytes} (h : Draining p u sender active out left) :
    active.userIndex = sender := by
  cases h <;> rfl

end OutlineProxy.Shadowsocks
