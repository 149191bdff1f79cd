import OutlineProxy.Shadowsocks.Draining

/-! How the pieces a stream arrives in bear on whose it is taken for and what is read from it. -/

namespace OutlineProxy.Shadowsocks

open List Sealing AeadStreamDecryptor

variable {κ : Type} {p : Primitives κ} {u : Uplink} {now sender : Nat}

def OnlySenderOpens (p : Primitives κ) (users : List UserKey) (sender : Nat) (stream : Bytes) : Prop :=
  ∀ user index, users[index]? = some user → index ≠ sender → user.need ≤ stream.length → user.openFirst p stream = none

namespace Uplink

def first (u : Uplink) : Bytes := if u.user.cipher.isSs2022 then u.fixedHeader else toBe 2 (u.chunks.headD []).length

theorem length_first (h : u.WellFormed now) : u.first.length = u.user.firstPlaintextLen := by
  have hheader := h.header
  grind [first, UserKey.firstPlaintextLen, ss2022RequestFixedHeaderLen, buildRequestHeader_cases, length_toBe]

theorem exists_wire_eq (h : u.WellFormed now) :
    ∃ after, u.wire p = u.salt ++ (p.aead.encrypt (u.key p) 0 u.first ++ after) := by
  rw [wire, body, first, firstNonce]
  by_cases hss2022 : u.user.cipher.isSs2022 = true
  · simp only [if_pos hss2022, Aead.frame, append_assoc]
    exact ⟨_, rfl⟩
  · rw [Bool.not_eq_true] at hss2022
    obtain ⟨chunk, rest, hchunks⟩ := exists_cons_of_ne_nil (h.begun hss2022)
    simp only [hss2022, hchunks, frames, Aead.frame, append_assoc, headD_cons, Bool.false_eq_true, if_false,
      nil_append]
    exact ⟨_, rfl⟩

theorem need_le_length_wire (h : u.WellFormed now) : u.user.need ≤ (u.wire p).length := by
  obtain ⟨after, hwire⟩ := exists_wire_eq (p := p) h
  rw [hwire, length_append, length_append, p.aead.length_encrypt, length_first h, h.salt, UserKey.need]
  omega

end Uplink

theorem take_of_isPrefix {xs ys : Bytes} {n : Nat} (h : xs <+: ys) (hn : n ≤ xs.length) : xs.take n = ys.take n := by
  obtain ⟨rest, rfl⟩ := h
  rw [take_append_of_le_length hn]

theorem UserKey.saltLen_le_need (user : UserKey) : user.cipher.saltLen ≤ user.need := Nat.le_add_right _ _

variable {buffer : Bytes} {user : UserKey}

theorem UserKey.openFirst_of_isPrefix {stream : Bytes} (h : buffer <+: stream)
    (hneed : user.need ≤ buffer.length) : user.openFirst p buffer = user.openFirst p stream := by
  have hsalt := user.saltLen_le_need
  rw [openFirst, openFirst, take_of_isPrefix h hneed, take_of_isPrefix h (Nat.le_trans hsalt hneed)]

theorem openFirst_sender (h : u.WellFormed now) : u.user.openFirst p (u.wire p) = some u.first := by
  obtain ⟨after, hwire⟩ := Uplink.exists_wire_eq (p := p) h
  have hsalt : (u.wire p).take u.user.cipher.saltLen = u.salt := by
    rw [hwire, ← h.salt, take_left]
  have hfield : ((u.wire p).take u.user.need).drop u.user.cipher.saltLen = p.aead.encrypt (u.key p) 0 u.first := by
    rw [hwire, ← append_assoc]
    refine drop_take_field _ _ _ h.salt.symm ?_
    rw [p.aead.length_encrypt, Uplink.length_first h, h.salt, UserKey.need]
  have hdecrypt : p.aead.decrypt (p.deriveSubkey u.user.cipher u.user.masterKey u.salt) 0
      (p.aead.encrypt (u.key p) 0 u.first) = some u.first := p.aead.decrypt_encrypt _ _ _
  rw [UserKey.openFirst, hsalt, hfield, tryOpenFixedHeader, hdecrypt]
  exact if_pos (Uplink.length_first h)

def Uplink.authenticated (p : Primitives κ) (u : Uplink) (sender : Nat) (buffer : Bytes) : Bytes × ActiveStream κ :=
  if u.user.cipher.isSs2022 then
    (buffer.drop u.user.need, ⟨u.user, sender, u.key p, 1, .ss2022 u.salt false (some u.variableHeader.length) none⟩)
  else (buffer.drop u.user.cipher.saltLen, ⟨u.user, sender, u.key p, 0, .legacy u.salt none⟩)

theorem length_variableHeader_lt (h : u.WellFormed now) (hss2022 : u.user.cipher.isSs2022 = true) :
    u.variableHeader.length < 256 ^ 2 := by
  have hheader := h.header
  grind [ss2022MaxPaddingLen, buildRequestHeader_cases, length_toWireBytes_le, length_append, length_toBe]

theorem tryUser_sender (h : u.WellFormed now) (hbuffer : buffer <+: u.wire p)
    (hneed : u.user.need ≤ buffer.length) :
    tryUser p now buffer u.user sender =
      .ok (.authenticated (u.authenticated p sender buffer).1 (u.authenticated p sender buffer).2) := by
  have hopen := openFirst_sender (p := p) h
  rw [← UserKey.openFirst_of_isPrefix hbuffer hneed] at hopen
  have hsalt : buffer.take u.user.cipher.saltLen = u.salt := by
    obtain ⟨after, hwire⟩ := Uplink.exists_wire_eq (p := p) h
    rw [take_of_isPrefix hbuffer (Nat.le_trans u.user.saltLen_le_need hneed), hwire, ← h.salt, take_left]
  simp only [tryUser, hopen, hsalt]
  rw [if_neg (by omega), Uplink.authenticated]
  by_cases hss2022 : u.user.cipher.isSs2022 = true
  · obtain ⟨target, timestamp, padding, hheader, _, hfresh, _⟩ := h.header hss2022
    obtain ⟨bytes, _, _, hfixed, _⟩ := buildRequestHeader_cases hheader
    have hvalid : validateSs2022RequestFixedHeader u.first now = .ok u.variableHeader.length := by
      rw [validateSs2022RequestFixedHeader, Uplink.first, if_pos hss2022, hfixed,
        validateRequestFixedHeader_of_fresh hfresh (length_variableHeader_lt h hss2022)]
    rw [if_pos hss2022, if_pos hss2022, hvalid]
    rfl
  · rw [Bool.not_eq_true] at hss2022
    obtain ⟨chunk, rest, hchunks⟩ := exists_cons_of_ne_nil (h.begun hss2022)
    have hbound : chunk.length ≤ legacyMaxChunkSize := by
      have hsize := h.bound chunk (by simp [hchunks])
      rwa [CipherKind.maxPayloadLen, hss2022] at hsize
    have hlength : ofBe u.first = chunk.length := by
      rw [Uplink.first, hss2022, hchunks]
      exact ofBe_toBe (Nat.lt_of_le_of_lt hbound (by decide))
    simp only [hss2022, Bool.false_eq_true, if_false, hlength, if_pos hbound]
    rfl

variable {index : Nat}

theorem tryUser_other {users : List UserKey} {stream : Bytes}
    (hideal : OnlySenderOpens p users sender stream) (huser : users[index]? = some user) (hother : index ≠ sender)
    (hbuffer : buffer <+: stream) (hneed : user.need ≤ buffer.length) :
    tryUser p now buffer user index = .ok .probed := by
  have hclosed := hideal user index huser hother (Nat.le_trans hneed hbuffer.length_le)
  rw [← UserKey.openFirst_of_isPrefix hbuffer hneed] at hclosed
  simp only [tryUser, hclosed]
  rw [if_neg (by omega)]

theorem tryUser_short (h : buffer.length < user.need) :
    tryUser p now buffer user index = .ok .tooShort := by
  simp only [tryUser]
  rw [if_pos h]

section Users

variable {users : List UserKey} (hu : u.WellFormed now) (huser : users[sender]? = some u.user)
  (hideal : OnlySenderOpens p users sender (u.wire p))

include hideal in
theorem scan_other {others : List (UserKey × Nat)} {anyCandidate : Bool}
    (hindex : users[index]? = some user) (hother : index ≠ sender) (hbuffer : buffer <+: u.wire p) :
    scan p now buffer anyCandidate ((user, index) :: others) =
      scan p now buffer (anyCandidate || decide (user.need ≤ buffer.length)) others := by
  grind [scan, tryUser_other, tryUser_short]

include hu huser hideal in
theorem scan_authenticates (hbuffer : buffer <+: u.wire p) (hneed : u.user.need ≤ buffer.length)
    {order : List (UserKey × Nat)} (horder : ∀ candidate ∈ order, users[candidate.2]? = some candidate.1)
    (hsender : (u.user, sender) ∈ order) (anyCandidate : Bool) :
    scan p now buffer anyCandidate order = .ok (some (u.authenticated p sender buffer)) := by
  induction order generalizing anyCandidate with
  | nil => simp at hsender
  | cons candidate others ih =>
    obtain ⟨user, index⟩ := candidate
    have hindex : users[index]? = some user := horder _ mem_cons_self
    by_cases hother : index = sender
    · subst hother
      cases hindex.symm.trans huser
      rw [scan, tryUser_sender hu hbuffer hneed]
    · rw [scan_other hideal hindex hother hbuffer]
      refine ih (fun candidate hmem => horder candidate (mem_cons_of_mem _ hmem)) ?_ _
      rcases mem_cons.mp hsender with heq | hmem
      · exact absurd (Prod.mk.inj heq).2.symm hother
      · exact hmem

include huser hideal in
theorem scan_waits (hbuffer : buffer <+: u.wire p) (hneed : buffer.length < u.user.need)
    {order : List (UserKey × Nat)} (horder : ∀ candidate ∈ order, users[candidate.2]? = some candidate.1)
    (anyCandidate : Bool) :
    scan p now buffer anyCandidate order =
      if anyCandidate || order.any (fun candidate => decide (candidate.1.need ≤ buffer.length)) then .error .unknownUser
      else .ok none := by
  induction order generalizing anyCandidate with
  | nil => simp [scan]
  | cons candidate others ih =>
    obtain ⟨user, index⟩ := candidate
    have hindex : users[index]? = some user := horder _ mem_cons_self
    have hothers := fun candidate hmem => horder candidate (mem_cons_of_mem (user, index) hmem)
    by_cases hother : index = sender
    · grind [scan, tryUser_short]
    · rw [scan_other hideal hindex hother hbuffer, ih hothers, any_cons, Bool.or_assoc]

end Users

variable {d : AeadStreamDecryptor κ}

theorem mem_candidates {candidate : UserKey × Nat} :
    candidate ∈ d.candidates ↔ d.users[candidate.2]? = some candidate.1 := by
  grind [candidates, mem_zipIdx_iff_getElem?]

theorem any_candidates (d : AeadStreamDecryptor κ) (buffer : Bytes) :
    d.candidates.any (fun candidate => decide (candidate.1.need ≤ buffer.length)) = true ↔
      ∃ user ∈ d.users, user.need ≤ buffer.length := by
  simp only [any_eq_true, decide_eq_true_eq, mem_candidates]
  constructor
  · rintro ⟨candidate, hmem, hneed⟩
    exact ⟨candidate.1, mem_of_getElem? hmem, hneed⟩
  · rintro ⟨user, hmem, hneed⟩
    obtain ⟨index, hindex⟩ := mem_iff_getElem?.mp hmem
    exact ⟨(user, index), hindex, hneed⟩

variable {rest : Bytes} {pieces : List Bytes}

theorem draining_authenticated (hu : u.WellFormed now) (hwire : buffer ++ rest = u.wire p)
    (hneed : u.user.need ≤ buffer.length) :
    Draining p u sender (u.authenticated p sender buffer).2 [] ((u.authenticated p sender buffer).1 ++ rest) := by
  rw [Uplink.authenticated]
  by_cases hss2022 : u.user.cipher.isSs2022 = true
  · have hwire' : buffer ++ rest = (u.salt ++ p.aead.encrypt (u.key p) 0 u.fixedHeader) ++
        (p.aead.encrypt (u.key p) 1 u.variableHeader ++ frames p (u.key p) 2 u.chunks) := by
      grind [Uplink.wire, Uplink.body, Uplink.firstNonce, Aead.frame, append_assoc]
    have hlength : (u.salt ++ p.aead.encrypt (u.key p) 0 u.fixedHeader).length = u.user.need := by
      have hfirst := Uplink.length_first hu
      rw [Uplink.first, if_pos hss2022] at hfirst
      rw [length_append, p.aead.length_encrypt, hu.salt, hfirst, UserKey.need]
    rw [if_pos hss2022]
    simp only [(take_of_append hwire' hlength hneed).2]
    exact .header hss2022
  · have hposition : Draining p u sender _ _ _ := .between [] u.chunks rfl
    have hsalt := take_of_append (hwire.trans rfl) hu.salt (Nat.le_trans u.user.saltLen_le_need hneed)
    rw [if_neg hss2022]
    simp only [hsalt.2]
    simpa [Uplink.body, Uplink.nonceAfter, Uplink.firstNonce, Uplink.mode, Uplink.shown, hss2022] using hposition

/-- What a call leaves of an authenticated stream, of which `rest` is still to arrive. -/
structure Serving (p : Primitives κ) (u : Uplink) (sender : Nat) (rest out : Bytes)
    (d : AeadStreamDecryptor κ) : Prop where
  position : ∃ active, d.active = some active ∧ Draining p u sender active out (d.buffer ++ rest) ∧
    active.nonceCounter ≤ maxNonceCounter
  ended : rest = [] → out = u.plaintext ∧ u.nonceAfter u.chunks ≤ maxNonceCounter

variable {out : Bytes}

theorem drainPlaintext_active (hu : u.WellFormed now) {active : ActiveStream κ} (hactive : d.active = some active)
    (hdraining : Draining p u sender active out (d.buffer ++ rest))
    (hbounded : active.nonceCounter ≤ maxNonceCounter) :
    (∃ next output, d.drainPlaintext p now = .ok (next, output) ∧ Serving p u sender rest (out ++ output) next) ∨
      (∃ error, d.drainPlaintext p now = .error error) ∧ maxNonceCounter < u.nonceAfter u.chunks := by
  have hensure : d.ensureSessionKey p now = .ok d := by
    rw [ensureSessionKey, hactive]
    rfl
  rw [drainPlaintext, hensure]
  simp only [bind, Except.bind, hactive]
  obtain ⟨⟨left, last, output⟩, hloop, hdrains⟩ | ⟨⟨error, herror⟩, hfull⟩ :=
    drainLoop_cases hu (Nat.lt_succ_self _) hdraining hbounded
  · rw [hloop]
    exact .inl ⟨_, _, rfl, ⟨last, rfl, hdrains.draining, hdrains.bounded⟩, hdrains.ended⟩
  · rw [herror]
    exact .inr ⟨⟨error, rfl⟩, hfull⟩

/-- The pieces are drained without an error, the stream is the sender's, and all of it is read. -/
def Reads (p : Primitives κ) (now : Nat) (u : Uplink) (sender : Nat) (out : Bytes) (d : AeadStreamDecryptor κ)
    (pieces : List Bytes) : Prop :=
  ∃ last output, d.drainPieces p now pieces = .ok (last, output) ∧ out ++ output = u.plaintext ∧
    last.userIndex = some sender

theorem reads_cons {output piece : Bytes} {next : AeadStreamDecryptor κ}
    (hdrain : (d.feedCiphertext piece).drainPlaintext p now = .ok (next, output)) :
    Reads p now u sender out d (piece :: pieces) ↔ Reads p now u sender (out ++ output) next pieces := by
  constructor
  · rintro ⟨last, all, hpieces, hall, hindex⟩
    obtain ⟨first, hfirst, hpieces⟩ := exists_of_bind_ok hpieces
    cases hdrain.symm.trans hfirst
    obtain ⟨⟨last, others⟩, hothers, hpieces⟩ := exists_of_bind_ok hpieces
    cases hpieces
    exact ⟨last, others, hothers, by rwa [append_assoc], hindex⟩
  · rintro ⟨last, others, hothers, hall, hindex⟩
    refine ⟨last, output ++ others, ?_, by rwa [← append_assoc], hindex⟩
    rw [drainPieces, hdrain]
    simp only [bind, Except.bind, hothers]
    rfl

theorem not_reads_cons {piece : Bytes} {error : CryptoError}
    (herror : (d.feedCiphertext piece).drainPlaintext p now = .error error) :
    ¬ Reads p now u sender out d (piece :: pieces) := by
  rintro ⟨last, all, hpieces, _⟩
  rw [drainPieces, herror] at hpieces
  cases hpieces

theorem Serving.reads_iff (hu : u.WellFormed now) (h : Serving p u sender pieces.flatten out d) :
    Reads p now u sender out d pieces ↔ u.nonceAfter u.chunks ≤ maxNonceCounter := by
  induction pieces generalizing out d with
  | nil =>
    obtain ⟨⟨active, hactive, hdraining, _⟩, hended⟩ := h
    obtain ⟨rfl, hnonces⟩ := hended rfl
    refine iff_of_true ⟨d, [], rfl, append_nil _, ?_⟩ hnonces
    rw [userIndex, hactive, Option.map_some, hdraining.userIndex]
  | cons piece pieces ih =>
    obtain ⟨⟨active, hactive, hdraining, hbounded⟩, _⟩ := h
    rw [flatten_cons, ← append_assoc] at hdraining
    obtain ⟨next, output, hdrain, hserving⟩ | ⟨⟨error, herror⟩, hfull⟩ :=
      drainPlaintext_active (d := d.feedCiphertext piece) hu hactive hdraining hbounded
    · rw [reads_cons hdrain]
      exact ih hserving
    · exact iff_of_false (not_reads_cons herror) (Nat.not_le.mpr hfull)

/-- At no arrival is some user's key tested while the bytes are too few for the sender's. -/
def NoEarlyVerdict (users : List UserKey) (sender : UserKey) (arrived : Bytes) (pieces : List Bytes) : Prop :=
  ∀ before, before <+: pieces → (arrived ++ before.flatten).length < sender.need →
    ∀ user ∈ users, (arrived ++ before.flatten).length < user.need

section NoEarlyVerdict

variable {users : List UserKey} {user : UserKey} {arrived piece : Bytes} {pieces : List Bytes}

theorem noEarlyVerdict_cons (hquiet : ∀ user ∈ users, arrived.length < user.need) :
    NoEarlyVerdict users user arrived (piece :: pieces) ↔ NoEarlyVerdict users user (arrived ++ piece) pieces := by
  constructor
  · intro h before hbefore
    have hmore := h (piece :: before) (cons_prefix_cons.mpr ⟨rfl, hbefore⟩)
    rwa [flatten_cons, ← append_assoc] at hmore
  · intro h before hbefore
    rcases before with - | ⟨first, before⟩
    · rw [flatten_nil, append_nil]
      exact fun _ => hquiet
    · obtain ⟨rfl, htail⟩ := cons_prefix_cons.mp hbefore
      rw [flatten_cons, ← append_assoc]
      exact h before htail

theorem noEarlyVerdict_of_need_le (hneed : user.need ≤ arrived.length) : NoEarlyVerdict users user arrived pieces := by
  intro before _ hshort
  rw [length_append] at hshort
  omega

theorem NoEarlyVerdict.here (h : NoEarlyVerdict users user arrived pieces) (hshort : arrived.length < user.need) :
    ∀ other ∈ users, arrived.length < other.need := by
  have hnow := h [] nil_prefix
  rw [flatten_nil, append_nil] at hnow
  exact hnow hshort

end NoEarlyVerdict

section Users

variable {users : List UserKey} (hu : u.WellFormed now) (huser : users[sender]? = some u.user)
  (hideal : OnlySenderOpens p users sender (u.wire p))

include hu huser hideal in
theorem drainPlaintext_authenticates (husers : d.users = users)
    (hactive : d.active = none) (hwire : d.buffer ++ rest = u.wire p) (hneed : u.user.need ≤ d.buffer.length) :
    (∃ next output, d.drainPlaintext p now = .ok (next, output) ∧ Serving p u sender rest output next) ∨
      (∃ error, d.drainPlaintext p now = .error error) ∧ maxNonceCounter < u.nonceAfter u.chunks := by
  have hscan := scan_authenticates hu huser hideal ⟨rest, hwire⟩ hneed
    (fun candidate hmem => by rw [← husers]; exact mem_candidates.mp hmem)
    (mem_candidates.mpr (by rw [husers]; exact huser)) false
  generalize hresult : u.authenticated p sender d.buffer = result at hscan
  obtain ⟨left, active⟩ := result
  have hensure : d.ensureSessionKey p now = .ok { d with buffer := left, active := some active } := by
    rw [ensureSessionKey, hactive, hscan]
    rfl
  have hdrain : d.drainPlaintext p now =
      AeadStreamDecryptor.drainPlaintext p now { d with buffer := left, active := some active } := by
    rw [drainPlaintext, hensure]
    rfl
  have hdraining : Draining p u sender active [] (left ++ rest) := by grind [draining_authenticated]
  have hbounded : active.nonceCounter ≤ maxNonceCounter := by grind [maxNonceCounter, Uplink.authenticated]
  rw [hdrain]
  exact drainPlaintext_active (d := { d with buffer := left, active := some active }) hu rfl hdraining hbounded

include huser hideal in
theorem drainPlaintext_waits (husers : d.users = users)
    (hactive : d.active = none) (hwire : d.buffer ++ rest = u.wire p) (hneed : d.buffer.length < u.user.need) :
    d.drainPlaintext p now =
      if ∃ user ∈ users, user.need ≤ d.buffer.length then .error .unknownUser else .ok (d, []) := by
  have horder : ∀ candidate ∈ d.candidates, users[candidate.2]? = some candidate.1 := fun candidate hmem => by
    rw [← husers]
    exact mem_candidates.mp hmem
  have hscan : scan p now d.buffer false d.candidates = _ := scan_waits huser hideal ⟨rest, hwire⟩ hneed horder false
  rw [Bool.false_or] at hscan
  have hany := any_candidates d d.buffer
  rw [husers] at hany
  by_cases htested : ∃ user ∈ users, user.need ≤ d.buffer.length
  · rw [if_pos (hany.mpr htested)] at hscan
    have hensure : d.ensureSessionKey p now = .error .unknownUser := by
      rw [ensureSessionKey, hactive, hscan]
      rfl
    rw [drainPlaintext, hensure, if_pos htested]
    rfl
  · rw [if_neg (fun htrue => htested (hany.mp htrue))] at hscan
    have hensure : d.ensureSessionKey p now = .ok d := by
      rw [ensureSessionKey, hactive, hscan]
      rfl
    rw [drainPlaintext, hensure, if_neg htested]
    simp only [bind, Except.bind, hactive]
    rfl

include hu huser hideal in
theorem reads_iff_of_waiting (husers : d.users = users)
    (hactive : d.active = none) (hwire : d.buffer ++ pieces.flatten = u.wire p)
    (hquiet : ∀ user ∈ users, d.buffer.length < user.need) :
    Reads p now u sender [] d pieces ↔
      NoEarlyVerdict users u.user d.buffer pieces ∧ u.nonceAfter u.chunks ≤ maxNonceCounter := by
  induction pieces generalizing d with
  | nil =>
    -- the whole stream is long enough for the sender's key
    have hlong := Uplink.need_le_length_wire (p := p) hu
    have hshort := hquiet u.user (mem_of_getElem? huser)
    rw [← hwire, flatten_nil, append_nil] at hlong
    omega
  | cons piece pieces ih =>
    rw [flatten_cons, ← append_assoc] at hwire
    rw [noEarlyVerdict_cons hquiet]
    by_cases hneed : u.user.need ≤ (d.buffer ++ piece).length
    · rw [and_iff_right (noEarlyVerdict_of_need_le hneed)]
      obtain ⟨next, output, hdrain, hserving⟩ | ⟨⟨error, herror⟩, hfull⟩ :=
        drainPlaintext_authenticates (d := d.feedCiphertext piece) hu huser hideal husers hactive hwire hneed
      · rw [reads_cons hdrain]
        exact hserving.reads_iff hu
      · exact iff_of_false (not_reads_cons herror) (Nat.not_le.mpr hfull)
    · rw [Nat.not_le] at hneed
      have hdrain : (d.feedCiphertext piece).drainPlaintext p now = _ :=
        drainPlaintext_waits huser hideal husers hactive hwire hneed
      by_cases htested : ∃ user ∈ users, user.need ≤ (d.buffer ++ piece).length
      · refine iff_of_false (not_reads_cons (hdrain.trans (if_pos htested))) ?_
        rintro ⟨hsafe, _⟩
        obtain ⟨user, hmem, htest⟩ := htested
        have hlate := NoEarlyVerdict.here hsafe hneed user hmem
        omega
      · rw [reads_cons (hdrain.trans (if_neg htested))]
        exact ih husers hactive hwire (fun user hmem => Nat.not_le.mp fun htest => htested ⟨user, hmem, htest⟩)

end Users

section Start

variable {users : List UserKey} (hu : u.WellFormed now) (huser : users[sender]? = some u.user)
  (hideal : OnlySenderOpens p users sender (u.wire p)) (hint : Option Nat)

theorem forall_need_pos : ∀ user ∈ users, ([] : Bytes).length < user.need := fun user _ =>
  Nat.lt_of_lt_of_le user.cipher.saltLen_pos user.saltLen_le_need

include hu huser hideal in
theorem drainPieces_start_iff (hpieces : pieces.flatten = u.wire p) :
    (∃ d, drainPieces p now (setUserHint { users := users } hint) pieces = .ok (d, u.plaintext) ∧
        d.userIndex = some sender) ↔
      NoEarlyVerdict users u.user [] pieces ∧ u.nonceAfter u.chunks ≤ maxNonceCounter := by
  have hreads : Reads p now u sender [] (setUserHint { users := users } hint) pieces ↔ _ :=
    reads_iff_of_waiting hu huser hideal rfl rfl hpieces forall_need_pos
  refine Iff.trans ⟨?_, ?_⟩ hreads
  · rintro ⟨d, hdrain, hindex⟩
    exact ⟨d, u.plaintext, hdrain, rfl, hindex⟩
  · rintro ⟨d, output, hdrain, hall, hindex⟩
    subst hall
    exact ⟨d, hdrain, hindex⟩

include hu in
theorem noEarlyVerdict_uncut : NoEarlyVerdict users u.user [] [u.wire p] := by
  rw [noEarlyVerdict_cons forall_need_pos]
  exact noEarlyVerdict_of_need_le (Uplink.need_le_length_wire hu)

include hu huser hideal in
/-- The stream of any client, in any pieces, is read as its sender's and as if it had not been cut, if and only if no
verdict is taken early and the nonces last. -/
theorem drain_pieces_iff {pieces : List Bytes} (hpieces : pieces.flatten = u.wire p) :
    (∃ d whole, drainPieces p now (setUserHint { users := users } hint) pieces = .ok (d, u.plaintext) ∧
        d.userIndex = some sender ∧
        drainPieces p now (setUserHint { users := users } hint) [u.wire p] = .ok (whole, u.plaintext)) ↔
      NoEarlyVerdict users u.user [] pieces ∧ u.firstNonce + 2 * u.chunks.length ≤ maxNonceCounter := by
  have hcut := drainPieces_start_iff hu huser hideal hint hpieces
  have huncut := drainPieces_start_iff hu huser hideal hint (show [u.wire p].flatten = u.wire p from flatten_singleton)
  constructor
  · rintro ⟨d, whole, hdrain, hindex, _⟩
    exact hcut.mp ⟨d, hdrain, hindex⟩
  · rintro ⟨hverdict, hnonces⟩
    obtain ⟨d, hdrain, hindex⟩ := hcut.mpr ⟨hverdict, hnonces⟩
    obtain ⟨whole, hwhole, _⟩ := huncut.mpr ⟨noEarlyVerdict_uncut hu, hnonces⟩
    exact ⟨d, whole, hdrain, hindex, hwhole⟩

end Start

def mixedUsers : List UserKey := [⟨.aes128Gcm, [1]⟩, ⟨.aes256Gcm, [2]⟩]

def longSaltUplink : Uplink where
  user := ⟨.aes256Gcm, [2]⟩
  salt := replicate 32 0
  fixedHeader := []
  variableHeader := []
  target := []
  chunks := [[5, 6, 7]]

def longSaltPieces (n : Nat) : List Bytes :=
  [(longSaltUplink.wire namedPrimitives).take n, (longSaltUplink.wire namedPrimitives).drop n]

theorem flatten_longSaltPieces (n : Nat) : (longSaltPieces n).flatten = longSaltUplink.wire namedPrimitives := by
  simp [longSaltPieces]

theorem longSaltUplink_wellFormed : longSaltUplink.WellFormed 0 where
  salt := rfl
  header := fun hss2022 => by cases hss2022
  bound := by decide
  begun := by decide

theorem mixedUsers_onlySenderOpens :
    OnlySenderOpens namedPrimitives mixedUsers 1 (longSaltUplink.wire namedPrimitives) := by
  intro user index huser hother _
  match index with
  | 0 =>
    cases huser
    decide
  | 1 => exact absurd rfl hother
  | index + 2 => cases huser

/-- Cut before any key can be tested. -/
theorem drain_pieces_iff_cut_early :
    ∃ d whole, drainPieces namedPrimitives 0 (setUserHint { users := mixedUsers } (some 0)) (longSaltPieces 20) =
        .ok (d, [5, 6, 7]) ∧ d.userIndex = some 1 ∧
      drainPieces namedPrimitives 0 (setUserHint { users := mixedUsers } (some 0))
        [longSaltUplink.wire namedPrimitives] = .ok (whole, [5, 6, 7]) := by
  have hverdict : NoEarlyVerdict mixedUsers longSaltUplink.user [] (longSaltPieces 20) := by
    rw [longSaltPieces, noEarlyVerdict_cons (by decide), noEarlyVerdict_cons (by decide)]
    exact noEarlyVerdict_of_need_le (by decide)
  exact (drain_pieces_iff longSaltUplink_wellFormed rfl mixedUsers_onlySenderOpens (some 0)
    (flatten_longSaltPieces 20)).mpr ⟨hverdict, by decide⟩

/-- The first 34 bytes are enough to test the first user's key, and too few for the sender's. -/
theorem drain_pieces_unknown_user :
    longSaltUplink.WellFormed 0 ∧ mixedUsers[1]? = some longSaltUplink.user ∧
      OnlySenderOpens namedPrimitives mixedUsers 1 (longSaltUplink.wire namedPrimitives) ∧
      (longSaltPieces 34).flatten = longSaltUplink.wire namedPrimitives ∧
      (drainPieces namedPrimitives 0 (setUserHint { users := mixedUsers } none) (longSaltPieces 34)).map (·.2) =
        .error .unknownUser :=
  ⟨longSaltUplink_wellFormed, rfl, mixedUsers_onlySenderOpens, flatten_longSaltPieces 34, rfl⟩

end OutlineProxy.Shadowsocks
