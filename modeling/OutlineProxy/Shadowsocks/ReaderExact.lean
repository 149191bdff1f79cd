import OutlineProxy.Shadowsocks.Reader

/-! The reader's position in the stream, through every schedule of dropped calls. -/

namespace OutlineProxy.Shadowsocks

open List Sealing Runs TcpShadowsocksReader

variable {κ : Type} {p : Primitives κ} {d : Downlink κ} {master : Bytes} {now : Nat}

namespace Downlink

/-- The client can read the stream: it knows the key, and takes the response header for one to its request. -/
structure Readable (p : Primitives κ) (d : Downlink κ) (master : Bytes) (now : Nat) : Prop where
  salt : d.salt.length = d.cipher.saltLen
  key : p.deriveSubkey d.cipher master d.salt = d.key
  requestSalt : d.cipher.isSs2022 = true → d.requestSalt.length = d.cipher.saltLen
  fresh : d.cipher.isSs2022 = true → Fresh d.timestamp now

def readerState (d : Downlink κ) (headerRead : Bool) : Option Ss2022TcpReaderState :=
  if d.cipher.isSs2022 then some ⟨d.requestSalt, headerRead⟩ else none

theorem head_started (n : Nat) : d.head true n = toBe 2 n := by
  simp [head]

end Downlink

/-- Where the reader stands in the stream: its session, the read it is in or begins with, the chunks to come and the
bytes to come. -/
inductive Position (p : Primitives κ) (d : Downlink κ) :
    Option κ → Nat → Option Ss2022TcpReaderState → ReadPoint → List Bytes → Bytes → Prop
  | start (todo : List Bytes) : Position p d none 0 (d.readerState false) .salt todo (d.wire p false 0 todo)
  | header (chunk : Bytes) (todo : List Bytes) (hss2022 : d.cipher.isSs2022 = true) :
      Position p d (some d.key) 0 (d.readerState false) .responseHeader (chunk :: todo)
        (p.aead.frame d.key 0 (d.head false chunk.length) chunk ++ d.wire p true 2 todo)
  | initialPayload (chunk : Bytes) (todo : List Bytes) :
      Position p d (some d.key) 1 (d.readerState false) (.initialPayload chunk.length) (chunk :: todo)
        (p.aead.encrypt d.key 1 chunk ++ d.wire p true 2 todo)
  | body (nonce : Nat) (todo : List Bytes) :
      Position p d (some d.key) nonce (d.readerState true) .length todo (d.wire p true nonce todo)
  | payload (nonce : Nat) (chunk : Bytes) (todo : List Bytes) :
      Position p d (some d.key) (nonce + 1) (d.readerState true) (.payload chunk.length) (chunk :: todo)
        (p.aead.encrypt d.key (nonce + 1) chunk ++ d.wire p true (nonce + 2) todo)

/-- What the callers have got of the chunks that were read, the first one being a control frame if one is
expected. -/
structure Shown (expect : Bool) (done : List Bytes) (r : TcpShadowsocksReader κ) (returned : List Bytes) : Prop where
  expecting : r.expectAckPrefix = (expect && done.isEmpty)
  returned : returned.flatten = done.flatten.drop (if expect then frameLenV1 else 0)
  framed : expect = true → done ≠ [] → frameLenV1 ≤ done.flatten.length

def visible (expect : Bool) (chunks : List Bytes) : Bytes :=
  chunks.flatten.drop (if expect then frameLenV1 else 0)

/-- The stream's chunks fit their length fields, and begin with a control frame if one is expected. -/
structure WellFormed (d : Downlink κ) (expect : Bool) (chunks : List Bytes) : Prop where
  bound : ∀ chunk ∈ chunks, chunk.length ≤ d.cipher.maxPayloadLen
  ack : expect = true → ∀ chunk, chunks.head? = some chunk → ∃ upAcked, parseV1 chunk = .valid upAcked

variable {expect : Bool} {chunks done todo returned : List Bytes} {chunk : Bytes} {s next : Reading κ}
  {r : TcpShadowsocksReader κ}

theorem length_of_parseV1 {upAcked : Nat} (h : parseV1 chunk = .valid upAcked) :
    frameLenV1 ≤ chunk.length := by
  by_contra hshort
  rw [parseV1, if_pos (by omega)] at h
  cases h

theorem Shown.read (h : Shown expect done r returned) (hexpect : r.expectAckPrefix = false) (chunk : Bytes) :
    Shown expect (done ++ [chunk]) r (returned ++ [chunk]) := by
  have hdone : expect = true → done ≠ [] := by
    rintro rfl rfl
    have hnow := h.expecting
    simp [hexpect] at hnow
  refine ⟨by simp [hexpect], ?_, ?_⟩
  · have hreturned := h.returned
    have hframed := h.framed
    grind [flatten_append]
  · have hframed := h.framed
    grind [flatten_append, length_append]

theorem Shown.ack (h : Shown expect done r returned) (hexpect : r.expectAckPrefix = true) {upAcked : Nat}
    (hvalid : parseV1 chunk = .valid upAcked) :
    Shown expect (done ++ [chunk]) { r with upAcked := some upAcked, expectAckPrefix := false }
      (returned ++ [chunk.drop frameLenV1]) := by
  have hnow := h.expecting
  rw [hexpect, eq_comm, Bool.and_eq_true, List.isEmpty_iff] at hnow
  obtain ⟨rfl, rfl⟩ := hnow
  refine ⟨by simp, ?_, ?_⟩
  · rw [List.flatten_append, h.returned]
    simp
  · intro _ _
    simpa using length_of_parseV1 hvalid

theorem Shown.congr (h : Shown expect done r returned) {r' : TcpShadowsocksReader κ} {returned' : List Bytes}
    (hexpect : r'.expectAckPrefix = r.expectAckPrefix)
    (hreturned : returned'.flatten = returned.flatten) : Shown expect done r' returned' :=
  ⟨hexpect.trans h.expecting, hreturned.trans h.returned, h.framed⟩

def inChunk : Option ReadPoint → Nat
  | some (.initialPayload _) | some (.payload _) => 1
  | _ => 0

def Reading.point (s : Reading κ) : ReadPoint := s.future.getD s.reader.entry

/-- The reader stands at a position of the stream, and has shown what lies before it. -/
structure InSync (p : Primitives κ) (d : Downlink κ) (master : Bytes) (expect : Bool) (chunks : List Bytes)
    (s : Reading κ) : Prop where
  failed : s.failed = none
  cipher : s.reader.cipher = d.cipher
  masterKey : s.reader.masterKey = master
  tail : s.reader.pendingTail = none
  position : ∃ done todo, chunks = done ++ todo ∧
    Position p d s.reader.cipherState s.reader.nonce s.reader.ss2022 s.point todo (s.reader.buffer ++ s.inbox.flatten) ∧
    s.reader.nonce + 2 * todo.length ≤ maxNonceCounter + inChunk (some s.point) ∧ Shown expect done s.reader s.returned

/-- The pending call goes on with a field that it has read. -/
def Reading.advanced (p : Primitives κ) (now : Nat) (s : Reading κ) (buffer field : Bytes) : Reading κ :=
  s.settle (({ s.reader with buffer := buffer } : TcpShadowsocksReader κ).advance p now field s.point)

theorem decrypt_ok {key : κ} (hcipher : r.cipherState = some key)
    (hnonce : r.nonce ≤ maxNonceCounter + 1) (message : Bytes) :
    r.decryptInPlaceSession p (p.aead.encrypt key r.nonce message) =
      .ok (message, { r with nonce := r.nonce + 1 }) := by
  have hincrement : incrementNonce r.nonce = .ok (r.nonce + 1) := by
    apply if_neg
    rw [maxNonceCounter] at hnonce
    omega
  simp [decryptInPlaceSession, hcipher, p.aead.decrypt_encrypt, hincrement]

structure Between (p : Primitives κ) (d : Downlink κ) (master : Bytes) (s : Reading κ) (r : TcpShadowsocksReader κ)
    (todo : List Bytes) : Prop where
  cipher : r.cipher = d.cipher
  masterKey : r.masterKey = master
  tail : r.pendingTail = none
  cipherState : r.cipherState = some d.key
  state : r.ss2022 = d.readerState true
  wire : r.buffer ++ s.inbox.flatten = d.wire p true r.nonce todo
  nonce : r.nonce + 2 * todo.length ≤ maxNonceCounter

theorem Between.position (h : Between p d master s r todo) :
    Position p d r.cipherState r.nonce r.ss2022 .length todo (r.buffer ++ s.inbox.flatten) := by
  rw [h.wire, h.cipherState, h.state]
  exact .body r.nonce todo

theorem Between.entry (h : Between p d master s r todo) : r.entry = .length := by
  rw [TcpShadowsocksReader.entry, TcpShadowsocksReader.afterSalt, h.cipherState, h.state, Downlink.readerState]
  cases d.cipher.isSs2022 <;> rfl

theorem Between.inSync (h : Between p d master s r todo) {returned : List Bytes} {future : Option ReadPoint}
    (hfuture : future = none ∨ future = some .length) (hchunks : chunks = done ++ todo)
    (hshown : Shown expect done r returned) :
    InSync p d master expect chunks { s with reader := r, future := future, returned := returned, failed := none } := by
  have hpoint : future.getD r.entry = .length := by
    rcases hfuture with rfl | rfl
    · exact h.entry
    · rfl
  refine ⟨rfl, h.cipher, h.masterKey, h.tail, done, todo, hchunks, ?_, Nat.le_add_right_of_le h.nonce, hshown⟩
  rw [Reading.point, hpoint]
  exact h.position

theorem Between.deliver (h : Between p d master s r todo) (hwell : WellFormed d expect chunks)
    (hchunks : chunks = done ++ chunk :: todo) (hshown : Shown expect done r s.returned) (hfailed : s.failed = none) :
    InSync p d master expect chunks (s.settle (r.deliver chunk)) ∧
      (s.settle (r.deliver chunk)).reader.buffer = r.buffer := by
  have hsplit : chunks = (done ++ [chunk]) ++ todo := by
    rw [hchunks, append_assoc, singleton_append]
  by_cases hexpect : r.expectAckPrefix = true
  · have hnow := hshown.expecting
    rw [hexpect, eq_comm, Bool.and_eq_true, List.isEmpty_iff] at hnow
    obtain ⟨upAcked, hvalid⟩ := hwell.ack hnow.1 chunk (by simp [hchunks, hnow.2])
    have hacked : Between p d master s { r with upAcked := some upAcked, expectAckPrefix := false } todo :=
      ⟨h.cipher, h.masterKey, h.tail, h.cipherState, h.state, h.wire, h.nonce⟩
    have hshow := hshown.ack hexpect hvalid
    rw [TcpShadowsocksReader.deliver, if_pos hexpect, hvalid]
    by_cases hlong : frameLenV1 < chunk.length
    · simp only [if_pos hlong, Reading.settle, hfailed]
      exact ⟨hacked.inSync (.inl rfl) hsplit hshow, trivial⟩
    · have hnothing : chunk.drop frameLenV1 = [] := drop_eq_nil_of_le (by omega)
      simp only [if_neg hlong, Reading.settle, hfailed]
      exact ⟨hacked.inSync (.inr (congrArg some hacked.entry)) hsplit (hshow.congr rfl (by simp [hnothing])), trivial⟩
  · rw [Bool.not_eq_true] at hexpect
    simp only [TcpShadowsocksReader.deliver, hexpect, Reading.settle, hfailed]
    exact ⟨h.inSync (.inl rfl) hsplit (hshown.read hexpect chunk), rfl⟩

/-- Going on with the field keeps the reader in sync, and takes nothing more from the buffer. -/
def GoesOn (p : Primitives κ) (d : Downlink κ) (master : Bytes) (expect : Bool) (chunks : List Bytes) (now : Nat)
    (s : Reading κ) (buffer field : Bytes) : Prop :=
  InSync p d master expect chunks (s.advanced p now buffer field) ∧
    (s.advanced p now buffer field).reader.buffer = buffer

section Fields

variable {buffer : Bytes} {nonce : Nat} (h : InSync p d master expect chunks s)
  (hchunks : chunks = done ++ chunk :: todo) (hshown : Shown expect done s.reader s.returned)
  (hused : s.reader.nonce = nonce)

include h hchunks hshown hused

theorem InSync.goesOn_salt (hd : d.Readable p master now) (hpoint : s.point = .salt) (hzero : nonce = 0)
    (hstate : s.reader.ss2022 = d.readerState false) (hroom : nonce + 2 * (chunk :: todo).length ≤ maxNonceCounter)
    (hbuffer : buffer ++ s.inbox.flatten =
      p.aead.frame d.key 0 (d.head false chunk.length) chunk ++ d.wire p true 2 todo) :
    GoesOn p d master expect chunks now s buffer d.salt := by
  have hkey : p.deriveSubkey s.reader.cipher s.reader.masterKey d.salt = d.key := by
    rw [h.cipher, h.masterKey, hd.key]
  rw [GoesOn, Reading.advanced, hpoint]
  refine ⟨{ h with position := ⟨done, chunk :: todo, hchunks, ?_, Nat.le_add_right_of_le (hused ▸ hroom),
    hshown.congr rfl rfl⟩ }, rfl⟩
  change Position p d (some (p.deriveSubkey s.reader.cipher s.reader.masterKey d.salt)) s.reader.nonce s.reader.ss2022
    s.reader.afterSalt _ (buffer ++ s.inbox.flatten)
  rw [hkey, hused, hzero, hbuffer, afterSalt, hstate]
  by_cases hss2022 : d.cipher.isSs2022 = true
  · have hafter := Position.header (p := p) chunk todo hss2022
    simpa [Downlink.readerState, hss2022] using hafter
  · rw [Bool.not_eq_true] at hss2022
    have hafter := Position.body (p := p) (d := d) 0 (chunk :: todo)
    simpa [Downlink.wire, Downlink.head, Downlink.readerState, hss2022] using hafter

variable (hcipher : s.reader.cipherState = some d.key)

include hcipher

omit hchunks hshown h in
theorem decrypt_field (hroom : nonce ≤ maxNonceCounter + 1) (buffer message : Bytes) :
    ({ s.reader with buffer := buffer } : TcpShadowsocksReader κ).decryptInPlaceSession p
        (p.aead.encrypt d.key nonce message) =
      .ok (message, { s.reader with buffer := buffer, nonce := nonce + 1 }) := by
  subst hused
  exact decrypt_ok (r := { s.reader with buffer := buffer }) hcipher hroom message

theorem InSync.goesOn_header (hd : d.Readable p master now) (hwell : WellFormed d expect chunks)
    (hpoint : s.point = .responseHeader) (hzero : nonce = 0) (hss2022 : d.cipher.isSs2022 = true)
    (hstate : s.reader.ss2022 = d.readerState false) (hroom : nonce + 2 * (chunk :: todo).length ≤ maxNonceCounter)
    (hbuffer : buffer ++ s.inbox.flatten = p.aead.encrypt d.key 1 chunk ++ d.wire p true 2 todo) :
    GoesOn p d master expect chunks now s buffer
      (p.aead.encrypt d.key nonce (responseHeader d.timestamp d.requestSalt chunk.length)) := by
  have hsize : chunk.length < 256 ^ 2 :=
    Nat.lt_of_le_of_lt (hwell.bound chunk (by simp [hchunks])) d.cipher.maxPayloadLen_lt
  have hparse : parseResponseHeader s.reader.cipher ((s.reader.ss2022.map (·.requestSalt)).getD [])
      (responseHeader d.timestamp d.requestSalt chunk.length) now = .ok chunk.length := by
    rw [h.cipher, hstate, Downlink.readerState, if_pos hss2022]
    exact parseResponseHeader_responseHeader (hd.requestSalt hss2022) (hd.fresh hss2022) hsize
  have hdecrypt := decrypt_field (p := p) hused hcipher (by omega) buffer
    (responseHeader d.timestamp d.requestSalt chunk.length)
  rw [GoesOn, Reading.advanced, hpoint]
  simp only [advance, hdecrypt, hparse]
  refine ⟨{ h with position := ⟨done, chunk :: todo, hchunks, ?_, ?_, hshown.congr rfl rfl⟩ }, rfl⟩
  · change Position p d s.reader.cipherState (nonce + 1) s.reader.ss2022 (.initialPayload chunk.length) _
      (buffer ++ s.inbox.flatten)
    rw [hbuffer, hcipher, hstate, hzero]
    exact .initialPayload chunk todo
  · change nonce + 1 + 2 * (chunk :: todo).length ≤ maxNonceCounter + 1
    omega

theorem InSync.goesOn_length (hwell : WellFormed d expect chunks) (hpoint : s.point = .length)
    (hstate : s.reader.ss2022 = d.readerState true) (hroom : nonce + 2 * (chunk :: todo).length ≤ maxNonceCounter)
    (hbuffer : buffer ++ s.inbox.flatten =
      p.aead.encrypt d.key (nonce + 1) chunk ++ d.wire p true (nonce + 2) todo) :
    GoesOn p d master expect chunks now s buffer (p.aead.encrypt d.key nonce (toBe 2 chunk.length)) := by
  have hbound := hwell.bound chunk (by simp [hchunks])
  have hsize : ofBe (toBe 2 chunk.length) = chunk.length :=
    ofBe_toBe (Nat.lt_of_le_of_lt hbound d.cipher.maxPayloadLen_lt)
  have hdecrypt := decrypt_field (p := p) hused hcipher (by omega) buffer (toBe 2 chunk.length)
  rw [GoesOn, Reading.advanced, hpoint]
  simp only [advance, hdecrypt]
  rw [if_neg (by simp), hsize, if_neg (by rw [h.cipher]; omega)]
  refine ⟨{ h with position := ⟨done, chunk :: todo, hchunks, ?_, ?_, hshown.congr rfl rfl⟩ }, rfl⟩
  · change Position p d s.reader.cipherState (nonce + 1) s.reader.ss2022 (.payload chunk.length) _
      (buffer ++ s.inbox.flatten)
    rw [hbuffer, hcipher, hstate]
    exact .payload nonce chunk todo
  · change nonce + 1 + 2 * (chunk :: todo).length ≤ maxNonceCounter + 1
    omega

omit hused hchunks hshown in
theorem InSync.between {state : Option Ss2022TcpReaderState} (hstate : state = d.readerState true)
    (hbuffer : buffer ++ s.inbox.flatten = d.wire p true nonce todo)
    (hroom : nonce + 2 * todo.length ≤ maxNonceCounter) :
    Between p d master s { s.reader with buffer := buffer, nonce := nonce, ss2022 := state } todo :=
  ⟨h.cipher, h.masterKey, h.tail, hcipher, hstate, hbuffer, hroom⟩

variable (hwell : WellFormed d expect chunks) (hroom : nonce + 2 * (chunk :: todo).length ≤ maxNonceCounter + 1)
  (hbuffer : buffer ++ s.inbox.flatten = d.wire p true (nonce + 1) todo)

include hwell hroom hbuffer

theorem InSync.goesOn_initialPayload (hpoint : s.point = .initialPayload chunk.length)
    (hstate : s.reader.ss2022 = d.readerState false) :
    GoesOn p d master expect chunks now s buffer (p.aead.encrypt d.key nonce chunk) := by
  have hread : (s.reader.ss2022.map fun state => { state with responseHeaderRead := true }) = d.readerState true := by
    rw [hstate, Downlink.readerState, Downlink.readerState]
    cases d.cipher.isSs2022 <;> rfl
  rw [length_cons] at hroom
  have hbetween := h.between hcipher hread hbuffer (by omega)
  rw [GoesOn, Reading.advanced, hpoint]
  simp only [advance, decrypt_field (p := p) hused hcipher (by omega) buffer chunk]
  by_cases hempty : chunk = []
  · -- an empty first chunk is skipped, which a control frame is not
    have hplain : expect = true → done ≠ [] := by
      rintro hexpect rfl
      obtain ⟨upAcked, hvalid⟩ := hwell.ack hexpect chunk (by simp [hchunks])
      rw [hempty] at hvalid
      cases hvalid
    have hsplit : chunks = done ++ [chunk] ++ todo := by simp [hchunks]
    simp only [if_pos hempty, Reading.settle, h.failed]
    refine ⟨hbetween.inSync (.inr rfl) hsplit ⟨?_, ?_, ?_⟩, trivial⟩
    · change s.reader.expectAckPrefix = _
      rw [hshown.expecting]
      cases expect with
      | false => rfl
      | true => simp [isEmpty_eq_false_iff.mpr (hplain rfl)]
    · simp [hempty, hshown.returned]
    · intro hexpect _
      simpa [hempty] using hshown.framed hexpect (hplain hexpect)
  · rw [if_neg hempty]
    exact hbetween.deliver hwell hchunks (hshown.congr rfl rfl) h.failed

theorem InSync.goesOn_payload (hpoint : s.point = .payload chunk.length)
    (hstate : s.reader.ss2022 = d.readerState true) :
    GoesOn p d master expect chunks now s buffer (p.aead.encrypt d.key nonce chunk) := by
  rw [length_cons] at hroom
  have hbetween := h.between hcipher hstate hbuffer (by omega)
  rw [GoesOn, Reading.advanced, hpoint]
  simp only [advance, decrypt_field (p := p) hused hcipher (by omega) buffer chunk]
  exact hbetween.deliver hwell hchunks (hshown.congr rfl rfl) h.failed

end Fields

section

variable (h : InSync p d master expect chunks s)

include h

/-- The reader is at the end of the stream, or the stream goes on with the field that the call waits for. -/
theorem InSync.field (hd : d.Readable p master now) (hwell : WellFormed d expect chunks) :
    s.reader.buffer ++ s.inbox.flatten = [] ∧ s.returned.flatten = visible expect chunks ∨
      ∃ field after, s.reader.buffer ++ s.inbox.flatten = field ++ after ∧ field.length = s.reader.need s.point ∧
        ∀ buffer, buffer ++ s.inbox.flatten = after → GoesOn p d master expect chunks now s buffer field := by
  obtain ⟨done, todo, hchunks, hposition, hroom, hshown⟩ := h.position
  have hend : todo = [] → s.returned.flatten = visible expect chunks := by
    rintro rfl
    rw [hshown.returned, visible, hchunks, append_nil]
  generalize hcipher : s.reader.cipherState = key at hposition
  generalize hused : s.reader.nonce = nonce at hposition hroom
  generalize hstate : s.reader.ss2022 = state at hposition
  generalize hpoint : s.point = point at hposition hroom ⊢
  generalize s.reader.buffer ++ s.inbox.flatten = wire at hposition ⊢
  cases hposition with
  | start =>
    cases todo with
    | nil => exact .inl ⟨rfl, hend rfl⟩
    | cons chunk todo =>
      refine .inr ⟨d.salt, _, append_assoc _ _ _, ?_, fun buffer hbuffer =>
        h.goesOn_salt hchunks hshown hused hd hpoint rfl hstate hroom hbuffer⟩
      rw [hd.salt, need, h.cipher]
  | header chunk todo hss2022 =>
    rw [Aead.frame, append_assoc, Downlink.head, if_pos (by simp [hss2022])]
    refine .inr ⟨_, _, rfl, ?_, fun buffer hbuffer =>
      h.goesOn_header hchunks hshown hused hcipher hd hwell hpoint rfl hss2022 hstate hroom hbuffer⟩
    rw [p.aead.length_encrypt, length_responseHeader, hd.requestSalt hss2022, need, h.cipher]
  | initialPayload chunk todo =>
    exact .inr ⟨_, _, rfl, p.aead.length_encrypt _ _ _, fun buffer hbuffer =>
      h.goesOn_initialPayload hchunks hshown hused hcipher hwell hroom hbuffer hpoint hstate⟩
  | body nonce =>
    cases todo with
    | nil => exact .inl ⟨rfl, hend rfl⟩
    | cons chunk todo =>
      rw [Downlink.wire, if_pos rfl, nil_append, Downlink.head_started, Aead.frame, append_assoc]
      refine .inr ⟨_, _, rfl, ?_, fun buffer hbuffer =>
        h.goesOn_length hchunks hshown hused hcipher hwell hpoint hstate hroom hbuffer⟩
      rw [p.aead.length_encrypt, length_toBe, need]
  | payload nonce chunk todo =>
    exact .inr ⟨_, _, rfl, p.aead.length_encrypt _ _ _, fun buffer hbuffer =>
      h.goesOn_payload hchunks hshown hused hcipher hwell hroom hbuffer hpoint hstate⟩

theorem InSync.call (hstep : s.call = some next) : InSync p d master expect chunks next := by
  rw [Reading.call] at hstep
  split at hstep
  · cases hstep
  · rename_i hidle
    have hnone : s.future = none := by grind [Option.isSome_eq_false_iff, Option.isNone_iff_eq_none]
    have hpoint : s.point = s.reader.entry := by rw [Reading.point, hnone, Option.getD_none]
    rw [h.tail] at hstep
    cases hstep
    obtain ⟨done, todo, hchunks, hposition, hroom, hshown⟩ := h.position
    rw [hpoint] at hposition hroom
    exact { h with position := ⟨done, todo, hchunks, hposition, hroom, hshown⟩ }

theorem InSync.receive (hstep : s.receive = some next) : InSync p d master expect chunks next := by
  rw [Reading.receive] at hstep
  split at hstep
  · cases hstep
  · rename_i message rest hinbox
    split at hstep
    · cases hstep
      obtain ⟨done, todo, hchunks, hposition, hroom, hshown⟩ := h.position
      rw [hinbox, flatten_cons, ← append_assoc] at hposition
      exact { h with position := ⟨done, todo, hchunks, hposition, hroom, hshown.congr rfl rfl⟩ }
    · cases hstep

end

def Reading.weight (s : Reading κ) : Nat :=
  2 * (s.reader.buffer.length + s.inbox.flatten.length) + s.inbox.length + (if s.future.isNone then 1 else 0)

theorem need_pos (r : TcpShadowsocksReader κ) (point : ReadPoint) : 0 < r.need point := by
  have hsalt := r.cipher.saltLen_pos
  cases point <;> simp only [need, tagLen] <;> omega

theorem inbox_settle (s : Reading κ) (progress : ReadProgress κ) : (s.settle progress).inbox = s.inbox := by
  cases progress <;> rfl

theorem InSync.resume (h : InSync p d master expect chunks s) (hd : d.Readable p master now)
    (hwell : WellFormed d expect chunks) (hstep : s.resume p now = some next) :
    InSync p d master expect chunks next ∧ next.weight < s.weight := by
  rw [Reading.resume] at hstep
  split at hstep
  · cases hstep
  rename_i point hfuture
  split at hstep
  · cases hstep
  rename_i hready
  cases hstep
  have hpoint : s.point = point := by rw [Reading.point, hfuture, Option.getD_some]
  have hneed := need_pos s.reader point
  have henough : s.reader.need point ≤ s.reader.buffer.length := by
    rw [Reading.waits, hfuture] at hready
    simpa using hready
  rcases h.field hd hwell with ⟨hend, -⟩ | ⟨field, after, hwire, hfield, hgoes⟩
  · rw [(append_eq_nil_iff.mp hend).1, length_nil] at henough
    omega
  · obtain ⟨htake, hdrop⟩ := take_of_append hwire (hpoint ▸ hfield) henough
    obtain ⟨hsync, hbuffer⟩ := hgoes _ hdrop
    rw [Reading.advanced, hpoint, ← htake] at hsync hbuffer
    refine ⟨hsync, ?_⟩
    rw [Reading.weight, Reading.weight, hbuffer, inbox_settle, hfuture]
    split <;> simp <;> omega

def Reading.dropsSafely (s : Reading κ) : ReadEvent → Bool
  | .drop => inChunk s.future = 0
  | _ => true

theorem Position.entry {point : ReadPoint} {wire : Bytes}
    (h : Position p d r.cipherState r.nonce r.ss2022 point todo wire) (hsafe : inChunk (some point) = 0) :
    r.entry = point := by
  rw [TcpShadowsocksReader.entry, TcpShadowsocksReader.afterSalt]
  generalize r.cipherState = key at h ⊢
  generalize r.nonce = nonce at h
  generalize r.ss2022 = state at h ⊢
  cases h with
  | start => rfl
  | header chunk todo hss2022 => simp [Downlink.readerState, hss2022]
  | body =>
    rw [Downlink.readerState]
    cases d.cipher.isSs2022 <;> rfl
  | initialPayload => cases hsafe
  | payload => cases hsafe

section

variable (h : InSync p d master expect chunks s)

include h

theorem InSync.drop (hsafe : inChunk s.future = 0) (hstep : s.drop = some next) :
    InSync p d master expect chunks next := by
  rw [Reading.drop] at hstep
  split at hstep
  · rename_i hwaits
    cases hstep
    obtain ⟨done, todo, hchunks, hposition, hroom, hshown⟩ := h.position
    obtain ⟨point, hfuture⟩ : ∃ point, s.future = some point := by
      cases hfuture : s.future with
      | none => simp [Reading.waits, hfuture] at hwaits
      | some point => exact ⟨point, rfl⟩
    have hpoint : s.point = point := by rw [Reading.point, hfuture, Option.getD_some]
    rw [hpoint] at hposition hroom
    rw [hfuture] at hsafe
    have hentry := hposition.entry hsafe
    rw [← hentry] at hposition hroom
    exact { h with position := ⟨done, todo, hchunks, hposition, hroom, hshown⟩ }
  · cases hstep

theorem InSync.step (hd : d.Readable p master now)
    (hwell : WellFormed d expect chunks) {event : ReadEvent} (hsafe : s.dropsSafely event = true)
    (hstep : s.step p now event = some next) : InSync p d master expect chunks next := by
  cases event with
  | call => exact h.call hstep
  | resume => exact (h.resume hd hwell hstep).1
  | receive => exact h.receive hstep
  | drop => exact h.drop (of_decide_eq_true hsafe) hstep

theorem InSync.returned_isPrefix :
    s.returned.flatten <+: visible expect chunks := by
  obtain ⟨done, todo, rfl, _, _, hshown⟩ := h.position
  rw [hshown.returned, visible, flatten_append, drop_append]
  exact prefix_append _ _

end

theorem InSync.returned_eq (h : InSync p d master expect chunks s) (hd : d.Readable p master now)
    (hwell : WellFormed d expect chunks) (hinbox : s.inbox = []) (hwaits : s.waits = true) :
    s.returned.flatten = visible expect chunks := by
  rcases h.field hd hwell with ⟨-, hall⟩ | ⟨field, after, hwire, hfield, -⟩
  · exact hall
  · rw [Reading.waits] at hwaits
    split at hwaits
    · rename_i point hfuture
      have hlength := congrArg length hwire
      rw [Reading.point, hfuture, Option.getD_some] at hfield
      simp only [hinbox, flatten_nil, append_nil, length_append, hfield] at hlength
      have := of_decide_eq_true hwaits
      omega
    · cases hwaits

theorem exists_lighter (h : InSync p d master expect chunks s) (hd : d.Readable p master now)
    (hwell : WellFormed d expect chunks) (hmore : ¬ (s.inbox = [] ∧ s.waits = true)) :
    ∃ event next, event ≠ .drop ∧ s.step p now event = some next ∧ next.weight < s.weight := by
  cases hfuture : s.future with
  | none =>
    have hcall : s.call = some { s with future := some s.reader.entry } := by
      simp [Reading.call, hfuture, h.failed, h.tail]
    refine ⟨.call, _, by simp, hcall, ?_⟩
    simp [Reading.weight, hfuture]
  | some point =>
    by_cases hwaits : s.waits = true
    · cases hinbox : s.inbox with
      | nil => exact absurd ⟨hinbox, hwaits⟩ hmore
      | cons message rest =>
        refine ⟨.receive, _, by simp, by rw [Reading.step, Reading.receive, hinbox]; simp only [hwaits]; rfl, ?_⟩
        simp only [Reading.weight, hinbox, length_append, flatten_cons, length_cons]
        omega
    · have hstep : ∃ next, s.resume p now = some next := by
        simp [Reading.resume, hfuture, hwaits]
      obtain ⟨next, hnext⟩ := hstep
      exact ⟨.resume, next, by simp, hnext, (h.resume hd hwell hnext).2⟩

variable {start : Reading κ}

theorem exists_completion {events : List ReadEvent} (hd : d.Readable p master now)
    (hwell : WellFormed d expect chunks) (h : InSync p d master expect chunks s)
    (hrun : Run (Reading.step p now) (fun s event => s.dropsSafely event = true) start events s) :
    ∃ more final, Run (Reading.step p now) (fun s event => s.dropsSafely event = true) start (events ++ more) final ∧
      InSync p d master expect chunks final ∧ final.inbox = [] ∧ final.waits = true := by
  induction hweight : s.weight using Nat.strongRecOn generalizing s events with
  | ind weight ih =>
    by_cases hdone : s.inbox = [] ∧ s.waits = true
    · exact ⟨[], s, by rwa [append_nil], h, hdone⟩
    · obtain ⟨event, next, hevent, hstep, hless⟩ := exists_lighter h hd hwell hdone
      have hsafe : s.dropsSafely event = true := by
        cases event with
        | drop => exact absurd rfl hevent
        | _ => rfl
      obtain ⟨more, final, hmore, hfinal⟩ :=
        ih next.weight (hweight ▸ hless) (h.step hd hwell hsafe hstep) (hrun.snoc hsafe hstep) rfl
      exact ⟨event :: more, final, by rwa [append_cons], hfinal⟩

def Downlink.reader (d : Downlink κ) (master : Bytes) (expect : Bool) : TcpShadowsocksReader κ where
  cipher := d.cipher
  masterKey := master
  ss2022 := d.readerState false
  expectAckPrefix := expect

theorem inSync_reader {inbox : List Bytes} (hnonces : 2 * chunks.length ≤ maxNonceCounter)
    (hinbox : inbox.flatten = d.wire p false 0 chunks) :
    InSync p d master expect chunks { reader := d.reader master expect, inbox := inbox } := by
  refine ⟨rfl, rfl, rfl, rfl, [], chunks, rfl, ?_, ?_, ?_⟩
  · change Position p d none 0 (d.readerState false) .salt chunks ([] ++ inbox.flatten)
    rw [nil_append, hinbox]
    exact .start chunks
  · change 0 + 2 * chunks.length ≤ maxNonceCounter + 0
    omega
  · exact ⟨by simp [Downlink.reader], by simp, fun _ hdone => absurd rfl hdone⟩

theorem InSync.of_run {events : List ReadEvent} (hd : d.Readable p master now)
    (hwell : WellFormed d expect chunks) (hstart : InSync p d master expect chunks start)
    (hrun : Run (Reading.step p now) (fun s event => s.dropsSafely event = true) start events s) :
    InSync p d master expect chunks s :=
  hrun.invariant (P := fun _ s => InSync p d master expect chunks s) hstart
    fun _ _ _ _ h hsafe hstep => h.step hd hwell hsafe hstep

/-- A caller that reads on gets the plaintext and nothing else, through every schedule of safe drops. -/
def Reading.Obtains (p : Primitives κ) (now : Nat) (start : Reading κ) (plaintext : Bytes) : Prop :=
  ∀ events s, Run (Reading.step p now) (fun s event => s.dropsSafely event = true) start events s →
    s.failed = none ∧ s.returned.flatten <+: plaintext ∧
      (s.inbox = [] → s.waits = true → s.returned.flatten = plaintext) ∧
      ∃ more final, Run (Reading.step p now) (fun s event => s.dropsSafely event = true) start (events ++ more) final ∧
        final.returned.flatten = plaintext

theorem InSync.obtains (hd : d.Readable p master now) (hwell : WellFormed d expect chunks)
    (hstart : InSync p d master expect chunks start) : start.Obtains p now (visible expect chunks) := by
  intro events s hrun
  have hsync := InSync.of_run hd hwell hstart hrun
  obtain ⟨more, final, hmore, hfinal, hempty, hwaits⟩ := exists_completion hd hwell hsync hrun
  exact ⟨hsync.failed, hsync.returned_isPrefix, hsync.returned_eq hd hwell,
    more, final, hmore, hfinal.returned_eq hd hwell hempty hwaits⟩

/-- Whatever the messages the stream is cut into and whenever calls are dropped outside of chunks, no call fails,
the calls return the stream's plaintext in order, and all of it once the reader waits for more. -/
theorem read_chunk_survives_drops {inbox : List Bytes} (hd : d.Readable p master now)
    (hwell : WellFormed d expect chunks) (hnonces : 2 * chunks.length ≤ maxNonceCounter)
    (hinbox : inbox.flatten = d.wire p false 0 chunks) :
    Reading.Obtains p now { reader := d.reader master expect, inbox := inbox } (visible expect chunks) :=
  (inSync_reader hnonces hinbox).obtains hd hwell

def oneChunk : Downlink Bytes where
  cipher := .aes128Gcm
  key := [7]
  salt := replicate 16 0
  requestSalt := []
  timestamp := 0

def chunkApart : List Bytes :=
  [(oneChunk.wire namedPrimitives false 0 [[1, 2, 3]]).take 34,
    (oneChunk.wire namedPrimitives false 0 [[1, 2, 3]]).drop 34]

theorem read_chunk_survives_drops_at_salt :
    ∃ s : Reading Bytes, Run (Reading.step namedPrimitives 0) (fun s event => s.dropsSafely event = true)
      { reader := oneChunk.reader [7] false, inbox := chunkApart }
      [.call, .drop, .call, .receive, .resume, .resume, .receive, .resume, .call] s ∧
      s.returned.flatten = [1, 2, 3] := by
  have hread : oneChunk.Readable namedPrimitives [7] 0 := ⟨rfl, rfl, by decide, by simp [oneChunk, CipherKind.isSs2022]⟩
  have hwell : WellFormed oneChunk false [[1, 2, 3]] := ⟨by decide, by simp⟩
  have hobtains :
      Reading.Obtains namedPrimitives 0 { reader := oneChunk.reader [7] false, inbox := chunkApart } [1, 2, 3] :=
    read_chunk_survives_drops hread hwell (by decide) (by decide)
  exact exists_run rfl fun hrun => (hobtains _ _ hrun).2.2.1 rfl rfl

/-- A call dropped between the length of a chunk and the chunk: the next call takes the chunk for a length. -/
theorem read_chunk_dropped_in_chunk :
    ([ReadEvent.call, .receive, .resume, .resume, .drop, .call, .receive, .resume].foldlM
        (Reading.step namedPrimitives 0) { reader := oneChunk.reader [7] false, inbox := chunkApart }).map
      (fun s => (s.failed, s.returned)) = some (some .decrypt, []) := by
  decide

end OutlineProxy.Shadowsocks
