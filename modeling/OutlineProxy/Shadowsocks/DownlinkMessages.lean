import OutlineProxy.Shadowsocks.ReaderExact

/-! A downlink plaintext that bypasses the relay, as the messages it is sent in. -/

namespace OutlineProxy.Shadowsocks

open List Pieces AeadStreamEncryptor

variable {κ : Type}

def usizeMax : Nat := 2 ^ 64 - 1

def divCeil (n m : Nat) : Nat := n / m + (if n % m = 0 then 0 else 1)

def pieceCount (len cap : Nat) : Nat := max (divCeil len (max cap 1)) 1

def evenPieceLens (len cap : Nat) : List Nat :=
  let n := pieceCount len cap
  (range n).map fun i => len / n + (if i < len % n then 1 else 0)

variable (encryptor : AeadStreamEncryptor κ)

def pieceCap : Option Nat → Nat
  | none => usizeMax
  | some cap => max (cap - encryptor.pendingPrefixLen) 1

def downlinkPieces (plaintext : Bytes) (cap : Option Nat) : List Bytes :=
  split plaintext (evenPieceLens plaintext.length (pieceCap encryptor cap))

def encryptPieces (p : Primitives κ) (now : Nat) :
    AeadStreamEncryptor κ → List Bytes → Except CryptoError (List Bytes × AeadStreamEncryptor κ)
  | encryptor, [] => .ok ([], encryptor)
  | encryptor, piece :: rest => do
    let (message, encryptor) ← encryptor.encryptChunk p now piece
    let (messages, encryptor) ← encryptPieces p now encryptor rest
    return (message :: messages, encryptor)

def encryptDownlinkMessages (p : Primitives κ) (now : Nat) (encryptor : AeadStreamEncryptor κ) (plaintext : Bytes)
    (cap : Option Nat) : Except CryptoError (List Bytes × AeadStreamEncryptor κ) :=
  encryptPieces p now encryptor (downlinkPieces encryptor plaintext cap)

theorem pieceCount_pos (len cap : Nat) : 0 < pieceCount len cap := Nat.le_max_right _ _

theorem le_mul_pieceCount (len cap : Nat) : len ≤ max cap 1 * pieceCount len cap := by
  have hcap : 0 < max cap 1 := Nat.le_max_right _ _
  have hdiv := Nat.div_add_mod len (max cap 1)
  have hmod := Nat.mod_lt len hcap
  calc len ≤ max cap 1 * divCeil len (max cap 1) := by
        rw [divCeil]
        split
        · rw [Nat.add_zero]
          omega
        · rw [Nat.mul_add, Nat.mul_one]
          omega
    _ ≤ max cap 1 * pieceCount len cap := Nat.mul_le_mul_left _ (Nat.le_max_left _ _)

theorem pieceCount_eq_one {len cap : Nat} (h : len ≤ max cap 1) : pieceCount len cap = 1 := by
  rw [pieceCount, divCeil]
  generalize max cap 1 = m at h
  rcases Nat.lt_or_eq_of_le h with hless | rfl
  · rw [Nat.div_eq_of_lt hless]
    split <;> rfl
  · rw [Nat.mod_self, if_pos rfl, Nat.add_zero]
    exact Nat.max_eq_right (Nat.div_le_of_le_mul (Nat.le_of_eq (Nat.mul_one len).symm))

theorem sum_range_even (base extra n : Nat) :
    ((range n).map fun i => base + (if i < extra then 1 else 0)).sum = n * base + min n extra := by
  induction n with
  | zero => simp
  | succ n ih =>
    rw [range_succ, map_append, sum_append, ih, Nat.succ_mul]
    simp only [map_cons, map_nil, sum_cons, sum_nil]
    split <;> omega

theorem sum_evenPieceLens (len cap : Nat) : (evenPieceLens len cap).sum = len := by
  have hmod := Nat.mod_lt len (pieceCount_pos len cap)
  have hdiv := Nat.div_add_mod len (pieceCount len cap)
  rw [evenPieceLens, sum_range_even, Nat.min_eq_right (by omega)]
  exact hdiv

theorem evenPieceLens_le_iff (len cap bound : Nat) :
    (∀ m ∈ evenPieceLens len cap, m ≤ bound) ↔ len ≤ bound * pieceCount len cap := by
  have hpos := pieceCount_pos len cap
  have hmod := Nat.mod_lt len hpos
  have hdiv := Nat.div_add_mod len (pieceCount len cap)
  rw [evenPieceLens]
  generalize pieceCount len cap = n at *
  constructor
  · intro h
    -- the first piece is a longest one
    have hfirst := h _ (mem_map_of_mem (mem_range.mpr hpos))
    by_cases hextra : 0 < len % n
    · rw [if_pos hextra] at hfirst
      have hmul := Nat.mul_le_mul_left n hfirst
      rw [Nat.mul_add, Nat.mul_one, Nat.mul_comm n bound] at hmul
      omega
    · rw [if_neg hextra, Nat.add_zero] at hfirst
      have hmul := Nat.mul_le_mul_left n hfirst
      rw [Nat.mul_comm n bound] at hmul
      omega
  · intro h m hm
    obtain ⟨i, _, rfl⟩ := mem_map.mp hm
    split
    · have hless : n * (len / n) < n * bound := by
        rw [Nat.mul_comm n bound]
        omega
      exact Nat.lt_of_mul_lt_mul_left hless
    · have hle : n * (len / n) ≤ n * bound := by
        rw [Nat.mul_comm n bound]
        omega
      exact Nat.le_of_mul_le_mul_left hle hpos

theorem flatten_downlinkPieces (plaintext : Bytes) (cap : Option Nat) :
    (downlinkPieces encryptor plaintext cap).flatten = plaintext :=
  flatten_split (sum_evenPieceLens _ _)

theorem downlinkPieces_le_iff (plaintext : Bytes) (cap : Option Nat) (bound : Nat) :
    (∀ piece ∈ downlinkPieces encryptor plaintext cap, piece.length ≤ bound) ↔
      plaintext.length ≤ bound * pieceCount plaintext.length (pieceCap encryptor cap) := by
  have hsum := sum_evenPieceLens plaintext.length (pieceCap encryptor cap)
  have hlengths := map_length_split (Nat.le_of_eq hsum)
  rw [← evenPieceLens_le_iff]
  constructor
  · intro h m hm
    rw [← hlengths] at hm
    obtain ⟨piece, hpiece, rfl⟩ := mem_map.mp hm
    exact h piece hpiece
  · intro h piece hpiece
    refine h _ ?_
    rw [← hlengths]
    exact mem_map_of_mem hpiece

/-- With a cap, each message is one piece of the plaintext that fits it, together with the salt and header that
may go out in front of it. -/
def RespectsCap (p : Primitives κ) (now : Nat) (encryptor : AeadStreamEncryptor κ) (plaintext : Bytes)
    (cap : Option Nat) (messages : List Bytes) : Prop :=
  ∀ c, cap = some c → ∃ pieces after, pieces.flatten = plaintext ∧
    encryptPieces p now encryptor pieces = .ok (messages, after) ∧ ∀ piece ∈ pieces, piece.length ≤ c ∧
      (encryptor.pendingPrefixLen < c → encryptor.pendingPrefixLen + piece.length ≤ c)

variable {plaintext : Bytes}

theorem downlinkPieces_le {encryptor : AeadStreamEncryptor κ} {piece : Bytes} {c : Nat}
    (h : piece ∈ downlinkPieces encryptor plaintext (some c)) :
    piece.length ≤ max (c - encryptor.pendingPrefixLen) 1 := by
  have hall := le_mul_pieceCount plaintext.length (pieceCap encryptor (some c))
  have hcap : max (pieceCap encryptor (some c)) 1 = max (c - encryptor.pendingPrefixLen) 1 := by
    rw [pieceCap, Nat.max_eq_left (Nat.le_max_right _ _)]
  rw [hcap] at hall
  exact (downlinkPieces_le_iff encryptor plaintext (some c) _).mpr hall piece h

variable {p : Primitives κ} {d : Downlink κ} {master : Bytes} {now nonce : Nat} {started : Bool}

def AllFit (d : Downlink κ) (nonce : Nat) (pieces : List Bytes) : Prop :=
  (d.cipher.isSs2022 = true → ∀ piece ∈ pieces, piece.length ≤ maxChunkSize) ∧
    nonce + 2 * (pieces.flatMap d.pieces).length ≤ maxNonceCounter

theorem allFit_cons {piece : Bytes} {rest : List Bytes} :
    AllFit d nonce (piece :: rest) ↔ Fits d nonce piece ∧ AllFit d (nonce + 2 * (d.pieces piece).length) rest := by
  grind [AllFit, Fits, length_append]

theorem encryptPieces_ok {pieces : List Bytes} (h : AllFit d nonce pieces) (started : Bool) :
    ∃ messages after, encryptPieces p d.timestamp (d.encryptor started nonce) pieces = .ok (messages, after) ∧
      messages.flatten = d.wire p started nonce (pieces.flatMap d.pieces) := by
  induction pieces generalizing nonce started with
  | nil => exact ⟨[], _, rfl, rfl⟩
  | cons piece rest ih =>
    obtain ⟨hpiece, hrest⟩ := allFit_cons.mp h
    obtain ⟨messages, after, hmessages, hflatten⟩ := ih hrest (started || !(d.pieces piece).isEmpty)
    refine ⟨d.wire p started nonce (d.pieces piece) :: messages, after, ?_, ?_⟩
    · simp only [encryptPieces, encryptChunk_ok hpiece, bind, Except.bind, hmessages, pure, Except.pure]
    · rw [flatten_cons, hflatten, flatMap_cons, Downlink.wire_append]

theorem encryptPieces_error {pieces : List Bytes} (hnonce : nonce ≤ maxNonceCounter) (h : ¬ AllFit d nonce pieces)
    (started : Bool) : ∃ error, encryptPieces p d.timestamp (d.encryptor started nonce) pieces = .error error := by
  induction pieces generalizing nonce started with
  | nil => exact absurd ⟨by simp, by simpa using hnonce⟩ h
  | cons piece rest ih =>
    rw [allFit_cons, not_and] at h
    by_cases hpiece : Fits d nonce piece
    · obtain ⟨error, herror⟩ := ih hpiece.2 (h hpiece) (started || !(d.pieces piece).isEmpty)
      refine ⟨error, ?_⟩
      simp only [encryptPieces, encryptChunk_ok hpiece, bind, Except.bind, herror]
    · obtain ⟨error, herror⟩ := encryptChunk_error (p := p) hnonce hpiece started d.timestamp
      refine ⟨error, ?_⟩
      simp only [encryptPieces, herror, bind, Except.bind]

def Downlink.readerAt (d : Downlink κ) (master : Bytes) (started : Bool) (nonce : Nat) : TcpShadowsocksReader κ where
  cipher := d.cipher
  masterKey := master
  cipherState := if started then some d.key else none
  nonce := nonce
  ss2022 := d.readerState started

theorem inSync_readerAt {chunks inbox : List Bytes} (hstart : started = false → nonce = 0)
    (hroom : nonce + 2 * chunks.length ≤ maxNonceCounter) (hinbox : inbox.flatten = d.wire p started nonce chunks) :
    InSync p d master false chunks { reader := d.readerAt master started nonce, inbox := inbox } := by
  refine ⟨rfl, rfl, rfl, rfl, [], chunks, rfl, ?_, Nat.le_add_right_of_le hroom, rfl, rfl, by simp⟩
  change Position p d _ nonce _ (d.readerAt master started nonce).entry chunks ([] ++ inbox.flatten)
  rw [nil_append, hinbox]
  cases started with
  | false =>
    rw [hstart rfl]
    exact .start chunks
  | true =>
    have hentry : (d.readerAt master true nonce).entry = .length := by
      simp only [Downlink.readerAt, TcpShadowsocksReader.entry, TcpShadowsocksReader.afterSalt, Downlink.readerState]
      cases d.cipher.isSs2022 <;> rfl
    rw [hentry]
    exact .body nonce chunks

theorem flatten_flatMap_pieces (d : Downlink κ) (pieces : List Bytes) :
    (pieces.flatMap d.pieces).flatten = pieces.flatten := by
  induction pieces with
  | nil => rfl
  | cons piece rest ih => rw [flatMap_cons, flatten_append, flatten_pieces, ih, flatten_cons]

/-- A downlink plaintext reaches the client, in messages that keep to the cap, exactly when the pieces it is cut
into fit the cipher's length field and its chunks have nonces left. -/
theorem encrypt_downlink_messages_iff (hd : d.Readable p master now) (hstart : started = false → nonce = 0)
    (hnonce : nonce ≤ maxNonceCounter) (plaintext : Bytes) {cap : Option Nat} (hcap : ∀ c, cap = some c → 0 < c) :
    (∃ messages after,
      encryptDownlinkMessages p d.timestamp (d.encryptor started nonce) plaintext cap = .ok (messages, after) ∧
        RespectsCap p d.timestamp (d.encryptor started nonce) plaintext cap messages ∧
        Reading.Obtains p now { reader := d.readerAt master started nonce, inbox := messages } plaintext) ↔
      (d.cipher.isSs2022 = true →
        plaintext.length ≤ maxChunkSize * pieceCount plaintext.length (pieceCap (d.encryptor started nonce) cap)) ∧
      nonce + 2 * ((downlinkPieces (d.encryptor started nonce) plaintext cap).flatMap d.pieces).length ≤
        maxNonceCounter := by
  rw [← downlinkPieces_le_iff]
  generalize hpieces : downlinkPieces (d.encryptor started nonce) plaintext cap = pieces
  have hflatten : pieces.flatten = plaintext := by rw [← hpieces, flatten_downlinkPieces]
  constructor
  · rintro ⟨messages, after, hok, _⟩
    by_contra hfit
    obtain ⟨error, herror⟩ := encryptPieces_error (p := p) hnonce hfit started
    rw [encryptDownlinkMessages, hpieces, herror] at hok
    cases hok
  · intro hfit
    obtain ⟨messages, after, hok, hwire⟩ := encryptPieces_ok (p := p) hfit started
    refine ⟨messages, after, by rw [encryptDownlinkMessages, hpieces, hok], ?_, ?_⟩
    · intro c hc
      refine ⟨pieces, after, hflatten, hok, fun piece hpiece => ?_⟩
      rw [← hpieces, hc] at hpiece
      have hle := downlinkPieces_le hpiece
      have hpos := hcap c hc
      omega
    · have hbound : WellFormed d false (pieces.flatMap d.pieces) := by
        refine ⟨fun chunk hchunk => ?_, by simp⟩
        obtain ⟨piece, hpiece, hmem⟩ := mem_flatMap.mp hchunk
        exact length_le_of_mem_pieces (fun hss2022 => hfit.1 hss2022 piece hpiece) hmem
      have hsync : InSync p d master false (pieces.flatMap d.pieces)
          { reader := d.readerAt master started nonce, inbox := messages } := inSync_readerAt hstart hfit.2 hwire
      have hobtains := hsync.obtains hd hbound
      rwa [visible, flatten_flatMap_pieces, hflatten] at hobtains

theorem encrypt_downlink_messages_iff_two : ∃ messages after,
      encryptDownlinkMessages namedPrimitives 0 (oneChunk.encryptor true 2) [1, 2, 3] (some 2) = .ok (messages, after) ∧
        Reading.Obtains namedPrimitives 0 { reader := oneChunk.readerAt [7] true 2, inbox := messages } [1, 2, 3] := by
  have hread : oneChunk.Readable namedPrimitives [7] 0 :=
    ⟨rfl, rfl, by decide, by simp [oneChunk, CipherKind.isSs2022]⟩
  have hcap : ∀ c, some 2 = some c → 0 < c := by simp
  have hstart : true = false → 2 = 0 := by simp
  obtain ⟨messages, after, hok, _, hobtains⟩ :=
    (encrypt_downlink_messages_iff hread hstart (by decide) [1, 2, 3] hcap).mpr ⟨by decide, by decide⟩
  exact ⟨messages, after, hok, hobtains⟩

def ss2022Session : Downlink Bytes where
  cipher := .aes128Gcm2022
  key := [7]
  salt := replicate 16 0
  requestSalt := replicate 16 1
  timestamp := 0

theorem downlinkPieces_none (h : plaintext.length ≤ usizeMax) (encryptor : AeadStreamEncryptor κ) :
    downlinkPieces encryptor plaintext none = [plaintext] := by
  have hone : pieceCount plaintext.length usizeMax = 1 := pieceCount_eq_one (Nat.le_trans h (Nat.le_max_left _ _))
  have hlens : evenPieceLens plaintext.length usizeMax = [plaintext.length] := by
    rw [evenPieceLens, hone]
    simp [Nat.mod_one]
  rw [downlinkPieces, pieceCap, hlens, split, split, take_length]

theorem encryptDownlinkMessages_of_length (hlength : plaintext.length = 65536) :
    encryptDownlinkMessages namedPrimitives 0 (ss2022Session.encryptor true 2) plaintext none =
      .error (.invalidChunkSize 65536) := by
  have hpieces : downlinkPieces (ss2022Session.encryptor true 2) plaintext none = [plaintext] :=
    downlinkPieces_none (by rw [hlength]; decide) _
  rw [encryptDownlinkMessages, hpieces]
  simp [encryptPieces, ss2022Session, Downlink.encryptor, CipherKind.isSs2022, encryptChunk, encryptSs2022Chunk,
    maxChunkSize, hlength, bind, Except.bind]

/-- A plaintext longer than a length field of SS2022 can say is refused where no cap cuts it. -/
theorem long_plaintext_refused :
    encryptDownlinkMessages namedPrimitives 0 (ss2022Session.encryptor true 2) (replicate 65536 0) none =
      .error (.invalidChunkSize 65536) :=
  encryptDownlinkMessages_of_length length_replicate

end OutlineProxy.Shadowsocks
