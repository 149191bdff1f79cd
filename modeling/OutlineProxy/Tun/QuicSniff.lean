import Mathlib.Data.List.Sort
import OutlineProxy.Lib.Cursor
import OutlineProxy.Tun.Wire

/-! The server name in the QUIC Initials of a datagram, and what `sniff_quic_sni` finds of it. -/

namespace OutlineProxy.Tun

open List Cursor Sealing

inductive SniffOutcome where
  | found (host : Bytes)
  | incomplete
  | notMatched

structure InitialKeys where
  key : Bytes
  iv : Bytes
  hp : Bytes

/-- HKDF, AES and AES-GCM, and the address parser of the standard library. -/
structure SniffPrimitives where
  deriveInitialSecrets : (version : Nat) → (dcid : Bytes) → InitialKeys
  headerProtectionMask : (hpKey sample : Bytes) → Bytes
  decrypt : (key nonce aad ciphertext : Bytes) → Option Bytes
  isIpAddr : Bytes → Bool

variable (p : SniffPrimitives)

section ClientHello

def isAlpha (byte : UInt8) : Bool := 65 ≤ byte ∧ byte ≤ 90 ∨ 97 ≤ byte ∧ byte ≤ 122

/-- What passes is ASCII, hence also UTF-8. -/
def isValidSniffedHost (host : Bytes) : Bool :=
  host ≠ [] && host.length ≤ 253 && !p.isIpAddr host &&
    host.all (fun byte => isAlpha byte || (48 ≤ byte ∧ byte ≤ 57) || [46, 45, 95].contains byte) && host.any isAlpha

def hostName (name : Bytes) : SniffOutcome := if isValidSniffedHost p name then .found name else .notMatched

def readEntry (width : Nat) : Reader (Nat × Bytes) := do
  return (← be width, ← readVec 2)

/-- Every entry of a server name list takes three bytes at least. -/
def serverNames : Nat → Bytes → SniffOutcome
  | 0, _ => .notMatched
  | fuel + 1, list =>
    if list.length < 3 then .notMatched
    else
      match readEntry 1 list with
      | none => .incomplete
      | some ((kind, name), rest) => if kind = 0 then hostName p name else serverNames fuel rest

def parseSniExtension (ext : Bytes) : SniffOutcome :=
  match readVec 2 ext with
  | none => .incomplete
  | some (list, _) => serverNames p list.length list

/-- The extensions in the next `left` bytes, of which every one takes four at least. -/
def clientExtensions : Nat → Nat → Reader SniffOutcome
  | 0, _ => return .notMatched
  | fuel + 1, left => do
    if left = 0 then return .notMatched
    let (kind, ext) ← readEntry 2
    if kind = 0 then return parseSniExtension p ext
    clientExtensions fuel (left - (4 + ext.length))

def clientHello : Reader SniffOutcome := do
  if (← byte) ≠ 1 then return .notMatched
  let _ ← take 3
  let _ ← take (2 + 32)
  let _ ← readVec 1
  let _ ← readVec 2
  let _ ← readVec 1
  let total ← be 2
  clientExtensions p total total

def parseClientHello (body : Bytes) : SniffOutcome := ((clientHello p).run' body).getD .incomplete

end ClientHello

section Packet

def readVarint : Reader Nat := do
  let first ← byte
  let rest ← take (2 ^ (first >>> 6).toNat - 1)
  return ofBe ((first &&& 0x3f) :: rest)

def skipVarints : Nat → Reader Unit
  | 0 => return
  | n + 1 => do
    let _ ← readVarint
    skipVarints n

/-- The CRYPTO piece of the next frame, if it is one; a frame that is not expected in an Initial ends them. -/
def readFrame : Reader (Option (List (Nat × Bytes))) := do
  let kind ← readVarint
  if kind ≤ 1 then return some []
  else if kind ≤ 3 then
    skipVarints 2
    let count ← readVarint
    skipVarints (1 + (2 * count + if kind = 3 then 3 else 0))
    return some []
  else if kind = 6 then return some [(← readVarint, ← take (← readVarint))]
  else return none

def cryptoFrames : Nat → Bytes → Option (List (Nat × Bytes))
  | 0, _ => some []
  | fuel + 1, frames => do
    if frames = [] then return []
    match ← readFrame frames with
    | (none, _) => return []
    | (some pieces, frames) => return pieces ++ (← cryptoFrames fuel frames)

def assemble : List (Nat × Bytes) → Nat → Bytes
  | [], _ => []
  | (offset, data) :: pieces, next =>
    if next < offset then []
    else
      let slice := data.drop (next - offset)
      slice ++ assemble pieces (next + slice.length)

def reassembleCrypto (frames : Bytes) : Option Bytes := do
  let pieces ← cryptoFrames frames.length frames
  let out := assemble (pieces.insertionSort fun a b => a.1 ≤ b.1) 0
  if out = [] then none else some out

def versionV2 : Nat := 0x6b3343cf

/-- A long header of version 1 or 2 with the type of an Initial, which is numbered anew in version 2. -/
def StartsInitial (first : UInt8) (version : Nat) : Prop :=
  (version = 1 ∨ version = versionV2) ∧ first &&& 0xf0 = if version = versionV2 then 0xd0 else 0xc0

instance (first : UInt8) (version : Nat) : Decidable (StartsInitial first version) :=
  inferInstanceAs (Decidable (_ ∧ _))

structure InitialHeader where
  first : UInt8
  version : Nat
  dcid : Bytes
  remainder : Nat

def initialHeader : Reader InitialHeader := do
  let first ← byte
  let version ← be 4
  let dcid ← readVec 1
  let scid ← readVec 1
  let _ ← take (← readVarint)
  let remainder ← readVarint
  if StartsInitial first version ∧ dcid.length ≤ 20 ∧ scid.length ≤ 20 then return ⟨first, version, dcid, remainder⟩
  else failure

/-- Opens what is protected under a header, with `sample` for the mask; `head` ends before the packet number. -/
def openInitial (keys : InitialKeys) (head sample body : Bytes) : Option Bytes := do
  let mask := p.headerProtectionMask keys.hp sample
  let first := head.headD 0 ^^^ (mask.headD 0 &&& 0x0f)
  let (field, ciphertext) ← take ((first &&& 0x03).toNat + 1) body
  let number := field.zipWith (· ^^^ ·) (mask.drop 1)
  let nonce := keys.iv.take 4 ++ (keys.iv.drop 4).zipWith (· ^^^ ·) (toBe 8 (ofBe number))
  if ciphertext.length < 16 then none else p.decrypt keys.key nonce (first :: head.tail ++ number) ciphertext

def decryptInitialCrypto (datagram : Bytes) : Option Bytes := do
  let (header, rest) ← initialHeader datagram
  let (body, _) ← take header.remainder rest
  let (sample, _) ← take 16 (rest.drop 4)
  openInitial p (p.deriveInitialSecrets header.version header.dcid) (datagram.take (datagram.length - rest.length))
    sample body

def sniffQuicSni (datagram : Bytes) : SniffOutcome :=
  match decryptInitialCrypto p datagram with
  | none => .notMatched
  | some frames =>
    match reassembleCrypto frames with
    | none => .incomplete
    | some handshake => parseClientHello p handshake

end Packet

section Carried

/-- What the Initials that a datagram begins with open to; the fuel is the length of the datagram. -/
def initials (p : SniffPrimitives) : Nat → Bytes → List Bytes
  | 0, _ => []
  | fuel + 1, datagram =>
    match initialHeader datagram, decryptInitialCrypto p datagram with
    | some (header, rest), some frames => frames :: initials p fuel (rest.drop header.remainder)
    | _, _ => []

/-- The pieces of the CRYPTO stream that a datagram holds. -/
def carriedPieces (p : SniffPrimitives) (datagram : Bytes) : List (Nat × Bytes) :=
  (initials p datagram.length datagram).flatMap fun frames => (cryptoFrames frames.length frames).getD []

variable {p}

def entry (width kind : Nat) (data : Bytes) : Bytes := toBe width kind ++ vec 2 data

/-- An extension other than `server_name`. -/
structure Extension where
  kind : Nat
  data : Bytes
  kind_pos : 0 < kind
  kind_lt : kind < 256 ^ 2
  data_lt : data.length < 256 ^ 2

def Extension.bytes (e : Extension) : Bytes := entry 2 e.kind e.data

/-- A ClientHello with a server name; `lead` is its version and random. -/
structure ClientHello where
  lead : Bytes
  sessionId : Bytes
  ciphers : Bytes
  compression : Bytes
  before : List Extension
  host : Bytes
  moreNames : Bytes
  after : Bytes

namespace ClientHello

variable (h : ClientHello)

def names : Bytes := entry 1 0 h.host ++ h.moreNames

def extensions : Bytes := h.before.flatMap Extension.bytes ++ (entry 2 0 (vec 2 h.names) ++ h.after)

def bytes : Bytes :=
  1 :: vec 3 (h.lead ++ (vec 1 h.sessionId ++ (vec 2 h.ciphers ++ (vec 1 h.compression ++ vec 2 h.extensions))))

@[mk_iff wellFormed_iff]
structure WellFormed : Prop where
  lead : h.lead.length = 34
  sessionId : h.sessionId.length < 256 ^ 1
  ciphers : h.ciphers.length < 256 ^ 2
  compression : h.compression.length < 256 ^ 1
  extensions : h.extensions.length < 256 ^ 2

end ClientHello

theorem readEntry_append {width kind : Nat} {data : Bytes} (hkind : kind < 256 ^ width) (hdata : data.length < 256 ^ 2)
    (rest : Bytes) : readEntry width (entry width kind data ++ rest) = some ((kind, data), rest) := by
  rw [readEntry, entry, append_assoc, bind_of_eq_some _ (be_append hkind _), bind_of_eq_some _ (readVec_append hdata _)]
  rfl

theorem length_entry (width kind : Nat) (data : Bytes) : (entry width kind data).length = width + 2 + data.length := by
  simp [entry, vec, Nat.add_assoc]

theorem parseSniExtension_names (h : ClientHello) (hlt : h.names.length < 256 ^ 2) :
    parseSniExtension p (vec 2 h.names) = hostName p h.host := by
  have hread := readVec_append hlt []
  have hlength : h.names.length = 3 + h.host.length + h.moreNames.length := by
    simp [ClientHello.names, length_entry]
  rw [append_nil] at hread
  obtain ⟨fuel, hfuel⟩ := Nat.exists_eq_add_one_of_ne_zero (show h.names.length ≠ 0 by omega)
  simp only [parseSniExtension, hread]
  rw [hfuel, serverNames, if_neg (by omega), ClientHello.names, readEntry_append (by decide) (by omega)]
  rfl

theorem clientExtensions_entry {kind fuel left : Nat} {data : Bytes} (hkind : kind < 256 ^ 2)
    (hdata : data.length < 256 ^ 2) (hleft : 0 < left) (rest : Bytes) :
    clientExtensions p (fuel + 1) left (entry 2 kind data ++ rest) =
      if kind = 0 then some (parseSniExtension p data, rest)
      else clientExtensions p fuel (left - (4 + data.length)) rest := by
  rw [clientExtensions, if_neg hleft.ne', bind_of_eq_some _ (readEntry_append hkind hdata rest)]
  dsimp only
  split <;> rfl

theorem clientExtensions_entries (before : List Extension) {ext : Bytes} (hext : ext.length < 256 ^ 2) (more : Bytes)
    {fuel left : Nat} (hleft : (before.flatMap Extension.bytes).length < left) (hfuel : left ≤ fuel) :
    clientExtensions p fuel left (before.flatMap Extension.bytes ++ (entry 2 0 ext ++ more)) =
      some (parseSniExtension p ext, more) := by
  induction before generalizing fuel left with
  | nil =>
    obtain ⟨fuel, rfl⟩ := Nat.exists_eq_add_one_of_ne_zero (show fuel ≠ 0 by omega)
    exact clientExtensions_entry (by decide) hext hleft more
  | cons e before ih =>
    obtain ⟨fuel, rfl⟩ := Nat.exists_eq_add_one_of_ne_zero (show fuel ≠ 0 by omega)
    rw [flatMap_cons, length_append, Extension.bytes, length_entry] at hleft
    rw [flatMap_cons, append_assoc, Extension.bytes, clientExtensions_entry e.kind_lt e.data_lt (by omega),
      if_neg e.kind_pos.ne']
    exact ih (by omega) (by omega)

theorem clientExtensions_extensions {h : ClientHello} (hwell : h.WellFormed) (more : Bytes) :
    clientExtensions p h.extensions.length h.extensions.length (h.extensions ++ more) =
      some (hostName p h.host, h.after ++ more) := by
  have hlength : h.extensions.length = (h.before.flatMap Extension.bytes).length + (4 + (2 + h.names.length)) +
      h.after.length := by
    simp [ClientHello.extensions, length_entry, vec, Nat.add_assoc]
  have hlt := hwell.extensions
  have hext : (vec 2 h.names).length < 256 ^ 2 := by
    rw [vec, length_append, length_toBe]
    omega
  have hscan := clientExtensions_entries (p := p) h.before hext (h.after ++ more)
    (show _ < h.extensions.length by omega) le_rfl
  rw [parseSniExtension_names h (by omega)] at hscan
  simpa only [ClientHello.extensions, append_assoc] using hscan

theorem clientHello_bytes {h : ClientHello} (hwell : h.WellFormed) (more : Bytes) :
    clientHello p (h.bytes ++ more) = some (hostName p h.host, h.after ++ more) := by
  rw [ClientHello.bytes, vec, clientHello]
  simp only [cons_append, append_assoc]
  rw [bind_of_eq_some _ (byte_cons ..), if_neg (by decide), bind_of_eq_some _ (take_append (length_toBe 3 _) _),
    bind_of_eq_some _ (take_append hwell.lead _), bind_of_eq_some _ (readVec_append hwell.sessionId _),
    bind_of_eq_some _ (readVec_append hwell.ciphers _), bind_of_eq_some _ (readVec_append hwell.compression _),
    vec, append_assoc, bind_of_eq_some _ (be_append hwell.extensions _), clientExtensions_extensions hwell]

theorem settled_clientExtensions (fuel left : Nat) : Settled (clientExtensions p fuel left) := by
  induction fuel generalizing left with
  | zero => exact settled_pure _
  | succ fuel ih =>
    rw [clientExtensions]
    split
    · exact settled_pure _
    · refine ((settled_be 2).bind fun _ => (settled_readVec 2).bind fun _ => settled_pure _).bind fun found => ?_
      split
      split
      · exact settled_pure _
      · exact ih _

theorem settled_clientHello : Settled (clientHello p) := by
  refine settled_byte.bind fun kind => ?_
  split
  · exact settled_pure _
  · exact (settled_take 3).bind fun _ => (settled_take _).bind fun _ => (settled_readVec 1).bind fun _ =>
      (settled_readVec 2).bind fun _ =>
      (settled_readVec 1).bind fun _ => (settled_be 2).bind fun total => settled_clientExtensions total total

/-- What is found in the beginning of a ClientHello is its server name. -/
theorem parseClientHello_prefix {h : ClientHello} (hwell : h.WellFormed) {more x host : Bytes}
    (hpart : x <+: h.bytes ++ more) (hfound : parseClientHello p x = .found host) : host = h.host := by
  obtain ⟨y, hxy⟩ := hpart
  cases hread : clientHello p x with
  | none => simp [parseClientHello, StateT.run', hread] at hfound
  | some found =>
    have hwhole := settled_clientHello x y found.1 found.2 hread
    rw [hxy, clientHello_bytes hwell, Option.some_inj, Prod.ext_iff] at hwhole
    have hhost : hostName p h.host = .found host :=
      hwhole.1.trans (by simpa [parseClientHello, StateT.run', hread] using hfound)
    rw [hostName] at hhost
    split at hhost <;> cases hhost
    rfl

theorem assemble_prefix {stream : Bytes} {pieces : List (Nat × Bytes)}
    (h : ∀ piece ∈ pieces, piece.2 <+: stream.drop piece.1) (next : Nat) :
    assemble pieces next <+: stream.drop next := by
  induction pieces generalizing next with
  | nil => exact nil_prefix
  | cons piece pieces ih =>
    obtain ⟨hpiece, hpieces⟩ := forall_mem_cons.mp h
    rw [assemble]
    split
    · exact nil_prefix
    · rename_i hnext
      obtain ⟨tail, htail⟩ := hpiece
      have hslice := congrArg (drop (next - piece.1)) htail
      rw [drop_append, drop_drop, Nat.add_sub_cancel' (Nat.le_of_not_lt hnext)] at hslice
      have hrest := ih hpieces (next + (piece.2.drop (next - piece.1)).length)
      rw [← drop_drop, ← hslice, drop_left] at hrest
      rw [← hslice]
      exact (prefix_append_right_inj _).mpr hrest

/-- The Initials of the datagram together hold a whole ClientHello with the server name. -/
def CarriesHello (p : SniffPrimitives) (datagram name : Bytes) : Prop :=
  ∃ (hello : ClientHello) (more : Bytes), hello.WellFormed ∧ hello.host = name ∧
    (∀ piece ∈ carriedPieces p datagram, piece.2 <+: (hello.bytes ++ more).drop piece.1) ∧
    ∀ i < hello.bytes.length, ∃ piece ∈ carriedPieces p datagram, piece.1 ≤ i ∧ i < piece.1 + piece.2.length

theorem mem_carriedPieces {datagram frames : Bytes} {pieces : List (Nat × Bytes)}
    (hopen : decryptInitialCrypto p datagram = some frames)
    (hpieces : cryptoFrames frames.length frames = some pieces) :
    ∀ piece ∈ pieces, piece ∈ carriedPieces p datagram := by
  intro piece hpiece
  obtain ⟨⟨header, rest⟩, hheader, -⟩ := Option.bind_eq_some_iff.mp hopen
  cases datagram with
  | nil => cases hheader
  | cons first datagram =>
    rw [carriedPieces, length_cons, initials, hheader, hopen, flatMap_cons, hpieces]
    exact mem_append_left _ hpiece

theorem eq_of_found {datagram name host : Bytes} (hcarries : CarriesHello p datagram name)
    (hfound : sniffQuicSni p datagram = .found host) : host = name := by
  obtain ⟨hello, more, hwell, rfl, hstream, -⟩ := hcarries
  unfold sniffQuicSni at hfound
  split at hfound
  · cases hfound
  rename_i frames hopen
  split at hfound
  · cases hfound
  rename_i handshake hout
  obtain ⟨pieces, hpieces, hout⟩ := Option.bind_eq_some_iff.mp hout
  obtain ⟨-, hout⟩ := Option.ite_none_left_eq_some.mp hout
  cases hout
  have hpart : assemble (pieces.insertionSort fun a b => a.1 ≤ b.1) 0 <+: hello.bytes ++ more :=
    assemble_prefix (fun piece hpiece =>
      hstream piece (mem_carriedPieces hopen hpieces piece ((mem_insertionSort _).mp hpiece))) 0
  exact parseClientHello_prefix hwell hpart hfound

end Carried

end OutlineProxy.Tun
