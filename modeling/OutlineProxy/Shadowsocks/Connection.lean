import OutlineProxy.Shadowsocks.Authentication

/-! From the client's writer to the server's decryptor. -/

namespace OutlineProxy.Shadowsocks

open AeadStreamDecryptor TcpShadowsocksWriter

variable {κ : Type} {p : Primitives κ} {user : UserKey} {salt address padding out : Bytes} {target : TargetAddr}
  {now timestamp : Nat} {calls : List WriteCall} {after : TcpShadowsocksWriter κ}

section Stream

variable (haddress : target.toWireBytes = .ok address) (hsalt : salt.length = user.cipher.saltLen)
  (hfresh : Fresh timestamp now) (hpadding : padding ≠ [])
  (hwrite : (connect p user.cipher user.masterKey salt).writeAll p timestamp padding (.chunk address :: calls) =
    .ok (out, after))

include haddress hsalt hfresh hpadding hwrite

theorem exists_uplink : ∃ u : Uplink, u.user = user ∧ u.WellFormed now ∧ u.wire p = out ∧
    u.plaintext = address ++ (calls.map WriteCall.payload).flatten ∧ u.nonceAfter u.chunks = after.nonce := by
  by_cases hss2022 : user.cipher.isSs2022 = true
  · obtain ⟨⟨first, middle⟩, hfirst, h⟩ := exists_of_bind_ok hwrite
    obtain ⟨⟨others, last⟩, hothers, h⟩ := exists_of_bind_ok h
    cases h
    obtain ⟨fixedHeader, variableHeader, hheader, rfl, rfl⟩ := sendChunk_connect haddress hss2022 hfirst
    obtain ⟨records, ⟨rfl, rfl⟩, hbytes, hbound⟩ := writeAll_sends (Bool.and_false _) hothers
    refine ⟨⟨user, salt, fixedHeader, variableHeader, address, records⟩, rfl, ⟨hsalt, fun _ => ?_, hbound, ?_⟩,
      ?_, ?_, ?_⟩
    · exact ⟨target, timestamp, padding, hheader, haddress, hfresh, hpadding⟩
    · simp [hss2022]
    · simp [Uplink.wire, Uplink.body, Uplink.key, Uplink.firstNonce, hss2022, connect]
    · simp [Uplink.plaintext, hss2022, hbytes]
    · simp [Uplink.nonceAfter, Uplink.firstNonce, hss2022]
  · obtain ⟨records, ⟨rfl, rfl⟩, hbytes, hbound⟩ := writeAll_sends (by simp [connect, hss2022]) hwrite
    have hrecords : records ≠ [] := by
      rintro rfl
      exact address_ne_nil haddress (List.append_eq_nil_iff.mp hbytes.symm).1
    refine ⟨⟨user, salt, [], [], [], records⟩, rfl, ⟨hsalt, ?_, hbound, fun _ => hrecords⟩, ?_, ?_, ?_⟩
    · simp [hss2022]
    · simp [Uplink.wire, Uplink.body, Uplink.key, Uplink.firstNonce, hss2022, connect, hrecords]
    · simpa [Uplink.plaintext, hss2022] using hbytes
    · simp [Uplink.nonceAfter, Uplink.firstNonce, hss2022, connect]

/-- What a client writes is what the server reads, and as that client's, in whatever pieces it arrives, if and only if
no verdict is taken early and the nonces last. -/
theorem written_stream_is_read_iff {users : List UserKey} {sender : Nat} (huser : users[sender]? = some user)
    (hideal : OnlySenderOpens p users sender out) (hint : Option Nat) {pieces : List Bytes}
    (hpieces : pieces.flatten = out) : (∃ d, drainPieces p now (setUserHint { users := users } hint) pieces =
        .ok (d, address ++ (calls.map WriteCall.payload).flatten) ∧ d.userIndex = some sender) ↔
      NoEarlyVerdict users user [] pieces ∧ after.nonce ≤ maxNonceCounter := by
  obtain ⟨u, rfl, hu, rfl, hplaintext, hnonce⟩ := exists_uplink haddress hsalt hfresh hpadding hwrite
  rw [← hplaintext, ← hnonce]
  exact drainPieces_start_iff hu huser hideal hint hpieces

end Stream

def freshUser : UserKey := ⟨.aes128Gcm2022, [1]⟩

def freshWrites : Except WriteError (Written Bytes) :=
  (connect namedPrimitives freshUser.cipher freshUser.masterKey (.replicate 16 0)).writeAll namedPrimitives 0 [0]
    [.chunk [1, 10, 0, 0, 1, 0, 80], .chunk [5, 6], .keepalive, .chunk [7]]

theorem written_stream_is_read_iff_byte_by_byte : ∃ out after d, freshWrites = .ok (out, after) ∧
    drainPieces namedPrimitives 0 (setUserHint { users := [freshUser] } none) (out.map ([·])) =
      .ok (d, [1, 10, 0, 0, 1, 0, 80, 5, 6, 7]) := by
  have haddress : TargetAddr.toWireBytes (.ipV4 ⟨[10, 0, 0, 1], rfl⟩ 80) = .ok [1, 10, 0, 0, 1, 0, 80] := rfl
  obtain ⟨d, hdrain, -⟩ := (written_stream_is_read_iff haddress rfl (show Fresh 0 0 by simp [Fresh]) (by decide)
    (rfl : freshWrites = .ok (_, _)) (rfl : [freshUser][0]? = some freshUser)
    (fun user index huser hother => by cases index <;> simp_all) none
    (by rw [← List.flatMap_def, List.flatMap_singleton'])).mpr
      ⟨fun before _ hshort user huser => List.mem_singleton.1 huser ▸ hshort, by decide⟩
  exact ⟨_, _, d, rfl, hdrain⟩

end OutlineProxy.Shadowsocks
