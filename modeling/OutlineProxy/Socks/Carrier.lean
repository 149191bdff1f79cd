import OutlineProxy.Lib.Pieces

/-! What a send on a carrier puts on the wire. -/

namespace OutlineProxy.Socks

abbrev Bytes := List UInt8

def shadowsocksMaxPayload : Nat := 0xffff

abbrev Fate := Option Nat

def sendChunk (wire chunk : Bytes) : Fate → Bytes × Bool
  | none => (wire ++ chunk, true)
  | some n => (wire ++ chunk.take n, false)

def sendChunks (wire : Bytes) : List Bytes → List Fate → Bytes × Bool
  | [], _ => (wire, true)
  | chunk :: rest, [] => sendChunks (wire ++ chunk) rest []
  | chunk :: rest, fate :: fates =>
    match sendChunk wire chunk fate with
    | (wire, true) => sendChunks wire rest fates
    | (wire, false) => (wire, false)

theorem sendChunk_isPrefix (wire chunk : Bytes) (fate : Fate) :
    (sendChunk wire chunk fate).1 <+: wire ++ chunk := by
  cases fate with
  | none => exact List.prefix_refl _
  | some n => exact (List.prefix_append_right_inj wire).mpr (List.take_prefix n chunk)

theorem sendChunks_isPrefix (wire : Bytes) (chunks : List Bytes) (fates : List Fate) :
    (sendChunks wire chunks fates).1 <+: wire ++ chunks.flatten := by
  induction chunks generalizing wire fates with
  | nil => simp [sendChunks]
  | cons chunk rest ih =>
    rw [List.flatten_cons, ← List.append_assoc]
    cases fates with
    | nil => exact ih _ _
    | cons fate fates =>
      cases fate with
      | none => exact ih _ _
      | some n =>
        exact (sendChunk_isPrefix wire chunk (some n)).trans (List.prefix_append _ _)

theorem sendChunks_eq_of_ok {wire : Bytes} {chunks : List Bytes} {fates : List Fate}
    (h : (sendChunks wire chunks fates).2 = true) : (sendChunks wire chunks fates).1 = wire ++ chunks.flatten := by
  induction chunks generalizing wire fates with
  | nil => simp [sendChunks]
  | cons chunk rest ih =>
    rw [List.flatten_cons, ← List.append_assoc]
    cases fates with
    | nil => exact ih h
    | cons fate fates =>
      cases fate with
      | none => exact ih h
      | some n => cases h

theorem sendChunks_ok (wire : Bytes) (chunks : List Bytes) : (sendChunks wire chunks []).2 = true := by
  induction chunks generalizing wire with
  | nil => rfl
  | cons chunk rest ih => exact ih _

end OutlineProxy.Socks
