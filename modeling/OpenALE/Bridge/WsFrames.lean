import OpenALE.Library.Bits
import OpenALE.Library.Incremental

/-!
# The frames of the WebSocket

Model of `parse_ws_frames_` with its receive loop, and of `ioth_send_frame`
(`src/apps/bridge/ws_server.cpp`).

* The buffer and the session are those of `Incremental`: `scanFrame` is the part of the loop up to
  `buf.erase`, `handleFrame` the switch behind it.
* `sent` are the frames handed to the socket; what the socket does with them is left out.
-/

namespace OpenALE.Ws

open Bits Incremental

/-- What the parser reads and writes beside the buffer. -/
structure WsState where
  fragAcc : List UInt8 := []
  fragOpcode : Nat := 0
  recvQueue : List (List UInt8) := []
  recvBinaryQueue : List (List UInt8) := []
  sent : List (List UInt8) := []
  deriving Repr, DecidableEq

/-- A frame without its mask. -/
structure WsFrame where
  fin : Bool
  opcode : Nat
  payload : List UInt8
  deriving Repr, DecidableEq

/-- `kMaxFramePayload`. -/
abbrev kMaxFramePayload : Nat := 16 * 1024 * 1024

/-! ## Sending -/

/-- The length field, without the mask bit. -/
def lengthBytes (len : Nat) : List UInt8 :=
  if len < 126 then [UInt8.ofNat len]
  else if len ≤ 0xFFFF then 126 :: toBE 2 len
  else 127 :: toBE 8 len

/-- The bytes of `ioth_send_frame`. -/
def iothSendFrame (opcode : Nat) (data : List UInt8) : List UInt8 :=
  (0x80 ||| UInt8.ofNat opcode) :: lengthBytes data.length ++ data

/-! ## Receiving -/

/-- The length of the payload and of the header in front of the mask, `none` while the length field
is not complete. -/
def readLength (buf : List UInt8) : Option (Nat × Nat) :=
  let payloadLen := (buf.getD 1 0 &&& 0x7F).toNat
  if payloadLen = 126 then
    if buf.length < 4 then none else some (ofBE ((buf.drop 2).take 2), 4)
  else if payloadLen = 127 then
    if buf.length < 10 then none else some (ofBE ((buf.drop 2).take 8), 10)
  else some (payloadLen, 2)

/-- The exclusive or with a mask of four bytes. -/
def applyMask (mask payload : List UInt8) : List UInt8 :=
  payload.mapIdx fun i b => b ^^^ mask.getD (i % 4) 0

/-- One frame at the front of the buffer. -/
def scanFrame (buf : List UInt8) : Scan UInt8 WsFrame :=
  if buf.length < 2 then .waits
  else
    let fin := buf.getD 0 0 &&& 0x80 ≠ 0
    let opcode := (buf.getD 0 0 &&& 0x0F).toNat
    let masked := buf.getD 1 0 &&& 0x80 ≠ 0
    match readLength buf with
    | none => .waits
    | some (payloadLen, lengthLen) =>
      if payloadLen > kMaxFramePayload then .stops
      else
        let headerLen := if masked then lengthLen + 4 else lengthLen
        let totalNeeded := headerLen + payloadLen
        if buf.length < totalNeeded then .waits
        else
          let payload := (buf.drop headerLen).take payloadLen
          let payload :=
            if masked then applyMask ((buf.drop (headerLen - 4)).take 4) payload else payload
          .frame { fin, opcode, payload } (buf.drop totalNeeded)

/-- The switch on the opcode; `true` ends the session. -/
def handleFrame (x : WsState) (f : WsFrame) : WsState × Bool :=
  match f.opcode with
  | 0x0 =>
    let acc := x.fragAcc ++ f.payload
    if f.fin then
      let x :=
        if x.fragOpcode = 0x1 then { x with recvQueue := x.recvQueue ++ [acc] }
        else if x.fragOpcode = 0x2 then { x with recvBinaryQueue := x.recvBinaryQueue ++ [acc] }
        else x
      ({ x with fragAcc := [], fragOpcode := 0 }, false)
    else ({ x with fragAcc := acc }, false)
  | 0x1 =>
    if f.fin then ({ x with recvQueue := x.recvQueue ++ [f.payload] }, false)
    else ({ x with fragOpcode := 0x1, fragAcc := f.payload }, false)
  | 0x2 =>
    if f.fin then ({ x with recvBinaryQueue := x.recvBinaryQueue ++ [f.payload] }, false)
    else ({ x with fragOpcode := 0x2, fragAcc := f.payload }, false)
  | 0x8 => ({ x with sent := x.sent ++ [iothSendFrame 0x8 []] }, true)
  | 0x9 => ({ x with sent := x.sent ++ [iothSendFrame 0xA f.payload] }, false)
  | _ => (x, false)

/-- What the receive loop clears when the session ends. -/
def closeSession (x : WsState) : WsState := { x with fragAcc := [], fragOpcode := 0 }

/-- A chunk of the receive loop, and `parse_ws_frames_` on what there is then. -/
def receiveChunk : Session WsState UInt8 → List UInt8 → Session WsState UInt8 :=
  feed scanFrame handleFrame closeSession

/-! ## The look at the buffer -/

theorem take_drop_append {buf : List UInt8} (more : List UInt8) {i k : Nat}
    (h : i + k ≤ buf.length) : ((buf ++ more).drop i).take k = (buf.drop i).take k := by
  rw [List.drop_append_of_le_length (by omega), List.take_append_of_le_length]
  rw [List.length_drop]
  omega

theorem readLength_append {buf : List UInt8} {lengths : Nat × Nat} (more : List UInt8)
    (hbuf : 2 ≤ buf.length) (h : readLength buf = some lengths) :
    readLength (buf ++ more) = some lengths := by
  unfold readLength at *
  dsimp only at *
  rw [List.getD_append _ _ _ _ (by omega)]
  split at h
  · rename_i h126
    rw [if_pos h126]
    split at h
    · cases h
    · rename_i h4
      rw [if_neg (by rw [List.length_append]; omega), take_drop_append more (by omega)]
      exact h
  · rename_i h126
    rw [if_neg h126]
    split at h
    · rename_i h127
      rw [if_pos h127]
      split at h
      · cases h
      · rename_i h10
        rw [if_neg (by rw [List.length_append]; omega), take_drop_append more (by omega)]
        exact h
    · rename_i h127
      rw [if_neg h127]
      exact h

/-- The length field stands in the buffer. -/
theorem readLength_le {buf : List UInt8} {payloadLen lengthLen : Nat} (hbuf : 2 ≤ buf.length)
    (h : readLength buf = some (payloadLen, lengthLen)) :
    2 ≤ lengthLen ∧ lengthLen ≤ buf.length := by
  unfold readLength at h
  dsimp only at h
  split at h
  · split at h
    · cases h
    · cases h
      omega
  · split at h
    · split at h
      · cases h
      · cases h
        omega
    · cases h
      omega

/-- What `scanFrame` finds behind a complete length field. -/
theorem scanFrame_cases {buf : List UInt8} {payloadLen lengthLen : Nat} (hbuf : 2 ≤ buf.length)
    (hlength : readLength buf = some (payloadLen, lengthLen)) :
    (kMaxFramePayload < payloadLen ∧ scanFrame buf = .stops) ∨
      payloadLen ≤ kMaxFramePayload ∧ ∃ headerLen,
        headerLen = (if buf.getD 1 0 &&& 0x80 ≠ 0 then lengthLen + 4 else lengthLen) ∧
          ((buf.length < headerLen + payloadLen ∧ scanFrame buf = .waits) ∨
            headerLen + payloadLen ≤ buf.length ∧
              scanFrame buf = .frame
                { fin := buf.getD 0 0 &&& 0x80 ≠ 0, opcode := (buf.getD 0 0 &&& 0x0F).toNat
                  payload :=
                    if buf.getD 1 0 &&& 0x80 ≠ 0 then
                      applyMask ((buf.drop lengthLen).take 4)
                        ((buf.drop headerLen).take payloadLen)
                    else (buf.drop headerLen).take payloadLen }
                (buf.drop (headerLen + payloadLen))) := by
  unfold scanFrame
  rw [if_neg (by omega), hlength]
  dsimp only
  by_cases hlen : payloadLen > kMaxFramePayload
  · rw [if_pos hlen]
    exact Or.inl ⟨hlen, rfl⟩
  · rw [if_neg hlen]
    refine Or.inr ⟨by omega, _, rfl, ?_⟩
    by_cases hmask : buf.getD 1 0 &&& 0x80 ≠ 0
    · simp only [if_pos hmask]
      by_cases htotal : buf.length < lengthLen + 4 + payloadLen
      · exact Or.inl ⟨htotal, if_pos htotal⟩
      · exact Or.inr ⟨by omega, if_neg htotal⟩
    · simp only [if_neg hmask]
      by_cases htotal : buf.length < lengthLen + payloadLen
      · exact Or.inl ⟨htotal, if_pos htotal⟩
      · exact Or.inr ⟨by omega, if_neg htotal⟩

/-- Without a complete length field it waits. -/
theorem scanFrame_waits {buf : List UInt8}
    (h : buf.length < 2 ∨ readLength buf = none) : scanFrame buf = .waits := by
  unfold scanFrame
  split
  · rfl
  · rename_i hbuf
    rw [h.resolve_left hbuf]

/-- **The look at the buffer is stable**: later bytes do not change what has been found. -/
theorem scanFrame_stable : Stable scanFrame where
  shorter buf f rest h := by
    by_cases hbuf : buf.length < 2
    · rw [scanFrame_waits (Or.inl hbuf)] at h
      cases h
    · cases hlength : readLength buf with
      | none =>
        rw [scanFrame_waits (Or.inr hlength)] at h
        cases h
      | some lengths =>
        obtain ⟨hlow, hhigh⟩ := readLength_le (by omega) hlength
        obtain ⟨-, hscan⟩ | ⟨-, headerLen, hheader, ⟨-, hscan⟩ | ⟨htotal, hscan⟩⟩ :=
          scanFrame_cases (by omega) hlength
        · rw [hscan] at h
          cases h
        · rw [hscan] at h
          cases h
        · rw [hscan] at h
          obtain ⟨-, rfl⟩ := Scan.frame.inj h
          rw [List.length_drop]
          split at hheader <;> omega
  frame buf f rest more h := by
    by_cases hbuf : buf.length < 2
    · rw [scanFrame_waits (Or.inl hbuf)] at h
      cases h
    · cases hlength : readLength buf with
      | none =>
        rw [scanFrame_waits (Or.inr hlength)] at h
        cases h
      | some lengths =>
        obtain ⟨hlow, hhigh⟩ := readLength_le (by omega) hlength
        have hbuf' : 2 ≤ (buf ++ more).length := by
          rw [List.length_append]
          omega
        have hget : ∀ i, i < 2 → (buf ++ more).getD i 0 = buf.getD i 0 := fun i hi =>
          List.getD_append _ _ _ _ (by omega)
        obtain ⟨-, hscan⟩ | ⟨hlen, headerLen, hheader, ⟨-, hscan⟩ | ⟨htotal, hscan⟩⟩ :=
          scanFrame_cases (by omega) hlength
        · rw [hscan] at h
          cases h
        · rw [hscan] at h
          cases h
        · rw [hscan] at h
          obtain ⟨rfl, rfl⟩ := Scan.frame.inj h
          obtain ⟨hlen', -⟩ | ⟨-, headerLen', hheader', ⟨htotal', -⟩ | ⟨-, hscan'⟩⟩ :=
            scanFrame_cases hbuf' (readLength_append more (by omega) hlength)
          · omega
          · rw [hget 1 (by omega), ← hheader] at hheader'
            rw [List.length_append] at htotal'
            omega
          · rw [hget 1 (by omega), ← hheader] at hheader'
            subst hheader'
            rw [hscan', hget 0 (by omega), hget 1 (by omega)]
            rw [List.drop_append_of_le_length htotal, take_drop_append more htotal]
            by_cases hmask : buf.getD 1 0 &&& 0x80 ≠ 0
            · rw [if_pos hmask] at hheader
              rw [if_pos hmask, if_pos hmask, take_drop_append more (by omega)]
            · rw [if_neg hmask, if_neg hmask]
  stops buf more h := by
    by_cases hbuf : buf.length < 2
    · rw [scanFrame_waits (Or.inl hbuf)] at h
      cases h
    · cases hlength : readLength buf with
      | none =>
        rw [scanFrame_waits (Or.inr hlength)] at h
        cases h
      | some lengths =>
        obtain ⟨hlen, -⟩ | ⟨-, headerLen, hheader, ⟨-, hscan⟩ | ⟨htotal, hscan⟩⟩ :=
          scanFrame_cases (by omega) hlength
        · have hbuf' : 2 ≤ (buf ++ more).length := by
            rw [List.length_append]
            omega
          obtain ⟨-, hscan'⟩ | ⟨hlen', -⟩ :=
            scanFrame_cases hbuf' (readLength_append more (by omega) hlength)
          · exact hscan'
          · omega
        · rw [hscan] at h
          cases h
        · rw [hscan] at h
          cases h

end OpenALE.Ws
