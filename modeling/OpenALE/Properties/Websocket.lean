import OpenALE.Bridge.WsFrames

/-!
# The messages of a WebSocket client

A client sends text and binary messages, each cut into frames as it likes, with pings and pongs
between the frames. A frame is masked or not and writes its length in any of the three forms that
hold it.

Results:
* `received_chunks`: what is received does not depend on how the stream is cut.
* `received`: the server receives the messages and answers the pings.
-/

namespace OpenALE.Ws

open Bits Incremental

/-! ## The client -/

/-- The forms of a length field. -/
inductive LengthForm where
  | short | medium | long
  deriving Repr, DecidableEq

/-- The form holds the length. -/
def LengthForm.Fits : LengthForm → Nat → Prop
  | .short, len => len < 126
  | .medium, len => len < 2 ^ 16
  | .long, len => len < 2 ^ 64

instance : ∀ (form : LengthForm) (len : Nat), Decidable (form.Fits len)
  | .short, len => inferInstanceAs (Decidable (len < 126))
  | .medium, len => inferInstanceAs (Decidable (len < 2 ^ 16))
  | .long, len => inferInstanceAs (Decidable (len < 2 ^ 64))

/-- The seven bits of the second byte and the bytes behind it. -/
def LengthForm.field (len : Nat) : LengthForm → Nat × List UInt8
  | .short => (len, [])
  | .medium => (126, toBE 2 len)
  | .long => (127, toBE 8 len)

/-- What one frame carries, of a length the server accepts. -/
structure Piece where
  data : List UInt8
  mask : Option (Fin 4 → UInt8)
  form : LengthForm
  fits : form.Fits data.length
  accepted : data.length ≤ kMaxFramePayload

/-- A frame on its way. -/
structure ClientFrame where
  fin : Bool
  opcode : Nat
  known : opcode ∈ [0x0, 0x1, 0x2, 0x9, 0xA]
  piece : Piece

/-- The frame the server is to see. -/
def ClientFrame.plain (f : ClientFrame) : WsFrame where
  fin := f.fin
  opcode := f.opcode
  payload := f.piece.data

/-- The bytes of a frame. -/
def ClientFrame.encode (f : ClientFrame) : List UInt8 :=
  let field := f.piece.form.field f.piece.data.length
  let b0 := (if f.fin then 0x80 else 0) ||| UInt8.ofNat f.opcode
  match f.piece.mask with
  | none => b0 :: UInt8.ofNat field.1 :: field.2 ++ f.piece.data
  | some mask =>
    let mask := List.ofFn mask
    b0 :: (0x80 ||| UInt8.ofNat field.1) :: field.2 ++ mask ++ applyMask mask f.piece.data

/-- A control frame. -/
inductive WsControl where
  | ping (p : Piece)
  | pong (p : Piece)

/-- Its frame. -/
def WsControl.frame : WsControl → ClientFrame
  | .ping p => ⟨true, 0x9, by decide, p⟩
  | .pong p => ⟨true, 0xA, by decide, p⟩

/-- The payload of a ping. -/
def WsControl.pinged : WsControl → Option (List UInt8)
  | .ping p => some p.data
  | .pong _ => none

/-- A message. -/
structure WsMessage where
  binary : Bool
  data : List UInt8
  deriving Repr, DecidableEq

/-- A message cut into pieces, with the control frames in front of each. -/
structure Transmission where
  binary : Bool
  before : List WsControl
  first : Piece
  more : List (List WsControl × Piece)

namespace Transmission

/-- What is transmitted. -/
def message (t : Transmission) : WsMessage where
  binary := t.binary
  data := t.first.data ++ t.more.flatMap (·.2.data)

/-- The continuation frames; the last one ends the message. -/
def continuations : List (List WsControl × Piece) → List ClientFrame
  | [] => []
  | (before, p) :: more =>
    before.map WsControl.frame ++ ⟨more.isEmpty, 0x0, by decide, p⟩ :: continuations more

/-- The frames of a message. -/
def frames (t : Transmission) : List ClientFrame :=
  t.before.map WsControl.frame ++
    ⟨t.more.isEmpty, if t.binary then 0x2 else 0x1, by cases t.binary <;> decide, t.first⟩ ::
      continuations t.more

/-- The pings among them. -/
def pings (t : Transmission) : List (List UInt8) :=
  (t.before ++ t.more.flatMap Prod.fst).filterMap WsControl.pinged

end Transmission

/-- The frames of a session so far. -/
def sessionFrames (session : List Transmission) (after : List WsControl) : List ClientFrame :=
  session.flatMap Transmission.frames ++ after.map WsControl.frame

/-! ## Reading one frame -/

/-- A mask undoes itself. -/
theorem applyMask_applyMask (mask payload : List UInt8) :
    applyMask mask (applyMask mask payload) = payload := by
  unfold applyMask
  rw [List.mapIdx_mapIdx]
  refine List.ext_getElem (by simp) fun i h h' => ?_
  rw [List.getElem_mapIdx]
  simp

theorem length_applyMask (mask payload : List UInt8) :
    (applyMask mask payload).length = payload.length := by
  unfold applyMask
  exact List.length_mapIdx

theorem firstByte (fin : Bool) {opcode : Nat} (h : opcode ∈ [0x0, 0x1, 0x2, 0x9, 0xA]) :
    decide (((if fin then 0x80 else 0) ||| UInt8.ofNat opcode) &&& 0x80 ≠ 0) = fin ∧
      (((if fin then 0x80 else 0) ||| UInt8.ofNat opcode) &&& 0x0F).toNat = opcode := by
  have hall : ∀ opcode ∈ [0x0, 0x1, 0x2, 0x9, 0xA], ∀ fin : Bool,
      decide (((if fin then 0x80 else 0) ||| UInt8.ofNat opcode) &&& 0x80 ≠ 0) = fin ∧
        (((if fin then 0x80 else 0) ||| UInt8.ofNat opcode) &&& 0x0F).toNat = opcode := by
    decide +kernel
  exact hall opcode h fin

theorem secondByte {n : Nat} (h : n < 128) :
    (UInt8.ofNat n &&& 0x7F).toNat = n ∧ UInt8.ofNat n &&& 0x80 = 0 ∧
      ((0x80 ||| UInt8.ofNat n) &&& 0x7F).toNat = n ∧ (0x80 ||| UInt8.ofNat n) &&& 0x80 ≠ 0 := by
  have hall : ∀ n < 128, (UInt8.ofNat n &&& 0x7F).toNat = n ∧ UInt8.ofNat n &&& 0x80 = 0 ∧
      ((0x80 ||| UInt8.ofNat n) &&& 0x7F).toNat = n ∧ (0x80 ||| UInt8.ofNat n) &&& 0x80 ≠ 0 := by
    decide +kernel
  exact hall n h

theorem field_lt {form : LengthForm} {len : Nat} (h : form.Fits len) : (form.field len).1 < 128 := by
  cases form with
  | short =>
    have hlen : len < 126 := h
    exact hlen.trans (by decide)
  | medium => exact show 126 < 128 by decide
  | long => exact show 127 < 128 by decide

/-- **The length field** is read in each of its forms. -/
theorem readLength_field {form : LengthForm} {len : Nat} (hfits : form.Fits len) (b0 : UInt8)
    {b1 : UInt8} (hb1 : (b1 &&& 0x7F).toNat = (form.field len).1) (rest : List UInt8) :
    readLength (b0 :: b1 :: ((form.field len).2 ++ rest)) =
      some (len, 2 + (form.field len).2.length) := by
  unfold readLength
  have hget : (b0 :: b1 :: ((form.field len).2 ++ rest)).getD 1 0 = b1 := rfl
  dsimp only
  rw [hget, hb1]
  cases form with
  | short =>
    have hlen : len < 126 := hfits
    have hfield : LengthForm.field len .short = (len, []) := rfl
    rw [hfield]
    dsimp only
    rw [if_neg (by omega), if_neg (by omega)]
    rfl
  | medium =>
    have hlen : len < 2 ^ 16 := hfits
    have hfield : LengthForm.field len .medium = (126, toBE 2 len) := rfl
    rw [hfield]
    dsimp only
    rw [if_pos rfl, if_neg (by simp)]
    have htake : ((b0 :: b1 :: (toBE 2 len ++ rest)).drop 2).take 2 = toBE 2 len := by
      exact List.take_left' (length_toBE 2 len)
    rw [htake, ofBE_toBE, Nat.mod_eq_of_lt (by norm_num; omega), length_toBE]
  | long =>
    have hlen : len < 2 ^ 64 := hfits
    have hfield : LengthForm.field len .long = (127, toBE 8 len) := rfl
    rw [hfield]
    dsimp only
    rw [if_neg (by decide), if_pos rfl, if_neg (by simp)]
    have htake : ((b0 :: b1 :: (toBE 8 len ++ rest)).drop 2).take 8 = toBE 8 len := by
      exact List.take_left' (length_toBE 8 len)
    rw [htake, ofBE_toBE, Nat.mod_eq_of_lt (by norm_num; omega), length_toBE]

/-- The parts of a frame are found by their lengths. -/
theorem scanFrame_parts {b0 b1 : UInt8} {field : List UInt8} {len : Nat}
    (masks body rest : List UInt8) (hlen : len ≤ kMaxFramePayload)
    (hread : readLength (b0 :: b1 :: (field ++ (masks ++ (body ++ rest)))) =
      some (len, 2 + field.length))
    (hbody : body.length = len) (hmasks : masks.length = if b1 &&& 0x80 ≠ 0 then 4 else 0) :
    scanFrame (b0 :: b1 :: (field ++ (masks ++ (body ++ rest)))) =
      .frame
        { fin := b0 &&& 0x80 ≠ 0, opcode := (b0 &&& 0x0F).toNat
          payload := if b1 &&& 0x80 ≠ 0 then applyMask masks body else body } rest := by
  have hget : (b0 :: b1 :: (field ++ (masks ++ (body ++ rest)))).getD 1 0 = b1 := rfl
  have hget' : (b0 :: b1 :: (field ++ (masks ++ (body ++ rest)))).getD 0 0 = b0 := rfl
  have hlength : (b0 :: b1 :: (field ++ (masks ++ (body ++ rest)))).length =
      2 + field.length + masks.length + len + rest.length := by
    simp only [List.length_cons, List.length_append, hbody]
    omega
  have hdrop : (b0 :: b1 :: (field ++ (masks ++ (body ++ rest)))).drop (2 + field.length) =
      masks ++ (body ++ rest) := by
    rw [Nat.add_comm]
    exact List.drop_left
  have hdrop' : (b0 :: b1 :: (field ++ (masks ++ (body ++ rest)))).drop
      (2 + field.length + masks.length) = body ++ rest := by
    rw [← List.drop_drop, hdrop, List.drop_left]
  have hdrop'' : (b0 :: b1 :: (field ++ (masks ++ (body ++ rest)))).drop
      (2 + field.length + masks.length + len) = rest := by
    rw [← List.drop_drop, hdrop', ← hbody, List.drop_left]
  obtain ⟨hlen', -⟩ | ⟨-, headerLen, hheader, hscan⟩ := scanFrame_cases (by simp) hread
  · omega
  have hheader' : headerLen = 2 + field.length + masks.length := by
    rw [hget] at hheader
    split at hheader
    · rename_i hmask
      rw [if_pos hmask] at hmasks
      omega
    · rename_i hmask
      rw [if_neg hmask] at hmasks
      omega
  subst hheader'
  obtain ⟨hshort, -⟩ | ⟨-, hscan⟩ := hscan
  · omega
  · rw [hscan, hget, hget', hdrop, hdrop', hdrop'', List.take_left' hbody]
    split
    · rename_i hmask
      rw [if_pos hmask] at hmasks
      rw [List.take_left' hmasks]
    · rfl

/-- **A frame is read** as it was sent, whatever stands behind it. -/
theorem scanFrame_encode (f : ClientFrame) (rest : List UInt8) :
    scanFrame (f.encode ++ rest) = .frame f.plain rest := by
  obtain ⟨fin, opcode, known, data, mask, form, fits, accepted⟩ := f
  obtain ⟨hfin, hopcode⟩ := firstByte fin known
  obtain ⟨hplain, hplain', hmasked, hmasked'⟩ := secondByte (field_lt fits)
  unfold ClientFrame.encode ClientFrame.plain
  dsimp only
  cases mask with
  | none =>
    have hread := readLength_field fits ((if fin then 0x80 else 0) ||| UInt8.ofNat opcode) hplain
      ([] ++ (data ++ rest))
    have hscan := scanFrame_parts [] data rest accepted hread rfl (by rw [hplain']; rfl)
    rw [hfin, hopcode, hplain', if_neg (not_not.mpr rfl)] at hscan
    rw [← hscan]
    simp only [List.nil_append, List.cons_append, List.append_assoc]
  | some mask =>
    have hread := readLength_field fits ((if fin then 0x80 else 0) ||| UInt8.ofNat opcode) hmasked
      (List.ofFn mask ++ (applyMask (List.ofFn mask) data ++ rest))
    have hscan := scanFrame_parts (List.ofFn mask) (applyMask (List.ofFn mask) data) rest accepted
      hread (length_applyMask _ _) (by rw [if_pos hmasked', List.length_ofFn])
    rw [hfin, hopcode, if_pos hmasked', applyMask_applyMask] at hscan
    rw [← hscan]
    simp only [List.cons_append, List.append_assoc]

/-- What the server sends is read the same way. -/
theorem scanFrame_iothSendFrame {opcode : Nat} (hknown : opcode ∈ [0x0, 0x1, 0x2, 0x9, 0xA])
    {data : List UInt8} (hlen : data.length ≤ kMaxFramePayload) (rest : List UInt8) :
    scanFrame (iothSendFrame opcode data ++ rest) =
      .frame { fin := true, opcode, payload := data } rest := by
  have hform : ∃ form : LengthForm, form.Fits data.length ∧
      lengthBytes data.length =
        UInt8.ofNat (form.field data.length).1 :: (form.field data.length).2 := by
    unfold lengthBytes
    split
    · rename_i hshort
      exact ⟨.short, hshort, rfl⟩
    · split
      · rename_i hmedium
        exact ⟨.medium, Nat.lt_succ_of_le hmedium, rfl⟩
      · exact ⟨.long, hlen.trans_lt (by norm_num), rfl⟩
  obtain ⟨form, hfits, hbytes⟩ := hform
  refine Eq.trans ?_ (scanFrame_encode ⟨true, opcode, hknown, ⟨data, none, form, hfits, hlen⟩⟩ rest)
  unfold iothSendFrame ClientFrame.encode
  rw [hbytes]
  simp

/-! ## Delivery -/

/-- A frame of the client is handled. -/
def deliver (x : WsState) (f : ClientFrame) : WsState := (handleFrame x f.plain).1

/-- The queues and the answers after messages and pings. -/
def delivered (x : WsState) (messages : List WsMessage) (pings : List (List UInt8)) : WsState :=
  { x with
    recvQueue := x.recvQueue ++ (messages.filter (!·.binary)).map WsMessage.data
    recvBinaryQueue := x.recvBinaryQueue ++ (messages.filter (·.binary)).map WsMessage.data
    sent := x.sent ++ pings.map (iothSendFrame 0xA) }

theorem delivered_delivered (x : WsState) (messages messages' : List WsMessage)
    (pings pings' : List (List UInt8)) :
    delivered (delivered x messages pings) messages' pings' =
      delivered x (messages ++ messages') (pings ++ pings') := by
  unfold delivered
  simp

/-- No frame of a client ends the session. -/
theorem handleFrame_open (x : WsState) (f : ClientFrame) : (handleFrame x f.plain).2 = false := by
  obtain ⟨fin, opcode, known, piece⟩ := f
  simp only [List.mem_cons, List.not_mem_nil, or_false] at known
  obtain rfl | rfl | rfl | rfl | rfl := known
  · cases fin <;> rfl
  · cases fin <;> rfl
  · cases fin <;> rfl
  · rfl
  · rfl

theorem foldl_control (x : WsState) (cs : List WsControl) :
    (cs.map WsControl.frame).foldl deliver x = delivered x [] (cs.filterMap WsControl.pinged) := by
  induction cs generalizing x with
  | nil => simp [delivered]
  | cons c cs ih =>
    rw [List.map_cons, List.foldl_cons, ih]
    cases c with
    | ping p =>
      have hping : deliver x (WsControl.ping p).frame = delivered x [] [p.data] := by
        simp [deliver, delivered, handleFrame, WsControl.frame, ClientFrame.plain]
      rw [hping, delivered_delivered]
      rfl
    | pong p => rfl

/-- A message is being received. -/
def gathering (x : WsState) (binary : Bool) (acc : List UInt8) : WsState :=
  { x with fragAcc := acc, fragOpcode := if binary then 0x2 else 0x1 }

/-- **The pieces of a message** are put together, the control frames answered in between. -/
theorem foldl_continuations (x : WsState) (binary : Bool) (acc : List UInt8)
    {more : List (List WsControl × Piece)} (hmore : more ≠ []) :
    (Transmission.continuations more).foldl deliver (gathering x binary acc) =
      delivered (closeSession x) [⟨binary, acc ++ more.flatMap (·.2.data)⟩]
        ((more.flatMap Prod.fst).filterMap WsControl.pinged) := by
  induction more generalizing x acc with
  | nil => exact absurd rfl hmore
  | cons piece more ih =>
    obtain ⟨before, p⟩ := piece
    have hbefore : delivered (gathering x binary acc) [] (before.filterMap WsControl.pinged) =
        gathering (delivered x [] (before.filterMap WsControl.pinged)) binary acc := rfl
    rw [Transmission.continuations, List.foldl_append, foldl_control, hbefore, List.foldl_cons]
    cases more with
    | nil =>
      rw [Transmission.continuations, List.foldl_nil]
      cases binary <;>
        simp [deliver, handleFrame, ClientFrame.plain, gathering, delivered, closeSession]
    | cons piece' more' =>
      have hpiece : deliver
          (gathering (delivered x [] (before.filterMap WsControl.pinged)) binary acc)
          ⟨(piece' :: more').isEmpty, 0x0, by decide, p⟩ =
            gathering (delivered x [] (before.filterMap WsControl.pinged)) binary
              (acc ++ p.data) := rfl
      rw [hpiece, ih _ _ (List.cons_ne_nil _ _)]
      have hclose : ∀ y : WsState, closeSession (delivered y [] (before.filterMap WsControl.pinged)) =
          delivered (closeSession y) [] (before.filterMap WsControl.pinged) := fun y => rfl
      rw [hclose, delivered_delivered]
      simp

/-- **One message** is received between messages. -/
theorem foldl_transmission (x : WsState) (t : Transmission) :
    t.frames.foldl deliver (closeSession x) = delivered (closeSession x) [t.message] t.pings := by
  obtain ⟨binary, before, first, more⟩ := t
  unfold Transmission.frames Transmission.message Transmission.pings
  dsimp only
  rw [List.foldl_append, foldl_control, List.foldl_cons]
  cases more with
  | nil =>
    rw [Transmission.continuations, List.foldl_nil]
    cases binary <;>
      simp [deliver, handleFrame, ClientFrame.plain, delivered]
  | cons piece more =>
    have hfirst : deliver (delivered (closeSession x) [] (before.filterMap WsControl.pinged))
        ⟨(piece :: more).isEmpty, if binary then 0x2 else 0x1, by cases binary <;> decide, first⟩ =
          gathering (delivered (closeSession x) [] (before.filterMap WsControl.pinged)) binary
            first.data := by
      cases binary <;> rfl
    rw [hfirst, foldl_continuations _ _ _ (List.cons_ne_nil _ _)]
    have hclose : ∀ y : WsState, closeSession
        (delivered (closeSession y) [] (before.filterMap WsControl.pinged)) =
          delivered (closeSession y) [] (before.filterMap WsControl.pinged) := fun y => rfl
    rw [hclose, delivered_delivered, List.filterMap_append]
    rfl

/-- **The messages of a session** are received in order. -/
theorem foldl_session (x : WsState) (session : List Transmission) (after : List WsControl) :
    (sessionFrames session after).foldl deliver (closeSession x) =
      delivered (closeSession x) (session.map Transmission.message)
        (session.flatMap Transmission.pings ++ after.filterMap WsControl.pinged) := by
  unfold sessionFrames
  rw [List.foldl_append]
  induction session generalizing x with
  | nil =>
    rw [List.flatMap_nil, List.foldl_nil, foldl_control]
    rfl
  | cons t session ih =>
    have hclose : delivered (closeSession x) [t.message] t.pings =
        closeSession (delivered x [t.message] t.pings) := rfl
    rw [List.flatMap_cons, List.foldl_append, foldl_transmission, hclose, ih, ← hclose,
      delivered_delivered, List.flatMap_cons, List.append_assoc]
    rfl

/-- What is received of a stream that comes in chunks, in a new session. -/
def receive (x : WsState) (chunks : List (List UInt8)) : Session WsState UInt8 :=
  chunks.foldl receiveChunk (.opened (closeSession x) [])

theorem scanFrame_nil : scanFrame [] = .waits := scanFrame_waits (Or.inl (by decide))

theorem receive_eq (x : WsState) (chunks : List (List UInt8)) :
    receive x chunks = receiveChunk (.opened (closeSession x) []) chunks.flatten :=
  foldl_feed_nil handleFrame closeSession scanFrame_stable scanFrame_nil _ chunks

/-- **The server receives the messages**: what it makes of a stream does not depend on the chunks;
of a client's stream it makes the messages, in order, and one pong for each ping, which reads back
as the ping's payload. -/
theorem received (x : WsState) :
    (∀ chunks chunks' : List (List UInt8), chunks.flatten = chunks'.flatten →
      receive x chunks = receive x chunks') ∧
    (∀ (messages : List WsMessage) (session : List Transmission) (after : List WsControl)
      (chunks : List (List UInt8)), session.map Transmission.message = messages →
        chunks.flatten = (sessionFrames session after).flatMap ClientFrame.encode →
          receive x chunks = .opened (delivered (closeSession x) messages
            (session.flatMap Transmission.pings ++ after.filterMap WsControl.pinged)) []) ∧
    ∀ p : Piece, scanFrame (iothSendFrame 0xA p.data) =
      .frame { fin := true, opcode := 0xA, payload := p.data } [] := by
  refine ⟨fun chunks chunks' h => ?_, ?_, fun p => ?_⟩
  · rw [receive_eq, receive_eq, h]
  · rintro messages session after chunks rfl hchunks
    rw [receive_eq, hchunks]
    have hdrain := drain_flatMap closeSession scanFrame_stable ClientFrame.encode
      ClientFrame.plain (fun f _ => scanFrame_encode f) (fun f _ y => handleFrame_open y f)
      scanFrame_nil (Nat.lt_succ_self (((sessionFrames session after).flatMap _).length))
      (closeSession x)
    exact hdrain.trans (congrArg (Session.opened · []) (foldl_session x session after))
  · have hknown : 0xA ∈ [0x0, 0x1, 0x2, 0x9, 0xA] := by decide
    have hback := scanFrame_iothSendFrame hknown p.accepted []
    rwa [List.append_nil] at hback

/-- The text `Hi` in two pieces, the second with a longer length field than it needs, and a ping
between them. -/
def greeting : Transmission where
  binary := false
  before := []
  first :=
    { data := [0x48], mask := some ![1, 2, 3, 4], form := .short, fits := by decide
      accepted := by decide }
  more :=
    [([.ping { data := [0x21], mask := none, form := .short, fits := by decide
               accepted := by decide }],
      { data := [0x69], mask := some ![5, 6, 7, 8], form := .medium, fits := by decide
        accepted := by decide })]

/-- It is received, also when the chunks end inside a length field and a mask. -/
theorem received_greeting :
    receive {} [[0x01], [0x81, 1, 2, 3, 4, 0x49, 0x89, 1], [0x21, 0x80, 0xFE, 0],
      [1, 5, 6], [7, 8, 0x6C]] =
        .opened (delivered {} [⟨false, [0x48, 0x69]⟩] [[0x21]]) [] ∧
    receive {} [[0x01], [0x89]] = receive {} [[0x01, 0x89]] := by
  refine ⟨(received {}).2.1 [⟨false, [0x48, 0x69]⟩] [greeting] [] _ rfl ?_, (received {}).1 _ _ rfl⟩
  decide +kernel

end OpenALE.Ws
