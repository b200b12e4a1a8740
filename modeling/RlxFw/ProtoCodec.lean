import RlxFw.ProtoRx

/-!
# The broker's messages, written and read

`src/lib/proto.c`: the one-shot codecs of requests and responses, and the TLV
helpers of their bodies.  What is written is read back, and what is read is
written back to the same bytes.
-/

namespace RlxFw.Proto

open Broker (tokLen respBodyMax)
open Tlv (getBe16 getBe32 putBe16 putBe32)

/-- The `PROTO_E_*` of the codecs. -/
inductive ProtoErr where
  | short
  | reserved
  | rx (fault : Fault)
deriving DecidableEq, Repr

/-! ## Requests -/

/-- `proto_decode_req`: the request and the bytes consumed. -/
def protoDecodeReq (buf : List UInt8) : Except ProtoErr (ProtoReq × Nat) :=
  match protoRxFeed protoRxInit buf with
  | (_, .error fault, _) => .error (.rx fault)
  | (rx, .ok .done, used) => .ok (rx.req, used)
  | (_, .ok _, _) => .error .short

/-- The header that `proto_encode_req` writes. -/
def reqHeader (rq : ProtoReq) : List UInt8 :=
  putBe32 reqMagic ++ [version, rq.op] ++ putBe16 0 ++ rq.session ++ rq.csrf ++
    putBe32 rq.clientIp ++ putBe32 rq.bodyLen

/-- `proto_encode_req`, into a buffer of `n` bytes. -/
def protoEncodeReq (rq : ProtoReq) (n : Nat) : Except ProtoErr (List UInt8) :=
  if rq.bodyLen > reqBodyMax then .error (.rx .bodylen)
  else if n < reqHdr + rq.bodyLen then .error .short
  else .ok (reqHeader rq ++ rq.body.slice 0 rq.bodyLen)

/-- The fields of a request are of their types. -/
structure ProtoReq.Typed (rq : ProtoReq) : Prop where
  session : rq.session.length = tokLen
  csrf : rq.csrf.length = tokLen
  clientIp : rq.clientIp < 2 ^ 32
  bodyLen : rq.bodyLen < 2 ^ 32

/-- A request with nothing behind its body. -/
def ProtoReq.bare (rq : ProtoReq) : ProtoReq :=
  { rq with body := ByteMap.ofList (rq.body.slice 0 rq.bodyLen) 0 }

/-! ## Lists laid out at the start of a buffer -/

theorem blit_zeros (bytes : List UInt8) :
    ByteMap.blit (fun _ => 0) 0 bytes.length (ByteMap.ofList bytes 0) =
      ByteMap.ofList bytes 0 := by
  funext offset
  by_cases inside : offset < bytes.length
  · rw [ByteMap.blit_inside (Nat.zero_le _) (by omega), Nat.sub_zero]
  · rw [ByteMap.blit_outside (by omega), ByteMap.ofList,
      List.getD_eq_getElem?_getD, List.getElem?_eq_none (by omega)]
    rfl

theorem slice_ofList_self (bytes : List UInt8) :
    (ByteMap.ofList bytes 0).slice 0 bytes.length = bytes := by
  simpa using ByteMap.slice_ofList [] bytes [] 0

/-- The receiver once a header arrived. -/
def headed (buf : List UInt8) : ProtoRx :=
  { protoRxInit with hdrbuf := ByteMap.ofList (buf.take reqHdr) 0, have_ := reqHdr }

theorem rxPass_header {buf : List UInt8} (long : reqHdr ≤ buf.length) :
    rxPass protoRxInit buf = rxComplete (headed buf) reqHdr buf.length := by
  have whole : min buf.length (protoRxInit.want - protoRxInit.have_) = reqHdr :=
    Nat.min_eq_right long
  have taken : (buf.take reqHdr).length = reqHdr := List.length_take_of_le long
  have stored : protoRxInit.store (buf.take reqHdr) = headed buf := by
    have zeros := blit_zeros (buf.take reqHdr)
    rw [taken] at zeros
    unfold ProtoRx.store headed
    dsimp only
    rw [if_pos (show protoRxInit.state = .hdr from rfl), taken]
    exact congrArg (fun map => { protoRxInit with hdrbuf := map, have_ := reqHdr }) zeros
  unfold rxPass
  rw [if_neg (by decide), whole]
  dsimp only
  rw [stored,
    if_neg (show ¬ (headed buf).have_ < (headed buf).want from Nat.lt_irrefl reqHdr)]

theorem rxPass_short {buf : List UInt8} (short : buf.length < reqHdr) :
    ∃ rx, rxPass protoRxInit buf = .ret rx (.ok .hdr) buf.length := by
  have part : min buf.length (protoRxInit.want - protoRxInit.have_) = buf.length :=
    Nat.min_eq_left (Nat.le_of_lt short)
  refine ⟨protoRxInit.store buf, ?_⟩
  unfold rxPass
  rw [if_neg (by decide), part]
  dsimp only
  rw [List.take_length, if_pos]
  · rw [ProtoRx.store_state]
    rfl
  · rw [ProtoRx.store_have, ProtoRx.store_want]
    exact (Nat.zero_add _).trans_lt short

/-- The second section: a body into an empty one. -/
theorem rxPass_bodySection (rx : ProtoRx) (state : rx.state = .body) (none : rx.have_ = 0)
    (wants : rx.want = rx.req.bodyLen) (empty : rx.req.body = fun _ => 0)
    (rest : List UInt8) :
    (rest.length < rx.want ∧ ∃ rx', rxPass rx rest = .ret rx' (.ok .body) rest.length) ∨
      rx.want ≤ rest.length ∧ ∃ rx', rxPass rx rest = .ret rx' (.ok .done) rx.want ∧
        rx'.req = { rx.req with
          body := ByteMap.ofList (rest.take rx.req.bodyLen) 0 } := by
  have notHdr : ¬ rx.state = .hdr := by
    rw [state]
    nofun
  have fits : ¬ (rx.have_ > rx.req.bodyLen ∨ rx.want > rx.req.bodyLen) := by omega
  unfold rxPass
  rw [if_neg notHdr, if_neg fits, none, Nat.sub_zero]
  dsimp only
  rcases Nat.lt_or_ge rest.length rx.want with short | long
  · refine .inl ⟨short, rx.store rest, ?_⟩
    rw [Nat.min_eq_left (Nat.le_of_lt short), List.take_length, if_pos]
    · rw [ProtoRx.store_state, state]
    · rw [ProtoRx.store_have, ProtoRx.store_want, none, Nat.zero_add]
      exact short
  · have taken : (rest.take rx.want).length = rx.want := List.length_take_of_le long
    refine .inr ⟨long, { rx.store (rest.take rx.want) with state := .done }, ?_, ?_⟩
    · rw [Nat.min_eq_right long, if_neg]
      · unfold rxComplete
        rw [ProtoRx.store_state, if_neg notHdr]
      · rw [ProtoRx.store_have, ProtoRx.store_want, none, taken]
        omega
    · have zeros := blit_zeros (rest.take rx.want)
      unfold ProtoRx.store
      rw [if_neg notHdr]
      dsimp only
      rw [none, empty, zeros, wants]

/-- The decoder, as its two sections. -/
theorem protoDecodeReq_eq (buf : List UInt8) :
    protoDecodeReq buf =
      if buf.length < reqHdr then .error .short
      else
        match rxHeader protoRxInit (ByteMap.ofList (buf.take reqHdr) 0) with
        | .error fault => .error (.rx fault)
        | .ok req =>
            if (buf.drop reqHdr).length < req.bodyLen then .error .short
            else
              .ok ({ req with
                body := ByteMap.ofList ((buf.drop reqHdr).take req.bodyLen) 0 },
                reqHdr + req.bodyLen) := by
  have feed := protoRxFeed_going (show rxStepper.halted protoRxInit = false from rfl) buf
  unfold protoDecodeReq
  rw [feed]
  rcases Nat.lt_or_ge buf.length reqHdr with short | long
  · obtain ⟨rx, pass⟩ := rxPass_short short
    rw [if_pos short, pass]
  rw [if_neg (not_lt.mpr long), rxPass_header long]
  have same : rxHeader (headed buf) (headed buf).hdrbuf =
      rxHeader protoRxInit (ByteMap.ofList (buf.take reqHdr) 0) := rfl
  unfold rxComplete
  rw [if_pos (show (headed buf).state = .hdr from rfl), same]
  cases read : rxHeader protoRxInit (ByteMap.ofList (buf.take reqHdr) 0) with
  | error fault => rfl
  | ok req =>
  have empty : req.body = fun _ => 0 := by
    unfold rxHeader at read
    split_ifs at read
    cases read
    rfl
  dsimp only
  by_cases none : req.bodyLen = 0
  · have nothing : (buf.drop reqHdr).take req.bodyLen = [] := by
      rw [none, List.take_zero]
    have total : reqHdr + req.bodyLen = reqHdr := by omega
    rw [if_pos none, if_neg (by omega), nothing, total,
      show ByteMap.ofList [] 0 = req.body from empty.symm]
  rw [if_neg none]
  by_cases ended : reqHdr = buf.length
  · rw [if_pos ended, if_pos]
    rw [List.length_drop]
    omega
  rw [if_neg ended]
  dsimp only
  rcases rxPass_bodySection
      { headed buf with req := req, state := .body, have_ := 0, want := req.bodyLen }
      rfl rfl rfl empty (buf.drop reqHdr) with
    ⟨short, rx', pass⟩ | ⟨enough, rx', pass, isReq⟩
  · rw [pass, if_pos short]
  · rw [pass, if_neg (not_lt.mpr enough)]
    dsimp only
    rw [isReq]

/-! ## What is written is read back -/

section Written

variable {rq : ProtoReq}

theorem reqHeader_length (typed : rq.Typed) : (reqHeader rq).length = reqHdr := by
  simp [reqHeader, typed.session, typed.csrf, tokLen, reqHdr]

/-- A field of the header, where it was written. -/
theorem header_slice (front back : List UInt8) {middle header : List UInt8} {off len : Nat}
    (shape : header = front ++ (middle ++ back)) (at_ : front.length = off)
    (long : middle.length = len) :
    (ByteMap.ofList header 0).slice off len = middle := by
  subst shape at_ long
  exact ByteMap.slice_ofList front middle back 0

theorem header_be32 (front back : List UInt8) {header : List UInt8} {off v : Nat} (small : v < 2 ^ 32)
    (shape : header = front ++ (putBe32 v ++ back)) (at_ : front.length = off) :
    getBe32 (ByteMap.ofList header 0) off = v := by
  subst shape at_
  exact Tlv.getBe32_ofList small front back 0

theorem rxHeader_reqHeader (typed : rq.Typed) (fits : rq.bodyLen ≤ reqBodyMax) :
    rxHeader protoRxInit (ByteMap.ofList (reqHeader rq) 0) =
      .ok { rq with version := version, flags := 0, body := fun _ => 0 } := by
  have sessionLen := typed.session
  have csrfLen := typed.csrf
  have magic : getBe32 (ByteMap.ofList (reqHeader rq) 0) 0 = reqMagic :=
    header_be32 [] _ (by decide) (by simp [reqHeader]; rfl) rfl
  have versionAt : ByteMap.ofList (reqHeader rq) 0 4 = version := by
    simp [reqHeader, ByteMap.ofList, putBe32]
  have opAt : ByteMap.ofList (reqHeader rq) 0 5 = rq.op := by
    simp [reqHeader, ByteMap.ofList, putBe32]
  have flags : getBe16 (ByteMap.ofList (reqHeader rq) 0) 6 = 0 := by
    simp [reqHeader, ByteMap.ofList, putBe32, putBe16, getBe16, Tlv.be16]
  have session : (ByteMap.ofList (reqHeader rq) 0).slice 8 tokLen = rq.session :=
    header_slice (putBe32 reqMagic ++ [version, rq.op] ++ putBe16 0)
      (rq.csrf ++ putBe32 rq.clientIp ++ putBe32 rq.bodyLen)
      (by simp [reqHeader]) (by simp) sessionLen
  have csrf : (ByteMap.ofList (reqHeader rq) 0).slice 24 tokLen = rq.csrf :=
    header_slice (putBe32 reqMagic ++ [version, rq.op] ++ putBe16 0 ++ rq.session)
      (putBe32 rq.clientIp ++ putBe32 rq.bodyLen)
      (by simp [reqHeader]) (by simp [sessionLen, tokLen]) csrfLen
  have clientIp : getBe32 (ByteMap.ofList (reqHeader rq) 0) 40 = rq.clientIp :=
    header_be32
      (putBe32 reqMagic ++ [version, rq.op] ++ putBe16 0 ++ rq.session ++ rq.csrf)
      (putBe32 rq.bodyLen) typed.clientIp (by simp [reqHeader])
      (by simp [sessionLen, csrfLen, tokLen])
  have bodyLen : getBe32 (ByteMap.ofList (reqHeader rq) 0) 44 = rq.bodyLen :=
    header_be32
      (putBe32 reqMagic ++ [version, rq.op] ++ putBe16 0 ++ rq.session ++
        rq.csrf ++ putBe32 rq.clientIp)
      [] typed.bodyLen (by simp [reqHeader])
      (by simp [sessionLen, csrfLen, tokLen])
  unfold rxHeader
  rw [magic, versionAt, opAt, flags, session, csrf, clientIp, bodyLen,
    if_neg (by simp), if_neg (by simp), if_neg (by simp), if_neg (not_lt.mpr fits)]
  rfl

/-- What was encoded is decoded, whatever follows it. -/
theorem decode_encode_req (typed : rq.Typed) (isVersion : rq.version = version)
    (noFlags : rq.flags = 0) {n : Nat} {bytes : List UInt8}
    (encoded : protoEncodeReq rq n = .ok bytes) (rest : List UInt8) :
    protoDecodeReq (bytes ++ rest) = .ok (rq.bare, bytes.length) := by
  unfold protoEncodeReq at encoded
  split_ifs at encoded with long short
  cases encoded
  have header := reqHeader_length typed
  have front : (reqHeader rq ++ rq.body.slice 0 rq.bodyLen ++ rest).take reqHdr =
      reqHeader rq := by
    rw [List.append_assoc, ← header, List.take_left']
    rfl
  have back : (reqHeader rq ++ rq.body.slice 0 rq.bodyLen ++ rest).drop reqHdr =
      rq.body.slice 0 rq.bodyLen ++ rest := by
    rw [List.append_assoc, ← header, List.drop_left']
    rfl
  have body : (rq.body.slice 0 rq.bodyLen ++ rest).take rq.bodyLen =
      rq.body.slice 0 rq.bodyLen := List.take_left' (by simp)
  rw [protoDecodeReq_eq, if_neg (by simp [header]), front, back,
    rxHeader_reqHeader typed (not_lt.mp long)]
  dsimp only
  rw [if_neg (by simp), body]
  simp only [ProtoReq.bare, isVersion, noFlags, List.length_append, header,
    ByteMap.slice_length]

end Written

/-! ## What is read is written back -/

section Read

variable {buf : List UInt8} {rq : ProtoReq} {used : Nat}

/-- The header of a request that was read is the one that is written. -/
theorem reqHeader_rxHeader {hdr : ByteMap}
    (read : rxHeader protoRxInit hdr = .ok rq) (body : ByteMap) :
    reqHeader { rq with body := body } = hdr.slice 0 reqHdr := by
  unfold rxHeader at read
  split_ifs at read with magic version_ flags bodyLen
  cases read
  have pair : [hdr 4, hdr 5] = hdr.slice 4 2 := rfl
  have parts : hdr.slice 0 reqHdr =
      hdr.slice 0 4 ++ hdr.slice 4 2 ++ hdr.slice 6 2 ++ hdr.slice 8 tokLen ++
        hdr.slice 24 tokLen ++ hdr.slice 40 4 ++ hdr.slice 44 4 := by
    change hdr.slice 0 (4 + 2 + 2 + tokLen + tokLen + 4 + 4) = _
    rw [ByteMap.slice_append, ByteMap.slice_append, ByteMap.slice_append,
      ByteMap.slice_append, ByteMap.slice_append, ByteMap.slice_append]
    rfl
  unfold reqHeader
  dsimp only
  rw [parts, ← not_not.mp magic, ← not_not.mp version_, ← not_not.mp flags, pair,
    Tlv.putBe32_getBe32, Tlv.putBe16_getBe16, Tlv.putBe32_getBe32, Tlv.putBe32_getBe32]

/-- What was decoded is encoded to the bytes consumed. -/
theorem encode_decode_req (decoded : protoDecodeReq buf = .ok (rq, used)) {n : Nat}
    (room : used ≤ n) : protoEncodeReq rq n = .ok (buf.take used) := by
  rw [protoDecodeReq_eq] at decoded
  split at decoded
  · cases decoded
  next long =>
  split at decoded
  · cases decoded
  next req read =>
  split at decoded
  · cases decoded
  next whole =>
  cases decoded
  have small := bodyLen_le_of_rxHeader read
  have front : (buf.take reqHdr).length = reqHdr :=
    List.length_take_of_le (not_lt.mp long)
  have body : ((buf.drop reqHdr).take req.bodyLen).length = req.bodyLen :=
    List.length_take_of_le (not_lt.mp whole)
  have header := slice_ofList_self (buf.take reqHdr)
  have written := slice_ofList_self ((buf.drop reqHdr).take req.bodyLen)
  rw [front] at header
  rw [body] at written
  unfold protoEncodeReq
  dsimp only
  rw [if_neg (not_lt.mpr small), if_neg (not_lt.mpr room), reqHeader_rxHeader read,
    header, written, List.take_add]

end Read

/-! ## Responses -/

/-- `PROTO_RESP_MAGIC`. -/
def respMagic : Nat := 0x524C5852

/-- `PROTO_RESP_HDR`. -/
def respHdr : Nat := 12

/-- `struct proto_resp`. -/
structure ProtoResp where
  version : UInt8
  status : UInt8
  reserved : Nat
  bodyLen : Nat
  body : ByteMap

/-- The header that `proto_encode_resp` writes. -/
def respHeader (rs : ProtoResp) : List UInt8 :=
  putBe32 respMagic ++ [version, rs.status] ++ putBe16 0 ++ putBe32 rs.bodyLen

/-- `proto_encode_resp`, into a buffer of `n` bytes. -/
def protoEncodeResp (rs : ProtoResp) (n : Nat) : Except ProtoErr (List UInt8) :=
  if rs.bodyLen > respBodyMax then .error (.rx .bodylen)
  else if n < respHdr + rs.bodyLen then .error .short
  else .ok (respHeader rs ++ rs.body.slice 0 rs.bodyLen)

/-- `proto_decode_resp`: the response and the bytes consumed. -/
def protoDecodeResp (buf : List UInt8) : Except ProtoErr (ProtoResp × Nat) :=
  let p := ByteMap.ofList buf 0
  if buf.length < respHdr then .error .short
  else if getBe32 p 0 ≠ respMagic then .error (.rx .magic)
  else if p 4 ≠ version then .error (.rx .version)
  else if getBe16 p 6 ≠ 0 then .error .reserved
  else if getBe32 p 8 > respBodyMax then .error (.rx .bodylen)
  else if buf.length < respHdr + getBe32 p 8 then .error .short
  else
    .ok ({ version := p 4, status := p 5, reserved := 0, bodyLen := getBe32 p 8
           body := ByteMap.ofList ((buf.drop respHdr).take (getBe32 p 8)) 0 },
      respHdr + getBe32 p 8)

/-- A response with nothing behind its body. -/
def ProtoResp.bare (rs : ProtoResp) : ProtoResp :=
  { rs with body := ByteMap.ofList (rs.body.slice 0 rs.bodyLen) 0 }

theorem decode_encode_resp {rs : ProtoResp} (isVersion : rs.version = version)
    (noFlags : rs.reserved = 0) {n : Nat} {bytes : List UInt8}
    (encoded : protoEncodeResp rs n = .ok bytes) (rest : List UInt8) :
    protoDecodeResp (bytes ++ rest) = .ok (rs.bare, bytes.length) := by
  unfold protoEncodeResp at encoded
  split_ifs at encoded with long short
  cases encoded
  have header : (respHeader rs).length = respHdr := rfl
  generalize isBuf : respHeader rs ++ rs.body.slice 0 rs.bodyLen ++ rest = buf
  have magic : getBe32 (ByteMap.ofList buf 0) 0 = respMagic :=
    header_be32 [] _ (by decide) (by rw [← isBuf]; simp [respHeader]; rfl) rfl
  have versionAt : ByteMap.ofList buf 0 4 = version := by
    rw [← isBuf]
    simp [respHeader, ByteMap.ofList, putBe32]
  have statusAt : ByteMap.ofList buf 0 5 = rs.status := by
    rw [← isBuf]
    simp [respHeader, ByteMap.ofList, putBe32]
  have reserved : getBe16 (ByteMap.ofList buf 0) 6 = 0 := by
    rw [← isBuf]
    simp [respHeader, ByteMap.ofList, putBe32, putBe16, getBe16, Tlv.be16]
  have small : rs.bodyLen < 2 ^ 32 := lt_of_le_of_lt (not_lt.mp long) (by decide)
  have bodyLen : getBe32 (ByteMap.ofList buf 0) 8 = rs.bodyLen :=
    header_be32 (putBe32 respMagic ++ [version, rs.status] ++ putBe16 0)
      (rs.body.slice 0 rs.bodyLen ++ rest) small
      (by rw [← isBuf]; simp [respHeader]) (by simp)
  have length : buf.length = respHdr + rs.bodyLen + rest.length := by
    rw [← isBuf]
    simp [header, Nat.add_assoc]
  have body : (buf.drop respHdr).take rs.bodyLen = rs.body.slice 0 rs.bodyLen := by
    rw [← isBuf, List.append_assoc, ← header, List.drop_left' rfl]
    exact List.take_left' (by simp)
  unfold protoDecodeResp
  dsimp only
  rw [if_neg (by omega), magic, versionAt, statusAt, reserved, bodyLen,
    if_neg (by simp), if_neg (by simp), if_neg (by simp), if_neg long,
    if_neg (by omega), body]
  simp only [ProtoResp.bare, isVersion, noFlags, List.length_append, header,
    ByteMap.slice_length]

theorem encode_decode_resp {buf : List UInt8} {rs : ProtoResp} {used : Nat}
    (decoded : protoDecodeResp buf = .ok (rs, used)) {n : Nat} (room : used ≤ n) :
    protoEncodeResp rs n = .ok (buf.take used) := by
  have whole := slice_ofList_self buf
  unfold protoDecodeResp at decoded
  dsimp only at decoded
  generalize ByteMap.ofList buf 0 = p at decoded whole
  split_ifs at decoded with short magic version_ reserved bodyLen cut
  cases decoded
  have body : ((buf.drop respHdr).take (getBe32 p 8)).length = getBe32 p 8 :=
    List.length_take_of_le (by rw [List.length_drop]; omega)
  have written := slice_ofList_self ((buf.drop respHdr).take (getBe32 p 8))
  rw [body] at written
  have front : buf.take respHdr = p.slice 0 respHdr := by
    have parts : buf.length = respHdr + (buf.length - respHdr) := by omega
    rw [parts, ByteMap.slice_append] at whole
    rw [← whole, List.take_left' (by simp)]
  have pair : [p 4, p 5] = p.slice 4 2 := rfl
  have header : p.slice 0 respHdr =
      p.slice 0 4 ++ p.slice 4 2 ++ p.slice 6 2 ++ p.slice 8 4 := by
    change p.slice 0 (4 + 2 + 2 + 4) = _
    rw [ByteMap.slice_append, ByteMap.slice_append, ByteMap.slice_append]
  unfold protoEncodeResp respHeader
  dsimp only
  rw [if_neg bodyLen, if_neg (not_lt.mpr room), written, List.take_add, front, header,
    ← not_not.mp magic, ← not_not.mp version_, ← not_not.mp reserved, pair,
    Tlv.putBe32_getBe32, Tlv.putBe16_getBe16, Tlv.putBe32_getBe32]

/-! ## The TLVs of a body -/

/-- `proto_tlv_put`: the buffer and the offset after the item. -/
def protoTlvPutAt (buf : ByteMap) (cap off : Nat) (item : Tlv.Item) :
    Option (ByteMap × Nat) :=
  let bytes := Tlv.itemBytes item.type item.val
  if off > cap ∨ cap - off < 4 + item.val.length then none
  else
    some (buf.blit off bytes.length (ByteMap.ofList bytes 0),
      off + (4 + item.val.length))

/-- `proto_tlv_get`: an item, and the offset after it. -/
def protoTlvGetAt (buf : ByteMap) (n off : Nat) : Option (Tlv.Item × Nat) :=
  let l := getBe16 buf (off + 2)
  if off > n ∨ n - off < 4 then none
  else if n - off - 4 < l then none
  else some ({ type := getBe16 buf off, val := buf.slice (off + 4) l }, off + (4 + l))

/-- Items put one after the other. -/
def putAll (buf : ByteMap) (cap off : Nat) : List Tlv.Item → Option (ByteMap × Nat)
  | [] => some (buf, off)
  | item :: rest =>
      match protoTlvPutAt buf cap off item with
      | none => none
      | some (buf, off) => putAll buf cap off rest

/-- This many items got one after the other. -/
def getAll (buf : ByteMap) (n off : Nat) : Nat → Option (List Tlv.Item × Nat)
  | 0 => some ([], off)
  | count + 1 =>
      match protoTlvGetAt buf n off with
      | none => none
      | some (item, off) =>
          (getAll buf n off count).map fun rest => (item :: rest.1, rest.2)

/-- The type and the length of an item fit their fields. -/
def ItemFits (item : Tlv.Item) : Prop := item.type < 2 ^ 16 ∧ item.val.length < 2 ^ 16

/-- Later items leave what is before them alone. -/
theorem putAll_below {items : List Tlv.Item} {buf buf' : ByteMap} {cap off finish : Nat}
    (put : putAll buf cap off items = some (buf', finish)) :
    off ≤ finish ∧ ByteMap.AgreeOn buf' buf 0 off := by
  induction items generalizing buf off with
  | nil =>
      cases put
      exact ⟨le_refl _, fun _ _ _ => rfl⟩
  | cons item rest ih =>
      unfold putAll protoTlvPutAt at put
      dsimp only at put
      split at put
      · cases put
      next next_ off' placed =>
      split at placed
      · cases placed
      cases placed
      obtain ⟨le, same⟩ := ih put
      refine ⟨by omega, ?_⟩
      exact (same.mono (le_refl _) (by omega)).trans
        (ByteMap.blit_agreeOn_of_disjoint (by omega))

theorem putBe16_inj {v v' : Nat} (small : v < 2 ^ 16) (small' : v' < 2 ^ 16)
    (same : putBe16 v = putBe16 v') : v = v' := by
  unfold putBe16 at same
  simp only [List.cons.injEq, and_true] at same
  rw [← Tlv.be16_put small, ← Tlv.be16_put small', same.1, same.2]

/-- An item is got from where its bytes lie. -/
theorem protoTlvGetAt_of_bytes {buf : ByteMap} {n off : Nat} {item : Tlv.Item}
    (fits : ItemFits item)
    (bytes : buf.slice off (4 + item.val.length) = Tlv.itemBytes item.type item.val)
    (room : off + (4 + item.val.length) ≤ n) :
    protoTlvGetAt buf n off = some (item, off + (4 + item.val.length)) := by
  have parts : buf.slice off (4 + item.val.length) =
      buf.slice off 2 ++ buf.slice (off + 2) 2 ++ buf.slice (off + 4) item.val.length := by
    rw [ByteMap.slice_append, show (4 : Nat) = 2 + 2 from rfl, ByteMap.slice_append]
  rw [parts, Tlv.itemBytes] at bytes
  obtain ⟨heads, val⟩ := List.append_inj bytes (by simp)
  obtain ⟨types, lengths⟩ := List.append_inj heads (by simp)
  rw [← Tlv.putBe16_getBe16] at types lengths
  have type := putBe16_inj (Tlv.getBe16_lt _ _) fits.1 types
  have length := putBe16_inj (Tlv.getBe16_lt _ _) fits.2 lengths
  unfold protoTlvGetAt
  dsimp only
  rw [type, length, val, if_neg (by omega), if_neg (by omega)]

/-- What was put is got, item by item, up to where the last one ends. -/
theorem getAll_putAll {items : List Tlv.Item} (fits : ∀ item ∈ items, ItemFits item)
    {buf buf' : ByteMap} {cap off finish n : Nat}
    (put : putAll buf cap off items = some (buf', finish)) (room : finish ≤ n) :
    getAll buf' n off items.length = some (items, finish) := by
  induction items generalizing buf off with
  | nil =>
      cases put
      rfl
  | cons item rest ih =>
      unfold putAll at put
      split at put
      · cases put
      next next_ off' placed =>
      obtain ⟨le, same⟩ := putAll_below put
      have after := ih (fun item member => fits item (List.mem_cons_of_mem _ member)) put
      have itemFits := fits item (List.mem_cons_self ..)
      unfold protoTlvPutAt at placed
      dsimp only at placed
      split at placed
      · cases placed
      cases placed
      have long := Tlv.itemBytes_length item.type item.val
      unfold Tlv.hdrLen at long
      have bytes : buf'.slice off (4 + item.val.length) =
          Tlv.itemBytes item.type item.val := by
        rw [ByteMap.slice_congr (same.mono (Nat.zero_le _) (by omega)), ← long,
          ByteMap.slice_blit_self]
        exact slice_ofList_self _
      rw [List.length_cons, getAll, protoTlvGetAt_of_bytes itemFits bytes (by omega)]
      dsimp only
      rw [after]
      rfl

/-- At the written length there is nothing more to get. -/
theorem protoTlvGetAt_end (buf : ByteMap) (n : Nat) : protoTlvGetAt buf n n = none := by
  unfold protoTlvGetAt
  rw [if_pos (by omega)]

/-! ## The codecs -/

/-- Requests are written and read as one. -/
structure RequestsCanonical : Prop where
  writes : ∀ (rq : ProtoReq) (n : Nat), rq.bodyLen ≤ reqBodyMax →
    reqHdr + rq.bodyLen ≤ n → ∃ bytes, protoEncodeReq rq n = .ok bytes
  reads_written : ∀ (rq : ProtoReq) (n : Nat) (bytes rest : List UInt8),
    rq.Typed → rq.version = version → rq.flags = 0 → protoEncodeReq rq n = .ok bytes →
    bytes.length = reqHdr + rq.bodyLen ∧
      protoDecodeReq (bytes ++ rest) = .ok (rq.bare, bytes.length)
  writes_read : ∀ (buf : List UInt8) (rq : ProtoReq) (used n : Nat),
    protoDecodeReq buf = .ok (rq, used) → used ≤ n →
    protoEncodeReq rq n = .ok (buf.take used)

/-- Responses are written and read as one. -/
structure ResponsesCanonical : Prop where
  writes : ∀ (rs : ProtoResp) (n : Nat), rs.bodyLen ≤ respBodyMax →
    respHdr + rs.bodyLen ≤ n → ∃ bytes, protoEncodeResp rs n = .ok bytes
  reads_written : ∀ (rs : ProtoResp) (n : Nat) (bytes rest : List UInt8),
    rs.version = version → rs.reserved = 0 → protoEncodeResp rs n = .ok bytes →
    bytes.length = respHdr + rs.bodyLen ∧
      protoDecodeResp (bytes ++ rest) = .ok (rs.bare, bytes.length)
  writes_read : ∀ (buf : List UInt8) (rs : ProtoResp) (used n : Nat),
    protoDecodeResp buf = .ok (rs, used) → used ≤ n →
    protoEncodeResp rs n = .ok (buf.take used)

/-- Items are got as they were put, and end where they ended. -/
def TlvsCanonical : Prop :=
  ∀ (items : List Tlv.Item) (buf buf' : ByteMap) (cap off finish n : Nat),
    (∀ item ∈ items, ItemFits item) → putAll buf cap off items = some (buf', finish) →
    finish ≤ n →
    getAll buf' n off items.length = some (items, finish) ∧
      protoTlvGetAt buf' finish finish = none

theorem requestsCanonical : RequestsCanonical where
  writes rq n small room := by
    unfold protoEncodeReq
    rw [if_neg (not_lt.mpr small), if_neg (not_lt.mpr room)]
    exact ⟨_, rfl⟩
  reads_written rq n bytes rest typed isVersion noFlags encoded := by
    refine ⟨?_, decode_encode_req typed isVersion noFlags encoded rest⟩
    unfold protoEncodeReq at encoded
    split_ifs at encoded
    cases encoded
    rw [List.length_append, reqHeader_length typed, ByteMap.slice_length]
  writes_read _ _ _ _ decoded room := encode_decode_req decoded room

theorem responsesCanonical : ResponsesCanonical where
  writes rs n small room := by
    unfold protoEncodeResp
    rw [if_neg (not_lt.mpr small), if_neg (not_lt.mpr room)]
    exact ⟨_, rfl⟩
  reads_written rs n bytes rest isVersion noReserved encoded := by
    refine ⟨?_, decode_encode_resp isVersion noReserved encoded rest⟩
    unfold protoEncodeResp at encoded
    split_ifs at encoded
    cases encoded
    rw [List.length_append, ByteMap.slice_length]
    rfl
  writes_read _ _ _ _ decoded room := encode_decode_resp decoded room

/-- The message codecs of the broker are canonical. -/
theorem proto_codecs_canonical :
    RequestsCanonical ∧ ResponsesCanonical ∧ TlvsCanonical :=
  ⟨requestsCanonical, responsesCanonical,
    fun _ _ _ _ _ finish _ fits put room =>
      ⟨getAll_putAll fits put room, protoTlvGetAt_end _ finish⟩⟩

end RlxFw.Proto
