import RlxFw.Broker
import RlxFw.Segments

/-!
# The broker's request receiver

`proto_rx_feed` of `src/lib/proto.c`: a header of 48 bytes, then the body it
declares, from a stream that arrives in any pieces.
-/

namespace RlxFw.Proto

open Broker (Token tokLen)
open Tlv (getBe16 getBe32)

/-- `PROTO_REQ_MAGIC`. -/
def reqMagic : Nat := 0x524C5842

/-- `PROTO_VERSION`. -/
def version : UInt8 := 1

/-- `PROTO_REQ_HDR`. -/
def reqHdr : Nat := 48

/-- `PROTO_REQ_BODY_MAX`. -/
def reqBodyMax : Nat := 2048

/-- The `PROTO_E_*` that a receiver can end with. -/
inductive Fault where
  | magic
  | version
  | flags
  | bodylen
  | inval
deriving DecidableEq, Repr

/-- `enum proto_rx_state`. -/
inductive RxState where
  | hdr
  | body
  | done
  | err
deriving DecidableEq, Repr

/-- `struct proto_req`. -/
structure ProtoReq where
  version : UInt8
  op : UInt8
  flags : Nat
  session : List UInt8
  csrf : List UInt8
  clientIp : Nat
  bodyLen : Nat
  body : ByteMap

/-- `struct proto_rx`.  `err` is `none` for 0. -/
structure ProtoRx where
  state : RxState
  err : Option Fault
  have_ : Nat
  want : Nat
  hdrbuf : ByteMap
  req : ProtoReq

/-- `proto_rx_init`. -/
def protoRxInit : ProtoRx where
  state := .hdr
  err := none
  have_ := 0
  want := reqHdr
  hdrbuf := fun _ => 0
  req :=
    { version := 0, op := 0, flags := 0
      session := List.replicate tokLen 0, csrf := List.replicate tokLen 0
      clientIp := 0, bodyLen := 0, body := fun _ => 0 }

/-- `rx_header`. -/
def rxHeader (rx : ProtoRx) (hdr : ByteMap) : Except Fault ProtoReq :=
  if getBe32 hdr 0 ≠ reqMagic then .error .magic
  else if hdr 4 ≠ version then .error .version
  else if getBe16 hdr 6 ≠ 0 then .error .flags
  else if getBe32 hdr 44 > reqBodyMax then .error .bodylen
  else
    .ok
      { rx.req with
        version := hdr 4, op := hdr 5, flags := getBe16 hdr 6
        session := hdr.slice 8 tokLen, csrf := hdr.slice 24 tokLen
        clientIp := getBe32 hdr 40, bodyLen := getBe32 hdr 44 }

/-- The bytes taken, stored in the buffer of the section. -/
def ProtoRx.store (rx : ProtoRx) (bytes : List UInt8) : ProtoRx :=
  let place (buf : ByteMap) :=
    buf.blit rx.have_ bytes.length (ByteMap.ofList bytes 0)
  if rx.state = .hdr then
    { rx with hdrbuf := place rx.hdrbuf, have_ := rx.have_ + bytes.length }
  else
    { rx with
      req := { rx.req with body := place rx.req.body }
      have_ := rx.have_ + bytes.length }

/-- What one pass of the loop comes to, with the bytes it took. -/
inductive Pass where
  | ret (rx : ProtoRx) (code : Except Fault RxState) (took : Nat)
  | again (rx : ProtoRx) (took : Nat)

/-- A section that is complete, `took` bytes into `left`. -/
def rxComplete (rx : ProtoRx) (took left : Nat) : Pass :=
  if rx.state = .hdr then
    match rxHeader rx rx.hdrbuf with
    | .error rc =>
        .ret { rx with state := .err, err := some rc } (.error rc) took
    | .ok req =>
        if req.bodyLen = 0 then
          .ret { rx with req := req, state := .done } (.ok .done) took
        else
          let rx :=
            { rx with
              req := req, state := .body, have_ := 0, want := req.bodyLen }
          if took = left then .ret rx (.ok .body) took else .again rx took
  else .ret { rx with state := .done } (.ok .done) took

/-- A pass of the loop of `proto_rx_feed`, over the bytes not yet consumed. -/
def rxPass (rx : ProtoRx) (rest : List UInt8) : Pass :=
  let cap := if rx.state = .hdr then reqHdr else rx.req.bodyLen
  if rx.have_ > cap ∨ rx.want > cap then
    .ret { rx with state := .err, err := some .inval } (.error .inval) 0
  else
    let take := min rest.length (rx.want - rx.have_)
    let rx := rx.store (rest.take take)
    if rx.have_ < rx.want then .ret rx (.ok rx.state) take
    else rxComplete rx take rest.length

/-- `proto_rx_feed`: the receiver, the result and the bytes consumed. -/
def protoRxFeed (rx : ProtoRx) (p : List UInt8) :
    ProtoRx × Except Fault RxState × Nat :=
  match rx.state with
  | .err => (rx, rx.err.elim (.ok .hdr) .error, 0)
  | .done => (rx, .ok .done, 0)
  | _ =>
      match rxPass rx p with
      | .ret rx code took => (rx, code, took)
      | .again rx took =>
          match rxPass rx (p.drop took) with
          | .ret rx code more => (rx, code, took + more)
          -- only a header is followed by another section
          | .again rx more => (rx, .ok rx.state, took + more)

/-- What a call answers in a state. -/
def ProtoRx.code (rx : ProtoRx) : Except Fault RxState :=
  match rx.state with
  | .err => rx.err.elim (.ok .hdr) .error
  | state => .ok state

/-! ## The bounds -/

/-- Where a receiver may stand between two bytes. -/
def ProtoRx.Sound (rx : ProtoRx) : Prop :=
  match rx.state with
  | .hdr => rx.want = reqHdr ∧ rx.have_ < rx.want
  | .body =>
      rx.want = rx.req.bodyLen ∧ rx.want ≤ reqBodyMax ∧ rx.have_ < rx.want
  | .done => rx.have_ = rx.want ∧ rx.want ≤ reqBodyMax
  | .err => rx.have_ = rx.want ∧ rx.want = reqHdr

/-- The receiver as a machine that takes byte after byte. -/
def rxStepper : Stepper ProtoRx UInt8 where
  halted rx := rx.state == .done || rx.state == .err
  step rx b := (protoRxFeed rx [b]).1

theorem sound_init : protoRxInit.Sound := ⟨rfl, by decide⟩

@[simp]
theorem ProtoRx.store_state (rx : ProtoRx) (bytes : List UInt8) :
    (rx.store bytes).state = rx.state := by
  unfold store
  dsimp only
  split <;> rfl

@[simp]
theorem ProtoRx.store_want (rx : ProtoRx) (bytes : List UInt8) :
    (rx.store bytes).want = rx.want := by
  unfold store
  dsimp only
  split <;> rfl

@[simp]
theorem ProtoRx.store_have (rx : ProtoRx) (bytes : List UInt8) :
    (rx.store bytes).have_ = rx.have_ + bytes.length := by
  unfold store
  dsimp only
  split <;> rfl

@[simp]
theorem ProtoRx.store_bodyLen (rx : ProtoRx) (bytes : List UInt8) :
    (rx.store bytes).req.bodyLen = rx.req.bodyLen := by
  unfold store
  dsimp only
  split <;> rfl

@[simp]
theorem ProtoRx.store_nil (rx : ProtoRx) : rx.store [] = rx := by
  unfold store
  dsimp only
  split <;> simp

theorem ProtoRx.store_cons (rx : ProtoRx) (b : UInt8) (bs : List UInt8) :
    rx.store (b :: bs) = (rx.store [b]).store bs := by
  have split (buf : ByteMap) :
      buf.blit rx.have_ (bs.length + 1) (ByteMap.ofList (b :: bs) 0) =
        (buf.blit rx.have_ 1 (ByteMap.ofList [b] 0)).blit (rx.have_ + 1)
          bs.length (ByteMap.ofList bs 0) := by
    have both := ByteMap.blit_append buf (ByteMap.ofList (b :: bs) 0) rx.have_ 1
      bs.length
    rw [Nat.add_comm bs.length 1, ← both]
    congr 1
    · funext offset
      unfold ByteMap.blit
      split_ifs with inside
      · rw [show offset - rx.have_ = 0 by omega]
        rfl
      · rfl
    · funext index
      exact ByteMap.ofList_append_right [b] bs 0 index
  by_cases header : rx.state = .hdr
  · simp only [store, header, if_pos, List.length_cons, split,
      List.length_nil, Nat.zero_add]
    congr 1
    omega
  · simp only [store, header, if_false, List.length_cons, split,
      List.length_nil, Nat.zero_add]
    congr 1
    omega

/-! ## A byte, then the rest -/

/-- A pass that took more bytes before it. -/
def Pass.shift : Pass → Pass
  | .ret rx code took => .ret rx code (took + 1)
  | .again rx took => .again rx (took + 1)

theorem rxComplete_shift (rx : ProtoRx) (took left : Nat) :
    rxComplete rx (took + 1) (left + 1) = (rxComplete rx took left).shift := by
  unfold rxComplete
  split
  · cases rxHeader rx rx.hdrbuf with
    | error rc => rfl
    | ok req =>
        dsimp only
        split
        · rfl
        · by_cases all : took = left
          · rw [if_pos all, if_pos (by omega)]
            rfl
          · rw [if_neg all, if_neg (by omega)]
            rfl
  · rfl

/-- The section's capacity holds what is wanted of it. -/
def ProtoRx.Fits (rx : ProtoRx) : Prop :=
  rx.have_ < rx.want ∧
    rx.want ≤ if rx.state = .hdr then reqHdr else rx.req.bodyLen

theorem rxPass_fits {rx : ProtoRx} (fits : rx.Fits) (rest : List UInt8) :
    rxPass rx rest =
      if rest.length < rx.want - rx.have_ then
        .ret (rx.store rest) (.ok rx.state) rest.length
      else
        rxComplete (rx.store (rest.take (rx.want - rx.have_)))
          (rx.want - rx.have_) rest.length := by
  obtain ⟨room, cap⟩ := fits
  unfold rxPass
  dsimp only
  rw [if_neg (by omega)]
  by_cases short : rest.length < rx.want - rx.have_
  · have all : min rest.length (rx.want - rx.have_) = rest.length :=
      min_eq_left short.le
    rw [if_pos short, all, List.take_length, if_pos (by simp; omega),
      ProtoRx.store_state]
  · have full : min rest.length (rx.want - rx.have_) = rx.want - rx.have_ :=
      min_eq_right (Nat.le_of_not_lt short)
    rw [if_neg short, full, if_neg (by simp; omega)]

/-- More is wanted than one byte. -/
theorem rxPass_cons {rx : ProtoRx} (fits : rx.Fits)
    (more : rx.have_ + 1 < rx.want) (b : UInt8) (bs : List UInt8) :
    rxPass rx (b :: bs) = (rxPass (rx.store [b]) bs).shift := by
  have next : (rx.store [b]).Fits := by
    refine ⟨by simpa using more, ?_⟩
    simpa using fits.2
  rw [rxPass_fits fits, rxPass_fits next]
  simp only [ProtoRx.store_want, ProtoRx.store_have, List.length_cons,
    List.length_nil, ProtoRx.store_state]
  by_cases short : bs.length + 1 < rx.want - rx.have_
  · rw [if_pos short, if_pos (by omega), rx.store_cons]
    rfl
  · rw [if_neg short, if_neg (by omega)]
    have room : rx.want - rx.have_ = rx.want - (rx.have_ + (0 + 1)) + 1 := by
      omega
    rw [room, List.take_succ_cons, rx.store_cons, rxComplete_shift]

/-- The byte completes the section. -/
theorem rxPass_last {rx : ProtoRx} (fits : rx.Fits)
    (last : rx.have_ + 1 = rx.want) (b : UInt8) (bs : List UInt8) :
    rxPass rx (b :: bs) = rxComplete (rx.store [b]) 1 (bs.length + 1) := by
  rw [rxPass_fits fits, if_neg (by simp; omega),
    show rx.want - rx.have_ = 1 by omega]
  rfl

theorem rxComplete_body {rx : ProtoRx} (body : rx.state = .body)
    (took left : Nat) :
    rxComplete rx took left = .ret { rx with state := .done } (.ok .done) took := by
  unfold rxComplete
  rw [if_neg (by simp [body])]

/-- Only a header is followed by another section. -/
theorem rxPass_body {rx : ProtoRx} (body : rx.state = .body) (rest : List UInt8) :
    ∃ rx' code took, rxPass rx rest = .ret rx' code took := by
  have other : ¬ rx.state = .hdr := by simp [body]
  unfold rxPass
  dsimp only
  rw [if_neg other]
  split
  · exact ⟨_, _, _, rfl⟩
  · split
    · exact ⟨_, _, _, rfl⟩
    · exact ⟨_, _, _, rxComplete_body (by simpa using body) _ _⟩

/-! ## A call, byte by byte -/

/-- The receiver and the bytes consumed. -/
def rxFeed (rx : ProtoRx) (p : List UInt8) : ProtoRx × Nat :=
  ((protoRxFeed rx p).1, (protoRxFeed rx p).2.2)

theorem ProtoRx.Sound.fits {rx : ProtoRx} (sound : rx.Sound)
    (going : rxStepper.halted rx = false) : rx.Fits := by
  unfold ProtoRx.Sound at sound
  unfold ProtoRx.Fits
  rcases rx with ⟨state, err, have_, want, hdrbuf, req⟩
  cases state with
  | hdr => exact ⟨sound.2, sound.1.le⟩
  | body => exact ⟨sound.2.2, sound.1.le⟩
  | done => cases going
  | err => cases going

theorem rxFeed_halted {rx : ProtoRx} (halted : rxStepper.halted rx = true)
    (p : List UInt8) : rxFeed rx p = (rx, 0) := by
  rcases rx with ⟨state, err, have_, want, hdrbuf, req⟩
  cases state with
  | hdr => cases halted
  | body => cases halted
  | done => rfl
  | err => rfl

theorem protoRxFeed_going {rx : ProtoRx}
    (going : rxStepper.halted rx = false) (p : List UInt8) :
    protoRxFeed rx p =
      match rxPass rx p with
      | .ret rx code took => (rx, code, took)
      | .again rx took =>
          match rxPass rx (p.drop took) with
          | .ret rx code more => (rx, code, took + more)
          | .again rx more => (rx, .ok rx.state, took + more) := by
  rcases rx with ⟨state, err, have_, want, hdrbuf, req⟩
  cases state with
  | hdr => rfl
  | body => rfl
  | done => cases going
  | err => cases going

theorem rxFeed_nil {rx : ProtoRx} (sound : rx.Sound) :
    rxFeed rx [] = (rx, 0) := by
  cases halted : rxStepper.halted rx with
  | true => exact rxFeed_halted halted []
  | false =>
      have fits := sound.fits halted
      have room := fits.1
      unfold rxFeed
      rw [protoRxFeed_going halted, rxPass_fits fits, if_pos (by simp; omega)]
      simp

theorem bodyLen_le_of_rxHeader {rx : ProtoRx} {hdr : ByteMap} {req : ProtoReq}
    (read : rxHeader rx hdr = .ok req) : req.bodyLen ≤ reqBodyMax := by
  unfold rxHeader at read
  split_ifs at read with _ _ _ high
  cases read
  exact Nat.le_of_not_gt high

/-- The receiver after a header that declares a body. -/
def ProtoRx.toBody (rx : ProtoRx) (req : ProtoReq) : ProtoRx :=
  { rx with req := req, state := .body, have_ := 0, want := req.bodyLen }

theorem sound_toBody {rx : ProtoRx} {hdr : ByteMap} {req : ProtoReq}
    (read : rxHeader rx hdr = .ok req) (some : req.bodyLen ≠ 0) :
    (rx.toBody req).Sound :=
  ⟨rfl, bodyLen_le_of_rxHeader read, Nat.pos_of_ne_zero some⟩

/-- A section complete with its last byte, whatever comes after. -/
theorem rxComplete_cases {rx : ProtoRx} (full : rx.have_ = rx.want)
    (small : rx.want ≤ reqBodyMax) (header : rx.state = .hdr → rx.want = reqHdr) :
    (∃ rx' code, rxStepper.halted rx' = true ∧ rx'.Sound ∧ code = rx'.code ∧
      ∀ left, rxComplete rx 1 left = .ret rx' code 1) ∨
    ∃ req, (rx.toBody req).Sound ∧
      rxComplete rx 1 1 = .ret (rx.toBody req) (.ok .body) 1 ∧
      ∀ left, left ≠ 0 → rxComplete rx 1 (left + 1) = .again (rx.toBody req) 1 := by
  unfold rxComplete
  by_cases hdr : rx.state = .hdr
  · simp only [if_pos hdr]
    cases read : rxHeader rx rx.hdrbuf with
    | error rc =>
        exact .inl ⟨{ rx with state := .err, err := some rc }, .error rc, rfl,
          ⟨full, header hdr⟩, rfl, fun _ => rfl⟩
    | ok req =>
        dsimp only
        by_cases none : req.bodyLen = 0
        · simp only [if_pos none]
          exact .inl ⟨{ rx with req := req, state := .done }, .ok .done, rfl,
            ⟨full, small⟩, rfl, fun _ => rfl⟩
        · simp only [if_neg none]
          refine .inr ⟨req, sound_toBody read none, rfl, ?_⟩
          intro left some
          rw [if_neg (by omega)]
          rfl
  · simp only [if_neg hdr]
    exact .inl ⟨{ rx with state := .done }, .ok .done, rfl, ⟨full, small⟩, rfl,
      fun _ => rfl⟩

/-- A sound receiver that is going wants no more than its section holds. -/
theorem ProtoRx.Sound.wants {rx : ProtoRx} (sound : rx.Sound)
    (going : rxStepper.halted rx = false) :
    rx.want ≤ reqBodyMax ∧ (rx.state = .hdr → rx.want = reqHdr) := by
  unfold ProtoRx.Sound at sound
  rcases rx with ⟨state, err, have_, want, hdrbuf, req⟩
  cases state with
  | hdr => exact ⟨sound.1 ▸ by decide, fun _ => sound.1⟩
  | body => exact ⟨sound.2.1, nofun⟩
  | done => cases going
  | err => cases going

theorem ProtoRx.Sound.store {rx : ProtoRx} (sound : rx.Sound)
    (going : rxStepper.halted rx = false) {bytes : List UInt8}
    (more : rx.have_ + bytes.length < rx.want) : (rx.store bytes).Sound := by
  unfold ProtoRx.Sound at sound ⊢
  rw [ProtoRx.store_state, ProtoRx.store_want, ProtoRx.store_have,
    ProtoRx.store_bodyLen]
  cases state : rx.state with
  | hdr =>
      rw [state] at sound
      exact ⟨sound.1, more⟩
  | body =>
      rw [state] at sound
      exact ⟨sound.1, sound.2.1, more⟩
  | done => simp [rxStepper, state] at going
  | err => simp [rxStepper, state] at going

/-- What a byte does to a receiver that is going: stored, or the last of its
section. -/
theorem rxFeed_byte {rx : ProtoRx} (sound : rx.Sound)
    (going : rxStepper.halted rx = false) (b : UInt8) :
    (rxFeed rx [b]).1.Sound ∧
      ((rx.have_ + 1 < rx.want ∧ (rxFeed rx [b]).1 = rx.store [b]) ∨
        rx.have_ + 1 = rx.want) := by
  have fits := sound.fits going
  obtain ⟨small, header⟩ := sound.wants going
  by_cases more : rx.have_ + 1 < rx.want
  · have alone : (rxFeed rx [b]).1 = rx.store [b] := by
      unfold rxFeed
      rw [protoRxFeed_going going, rxPass_fits fits, if_pos (by simp; omega)]
    rw [alone]
    exact ⟨sound.store going more, .inl ⟨more, rfl⟩⟩
  · have last : rx.have_ + 1 = rx.want := by
      have := fits.1
      omega
    refine ⟨?_, .inr last⟩
    unfold rxFeed
    rw [protoRxFeed_going going, rxPass_last fits last]
    rcases rxComplete_cases (show (rx.store [b]).have_ = (rx.store [b]).want by simpa using last)
      (by simpa using small) (by simpa using header) with
      ⟨rx', code, _, sound', _, ends⟩ | ⟨req, sound', first, _⟩
    · rw [ends]
      exact sound'
    · rw [List.length_nil, Nat.zero_add, first]
      exact sound'

/-- The first byte of a piece may as well come alone. -/
theorem rxFeed_cons {rx : ProtoRx} (sound : rx.Sound)
    (going : rxStepper.halted rx = false) (b : UInt8) (bs : List UInt8) :
    rxFeed rx (b :: bs) =
      ((rxFeed (rxStepper.step rx b) bs).1,
        (rxFeed (rxStepper.step rx b) bs).2 + 1) := by
  have fits := sound.fits going
  obtain ⟨small, header⟩ := sound.wants going
  change rxFeed rx (b :: bs) = ((rxFeed (rxFeed rx [b]).1 bs).1,
    (rxFeed (rxFeed rx [b]).1 bs).2 + 1)
  rcases (rxFeed_byte sound going b).2 with ⟨more, alone⟩ | last
  · have going' : rxStepper.halted (rx.store [b]) = false := by
      simpa [rxStepper] using going
    rw [alone]
    unfold rxFeed
    rw [protoRxFeed_going going, protoRxFeed_going going',
      rxPass_cons fits more]
    cases rxPass (rx.store [b]) bs with
    | ret rx' code took => rfl
    | again rx' took =>
        dsimp only [Pass.shift]
        rw [List.drop_succ_cons]
        cases rxPass rx' (bs.drop took) with
        | ret rx'' code more => exact Prod.ext rfl (Nat.add_right_comm took 1 more)
        | again rx'' more => exact Prod.ext rfl (Nat.add_right_comm took 1 more)
  · have alone : rxPass rx [b] = rxComplete (rx.store [b]) 1 1 :=
      rxPass_last fits last b []
    rcases rxComplete_cases (show (rx.store [b]).have_ = (rx.store [b]).want by simpa using last)
      (by simpa using small) (by simpa using header) with
      ⟨rx', code, halted, _, _, ends⟩ | ⟨req, sound', first, goes⟩
    · have step : (rxFeed rx [b]).1 = rx' := by
        unfold rxFeed
        rw [protoRxFeed_going going, alone, ends]
      rw [step, rxFeed_halted halted]
      unfold rxFeed
      rw [protoRxFeed_going going, rxPass_last fits last, ends]
    · have step : (rxFeed rx [b]).1 = (rx.store [b]).toBody req := by
        unfold rxFeed
        rw [protoRxFeed_going going, alone, first]
      rw [step]
      cases bs with
      | nil =>
          rw [rxFeed_nil sound']
          unfold rxFeed
          rw [protoRxFeed_going going, alone, first]
      | cons b' bs =>
          have body : ((rx.store [b]).toBody req).state = .body := rfl
          obtain ⟨rx', code, took, pass⟩ := rxPass_body body (b' :: bs)
          have later : rxFeed ((rx.store [b]).toBody req) (b' :: bs) =
              (rx', took) := by
            unfold rxFeed
            rw [protoRxFeed_going rfl, pass]
          rw [later]
          unfold rxFeed
          rw [protoRxFeed_going going, rxPass_last fits last,
            goes _ (by simp)]
          dsimp only
          rw [List.drop_one, List.tail_cons, pass]
          exact Prod.ext rfl (Nat.add_comm 1 took)

/-- A call on a piece is the run of its bytes. -/
theorem rxFeed_eq_run {rx : ProtoRx} (sound : rx.Sound) (p : List UInt8) :
    rxFeed rx p = rxStepper.run rx p := by
  induction p generalizing rx with
  | nil => exact rxFeed_nil sound
  | cons b bs ih =>
      cases going : rxStepper.halted rx with
      | true => rw [rxFeed_halted going, rxStepper.run_of_halted going]
      | false =>
          have next : (rxStepper.step rx b).Sound := (rxFeed_byte sound going b).1
          rw [rxFeed_cons sound going, rxStepper.run_cons going, ih next]

/-! ## What a call answers -/

theorem code_of_going {rx : ProtoRx} (going : rxStepper.halted rx = false) :
    rx.code = .ok rx.state := by
  rcases rx with ⟨state, err, have_, want, hdrbuf, req⟩
  cases state with
  | hdr => rfl
  | body => rfl
  | done => cases going
  | err => cases going

/-- A pass that returns answers as the receiver stands, and one that goes on is
in the body. -/
theorem rxPass_code {rx : ProtoRx} (going : rxStepper.halted rx = false)
    (rest : List UInt8) :
    match rxPass rx rest with
    | .ret rx' code _ => code = rx'.code
    | .again rx' _ => rx'.state = .body := by
  unfold rxPass
  dsimp only
  by_cases beyond : rx.have_ > (if rx.state = .hdr then reqHdr else rx.req.bodyLen) ∨
      rx.want > if rx.state = .hdr then reqHdr else rx.req.bodyLen
  · rw [if_pos beyond]
    rfl
  · rw [if_neg beyond]
    generalize stored : rx.store
      (rest.take (min rest.length (rx.want - rx.have_))) = rx'
    have going' : rxStepper.halted rx' = false := by
      rw [← stored]
      simpa [rxStepper] using going
    by_cases short : rx'.have_ < rx'.want
    · rw [if_pos short]
      exact (code_of_going going').symm
    · rw [if_neg short]
      unfold rxComplete
      by_cases hdr : rx'.state = .hdr
      · rw [if_pos hdr]
        cases rxHeader rx' rx'.hdrbuf with
        | error rc => rfl
        | ok req =>
            dsimp only
            by_cases none : req.bodyLen = 0
            · rw [if_pos none]
              rfl
            · rw [if_neg none]
              by_cases all : min rest.length (rx.want - rx.have_) = rest.length
              · rw [if_pos all]
                rfl
              · rw [if_neg all]
      · rw [if_neg hdr]
        rfl

/-- The answer is the state's. -/
theorem protoRxFeed_code (rx : ProtoRx) (p : List UInt8) :
    (protoRxFeed rx p).2.1 = (protoRxFeed rx p).1.code := by
  cases going : rxStepper.halted rx with
  | true =>
      rcases rx with ⟨state, err, have_, want, hdrbuf, req⟩
      cases state with
      | hdr => cases going
      | body => cases going
      | done => rfl
      | err => rfl
  | false =>
      rw [protoRxFeed_going going]
      have first := rxPass_code going p
      cases pass : rxPass rx p with
      | ret rx' code took =>
          rw [pass] at first
          exact first
      | again rx' took =>
          rw [pass] at first
          dsimp only at first ⊢
          obtain ⟨rx'', code, more, later⟩ := rxPass_body first (p.drop took)
          have going' : rxStepper.halted rx' = false := by
            simp [rxStepper, first]
          have second := rxPass_code going' (p.drop took)
          rw [later] at second ⊢
          exact second

/-! ## Any segmentation -/

/-- The size of the buffer that a section fills. -/
def RxState.size : RxState → Nat
  | .hdr | .err => reqHdr
  | .body | .done => reqBodyMax

theorem ProtoRx.Sound.bounds {rx : ProtoRx} (sound : rx.Sound) :
    rx.have_ ≤ rx.want ∧ rx.want ≤ rx.state.size := by
  unfold ProtoRx.Sound at sound
  rcases rx with ⟨state, err, have_, want, hdrbuf, req⟩
  cases state with
  | hdr => exact ⟨sound.2.le, sound.1.le⟩
  | body => exact ⟨sound.2.2.le, sound.2.1⟩
  | done => exact ⟨sound.1.le, sound.2⟩
  | err => exact ⟨sound.1.le, sound.2.le⟩

/-- Whatever the pieces of a stream, the receiver ends as if fed the whole
stream at once: in the same state with the same request or error, with as many
bytes consumed, and the last call answering the same.  Between any two pieces
`have <= want <=` the size of the section's buffer. -/
theorem proto_rx_segmentation (pieces : List (List UInt8)) :
    feedPieces rxFeed protoRxInit pieces =
        ((protoRxFeed protoRxInit pieces.flatten).1,
          (protoRxFeed protoRxInit pieces.flatten).2.2) ∧
      (∀ before last, pieces = before ++ [last] →
        (protoRxFeed (feedPieces rxFeed protoRxInit before).1 last).2.1 =
          (protoRxFeed protoRxInit pieces.flatten).2.1) ∧
      ∀ between ∈ statesBetween rxFeed protoRxInit pieces,
        between.have_ ≤ between.want ∧ between.want ≤ between.state.size := by
  have keeps : ∀ (rx : ProtoRx) (b : UInt8), rx.Sound →
      rxStepper.halted rx = false → (rxStepper.step rx b).Sound :=
    fun rx b sound going => (rxFeed_byte sound going b).1
  have agrees : ∀ (rx : ProtoRx) (p : List UInt8), rx.Sound →
      rxFeed rx p = rxStepper.run rx p := fun rx p sound => rxFeed_eq_run sound p
  have fed (pieces : List (List UInt8)) :
      feedPieces rxFeed protoRxInit pieces =
        rxStepper.run protoRxInit pieces.flatten :=
    feedPieces_eq_run keeps agrees sound_init pieces
  have whole : rxFeed protoRxInit pieces.flatten =
      rxStepper.run protoRxInit pieces.flatten := agrees _ _ sound_init
  refine ⟨?_, ?_, ?_⟩
  · rw [fed, ← whole]
    rfl
  · rintro before last rfl
    have sound : (feedPieces rxFeed protoRxInit before).1.Sound := by
      rw [fed]
      exact rxStepper.run_keeps keeps sound_init _
    rw [protoRxFeed_code, protoRxFeed_code]
    change (rxFeed (feedPieces rxFeed protoRxInit before).1 last).1.code =
      (rxFeed protoRxInit (before ++ [last]).flatten).1.code
    rw [agrees _ _ sound, fed, whole, List.flatten_append, rxStepper.run_append]
    simp
  · intro between member
    exact (statesBetween_good keeps agrees sound_init pieces between
      member).bounds

end RlxFw.Proto
