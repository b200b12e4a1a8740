import RlxFw.Ascii
import RlxFw.BytePairs

/-!
# DNS messages

The codec of `src/dnsfwd/dns.c`.  A message is the list of its bytes, and a name
is kept in uncompressed wire form: labels behind their lengths, and a zero.
-/

namespace RlxFw.Dns

open BytePairs

/-- `DNS_MSG_MAX`. -/
def msgMax : Nat := 512
/-- `DNS_NAME_MAX`. -/
def nameMax : Nat := 255
/-- `DNS_HDR_LEN`. -/
def hdrLen : Nat := 12
/-- `DNS_PTR_JUMPS_MAX`. -/
def ptrJumpsMax : Nat := 64
/-- `DNS_RR_WALK_MAX`. -/
def rrWalkMax : Nat := 45
/-- `DNS_RR_KEEP`. -/
def rrKeep : Nat := 16
/-- `DNS_PORT`. -/
def dnsPort : UInt16 := 53
/-- `DNS_CLASS_IN`. -/
def classIn : UInt16 := 1
/-- `DNS_TYPE_OPT`. -/
def typeOpt : UInt16 := 41

/-- `DNS_RCODE_FORMERR`. -/
def rcodeFormerr : UInt8 := 1
/-- `DNS_RCODE_SERVFAIL`. -/
def rcodeServfail : UInt8 := 2
/-- `DNS_RCODE_NOTIMP`. -/
def rcodeNotimp : UInt8 := 4
/-- `DNS_RCODE_REFUSED`. -/
def rcodeRefused : UInt8 := 5

/-- `DNS_F_QR`. -/
def flagQr : UInt16 := 0x8000
/-- `DNS_F_OPMASK`. -/
def flagOpmask : UInt16 := 0x7800
/-- `DNS_F_RD`. -/
def flagRd : UInt16 := 0x0100
/-- `DNS_F_RA`. -/
def flagRa : UInt16 := 0x0080
/-- `DNS_F_Z`. -/
def flagZ : UInt16 := 0x0040
/-- `DNS_F_RCMASK`. -/
def flagRcmask : UInt16 := 0x000F

/-- `enum dns_err`. -/
inductive Err where
  | short
  | label
  | ptr
  | name
  | jumps
  | qdcount
  | opcode
  | qr
  | rd
  | edns
  | class_
  | trail
  | rrcount
  | cap
  | z
  | long
deriving DecidableEq, Repr

/-! ## Scalars -/

/-- `dns_get16`, at an offset. -/
def dnsGet16 (p : List UInt8) (off : Nat) : UInt16 :=
  (byteAt p off).toUInt16 <<< 8 ||| (byteAt p (off + 1)).toUInt16

/-- `dns_get32`, at an offset. -/
def dnsGet32 (p : List UInt8) (off : Nat) : UInt32 :=
  (byteAt p off).toUInt32 <<< 24 ||| (byteAt p (off + 1)).toUInt32 <<< 16 |||
    (byteAt p (off + 2)).toUInt32 <<< 8 ||| (byteAt p (off + 3)).toUInt32

/-- `dns_put16`. -/
def dnsPut16 (v : UInt16) : List UInt8 := [(v >>> 8).toUInt8, (v &&& 0xFF).toUInt8]

/-- What was read is written back. -/
theorem dnsPut16_dnsGet16 {p : List UInt8} (whole : 2 ≤ p.length) :
    dnsPut16 (dnsGet16 p 0) = p.take 2 := by
  match p, whole with
  | a :: b :: rest, _ =>
      change [_, _] = [a, b]
      congr 1
      · exact high_of_pair a b
      · congr 1
        exact low_of_pair a b

/-! ## Names -/

/-- The loop of `dns_decode_name`: the name so far and, once a pointer was
followed, where the message goes on after the name. -/
def decodeNameFrom (msg : List UInt8) (outcap : Nat) (pos limit jumps : Nat)
    (out : List UInt8) (after : Option Nat) : Except Err (List UInt8 × Nat) :=
  let c := byteAt msg pos
  if pos ≥ msg.length then .error .short
  else if c &&& 0xC0 = 0xC0 then
    let tgt := (c &&& 0x3F).toNat * 2 ^ 8 + (byteAt msg (pos + 1)).toNat
    if pos + 2 > msg.length then .error .short
    else if tgt ≥ pos then .error .ptr
    else if tgt ≥ limit then .error .ptr
    else if jumps + 1 > ptrJumpsMax then .error .jumps
    else
      decodeNameFrom msg outcap tgt tgt (jumps + 1) out
        (after.orElse fun _ => some (pos + 2))
  else if c &&& 0xC0 ≠ 0 then .error .label
  else if c = 0 then
    if out.length + 1 > outcap then .error .name
    else .ok (out ++ [0], after.getD (pos + 1))
  else if pos + 1 + c.toNat > msg.length then .error .short
  else if out.length + 1 + c.toNat + 1 > outcap then .error .name
  else
    decodeNameFrom msg outcap (pos + 1 + c.toNat) limit jumps
      (out ++ c :: (msg.drop (pos + 1)).take c.toNat) after
termination_by (outcap - out.length) + (ptrJumpsMax - jumps)
decreasing_by
  · omega
  · simp only [List.length_append, List.length_cons]
    omega

/-- `dns_decode_name`: the name, and where the message goes on after it. -/
def dnsDecodeName (msg : List UInt8) (pos outcap : Nat) :
    Except Err (List UInt8 × Nat) :=
  if outcap < 1 ∨ outcap > nameMax then .error .cap
  else decodeNameFrom msg outcap pos msg.length 0 [] none

/-- `lc`. -/
def lc (c : UInt8) : UInt8 := if 0x41 ≤ c ∧ c ≤ 0x5A then c - 0x41 + 0x61 else c

/-- The loop of `dns_name_eq`, from a label on. -/
def nameEqFrom (a b : List UInt8) (i : Nat) : Bool :=
  let la := byteAt a i
  if i ≥ a.length then false
  else if la ≠ byteAt b i then false
  else if la = 0 then decide (i + 1 = a.length)
  else if i + 1 + la.toNat > a.length then false
  else if (List.range la.toNat).any fun k =>
      lc (byteAt a (i + 1 + k)) != lc (byteAt b (i + 1 + k)) then false
  else nameEqFrom a b (i + 1 + la.toNat)
termination_by a.length - i

/-- `dns_name_eq`. -/
def dnsNameEq (a b : List UInt8) : Bool :=
  if a.length ≠ b.length ∨ a.length = 0 then false else nameEqFrom a b 0

/-! ## Messages -/

/-- `struct dns_hdr`. -/
structure Hdr where
  id : UInt16
  flags : UInt16
  qd : UInt16
  an : UInt16
  ns : UInt16
  ar : UInt16
deriving DecidableEq, Repr

/-- `struct dns_question`. -/
structure Question where
  name : List UInt8
  qtype : UInt16
  qclass : UInt16
deriving DecidableEq, Repr

/-- `hdr_decode`. -/
def hdrDecode (msg : List UInt8) : Hdr where
  id := dnsGet16 msg 0
  flags := dnsGet16 msg 2
  qd := dnsGet16 msg 4
  an := dnsGet16 msg 6
  ns := dnsGet16 msg 8
  ar := dnsGet16 msg 10

/-- `question_decode`: the question, and where the message goes on. -/
def questionDecode (msg : List UInt8) (pos : Nat) :
    Except Err (Question × Nat) := do
  let (name, pos) ← dnsDecodeName msg pos nameMax
  if pos + 4 > msg.length then .error .short
  else
    .ok ({ name, qtype := dnsGet16 msg pos, qclass := dnsGet16 msg (pos + 2) },
      pos + 4)

/-- A query that is refused: why, and the question that may be echoed. -/
structure BadQuery where
  why : Err
  q : Option Question
deriving DecidableEq, Repr

/-- `struct dns_query`, with its question. -/
structure Query where
  h : Hdr
  q : Question
deriving DecidableEq, Repr

/-- `dns_parse_query`. -/
def dnsParseQuery (msg : List UInt8) : Except BadQuery Query :=
  let h := hdrDecode msg
  if msg.length < hdrLen then .error ⟨.short, none⟩
  else if msg.length > msgMax then .error ⟨.long, none⟩
  else if h.flags &&& flagQr ≠ 0 then .error ⟨.qr, none⟩
  else if h.flags &&& flagOpmask ≠ 0 then .error ⟨.opcode, none⟩
  else if h.qd ≠ 1 then .error ⟨.qdcount, none⟩
  else if h.an ≠ 0 ∨ h.ns ≠ 0 then .error ⟨.rrcount, none⟩
  else
    match questionDecode msg hdrLen with
    | .error why => .error ⟨why, none⟩
    | .ok (q, pos) =>
        if q.qclass ≠ classIn then .error ⟨.class_, some q⟩
        else if h.flags &&& flagRd = 0 then .error ⟨.rd, some q⟩
        else if h.ar ≠ 0 then .error ⟨.edns, some q⟩
        else if pos ≠ msg.length then .error ⟨.trail, some q⟩
        else .ok { h, q }

/-- `struct dns_rr`. -/
structure Rr where
  name : List UInt8
  type : UInt16
  rclass : UInt16
  ttl : UInt32
  rdlen : UInt16
  rdoff : UInt16
deriving DecidableEq, Repr

/-- `struct dns_reply`. -/
structure Reply where
  h : Hdr
  q : Question
  an : List Rr
  walked : Nat
deriving DecidableEq, Repr

/-- The walk of `dns_parse_reply` through the records that are left, of which
the first `answers` are answers, with those kept so far. -/
def walkRecords (msg : List UInt8) :
    Nat → Nat → Nat → List Rr → Except Err (List Rr × Nat)
  | 0, _, pos, kept => .ok (kept, pos)
  | left + 1, answers, pos, kept => do
      let (name, pos) ← dnsDecodeName msg pos nameMax
      if pos + 10 > msg.length then .error .short
      else
        let type := dnsGet16 msg pos
        let rdlen := dnsGet16 msg (pos + 8)
        if pos + 10 + rdlen.toNat > msg.length then .error .short
        else if type = typeOpt then .error .edns
        else
          let rr : Rr :=
            { name, type, rclass := dnsGet16 msg (pos + 2)
              ttl := dnsGet32 msg (pos + 4), rdlen
              rdoff := UInt16.ofNat (pos + 10) }
          walkRecords msg left (answers - 1) (pos + 10 + rdlen.toNat)
            (if 0 < answers ∧ kept.length < rrKeep then kept ++ [rr] else kept)

/-- `dns_parse_reply`. -/
def dnsParseReply (msg : List UInt8) : Except Err Reply :=
  let h := hdrDecode msg
  let total := h.an.toNat + h.ns.toNat + h.ar.toNat
  if msg.length < hdrLen then .error .short
  else if msg.length > msgMax then .error .long
  else if h.flags &&& flagQr = 0 then .error .qr
  else if h.flags &&& flagOpmask ≠ 0 then .error .opcode
  else if h.flags &&& flagZ ≠ 0 then .error .z
  else if h.qd ≠ 1 then .error .qdcount
  else if total > rrWalkMax then .error .rrcount
  else do
    let (q, pos) ← questionDecode msg hdrLen
    let (an, pos) ← walkRecords msg total h.an.toNat pos []
    if pos ≠ msg.length then .error .trail
    else .ok { h, q, an, walked := total }

/-- A check that was passed. -/
theorem ok_of_check {ε α : Type} {c : Prop} [Decidable c] {why : ε} {a : α}
    {rest : Except ε α} (done : (if c then .error why else rest) = .ok a) :
    ¬ c ∧ rest = .ok a := by
  split at done
  · cases done
  · exact ⟨‹_›, done⟩

/-- What an accepted query must have been. -/
theorem dnsParseQuery_ok {msg : List UInt8} {query : Query}
    (parsed : dnsParseQuery msg = .ok query) :
    query.h = hdrDecode msg ∧ hdrLen ≤ msg.length := by
  obtain ⟨whole, parsed⟩ := ok_of_check parsed
  obtain ⟨-, parsed⟩ := ok_of_check parsed
  obtain ⟨-, parsed⟩ := ok_of_check parsed
  obtain ⟨-, parsed⟩ := ok_of_check parsed
  obtain ⟨-, parsed⟩ := ok_of_check parsed
  obtain ⟨-, parsed⟩ := ok_of_check parsed
  split at parsed
  · cases parsed
  obtain ⟨-, parsed⟩ := ok_of_check parsed
  obtain ⟨-, parsed⟩ := ok_of_check parsed
  obtain ⟨-, parsed⟩ := ok_of_check parsed
  obtain ⟨-, parsed⟩ := ok_of_check parsed
  cases parsed
  exact ⟨rfl, by omega⟩

/-- What an accepted reply must have been. -/
theorem dnsParseReply_ok {msg : List UInt8} {reply : Reply}
    (parsed : dnsParseReply msg = .ok reply) :
    reply.h = hdrDecode msg ∧ hdrLen ≤ msg.length ∧ msg.length ≤ msgMax := by
  obtain ⟨whole, parsed⟩ := ok_of_check parsed
  obtain ⟨short, parsed⟩ := ok_of_check parsed
  obtain ⟨-, parsed⟩ := ok_of_check parsed
  obtain ⟨-, parsed⟩ := ok_of_check parsed
  obtain ⟨-, parsed⟩ := ok_of_check parsed
  obtain ⟨-, parsed⟩ := ok_of_check parsed
  obtain ⟨-, parsed⟩ := ok_of_check parsed
  cases decoded : questionDecode msg hdrLen with
  | error why =>
      rw [decoded] at parsed
      cases parsed
  | ok found =>
      rw [decoded] at parsed
      change (walkRecords msg _ _ _ _ >>= _) = _ at parsed
      cases walked :
          walkRecords msg _ (hdrDecode msg).an.toNat found.2 [] with
      | error why =>
          rw [walked] at parsed
          cases parsed
      | ok kept =>
          rw [walked] at parsed
          obtain ⟨-, parsed⟩ := ok_of_check parsed
          cases parsed
          exact ⟨rfl, by omega, by omega⟩

/-! ## Encoding -/

/-- A header's bytes. -/
def hdrBytes (id flags qd : UInt16) : List UInt8 :=
  dnsPut16 id ++ dnsPut16 flags ++ dnsPut16 qd ++ dnsPut16 0 ++ dnsPut16 0 ++
    dnsPut16 0

/-- A question's bytes. -/
def questionBytes (q : Question) : List UInt8 :=
  q.name ++ dnsPut16 q.qtype ++ dnsPut16 q.qclass

/-- `dns_encode_query`. -/
def dnsEncodeQuery (q : Question) (id : UInt16) (rd : Bool) (cap : Nat) :
    Except Err (List UInt8) :=
  let need := hdrLen + q.name.length + 4
  if q.name.length = 0 then .error .name
  else if need > cap ∨ need > msgMax then .error .cap
  else .ok (hdrBytes id (if rd then flagRd else 0) 1 ++ questionBytes q)

/-- `dns_encode_error`. -/
def dnsEncodeError (id : UInt16) (q : Option Question) (rcode : UInt8)
    (cap : Nat) : Except Err (List UInt8) :=
  let flags := flagQr ||| flagRd ||| flagRa ||| (rcode.toUInt16 &&& flagRcmask)
  match q with
  | none =>
      if hdrLen > cap ∨ hdrLen > msgMax then .error .cap
      else .ok (hdrBytes id flags 0)
  | some q =>
      let need := hdrLen + q.name.length + 4
      if q.name.length = 0 then .error .name
      else if need > cap ∨ need > msgMax then .error .cap
      else .ok (hdrBytes id flags 1 ++ questionBytes q)

theorem hdrBytes_take (id flags qd : UInt16) (rest : List UInt8) :
    (hdrBytes id flags qd ++ rest).take 2 = dnsPut16 id := rfl

/-- An error reply starts with the id it was made for. -/
theorem dnsEncodeError_take {id : UInt16} {q : Option Question} {rcode : UInt8}
    {cap : Nat} {bytes : List UInt8}
    (encoded : dnsEncodeError id q rcode cap = .ok bytes) :
    bytes.take 2 = dnsPut16 id := by
  unfold dnsEncodeError at encoded
  dsimp only at encoded
  repeat' split at encoded
  all_goals cases encoded
  · exact hdrBytes_take id _ _ []
  · exact hdrBytes_take id _ _ _

end RlxFw.Dns
