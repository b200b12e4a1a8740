import RlxFw.DnsWire
import Mathlib.Data.List.FinRange
import Mathlib.Logic.Function.Basic

/-!
# The forwarder

The in-flight table, the rate limit and the three handlers of
`src/dnsfwd/dns.c`.  What a handler sends is part of its result; the clock, the
random draws and the fate of a datagram to the upstream are parameters.
-/

namespace RlxFw.Dns

/-- `dns_on_lan`. -/
def dnsOnLan (src lanIp lanMask : UInt32) : Bool :=
  let net := lanIp &&& lanMask
  let bcast := net ||| ~~~lanMask
  if src = 0 then false
  else if src &&& lanMask ≠ net then false
  else if src = net ∨ src = bcast then false
  else true

/-! ## The in-flight table -/

/-- `DNS_INFLIGHT_MAX`. -/
abbrev inflightMax : Nat := 64
/-- `DNS_TIMEOUT_MS`. -/
def timeoutMs : UInt32 := 4000

/-- A used `struct dns_inflight`. -/
structure Inflight where
  caddr : UInt32
  cport : UInt16
  cid : UInt16
  uid : UInt16
  tMs : UInt32
  q : Question
deriving DecidableEq, Repr

/-- `struct dns_table`; an entry that is not used is `none`. -/
structure Table where
  e : Fin inflightMax → Option Inflight
  nUsed : UInt32

/-- `dns_table_init`. -/
def dnsTableInit : Table := { e := fun _ => none, nUsed := 0 }

/-- `dns_table_add`: the table and the entry's index, or nothing when full. -/
def dnsTableAdd (t : Table) (x : Inflight) : Option (Table × Fin inflightMax) :=
  match (List.finRange inflightMax).find? fun i => (t.e i).isNone with
  | none => none
  | some i =>
      some ({ e := Function.update t.e i (some x), nUsed := t.nUsed + 1 }, i)

/-- `dns_table_uid_used`. -/
def dnsTableUidUsed (t : Table) (uid : UInt16) : Bool :=
  (List.finRange inflightMax).any fun i => (t.e i).any fun x => x.uid == uid

/-- The test of `dns_table_match`. -/
def Inflight.isFor (x : Inflight) (uid : UInt16) (q : Question) : Bool :=
  x.uid == uid && x.q.qtype == q.qtype && x.q.qclass == q.qclass &&
    dnsNameEq x.q.name q.name

/-- `dns_table_match`. -/
def dnsTableMatch (t : Table) (uid : UInt16) (q : Question) :
    Option (Fin inflightMax) :=
  (List.finRange inflightMax).find? fun i => (t.e i).any fun x => x.isFor uid q

/-- `dns_table_free`. -/
def dnsTableFree (t : Table) (i : Fin inflightMax) : Table :=
  match t.e i with
  | none => t
  | some _ => { e := Function.update t.e i none, nUsed := t.nUsed - 1 }

/-- `dns_table_expire`. -/
def dnsTableExpire (t : Table) (nowMs : UInt32) : List (Fin inflightMax) :=
  (List.finRange inflightMax).filter fun i =>
    (t.e i).any fun x => ¬ nowMs - x.tMs < timeoutMs

/-! ## The rate limit -/

/-- `DNS_RATE_SLOTS`. -/
abbrev rateSlots : Nat := 32
/-- `DNS_RATE_CAP_M`. -/
def rateCapM : Nat := 40000
/-- `DNS_RATE_FILL_M`. -/
def rateFillM : Nat := 20
/-- `DNS_RATE_COST_M`. -/
def rateCostM : Nat := 1000

/-- A used slot of `struct dns_rate`. -/
structure RateSlot where
  addr : UInt32
  tokM : Nat
  tMs : UInt32
deriving DecidableEq, Repr

/-- `struct dns_rate`. -/
abbrev Rate := Fin rateSlots → Option RateSlot

/-- `dns_rate_init`. -/
def dnsRateInit : Rate := fun _ => none

/-- The slot seen longest ago, when all are used. -/
def oldestSlot (r : Rate) (nowMs : UInt32) : Fin rateSlots :=
  ((List.finRange rateSlots).foldl
    (fun (best : UInt32 × Fin rateSlots) i =>
      let age := nowMs - ((r i).elim 0 fun s => s.tMs)
      if age ≥ best.1 then (age, i) else best)
    (0, 0)).2

/-- The slot of an address: its own, a free one, or the oldest with its content
forgotten. -/
def rateSlot (r : Rate) (addr nowMs : UInt32) :
    Fin rateSlots × Option RateSlot :=
  match (List.finRange rateSlots).find? fun i =>
      (r i).any fun s => s.addr == addr with
  | some i => (i, r i)
  | none =>
      match (List.finRange rateSlots).find? fun i => (r i).isNone with
      | some i => (i, none)
      | none => (oldestSlot r nowMs, none)

/-- The tokens of a slot at a time. -/
def refilled (nowMs : UInt32) (s : RateSlot) : Nat :=
  min rateCapM (s.tokM + min 1000000 (nowMs - s.tMs).toNat * rateFillM)

/-- `dns_rate_allow`. -/
def dnsRateAllow (r : Rate) (addr nowMs : UInt32) : Rate × Bool :=
  let found := rateSlot r addr nowMs
  let tokM := found.2.elim rateCapM (refilled nowMs)
  if tokM < rateCostM then
    (Function.update r found.1 (some { addr, tokM, tMs := nowMs }), false)
  else
    (Function.update r found.1
      (some { addr, tokM := tokM - rateCostM, tMs := nowMs }), true)

/-! ## The handlers -/

/-- `struct dnsfwd`, without its counters. -/
structure Dnsfwd where
  lanIp : UInt32
  lanMask : UInt32
  upstream : UInt32
  upstreamPort : UInt16
  tbl : Table
  rate : Rate

/-- `dnsfwd_init`. -/
def dnsfwdInit : Dnsfwd where
  lanIp := 0
  lanMask := 0
  upstream := 0
  upstreamPort := dnsPort
  tbl := dnsTableInit
  rate := dnsRateInit

/-- `dnsfwd_config`. -/
def dnsfwdConfig (d : Dnsfwd) (lanIp lanMask upstream : UInt32) : Dnsfwd :=
  { d with lanIp, lanMask, upstream }

/-- `DNS_SOCK_*`. -/
inductive Sock where
  | client
  | upstream
deriving DecidableEq, Repr

/-- A datagram that is sent. -/
structure Sent where
  sock : Sock
  bytes : List UInt8
  addr : UInt32
  port : UInt16
deriving DecidableEq, Repr

/-- `answer`. -/
def answer (id : UInt16) (q : Option Question) (rcode : UInt8) (addr : UInt32)
    (port : UInt16) : List Sent :=
  match dnsEncodeError id q rcode msgMax with
  | .error _ => []
  | .ok out => [{ sock := .client, bytes := out, addr, port }]

/-- What a handler returns. -/
inductive Rc where
  | done
  | dropped
  | failed (why : Err)
deriving DecidableEq, Repr

/-- What a handler does: the forwarder after it, its result, its datagrams. -/
structure Handled where
  d : Dnsfwd
  rc : Rc
  sent : List Sent

/-- What `dnsfwd_on_client` learns from outside: the time, what each draw of a
random id gives, and whether the datagram to the upstream goes out. -/
structure ClientIo where
  now : UInt32
  draws : Fin 4 → Option UInt16
  goesOut : Bool

/-- The rcode of a refusal, if it is answered. -/
def refusalRcode : Err → Option UInt8
  | .qr => none
  | .opcode | .class_ => some rcodeNotimp
  | .rd => some rcodeRefused
  | _ => some rcodeFormerr

/-- `dnsfwd_on_client`, on a query that does not parse. -/
def refuseQuery (d : Dnsfwd) (buf : List UInt8) (src : UInt32) (sport : UInt16)
    (bad : BadQuery) : Handled :=
  match refusalRcode bad.why with
  | none => { d, rc := .dropped, sent := [] }
  | some rcode =>
      if buf.length < 2 then { d, rc := .dropped, sent := [] }
      else
        { d, rc := .failed bad.why
          sent := answer (dnsGet16 buf 0) bad.q rcode src sport }

/-- What the draws of an id come to. -/
inductive Drawn where
  | uid (uid : UInt16)
  | noRandom
  | allUsed

/-- The draws of an id that is not in flight. -/
def drawUid (t : Table) : List (Option UInt16) → Drawn
  | [] => .allUsed
  | none :: _ => .noRandom
  | some uid :: rest =>
      if dnsTableUidUsed t uid then drawUid t rest else .uid uid

/-- `dnsfwd_on_client`, on a query that parses and an id for it. -/
def forwardQuery (d : Dnsfwd) (src : UInt32) (sport : UInt16) (io : ClientIo)
    (query : Query) (uid : UInt16) : Handled :=
  let servfail := answer query.h.id (some query.q) rcodeServfail src sport
  match dnsTableAdd d.tbl
      { caddr := src, cport := sport, cid := query.h.id, uid, tMs := io.now
        q := query.q } with
  | none => { d, rc := .dropped, sent := [] }
  | some (tbl, slot) =>
      match dnsEncodeQuery query.q uid true msgMax with
      | .error why =>
          { d := { d with tbl := dnsTableFree tbl slot }, rc := .failed why
            sent := servfail }
      | .ok out =>
          if io.goesOut then
            { d := { d with tbl }, rc := .done
              sent :=
                [{ sock := .upstream, bytes := out, addr := d.upstream
                   port := d.upstreamPort }] }
          else
            { d := { d with tbl := dnsTableFree tbl slot }, rc := .dropped
              sent := servfail }

/-- `dnsfwd_on_client`. -/
def dnsfwdOnClient (d : Dnsfwd) (buf : List UInt8) (src : UInt32)
    (sport : UInt16) (io : ClientIo) : Handled :=
  if ¬ dnsOnLan src d.lanIp d.lanMask then { d, rc := .dropped, sent := [] }
  else if sport = 0 then { d, rc := .dropped, sent := [] }
  else
    let allowed := dnsRateAllow d.rate src io.now
    let d := { d with rate := allowed.1 }
    if ¬ allowed.2 then { d, rc := .dropped, sent := [] }
    else
      match dnsParseQuery buf with
      | .error bad => refuseQuery d buf src sport bad
      | .ok query =>
          match drawUid d.tbl (List.ofFn io.draws) with
          | .noRandom =>
              { d, rc := .dropped
                sent :=
                  answer query.h.id (some query.q) rcodeServfail src sport }
          | .allUsed => { d, rc := .dropped, sent := [] }
          | .uid uid => forwardQuery d src sport io query uid

/-- `dnsfwd_on_upstream`. -/
def dnsfwdOnUpstream (d : Dnsfwd) (buf : List UInt8) (src : UInt32)
    (sport : UInt16) : Handled :=
  if src ≠ d.upstream ∨ sport ≠ d.upstreamPort then
    { d, rc := .dropped, sent := [] }
  else
    match dnsParseReply buf with
    | .error why => { d, rc := .failed why, sent := [] }
    | .ok reply =>
        match dnsTableMatch d.tbl reply.h.id reply.q with
        | none => { d, rc := .dropped, sent := [] }
        | some i =>
            { d := { d with tbl := dnsTableFree d.tbl i }, rc := .done
              sent :=
                ((d.tbl.e i).map fun x =>
                  ({ sock := .client, bytes := dnsPut16 x.cid ++ buf.drop 2
                     addr := x.caddr, port := x.cport } : Sent)).toList }

/-- One turn of the loop of `dnsfwd_tick`. -/
def tickEntry (d : Dnsfwd) (i : Fin inflightMax) : Dnsfwd × List Sent :=
  ({ d with tbl := dnsTableFree d.tbl i },
    ((d.tbl.e i).map fun x =>
      answer x.cid (some x.q) rcodeServfail x.caddr x.cport).getD [])

/-- The loop of `dnsfwd_tick`. -/
def tickEntries : Dnsfwd → List (Fin inflightMax) → Dnsfwd × List Sent
  | d, [] => (d, [])
  | d, i :: rest =>
      ((tickEntries (tickEntry d i).1 rest).1,
        (tickEntry d i).2 ++ (tickEntries (tickEntry d i).1 rest).2)

/-- `dnsfwd_tick`. -/
def dnsfwdTick (d : Dnsfwd) (now : UInt32) : Dnsfwd × List Sent :=
  tickEntries d (dnsTableExpire d.tbl now)

end RlxFw.Dns
