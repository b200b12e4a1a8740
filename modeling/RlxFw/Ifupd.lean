import RlxFw.NetUtil
import RlxFw.Reactor

/-!
# What `ifupd` does with a lease

`src/ifupd/netcfg.c`: the environment of a lease is read and validated, then the
address, the mask, the flags and the default route are set, and the resolvers
written.  A bad router does not throw away a good address.
-/

namespace RlxFw.Ifupd

open Net

/-- `IFU_DNS_MAX`. -/
def ifuDnsMax : Nat := 3
/-- `IFU_NOTE_MAX`. -/
def ifuNoteMax : Nat := 8
/-- `IFU_DNS_SCAN`. -/
def ifuDnsScan : Nat := 256

/-- `enum ifu_rc`. -/
inductive IfuRc where
  | ifuOk
  | ifuPartial
  | ifuRefused
deriving DecidableEq, Repr

/-- `enum ifu_event`. -/
inductive IfuEvent where
  | deconfig
  | bound
  | renew
  | nak
  | leasefail
  | unknown
deriving DecidableEq, Repr

/-- The values the program asks its environment for, absent or as C strings. -/
structure Env where
  interface : Option (List UInt8)
  ip : Option (List UInt8)
  subnet : Option (List UInt8)
  router : Option (List UInt8)
  dns : Option (List UInt8)
deriving DecidableEq, Repr

/-- `struct ifu_result`. -/
structure IfuResult where
  rc : IfuRc := .ifuOk
  reason : String := "ok"
  detail : String := ""
  event : IfuEvent := .unknown
  didAddr : Bool := false
  didMask : Bool := false
  didUp : Bool := false
  didRouteAdd : Bool := false
  didRouteDel : Bool := false
  didDns : Bool := false
  ip : UInt32 := 0
  mask : UInt32 := 0
  gw : UInt32 := 0
  dns : List UInt32 := []
  ifname : List UInt8 := []
  notes : List String := []
deriving DecidableEq, Repr

/-- `note`. -/
def note (r : IfuResult) (t : String) : IfuResult :=
  if r.notes.length < ifuNoteMax then { r with notes := r.notes ++ [t] } else r

/-- `refuse`. -/
def refuse (r : IfuResult) (reason detail : String) : IfuResult :=
  { r with rc := .ifuRefused, reason := reason, detail := detail }

/-- A step that failed with the address kept. -/
def inPart (r : IfuResult) (reason detail : String) : IfuResult :=
  { r with rc := .ifuPartial, reason := reason, detail := detail }

/-- `ifu_event_of`. -/
def ifuEventOf (name : List UInt8) : IfuEvent :=
  if name = ascii "deconfig" then .deconfig
  else if name = ascii "bound" then .bound
  else if name = ascii "renew" then .renew
  else if name = ascii "nak" then .nak
  else if name = ascii "leasefail" then .leasefail
  else .unknown

/-- What `get_bounded` finds. -/
inductive Bounded where
  | absent
  | tooLong (raw : List UInt8)
  | value (s : List UInt8)
deriving DecidableEq, Repr

/-- `get_bounded`. -/
def getBounded (value : Option (List UInt8)) (max : Nat) : Bounded :=
  match value with
  | none => .absent
  | some [] => .absent
  | some s => if max < s.length then .tooLong s else .value s

/-! ## The resolvers -/

/-- A byte between two resolvers. -/
def separator (c : UInt8) : Bool := c = 0x20 || c = 0x09 || c = 0x2C

/-- What `ifu_dns_list` returns. -/
structure DnsList where
  out : List UInt32 := []
  more : Bool := false
  bad : Nat := 0
deriving DecidableEq, Repr

/-- What becomes of one token of the list. -/
def dnsToken (max : Nat) (list : DnsList) (token : List UInt8) : DnsList :=
  if nuQuadMax < token.length then { list with bad := list.bad + 1 }
  else
    match nuParseIpv4N token with
    | .error _ => { list with bad := list.bad + 1 }
    | .ok v =>
        if ¬ nuIsUnicast v then { list with bad := list.bad + 1 }
        else if max ≤ list.out.length then { list with more := true }
        else { list with out := list.out ++ [v] }

/-- `ifu_dns_list`: the tokens of the bytes that are scanned. -/
def ifuDnsList (s : Option (List UInt8)) (max : Nat) : DnsList :=
  match s with
  | none => {}
  | some s =>
      if max = 0 then {}
      else
        (((s.take ifuDnsScan).splitOnP separator).filter (· ≠ [])).foldl
          (dnsToken max) {}

/-! ## The router -/

/-- What the lease says of its router. -/
inductive RouterRead where
  | absent
  | listUnparsable
  | bad (e : NuErr)
  | listFirst (gw : UInt32)
  | single (gw : UInt32)
deriving DecidableEq, Repr

/-- The first token of a list of routers. -/
def firstRouter (raw : List UInt8) : List UInt8 :=
  (raw.take (nuQuadMax + 1)).takeWhile fun c => c ≠ 0x20 && c ≠ 0x09

/-- The router of a lease; a value that is too long is taken for a list. -/
def readRouter (value : Option (List UInt8)) : RouterRead :=
  match getBounded value nuQuadMax with
  | .absent => .absent
  | .tooLong raw =>
      if (firstRouter raw).length = 0 ∨ nuQuadMax < (firstRouter raw).length then
        .listUnparsable
      else
        match nuParseIpv4N (firstRouter raw) with
        | .error _ => .listUnparsable
        | .ok gw => .listFirst gw
  | .value s =>
      match nuParseIpv4 s with
      | .error e => .bad e
      | .ok gw => .single gw

/-- The router that was read. -/
def RouterRead.gateway : RouterRead → Option UInt32
  | .listFirst gw => some gw
  | .single gw => some gw
  | _ => none

/-- What is noted of the router. -/
def noteRouter (read : RouterRead) (r : IfuResult) : IfuResult :=
  match read with
  | .absent => r
  | .listUnparsable =>
      { note (note r "router-list-truncated") "router-unparsable" with
        rc := .ifuPartial, reason := "router-unparsable" }
  | .bad e => inPart (note r "router-unparsable") "bad-router" (nuStrerror e)
  | .listFirst gw => { note r "router-list-truncated" with gw := gw }
  | .single gw => { r with gw := gw }

/-- Why a gateway is not used. -/
def gatewayRefusal (ip mask gw : UInt32) : Option String :=
  if ¬ nuIsUnicast gw then some "gw-not-unicast"
  else if gw &&& mask ≠ ip &&& mask then some "gw-off-subnet"
  else if gw = ip then some "gw-is-self"
  else none

/-! ## The run -/

variable {World : Type*}

/-- `do_deconfig`. -/
def doDeconfig (k : Kernel World) (w : World) (r : IfuResult) : World × IfuResult :=
  let up := nuIfSetFlags k w r.ifname true
  let r := match up.2 with
    | .ok _ => { r with didUp := true }
    | .error _ => note r "up-failed"
  let addr := nuIfSetAddr k up.1 r.ifname 0
  let r := match addr.2 with
    | .ok _ => { r with didAddr := true }
    | .error e => inPart (note r "addr-clear-failed") "addr-clear-failed" (nuStrerror e)
  let dns := k.writeDns addr.1 []
  (dns.1, if dns.2 then { r with didDns := true } else note r "wan-dns-write-failed")

/-- The address and the mask of a lease, validated with nothing applied. -/
def readLease (env : Env) (r : IfuResult) : Except IfuResult IfuResult :=
  match getBounded env.ip nuQuadMax with
  | .tooLong _ => .error (refuse r "ip-too-long" "too-long")
  | .absent => .error (refuse r "no-ip" "")
  | .value s =>
  match nuParseIpv4 s with
  | .error e => .error (refuse r "bad-ip" (nuStrerror e))
  | .ok ip =>
  let r := { r with ip := ip }
  match getBounded env.subnet nuQuadMax with
  | .tooLong _ => .error (refuse r "subnet-too-long" "too-long")
  | .absent => .error (refuse r "no-subnet" "")
  | .value s =>
  match nuParseIpv4 s with
  | .error e => .error (refuse r "bad-subnet" (nuStrerror e))
  | .ok mask =>
  let r := { r with mask := mask }
  match nuMaskOk mask 8 30 with
  | .error e => .error (refuse r "bad-netmask" (nuStrerror e))
  | .ok () =>
  if ¬ nuIsUnicast ip then .error (refuse r "ip-not-unicast" "")
  else if nuIsNetOrBcast ip mask then
    .error (refuse r "ip-is-network-or-broadcast" "")
  else .ok r

/-- The mask is set. -/
def setMask (k : Kernel World) (s : World × IfuResult) : World × IfuResult :=
  match nuIfSetMask k s.1 s.2.ifname s.2.mask with
  | (w, .ok _) => (w, { s.2 with didMask := true })
  | (w, .error e) =>
      (w, inPart (note s.2 "mask-ioctl-failed") "mask-ioctl-failed" (nuStrerror e))

/-- The interface is brought up. -/
def setUp (k : Kernel World) (s : World × IfuResult) : World × IfuResult :=
  match nuIfSetFlags k s.1 s.2.ifname true with
  | (w, .ok _) => (w, { s.2 with didUp := true })
  | (w, .error _) => (w, note s.2 "up-failed")

/-- A default route through `gw` is deleted. -/
def deleteRoute (k : Kernel World) (gw : UInt32) (s : World × IfuResult) :
    World × IfuResult :=
  match nuRouteDefaultDel k s.1 s.2.ifname gw with
  | (w, .ok _) => (w, { s.2 with didRouteDel := true })
  | (w, .error _) => (w, s.2)

/-- The default route through `gw` is added. -/
def addRoute (k : Kernel World) (gw : UInt32) (s : World × IfuResult) :
    World × IfuResult :=
  match nuRouteDefaultAdd k s.1 s.2.ifname gw with
  | (w, .ok _) => (w, { s.2 with didRouteAdd := true })
  | (w, .error e) =>
      (w, inPart (note s.2 "route-ioctl-failed") "route-ioctl-failed" (nuStrerror e))

/-- The router, whose refusal is partial and not fatal. -/
def setRouter (k : Kernel World) (env : Env) (s : World × IfuResult) :
    World × IfuResult :=
  let read := readRouter env.router
  let r := noteRouter read s.2
  match read.gateway with
  | none =>
      (s.1, if r.rc = .ifuOk then note r "no-router-no-default-route" else r)
  | some gw =>
      match gatewayRefusal r.ip r.mask gw with
      | some reason =>
          (s.1, { note r reason with rc := .ifuPartial, reason := reason })
      | none => addRoute k gw (deleteRoute k gw (s.1, r))

/-- The resolvers are written. -/
def setResolvers (k : Kernel World) (env : Env) (s : World × IfuResult) :
    World × IfuResult :=
  let list := ifuDnsList env.dns ifuDnsMax
  let r := { s.2 with dns := list.out }
  let r := if list.more then note r "dns-truncated" else r
  let r := if 0 < list.bad then note r "dns-entry-refused" else r
  let written := k.writeDns s.1 list.out
  (written.1,
    if written.2 then { r with didDns := true } else note r "wan-dns-write-failed")

/-- `do_bound`. -/
def doBound (k : Kernel World) (w : World) (r : IfuResult) (env : Env) :
    World × IfuResult :=
  match readLease env r with
  | .error r => (w, r)
  | .ok r =>
  match nuIfSetAddr k w r.ifname r.ip with
  | (w, .error e) => (w, inPart r "addr-ioctl-failed" (nuStrerror e))
  | (w, .ok _) =>
      setResolvers k env (setRouter k env (setUp k (setMask k
        (w, { r with didAddr := true }))))

/-- `ifu_run`. -/
def ifuRun (k : Kernel World) (w : World) (event : List UInt8) (env : Env) :
    World × IfuResult :=
  let r : IfuResult := { event := ifuEventOf event }
  if r.event = .unknown then (w, refuse r "unknown-event" "")
  else
    match getBounded env.interface nuIfnameMax with
    | .tooLong _ => (w, refuse r "interface-too-long" "too-long")
    | .absent => (w, refuse r "no-interface" "")
    | .value s =>
        if ¬ nuIfnameOk s then (w, refuse r "bad-ifname" (nuStrerror .ifname))
        else
          match r.event with
          | .bound => doBound k w { r with ifname := s } env
          | .renew => doBound k w { r with ifname := s } env
          | _ => doDeconfig k w { r with ifname := s }

/-- The program as `udhcpc` starts it: an event with its environment. -/
def ifupd (k : Kernel World) : Reactor World (List UInt8 × Env) IfuResult where
  step w e := ((ifuRun k w e.1 e.2).1, [(ifuRun k w e.1 e.2).2])

end RlxFw.Ifupd
