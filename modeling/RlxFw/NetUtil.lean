import Mathlib.Data.Finset.Basic
import RlxFw.Ascii

/-!
# Addresses, masks and the routing requests

`src/lib/netutil.c`: the parser of dotted quads, the netmask checks, and the
`ioctl` requests that set an address and a default route.  The kernel behind the
requests is a parameter; `Kernel.Lawful` says what is relied on.
-/

namespace RlxFw.Net

/-- The `NU_E_*` reasons. -/
inductive NuErr where
  | empty
  | long
  | char
  | octlen
  | leadzero
  | range
  | fields
  | dot
  | mask
  | outsideLengths
  | ifname
  | ioctl
deriving DecidableEq, Repr

/-- `nu_strerror`. -/
def nuStrerror : NuErr → String
  | .empty => "empty"
  | .long => "too-long"
  | .char => "bad-char"
  | .octlen => "octet-too-long"
  | .leadzero => "leading-zero"
  | .range => "octet-over-255"
  | .fields => "not-four-octets"
  | .dot => "misplaced-dot"
  | .mask => "mask-not-contiguous"
  | .outsideLengths => "prefix-out-of-range"
  | .ifname => "bad-ifname"
  | .ioctl => "ioctl-failed"

/-- `NU_QUAD_MAX`. -/
def nuQuadMax : Nat := 15
/-- `NU_IFNAME_MAX`. -/
def nuIfnameMax : Nat := 15

/-! ## Parsing -/

/-- `s[i] >= '0' && s[i] <= '9'`. -/
def digit (c : UInt8) : Bool := 0x30 ≤ c && c ≤ 0x39

/-- The digits of an octet, `digits` of them read with the value `v`. -/
def octetDigits (digits v : Nat) : List UInt8 → Except NuErr (Nat × List UInt8)
  | [] => .ok (v, [])
  | c :: s =>
      if digit c then
        if 3 < digits + 1 then .error .octlen
        else octetDigits (digits + 1) (v * 10 + (c.toNat - 0x30)) s
      else .ok (v, c :: s)

/-- An octet and what follows it. -/
def octet (s : List UInt8) : Except NuErr (Nat × List UInt8) :=
  match s with
  | [] => .error .fields
  | c :: rest =>
      if c = 0x2E then .error .dot
      else if ¬ digit c then .error .char
      else if c = 0x30 ∧ rest.head?.any digit then .error .leadzero
      else
        match octetDigits 0 0 s with
        | .error e => .error e
        | .ok (v, after) =>
            if 255 < v then .error .range
            else if after.head?.any (· ≠ 0x2E) then .error .char
            else .ok (v, after)

/-- The octets that are left, the first preceded by its dot. -/
def octets (acc : UInt32) : Nat → List UInt8 → Except NuErr UInt32
  | 0, [] => .ok acc
  | 0, _ :: _ => .error .fields
  | _ + 1, [] => .error .fields
  | left + 1, c :: s =>
      if c ≠ 0x2E then .error .dot
      else
        match octet s with
        | .error e => .error e
        | .ok (v, after) => octets (acc <<< 8 ||| UInt32.ofNat v) left after

/-- `nu_parse_ipv4_n`. -/
def nuParseIpv4N (s : List UInt8) : Except NuErr UInt32 :=
  if s.length = 0 then .error .empty
  else if nuQuadMax < s.length then .error .long
  else
    match octet s with
    | .error e => .error e
    | .ok (v, after) => octets (UInt32.ofNat v) 3 after

/-- `nu_parse_ipv4`. -/
def nuParseIpv4 (s : List UInt8) : Except NuErr UInt32 :=
  if nuQuadMax < s.length then .error .long else nuParseIpv4N s

example : nuParseIpv4 (ascii "192.168.1.50") = .ok 0xC0A80132 := by decide
example : nuParseIpv4 (ascii "1.2.3.04") = .error .leadzero := by decide

/-! ## Formatting -/

/-- The digits of an octet. -/
def octetText (v : Nat) : List UInt8 :=
  (if 100 ≤ v then [UInt8.ofNat (0x30 + v / 100)] else []) ++
    (if 10 ≤ v then [UInt8.ofNat (0x30 + v / 10 % 10)] else []) ++
      [UInt8.ofNat (0x30 + v % 10)]

/-- The octets of an address, from `oct` down to 0, each but the first after a dot. -/
def quadText (ip : UInt32) : List UInt8 :=
  octetText ((ip >>> 24 &&& 0xFF).toNat) ++
    0x2E :: octetText ((ip >>> 16 &&& 0xFF).toNat) ++
      0x2E :: octetText ((ip >>> 8 &&& 0xFF).toNat) ++
        0x2E :: octetText ((ip &&& 0xFF).toNat)

/-- `nu_format_ipv4` into a buffer of `n` bytes; what it refuses is `NU_E_SPACE`. -/
def nuFormatIpv4 (ip : UInt32) (n : Nat) : Option (List UInt8) :=
  if n = 0 then none
  else if (quadText ip).length + 1 > n then none
  else some (quadText ip)

/-! ## Masks -/

/-- The ones at the top of `mask`, counted from `bit` down. -/
def leadingOnes (mask : UInt32) : Nat → UInt32 → Nat → Nat
  | 0, _, p => p
  | steps + 1, bit, p =>
      if mask &&& bit ≠ 0 then leadingOnes mask steps (bit >>> 1) (p + 1) else p

/-- `nu_mask_prefix`. -/
def nuMaskPrefix (mask : UInt32) : Except NuErr Nat :=
  let p := leadingOnes mask 32 0x80000000 0
  if p < 32 ∧ mask &&& (0xFFFFFFFF >>> UInt32.ofNat p) ≠ 0 then .error .mask
  else .ok p

/-- `nu_mask_ok`. -/
def nuMaskOk (mask : UInt32) (lo hi : Nat) : Except NuErr Unit :=
  match nuMaskPrefix mask with
  | .error e => .error e
  | .ok p => if p < lo ∨ hi < p then .error .outsideLengths else .ok ()

/-- `nu_is_unicast`. -/
def nuIsUnicast (ip : UInt32) : Bool :=
  ip ≠ 0 && ip ≠ 0xFFFFFFFF && ip >>> 24 ≠ 127 && ip >>> 28 < 0xE

/-- `nu_is_net_or_bcast`. -/
def nuIsNetOrBcast (ip mask : UInt32) : Bool :=
  let host := ip &&& ~~~mask
  mask ≠ 0xFFFFFFFF && (host = 0 || host = ~~~mask)

/-- A byte of an interface name. -/
def ifnameByte (c : UInt8) : Bool :=
  (0x41 ≤ c && c ≤ 0x5A) || (0x61 ≤ c && c ≤ 0x7A) || digit c ||
    c = 0x2E || c = 0x5F || c = 0x2D

/-- `nu_ifname_ok`. -/
def nuIfnameOk (name : List UInt8) : Bool :=
  name.length ≠ 0 && name.length ≤ nuIfnameMax && name.all ifnameByte

/-! ## The requests -/

/-- What a route is deleted by. -/
structure Route where
  dst : UInt32
  genmask : UInt32
  gateway : UInt32
  dev : List UInt8
deriving DecidableEq, Repr

/-- `struct rtentry`. -/
structure Rtentry where
  route : Route
  flags : UInt16
  metric : Nat
deriving DecidableEq, Repr

/-- The `ioctl` requests. -/
inductive Request where
  | setAddr (ifname : List UInt8) (ip : UInt32)
  | setMask (ifname : List UInt8) (mask : UInt32)
  | getFlags (ifname : List UInt8)
  | setFlags (ifname : List UInt8) (flags : UInt16)
  | addRoute (rt : Rtentry)
  | delRoute (rt : Rtentry)
deriving DecidableEq, Repr

/-- The kernel: its answers, and what it holds of the interfaces. -/
structure Kernel (World : Type*) where
  /-- `sock_ioctl`: the flags it writes back, or the `errno`. -/
  ioctl : World → Request → World × Except Nat UInt16
  /-- `write_dns`. -/
  writeDns : World → List UInt32 → World × Bool
  table : World → Finset Route
  addr : World → List UInt8 → UInt32
  mask : World → List UInt8 → UInt32

variable {World : Type*}

/-- What is relied on of the kernel.  Setting what an interface already has is
nothing; another address, or another mask, takes the old address away first, and
with it every route through the interface. -/
structure Kernel.Lawful (k : Kernel World) : Prop where
  addr_same : ∀ w dev ip flags, (k.ioctl w (.setAddr dev ip)).2 = .ok flags →
    k.addr w dev = ip →
      k.table (k.ioctl w (.setAddr dev ip)).1 = k.table w ∧
        k.mask (k.ioctl w (.setAddr dev ip)).1 dev = k.mask w dev
  addr_other : ∀ w dev ip flags, (k.ioctl w (.setAddr dev ip)).2 = .ok flags →
    k.addr w dev ≠ ip →
      k.table (k.ioctl w (.setAddr dev ip)).1 = (k.table w).filter (·.dev ≠ dev)
  mask_same : ∀ w dev mask flags, (k.ioctl w (.setMask dev mask)).2 = .ok flags →
    k.mask w dev = mask → k.table (k.ioctl w (.setMask dev mask)).1 = k.table w
  mask_other : ∀ w dev mask flags, (k.ioctl w (.setMask dev mask)).2 = .ok flags →
    k.mask w dev ≠ mask →
      k.table (k.ioctl w (.setMask dev mask)).1 = (k.table w).filter (·.dev ≠ dev)
  get_flags : ∀ w dev, k.table (k.ioctl w (.getFlags dev)).1 = k.table w
  set_flags : ∀ w dev flags, k.table (k.ioctl w (.setFlags dev flags)).1 = k.table w
  deletes : ∀ w rt,
    k.table (k.ioctl w (.delRoute rt)).1 = (k.table w).erase rt.route
  adds : ∀ w rt flags, (k.ioctl w (.addRoute rt)).2 = .ok flags →
    k.table (k.ioctl w (.addRoute rt)).1 = insert rt.route (k.table w)
  dns : ∀ w servers, k.table (k.writeDns w servers).1 = k.table w

/-- `do_ioctl` behind `ifreq_prep`. -/
def doIoctl (k : Kernel World) (w : World) (ifname : List UInt8) (req : Request) :
    World × Except NuErr UInt16 :=
  if nuIfnameOk ifname then
    match k.ioctl w req with
    | (w, .ok flags) => (w, .ok flags)
    | (w, .error _) => (w, .error .ioctl)
  else (w, .error .ifname)

/-- `nu_if_set_addr`. -/
def nuIfSetAddr (k : Kernel World) (w : World) (ifname : List UInt8) (ip : UInt32) :
    World × Except NuErr UInt16 :=
  doIoctl k w ifname (.setAddr ifname ip)

/-- `nu_if_set_mask`. -/
def nuIfSetMask (k : Kernel World) (w : World) (ifname : List UInt8) (mask : UInt32) :
    World × Except NuErr UInt16 :=
  doIoctl k w ifname (.setMask ifname mask)

/-- `IFF_UP`. -/
def iffUp : UInt16 := 1

/-- `nu_if_set_flags`. -/
def nuIfSetFlags (k : Kernel World) (w : World) (ifname : List UInt8) (up : Bool) :
    World × Except NuErr UInt16 :=
  match doIoctl k w ifname (.getFlags ifname) with
  | (w, .error e) => (w, .error e)
  | (w, .ok flags) =>
      doIoctl k w ifname
        (.setFlags ifname (if up then flags ||| iffUp else flags &&& ~~~iffUp))

/-- `RTF_UP | RTF_GATEWAY`. -/
def rtfUpGateway : UInt16 := 3

/-- `route_prep`. -/
def routePrep (ifname : List UInt8) (gw : UInt32) : Rtentry where
  route := { dst := 0, genmask := 0, gateway := gw, dev := ifname }
  flags := rtfUpGateway
  metric := 0

/-- `nu_route_default_add`. -/
def nuRouteDefaultAdd (k : Kernel World) (w : World) (ifname : List UInt8)
    (gw : UInt32) : World × Except NuErr UInt16 :=
  doIoctl k w ifname (.addRoute (routePrep ifname gw))

/-- `ESRCH`. -/
def esrch : Nat := 3
/-- `ENOENT`. -/
def enoent : Nat := 2

/-- `nu_route_default_del`: a route that is not there is no failure. -/
def nuRouteDefaultDel (k : Kernel World) (w : World) (ifname : List UInt8)
    (gw : UInt32) : World × Except NuErr UInt16 :=
  if nuIfnameOk ifname then
    match k.ioctl w (.delRoute (routePrep ifname gw)) with
    | (w, .ok flags) => (w, .ok flags)
    | (w, .error errno) =>
        if errno = esrch ∨ errno = enoent then (w, .ok 0) else (w, .error .ioctl)
  else (w, .error .ifname)

/-! ## What the requests leave -/

section Left

variable {k : Kernel World} {w : World} {ifname : List UInt8}

theorem doIoctl_ok {req : Request} {w' : World} {flags : UInt16}
    (made : doIoctl k w ifname req = (w', .ok flags)) :
    (k.ioctl w req).2 = .ok flags ∧ (k.ioctl w req).1 = w' := by
  unfold doIoctl at made
  split at made
  · generalize answered : k.ioctl w req = answer at made
    obtain ⟨after, result⟩ := answer
    cases result with
    | error errno => simp at made
    | ok value =>
        simp only [Prod.mk.injEq, Except.ok.injEq] at made
        exact ⟨congrArg _ made.2, made.1⟩
  · simp at made

theorem doIoctl_world (w : World) (ifname : List UInt8) (req : Request) :
    (doIoctl k w ifname req).1 = w ∨
      (doIoctl k w ifname req).1 = (k.ioctl w req).1 := by
  unfold doIoctl
  split
  · right
    generalize k.ioctl w req = answer
    obtain ⟨after, result⟩ := answer
    cases result <;> rfl
  · exact .inl rfl

theorem nuIfSetFlags_table (lawful : k.Lawful) (w : World) (ifname : List UInt8)
    (up : Bool) :
    k.table (nuIfSetFlags k w ifname up).1 = k.table w := by
  have flagsKept : ∀ w : World,
      k.table (doIoctl k w ifname (.getFlags ifname)).1 = k.table w := by
    intro w
    rcases doIoctl_world (k := k) w ifname (.getFlags ifname)
      with same | asked
    · rw [same]
    · rw [asked, lawful.get_flags]
  unfold nuIfSetFlags
  have first := flagsKept w
  generalize doIoctl k w ifname (.getFlags ifname) = answer at first ⊢
  obtain ⟨after, result⟩ := answer
  cases result with
  | error e => exact first
  | ok flags =>
      rcases doIoctl_world (k := k) after ifname
        (.setFlags ifname (if up then flags ||| iffUp else flags &&& ~~~iffUp))
        with same | asked
      · exact (congrArg k.table same).trans first
      · exact (congrArg k.table asked).trans
          ((lawful.set_flags after ifname _).trans first)

theorem nuRouteDefaultDel_table (lawful : k.Lawful) (named : nuIfnameOk ifname = true)
    (gw : UInt32) :
    k.table (nuRouteDefaultDel k w ifname gw).1 =
      (k.table w).erase (routePrep ifname gw).route := by
  rw [← lawful.deletes w (routePrep ifname gw)]
  unfold nuRouteDefaultDel
  rw [if_pos named]
  generalize k.ioctl w (.delRoute (routePrep ifname gw)) = answer
  obtain ⟨after, result⟩ := answer
  cases result with
  | ok flags => rfl
  | error errno =>
      by_cases missing : errno = esrch ∨ errno = enoent <;> simp [missing]

end Left

end RlxFw.Net
