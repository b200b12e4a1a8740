import RlxFw.AddressClasses
import RlxFw.IfupdRoutes
import RlxFw.Trail

/-!
# Hostile leases

The strings of a lease come from whoever answers first.  The kernel is run with
a trail of what it was asked and of the resolvers that were written: a refused
lease leaves none, and what another one leaves is well formed.
-/

namespace RlxFw.Net

open Netmask (IsMask IsHost)

/-- What is done to the kernel and to the resolvers' file. -/
inductive Effect where
  | asked (req : Request)
  | wrote (servers : List UInt32)

/-- The interface that a request is about. -/
def Request.dev : Request → List UInt8
  | .setAddr dev _ => dev
  | .setMask dev _ => dev
  | .getFlags dev => dev
  | .setFlags dev _ => dev
  | .addRoute rt => rt.route.dev
  | .delRoute rt => rt.route.dev

/-- The kernel with its trail. -/
def Kernel.trailed {World : Type*} (k : Kernel World) :
    Kernel (Trailed World Effect) where
  ioctl s req := (s.record (k.ioctl s.world req).1 (.asked req),
    (k.ioctl s.world req).2)
  writeDns s servers := (s.record (k.writeDns s.world servers).1 (.wrote servers),
    (k.writeDns s.world servers).2)
  table s := k.table s.world
  addr s := k.addr s.world
  mask s := k.mask s.world

/-- An address that a single host may have. -/
structure IsUnicast (a : UInt32) : Prop where
  ne_zero : a ≠ 0
  not_loopback : a >>> 24 ≠ 127
  below_multicast : a < 0xE0000000

theorem isUnicast_of_nuIsUnicast {a : UInt32} (passed : nuIsUnicast a = true) :
    IsUnicast a := by
  unfold nuIsUnicast at passed
  simp only [Bool.and_eq_true, decide_eq_true_eq, ne_eq] at passed
  obtain ⟨⟨⟨zero, -⟩, loopback⟩, top⟩ := passed
  refine ⟨by simpa using zero, by simpa using loopback, ?_⟩
  have small := UInt32.lt_iff_toNat_lt.mp top
  rw [UInt32.toNat_shiftRight, Nat.shiftRight_eq_div_pow] at small
  rw [UInt32.lt_iff_toNat_lt]
  change a.toNat / 2 ^ 28 < 14 at small
  change a.toNat < 0xE0000000
  omega

/-! ## Masks -/

/-- A mask that passes is a prefix within its bounds. -/
theorem isMask_of_nuMaskOk {mask : UInt32} {lo hi : Nat} {u : Unit}
    (passed : nuMaskOk mask lo hi = .ok u) :
    ∃ p, lo ≤ p ∧ p ≤ hi ∧ IsMask mask (32 - p) := by
  unfold nuMaskOk at passed
  split at passed
  · cases passed
  · next p isPrefix =>
    split at passed
    · cases passed
    · next within =>
      rw [not_or, Nat.not_lt, Nat.not_lt] at within
      exact ⟨p, within.1, within.2, (isMask_of_nuMaskPrefix isPrefix).2⟩

/-- An address that is neither end of its subnet is a host of it. -/
theorem isHost_of_not_netOrBcast {ip mask : UInt32} (partly : mask ≠ 0xFFFFFFFF)
    (passed : nuIsNetOrBcast ip mask = false) : IsHost ip mask ip := by
  unfold nuIsNetOrBcast at passed
  simp only [ne_eq, partly, not_false_eq_true, decide_true, Bool.true_and,
    Bool.or_eq_false_iff, decide_eq_false_iff_not] at passed
  refine ⟨rfl, fun edge => passed.1 ?_, fun edge => passed.2 ?_⟩
  · rw [edge, Netmask.net, UInt32.and_assoc, UInt32.and_not_self]
    simp
  · rw [edge, Netmask.bcast]
    apply UInt32.eq_of_toBitVec_eq
    ext i inside
    simpa using Or.inr

end RlxFw.Net

namespace RlxFw.Ifupd

open Net
open Netmask (IsMask IsHost)

variable {World : Type*}

/-! ## What a lease may do -/

/-- A lease whose address and mask are well formed. -/
structure WellFormed (env : Env) (ip mask : UInt32) : Prop where
  ipText : ∃ text, env.ip = some text ∧ nuParseIpv4 text = .ok ip
  maskText : ∃ text, env.subnet = some text ∧ nuParseIpv4 text = .ok mask
  isMask : ∃ p, 8 ≤ p ∧ p ≤ 30 ∧ IsMask mask (32 - p)
  unicast : IsUnicast ip
  host : IsHost ip mask ip

/-- A gateway through which the lease's default route may go. -/
structure GoodGateway (ip mask gw : UInt32) : Prop where
  unicast : IsUnicast gw
  onSubnet : gw &&& mask = ip &&& mask
  other : gw ≠ ip

/-- What a lease may do. -/
def LeaseAllows (dev : List UInt8) (ip mask : UInt32) : Effect → Prop
  | .asked (.setAddr d a) => d = dev ∧ a = ip
  | .asked (.setMask d m) => d = dev ∧ m = mask
  | .asked (.getFlags d) => d = dev
  | .asked (.setFlags d _) => d = dev
  | .asked (.delRoute rt) => rt.route.dev = dev
  | .asked (.addRoute rt) =>
      ∃ gw, rt = routePrep dev gw ∧ GoodGateway ip mask gw
  | .wrote servers => servers.length ≤ ifuDnsMax ∧ ∀ a ∈ servers, IsUnicast a

/-- What an event without a lease may do. -/
def ClearAllows (dev : List UInt8) : Effect → Prop
  | .asked (.setAddr d a) => d = dev ∧ a = 0
  | .asked (.getFlags d) => d = dev
  | .asked (.setFlags d _) => d = dev
  | .asked _ => False
  | .wrote servers => servers = []

/-- A state of the run, its trail before its result. -/
abbrev Going (World : Type*) := Trailed World Effect × IfuResult

/-- A step of a lease: what it did is allowed, and it neither changes the lease
nor refuses it. -/
structure Steps (Allowed : Effect → Prop) (s s' : Going World) : Prop where
  within : Trailed.Within Allowed s.1 s'.1
  ifname : s'.2.ifname = s.2.ifname
  ip : s'.2.ip = s.2.ip
  mask : s'.2.mask = s.2.mask
  rc : s.2.rc ≠ .ifuRefused → s'.2.rc ≠ .ifuRefused

section Steps

variable {Allowed : Effect → Prop} {s s' s'' : Going World}

theorem Steps.trans (first : Steps Allowed s s') (second : Steps Allowed s' s'') :
    Steps Allowed s s'' where
  within := first.within.trans second.within
  ifname := second.ifname.trans first.ifname
  ip := second.ip.trans first.ip
  mask := second.mask.trans first.mask
  rc fine := second.rc (first.rc fine)

@[simp]
theorem note_ip (r : IfuResult) (t : String) : (note r t).ip = r.ip := by
  unfold note
  split <;> rfl

@[simp]
theorem note_mask (r : IfuResult) (t : String) : (note r t).mask = r.mask := by
  unfold note
  split <;> rfl

variable (k : Kernel World) (w : Trailed World Effect) (dev : List UInt8)

theorem doIoctl_within {req : Request} (allowed : Allowed (.asked req)) :
    Trailed.Within Allowed w (doIoctl k.trailed w dev req).1 := by
  rcases doIoctl_world (k := k.trailed) w dev req with same | asked
  · rw [same]
    exact .refl w
  · rw [asked]
    exact .record _ allowed

theorem nuIfSetFlags_within (up : Bool) (asks : Allowed (.asked (.getFlags dev)))
    (sets : ∀ flags, Allowed (.asked (.setFlags dev flags))) :
    Trailed.Within Allowed w (nuIfSetFlags k.trailed w dev up).1 := by
  have read := doIoctl_within k w dev asks
  unfold nuIfSetFlags
  generalize doIoctl k.trailed w dev (.getFlags dev) = answer at read ⊢
  obtain ⟨after, result⟩ := answer
  cases result with
  | error e => exact read
  | ok flags => exact read.trans (doIoctl_within k after dev (sets _))

theorem nuRouteDefaultDel_within (gw : UInt32)
    (allowed : Allowed (.asked (.delRoute (routePrep dev gw)))) :
    Trailed.Within Allowed w (nuRouteDefaultDel k.trailed w dev gw).1 := by
  unfold nuRouteDefaultDel
  split
  · have asked : Trailed.Within Allowed w
        (k.trailed.ioctl w (.delRoute (routePrep dev gw))).1 := .record _ allowed
    generalize k.trailed.ioctl w (.delRoute (routePrep dev gw)) = answer at asked ⊢
    obtain ⟨after, result⟩ := answer
    cases result with
    | ok flags => exact asked
    | error errno => by_cases gone : errno = esrch ∨ errno = enoent <;> simpa [gone]
  · exact .refl w

end Steps

section Lease

variable {ip mask : UInt32} {dev : List UInt8} (k : Kernel World)
variable {s : Going World}

theorem setMask_steps (isDev : s.2.ifname = dev) (isMask : s.2.mask = mask) :
    Steps (LeaseAllows dev ip mask) s (setMask k.trailed s) := by
  have asked : Trailed.Within (LeaseAllows dev ip mask) s.1
      (nuIfSetMask k.trailed s.1 s.2.ifname s.2.mask).1 :=
    doIoctl_within k s.1 s.2.ifname ⟨isDev, isMask⟩
  unfold setMask
  generalize nuIfSetMask k.trailed s.1 s.2.ifname s.2.mask = answer at asked ⊢
  obtain ⟨after, result⟩ := answer
  cases result with
  | error e => exact ⟨asked, by simp [inPart], by simp [inPart], by simp [inPart], by simp⟩
  | ok flags => exact ⟨asked, rfl, rfl, rfl, id⟩

theorem setUp_steps (isDev : s.2.ifname = dev) :
    Steps (LeaseAllows dev ip mask) s (setUp k.trailed s) := by
  have asked : Trailed.Within (LeaseAllows dev ip mask) s.1
      (nuIfSetFlags k.trailed s.1 s.2.ifname true).1 :=
    nuIfSetFlags_within k s.1 s.2.ifname true isDev fun _ => isDev
  unfold setUp
  generalize nuIfSetFlags k.trailed s.1 s.2.ifname true = answer at asked ⊢
  obtain ⟨after, result⟩ := answer
  cases result with
  | error e => exact ⟨asked, by simp, by simp, by simp, by simp⟩
  | ok flags => exact ⟨asked, rfl, rfl, rfl, id⟩

theorem deleteRoute_steps (isDev : s.2.ifname = dev) (gw : UInt32) :
    Steps (LeaseAllows dev ip mask) s (deleteRoute k.trailed gw s) := by
  have asked : Trailed.Within (LeaseAllows dev ip mask) s.1
      (nuRouteDefaultDel k.trailed s.1 s.2.ifname gw).1 :=
    nuRouteDefaultDel_within k s.1 s.2.ifname gw isDev
  unfold deleteRoute
  generalize nuRouteDefaultDel k.trailed s.1 s.2.ifname gw = answer at asked ⊢
  obtain ⟨after, result⟩ := answer
  cases result with
  | error e => exact ⟨asked, rfl, rfl, rfl, id⟩
  | ok flags => exact ⟨asked, rfl, rfl, rfl, id⟩

theorem addRoute_steps (isDev : s.2.ifname = dev) {gw : UInt32}
    (good : GoodGateway ip mask gw) :
    Steps (LeaseAllows dev ip mask) s (addRoute k.trailed gw s) := by
  have asked : Trailed.Within (LeaseAllows dev ip mask) s.1
      (nuRouteDefaultAdd k.trailed s.1 s.2.ifname gw).1 :=
    doIoctl_within k s.1 s.2.ifname ⟨gw, by rw [isDev], good⟩
  unfold addRoute
  generalize nuRouteDefaultAdd k.trailed s.1 s.2.ifname gw = answer at asked ⊢
  obtain ⟨after, result⟩ := answer
  cases result with
  | error e => exact ⟨asked, by simp [inPart], by simp [inPart], by simp [inPart], by simp⟩
  | ok flags => exact ⟨asked, rfl, rfl, rfl, id⟩

/-- A change of the result that keeps the lease. -/
theorem steps_of_result {Allowed : Effect → Prop} {r : IfuResult} {t : Trailed World Effect}
    {r' : IfuResult} (ifname : r'.ifname = r.ifname) (ip : r'.ip = r.ip)
    (mask : r'.mask = r.mask) (rc : r.rc ≠ .ifuRefused → r'.rc ≠ .ifuRefused) :
    Steps Allowed (t, r) (t, r') :=
  ⟨.refl t, ifname, ip, mask, rc⟩

theorem noteRouter_steps (Allowed : Effect → Prop) (s : Going World) (read : RouterRead) :
    Steps Allowed s (s.1, noteRouter read s.2) := by
  apply steps_of_result <;> unfold noteRouter <;> cases read <;> simp [inPart]

theorem goodGateway_of_gatewayRefusal {gw : UInt32}
    (passed : gatewayRefusal ip mask gw = none) : GoodGateway ip mask gw := by
  unfold gatewayRefusal at passed
  split_ifs at passed with unicast subnet self
  exact ⟨isUnicast_of_nuIsUnicast unicast, not_not.mp subnet, self⟩

theorem setRouter_steps (env : Env) (isDev : s.2.ifname = dev) (isIp : s.2.ip = ip)
    (isMask : s.2.mask = mask) :
    Steps (LeaseAllows dev ip mask) s (setRouter k.trailed env s) := by
  have noted := noteRouter_steps (LeaseAllows dev ip mask) s
    (readRouter env.router)
  refine noted.trans ?_
  unfold setRouter
  dsimp only
  generalize noteRouter (readRouter env.router) s.2 = r at noted ⊢
  have sameDev : r.ifname = dev := noted.ifname.trans isDev
  have sameIp : r.ip = ip := noted.ip.trans isIp
  have sameMask : r.mask = mask := noted.mask.trans isMask
  split
  · apply steps_of_result <;> split <;> simp
  next gw _ =>
  split
  · apply steps_of_result <;> simp
  next accepted =>
  rw [sameIp, sameMask] at accepted
  have deleted : Steps (LeaseAllows dev ip mask) (s.1, r)
      (deleteRoute k.trailed gw (s.1, r)) := deleteRoute_steps k sameDev gw
  exact deleted.trans (addRoute_steps k (deleted.ifname.trans sameDev)
    (goodGateway_of_gatewayRefusal accepted))

/-- The resolvers found so far. -/
def Resolvers (max : Nat) (list : DnsList) : Prop :=
  list.out.length ≤ max ∧ ∀ a ∈ list.out, IsUnicast a

theorem dnsToken_resolvers {max : Nat} {list : DnsList} (found : Resolvers max list)
    (token : List UInt8) : Resolvers max (dnsToken max list token) := by
  unfold dnsToken
  split
  · exact found
  split
  · exact found
  next v _ =>
  split
  · exact found
  next unicast =>
  split
  · exact found
  next room =>
  refine ⟨by simp; omega, fun a member => ?_⟩
  rcases List.mem_append.mp member with earlier | last
  · exact found.2 a earlier
  · rw [List.mem_singleton] at last
    rw [last]
    exact isUnicast_of_nuIsUnicast (not_not.mp unicast)

theorem ifuDnsList_resolvers (text : Option (List UInt8)) (max : Nat) :
    Resolvers max (ifuDnsList text max) := by
  have none : Resolvers max {} := ⟨Nat.zero_le _, by simp⟩
  unfold ifuDnsList
  split
  · exact none
  split
  · exact none
  · exact List.foldlRecOn _ _ none fun list found token _ =>
      dnsToken_resolvers found token

theorem setResolvers_steps (env : Env) :
    Steps (LeaseAllows dev ip mask) s (setResolvers k.trailed env s) := by
  have wrote : Trailed.Within (LeaseAllows dev ip mask) s.1
      (k.trailed.writeDns s.1 (ifuDnsList env.dns ifuDnsMax).out).1 :=
    .record _ (ifuDnsList_resolvers env.dns ifuDnsMax)
  unfold setResolvers
  refine ⟨wrote, ?_, ?_, ?_, ?_⟩ <;> dsimp only <;> split <;> split <;> split <;> simp

/-! ## The whole run -/

/-- What is read of a lease is well formed, or refused with nothing done. -/
theorem readLease_wellFormed {env : Env} {r r' : IfuResult}
    (read : readLease env r = .ok r') :
    WellFormed env r'.ip r'.mask ∧ r'.ifname = r.ifname ∧ r'.rc = r.rc := by
  have text {value : Option (List UInt8)} {s : List UInt8}
      (found : getBounded value nuQuadMax = .value s) : value = some s := by
    unfold getBounded at found
    split at found
    · cases found
    · cases found
    · split at found <;> cases found
      rfl
  unfold readLease at read
  split at read
  · cases read
  · cases read
  next ipText foundIp =>
  split at read
  · cases read
  next ip parsedIp =>
  dsimp only at read
  split at read
  · cases read
  · cases read
  next maskText foundMask =>
  split at read
  · cases read
  next mask parsedMask =>
  split at read
  · cases read
  next within =>
  split at read
  · cases read
  next unicast =>
  split at read
  · cases read
  next host =>
  cases read
  obtain ⟨p, low, high, isMask⟩ := isMask_of_nuMaskOk within
  have partly : mask ≠ 0xFFFFFFFF := by
    rintro rfl
    have zeros := isMask.hosts
    have wide : 2 ^ 1 ≤ 2 ^ (32 - p) := Nat.pow_le_pow_right (by decide) (by omega)
    change 0 = _ at zeros
    omega
  refine ⟨⟨⟨ipText, text foundIp, parsedIp⟩, ⟨maskText, text foundMask, parsedMask⟩,
    ⟨p, low, high, isMask⟩, isUnicast_of_nuIsUnicast (not_not.mp unicast),
    isHost_of_not_netOrBcast partly (by simpa using host)⟩, rfl, rfl⟩

theorem readLease_refused {env : Env} {r r' : IfuResult}
    (refused : readLease env r = .error r') : r'.rc = .ifuRefused := by
  rcases readLease_cases env with ⟨ip, mask, read⟩ | never
  · rw [read] at refused
    cases refused
  · obtain ⟨r'', same, rc⟩ := never r
    rw [same] at refused
    cases refused
    exact rc

/-- A lease is refused with nothing done, or does what its strings allow. -/
theorem doBound_steps (w : Trailed World Effect) (r : IfuResult) (env : Env)
    (fine : r.rc ≠ .ifuRefused) :
    ((doBound k.trailed w r env).1 = w ∧
        (doBound k.trailed w r env).2.rc = .ifuRefused) ∨
      (doBound k.trailed w r env).2.rc ≠ .ifuRefused ∧
        ∃ ip mask, WellFormed env ip mask ∧
          Trailed.Within (LeaseAllows r.ifname ip mask) w
            (doBound k.trailed w r env).1 := by
  unfold doBound
  split
  · next refused read => exact .inl ⟨rfl, readLease_refused read⟩
  next lease read =>
  obtain ⟨wellFormed, sameDev, sameRc⟩ := readLease_wellFormed read
  right
  have asked : Trailed.Within (LeaseAllows r.ifname lease.ip lease.mask) w
      (nuIfSetAddr k.trailed w lease.ifname lease.ip).1 :=
    doIoctl_within k w lease.ifname ⟨sameDev, rfl⟩
  generalize nuIfSetAddr k.trailed w lease.ifname lease.ip = answer at asked ⊢
  obtain ⟨after, result⟩ := answer
  cases result with
  | error e => exact ⟨by simp, lease.ip, lease.mask, wellFormed, asked⟩
  | ok flags =>
      have masked : Steps (LeaseAllows r.ifname lease.ip lease.mask)
          (after, { lease with didAddr := true })
          (setMask k.trailed (after, { lease with didAddr := true })) :=
        setMask_steps k sameDev rfl
      have up := masked.trans (setUp_steps k (masked.ifname.trans sameDev))
      have routed := up.trans (setRouter_steps k env (up.ifname.trans sameDev)
        up.ip up.mask)
      have done := routed.trans (setResolvers_steps k env)
      exact ⟨done.rc (by rw [sameRc]; exact fine), lease.ip, lease.mask, wellFormed,
        asked.trans done.within⟩

theorem doDeconfig_steps (w : Trailed World Effect) (r : IfuResult)
    (fine : r.rc ≠ .ifuRefused) :
    (doDeconfig k.trailed w r).2.rc ≠ .ifuRefused ∧
      Trailed.Within (ClearAllows r.ifname) w (doDeconfig k.trailed w r).1 := by
  have up : Trailed.Within (ClearAllows r.ifname) w
      (nuIfSetFlags k.trailed w r.ifname true).1 :=
    nuIfSetFlags_within k w r.ifname true rfl fun _ => rfl
  have cleared (after : Trailed World Effect) :
      Trailed.Within (ClearAllows r.ifname) after
        (nuIfSetAddr k.trailed after r.ifname 0).1 :=
    doIoctl_within k after r.ifname ⟨rfl, rfl⟩
  have wrote (after : Trailed World Effect) :
      Trailed.Within (ClearAllows r.ifname) after (k.trailed.writeDns after []).1 :=
    .record _ rfl
  unfold doDeconfig
  generalize nuIfSetFlags k.trailed w r.ifname true = answer at up ⊢
  obtain ⟨after, result⟩ := answer
  cases result with
  | error e =>
      dsimp only
      rw [note_ifname]
      refine ⟨?_, up.trans ((cleared after).trans (wrote _))⟩
      split <;> split <;> simp [fine]
  | ok flags =>
      refine ⟨?_, up.trans ((cleared after).trans (wrote _))⟩
      dsimp only
      split <;> split <;> simp [fine]

end Lease

/-- What a run of the program did, with the result it reports. -/
def effectsOf (k : Kernel World) (w : World) (event : List UInt8) (env : Env) :
    Trailed World Effect × IfuResult :=
  ifuRun k.trailed (.fresh w) event env

/-- A lease arrives with this event. -/
def carriesLease (event : List UInt8) : Prop :=
  event = ascii "bound" ∨ event = ascii "renew"

theorem carriesLease_iff {event : List UInt8} :
    carriesLease event ↔ ifuEventOf event = .bound ∨ ifuEventOf event = .renew := by
  constructor
  · rintro (rfl | rfl)
    · exact .inl (by decide)
    · exact .inr (by decide)
  · intro kind
    unfold ifuEventOf at kind
    split_ifs at kind with deconfig bound renew <;> simp at kind
    · exact .inl bound
    · exact .inr renew

/-- What is promised of a run, whatever its environment holds. -/
structure Contained (w : World) (event : List UInt8) (env : Env)
    (run : Trailed World Effect × IfuResult) : Prop where
  /-- A refusal leaves no trail, and the world as it was. -/
  refused : run.2.rc = .ifuRefused → run.1 = .fresh w
  named : ∀ req, .asked req ∈ run.1.trail →
    env.interface = some req.dev ∧ nuIfnameOk req.dev = true ∧ req.dev.length ≤ 15
  lease : carriesLease event → run.1.trail ≠ [] → ∃ dev ip mask,
    WellFormed env ip mask ∧ ∀ e ∈ run.1.trail, LeaseAllows dev ip mask e
  /-- Without a lease no address but zero is set, and no route added. -/
  cleared : ¬ carriesLease event → run.1.trail ≠ [] → ∃ dev,
    ∀ e ∈ run.1.trail, ClearAllows dev e
  resolvers : ∀ servers, .wrote servers ∈ run.1.trail →
    servers.length ≤ ifuDnsMax ∧ ∀ a ∈ servers, IsUnicast a


/-- A run is refused at once, or it is about the interface it names. -/
theorem effectsOf_cases (k : Kernel World) (w : World) (event : List UInt8) (env : Env) :
    ((effectsOf k w event env).1 = .fresh w ∧
        (effectsOf k w event env).2.rc = .ifuRefused) ∨
      ∃ r : IfuResult, env.interface = some r.ifname ∧ nuIfnameOk r.ifname = true ∧
        r.rc = .ifuOk ∧
        ((carriesLease event ∧
            effectsOf k w event env = doBound k.trailed (.fresh w) r env) ∨
          (¬ carriesLease event ∧
            effectsOf k w event env = doDeconfig k.trailed (.fresh w) r)) := by
  unfold effectsOf ifuRun
  dsimp only
  split
  · exact .inl ⟨rfl, rfl⟩
  next known =>
  split
  · exact .inl ⟨rfl, rfl⟩
  · exact .inl ⟨rfl, rfl⟩
  next dev found =>
  split
  · exact .inl ⟨rfl, rfl⟩
  next named =>
  right
  have isDev : env.interface = some dev := by
    unfold getBounded at found
    split at found
    · cases found
    · cases found
    · split at found <;> cases found
      assumption
  refine ⟨{ event := ifuEventOf event, ifname := dev }, isDev, not_not.mp named, rfl, ?_⟩
  rw [carriesLease_iff]
  cases kind : ifuEventOf event <;> simp_all

theorem dev_of_leaseAllows {dev : List UInt8} {ip mask : UInt32} {req : Request}
    (allowed : LeaseAllows dev ip mask (.asked req)) : req.dev = dev := by
  cases req with
  | setAddr d a => exact allowed.1
  | setMask d m => exact allowed.1
  | getFlags d => exact allowed
  | setFlags d flags => exact allowed
  | delRoute rt => exact allowed
  | addRoute rt =>
      obtain ⟨gw, rfl, -⟩ := allowed
      rfl

theorem dev_of_clearAllows {dev : List UInt8} {req : Request}
    (allowed : ClearAllows dev (.asked req)) : req.dev = dev := by
  cases req with
  | setAddr d a => exact allowed.1
  | getFlags d => exact allowed
  | setFlags d flags => exact allowed
  | setMask d m => exact allowed.elim
  | addRoute rt => exact allowed.elim
  | delRoute rt => exact allowed.elim

theorem length_of_nuIfnameOk {dev : List UInt8} (named : nuIfnameOk dev = true) :
    dev.length ≤ 15 := by
  unfold nuIfnameOk at named
  simp only [Bool.and_eq_true, decide_eq_true_eq] at named
  exact named.1.2

/-- A run that did nothing keeps every promise. -/
theorem contained_of_nothing {w : World} {event : List UInt8} {env : Env}
    {run : Trailed World Effect × IfuResult} (world : run.1 = .fresh w) :
    Contained w event env run := by
  have nothing : run.1.trail = [] := by rw [world]; rfl
  refine ⟨fun _ => world, ?_, fun _ some => absurd nothing some,
    fun _ some => absurd nothing some, ?_⟩ <;> simp [nothing]

/-- Whatever the environment holds, a refused event does nothing, and another one
only what is well formed. -/
theorem ifuRun_contained (k : Kernel World) (w : World) (event : List UInt8)
    (env : Env) : Contained w event env (effectsOf k w event env) := by
  rcases effectsOf_cases k w event env with ⟨world, rc⟩ |
    ⟨r, isDev, named, fine, ⟨lease, ran⟩ | ⟨clear, ran⟩⟩
  · exact contained_of_nothing world
  · rw [ran]
    rcases doBound_steps k (.fresh w) r env (by simp [fine]) with
      ⟨world, rc⟩ | ⟨going, ip, mask, wellFormed, within⟩
    · exact contained_of_nothing world
    · exact {
        refused := fun rc => absurd rc going
        named := fun req member => by
          rw [dev_of_leaseAllows (within.all _ member)]
          exact ⟨isDev, named, length_of_nuIfnameOk named⟩
        lease := fun _ _ => ⟨r.ifname, ip, mask, wellFormed, within.all⟩
        cleared := fun clear => absurd lease clear
        resolvers := fun servers member => within.all _ member }
  · rw [ran]
    obtain ⟨going, within⟩ := doDeconfig_steps k (.fresh w) r (by simp [fine])
    exact {
      refused := fun rc => absurd rc going
      named := fun req member => by
        rw [dev_of_clearAllows (within.all _ member)]
        exact ⟨isDev, named, length_of_nuIfnameOk named⟩
      lease := fun lease => absurd lease clear
      cleared := fun _ _ => ⟨r.ifname, within.all⟩
      resolvers := fun servers member => by
        have empty : servers = [] := within.all _ member
        simp [empty] }

end RlxFw.Ifupd
