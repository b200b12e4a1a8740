import Mathlib.Data.Finset.Insert
import RlxFw.Ifupd

/-!
# The default routes that leases leave

`do_bound` deletes the default route through the gateway it is about to add.
That route is the new lease's: one through another gateway, left by an earlier
lease with the same address and mask, stays beside it.
-/

namespace RlxFw.Ifupd

open Net

variable {World : Type*} {k : Kernel World}

/-- A default route of an interface. -/
def isDefault (dev : List UInt8) (route : Route) : Bool :=
  route.dst = 0 && route.genmask = 0 && route.dev = dev

/-- The default routes of an interface. -/
def defaultsOn (k : Kernel World) (w : World) (dev : List UInt8) : Finset Route :=
  (k.table w).filter (isDefault dev ·)

/-- What a lease asks for. -/
structure Lease where
  dev : List UInt8
  ip : UInt32
  mask : UInt32
  gw : UInt32
deriving DecidableEq, Repr

/-- The lease of an environment. -/
def leaseOf (env : Env) : Option Lease :=
  match getBounded env.interface nuIfnameMax, readLease env {},
      (readRouter env.router).gateway with
  | .value dev, .ok r, some gw => some { dev, ip := r.ip, mask := r.mask, gw }
  | _, _, _ => none

/-- `ifu_run` reports a lease with its router as fully applied. -/
def FullyApplied (r : IfuResult) : Prop :=
  (r.event = .bound ∨ r.event = .renew) ∧ r.rc = .ifuOk ∧ r.didRouteAdd = true

/-- The lease's gateway is the only default route of its interface. -/
def OnlyDefault (k : Kernel World) (w : World) (env : Env) : Prop :=
  ∃ lease route, leaseOf env = some lease ∧
    defaultsOn k w lease.dev = {route} ∧ route.gateway = lease.gw

/-- No default route through another gateway outlives the setting of the lease's
address and mask. -/
def GatewayKept (k : Kernel World) (w : World) (env : Env) : Prop :=
  ∀ lease, leaseOf env = some lease →
    k.addr w lease.dev = lease.ip → k.mask w lease.dev = lease.mask →
      ∀ route ∈ defaultsOn k w lease.dev, route.gateway = lease.gw

/-! ## Notes leave the rest of the result -/

section Notes

variable (r : IfuResult) (t : String)

@[simp]
theorem note_rc : (note r t).rc = r.rc := by
  unfold note
  split <;> rfl

@[simp]
theorem note_event : (note r t).event = r.event := by
  unfold note
  split <;> rfl

@[simp]
theorem note_ifname : (note r t).ifname = r.ifname := by
  unfold note
  split <;> rfl

@[simp]
theorem note_didRouteAdd : (note r t).didRouteAdd = r.didRouteAdd := by
  unfold note
  split <;> rfl

end Notes

@[simp]
theorem inPart_rc (r : IfuResult) (reason detail : String) :
    (inPart r reason detail).rc = .ifuPartial := rfl

/-! ## The steps of a lease -/

theorem setMask_keeps (s : World × IfuResult) :
    (setMask k s).2.ifname = s.2.ifname ∧
      (setMask k s).2.didRouteAdd = s.2.didRouteAdd := by
  unfold setMask
  generalize nuIfSetMask k s.1 s.2.ifname s.2.mask = answer
  obtain ⟨after, result⟩ := answer
  cases result with
  | error e => simp [inPart]
  | ok flags => exact ⟨rfl, rfl⟩

theorem setMask_ok (lawful : k.Lawful) {s : World × IfuResult}
    (ok : (setMask k s).2.rc = .ifuOk) :
    (k.mask s.1 s.2.ifname = s.2.mask → k.table (setMask k s).1 = k.table s.1) ∧
      (k.mask s.1 s.2.ifname ≠ s.2.mask →
        k.table (setMask k s).1 = (k.table s.1).filter (·.dev ≠ s.2.ifname)) := by
  unfold setMask at ok ⊢
  generalize made : nuIfSetMask k s.1 s.2.ifname s.2.mask = answer at ok ⊢
  obtain ⟨after, result⟩ := answer
  cases result with
  | error e => simp at ok
  | ok flags =>
      obtain ⟨answered, rfl⟩ := doIoctl_ok made
      exact ⟨lawful.mask_same _ _ _ _ answered, lawful.mask_other _ _ _ _ answered⟩

theorem setUp_keeps (lawful : k.Lawful) (s : World × IfuResult) :
    k.table (setUp k s).1 = k.table s.1 ∧ (setUp k s).2.rc = s.2.rc ∧
      (setUp k s).2.ifname = s.2.ifname ∧
      (setUp k s).2.didRouteAdd = s.2.didRouteAdd := by
  have table := nuIfSetFlags_table lawful s.1 s.2.ifname true
  unfold setUp
  generalize nuIfSetFlags k s.1 s.2.ifname true = answer at table ⊢
  obtain ⟨after, result⟩ := answer
  cases result with
  | error e => exact ⟨table, by simp⟩
  | ok flags => exact ⟨table, rfl, rfl, rfl⟩

theorem deleteRoute_keeps (lawful : k.Lawful) {s : World × IfuResult}
    (named : nuIfnameOk s.2.ifname = true) (gw : UInt32) :
    k.table (deleteRoute k gw s).1 =
        (k.table s.1).erase (routePrep s.2.ifname gw).route ∧
      (deleteRoute k gw s).2.rc = s.2.rc ∧
      (deleteRoute k gw s).2.ifname = s.2.ifname := by
  have erased := nuRouteDefaultDel_table lawful (w := s.1) named gw
  unfold deleteRoute
  generalize nuRouteDefaultDel k s.1 s.2.ifname gw = answer at erased ⊢
  obtain ⟨after, result⟩ := answer
  cases result with
  | error e => exact ⟨erased, rfl, rfl⟩
  | ok flags => exact ⟨erased, rfl, rfl⟩

theorem addRoute_ok (lawful : k.Lawful) {s : World × IfuResult} {gw : UInt32}
    (ok : (addRoute k gw s).2.rc = .ifuOk) :
    s.2.rc = .ifuOk ∧
      k.table (addRoute k gw s).1 =
        insert (routePrep s.2.ifname gw).route (k.table s.1) := by
  unfold addRoute at ok ⊢
  generalize made : nuRouteDefaultAdd k s.1 s.2.ifname gw = answer at ok ⊢
  obtain ⟨after, result⟩ := answer
  cases result with
  | error e => simp at ok
  | ok flags =>
      obtain ⟨answered, rfl⟩ := doIoctl_ok made
      exact ⟨ok, lawful.adds _ _ _ answered⟩

theorem noteRouter_keeps (read : RouterRead) (r : IfuResult) :
    (noteRouter read r).ifname = r.ifname ∧
      (noteRouter read r).didRouteAdd = r.didRouteAdd ∧
      ((noteRouter read r).rc = .ifuOk → r.rc = .ifuOk) := by
  cases read <;> simp [noteRouter, inPart]

theorem setRouter_ok (lawful : k.Lawful) {env : Env} {s : World × IfuResult}
    (named : nuIfnameOk s.2.ifname = true)
    (added : (setRouter k env s).2.didRouteAdd = true)
    (fresh : s.2.didRouteAdd = false)
    (ok : (setRouter k env s).2.rc = .ifuOk) :
    s.2.rc = .ifuOk ∧ ∃ gw, (readRouter env.router).gateway = some gw ∧
      k.table (setRouter k env s).1 =
        insert (routePrep s.2.ifname gw).route
          ((k.table s.1).erase (routePrep s.2.ifname gw).route) := by
  obtain ⟨ifname, unset, rcKept⟩ := noteRouter_keeps (readRouter env.router) s.2
  cases given : (readRouter env.router).gateway with
  | none =>
      -- nothing is added on this path
      simp only [setRouter, given] at added
      split at added <;> simp [unset, fresh] at added
  | some gw =>
      simp only [setRouter, given] at added ok ⊢
      cases refused : gatewayRefusal (noteRouter (readRouter env.router) s.2).ip
          (noteRouter (readRouter env.router) s.2).mask gw with
      | some reason => simp [refused] at ok
      | none =>
          simp only [refused] at ok ⊢
          have deleted := deleteRoute_keeps lawful
            (s := (s.1, noteRouter (readRouter env.router) s.2)) (by rwa [ifname]) gw
          obtain ⟨before, table⟩ := addRoute_ok lawful ok
          refine ⟨rcKept (deleted.2.1.symm.trans before), gw, rfl, ?_⟩
          rw [table, deleted.1, deleted.2.2, ifname]

theorem setResolvers_keeps (lawful : k.Lawful) (env : Env) (s : World × IfuResult) :
    k.table (setResolvers k env s).1 = k.table s.1 ∧
      (setResolvers k env s).2.rc = s.2.rc ∧
      (setResolvers k env s).2.didRouteAdd = s.2.didRouteAdd := by
  unfold setResolvers
  refine ⟨lawful.dns _ _, ?_, ?_⟩
  all_goals
    dsimp only
    split <;> split <;> split <;> simp

/-- The lease is read from the environment alone. -/
theorem readLease_cases (env : Env) :
    (∃ ip mask, ∀ r, readLease env r = .ok { r with ip := ip, mask := mask }) ∨
      ∀ r, ∃ r', readLease env r = .error r' ∧ r'.rc = .ifuRefused := by
  cases ipText : getBounded env.ip nuQuadMax with
  | absent => exact .inr fun r => ⟨_, by simp only [readLease, ipText]; rfl, rfl⟩
  | tooLong raw => exact .inr fun r => ⟨_, by simp only [readLease, ipText]; rfl, rfl⟩
  | value ipValue =>
  cases ipParsed : nuParseIpv4 ipValue with
  | error e =>
      exact .inr fun r => ⟨_, by simp only [readLease, ipText, ipParsed]; rfl, rfl⟩
  | ok ip =>
  cases maskText : getBounded env.subnet nuQuadMax with
  | absent =>
      exact .inr fun r =>
        ⟨_, by simp only [readLease, ipText, ipParsed, maskText]; rfl, rfl⟩
  | tooLong raw =>
      exact .inr fun r =>
        ⟨_, by simp only [readLease, ipText, ipParsed, maskText]; rfl, rfl⟩
  | value maskValue =>
  cases maskParsed : nuParseIpv4 maskValue with
  | error e =>
      exact .inr fun r =>
        ⟨_, by simp only [readLease, ipText, ipParsed, maskText, maskParsed]; rfl, rfl⟩
  | ok mask =>
  simp only [readLease, ipText, ipParsed, maskText, maskParsed]
  cases nuMaskOk mask 8 30 with
  | error e => exact .inr fun r => ⟨_, rfl, rfl⟩
  | ok _ =>
  by_cases unicast : nuIsUnicast ip = true
  · by_cases edge : nuIsNetOrBcast ip mask = true
    · exact .inr fun r => ⟨_, by simp only [unicast, edge]; rfl, rfl⟩
    · exact .inl ⟨ip, mask, fun r => by simp [unicast, edge]⟩
  · exact .inr fun r => ⟨_, by simp only [unicast]; rfl, rfl⟩

/-- The table as the address and the mask leave it. -/
theorem setAddr_setMask (lawful : k.Lawful) {w w' : World} {r : IfuResult}
    {flags : UInt16} (set : nuIfSetAddr k w r.ifname r.ip = (w', .ok flags))
    (ok : (setMask k (w', { r with didAddr := true })).2.rc = .ifuOk) :
    (k.addr w r.ifname = r.ip → k.mask w r.ifname = r.mask →
        k.table (setMask k (w', { r with didAddr := true })).1 = k.table w) ∧
      (¬ (k.addr w r.ifname = r.ip ∧ k.mask w r.ifname = r.mask) →
        ∀ route ∈ k.table (setMask k (w', { r with didAddr := true })).1,
          route.dev ≠ r.ifname) := by
  obtain ⟨answered, rfl⟩ := doIoctl_ok set
  obtain ⟨same, other⟩ := setMask_ok lawful ok
  dsimp only at same other
  constructor
  · intro addrSame maskSame
    obtain ⟨table, mask⟩ := lawful.addr_same _ _ _ _ answered addrSame
    rw [same (mask.trans maskSame), table]
  · intro moved route member
    by_cases addrSame : k.addr w r.ifname = r.ip
    · obtain ⟨-, mask⟩ := lawful.addr_same _ _ _ _ answered addrSame
      rw [other fun maskSame => moved ⟨addrSame, mask.symm.trans maskSame⟩] at member
      simpa using (Finset.mem_filter.mp member).2
    · -- the old address took its routes along, whatever the mask does then
      have emptied := lawful.addr_other _ _ _ _ answered addrSame
      by_cases maskSame : k.mask (k.ioctl w (.setAddr r.ifname r.ip)).1 r.ifname = r.mask
      · rw [same maskSame, emptied] at member
        simpa using (Finset.mem_filter.mp member).2
      · rw [other maskSame] at member
        simpa using (Finset.mem_filter.mp member).2

/-- What a fully applied lease was, and what its route did to the table. -/
theorem doBound_ok (lawful : k.Lawful) {w : World} {r : IfuResult} {env : Env}
    (named : nuIfnameOk r.ifname = true) (fresh : r.didRouteAdd = false)
    (added : (doBound k w r env).2.didRouteAdd = true)
    (ok : (doBound k w r env).2.rc = .ifuOk) :
    ∃ ip mask gw, (∀ start, readLease env start =
        .ok { start with ip := ip, mask := mask }) ∧
      (readRouter env.router).gateway = some gw ∧
      ∃ table, k.table (doBound k w r env).1 =
          insert (routePrep r.ifname gw).route
            (table.erase (routePrep r.ifname gw).route) ∧
        (k.addr w r.ifname = ip → k.mask w r.ifname = mask → table = k.table w) ∧
        (¬ (k.addr w r.ifname = ip ∧ k.mask w r.ifname = mask) →
          ∀ route ∈ table, route.dev ≠ r.ifname) := by
  rcases readLease_cases env with ⟨ip, mask, read⟩ | refused
  · simp only [doBound, read] at added ok ⊢
    generalize set : nuIfSetAddr k w r.ifname ip = answer at added ok ⊢
    obtain ⟨w', result⟩ := answer
    cases result with
    | error e => simp at ok
    | ok flags =>
        have resolved := setResolvers_keeps lawful env
          (setRouter k env (setUp k (setMask k
            (w', { r with ip := ip, mask := mask, didAddr := true }))))
        have masked := setMask_keeps (k := k)
          (w', { r with ip := ip, mask := mask, didAddr := true })
        have up := setUp_keeps lawful
          (setMask k (w', { r with ip := ip, mask := mask, didAddr := true }))
        have ifname := up.2.2.1.trans masked.1
        dsimp only at added ok masked ifname ⊢
        rw [resolved.1]
        rw [resolved.2.1] at ok
        rw [resolved.2.2] at added
        obtain ⟨upOk, gw, given, table⟩ := setRouter_ok lawful
          (by rw [ifname]; exact named) added
          ((up.2.2.2.trans masked.2).trans fresh) ok
        obtain ⟨same, other⟩ := setAddr_setMask lawful
          (r := { r with ip := ip, mask := mask }) set (up.2.1.symm.trans upOk)
        rw [ifname] at table
        exact ⟨ip, mask, gw, fun _ => rfl, given, _, table,
          fun addrSame maskSame => up.1.trans (same addrSame maskSame),
          fun moved => by rw [up.1]; exact other moved⟩
  · obtain ⟨r', read, rc⟩ := refused r
    simp only [doBound, read] at ok
    exact absurd (rc.symm.trans ok) nofun

theorem doDeconfig_adds_nothing (w : World) (r : IfuResult) :
    (doDeconfig k w r).2.didRouteAdd = r.didRouteAdd := by
  unfold doDeconfig
  dsimp only
  split <;> split <;> split <;> simp [inPart]

/-- A fully applied event is a lease on a well named interface. -/
theorem ifuRun_applied {w : World} {event : List UInt8} {env : Env}
    (applied : FullyApplied (ifuRun k w event env).2) :
    ∃ dev r, getBounded env.interface nuIfnameMax = .value dev ∧
      nuIfnameOk dev = true ∧ r.ifname = dev ∧ r.didRouteAdd = false ∧
      ifuRun k w event env = doBound k w r env := by
  obtain ⟨-, ok, added⟩ := applied
  by_cases known : ifuEventOf event = .unknown
  · simp [ifuRun, known, refuse] at ok
  · cases named : getBounded env.interface nuIfnameMax with
    | absent => simp [ifuRun, known, named, refuse] at ok
    | tooLong raw => simp [ifuRun, known, named, refuse] at ok
    | value dev =>
        by_cases good : nuIfnameOk dev = true
        · cases kind : ifuEventOf event with
          | bound =>
              exact ⟨dev, { event := .bound, ifname := dev }, rfl, good, rfl, rfl,
                by simp [ifuRun, named, good, kind]⟩
          | renew =>
              exact ⟨dev, { event := .renew, ifname := dev }, rfl, good, rfl, rfl,
                by simp [ifuRun, named, good, kind]⟩
          | unknown => exact absurd kind known
          | deconfig =>
              simp [ifuRun, named, good, kind, doDeconfig_adds_nothing] at added
          | nak => simp [ifuRun, named, good, kind, doDeconfig_adds_nothing] at added
          | leasefail =>
              simp [ifuRun, named, good, kind, doDeconfig_adds_nothing] at added
        · simp [ifuRun, known, named, good, refuse] at ok

/-! ## One default route -/

/-- A route put in the place of itself is alone when there is no other. -/
theorem insert_erase_eq_singleton {α : Type*} [DecidableEq α] (s : Finset α) (a : α) :
    (∃ b, insert a (s.erase a) = {b}) ↔ ∀ b ∈ s, b = a := by
  constructor
  · rintro ⟨b, single⟩ c member
    by_contra other
    have first : a ∈ insert a (s.erase a) := Finset.mem_insert_self _ _
    have second : c ∈ insert a (s.erase a) :=
      Finset.mem_insert_of_mem (Finset.mem_erase.mpr ⟨other, member⟩)
    rw [single, Finset.mem_singleton] at first second
    exact other (second.trans first.symm)
  · intro alone
    refine ⟨a, ?_⟩
    ext c
    simp only [Finset.mem_insert, Finset.mem_erase, Finset.mem_singleton]
    exact ⟨fun either => either.elim id fun kept => alone c kept.2, .inl⟩

/-- Putting the gateway's route in its own place leaves it the only default route
exactly when every default route went through that gateway. -/
theorem replaced_alone_iff (table : Finset Route) (dev : List UInt8) (gw : UInt32) :
    (∃ route, (insert (routePrep dev gw).route
          (table.erase (routePrep dev gw).route)).filter (isDefault dev ·) = {route} ∧
        route.gateway = gw) ↔
      ∀ route ∈ table.filter (isDefault dev ·), route.gateway = gw := by
  have gateway : isDefault dev (routePrep dev gw).route = true := by
    simp [isDefault, routePrep]
  rw [Finset.filter_insert, if_pos gateway, Finset.filter_erase]
  constructor
  · rintro ⟨route, single, -⟩ other member
    exact congrArg Route.gateway
      ((insert_erase_eq_singleton _ _).mp ⟨route, single⟩ other member)
  · intro kept
    have same : ∀ other ∈ table.filter (isDefault dev ·),
        other = (routePrep dev gw).route := by
      intro other member
      have shape := (Finset.mem_filter.mp member).2
      have through := kept other member
      cases other
      simp_all [routePrep, isDefault]
    obtain ⟨route, single⟩ := (insert_erase_eq_singleton _ _).mpr same
    have first : (routePrep dev gw).route = route :=
      Finset.mem_singleton.mp (single ▸ Finset.mem_insert_self _ _)
    exact ⟨route, single, by rw [← first]; rfl⟩

/-- A fully applied lease leaves its gateway's route alone exactly when no default
route through another gateway outlived its address and mask. -/
theorem onlyDefault_iff (lawful : k.Lawful) {w : World} {event : List UInt8} {env : Env}
    (applied : FullyApplied (ifuRun k w event env).2) :
    OnlyDefault k (ifuRun k w event env).1 env ↔ GatewayKept k w env := by
  obtain ⟨dev, r, interface, named, rfl, fresh, same⟩ := ifuRun_applied applied
  obtain ⟨-, ok, added⟩ := applied
  rw [same] at ok added ⊢
  obtain ⟨ip, mask, gw, read, given, table, left, still, moved⟩ :=
    doBound_ok lawful named fresh added ok
  have lease : leaseOf env = some { dev := r.ifname, ip, mask, gw } := by
    simp [leaseOf, interface, read, given]
  have only : OnlyDefault k (doBound k w r env).1 env ↔
      ∀ route ∈ table.filter (isDefault r.ifname ·), route.gateway = gw := by
    rw [← replaced_alone_iff]
    simp [OnlyDefault, lease, defaultsOn, left]
  have kept : GatewayKept k w env ↔
      (k.addr w r.ifname = ip → k.mask w r.ifname = mask →
        ∀ route ∈ defaultsOn k w r.ifname, route.gateway = gw) := by
    simp [GatewayKept, lease]
  rw [only, kept]
  by_cases unmoved : k.addr w r.ifname = ip ∧ k.mask w r.ifname = mask
  · rw [still unmoved.1 unmoved.2]
    exact ⟨fun all _ _ => all, fun all => all unmoved.1 unmoved.2⟩
  · constructor
    · exact fun _ addrSame maskSame => absurd ⟨addrSame, maskSame⟩ unmoved
    · intro _ route member
      obtain ⟨held, default⟩ := Finset.mem_filter.mp member
      simp only [isDefault, Bool.and_eq_true, decide_eq_true_eq] at default
      exact absurd default.2 (moved unmoved route held)

/-- What an event of a run does, the events before it done. -/
def eventIn (k : Kernel World) (w : World) (past : List (List UInt8 × Env))
    (e : List UInt8 × Env) : World × IfuResult :=
  ifuRun k ((ifupd k).run w past).1 e.1 e.2

/-- After every lease of the run that is fully applied, its gateway's route is the
only default route of its interface. -/
def OneDefaultRoute (k : Kernel World) (w : World)
    (events : List (List UInt8 × Env)) : Prop :=
  ∀ past e rest, events = past ++ e :: rest → FullyApplied (eventIn k w past e).2 →
    OnlyDefault k (eventIn k w past e).1 e.2

/-- No lease of the run that is fully applied finds a default route through another
gateway under the address and the mask that it sets again. -/
def GatewaysKept (k : Kernel World) (w : World)
    (events : List (List UInt8 × Env)) : Prop :=
  ∀ past e rest, events = past ++ e :: rest → FullyApplied (eventIn k w past e).2 →
    GatewayKept k ((ifupd k).run w past).1 e.2

/-- What a kernel with no failing requests holds. -/
structure Held where
  table : Finset Route := ∅
  addr : List UInt8 → UInt32 := fun _ => 0
  mask : List UInt8 → UInt32 := fun _ => 0

/-- The requests of a kernel that grants what it can. -/
def grant (w : Held) : Request → Held × Except Nat UInt16
  | .setAddr dev ip =>
      if w.addr dev = ip then (w, .ok 0)
      else
        ({ table := w.table.filter (·.dev ≠ dev)
           addr := fun d => if d = dev then ip else w.addr d
           mask := fun d => if d = dev then 0 else w.mask d }, .ok 0)
  | .setMask dev mask =>
      if w.mask dev = mask then (w, .ok 0)
      else
        ({ w with
           table := w.table.filter (·.dev ≠ dev)
           mask := fun d => if d = dev then mask else w.mask d }, .ok 0)
  | .getFlags _ => (w, .ok 0)
  | .setFlags _ _ => (w, .ok 0)
  | .addRoute rt =>
      if rt.route ∈ w.table then (w, .error 17)
      else ({ w with table := insert rt.route w.table }, .ok 0)
  | .delRoute rt =>
      if rt.route ∈ w.table then ({ w with table := w.table.erase rt.route }, .ok 0)
      else (w, .error esrch)

/-- A kernel that grants what it can. -/
def granting : Kernel Held where
  ioctl := grant
  writeDns w _ := (w, true)
  table := Held.table
  addr := Held.addr
  mask := Held.mask

theorem granting_lawful : granting.Lawful where
  addr_same w dev ip flags _ same := by
    simp only [granting] at same ⊢
    simp [grant, same]
  addr_other w dev ip flags _ other := by
    simp only [granting] at other ⊢
    simp [grant, other]
  mask_same w dev mask flags _ same := by
    simp only [granting] at same ⊢
    simp [grant, same]
  mask_other w dev mask flags _ other := by
    simp only [granting] at other ⊢
    simp [grant, other]
  get_flags _ _ := rfl
  set_flags _ _ _ := rfl
  deletes w rt := by
    by_cases present : rt.route ∈ w.table <;> simp [granting, grant, present]
  adds w rt flags ok := by
    by_cases present : rt.route ∈ w.table
    · simp [granting, grant, present] at ok
    · simp [granting, grant, present]
  dns _ _ := rfl

/-- A lease of 192.168.1.50/24 through a router. -/
def leaseThrough (router : String) : Env where
  interface := some (ascii "eth4")
  ip := some (ascii "192.168.1.50")
  subnet := some (ascii "255.255.255.0")
  router := some (ascii router)
  dns := none

/-- The events of a lease. -/
def boundThrough (router : String) : List UInt8 × Env :=
  (ascii "bound", leaseThrough router)

/-- The events of its renewal. -/
def renewThrough (router : String) : List UInt8 × Env :=
  (ascii "renew", leaseThrough router)

/-- The default routes once a renewal has moved the gateway: the old one stays. -/
theorem renewed_defaults :
    defaultsOn granting
        (eventIn granting {} [boundThrough "192.168.1.1"]
          (renewThrough "192.168.1.254")).1 (ascii "eth4") =
      {(routePrep (ascii "eth4") 0xC0A801FE).route,
        (routePrep (ascii "eth4") 0xC0A80101).route} := by
  decide

end RlxFw.Ifupd
