import RlxFw.IfupdHostile
import RlxFw.QuadParsers

/-!
# Leases with several routers

`udhcpc` joins the routers of a lease with spaces.  A value longer than a dotted
quad is taken for a list, and its first entry for the gateway; a list that is not
longer than a dotted quad is parsed as one, and refused.
-/

namespace RlxFw.Ifupd

open Net

/-- A router with others behind it, each after a space. -/
def routerList (first : List UInt8) (others : List (List UInt8)) : List UInt8 :=
  first ++ others.flatMap (0x20 :: ·)

/-- A lease with good values, whose routers are a list with `gw` in front. -/
structure ListedLease (env : Env) (dev : List UInt8) (ip mask gw : UInt32)
    (first : List UInt8) (others : List (List UInt8)) : Prop where
  interface : env.interface = some dev
  named : nuIfnameOk dev = true
  lease : readLease env {} = .ok { ip := ip, mask := mask }
  router : env.router = some (routerList first others)
  isFirst : nuParseIpv4 first = .ok gw
  areQuads : ∀ t ∈ others, ∃ v, nuParseIpv4 t = .ok v
  unicast : nuIsUnicast gw = true
  onSubnet : gw &&& mask = ip &&& mask
  other : gw ≠ ip

section

variable {World : Type*} {k : Kernel World}

/-- A kernel that grants an address, and a route that is not there yet. -/
structure Grants (k : Kernel World) : Prop where
  addr : ∀ w dev ip, ∃ flags, (k.ioctl w (.setAddr dev ip)).2 = .ok flags
  route : ∀ w rt, rt.route ∉ k.table w →
    ∃ flags, (k.ioctl w (.addRoute rt)).2 = .ok flags

/-- A run takes `gw` for the gateway, and installs the default route through it. -/
structure TakesRouter (k : Kernel World) (w : World) (event : List UInt8) (env : Env)
    (dev : List UInt8) (gw : UInt32) : Prop where
  gateway : (ifuRun k w event env).2.gw = gw
  added : (ifuRun k w event env).2.didRouteAdd = true
  installed : (routePrep dev gw).route ∈ k.table (ifuRun k w event env).1

/-! ## What is read of a list -/

/-- A dotted quad has a length of its own, and no space. -/
theorem quad_of_parse {t : List UInt8} {v : UInt32} (parsed : nuParseIpv4 t = .ok v) :
    0 < t.length ∧ t.length ≤ nuQuadMax ∧ (∀ c ∈ t, c ≠ 0x20 ∧ c ≠ 0x09) ∧
      nuParseIpv4N t = .ok v := by
  obtain ⟨octets, read, -⟩ := nuParseIpv4_eq_ok.mp parsed
  obtain ⟨four, isText⟩ := DottedQuad.read_eq_some.mp read
  have short : t.length ≤ nuQuadMax := by
    rw [isText]
    exact DottedQuad.length_text_le four
  refine ⟨?_, short, fun c member => ?_, ?_⟩
  · rcases Nat.eq_zero_or_pos t.length with empty | pos
    · rw [List.length_eq_zero_iff.mp empty] at read
      cases read
    · exact pos
  · rw [isText] at member
    rcases DottedQuad.digit_or_dot c member with digit | rfl
    · constructor <;> rintro rfl <;> exact absurd digit (by decide)
    · decide
  · unfold nuParseIpv4 at parsed
    rwa [if_neg (Nat.not_lt.mpr short)] at parsed

theorem firstRouter_routerList {first : List UInt8} {others : List (List UInt8)}
    {gw : UInt32} (isFirst : nuParseIpv4 first = .ok gw)
    (long : nuQuadMax < (routerList first others).length) :
    firstRouter (routerList first others) = first := by
  obtain ⟨-, short, noSpace, -⟩ := quad_of_parse isFirst
  cases others with
  | nil =>
      have same : routerList first [] = first := List.append_nil first
      rw [same] at long
      omega
  | cons t others =>
      have passes : ∀ c ∈ first, (decide (c ≠ 0x20) && decide (c ≠ 0x09)) = true := by
        intro c member
        simp [noSpace c member]
      have cut : (routerList first (t :: others)).take (nuQuadMax + 1) =
          first ++ 0x20 :: ((t ++ others.flatMap (0x20 :: ·)).take (nuQuadMax - first.length)) := by
        have isList : routerList first (t :: others) =
            first ++ 0x20 :: (t ++ others.flatMap (0x20 :: ·)) := rfl
        rw [isList, List.take_append, List.take_of_length_le (by omega),
          show nuQuadMax + 1 - first.length = (nuQuadMax - first.length) + 1 by omega,
          List.take_succ_cons]
      unfold firstRouter
      rw [cut, List.takeWhile_append_of_pos passes]
      simp

/-- A list is refused as a dotted quad when it is no longer than one. -/
theorem nuParseIpv4_routerList {first t : List UInt8} {others : List (List UInt8)} :
    ∃ e, nuParseIpv4 (routerList first (t :: others)) = .error e := by
  rcases parsed : nuParseIpv4 (routerList first (t :: others)) with e | v
  · exact ⟨e, rfl⟩
  · obtain ⟨-, -, noSpace, -⟩ := quad_of_parse parsed
    exact absurd rfl (noSpace 0x20 (by simp [routerList])).1

theorem getBounded_of_short {s : List UInt8} {max : Nat} (pos : 0 < s.length)
    (short : s.length ≤ max) : getBounded (some s) max = .value s := by
  cases s with
  | nil => cases pos
  | cons c s => exact if_neg (Nat.not_lt.mpr short)

theorem getBounded_of_long {s : List UInt8} {max : Nat} (long : max < s.length) :
    getBounded (some s) max = .tooLong s := by
  cases s with
  | nil => cases long
  | cons c s => exact if_pos long

/-- The first router of a list is read, but for a short list. -/
theorem readRouter_routerList {first : List UInt8} {others : List (List UInt8)}
    {gw : UInt32} (isFirst : nuParseIpv4 first = .ok gw) :
    (readRouter (some (routerList first others))).gateway =
      if others = [] ∨ nuQuadMax < (routerList first others).length then some gw
      else none := by
  obtain ⟨pos, short, -, parsed⟩ := quad_of_parse isFirst
  by_cases long : nuQuadMax < (routerList first others).length
  · rw [if_pos (.inr long)]
    unfold readRouter
    rw [getBounded_of_long long]
    dsimp only
    rw [firstRouter_routerList isFirst long, if_neg (by omega), parsed]
    rfl
  · have posList : 0 < (routerList first others).length := by
      rw [routerList, List.length_append]
      omega
    unfold readRouter
    rw [getBounded_of_short posList (Nat.le_of_not_lt long)]
    dsimp only
    cases others with
    | nil =>
        have same : routerList first [] = first := List.append_nil first
        rw [same, isFirst, if_pos (.inl rfl)]
        rfl
    | cons t others =>
        obtain ⟨e, refused⟩ := @nuParseIpv4_routerList first t others
        rw [refused, if_neg (by simp [long])]
        rfl

/-! ## What a run makes of it -/

@[simp]
theorem note_gw (r : IfuResult) (t : String) : (note r t).gw = r.gw := by
  unfold note
  split <;> rfl

theorem setMask_lease (s : World × IfuResult) :
    (setMask k s).2.ip = s.2.ip ∧ (setMask k s).2.mask = s.2.mask := by
  unfold setMask
  generalize nuIfSetMask k s.1 s.2.ifname s.2.mask = answer
  obtain ⟨after, result⟩ := answer
  cases result with
  | error e => simp [inPart]
  | ok flags => exact ⟨rfl, rfl⟩

theorem setUp_lease (s : World × IfuResult) :
    (setUp k s).2.ip = s.2.ip ∧ (setUp k s).2.mask = s.2.mask := by
  unfold setUp
  generalize nuIfSetFlags k s.1 s.2.ifname true = answer
  obtain ⟨after, result⟩ := answer
  cases result with
  | error e => simp
  | ok flags => exact ⟨rfl, rfl⟩

theorem noteRouter_lease (read : RouterRead) (r : IfuResult) :
    (noteRouter read r).ip = r.ip ∧ (noteRouter read r).mask = r.mask := by
  cases read <;> simp [noteRouter, inPart]

theorem noteRouter_gw {read : RouterRead} {gw : UInt32} (given : read.gateway = some gw)
    (r : IfuResult) : (noteRouter read r).gw = gw := by
  cases read with
  | listFirst v => simpa [RouterRead.gateway, noteRouter] using given
  | single v => simpa [RouterRead.gateway, noteRouter] using given
  | absent => cases given
  | listUnparsable => cases given
  | bad e => cases given

theorem setRouter_without {env : Env} (none_ : (readRouter env.router).gateway = none)
    (s : World × IfuResult) :
    (setRouter k env s).2.didRouteAdd = s.2.didRouteAdd := by
  have kept := (noteRouter_keeps (readRouter env.router) s.2).2.1
  unfold setRouter
  dsimp only
  rw [none_]
  dsimp only
  split
  · rw [note_didRouteAdd, kept]
  · exact kept

theorem deleteRoute_gw (gw : UInt32) (s : World × IfuResult) :
    (deleteRoute k gw s).2.gw = s.2.gw := by
  unfold deleteRoute
  generalize nuRouteDefaultDel k s.1 s.2.ifname gw = answer
  obtain ⟨after, result⟩ := answer
  cases result <;> rfl

/-- A gateway that is not refused is routed through. -/
theorem setRouter_takes (lawful : k.Lawful) (grants : Grants k) {env : Env} {gw : UInt32}
    {s : World × IfuResult} (named : nuIfnameOk s.2.ifname = true)
    (given : (readRouter env.router).gateway = some gw)
    (good : gatewayRefusal s.2.ip s.2.mask gw = none) :
    (setRouter k env s).2.gw = gw ∧ (setRouter k env s).2.didRouteAdd = true ∧
      (routePrep s.2.ifname gw).route ∈ k.table (setRouter k env s).1 := by
  obtain ⟨ip, mask⟩ := noteRouter_lease (readRouter env.router) s.2
  obtain ⟨ifname, -, -⟩ := noteRouter_keeps (readRouter env.router) s.2
  have deleted := deleteRoute_keeps lawful
    (s := (s.1, noteRouter (readRouter env.router) s.2)) (ifname.symm ▸ named) gw
  have isGw := (deleteRoute_gw (k := k) gw (s.1, noteRouter (readRouter env.router) s.2)).trans
    (noteRouter_gw given s.2)
  dsimp only at deleted isGw
  unfold setRouter
  dsimp only
  rw [given]
  dsimp only
  rw [ip, mask, good]
  dsimp only
  rw [ifname] at deleted
  obtain ⟨table, -, isDev⟩ := deleted
  generalize deleteRoute k gw (s.1, noteRouter (readRouter env.router) s.2) = d
    at table isDev isGw ⊢
  have absent : (routePrep s.2.ifname gw).route ∉ k.table d.1 := by
    rw [table]
    exact Finset.notMem_erase _ _
  obtain ⟨flags, granted⟩ := grants.route d.1 (routePrep s.2.ifname gw) absent
  have made : nuRouteDefaultAdd k d.1 d.2.ifname gw =
      ((k.ioctl d.1 (.addRoute (routePrep s.2.ifname gw))).1, .ok flags) := by
    unfold nuRouteDefaultAdd doIoctl
    rw [isDev, if_pos named]
    generalize k.ioctl d.1 (.addRoute (routePrep s.2.ifname gw)) = answer at granted ⊢
    obtain ⟨after, result⟩ := answer
    cases result with
    | error e => cases granted
    | ok value =>
        obtain rfl := Except.ok.inj granted
        rfl
  unfold addRoute
  rw [made]
  refine ⟨isGw, rfl, ?_⟩
  dsimp only
  rw [lawful.adds _ _ _ granted]
  exact Finset.mem_insert_self _ _

theorem setResolvers_gw (env : Env) (s : World × IfuResult) :
    (setResolvers k env s).2.gw = s.2.gw := by
  unfold setResolvers
  dsimp only
  split <;> split <;> split <;> simp

/-- A lease with good values comes to its router, and ends with its resolvers. -/
theorem ifuRun_listed (lawful : k.Lawful) (grants : Grants k) (w : World)
    {event : List UInt8} {env : Env} {dev first : List UInt8} {ip mask gw : UInt32}
    {others : List (List UInt8)} (lease : carriesLease event)
    (listed : ListedLease env dev ip mask gw first others) :
    ∃ s : World × IfuResult, s.2.ifname = dev ∧ s.2.ip = ip ∧ s.2.mask = mask ∧
      s.2.didRouteAdd = false ∧
      ifuRun k w event env = setResolvers k env (setRouter k env s) := by
  obtain ⟨ip', mask', read⟩ | refused := readLease_cases env
  · have start := (read {}).symm.trans listed.lease
    obtain ⟨rfl, rfl⟩ : ip' = ip ∧ mask' = mask := by
      simpa using start
    have pos : 0 < dev.length := by
      have named := listed.named
      unfold nuIfnameOk at named
      rcases Nat.eq_zero_or_pos dev.length with empty | pos
      · rw [empty] at named
        cases named
      · exact pos
    have short := length_of_nuIfnameOk listed.named
    have bounded : getBounded env.interface nuIfnameMax = .value dev := by
      rw [listed.interface]
      exact getBounded_of_short pos short
    have run : ∃ r : IfuResult, r.ifname = dev ∧ r.didRouteAdd = false ∧
        ifuRun k w event env = doBound k w r env := by
      rcases carriesLease_iff.mp lease with bound | renew
      · exact ⟨{ event := .bound, ifname := dev }, rfl, rfl,
          by simp [ifuRun, bound, bounded, listed.named]⟩
      · exact ⟨{ event := .renew, ifname := dev }, rfl, rfl,
          by simp [ifuRun, renew, bounded, listed.named]⟩
    obtain ⟨r, rfl, fresh, isRun⟩ := run
    obtain ⟨flags, granted⟩ := grants.addr w r.ifname ip'
    have made : nuIfSetAddr k w r.ifname ip' =
        ((k.ioctl w (.setAddr r.ifname ip')).1, .ok flags) := by
      unfold nuIfSetAddr doIoctl
      rw [if_pos listed.named]
      generalize k.ioctl w (.setAddr r.ifname ip') = answer at granted ⊢
      obtain ⟨after, result⟩ := answer
      cases result with
      | error e => cases granted
      | ok value =>
          obtain rfl := Except.ok.inj granted
          rfl
    let started : World × IfuResult := ((k.ioctl w (.setAddr r.ifname ip')).1,
      { r with ip := ip', mask := mask', didAddr := true })
    have masked := setMask_lease (k := k) started
    have maskKept := setMask_keeps (k := k) started
    have up := setUp_lease (k := k) (setMask k started)
    have upKept := setUp_keeps lawful (setMask k started)
    refine ⟨setUp k (setMask k started), upKept.2.2.1.trans maskKept.1, up.1.trans masked.1,
      up.2.trans masked.2, (upKept.2.2.2.trans maskKept.2).trans fresh, ?_⟩
    rw [isRun]
    unfold doBound
    rw [read r]
    dsimp only
    rw [made]
  · obtain ⟨r', read, -⟩ := refused {}
    rw [listed.lease] at read
    cases read

end

/-! ## Two lists -/

theorem granting_grants : Grants granting where
  addr w dev ip := by
    by_cases same : w.addr dev = ip <;> simp [granting, grant, same]
  route w rt absent := by
    have absent' : rt.route ∉ w.table := absent
    simp [granting, grant, absent']

/-- A lease of 1.1.1.50/24 with a list of routers. -/
def leaseWith (router : String) : Env where
  interface := some (ascii "eth4")
  ip := some (ascii "1.1.1.50")
  subnet := some (ascii "255.255.255.0")
  router := some (ascii router)
  dns := none

theorem listed_of_short (router second : String) (v : UInt32)
    (isList : ascii router = routerList (ascii "1.1.1.1") [ascii second])
    (isQuad : nuParseIpv4 (ascii second) = .ok v) :
    ListedLease (leaseWith router) (ascii "eth4") 0x01010132 0xFFFFFF00 0x01010101
      (ascii "1.1.1.1") [ascii second] where
  interface := rfl
  named := by decide
  lease := by
    have same : readLease (leaseWith router) {} = readLease (leaseWith "") {} := rfl
    rw [same]
    decide
  router := congrArg some isList
  isFirst := by decide
  areQuads := by
    intro t member
    rw [List.mem_singleton.mp member]
    exact ⟨v, isQuad⟩
  unicast := by decide
  onSubnet := by decide
  other := by decide

end RlxFw.Ifupd
