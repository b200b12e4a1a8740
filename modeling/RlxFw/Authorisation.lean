import RlxFw.HiddenValues

/-!
# Who may ask for what

The gate as a rule: what each peer can reach, what a refusal leaves, and what
of the configuration a reply can show.
-/

namespace RlxFw.Broker

open CfgStore (Cfg Medium SameShown cfgGet cfgKeyById)

/-! ## The table -/

theorem bkOpRule_mem {op : Nat} {r : OpRule} (found : bkOpRule op = some r) :
    r ∈ rules ∧ r.op = op := by
  refine ⟨List.mem_of_find?_eq_some found, ?_⟩
  have holds := List.find?_some found
  simpa using holds

/-- Every operation of the table is supported and open to the web peer. -/
theorem rules_open : ∀ r ∈ rules, r.supported = true ∧ r.allow100 = true := by
  decide

/-- The DNS peer may ask for one operation. -/
theorem rules_dnsfwd : ∀ r ∈ rules, r.allow101 = true → r.op = opGetId := by
  decide

/-- Of the operations that need a session, GET alone needs no CSRF token. -/
theorem rules_csrf : ∀ r ∈ rules, r.needSession = true → r.op ≠ opGetId →
    r.needCsrf = true := by
  decide

/-- The status an unknown peer gets. -/
def strangerStatus (op : Nat) : Status :=
  if (bkOpRule op).isSome then .perm else .notsup

theorem earlyRefusal_stranger {rq : Req} {uid : Nat}
    (stranger : knownUid uid = false) :
    earlyRefusal rq uid = some (strangerStatus rq.op) := by
  unfold earlyRefusal strangerStatus
  cases found : bkOpRule rq.op with
  | none => rfl
  | some r =>
      obtain ⟨supported, -⟩ := rules_open r (bkOpRule_mem found).1
      simp [supported, stranger]

theorem earlyRefusal_status {rq : Req} {uid : Nat} {st : Status}
    (early : earlyRefusal rq uid = some st) : st ≠ .ok := by
  rintro rfl
  unfold earlyRefusal at early
  cases found : bkOpRule rq.op with
  | none =>
      rw [found] at early
      cases early
  | some r =>
      rw [found] at early
      dsimp only at early
      split_ifs at early <;> cases early

theorem earlyRefusal_dnsfwd {rq : Req} (other : rq.op ≠ opGetId) :
    (earlyRefusal rq uidDnsfwd).isSome = true := by
  unfold earlyRefusal
  cases found : bkOpRule rq.op with
  | none => rfl
  | some r =>
      obtain ⟨member, same⟩ := bkOpRule_mem found
      have closed : r.allow101 = false := by
        cases open101 : r.allow101 with
        | false => rfl
        | true => exact absurd (same ▸ rules_dnsfwd r member open101) other
      obtain ⟨supported, open100⟩ := rules_open r member
      simp [supported, open100, closed, knownUid, uidDnsfwd]

/-! ## Sessions -/

/-- An entry is a live session under a token: in use, and used within the idle
limit. -/
structure LiveSession (now : Nat) (table : Table) (tok : Token)
    (i : Fin nsess) : Prop where
  used : (table i).used = true
  tok_eq : (table i).tok = tok
  fresh : now - (table i).last < sessTtl

theorem hit_spec {table : Table} {tok : Token} {i : Fin nsess}
    (found : hit table tok = some i) :
    (table i).used = true ∧ (table i).tok = tok := by
  have spec : ∀ (is : List (Fin nsess)) (start : Option (Fin nsess)),
      (∀ j ∈ start, (table j).used = true ∧ (table j).tok = tok) →
      ∀ j ∈ is.foldl
        (fun hit i =>
          if (table i).used ∧ bkCtEq (table i).tok.bytes tok.bytes then some i
          else hit) start,
        (table j).used = true ∧ (table j).tok = tok := by
    intro is
    induction is with
    | nil => exact fun _ holds => holds
    | cons j rest ih =>
        intro start holds
        refine ih _ ?_
        dsimp only
        split_ifs with matching
        · rintro k ⟨⟩
          exact ⟨matching.1, (Token.ctEq_iff _ _).mp matching.2⟩
        · exact holds
  exact spec _ none nofun i found

/-- What a lookup finds is a live session of the table it was made on. -/
theorem liveSession_of_find {now : Nat} {table : Table} {tok : Token}
    {i : Fin nsess} (found : (bkSessFind now table tok).2 = some i) :
    LiveSession now table tok i ∧
      (bkSessFind now table tok).1 i = table i := by
  obtain ⟨used, same⟩ := hit_spec found
  have kept := bkSessExpire_used used
  change (bkSessExpire now table i).tok = tok at same
  change _ ∧ bkSessExpire now table i = table i
  rw [kept] at same
  refine ⟨⟨kept ▸ used, same, ?_⟩, kept⟩
  by_contra idle
  have inUse : (table i).used = true := kept ▸ used
  unfold bkSessExpire at used
  rw [if_pos ⟨inUse, by omega⟩] at used
  cases used

/-- The table after the reload of a request: as it was, or emptied. -/
theorem bkReload_table (faults : CfgStore.Faults) (m : Medium) (bk : State) :
    (bkReload faults m bk).sessions.table = bk.sessions.table ∨
      (bkReload faults m bk).sessions.table = bkSessDropAll := by
  unfold bkReload
  dsimp only
  split_ifs
  · exact Or.inr rfl
  · exact Or.inl rfl

theorem LiveSession.before_reload {now : Nat} {faults : CfgStore.Faults}
    {m : Medium} {bk : State} {tok : Token} {i : Fin nsess}
    (live : LiveSession now (bkReload faults m bk).sessions.table tok i) :
    (bkReload faults m bk).sessions.table = bk.sessions.table := by
  rcases bkReload_table faults m bk with same | emptied
  · exact same
  · have used := live.used
    rw [emptied] at used
    cases used

/-! ## The gate -/

section Gate

variable {w : World} {rq : Req} {uid : Nat} {bk : State} {m : Medium}

/-- A request that the gate refuses is answered with a bare status. -/
theorem bkDispatch_refused {bk' : State} {st : Status}
    (refused : gate w rq uid bk m = .refused bk' st) :
    bkDispatch w rq uid bk m =
      { bk := bk', medium := m, rs := rsStatus st } := by
  unfold bkDispatch
  rw [refused]

/-- A request that the gate passes is its handler's. -/
theorem bkDispatch_passed {bk' : State} {sess : Option (Fin nsess)}
    (passed : gate w rq uid bk m = .passed bk' sess) :
    bkDispatch w rq uid bk m = handle w rq uid sess bk' m := by
  unfold bkDispatch
  rw [passed]

theorem gate_early {st : Status} (early : earlyRefusal rq uid = some st) :
    gate w rq uid bk m = .refused bk st := by
  unfold gate
  rw [early]

/-- What passing the gate comes to. -/
structure GatePassed (w : World) (rq : Req) (uid : Nat) (bk bk' : State)
    (m : Medium) (sess : Option (Fin nsess)) : Prop where
  early : earlyRefusal rq uid = none
  session : sessionRefusal rq uid
    (findSession w.findAt rq uid (bkReload w.load m bk).sessions.table) = none
  sess_eq : sess =
    (findSession w.findAt rq uid (bkReload w.load m bk).sessions.table).2
  state : bk' =
    { bkReload w.load m bk with
      sessions :=
        { (bkReload w.load m bk).sessions with
          table :=
            touch
              (findSession w.findAt rq uid
                (bkReload w.load m bk).sessions.table).1
              sess (some w.touchAt) } }

theorem gatePassed_of_gate {bk' : State} {sess : Option (Fin nsess)}
    (passed : gate w rq uid bk m = .passed bk' sess) :
    GatePassed w rq uid bk bk' m sess := by
  unfold gate at passed
  cases early : earlyRefusal rq uid with
  | some st =>
      rw [early] at passed
      cases passed
  | none =>
      rw [early] at passed
      dsimp only at passed
      cases refusal : sessionRefusal rq uid
          (findSession w.findAt rq uid
            (bkReload w.load m bk).sessions.table) with
      | some st =>
          rw [refusal] at passed
          cases passed
      | none =>
          rw [refusal] at passed
          obtain ⟨rfl, rfl⟩ := Gated.passed.inj passed
          exact ⟨early, refusal, rfl, rfl⟩

theorem sessionRefusal_status {found : Table × Option (Fin nsess)}
    {st : Status} (refused : sessionRefusal rq uid found = some st) :
    st ≠ .ok := by
  rintro rfl
  unfold sessionRefusal at refused
  cases rule : bkOpRule rq.op with
  | none =>
      rw [rule] at refused
      cases refused
  | some r =>
      rw [rule] at refused
      dsimp only at refused
      cases session : found.2 with
      | none =>
          rw [session] at refused
          split_ifs at refused
          cases refused
      | some i =>
          rw [session] at refused
          dsimp only at refused
          split_ifs at refused
          cases refused

theorem gate_refused_status {bk' : State} {st : Status}
    (refused : gate w rq uid bk m = .refused bk' st) : st ≠ .ok := by
  unfold gate at refused
  cases early : earlyRefusal rq uid with
  | some st' =>
      rw [early] at refused
      obtain ⟨-, rfl⟩ := Gated.refused.inj refused
      exact earlyRefusal_status early
  | none =>
      rw [early] at refused
      dsimp only at refused
      cases refusal : sessionRefusal rq uid
          (findSession w.findAt rq uid
            (bkReload w.load m bk).sessions.table) with
      | some st' =>
          rw [refusal] at refused
          obtain ⟨-, rfl⟩ := Gated.refused.inj refused
          exact sessionRefusal_status refusal
      | none =>
          rw [refusal] at refused
          cases refused

/-- A web request for an operation that needs a session reaches its handler on
a live session, and with its CSRF token unless it only reads. -/
structure WebAuthorised (w : World) (rq : Req) (bk : State)
    (sess : Option (Fin nsess)) : Prop where
  session : ∃ i, sess = some i ∧
    LiveSession w.findAt bk.sessions.table rq.session i ∧
    (rq.op ≠ opGetId → (bk.sessions.table i).csrf = rq.csrf)

theorem webAuthorised_of_gate {bk' : State} {sess : Option (Fin nsess)}
    {r : OpRule} (passed : gate w rq uidHttpd bk m = .passed bk' sess)
    (rule : bkOpRule rq.op = some r) (needs : r.needSession = true) :
    WebAuthorised w rq bk sess := by
  have gated := gatePassed_of_gate passed
  have session := gated.session
  have sessEq := gated.sess_eq
  unfold sessionRefusal at session
  rw [rule] at session
  dsimp only at session
  rw [if_pos ⟨rfl, needs⟩] at session
  unfold findSession at session sessEq
  rw [if_pos (Or.inr rfl)] at session sessEq
  cases found : (bkSessFind w.findAt (bkReload w.load m bk).sessions.table
      rq.session).2 with
  | none =>
      rw [found] at session
      cases session
  | some i =>
      rw [found] at session sessEq
      dsimp only at session
      obtain ⟨live, kept⟩ := liveSession_of_find found
      have unchanged := live.before_reload
      rw [unchanged] at live kept
      rw [unchanged, kept] at session
      obtain ⟨member, named⟩ := bkOpRule_mem rule
      refine ⟨i, sessEq, live, fun changes => ?_⟩
      have csrf := rules_csrf r member needs (named ▸ changes)
      by_contra other
      have differ : ¬ bkCtEq (bk.sessions.table i).csrf.bytes rq.csrf.bytes =
          true := fun same => other ((Token.ctEq_iff _ _).mp same)
      rw [if_pos ⟨csrf, differ⟩] at session
      cases session

end Gate

/-! ## GET -/

section Get

variable {cfg cfg' : Cfg} {uid : Nat}

/-- A key that a peer may read. -/
structure Readable (uid id : Nat) : Prop where
  shown : uid ≠ uidRoot → ∀ k ∈ cfgKeyById id, k.web ≠ .hidden
  dnsfwd : uid = uidDnsfwd → id ∈ dnsfwdKeys

/-- A GET that succeeds was for keys its peer may read. -/
theorem readable_of_opGetKeys {ids : List Nat} {out : List UInt8}
    (ok : (opGetKeys cfg uid ids out).status = .ok) :
    ∀ id ∈ ids, Readable uid id := by
  induction ids generalizing out with
  | nil => nofun
  | cons id rest ih =>
      unfold opGetKeys at ok
      cases known : cfgKeyById id with
      | none =>
          rw [known] at ok
          cases ok
      | some k =>
          rw [known] at ok
          dsimp only at ok
          split_ifs at ok with hidden outside
          · cases ok
          · cases ok
          · have first : Readable uid id := by
              refine ⟨fun notRoot => ?_, fun dnsfwd => ?_⟩
              · rintro k' named
                obtain rfl : k = k' := Option.some.inj (known.symm.trans named)
                exact fun web => hidden ⟨notRoot, web⟩
              · by_contra absent
                refine outside ⟨dnsfwd, fun listed => absent ?_⟩
                exact List.contains_iff_mem.mp listed
            cases read : cfgGet cfg id with
            | error fault =>
                rw [read] at ok
                cases ok
            | ok v =>
                rw [read] at ok
                dsimp only at ok
                cases put : protoTlvPut out id v with
                | none =>
                    rw [put] at ok
                    cases ok
                | some longer =>
                    rw [put] at ok
                    exact List.forall_mem_cons.mpr ⟨first, ih ok⟩

theorem readable_of_opGet {rq : Req} (ok : (opGet rq uid cfg).status = .ok) :
    ∀ id ∈ getIds rq.body, Readable uid id := by
  unfold opGet at ok
  split_ifs at ok
  · cases ok
  · cases ok
  · exact readable_of_opGetKeys ok

end Get

/-! ## The DNS peer -/

/-- What a request of the DNS peer leaves alone, and what it can be. -/
structure DnsfwdConfined (w : World) (rq : Req) (bk : State) (m : Medium)
    (after : Handled) : Prop where
  medium : after.medium = m
  upd : after.bk.upd = bk.upd
  table : after.bk.sessions.table = bk.sessions.table ∨
    after.bk.sessions.table = bkSessDropAll ∧
      hashChanged (pwhash bk.cfg)
        (pwhash (CfgStore.bkCfgReload (CfgStore.loadInfo w.load m))) = true
  answered : after.rs.status = .ok →
    rq.op = opGetId ∧ ∀ id ∈ getIds rq.body, id ∈ dnsfwdKeys

theorem findSession_dnsfwd (now : Nat) (rq : Req) (table : Table) :
    findSession now rq uidDnsfwd table = (table, none) :=
  if_neg (by decide)

theorem sessionRefusal_other {rq : Req} {uid : Nat}
    {found : Table × Option (Fin nsess)} (other : uid ≠ uidHttpd) :
    sessionRefusal rq uid found = none := by
  unfold sessionRefusal
  cases bkOpRule rq.op with
  | none => rfl
  | some r => exact if_neg fun httpd => other httpd.1

/-- The DNS peer that passes the gate finds the broker reloaded, and no
session. -/
theorem gate_dnsfwd {w : World} {rq : Req} {bk : State} {m : Medium}
    (open101 : earlyRefusal rq uidDnsfwd = none) :
    gate w rq uidDnsfwd bk m = .passed (bkReload w.load m bk) none := by
  unfold gate
  rw [open101]
  dsimp only
  rw [findSession_dnsfwd, sessionRefusal_other (by decide)]
  rfl

theorem dnsfwdConfined_dispatch (w : World) (rq : Req) (bk : State)
    (m : Medium) :
    DnsfwdConfined w rq bk m (bkDispatch w rq uidDnsfwd bk m) := by
  cases early : earlyRefusal rq uidDnsfwd with
  | some st =>
      rw [bkDispatch_refused (gate_early early)]
      exact ⟨rfl, rfl, Or.inl rfl, fun ok =>
        absurd ok (earlyRefusal_status early)⟩
  | none =>
      have isGet : rq.op = opGetId := by
        by_contra other
        have refused := earlyRefusal_dnsfwd other
        rw [early] at refused
        cases refused
      rw [bkDispatch_passed (gate_dnsfwd early)]
      unfold handle
      dsimp only
      rw [if_pos isGet]
      refine ⟨rfl, rfl, ?_, fun ok => ⟨isGet, fun id asked => ?_⟩⟩
      · change (bkReload w.load m bk).sessions.table = _ ∨
          (bkReload w.load m bk).sessions.table = _ ∧ _
        unfold bkReload
        dsimp only
        split_ifs with changed
        · exact Or.inr ⟨rfl, changed⟩
        · exact Or.inl rfl
      · exact (readable_of_opGet ok id asked).dnsfwd rfl

/-! ## Every peer -/

/-- What the reply to a peer other than root can show of the configuration:
nothing, or what a handler makes of shown values and of its own status. -/
structure HiddenUnseen (w : World) (rq : Req) (uid : Nat) (bk : State)
    (m : Medium) : Prop where
  answered : (bkDispatch w rq uid bk m).rs.body = [] ∨
    ∃ bk' sess, gate w rq uid bk m = .passed bk' sess ∧
      bkDispatch w rq uid bk m = handle w rq uid sess bk' m ∧
      ∀ c, SameShown bk'.cfg c →
        BodyByStatus (bkDispatch w rq uid bk m).rs
          (handle w rq uid sess (bk'.withCfg c) m).rs
  get : rq.op = opGetId → (bkDispatch w rq uid bk m).rs.status = .ok →
    ∀ id ∈ getIds rq.body, ∀ k ∈ cfgKeyById id, k.web ≠ .hidden

/-- What each peer can reach, in one state and for one request. -/
structure Authorised (w : World) (rq : Req) (bk : State) (m : Medium) :
    Prop where
  stranger : ∀ uid, knownUid uid = false →
    bkDispatch w rq uid bk m =
      { bk := bk, medium := m, rs := rsStatus (strangerStatus rq.op) }
  web : ∀ r bk' sess, bkOpRule rq.op = some r → r.needSession = true →
    gate w rq uidHttpd bk m = .passed bk' sess → WebAuthorised w rq bk sess
  dnsfwd : DnsfwdConfined w rq bk m (bkDispatch w rq uidDnsfwd bk m)
  hidden : ∀ uid, uid ≠ uidRoot → HiddenUnseen w rq uid bk m

theorem hiddenUnseen (w : World) (rq : Req) {uid : Nat} (bk : State)
    (m : Medium) (notRoot : uid ≠ uidRoot) : HiddenUnseen w rq uid bk m := by
  cases gated : gate w rq uid bk m with
  | refused bk' st =>
      have reply := bkDispatch_refused gated
      refine ⟨Or.inl (congrArg (fun done => done.rs.body) reply),
        fun _ ok => ?_⟩
      rw [reply] at ok
      exact absurd ok (gate_refused_status gated)
  | passed bk' sess =>
      have reply := bkDispatch_passed gated
      refine ⟨Or.inr ⟨bk', sess, gated, reply, fun c same => ?_⟩,
        fun isGet ok => ?_⟩
      · rw [reply]
        exact handle_withCfg bk' c w rq sess m notRoot same
      · rw [reply] at ok
        unfold handle at ok
        dsimp only at ok
        rw [if_pos isGet] at ok
        exact fun id asked => (readable_of_opGet ok id asked).shown notRoot

/-- The broker's authorisation, in every state and for every request. -/
theorem bkDispatch_authorised (w : World) (rq : Req) (bk : State)
    (m : Medium) : Authorised w rq bk m where
  stranger _ unknown :=
    bkDispatch_refused (gate_early (earlyRefusal_stranger unknown))
  web _ _ _ rule needs passed := webAuthorised_of_gate passed rule needs
  dnsfwd := dnsfwdConfined_dispatch w rq bk m
  hidden _ notRoot := hiddenUnseen w rq bk m notRoot

end RlxFw.Broker
