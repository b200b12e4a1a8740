import RlxFw.Dispatch
import RlxFw.ShownCfg

/-!
# Replies and hidden values

No handler asked by a peer other than root puts a hidden value in its reply:
with other hidden values, a reply of the same status has the same body.
-/

namespace RlxFw.Broker

open CfgStore (Cfg Medium Faults SameShown OutcomesAlike cfgSet cfgKeyById cfgKeys
  cfgIndexById)

section Shown

variable {c c' : Cfg}

/-! ## GET -/

/-- GET answers a peer other than root from shown values. -/
theorem opGetKeys_shown (same : SameShown c c') {uid : Nat}
    (notRoot : uid ≠ uidRoot) (ids : List Nat) (out : List UInt8) :
    opGetKeys c uid ids out = opGetKeys c' uid ids out := by
  induction ids generalizing out with
  | nil => rfl
  | cons id rest ih =>
      unfold Broker.opGetKeys
      cases known : cfgKeyById id with
      | none => rfl
      | some k =>
          dsimp only
          by_cases hidden : k.web = .hidden
          · rw [if_pos ⟨notRoot, hidden⟩, if_pos ⟨notRoot, hidden⟩]
          · have shown : ∀ k ∈ cfgKeyById id, k.web ≠ .hidden := by
              rintro k' named
              obtain rfl : k = k' := Option.some.inj (known.symm.trans named)
              exact hidden
            rw [same.cfgGet shown]
            simp only [ih]

theorem opGet_shown (same : SameShown c c') {uid : Nat}
    (notRoot : uid ≠ uidRoot) (rq : Req) :
    opGet rq uid c = opGet rq uid c' := by
  unfold Broker.opGet
  rw [opGetKeys_shown same notRoot]

/-! ## SET -/

/-- Two edited records: alike in what is shown, and with the hidden values they
started with. -/
structure Edited (c c' work work' : Cfg) : Prop where
  shown : SameShown work work'
  kept : ∀ i, (cfgKeys i).web = .hidden →
    work.value i = c.value i ∧ work'.value i = c'.value i

/-- Setting a shown key to one value in both. -/
theorem Edited.cfgSet {work work' : Cfg} (edited : Edited c c' work work')
    {id : Nat} {k : CfgStore.Key} (known : cfgKeyById id = some k)
    (shown : k.web ≠ .hidden) (v : List UInt8) :
    OutcomesAlike (Edited c c') (cfgSet work id v) (cfgSet work' id v) := by
  unfold CfgStore.cfgSet
  unfold cfgKeyById at known
  cases found : cfgIndexById id with
  | none =>
      rw [found] at known
      cases known
  | some i =>
      rw [found] at known
      cases known
      dsimp only
      cases CfgStore.schemaCheckValue (cfgKeys i) v with
      | some rc => exact rfl
      | none =>
          refine ⟨⟨edited.shown.seq, edited.shown.source, fun j visible => ?_⟩,
            fun j hidden => ?_⟩
          · dsimp only
            by_cases here : j = i
            · subst here
              rw [Function.update_self, Function.update_self]
            · rw [Function.update_of_ne here, Function.update_of_ne here]
              exact edited.shown.value j visible
          · have other : j ≠ i := fun here => shown (here ▸ hidden)
            dsimp only
            rw [Function.update_of_ne other, Function.update_of_ne other]
            exact edited.kept j hidden

theorem Edited.opSetItems {work work' : Cfg} (edited : Edited c c' work work')
    {uid : Nat} (notRoot : uid ≠ uidRoot) (left : Nat) (body : List UInt8)
    (prev : Option Nat) :
    OutcomesAlike (Edited c c') (opSetItems uid left body prev work)
      (opSetItems uid left body prev work') := by
  induction left generalizing body prev work work' with
  | zero =>
      cases body with
      | nil => exact edited
      | cons byte more => exact rfl
  | succ left ih =>
      cases body with
      | nil => exact edited
      | cons byte more =>
          unfold Broker.opSetItems
          cases protoTlvGet (byte :: more) with
          | none => exact rfl
          | some read =>
              obtain ⟨item, rest⟩ := read
              dsimp only
              by_cases ascends : Tlv.ascends prev item.type = true
              · rw [if_neg (not_not.mpr ascends), if_neg (not_not.mpr ascends)]
                cases known : cfgKeyById item.type with
                | none => exact rfl
                | some k =>
                    dsimp only
                    by_cases visible : k.web = .rw
                    · have closed : ¬ (uid ≠ uidRoot ∧ k.web ≠ .rw) :=
                        fun both => both.2 visible
                      rw [if_neg closed, if_neg closed]
                      have shown : k.web ≠ .hidden := by
                        rw [visible]
                        nofun
                      rcases (edited.cfgSet known shown item.val).cases with
                        ⟨fault, left', right'⟩ | ⟨next, next', left', right', later⟩
                      · rw [left', right']
                        exact rfl
                      · rw [left', right']
                        exact ih later rest (some item.type)
                    · rw [if_pos ⟨notRoot, visible⟩,
                        if_pos ⟨notRoot, visible⟩]
                      exact rfl
              · rw [if_pos ascends, if_pos ascends]
                exact rfl

/-- Two SETs of one body end alike, before their store. -/
theorem opSetEdit_shown (same : SameShown c c') {uid : Nat}
    (notRoot : uid ≠ uidRoot) (body : List UInt8) :
    OutcomesAlike (Edited c c') (opSetEdit uid body c)
      (opSetEdit uid body c') := by
  have start : Edited c c' c c' := ⟨same, fun _ _ => ⟨rfl, rfl⟩⟩
  unfold Broker.opSetEdit
  split_ifs
  · exact rfl
  · rcases (start.opSetItems notRoot CfgStore.getMaxKeys body none).cases with
      ⟨rs, first, second⟩ | ⟨work, work', first, second, edited⟩
    · rw [first, second]
      exact rfl
    · rw [first, second]
      dsimp only
      rw [edited.shown.cfgValidate]
      cases CfgStore.cfgValidate work' with
      | error fault => exact rfl
      | ok _ => exact edited

end Shown

/-! ## The other handlers -/

/-- Two replies of the same status have the same body. -/
def BodyByStatus (rs rs' : Resp) : Prop :=
  rs.status = rs'.status → rs.body = rs'.body

theorem bodyByStatus_of_eq {rs rs' : Resp} (same : rs' = rs) :
    BodyByStatus rs rs' :=
  fun _ => congrArg Resp.body same.symm

/-- The broker with another configuration. -/
def State.withCfg (bk : State) (c : Cfg) : State := { bk with cfg := c }

section WithCfg

variable (bk : State) (c : Cfg)

theorem bkEntropyReady_withCfg (avail : Option Nat) :
    bkEntropyReady avail (bk.withCfg c) =
      (bkEntropyReady avail bk).withCfg c := by
  unfold bkEntropyReady
  by_cases ready : bk.authReady = true
  · rw [if_pos ready]
    exact if_pos ready
  · rw [if_neg ready]
    refine (if_neg ready).trans ?_
    cases avail <;> rfl

theorem bkUpdSweep_withCfg (times : SweepTimes) :
    bkUpdSweep times (bk.withCfg c) = (bkUpdSweep times bk).withCfg c := by
  unfold bkUpdSweep
  by_cases done : bk.upd.state ≠ .staging ∧ bk.upd.state ≠ .poisoned
  · rw [if_pos done]
    exact if_pos done
  · rw [if_neg done]
    refine (if_neg done).trans ?_
    by_cases idle : times.now - bk.upd.last ≥ updIdleS
    · rw [if_pos idle]
      exact if_pos idle
    · rw [if_neg idle]
      refine (if_neg idle).trans ?_
      by_cases web : bk.upd.uid = uidHttpd
      · rw [if_pos web]
        refine (if_pos web).trans ?_
        by_cases gone :
            (bkSessFind times.expireAt bk.sessions.table bk.upd.tok).2 = none
        · dsimp only
          rw [if_pos gone]
          exact if_pos gone
        · dsimp only
          rw [if_neg gone]
          exact if_neg gone
      · rw [if_neg web]
        exact if_neg web

theorem updStart_withCfg (w : BeginWorld) (rq : Req) (uid total : Nat)
    (run : SlotName) :
    (updStart w rq uid total run (bk.withCfg c)).2 =
      (updStart w rq uid total run bk).2 := by
  unfold updStart
  cases w.memory with
  | none => rfl
  | some memory =>
      dsimp only
      cases protoTlvPut [] updTDest [run.other.char] <;> rfl

theorem bkUpdBegin_withCfg (w : BeginWorld) (rq : Req) (uid : Nat) :
    (bkUpdBegin w rq uid (bk.withCfg c)).2 = (bkUpdBegin w rq uid bk).2 := by
  unfold bkUpdBegin
  rw [bkUpdSweep_withCfg]
  generalize bkUpdSweep w.sweep bk = bk
  cases updHandoff w.boot with
  | none => rfl
  | some boot =>
      dsimp only [State.withCfg]
      split_ifs
      · rfl
      · rfl
      · rfl
      · rfl
      · exact updStart_withCfg bk c w rq uid _ _

theorem bkUpdData_withCfg (w : DataWorld) (rq : Req) (uid : Nat) :
    (bkUpdData w rq uid (bk.withCfg c)).2 = (bkUpdData w rq uid bk).2 := by
  unfold bkUpdData
  rw [bkUpdSweep_withCfg]
  generalize bkUpdSweep w.sweep bk = bk
  dsimp only [State.withCfg]
  split_ifs
  · rfl
  · rfl
  · rfl
  · rfl
  · rfl
  · cases protoTlvPut [] updTReceived
      (Tlv.putBe32 (bk.upd.take (rq.body.drop 4) w.takenAt).received) <;> rfl

theorem bkUpdEnd_withCfg (ed25519 : Container.SignatureCheck)
    (pk : List UInt8) (w : EndWorld) (rq : Req) (uid : Nat) :
    (bkUpdEnd ed25519 pk w rq uid (bk.withCfg c)).2 =
      (bkUpdEnd ed25519 pk w rq uid bk).2 := by
  unfold bkUpdEnd
  rw [bkUpdSweep_withCfg]
  generalize bkUpdSweep w.sweep bk = bk
  dsimp only [State.withCfg]
  split_ifs
  · rfl
  · rfl
  · rfl
  · cases endVerdict ed25519 pk w bk.upd (protoBe32 rq.body 0) with
    | error fault => rfl
    | ok passed =>
        obtain ⟨dest, version⟩ := passed
        dsimp only
        unfold updVerified
        dsimp only
        cases endBody dest version <;> rfl

/-! ## LOGIN and PWSET -/

/-- The body of a reply that made a session, or could not. -/
def sessionBody (made : Sessions × Option (Fin nsess)) : List UInt8 :=
  match made.2 with
  | none => []
  | some i =>
      (made.1.table i).tok.bytes ++ (made.1.table i).csrf.bytes ++
        Tlv.putBe32 sessTtl

/-- The body of a LOGIN past its bucket, by its status. -/
def loginBody (w : LoginWorld) (sessions : Sessions) : Status → List UInt8
  | .ok => sessionBody (bkSessNew w.new sessions)
  | _ => []

theorem loginSession_body (w : LoginWorld) :
    (loginSession w bk).2.body =
      loginBody w bk.sessions (loginSession w bk).2.status := by
  unfold loginSession
  dsimp only
  cases made : (bkSessNew w.new bk.sessions).2 with
  | none => rfl
  | some i =>
      dsimp only [loginBody, sessionBody]
      rw [made]

/-- The body of a LOGIN says nothing that its status does not, apart from the
session it made. -/
theorem loginChecked_body (w : LoginWorld) (rq : Req) (uid : Nat)
    (cip : UInt32) :
    (loginChecked w rq uid cip bk).2.body =
      loginBody w bk.sessions (loginChecked w rq uid cip bk).2.status := by
  unfold loginChecked
  cases scryptHash bk.cfg with
  | none => rfl
  | some h =>
      dsimp only
      by_cases busy : bk.kdfBusy = true
      · rw [if_pos busy]
        rfl
      · rw [if_neg busy]
        by_cases bad : ¬ evaluable h = true
        · rw [if_pos bad]
          rfl
        · rw [if_neg bad]
          cases kdfStored w.kdf rq.body h with
          | none => rfl
          | some want =>
              dsimp only
              by_cases wrong : ¬ bkCtEq want.1 (h.drop 24) = true
              · rw [if_pos wrong]
                rfl
              · rw [if_neg wrong]
                by_cases root : uid = uidRoot
                · rw [if_pos root]
                  exact loginSession_body bk w
                · rw [if_neg root]
                  exact loginSession_body { bk with rl := _ } w

/-- Whether a LOGIN gets as far as the stored hash does not depend on it. -/
theorem opLogin_reach (entropy : Option Nat) (w : LoginWorld) (rq : Req)
    (uid : Nat) (cip : UInt32) :
    (∃ rs, ∀ c, (opLogin entropy w rq uid cip (bk.withCfg c)).2 = rs) ∨
      ∃ bk' : State, ∀ c, (opLogin entropy w rq uid cip (bk.withCfg c)).2 =
        (loginChecked w rq uid cip (bk'.withCfg c)).2 := by
  unfold opLogin
  simp only [bkEntropyReady_withCfg]
  by_cases length : rq.body.length < 1 ∨ rq.body.length > 64
  · refine Or.inl ⟨rsInval 0, fun c => ?_⟩
    rw [if_pos length]
  · simp only [if_neg length]
    generalize bkEntropyReady entropy bk = bk
    by_cases ready : bk.authReady = true
    · have passes : ∀ c, ¬ ¬ (bk.withCfg c).authReady = true :=
        fun _ => not_not.mpr ready
      simp only [if_neg (passes _)]
      by_cases root : uid = uidRoot
      · refine Or.inr ⟨bk, fun c => ?_⟩
        rw [if_pos root]
      · simp only [if_neg root]
        cases checked : (bkRlCheck w.now w.slotAt bk.rl cip).2 with
        | some secs =>
            refine Or.inl ⟨rsLocked secs, fun c => ?_⟩
            rw [show (bk.withCfg c).rl = bk.rl from rfl, checked]
        | none =>
            refine Or.inr
              ⟨{ bk with rl := (bkRlCheck w.now w.slotAt bk.rl cip).1 },
                fun c => ?_⟩
            rw [show (bk.withCfg c).rl = bk.rl from rfl, checked]
            rfl
    · refine Or.inl ⟨rsStatus .noentropy, fun c => ?_⟩
      have stops : ¬ (bk.withCfg c).authReady = true := ready
      rw [if_pos stops]

/-- With another stored hash, a LOGIN of the same status has the same body. -/
theorem opLogin_withCfg (entropy : Option Nat) (w : LoginWorld) (rq : Req)
    (uid : Nat) (cip : UInt32) :
    BodyByStatus (opLogin entropy w rq uid cip bk).2
      (opLogin entropy w rq uid cip (bk.withCfg c)).2 := by
  change BodyByStatus (opLogin entropy w rq uid cip (bk.withCfg bk.cfg)).2 _
  rcases opLogin_reach bk entropy w rq uid cip with
    ⟨rs, reply⟩ | ⟨bk', reply⟩
  · rw [reply, reply]
    exact bodyByStatus_of_eq rfl
  · rw [reply, reply]
    intro same
    rw [loginChecked_body, loginChecked_body, same]
    rfl

theorem commitCfg_body (faults : Faults) (work : Cfg) (m : Medium) :
    (commitCfg faults work bk m).rs.body = [] ∧
      (commitCfg faults work bk m).rs.status ≠ .inval := by
  unfold commitCfg
  dsimp only
  cases (CfgStore.storeRec faults m work false).rc with
  | some rc => exact ⟨rfl, nofun⟩
  | none => exact ⟨rfl, nofun⟩

/-- The body of a PWSET that reads as two passwords, by its status. -/
def pwsetReply : Status → List UInt8
  | .inval => Tlv.putBe16 CfgStore.idPwhash
  | _ => []

theorem pwsetReply_of_ne {st : Status} (other : st ≠ .inval) :
    pwsetReply st = [] := by
  cases st <;> first | rfl | exact absurd rfl other

theorem pwsetOld_status (w : PwsetWorld) (old : List UInt8) (uid : Nat) :
    ∀ st ∈ pwsetOld w old uid bk, st ≠ .inval := by
  rintro st refused rfl
  unfold pwsetOld at refused
  cases stored : scryptHash bk.cfg with
  | none =>
      rw [stored] at refused
      dsimp only at refused
      split_ifs at refused <;> cases refused
  | some h =>
      rw [stored] at refused
      dsimp only at refused
      cases derived : kdfStored w.kdf old h with
      | none =>
          rw [derived] at refused
          split_ifs at refused <;> cases refused
      | some want =>
          rw [derived] at refused
          dsimp only at refused
          split_ifs at refused <;> cases refused

theorem pwsetNew_status (w : PwsetWorld) (new : List UInt8) {st : Status}
    (refused : pwsetNew w new bk = .error st) : st ≠ .inval := by
  rintro rfl
  unfold pwsetNew at refused
  dsimp only at refused
  cases derived : w.kdf new (bkRandom w.salt 16).1 kdfLog2n kdfR kdfP with
  | none =>
      rw [derived] at refused
      split_ifs at refused <;> cases refused
  | some key =>
      rw [derived] at refused
      split_ifs at refused <;> cases refused

/-- PWSET reads its two passwords, or says so without looking at the store. -/
theorem opPwset_unread {entropy : Option Nat} {w : PwsetWorld} {rq : Req}
    {uid : Nat} {m : Medium}
    (ready : (bkEntropyReady entropy bk).authReady = true)
    (unread : pwsetBody rq.body = none) :
    (opPwset entropy w rq uid bk m).rs = rsInval 0 := by
  unfold opPwset
  dsimp only
  rw [if_neg (not_not.mpr ready), unread]

/-- The body of a PWSET says nothing that its status does not. -/
theorem opPwset_body {entropy : Option Nat} {w : PwsetWorld} {rq : Req}
    {uid : Nat} {m : Medium}
    (read : (bkEntropyReady entropy bk).authReady = true →
      pwsetBody rq.body ≠ none) :
    (opPwset entropy w rq uid bk m).rs.body =
      pwsetReply (opPwset entropy w rq uid bk m).rs.status := by
  unfold opPwset
  generalize bkEntropyReady entropy bk = bk at read ⊢
  dsimp only
  by_cases ready : bk.authReady = true
  · rw [if_neg (not_not.mpr ready)]
    cases passwords : pwsetBody rq.body with
    | none => exact absurd passwords (read ready)
    | some pair =>
        obtain ⟨old, new⟩ := pair
        dsimp only
        cases refused : pwsetOld w old uid bk with
        | some st =>
            exact (pwsetReply_of_ne
              (pwsetOld_status bk w old uid st refused)).symm
        | none =>
            dsimp only
            cases made : pwsetNew w new bk with
            | error st =>
                exact (pwsetReply_of_ne (pwsetNew_status bk w new made)).symm
            | ok hash =>
                dsimp only
                cases cfgSet bk.cfg CfgStore.idPwhash hash with
                | error fault => rfl
                | ok work =>
                    obtain ⟨empty, other⟩ := commitCfg_body bk w.store work m
                    dsimp only
                    split_ifs
                    · exact empty.trans (pwsetReply_of_ne other).symm
                    · exact empty.trans (pwsetReply_of_ne other).symm
  · rw [if_pos ready]
    rfl

/-- With another stored hash, a PWSET of the same status has the same body. -/
theorem opPwset_withCfg (entropy : Option Nat) (w : PwsetWorld) (rq : Req)
    (uid : Nat) (m : Medium) :
    BodyByStatus (opPwset entropy w rq uid bk m).rs
      (opPwset entropy w rq uid (bk.withCfg c) m).rs := by
  intro same
  have readyEq : (bkEntropyReady entropy (bk.withCfg c)).authReady =
      (bkEntropyReady entropy bk).authReady := by
    rw [bkEntropyReady_withCfg]
    rfl
  by_cases unread : (bkEntropyReady entropy bk).authReady = true ∧
      pwsetBody rq.body = none
  · rw [opPwset_unread bk unread.1 unread.2,
      opPwset_unread (bk.withCfg c) (readyEq.trans unread.1) unread.2]
  · have read := not_and.mp unread
    rw [opPwset_body bk read, opPwset_body (bk.withCfg c) (readyEq ▸ read),
      same]

/-! ## STATUS, LOGOUT and SET -/

/-- Two brokers that STATUS shows alike. -/
structure StatusAlike (bk bk' : State) : Prop where
  shown : SameShown bk.cfg bk'.cfg
  ready : bk.authReady = bk'.authReady
  last : bk.entropyLast = bk'.entropyLast
  upd : bk.upd = bk'.upd

theorem StatusAlike.entropyReady {bk bk' : State} (alike : StatusAlike bk bk')
    (avail : Option Nat) :
    StatusAlike (bkEntropyReady avail bk) (bkEntropyReady avail bk') := by
  unfold bkEntropyReady
  by_cases ready : bk.authReady = true
  · rw [if_pos ready, if_pos (alike.ready ▸ ready)]
    exact alike
  · rw [if_neg ready, if_neg (alike.ready ▸ ready)]
    cases avail with
    | none => exact ⟨alike.shown, alike.ready, rfl, alike.upd⟩
    | some n => exact ⟨alike.shown, rfl, rfl, alike.upd⟩

theorem opStatus_alike {bk bk' : State} (alike : StatusAlike bk bk')
    (avail : Option Nat) (w : ProcWorld) (full : Bool) :
    (opStatus avail w full bk).2 = (opStatus avail w full bk').2 := by
  have later := alike.entropyReady avail
  have rows : statusRows w full (bkEntropyReady avail bk) =
      statusRows w full (bkEntropyReady avail bk') := by
    unfold statusRows
    rw [later.shown.seq, later.shown.source, later.ready, later.last,
      later.upd]
  unfold opStatus
  dsimp only
  rw [rows]
  cases (statusRows w full (bkEntropyReady avail bk')).foldlM
    (fun body row => protoTlvPut body row.1 row.2) [] <;> rfl

theorem opLogout_withCfg (findAgainAt : Nat) (rq : Req) (uid : Nat)
    (sess : Option (Fin nsess)) :
    (opLogout findAgainAt rq uid sess (bk.withCfg c)).2 =
      (opLogout findAgainAt rq uid sess bk).2 := by
  unfold opLogout
  by_cases empty : rq.body.length ≠ 0
  · rw [if_pos empty, if_pos empty]
  · rw [if_neg empty, if_neg empty]

/-- With other hidden values, a SET has the same body. -/
theorem opSet_withCfg (faults : Faults) (rq : Req) {uid : Nat} (m : Medium)
    (notRoot : uid ≠ uidRoot) (same : SameShown bk.cfg c) :
    (opSet faults rq uid bk m).rs.body =
      (opSet faults rq uid (bk.withCfg c) m).rs.body := by
  unfold opSet
  rcases (opSetEdit_shown same notRoot rq.body).cases with
    ⟨rs, first, second⟩ | ⟨work, work', first, second, -⟩
  · rw [first, show opSetEdit uid rq.body (bk.withCfg c).cfg = _ from second]
  · rw [first, show opSetEdit uid rq.body (bk.withCfg c).cfg = _ from second]
    exact (commitCfg_body bk faults work m).1.trans
      (commitCfg_body (bk.withCfg c) faults work' m).1.symm

/-! ## Every handler -/

/-- With other hidden values, a reply of the same status to a peer other than
root has the same body. -/
theorem handle_withCfg (w : World) (rq : Req) {uid : Nat}
    (sess : Option (Fin nsess)) (m : Medium) (notRoot : uid ≠ uidRoot)
    (same : SameShown bk.cfg c) :
    BodyByStatus (handle w rq uid sess bk m).rs
      (handle w rq uid sess (bk.withCfg c) m).rs := by
  refine handle_cases (fun handler => BodyByStatus (handler bk m).rs
    (handler (bk.withCfg c) m).rs) ?_ ?_ ?_ ?_ ?_ ?_ ?_ ?_ ?_ ?_ ?_ ?_
  · exact fun _ => bodyByStatus_of_eq (opGet_shown same notRoot rq).symm
  · exact fun _ _ => opSet_withCfg bk c w.store rq m notRoot same
  · intro _
    dsimp only [onBroker]
    split_ifs <;> exact bodyByStatus_of_eq rfl
  · intro _
    dsimp only [onBroker]
    split_ifs
    · exact bodyByStatus_of_eq rfl
    · have alike : StatusAlike bk (bk.withCfg c) := ⟨same, rfl, rfl, rfl⟩
      exact bodyByStatus_of_eq (opStatus_alike alike w.entropy w.proc _).symm
  · exact fun _ => bodyByStatus_of_eq rfl
  · exact fun _ => opLogin_withCfg bk c w.entropy w.login rq uid _
  · exact fun _ =>
      bodyByStatus_of_eq (opLogout_withCfg bk c w.findAgainAt rq uid sess)
  · exact fun _ => opPwset_withCfg bk c w.entropy w.pwset rq uid m
  · exact fun _ => bodyByStatus_of_eq (bkUpdBegin_withCfg bk c w.begin rq uid)
  · exact fun _ => bodyByStatus_of_eq (bkUpdData_withCfg bk c w.data rq uid)
  · exact fun _ => bodyByStatus_of_eq
      (bkUpdEnd_withCfg bk c w.ed25519 w.pk w.fin rq uid)
  · exact bodyByStatus_of_eq rfl

end WithCfg

end RlxFw.Broker
