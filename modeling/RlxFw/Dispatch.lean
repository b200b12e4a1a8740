import RlxFw.Ops

/-!
# The gate

`bk_cfg_reload` and `bk_dispatch` of `src/brokerd/ops.c`.  The gate either
refuses a request or passes it, with the session it named, to one handler; the
store's medium goes in with every request, so that other programs may have
changed it since the last one.
-/

namespace RlxFw.Broker

open CfgStore (Cfg Faults Medium loadInfo)

/-- Everything a request reads outside the broker and the store's medium. -/
structure World where
  load : Faults
  findAt : Nat
  findAgainAt : Nat
  touchAt : Nat
  entropy : Option Nat
  proc : ProcWorld
  child : Option (List UInt8)
  store : Faults
  login : LoginWorld
  pwset : PwsetWorld
  begin : BeginWorld
  data : DataWorld
  fin : EndWorld
  ed25519 : Container.SignatureCheck
  pk : List UInt8

/-- A world in which the store does not fail and nothing else answers. -/
def World.quiet : World where
  load := CfgStore.noFaults
  findAt := 0
  findAgainAt := 0
  touchAt := 0
  entropy := none
  proc := { uptime := 0, load1 := 0, memfree := 0 }
  child := none
  store := CfgStore.noFaults
  login :=
    { now := 0, slotAt := 0, fail := { slotAt := 0, seenAt := 0, lockAt := 0 }
      okSlotAt := 0, okSeenAt := 0, kdf := fun _ _ _ _ _ => none
      new := { expireAt := 0, madeAt := 0, tok := none, csrf := none } }
  pwset :=
    { kdf := fun _ _ _ _ _ => none, salt := none, store := CfgStore.noFaults }
  begin :=
    { sweep := { now := 0, expireAt := 0 }, boot := none, memory := none
      startedAt := 0 }
  data := { sweep := { now := 0, expireAt := 0 }, takenAt := 0 }
  fin :=
    { sweep := { now := 0, expireAt := 0 }, boot := none, bitmap := none
      memory := false, slot := fun _ => none }
  ed25519 := fun _ _ _ => false
  pk := []

/-! ## The reload -/

/-- The comparison of `bk_cfg_reload`. -/
def hashChanged (was now : Option (List UInt8)) : Bool :=
  match was, now with
  | none, none => false
  | some w, some n => decide (w.length ≠ n.length) || !bkCtEq w n
  | _, _ => true

/-- `bk_cfg_reload`. -/
def bkReload (faults : Faults) (m : Medium) (bk : State) : State :=
  let fresh := CfgStore.bkCfgReload (loadInfo faults m)
  { bk with
    cfg := fresh
    sessions :=
      if hashChanged (pwhash bk.cfg) (pwhash fresh) then
        { bk.sessions with table := bkSessDropAll }
      else bk.sessions }

/-! ## The gate -/

/-- A peer that may ask for anything at all. -/
def knownUid (uid : Nat) : Bool :=
  uid == uidRoot || uid == uidHttpd || uid == uidDnsfwd

/-- The refusal of a request before the store is read. -/
def earlyRefusal (rq : Req) (uid : Nat) : Option Status :=
  match bkOpRule rq.op with
  | none => some .notsup
  | some r =>
      if ¬ r.supported then some .notsup
      else if ¬ knownUid uid then some .perm
      else if uid = uidHttpd ∧ ¬ r.allow100 then some .perm
      else if uid = uidDnsfwd ∧ ¬ r.allow101 then some .perm
      else none

/-- The session that a request names, looked up for two peers only. -/
def findSession (now : Nat) (rq : Req) (uid : Nat) (table : Table) :
    Table × Option (Fin nsess) :=
  if uid = uidRoot ∨ uid = uidHttpd then bkSessFind now table rq.session
  else (table, none)

/-- The refusal of a request for its session or its CSRF token. -/
def sessionRefusal (rq : Req) (uid : Nat) (found : Table × Option (Fin nsess)) :
    Option Status :=
  match bkOpRule rq.op with
  | none => none
  | some r =>
      if uid = uidHttpd ∧ r.needSession then
        match found.2 with
        | none => some .auth
        | some i =>
            if r.needCsrf ∧ ¬ bkCtEq (found.1 i).csrf.bytes rq.csrf.bytes then
              some .perm
            else none
      else none

/-- What the gate makes of a request. -/
inductive Gated where
  | refused (bk : State) (st : Status)
  | passed (bk : State) (sess : Option (Fin nsess))

/-- `bk_dispatch` up to its switch. -/
def gate (w : World) (rq : Req) (uid : Nat) (bk : State) (m : Medium) : Gated :=
  match earlyRefusal rq uid with
  | some st => .refused bk st
  | none =>
      let bk := bkReload w.load m bk
      let found := findSession w.findAt rq uid bk.sessions.table
      match sessionRefusal rq uid found with
      | some st =>
          .refused { bk with sessions := { bk.sessions with table := found.1 } }
            st
      | none =>
          .passed
            { bk with
              sessions :=
                { bk.sessions with
                  table := touch found.1 found.2 (some w.touchAt) } }
            found.2

/-! ## The switch -/

/-- LOGOUT. -/
def opLogout (findAgainAt : Nat) (rq : Req) (uid : Nat)
    (sess : Option (Fin nsess)) (bk : State) : State × Resp :=
  if rq.body.length ≠ 0 then (bk, rsInval 0)
  else
    let again :=
      if sess = none ∧ uid = uidRoot then
        bkSessFind findAgainAt bk.sessions.table rq.session
      else (bk.sessions.table, sess)
    let table :=
      match again.2 with
      | some i => bkSessDrop again.1 i
      | none => again.1
    ({ bk with sessions := { bk.sessions with table := table } }, rsStatus .ok)

/-- A handler that does not touch the store. -/
def onBroker (result : State × Resp) (m : Medium) : Handled :=
  { bk := result.1, medium := m, rs := result.2 }

/-- The switch of `bk_dispatch`. -/
def handle (w : World) (rq : Req) (uid : Nat) (sess : Option (Fin nsess))
    (bk : State) (m : Medium) : Handled :=
  let cip := if uid = uidHttpd then rq.clientIp else 0
  if rq.op = opGetId then onBroker (bk, opGet rq uid bk.cfg) m
  else if rq.op = opSetId then opSet w.store rq uid bk m
  else if rq.op = opRebootId then
    onBroker
      (if rq.body.length ≠ 0 then (bk, rsInval 0)
      else ({ bk with pendingReboot := true }, rsStatus .ok)) m
  else if rq.op = opStatusId then
    onBroker
      (if rq.body.length ≠ 0 then (bk, rsInval 0)
      else opStatus w.entropy w.proc (uid == uidRoot || sess.isSome) bk) m
  else if rq.op = opPingId then onBroker (bk, opPing w.child rq) m
  else if rq.op = opLoginId then
    onBroker (opLogin w.entropy w.login rq uid cip bk) m
  else if rq.op = opLogoutId then
    onBroker (opLogout w.findAgainAt rq uid sess bk) m
  else if rq.op = opPwsetId then opPwset w.entropy w.pwset rq uid bk m
  else if rq.op = opUpdateBeginId then
    onBroker (bkUpdBegin w.begin rq uid bk) m
  else if rq.op = opUpdateDataId then onBroker (bkUpdData w.data rq uid bk) m
  else if rq.op = opUpdateEndId then
    onBroker (bkUpdEnd w.ed25519 w.pk w.fin rq uid bk) m
  else onBroker (bk, rsStatus .notsup) m

/-- `bk_dispatch`. -/
def bkDispatch (w : World) (rq : Req) (uid : Nat) (bk : State) (m : Medium) :
    Handled :=
  match gate w rq uid bk m with
  | .refused bk st => { bk := bk, medium := m, rs := rsStatus st }
  | .passed bk sess => handle w rq uid sess bk m

section Cases

variable {w : World} {rq : Req} {uid : Nat} {sess : Option (Fin nsess)}

/-- What holds of every handler holds of the switch. -/
theorem handle_cases (P : (State → Medium → Handled) → Prop)
    (get : rq.op = opGetId → P fun bk m => onBroker (bk, opGet rq uid bk.cfg) m)
    (set : rq.op = opSetId → P (opSet w.store rq uid))
    (reboot : rq.op = opRebootId → P fun bk m =>
      onBroker
        (if rq.body.length ≠ 0 then (bk, rsInval 0)
        else ({ bk with pendingReboot := true }, rsStatus .ok)) m)
    (status : rq.op = opStatusId → P fun bk m =>
      onBroker
        (if rq.body.length ≠ 0 then (bk, rsInval 0)
        else opStatus w.entropy w.proc (uid == uidRoot || sess.isSome) bk) m)
    (ping : rq.op = opPingId → P fun bk m =>
      onBroker (bk, opPing w.child rq) m)
    (login : rq.op = opLoginId → P fun bk m =>
      onBroker
        (opLogin w.entropy w.login rq uid
          (if uid = uidHttpd then rq.clientIp else 0) bk) m)
    (logout : rq.op = opLogoutId → P fun bk m =>
      onBroker (opLogout w.findAgainAt rq uid sess bk) m)
    (pwset : rq.op = opPwsetId → P (opPwset w.entropy w.pwset rq uid))
    (begin' : rq.op = opUpdateBeginId → P fun bk m =>
      onBroker (bkUpdBegin w.begin rq uid bk) m)
    (data : rq.op = opUpdateDataId → P fun bk m =>
      onBroker (bkUpdData w.data rq uid bk) m)
    (fin : rq.op = opUpdateEndId → P fun bk m =>
      onBroker (bkUpdEnd w.ed25519 w.pk w.fin rq uid bk) m)
    (other : P fun bk m => onBroker (bk, rsStatus .notsup) m) :
    P (handle w rq uid sess) := by
  unfold handle
  dsimp only
  by_cases op : rq.op = opGetId
  · simp only [if_pos op]
    exact get op
  simp only [if_neg op]
  clear op
  by_cases op : rq.op = opSetId
  · simp only [if_pos op]
    exact set op
  simp only [if_neg op]
  clear op
  by_cases op : rq.op = opRebootId
  · simp only [if_pos op]
    exact reboot op
  simp only [if_neg op]
  clear op
  by_cases op : rq.op = opStatusId
  · simp only [if_pos op]
    exact status op
  simp only [if_neg op]
  clear op
  by_cases op : rq.op = opPingId
  · simp only [if_pos op]
    exact ping op
  simp only [if_neg op]
  clear op
  by_cases op : rq.op = opLoginId
  · simp only [if_pos op]
    exact login op
  simp only [if_neg op]
  clear op
  by_cases op : rq.op = opLogoutId
  · simp only [if_pos op]
    exact logout op
  simp only [if_neg op]
  clear op
  by_cases op : rq.op = opPwsetId
  · simp only [if_pos op]
    exact pwset op
  simp only [if_neg op]
  clear op
  by_cases op : rq.op = opUpdateBeginId
  · simp only [if_pos op]
    exact begin' op
  simp only [if_neg op]
  clear op
  by_cases op : rq.op = opUpdateDataId
  · simp only [if_pos op]
    exact data op
  simp only [if_neg op]
  clear op
  by_cases op : rq.op = opUpdateEndId
  · simp only [if_pos op]
    exact fin op
  simp only [if_neg op]
  clear op
  exact other

end Cases

end RlxFw.Broker
