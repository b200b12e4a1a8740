import RlxFw.SessionCreate
import RlxFw.Update
import RlxFw.Writers

/-!
# The operations

`src/brokerd/ops.c` without its gate: the table of rules and the handlers.
What a handler reads of the clock, of `/proc`, of the random source and of the
store's medium is a parameter, and so is the vendored `kdf_scrypt`.
-/

namespace RlxFw.Broker

open CfgStore (Cfg Faults Medium cfgGet cfgSet cfgKeyById cfgValidate idPwhash
  idLanIp idDnsUp pwhashLen getMaxKeys storeRec)

/-! ## The rules -/

/-- `OP_GET`. -/
def opGetId : Nat := 0x01
/-- `OP_SET`. -/
def opSetId : Nat := 0x02
/-- `OP_REBOOT`. -/
def opRebootId : Nat := 0x03
/-- `OP_STATUS`. -/
def opStatusId : Nat := 0x04
/-- `OP_PING`. -/
def opPingId : Nat := 0x05
/-- `OP_LOGIN`. -/
def opLoginId : Nat := 0x10
/-- `OP_LOGOUT`. -/
def opLogoutId : Nat := 0x11
/-- `OP_PWSET`. -/
def opPwsetId : Nat := 0x12
/-- `OP_UPDATE_BEGIN`. -/
def opUpdateBeginId : Nat := 0x20
/-- `OP_UPDATE_DATA`. -/
def opUpdateDataId : Nat := 0x21
/-- `OP_UPDATE_END`. -/
def opUpdateEndId : Nat := 0x22

/-- What the gate reads of `struct bk_op_rule`. -/
structure OpRule where
  op : Nat
  supported : Bool
  allow100 : Bool
  allow101 : Bool
  needSession : Bool
  needCsrf : Bool
deriving DecidableEq, Repr

/-- `rules`. -/
def rules : List OpRule :=
  [⟨opGetId, true, true, true, true, false⟩,
    ⟨opSetId, true, true, false, true, true⟩,
    ⟨opRebootId, true, true, false, true, true⟩,
    ⟨opStatusId, true, true, false, false, false⟩,
    ⟨opPingId, true, true, false, true, true⟩,
    ⟨opLoginId, true, true, false, false, false⟩,
    ⟨opLogoutId, true, true, false, true, true⟩,
    ⟨opPwsetId, true, true, false, true, true⟩,
    ⟨opUpdateBeginId, true, true, false, true, true⟩,
    ⟨opUpdateDataId, true, true, false, true, true⟩,
    ⟨opUpdateEndId, true, true, false, true, true⟩]

/-- `bk_op_rule`. -/
def bkOpRule (op : Nat) : Option OpRule := rules.find? fun r => r.op == op

/-- `dnsfwd_keys`. -/
def dnsfwdKeys : List Nat := [idLanIp, idDnsUp]

/-- `bk_dnsfwd_may_read`. -/
def bkDnsfwdMayRead (id : Nat) : Bool := dnsfwdKeys.contains id

/-- `proto_be16`, at an offset of a body. -/
def protoBe16 (body : List UInt8) (off : Nat) : Nat :=
  Tlv.getBe16 (ByteMap.ofList body 0) off

/-! ## GET and SET -/

/-- The ids of a GET's body. -/
def getIds (body : List UInt8) : List Nat :=
  (List.range (body.length / 2)).map fun i => protoBe16 body (2 * i)

/-- The loop of `op_get`, with the body so far. -/
def opGetKeys (cfg : Cfg) (uid : Nat) : List Nat → List UInt8 → Resp
  | [], out => { status := .ok, body := out }
  | id :: rest, out =>
      match cfgKeyById id with
      | none => rsInval id
      | some k =>
          if uid ≠ uidRoot ∧ k.web = .hidden then rsStatus .perm
          else if uid = uidDnsfwd ∧ ¬ bkDnsfwdMayRead id then rsStatus .perm
          else
            match cfgGet cfg id with
            | .error _ => rsStatus .noent
            | .ok v =>
                match protoTlvPut out id v with
                | none => rsStatus .badreq
                | some out => opGetKeys cfg uid rest out

/-- A key with a value goes into the reply, when there is room. -/
theorem opGetKeys_cons {cfg : Cfg} {uid id : Nat} {k : CfgStore.Key}
    {rest : List Nat} {out v : List UInt8}
    (known : cfgKeyById id = some k)
    (shown : ¬ (uid ≠ uidRoot ∧ k.web = .hidden))
    (mayRead : ¬ (uid = uidDnsfwd ∧ ¬ bkDnsfwdMayRead id))
    (got : cfgGet cfg id = .ok v)
    (room : out.length + (4 + v.length) ≤ respBodyMax) :
    opGetKeys cfg uid (id :: rest) out =
      opGetKeys cfg uid rest (out ++ Tlv.itemBytes id v) := by
  have put : protoTlvPut out id v = some (out ++ Tlv.itemBytes id v) :=
    if_neg (by omega)
  rw [opGetKeys, known]
  dsimp only
  rw [if_neg shown, if_neg mayRead, got]
  dsimp only
  rw [put]

/-- `op_get`. -/
def opGet (rq : Req) (uid : Nat) (cfg : Cfg) : Resp :=
  if rq.body.length = 0 ∨ rq.body.length % 2 ≠ 0 then rsInval 0
  else if rq.body.length / 2 > getMaxKeys then rsInval 0
  else opGetKeys cfg uid (getIds rq.body) []

/-- The loop of `op_set`, with the items it may still read and the id before. -/
def opSetItems (uid : Nat) :
    Nat → List UInt8 → Option Nat → Cfg → Except Resp Cfg
  | _, [], _, work => .ok work
  -- one item too many, whether or not it can be read
  | 0, _ :: _, _, _ => .error (rsInval 0)
  | left + 1, byte :: more, prev, work =>
      match protoTlvGet (byte :: more) with
      | none => .error (rsInval 0)
      | some (item, rest) =>
          if ¬ Tlv.ascends prev item.type then .error (rsInval item.type)
          else
            match cfgKeyById item.type with
            | none => .error (rsInval item.type)
            | some k =>
                if uid ≠ uidRoot ∧ k.web ≠ .rw then .error (rsStatus .perm)
                else
                  match cfgSet work item.type item.val with
                  | .error _ => .error (rsInval item.type)
                  | .ok work =>
                      opSetItems uid left rest (some item.type) work

/-- `op_set` up to its store: the record it would store. -/
def opSetEdit (uid : Nat) (body : List UInt8) (cfg : Cfg) : Except Resp Cfg :=
  if body.length = 0 then .error (rsInval 0)
  else
    match opSetItems uid getMaxKeys body none cfg with
    | .error rs => .error rs
    | .ok work =>
        match cfgValidate work with
        | .error fault => .error (rsInval fault.key)
        | .ok () => .ok work

/-- What a handler leaves: the broker, the store's medium and the reply. -/
structure Handled where
  bk : State
  medium : Medium
  rs : Resp

/-- `cfg_store`, and the broker holding what was stored. -/
def commitCfg (faults : Faults) (work : Cfg) (bk : State) (m : Medium) :
    Handled :=
  let stored := storeRec faults m work false
  match stored.rc with
  | some _ => { bk := bk, medium := stored.medium, rs := rsStatus .io }
  | none =>
      { bk := { bk with cfg := stored.cfg }, medium := stored.medium
        rs := rsStatus .ok }

/-- `op_set`. -/
def opSet (faults : Faults) (rq : Req) (uid : Nat) (bk : State) (m : Medium) :
    Handled :=
  match opSetEdit uid rq.body bk.cfg with
  | .error rs => { bk := bk, medium := m, rs := rs }
  | .ok work => commitCfg faults work bk m

/-! ## STATUS -/

/-- `BK_ENTROPY_MIN`. -/
def entropyMin : Nat := 128

/-- `bk_entropy_ready`, on what could be read of `entropy_avail`. -/
def bkEntropyReady (avail : Option Nat) (bk : State) : State :=
  if bk.authReady then bk
  else
    match avail with
    | none => { bk with entropyLast := 0 }
    | some n =>
        { bk with entropyLast := n, authReady := decide (n ≥ entropyMin) }

/-- `BK_VERSION_STR`. -/
def versionStr : List UInt8 := ascii "rlxfw-brokerd-1"

/-- What STATUS reads of `/proc`. -/
structure ProcWorld where
  uptime : Nat
  load1 : Nat
  memfree : Nat

/-- The rows of STATUS, in order. -/
def statusRows (w : ProcWorld) (full : Bool) (bk : State) :
    List (Nat × List UInt8) :=
  [(0x8001, Tlv.putBe32 w.uptime)] ++
    (if full then
      [(0x8002, Tlv.putBe32 w.load1), (0x8003, Tlv.putBe32 w.memfree),
        (0x8004, [UInt8.ofNat bk.cfg.source]),
        (0x8005, Tlv.putBe32 bk.cfg.seq)]
    else []) ++
    [(0x8006, versionStr)] ++
    (if full then [(0x8007, Tlv.putBe32 bk.entropyLast)] else []) ++
    [(0x8008, [if bk.authReady then 1 else 0])] ++
    (if full ∧ bk.upd.lastResult ≠ [] then [(0x8009, bk.upd.lastResult)]
    else [])

/-- `op_status`. -/
def opStatus (entropy : Option Nat) (w : ProcWorld) (full : Bool)
    (bk : State) : State × Resp :=
  let bk := bkEntropyReady entropy bk
  match (statusRows w full bk).foldlM
      (fun body row => protoTlvPut body row.1 row.2) [] with
  | none => (bk, rsStatus .io)
  | some body => (bk, { status := .ok, body := body })

/-! ## PING -/

/-- `BK_PING_OUT_MAX`. -/
def pingOutMax : Nat := 2048

/-- `op_ping`, on what the child wrote before it was stopped, or `none` when it
could not be started. -/
def opPing (child : Option (List UInt8)) (rq : Req) : Resp :=
  if rq.body.length ≠ 5 then rsInval 0
  else if byteAt rq.body 4 < 1 ∨ byteAt rq.body 4 > 5 then rsInval 0
  else if rq.body.take 4 = [0, 0, 0, 0] then rsInval 0
  else
    match child with
    | none => rsStatus .io
    | some out => { status := .ok, body := out.take pingOutMax }

/-! ## LOGIN and PWSET -/

/-- `uint8_t want[32]`. -/
abbrev Derived := { bytes : List UInt8 // bytes.length = 32 }

/-- `kdf_scrypt`: a password, a salt, and the three parameters. -/
abbrev Kdf := List UInt8 → List UInt8 → Nat → Nat → Nat → Option Derived

/-- A stored hash as `cfg_get` gives it. -/
def pwhash (cfg : Cfg) : Option (List UInt8) := (cfgGet cfg idPwhash).toOption

/-- The stored hash, when it is one of scrypt. -/
def scryptHash (cfg : Cfg) : Option (List UInt8) :=
  (pwhash cfg).filter fun h => h.length = pwhashLen ∧ byteAt h 0 = 1

/-- The parameters of a stored hash can be evaluated. -/
def evaluable (h : List UInt8) : Bool :=
  decide (8 ≤ byteAt h 1 ∧ byteAt h 1 ≤ 20 ∧ protoBe16 h 2 ≠ 0 ∧
    protoBe16 h 4 ≠ 0)

/-- A password put through the parameters of a stored hash. -/
def kdfStored (kdf : Kdf) (pw h : List UInt8) : Option Derived :=
  kdf pw ((h.drop 8).take 16) (byteAt h 1).toNat (protoBe16 h 2)
    (protoBe16 h 4)

/-- What LOGIN reads of the clock, the random source and `kdf_scrypt`. -/
structure LoginWorld where
  now : Nat
  slotAt : Nat
  fail : FailTimes
  okSlotAt : Nat
  okSeenAt : Nat
  kdf : Kdf
  new : NewCall

/-- The end of `op_login`: a session, and its two tokens in the reply. -/
def loginSession (w : LoginWorld) (bk : State) : State × Resp :=
  let made := bkSessNew w.new bk.sessions
  let bk := { bk with sessions := made.1 }
  match made.2 with
  | none => (bk, rsStatus .io)
  | some i =>
      (bk,
        { status := .ok
          body := (made.1.table i).tok.bytes ++ (made.1.table i).csrf.bytes ++
            Tlv.putBe32 sessTtl })

/-- `op_login` past its check of the bucket. -/
def loginChecked (w : LoginWorld) (rq : Req) (uid : Nat) (cip : UInt32)
    (bk : State) : State × Resp :=
  match scryptHash bk.cfg with
  | none => (bk, rsStatus .auth)
  | some h =>
      if bk.kdfBusy then (bk, rsStatus .busy)
      else if ¬ evaluable h then (bk, rsStatus .io)
      else
        match kdfStored w.kdf rq.body h with
        | none => (bk, rsStatus .io)
        | some want =>
            if ¬ bkCtEq want.1 (h.drop 24) then
              (if uid = uidRoot then bk
                else { bk with rl := bkRlFail w.fail bk.rl cip },
                rsStatus .auth)
            else
              loginSession w
                (if uid = uidRoot then bk
                else { bk with rl := bkRlOk w.okSlotAt w.okSeenAt bk.rl cip })

/-- `op_login`. -/
def opLogin (entropy : Option Nat) (w : LoginWorld) (rq : Req) (uid : Nat)
    (cip : UInt32) (bk : State) : State × Resp :=
  if rq.body.length < 1 ∨ rq.body.length > 64 then (bk, rsInval 0)
  else
    let bk := bkEntropyReady entropy bk
    if ¬ bk.authReady then (bk, rsStatus .noentropy)
    else if uid = uidRoot then loginChecked w rq uid cip bk
    else
      let checked := bkRlCheck w.now w.slotAt bk.rl cip
      let bk := { bk with rl := checked.1 }
      match checked.2 with
      | some secs => (bk, rsLocked secs)
      | none => loginChecked w rq uid cip bk

/-- What PWSET reads of the random source, `kdf_scrypt` and the store. -/
structure PwsetWorld where
  kdf : Kdf
  salt : Source
  store : Faults

/-- The two passwords of a PWSET's body, `u8 oldlen | old | u8 newlen | new`. -/
def pwsetBody (body : List UInt8) : Option (List UInt8 × List UInt8) :=
  match body with
  | [] => none
  | oldlen :: rest =>
      if rest.length < oldlen.toNat then none
      else
        match rest.drop oldlen.toNat with
        | [] => none
        | newlen :: new =>
            if new.length ≠ newlen.toNat then none
            else if newlen < 8 ∨ newlen > 64 ∨ oldlen > 64 then none
            else some (rest.take oldlen.toNat, new)

/-- The old password of a PWSET, against the stored hash: the refusal, if it
makes one. -/
def pwsetOld (w : PwsetWorld) (old : List UInt8) (uid : Nat) (bk : State) :
    Option Status :=
  match scryptHash bk.cfg with
  | none => if uid ≠ uidRoot then some .perm else none
  | some h =>
      if old.length = 0 then some .auth
      else if ¬ evaluable h then some .io
      else if bk.kdfBusy then some .busy
      else
        match kdfStored w.kdf old h with
        | none => some .io
        | some want => if bkCtEq want.1 (h.drop 24) then none else some .auth

/-- `KDF_LOG2N`. -/
def kdfLog2n : Nat := 12
/-- `KDF_R`. -/
def kdfR : Nat := 7
/-- `KDF_P`. -/
def kdfP : Nat := 1

/-- The first eight bytes of the hash that PWSET makes. -/
def newHashHead : List UInt8 :=
  [1, UInt8.ofNat kdfLog2n] ++ Tlv.putBe16 kdfR ++ Tlv.putBe16 kdfP ++ [0, 0]

/-- The hash that PWSET makes, or the refusal. -/
def pwsetNew (w : PwsetWorld) (new : List UInt8) (bk : State) :
    Except Status (List UInt8) :=
  let salt := bkRandom w.salt 16
  if ¬ salt.2 then .error .io
  else if bk.kdfBusy then .error .busy
  else
    match w.kdf new salt.1 kdfLog2n kdfR kdfP with
    | none => .error .io
    | some key => .ok (newHashHead ++ salt.1 ++ key.1)

/-- `op_pwset`. -/
def opPwset (entropy : Option Nat) (w : PwsetWorld) (rq : Req) (uid : Nat)
    (bk : State) (m : Medium) : Handled :=
  let bk := bkEntropyReady entropy bk
  if ¬ bk.authReady then { bk := bk, medium := m, rs := rsStatus .noentropy }
  else
    match pwsetBody rq.body with
    | none => { bk := bk, medium := m, rs := rsInval 0 }
    | some (old, new) =>
        match pwsetOld w old uid bk with
        | some st => { bk := bk, medium := m, rs := rsStatus st }
        | none =>
            match pwsetNew w new bk with
            | .error st => { bk := bk, medium := m, rs := rsStatus st }
            | .ok hash =>
                match cfgSet bk.cfg idPwhash hash with
                | .error _ =>
                    { bk := bk, medium := m, rs := rsInval idPwhash }
                | .ok work =>
                    let done := commitCfg w.store work bk m
                    if done.rs.status = .ok then
                      { done with
                        bk :=
                          { done.bk with
                            sessions :=
                              { done.bk.sessions with
                                table := bkSessDropAll } } }
                    else done

end RlxFw.Broker
