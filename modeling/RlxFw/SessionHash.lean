import RlxFw.HashUnseen

/-!
# Sessions and the hash that opened them

A session is opened by a LOGIN that was checked against the stored hash, and a
reload that finds another hash drops every session.  Over a run of requests, a
session is honoured under the hash that opened it, unless root changed that
hash by a SET.
-/

namespace RlxFw.Broker

open CfgStore (Cfg Faults Medium loadInfo storeRec)

/-! ## The comparison -/

theorem hashChanged_eq_false_iff (was now : Option (List UInt8)) :
    hashChanged was now = false ↔ was = now := by
  cases was with
  | none => cases now <;> simp [hashChanged]
  | some w =>
      cases now with
      | none => simp [hashChanged]
      | some n =>
          unfold hashChanged
          rw [Bool.or_eq_false_iff, decide_eq_false_iff_not, not_not,
            Bool.not_eq_false', Option.some_inj]
          constructor
          · rintro ⟨length, same⟩
            exact (bkCtEq_iff length).mp same
          · rintro rfl
            exact ⟨rfl, (bkCtEq_iff rfl).mpr rfl⟩

/-! ## What a request leaves of the sessions -/

/-- The broker behind the gate. -/
def Gated.state : Gated → State
  | .refused bk _ => bk
  | .passed bk _ => bk

/-- What a request passed the gate with, if it did. -/
def Gated.sess : Gated → Option (Option (Fin nsess))
  | .refused _ _ => none
  | .passed _ sess => some sess

theorem Gated.eq_passed {gated : Gated} {sess : Option (Fin nsess)}
    (with' : gated.sess = some sess) : gated = .passed gated.state sess := by
  cases gated with
  | refused bk st => cases with'
  | passed bk found => exact congrArg _ (Option.some.inj with')

/-- The sessions in use and the stored hash are carried over: no new session,
and no other hash. -/
structure Carried (bk bk' : State) : Prop where
  hash : pwhash bk'.cfg = pwhash bk.cfg
  used : ∀ i, (bk'.sessions.table i).used = true →
    (bk.sessions.table i).used = true

section Carry

variable {bk bk' bk'' : State}

theorem Carried.trans (first : Carried bk bk') (second : Carried bk' bk'') :
    Carried bk bk'' :=
  ⟨second.hash.trans first.hash, fun i used =>
    first.used i (second.used i used)⟩

theorem carried_of_eq (cfg : bk'.cfg = bk.cfg)
    (sessions : bk'.sessions = bk.sessions) : Carried bk bk' :=
  ⟨congrArg pwhash cfg, fun _ used => sessions ▸ used⟩

theorem bkSessExpire_carries (now : Nat) (table : Table) (i : Fin nsess)
    (used : (bkSessExpire now table i).used = true) :
    (table i).used = true := by
  rw [bkSessExpire_used used] at used
  exact used

theorem bkSessDrop_carries (table : Table) (i j : Fin nsess)
    (used : (bkSessDrop table i j).used = true) : (table j).used = true := by
  unfold bkSessDrop at used
  by_cases here : j = i
  · rw [here, Function.update_self] at used
    cases used
  · rw [Function.update_of_ne here] at used
    exact used

theorem bkEntropyReady_carries (avail : Option Nat) (bk : State) :
    (bkEntropyReady avail bk).cfg = bk.cfg ∧
      (bkEntropyReady avail bk).sessions = bk.sessions := by
  unfold bkEntropyReady
  split_ifs
  · exact ⟨rfl, rfl⟩
  · cases avail <;> exact ⟨rfl, rfl⟩

theorem bkUpdSweep_carries (times : SweepTimes) (bk : State) :
    Carried bk (bkUpdSweep times bk) := by
  have expired : Carried bk
      { bk with
        sessions :=
          { bk.sessions with
            table := (bkSessFind times.expireAt bk.sessions.table
              bk.upd.tok).1 } } :=
    ⟨rfl, bkSessExpire_carries times.expireAt bk.sessions.table⟩
  unfold bkUpdSweep
  split_ifs
  · exact carried_of_eq rfl rfl
  · exact carried_of_eq rfl rfl
  · dsimp only
    split_ifs
    · exact expired.trans (carried_of_eq rfl rfl)
    · exact expired
  · exact carried_of_eq rfl rfl

theorem bkUpdBegin_carries (w : BeginWorld) (rq : Req) (uid : Nat)
    (bk : State) : Carried bk (bkUpdBegin w rq uid bk).1 := by
  refine (bkUpdSweep_carries w.sweep bk).trans ?_
  unfold bkUpdBegin
  dsimp only
  generalize bkUpdSweep w.sweep bk = bk
  cases updHandoff w.boot with
  | none => exact carried_of_eq rfl rfl
  | some boot =>
      dsimp only
      split_ifs
      · exact carried_of_eq rfl rfl
      · exact carried_of_eq rfl rfl
      · exact carried_of_eq rfl rfl
      · exact carried_of_eq rfl rfl
      · unfold updStart
        cases w.memory with
        | none => exact carried_of_eq rfl rfl
        | some memory =>
            dsimp only
            cases protoTlvPut [] updTDest [boot.1.other.char] <;>
              exact carried_of_eq rfl rfl

theorem bkUpdData_carries (w : DataWorld) (rq : Req) (uid : Nat)
    (bk : State) : Carried bk (bkUpdData w rq uid bk).1 := by
  refine (bkUpdSweep_carries w.sweep bk).trans ?_
  unfold bkUpdData
  dsimp only
  generalize bkUpdSweep w.sweep bk = bk
  split_ifs
  · exact carried_of_eq rfl rfl
  · exact carried_of_eq rfl rfl
  · exact carried_of_eq rfl rfl
  · exact carried_of_eq rfl rfl
  · exact carried_of_eq rfl rfl
  · cases protoTlvPut [] updTReceived
      (Tlv.putBe32 (bk.upd.take (rq.body.drop 4) w.takenAt).received) <;>
      exact carried_of_eq rfl rfl

theorem bkUpdEnd_carries (ed25519 : Container.SignatureCheck)
    (pk : List UInt8) (w : EndWorld) (rq : Req) (uid : Nat) (bk : State) :
    Carried bk (bkUpdEnd ed25519 pk w rq uid bk).1 := by
  refine (bkUpdSweep_carries w.sweep bk).trans ?_
  unfold bkUpdEnd
  dsimp only
  generalize bkUpdSweep w.sweep bk = bk
  split_ifs
  · exact carried_of_eq rfl rfl
  · exact carried_of_eq rfl rfl
  · exact carried_of_eq rfl rfl
  · cases endVerdict ed25519 pk w bk.upd (protoBe32 rq.body 0) with
    | error fault => exact carried_of_eq rfl rfl
    | ok passed =>
        dsimp only
        unfold updVerified
        dsimp only
        cases endBody passed.1 passed.2 <;> exact carried_of_eq rfl rfl

theorem opLogout_carries (findAgainAt : Nat) (rq : Req) (uid : Nat)
    (sess : Option (Fin nsess)) (bk : State) :
    Carried bk (opLogout findAgainAt rq uid sess bk).1 := by
  unfold opLogout
  by_cases body : rq.body.length ≠ 0
  · rw [if_pos body]
    exact carried_of_eq rfl rfl
  · rw [if_neg body]
    have kept : ∀ i, ((if sess = none ∧ uid = uidRoot then
          bkSessFind findAgainAt bk.sessions.table rq.session
        else (bk.sessions.table, sess)).1 i).used = true →
          (bk.sessions.table i).used = true := by
      split_ifs
      · exact bkSessExpire_carries findAgainAt bk.sessions.table
      · exact fun _ used => used
    refine ⟨rfl, fun i used => ?_⟩
    dsimp only at used
    generalize (if sess = none ∧ uid = uidRoot then
        bkSessFind findAgainAt bk.sessions.table rq.session
      else (bk.sessions.table, sess)) = again at kept used
    obtain ⟨table, found⟩ := again
    cases found with
    | none => exact kept i used
    | some j => exact kept i (bkSessDrop_carries table j i used)

/-! ## LOGIN -/

/-- An entry in use after a call was in use before it, or is the one that the
call made. -/
theorem bkSessNew_used (call : NewCall) (s : Sessions) (j : Fin nsess)
    (used : ((bkSessNew call s).1.table j).used = true) :
    (bkSessNew call s).2 = some j ∨ (s.table j).used = true := by
  have others : ∀ entry : Sess,
      (Function.update (bkSessExpire call.expireAt s.table)
        (newSlot (bkSessExpire call.expireAt s.table)) entry j).used = true →
      j = newSlot (bkSessExpire call.expireAt s.table) ∧ entry.used = true ∨
        (s.table j).used = true := by
    intro entry inUse
    by_cases here : j = newSlot (bkSessExpire call.expireAt s.table)
    · rw [← here, Function.update_self] at inUse
      exact Or.inl ⟨here, inUse⟩
    · rw [Function.update_of_ne here] at inUse
      exact Or.inr (bkSessExpire_carries call.expireAt s.table j inUse)
  unfold bkSessNew at used ⊢
  dsimp only at used ⊢
  by_cases tok : ¬ (bkRandom call.tok tokLen).2 = true
  · rw [if_pos tok] at used ⊢
    rcases others _ used with ⟨here, was⟩ | before
    · rw [← here] at was
      exact Or.inr (bkSessExpire_carries call.expireAt s.table j was)
    · exact Or.inr before
  · rw [if_neg tok] at used ⊢
    by_cases csrf : ¬ (bkRandom call.csrf tokLen).2 = true
    · rw [if_pos csrf] at used ⊢
      exact Or.inr (bkSessExpire_carries call.expireAt s.table j
        (bkSessDrop_carries _ _ j used))
    · rw [if_neg csrf] at used ⊢
      rcases others _ used with ⟨here, -⟩ | before
      · exact Or.inl (congrArg some here.symm)
      · exact Or.inr before

/-- What a LOGIN leaves: nothing new, or one session, checked against the
stored hash. -/
structure Opens (call : NewCall) (bk bk' : State) : Prop where
  cfg : bk'.cfg = bk.cfg
  checked : (scryptHash bk.cfg).isSome = true
  used : ∀ j, (bk'.sessions.table j).used = true →
    (bkSessNew call bk.sessions).2 = some j ∨
      (bk.sessions.table j).used = true

/-- How a LOGIN ends: not OK, or with a session opened. -/
def LoginEnds (call : NewCall) (bk : State) (done : State × Resp) : Prop :=
  done.2.status ≠ .ok ∧ Carried bk done.1 ∨
    done.2.status = .ok ∧ Opens call bk done.1

theorem loginSession_ends (w : LoginWorld) {bk bk' : State}
    (cfg : bk'.cfg = bk.cfg) (sessions : bk'.sessions = bk.sessions)
    (checked : (scryptHash bk.cfg).isSome = true) :
    LoginEnds w.new bk (loginSession w bk') := by
  have used := bkSessNew_used w.new bk.sessions
  unfold loginSession
  dsimp only
  rw [sessions]
  cases made : (bkSessNew w.new bk.sessions).2 with
  | none =>
      refine Or.inl ⟨nofun, congrArg pwhash cfg, fun j inUse => ?_⟩
      rcases used j inUse with made' | before
      · rw [made] at made'
        cases made'
      · exact before
  | some i => exact Or.inr ⟨rfl, cfg, checked, used⟩

theorem loginChecked_ends (w : LoginWorld) (rq : Req) (uid : Nat)
    (cip : UInt32) (bk : State) :
    LoginEnds w.new bk (loginChecked w rq uid cip bk) := by
  have stays : ∀ {st : Status}, st ≠ .ok →
      LoginEnds w.new bk (bk, rsStatus st) :=
    fun notOk => Or.inl ⟨notOk, carried_of_eq rfl rfl⟩
  unfold loginChecked
  cases stored : scryptHash bk.cfg with
  | none => exact stays nofun
  | some h =>
      have checked : (scryptHash bk.cfg).isSome = true := by
        rw [stored]
        rfl
      dsimp only
      by_cases busy : bk.kdfBusy = true
      · rw [if_pos busy]
        exact stays nofun
      · rw [if_neg busy]
        by_cases bad : ¬ evaluable h = true
        · rw [if_pos bad]
          exact stays nofun
        · rw [if_neg bad]
          cases kdfStored w.kdf rq.body h with
          | none => exact stays nofun
          | some want =>
              dsimp only
              by_cases wrong : ¬ bkCtEq want.1 (h.drop 24) = true
              · rw [if_pos wrong]
                refine Or.inl ⟨nofun, ?_⟩
                dsimp only
                split_ifs <;> exact carried_of_eq rfl rfl
              · rw [if_neg wrong]
                by_cases root : uid = uidRoot
                · rw [if_pos root]
                  exact loginSession_ends w rfl rfl checked
                · rw [if_neg root]
                  exact loginSession_ends w rfl rfl checked

/-- A LOGIN that is not OK leaves no new session. -/
theorem LoginEnds.before {call : NewCall} {bk bk' : State}
    {done : State × Resp} (ends : LoginEnds call bk' done)
    (cfg : bk'.cfg = bk.cfg) (sessions : bk'.sessions = bk.sessions) :
    LoginEnds call bk done := by
  rcases ends with ⟨notOk, carried⟩ | ⟨ok, opens⟩
  · exact Or.inl ⟨notOk, (carried_of_eq cfg sessions).trans carried⟩
  · refine Or.inr ⟨ok, opens.cfg.trans cfg, cfg ▸ opens.checked, ?_⟩
    exact sessions ▸ opens.used

theorem opLogin_ends (entropy : Option Nat) (w : LoginWorld) (rq : Req)
    (uid : Nat) (cip : UInt32) (bk : State) :
    LoginEnds w.new bk (opLogin entropy w rq uid cip bk) := by
  obtain ⟨cfg, sessions⟩ := bkEntropyReady_carries entropy bk
  unfold opLogin
  by_cases length : rq.body.length < 1 ∨ rq.body.length > 64
  · rw [if_pos length]
    exact Or.inl ⟨nofun, carried_of_eq rfl rfl⟩
  · rw [if_neg length]
    dsimp only
    refine LoginEnds.before ?_ cfg sessions
    generalize bkEntropyReady entropy bk = bk
    by_cases unready : ¬ bk.authReady = true
    · rw [if_pos unready]
      exact Or.inl ⟨nofun, carried_of_eq rfl rfl⟩
    · rw [if_neg unready]
      by_cases root : uid = uidRoot
      · rw [if_pos root]
        exact loginChecked_ends w rq uid cip bk
      · rw [if_neg root]
        cases (bkRlCheck w.now w.slotAt bk.rl cip).2 with
        | some secs => exact Or.inl ⟨nofun, carried_of_eq rfl rfl⟩
        | none =>
            exact (loginChecked_ends w rq uid cip
              { bk with rl := (bkRlCheck w.now w.slotAt bk.rl cip).1 }).before
                rfl rfl

/-! ## SET and PWSET -/

/-- A SET changes the stored hash when root asks for that and it is stored. -/
structure SetsHash (faults : Faults) (rq : Req) (uid : Nat) (cfg : Cfg)
    (m : Medium) : Prop where
  root : uid = uidRoot
  work : ∃ work, opSetEdit uid rq.body cfg = .ok work ∧
    (storeRec faults m work false).rc = none ∧ pwhash work ≠ pwhash cfg

/-- A store that returned 0 leaves the values of what was stored. -/
theorem pwhash_stored {faults : Faults} {m : Medium} {work : Cfg}
    (stored : (storeRec faults m work false).rc = none) :
    pwhash (storeRec faults m work false).cfg = pwhash work := by
  obtain ⟨plan, -, -, left⟩ := CfgStore.exists_plan_of_storeRec stored
  rw [left]
  rfl

theorem pwhash_congr {c c' : Cfg}
    (same : ∀ i, (CfgStore.cfgKeys i).web = .hidden → c.value i = c'.value i) :
    pwhash c = pwhash c' := by
  have hidden : ∀ i, (CfgStore.cfgKeys i).id = CfgStore.idPwhash →
      (CfgStore.cfgKeys i).web = .hidden := by
    decide
  unfold pwhash CfgStore.cfgGet
  cases found : CfgStore.cfgIndexById CfgStore.idPwhash with
  | none => rfl
  | some i =>
      dsimp only
      rw [same i (hidden i (CfgStore.cfgKeys_of_index found))]

/-- A peer other than root sets no hidden value. -/
theorem pwhash_opSetEdit {uid : Nat} (notRoot : uid ≠ uidRoot)
    {body : List UInt8} {cfg work : Cfg}
    (edit : opSetEdit uid body cfg = .ok work) : pwhash work = pwhash cfg := by
  have shown : CfgStore.SameShown cfg cfg :=
    (CfgStore.differInHash_refl cfg).toSameShown
  have edits := opSetEdit_shown shown notRoot body
  rw [edit] at edits
  exact pwhash_congr fun i hidden => (edits.kept i hidden).1

theorem opSet_carries {faults : Faults} {rq : Req} {uid : Nat} {bk : State}
    {m : Medium} (kept : ¬ SetsHash faults rq uid bk.cfg m) :
    Carried bk (opSet faults rq uid bk m).bk := by
  unfold opSet
  cases edit : opSetEdit uid rq.body bk.cfg with
  | error rs => exact carried_of_eq rfl rfl
  | ok work =>
      dsimp only
      unfold commitCfg
      dsimp only
      cases stored : (storeRec faults m work false).rc with
      | some fault => exact carried_of_eq rfl rfl
      | none =>
          refine ⟨(pwhash_stored stored).trans ?_, fun _ used => used⟩
          by_cases root : uid = uidRoot
          · by_contra changed
            exact kept ⟨root, work, edit, stored, changed⟩
          · exact pwhash_opSetEdit root edit

theorem commitCfg_bk {faults : Faults} {work : Cfg} {bk : State} {m : Medium}
    (refused : (commitCfg faults work bk m).rs.status ≠ .ok) :
    (commitCfg faults work bk m).bk = bk := by
  unfold commitCfg at refused ⊢
  dsimp only at refused ⊢
  cases stored : (storeRec faults m work false).rc with
  | some fault => rfl
  | none =>
      rw [stored] at refused
      exact absurd rfl refused

/-- A PWSET drops every session, or leaves the broker as it was. -/
theorem opPwset_carries (entropy : Option Nat) (w : PwsetWorld) (rq : Req)
    (uid : Nat) (bk : State) (m : Medium) :
    (opPwset entropy w rq uid bk m).bk.sessions.table = bkSessDropAll ∨
      Carried bk (opPwset entropy w rq uid bk m).bk := by
  obtain ⟨cfg, sessions⟩ := bkEntropyReady_carries entropy bk
  have ready := carried_of_eq cfg sessions
  unfold opPwset
  dsimp only
  generalize bkEntropyReady entropy bk = bk at ready ⊢
  by_cases unready : ¬ bk.authReady = true
  · rw [if_pos unready]
    exact Or.inr ready
  · rw [if_neg unready]
    cases pwsetBody rq.body with
    | none => exact Or.inr ready
    | some pair =>
        obtain ⟨old, new⟩ := pair
        dsimp only
        cases pwsetOld w old uid bk with
        | some st => exact Or.inr ready
        | none =>
            dsimp only
            cases pwsetNew w new bk with
            | error st => exact Or.inr ready
            | ok hash =>
                dsimp only
                cases CfgStore.cfgSet bk.cfg CfgStore.idPwhash hash with
                | error fault => exact Or.inr ready
                | ok work =>
                    dsimp only
                    by_cases done :
                        (commitCfg w.store work bk m).rs.status = .ok
                    · rw [if_pos done]
                      exact Or.inl rfl
                    · rw [if_neg done, commitCfg_bk done]
                      exact Or.inr ready

/-! ## One request -/

/-- What a request that passed the gate leaves of the sessions. -/
inductive Leaves (w : World) (rq : Req) (bk : State) (done : Handled) : Prop
  | opened (login : rq.op = opLoginId) (ok : done.rs.status = .ok)
      (opens : Opens w.login.new bk done.bk)
  | dropped (other : rq.op ≠ opLoginId)
      (all : done.bk.sessions.table = bkSessDropAll)
  | carried (other : ¬ (rq.op = opLoginId ∧ done.rs.status = .ok))
      (carried : Carried bk done.bk)

theorem handle_leaves {w : World} {rq : Req} {uid : Nat}
    {sess : Option (Fin nsess)} {bk : State} {m : Medium}
    (kept : rq.op = opSetId → ¬ SetsHash w.store rq uid bk.cfg m) :
    Leaves w rq bk (handle w rq uid sess bk m) := by
  have carries : ∀ {op : Nat} {done : Handled}, op ≠ opLoginId →
      Carried bk done.bk → rq.op = op → Leaves w rq bk done :=
    fun other carried op => .carried (fun login => other (op ▸ login.1)) carried
  have same : Carried bk bk := carried_of_eq rfl rfl
  refine handle_cases (fun handler => Leaves w rq bk (handler bk m))
    ?_ ?_ ?_ ?_ ?_ ?_ ?_ ?_ ?_ ?_ ?_ ?_
  · exact carries (by decide) same
  · exact fun op => carries (by decide) (opSet_carries (kept op)) op
  · refine carries (by decide) ?_
    dsimp only [onBroker]
    split_ifs <;> exact carried_of_eq rfl rfl
  · refine carries (by decide) ?_
    dsimp only [onBroker]
    split_ifs
    · exact same
    · obtain ⟨cfg, sessions⟩ := bkEntropyReady_carries w.entropy bk
      unfold opStatus
      dsimp only
      split <;> exact carried_of_eq cfg sessions
  · exact carries (by decide) same
  · intro op
    rcases opLogin_ends w.entropy w.login rq uid
        (if uid = uidHttpd then rq.clientIp else 0) bk with
      ⟨notOk, carried⟩ | ⟨ok, opens⟩
    · exact .carried (fun login => notOk login.2) carried
    · exact .opened op ok opens
  · exact carries (by decide) (opLogout_carries w.findAgainAt rq uid sess bk)
  · intro op
    rcases opPwset_carries w.entropy w.pwset rq uid bk m with all | carried
    · exact .dropped (by rw [op]; decide) all
    · exact carries (by decide) carried op
  · exact carries (by decide) (bkUpdBegin_carries w.begin rq uid bk)
  · exact carries (by decide) (bkUpdData_carries w.data rq uid bk)
  · exact carries (by decide)
      (bkUpdEnd_carries w.ed25519 w.pk w.fin rq uid bk)
  · exact .carried (fun login => nomatch login.2) same

theorem handle_set {w : World} {rq : Req} {uid : Nat}
    {sess : Option (Fin nsess)} {m : Medium} (op : rq.op = opSetId) :
    handle w rq uid sess bk m = opSet w.store rq uid bk m := by
  have other : rq.op ≠ opGetId := by
    rw [op]
    decide
  unfold handle
  dsimp only
  rw [if_neg other, if_pos op]

/-- A SET touches no session. -/
theorem opSet_sessions (faults : Faults) (rq : Req) (uid : Nat) (bk : State)
    (m : Medium) : (opSet faults rq uid bk m).bk.sessions = bk.sessions := by
  unfold opSet
  cases opSetEdit uid rq.body bk.cfg with
  | error rs => rfl
  | ok work =>
      dsimp only
      unfold commitCfg
      dsimp only
      cases (storeRec faults m work false).rc <;> rfl

/-- A session in use after a reload was in use before it, under the hash that
the reload found. -/
theorem bkReload_used {faults : Faults} {m : Medium} {i : Fin nsess}
    (used : ((bkReload faults m bk).sessions.table i).used = true) :
    (bk.sessions.table i).used = true ∧
      pwhash (bkReload faults m bk).cfg = pwhash bk.cfg := by
  unfold bkReload at used ⊢
  dsimp only at used ⊢
  split_ifs at used with changed
  · cases used
  · exact ⟨used, ((hashChanged_eq_false_iff _ _).mp
      (Bool.not_eq_true _ ▸ changed)).symm⟩

theorem findSession_carries (now : Nat) (rq : Req) (uid : Nat) (table : Table)
    (i : Fin nsess) (used : ((findSession now rq uid table).1 i).used = true) :
    (table i).used = true := by
  unfold findSession at used
  split_ifs at used
  · exact bkSessExpire_carries now table i used
  · exact used

/-- The session a request passes with depends on the sessions and the stored
hash alone. -/
theorem gate_sess_congr (w : World) (rq : Req) (uid : Nat) (m : Medium)
    (hash : pwhash bk.cfg = pwhash bk'.cfg)
    (sessions : bk.sessions = bk'.sessions) :
    (gate w rq uid bk m).sess = (gate w rq uid bk' m).sess := by
  have table : (bkReload w.load m bk).sessions.table =
      (bkReload w.load m bk').sessions.table := by
    unfold bkReload
    rw [hash, sessions]
  unfold gate
  cases earlyRefusal rq uid with
  | some st => rfl
  | none =>
      dsimp only
      rw [table]
      cases sessionRefusal rq uid (findSession w.findAt rq uid
        (bkReload w.load m bk').sessions.table) <;> rfl

theorem gate_carries {w : World} {rq : Req} {uid : Nat} {m : Medium}
    (early : earlyRefusal rq uid = none) :
    Carried (bkReload w.load m bk) (gate w rq uid bk m).state := by
  have kept := findSession_carries w.findAt rq uid
    (bkReload w.load m bk).sessions.table
  unfold gate
  rw [early]
  dsimp only
  cases sessionRefusal rq uid
      (findSession w.findAt rq uid (bkReload w.load m bk).sessions.table) with
  | some st => exact ⟨rfl, kept⟩
  | none =>
      refine ⟨rfl, fun i used => kept i ?_⟩
      exact (touch_entry _ _ _ i).1.symm.trans used

end Carry

/-! ## Runs -/

/-- A request, as it meets the broker and the store. -/
structure Turn where
  w : World
  rq : Req
  uid : Nat
  m : Medium

/-- The hash that the reload of a request finds. -/
def Turn.found (t : Turn) : Option (List UInt8) :=
  pwhash (CfgStore.bkCfgReload (loadInfo t.w.load t.m))

/-- What is known of the LOGIN that opened a session: the hash it was checked
against, and the hash that every reload since found. -/
structure Opened where
  hash : List UInt8
  since : List (Option (List UInt8))
deriving DecidableEq

/-- The broker, watched: the LOGIN behind every session. -/
structure Watched where
  bk : State
  opened : Fin nsess → Option Opened

namespace Watched

/-- A broker without a session. -/
def start (bk : State) : Watched where
  bk := { bk with sessions := State.init.sessions }
  opened := fun _ => none

/-- The logs, with the hash of this request's reload if it comes to one. -/
def noted (s : Watched) (t : Turn) : Fin nsess → Option Opened := fun i =>
  if (earlyRefusal t.rq t.uid).isSome then s.opened i
  else (s.opened i).map fun o => { o with since := o.since ++ [t.found] }

/-- The session that a LOGIN opens, and the hash it was checked against. -/
def login (s : Watched) (t : Turn) : Option (Fin nsess × List UInt8) :=
  match gate t.w t.rq t.uid s.bk t.m with
  | .refused _ _ => none
  | .passed bk sess =>
      if t.rq.op = opLoginId ∧
          (handle t.w t.rq t.uid sess bk t.m).rs.status = .ok then
        (bkSessNew t.w.login.new bk.sessions).2.bind fun i =>
          (scryptHash bk.cfg).map fun h => (i, h)
      else none

/-- One request. -/
def turn (s : Watched) (t : Turn) : Watched where
  bk := (bkDispatch t.w t.rq t.uid s.bk t.m).bk
  opened :=
    match s.login t with
    | none => s.noted t
    | some (i, hash) =>
        Function.update (s.noted t) i (some { hash := hash, since := [] })

theorem turn_bk (s : Watched) (t : Turn) :
    (s.turn t).bk = (bkDispatch t.w t.rq t.uid s.bk t.m).bk := rfl

/-- A run of requests, the store being anything at each. -/
def run (s : Watched) (turns : List Turn) : Watched := turns.foldl turn s

/-- A request honoured on a session was let in under the hash that opened it,
and no reload since found another. -/
def HonouredUnderHash (s : Watched) (t : Turn) : Prop :=
  ∀ bk i, gate t.w t.rq t.uid s.bk t.m = .passed bk (some i) →
    ∃ o, s.opened i = some o ∧ t.found = some o.hash ∧
      ∀ found ∈ o.since, found = some o.hash

/-- Root stores another hash by a SET, with a session in use. -/
structure RenewsHash (s : Watched) (t : Turn) : Prop where
  op : t.rq.op = opSetId
  sets : SetsHash t.w.store t.rq t.uid (bkReload t.w.load t.m s.bk).cfg t.m
  inUse : ∃ i, ((bkReload t.w.load t.m s.bk).sessions.table i).used = true

/-- No request of a run does that. -/
def NeverRenews : Watched → List Turn → Prop
  | _, [] => True
  | s, t :: rest => ¬ s.RenewsHash t ∧ NeverRenews (s.turn t) rest

/-! ## The invariant -/

/-- Every session in use was opened under the hash that the broker holds, and
all reloads since found that. -/
def Holds (bk : State) (opened : Fin nsess → Option Opened) : Prop :=
  ∀ i, (bk.sessions.table i).used = true →
    ∃ o, opened i = some o ∧ pwhash bk.cfg = some o.hash ∧
      ∀ found ∈ o.since, found = some o.hash

variable {s : Watched} {t : Turn} {bk bk' : State}
  {opened : Fin nsess → Option Opened}

theorem Holds.carry (holds : Holds bk opened) (carried : Carried bk bk') :
    Holds bk' opened := by
  intro i used
  obtain ⟨o, known, hash, since⟩ := holds i (carried.used i used)
  exact ⟨o, known, carried.hash.trans hash, since⟩

theorem holds_of_dropped (all : bk.sessions.table = bkSessDropAll) :
    Holds bk opened := by
  intro i used
  rw [all] at used
  cases used

/-- The reload of a request keeps the invariant, and is noted. -/
theorem Holds.reload (holds : Holds s.bk s.opened)
    (early : earlyRefusal t.rq t.uid = none) :
    Holds (bkReload t.w.load t.m s.bk) (s.noted t) := by
  intro i used
  obtain ⟨before, same⟩ := bkReload_used used
  obtain ⟨o, known, hash, since⟩ := holds i before
  refine ⟨{ o with since := o.since ++ [t.found] }, ?_, same.trans hash, ?_⟩
  · unfold noted
    rw [early, known]
    rfl
  · intro found listed
    rcases List.mem_append.mp listed with earlier | last
    · exact since found earlier
    · rw [List.mem_singleton.mp last]
      exact same.trans hash

theorem Holds.opens {call : NewCall} {i : Fin nsess} {hash : List UInt8}
    (holds : Holds bk opened) (opens : Opens call bk bk')
    (made : (bkSessNew call bk.sessions).2 = some i)
    (checked : scryptHash bk.cfg = some hash) :
    Holds bk'
      (Function.update opened i (some { hash := hash, since := [] })) := by
  intro j used
  by_cases here : j = i
  · subst here
    refine ⟨_, Function.update_self _ _ _, ?_, nofun⟩
    rw [opens.cfg]
    exact (Option.filter_eq_some_iff.mp checked).1
  · rw [Function.update_of_ne here]
    rcases opens.used j used with new | before
    · exact absurd (Option.some.inj (new.symm.trans made)) here
    · rw [opens.cfg]
      exact holds j before

/-- One request keeps the invariant, unless root renews the hash by it. -/
theorem Holds.turn (holds : Holds s.bk s.opened) (kept : ¬ s.RenewsHash t) :
    Holds (s.turn t).bk (s.turn t).opened := by
  unfold Watched.turn
  dsimp only
  cases early : earlyRefusal t.rq t.uid with
  | some st =>
      have refused : gate t.w t.rq t.uid s.bk t.m = .refused s.bk st :=
        gate_early early
      have noLogin : s.login t = none := by
        unfold login
        rw [refused]
      have unnoted : s.noted t = s.opened := by
        funext i
        unfold noted
        rw [early]
        rfl
      rw [bkDispatch_refused refused, noLogin, unnoted]
      exact holds
  | none =>
      have passed := (holds.reload early).carry (gate_carries early)
      cases gated : gate t.w t.rq t.uid s.bk t.m with
      | refused bk st =>
          have noLogin : s.login t = none := by
            unfold login
            rw [gated]
          rw [gated] at passed
          rw [bkDispatch_refused gated, noLogin]
          exact passed
      | passed bk sess =>
          rw [gated] at passed
          rw [bkDispatch_passed gated]
          have cfg : bk.cfg = (bkReload t.w.load t.m s.bk).cfg := by
            rw [(gatePassed_of_gate gated).state]
          have notLogin : ¬ (t.rq.op = opLoginId ∧
                (handle t.w t.rq t.uid sess bk t.m).rs.status = .ok) →
              s.login t = none := by
            intro other
            unfold login
            rw [gated]
            exact if_neg other
          by_cases sets : t.rq.op = opSetId ∧
              SetsHash t.w.store t.rq t.uid bk.cfg t.m
          · -- root renews the hash, but no session is in use
            intro i used
            rw [handle_set sets.1, opSet_sessions] at used
            have behind : Carried (bkReload t.w.load t.m s.bk)
                (gate t.w t.rq t.uid s.bk t.m).state := gate_carries early
            rw [gated] at behind
            exact absurd ⟨sets.1, cfg ▸ sets.2, i, behind.used i used⟩ kept
          · have kept' : t.rq.op = opSetId →
                ¬ SetsHash t.w.store t.rq t.uid bk.cfg t.m := not_and.mp sets
            have leaves : Leaves t.w t.rq bk
                (handle t.w t.rq t.uid sess bk t.m) := handle_leaves kept'
            cases leaves with
            | opened op ok opens =>
                obtain ⟨hash, checked⟩ := Option.isSome_iff_exists.mp opens.checked
                have opening : s.login t =
                    (bkSessNew t.w.login.new bk.sessions).2.bind
                      fun i => some (i, hash) := by
                  unfold login
                  rw [gated]
                  dsimp only
                  rw [if_pos ⟨op, ok⟩, checked]
                  rfl
                cases made : (bkSessNew t.w.login.new bk.sessions).2 with
                | none =>
                    rw [opening, made]
                    refine passed.carry ⟨congrArg pwhash opens.cfg, ?_⟩
                    intro j used
                    rcases opens.used j used with new | before
                    · rw [made] at new
                      cases new
                    · exact before
                | some i =>
                    rw [opening, made]
                    exact passed.opens opens made checked
            | dropped op all => exact holds_of_dropped all
            | carried other carried =>
                rw [notLogin other]
                exact passed.carry carried

/-- A run by which root renews no hash keeps the invariant. -/
theorem Holds.run (holds : Holds s.bk s.opened) {turns : List Turn}
    (never : s.NeverRenews turns) :
    Holds (s.run turns).bk (s.run turns).opened := by
  induction turns generalizing s with
  | nil => exact holds
  | cons t rest ih => exact ih (holds.turn never.1) never.2

/-- Over a run by which root renews no hash under a session, a session is
honoured under the hash that opened it, which every reload since found. -/
theorem honoured_under_hash (bk : State) (turns : List Turn)
    (never : (start bk).NeverRenews turns) (t : Turn) :
    ((start bk).run turns).HonouredUnderHash t := by
  have begins : Holds (start bk).bk (start bk).opened :=
    holds_of_dropped rfl
  have holds := begins.run never
  intro bk' i gated
  have passed := gatePassed_of_gate gated
  have found := passed.sess_eq.symm
  have known : t.uid = uidRoot ∨ t.uid = uidHttpd := by
    by_contra other
    unfold findSession at found
    rw [if_neg other] at found
    cases found
  unfold findSession at found
  rw [if_pos known] at found
  have live := (liveSession_of_find found).1
  obtain ⟨before, same⟩ := bkReload_used live.used
  obtain ⟨o, opened, hash, since⟩ := holds i before
  exact ⟨o, opened, same.trans hash, since⟩

/-! ## A hash renewed by root -/

/-- A LOGIN from the web, with any password, on a `kdf_scrypt` that gives
zeros. -/
def loginTurn : Turn where
  w :=
    { World.quiet with
      entropy := some entropyMin
      login :=
        { World.quiet.login with
          kdf := fun _ _ _ _ _ => some ⟨List.replicate 32 0, rfl⟩
          new :=
            { expireAt := 0, madeAt := 0
              tok := some [.data (List.replicate tokLen 7)]
              csrf := some [.data (List.replicate tokLen 8)] } } }
  rq := { getLanIp with op := opLoginId, body := [0x78] }
  uid := uidHttpd
  m := .file (.regular zeroFile)

/-- Root sets the hash of ones. -/
def renewTurn : Turn where
  w := World.quiet
  rq :=
    { getLanIp with
      op := opSetId, body := Tlv.itemBytes CfgStore.idPwhash (sampleHash 1) }
  uid := uidRoot
  m := .file (.regular zeroFile)

/-- A reading on the session of that LOGIN, over the store that root left. -/
def readTurn : Turn where
  w := World.quiet
  rq := { getLanIp with session := ⟨List.replicate tokLen 7, rfl⟩ }
  uid := uidHttpd
  m := .file (.regular oneFile)

/-- The broker once the LOGIN was answered. -/
def afterLogin : Watched := (start .init).turn loginTurn

/-- The broker that root's SET was handled by. -/
def atRenewal : State :=
  (gate renewTurn.w renewTurn.rq renewTurn.uid afterLogin.bk renewTurn.m).state

/-- The record that root's SET would store. -/
def renewal : Option Cfg :=
  (opSetEdit uidRoot renewTurn.rq.body atRenewal.cfg).toOption

/-- The same sessions, under the hash of ones. -/
def underOnes : State := { atRenewal with cfg := hashCfg 1 }

/-- The run, evaluated: the session that LOGIN opened, root's SET let in, the hash
it would store and how, and the session under the hash of ones. -/
theorem renewal_evaluated :
    (afterLogin.turn renewTurn).opened 0 =
        some { hash := sampleHash 0, since := [some (sampleHash 0)] } ∧
      (gate renewTurn.w renewTurn.rq renewTurn.uid afterLogin.bk renewTurn.m).sess =
        some none ∧
      renewal.map pwhash = some (some (sampleHash 1)) ∧
      (renewal.bind fun work => (CfgStore.storePlan work false
        (loadInfo CfgStore.noFaults renewTurn.m)).toOption).isSome = true ∧
      (gate readTurn.w readTurn.rq readTurn.uid underOnes readTurn.m).sess =
        some (some 0) ∧
      readTurn.found = some (sampleHash 1) := by
  decide +kernel

theorem afterRenewal :
    pwhash (afterLogin.turn renewTurn).bk.cfg = some (sampleHash 1) ∧
      (afterLogin.turn renewTurn).bk.sessions = atRenewal.sessions := by
  obtain ⟨-, letIn, renewed, planned, -⟩ := renewal_evaluated
  obtain ⟨work, edited, hash⟩ := Option.map_eq_some_iff.mp renewed
  rw [edited, Option.bind_some] at planned
  obtain ⟨plan, planOk⟩ := Option.isSome_iff_exists.mp planned
  have edit := eq_ok_of_toOption edited
  have stored : (storeRec renewTurn.w.store renewTurn.m work false).rc = none :=
    CfgStore.storeRec_noFaults nofun (opSetEdit_valid edit)
      (eq_ok_of_toOption planOk)
  have passed : gate renewTurn.w renewTurn.rq renewTurn.uid afterLogin.bk
      renewTurn.m = .passed atRenewal none := Gated.eq_passed letIn
  rw [turn_bk, bkDispatch_passed passed, handle_set rfl, opSet_sessions]
  refine ⟨?_, rfl⟩
  unfold opSet
  rw [show opSetEdit renewTurn.uid renewTurn.rq.body atRenewal.cfg = .ok work
    from edit]
  dsimp only
  unfold commitCfg
  dsimp only
  rw [stored]
  exact (pwhash_stored stored).trans hash

theorem underOnes_hash : pwhash underOnes.cfg = some (sampleHash 1) := by
  decide

/-- The session outlives the hash that opened it: root has set another, and
the next reload finds nothing changed. -/
theorem session_outlives_hash :
    ¬ ∀ (bk : State) (turns : List Turn) (t : Turn),
      ((start bk).run turns).HonouredUnderHash t := by
  intro always
  obtain ⟨login, -, -, -, passes, reads⟩ := renewal_evaluated
  obtain ⟨hash, sessions⟩ := afterRenewal
  have passed := (gate_sess_congr readTurn.w readTurn.rq readTurn.uid
    readTurn.m (hash.trans underOnes_hash.symm) sessions).trans passes
  obtain ⟨o, opened, found, -⟩ :=
    always .init [loginTurn, renewTurn] readTurn _ 0 (Gated.eq_passed passed)
  have hashes : o.hash = sampleHash 0 := by
    rw [← Option.some.inj (login.symm.trans opened)]
  rw [reads, hashes] at found
  exact absurd found (by decide)

/-- A LOGIN and then a reading on its session. -/
theorem honoured_under_hash_login :
    ((start .init).run [loginTurn]).HonouredUnderHash
      { readTurn with m := loginTurn.m } :=
  honoured_under_hash .init [loginTurn]
    ⟨fun renews => absurd renews.op (by decide), trivial⟩ _

end Watched

end RlxFw.Broker
