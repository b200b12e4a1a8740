import RlxFw.Passwords
import RlxFw.SessionLife

/-!
# Which tokens are honoured

Over any run of requests and sweeps, the broker honours the tokens that its LOGIN replies
handed out, each until it is given back, cleared with all others, left idle or crowded out.
-/

namespace RlxFw.Broker

open CfgStore (Medium loadInfo)
open Note (lease rivals)

/-! ## A lookup -/

/-- A token that an entry in use holds is found. -/
theorem hit_isSome {table : Table} {tok : Token} {i : Fin nsess}
    (used : (table i).used = true) (same : (table i).tok = tok) :
    (hit table tok).isSome = true := by
  have stays : ∀ (is : List (Fin nsess)) (start : Option (Fin nsess)),
      start.isSome = true ∨ i ∈ is →
      (is.foldl
        (fun hit i =>
          if (table i).used ∧ bkCtEq (table i).tok.bytes tok.bytes then some i
          else hit) start).isSome = true := by
    intro is
    induction is with
    | nil =>
        rintro start (found | listed)
        · exact found
        · cases listed
    | cons j rest ih =>
        intro start given
        apply ih
        dsimp only
        split_ifs with matching
        · exact Or.inl rfl
        · rcases given with found | listed
          · exact Or.inl found
          · rcases List.mem_cons.mp listed with rfl | later
            · exact absurd ⟨used, (Token.ctEq_iff _ _).mpr same⟩ matching
            · exact Or.inr later
  exact stays _ none (Or.inr (List.mem_finRange i))

theorem hit_eq_none {table : Table} {tok : Token} (missed : hit table tok = none)
    {i : Fin nsess} (used : (table i).used = true) : (table i).tok ≠ tok := fun same => by
  have found := hit_isSome used same
  rw [missed] at found
  cases found

theorem Token.bytes_inj {t u : Token} (same : t.bytes = u.bytes) : t = u := by
  cases t
  cases u
  cases same
  rfl

/-! ## The handlers -/

section Handlers

variable {bk : State} {notes : List SessNote} {clocks : List Nat}

theorem Lives.sweep (lives : Lives bk.sessions.table notes clocks) (times : SweepTimes) :
    Lives (bkUpdSweep times bk).sessions.table notes (clocks ++ [times.expireAt]) := by
  have same := lives.searched (List.subset_append_left clocks [times.expireAt])
  have expired := lives.expire times.expireAt
  unfold bkUpdSweep
  split_ifs
  · exact same
  · exact same
  · dsimp only
    split_ifs
    · exact expired
    · exact expired
  · exact same

theorem bkUpdBegin_sessions (w : BeginWorld) (rq : Req) (uid : Nat) (bk : State) :
    (bkUpdBegin w rq uid bk).1.sessions = (bkUpdSweep w.sweep bk).sessions := by
  unfold bkUpdBegin
  dsimp only
  generalize bkUpdSweep w.sweep bk = bk
  cases updHandoff w.boot with
  | none => rfl
  | some boot =>
      dsimp only
      split_ifs
      · rfl
      · rfl
      · rfl
      · rfl
      · unfold updStart
        cases w.memory with
        | none => rfl
        | some memory =>
            dsimp only
            cases protoTlvPut [] updTDest [boot.1.other.char] <;> rfl

theorem bkUpdData_sessions (w : DataWorld) (rq : Req) (uid : Nat) (bk : State) :
    (bkUpdData w rq uid bk).1.sessions = (bkUpdSweep w.sweep bk).sessions := by
  unfold bkUpdData
  dsimp only
  generalize bkUpdSweep w.sweep bk = bk
  split_ifs
  · rfl
  · rfl
  · rfl
  · rfl
  · rfl
  · cases protoTlvPut [] updTReceived
      (Tlv.putBe32 (bk.upd.take (rq.body.drop 4) w.takenAt).received) <;> rfl

theorem bkUpdEnd_sessions (ed25519 : Container.SignatureCheck) (pk : List UInt8)
    (w : EndWorld) (rq : Req) (uid : Nat) (bk : State) :
    (bkUpdEnd ed25519 pk w rq uid bk).1.sessions = (bkUpdSweep w.sweep bk).sessions := by
  unfold bkUpdEnd
  dsimp only
  generalize bkUpdSweep w.sweep bk = bk
  split_ifs
  · rfl
  · rfl
  · rfl
  · cases endVerdict ed25519 pk w bk.upd (protoBe32 rq.body 0) with
    | error fault => rfl
    | ok passed =>
        dsimp only
        unfold updVerified
        dsimp only
        cases endBody passed.1 passed.2 <;> rfl

/-- What a LOGIN leaves of the sessions, by its reply. -/
inductive LoginLeaves (call : NewCall) (bk : State) (done : State × Resp) : Prop
  | refused (notOk : done.2.status ≠ .ok) (same : done.1.sessions = bk.sessions)
  | failed (io : done.2.status = .io) (none_made : (bkSessNew call bk.sessions).2 = none)
      (left : done.1.sessions = (bkSessNew call bk.sessions).1)
  | opened (i : Fin nsess) (made : (bkSessNew call bk.sessions).2 = some i)
      (left : done.1.sessions = (bkSessNew call bk.sessions).1)
      (reply : done.2 =
        { status := .ok
          body := ((bkSessNew call bk.sessions).1.table i).tok.bytes ++
            ((bkSessNew call bk.sessions).1.table i).csrf.bytes ++ Tlv.putBe32 sessTtl })

theorem loginSession_leaves (w : LoginWorld) {bk bk' : State}
    (sessions : bk'.sessions = bk.sessions) : LoginLeaves w.new bk (loginSession w bk') := by
  unfold loginSession
  dsimp only
  rw [sessions]
  cases made : (bkSessNew w.new bk.sessions).2 with
  | none => exact .failed rfl made rfl
  | some i => exact .opened i made rfl rfl

theorem loginChecked_leaves (w : LoginWorld) (rq : Req) (uid : Nat) (cip : UInt32)
    {bk bk' : State} (sessions : bk'.sessions = bk.sessions) :
    LoginLeaves w.new bk (loginChecked w rq uid cip bk') := by
  unfold loginChecked
  cases scryptHash bk'.cfg with
  | none => exact .refused nofun sessions
  | some h =>
      dsimp only
      by_cases busy : bk'.kdfBusy = true
      · rw [if_pos busy]
        exact .refused nofun sessions
      · rw [if_neg busy]
        by_cases bad : ¬ evaluable h = true
        · rw [if_pos bad]
          exact .refused nofun sessions
        · rw [if_neg bad]
          cases kdfStored w.kdf rq.body h with
          | none => exact .refused nofun sessions
          | some want =>
              dsimp only
              by_cases wrong : ¬ bkCtEq want.1 (h.drop 24) = true
              · rw [if_pos wrong]
                refine .refused nofun ?_
                dsimp only
                split_ifs <;> exact sessions
              · rw [if_neg wrong]
                by_cases root : uid = uidRoot
                · rw [if_pos root]
                  exact loginSession_leaves w sessions
                · rw [if_neg root]
                  exact loginSession_leaves w sessions

theorem opLogin_leaves (entropy : Option Nat) (w : LoginWorld) (rq : Req) (uid : Nat)
    (cip : UInt32) (bk : State) : LoginLeaves w.new bk (opLogin entropy w rq uid cip bk) := by
  have sessions := (bkEntropyReady_carries entropy bk).2
  unfold opLogin
  by_cases length : rq.body.length < 1 ∨ rq.body.length > 64
  · rw [if_pos length]
    exact .refused nofun rfl
  · rw [if_neg length]
    dsimp only
    generalize bkEntropyReady entropy bk = ready at sessions ⊢
    by_cases unready : ¬ ready.authReady = true
    · rw [if_pos unready]
      exact .refused nofun sessions
    · rw [if_neg unready]
      by_cases root : uid = uidRoot
      · rw [if_pos root]
        exact loginChecked_leaves w rq uid cip sessions
      · rw [if_neg root]
        cases (bkRlCheck w.now w.slotAt ready.rl cip).2 with
        | some secs => exact .refused nofun sessions
        | none => exact loginChecked_leaves w rq uid cip sessions

/-- A PWSET that is OK drops every session, and any other none. -/
theorem opPwset_sessions (entropy : Option Nat) (w : PwsetWorld) (rq : Req) (uid : Nat)
    (bk : State) (m : Medium) :
    let done := opPwset entropy w rq uid bk m
    done.rs.status = .ok ∧ done.bk.sessions.table = bkSessDropAll ∨
      done.rs.status ≠ .ok ∧ done.bk.sessions = bk.sessions := by
  have ready := (bkEntropyReady_carries entropy bk).2
  dsimp only
  unfold opPwset
  dsimp only
  generalize bkEntropyReady entropy bk = bk' at ready ⊢
  by_cases unready : ¬ bk'.authReady = true
  · rw [if_pos unready]
    exact Or.inr ⟨nofun, ready⟩
  · rw [if_neg unready]
    cases pwsetBody rq.body with
    | none => exact Or.inr ⟨nofun, ready⟩
    | some pair =>
        obtain ⟨old, new⟩ := pair
        dsimp only
        cases refused : pwsetOld w old uid bk' with
        | some st => exact Or.inr ⟨pwsetOld_refuses refused, ready⟩
        | none =>
            dsimp only
            cases made : pwsetNew w new bk' with
            | error st => exact Or.inr ⟨pwsetNew_refuses made, ready⟩
            | ok hash =>
                dsimp only
                cases CfgStore.cfgSet bk'.cfg CfgStore.idPwhash hash with
                | error fault => exact Or.inr ⟨nofun, ready⟩
                | ok work =>
                    dsimp only
                    by_cases done : (commitCfg w.store work bk' m).rs.status = .ok
                    · rw [if_pos done]
                      exact Or.inl ⟨done, rfl⟩
                    · rw [if_neg done]
                      exact Or.inr ⟨done, (commitCfg_bk done).symm ▸ ready⟩

/-- A LOGOUT that is OK gives back the token it names, if that is there. -/
theorem opLogout_lives (findAgainAt uid : Nat) {rq : Req} {sess : Option (Fin nsess)}
    (lives : Lives bk.sessions.table notes clocks)
    (found : ∀ i, sess = some i →
      (bk.sessions.table i).used = true ∧ (bk.sessions.table i).tok = rq.session)
    (missed : sess = none → ∀ i, (bk.sessions.table i).used = true →
      (bk.sessions.table i).tok ≠ rq.session) :
    let done := opLogout findAgainAt rq uid sess bk
    done.2.status = .ok ∧ Lives done.1.sessions.table
        (notes ++ [.closed rq.session.bytes]) (clocks ++ [findAgainAt]) ∨
      done.2.status ≠ .ok ∧ done.1.sessions = bk.sessions := by
  dsimp only
  unfold opLogout
  by_cases body : rq.body.length ≠ 0
  · rw [if_pos body]
    exact Or.inr ⟨nofun, rfl⟩
  · rw [if_neg body]
    refine Or.inl ⟨rfl, ?_⟩
    have longer := lives.searched (List.subset_append_left clocks [findAgainAt])
    dsimp only
    cases sess with
    | some i =>
        obtain ⟨used, holds⟩ := found i rfl
        have named : ¬ (some i = none ∧ uid = uidRoot) := fun both => nomatch both.1
        rw [if_neg named, ← holds]
        exact longer.drop used
    | none =>
        have absent := missed rfl
        have closed : ∀ {table : Table}, Lives table notes (clocks ++ [findAgainAt]) →
            (∀ j, (table j).used = true → (table j).tok ≠ rq.session) →
            Lives table (notes ++ [.closed rq.session.bytes]) (clocks ++ [findAgainAt]) :=
          fun lives absent => lives.close (fun _ _ => rfl) fun j used =>
            iff_of_false (by rw [used]; nofun) fun same => absent j used (Token.bytes_inj same)
        by_cases root : (none : Option (Fin nsess)) = none ∧ uid = uidRoot
        · rw [if_pos root]
          have after : ∀ j, (bkSessExpire findAgainAt bk.sessions.table j).used = true →
              (bkSessExpire findAgainAt bk.sessions.table j).tok ≠ rq.session := by
            intro j used
            have same := bkSessExpire_used used
            rw [same] at used ⊢
            exact absent j used
          have again : (bkSessFind findAgainAt bk.sessions.table rq.session).2 = none := by
            cases hits : (bkSessFind findAgainAt bk.sessions.table rq.session).2 with
            | none => rfl
            | some i => exact absurd (hit_spec hits).2 (after i (hit_spec hits).1)
          rw [again]
          exact closed (lives.expire findAgainAt) after
        · rw [if_neg root]
          exact closed longer absent

end Handlers

/-! ## A request -/

/-- What a reply shows of the sessions. -/
def shown (w : World) (rq : Req) (rs : Resp) : List SessNote :=
  if rs.status ≠ .ok then []
  else if rq.op = opLoginId then
    [.opened (rs.body.take tokLen) ((rs.body.drop tokLen).take tokLen) w.login.new.madeAt]
  else if rq.op = opLogoutId then [.closed rq.session.bytes]
  else if rq.op = opPwsetId then [.cleared]
  else []

/-- When a handler searches the table for idle entries. -/
def searches (w : World) (rq : Req) : List Nat :=
  if rq.op = opLoginId then [w.login.new.expireAt]
  else if rq.op = opLogoutId then [w.findAgainAt]
  else if rq.op = opUpdateBeginId then [w.begin.sweep.expireAt]
  else if rq.op = opUpdateDataId then [w.data.sweep.expireAt]
  else if rq.op = opUpdateEndId then [w.fin.sweep.expireAt]
  else []

/-- The operations that are noted. -/
def noted (op : Nat) : Bool := op == opLoginId || op == opLogoutId || op == opPwsetId

theorem shown_of_not_noted {w : World} {rq : Req} {rs : Resp} (quiet : noted rq.op = false) :
    shown w rq rs = [] := by
  simp only [noted, Bool.or_eq_false_iff, beq_eq_false_iff_ne] at quiet
  obtain ⟨⟨login, logout⟩, pwset⟩ := quiet
  unfold shown
  rw [if_neg login, if_neg logout, if_neg pwset, ite_self]

theorem shown_of_not_ok {w : World} {rq : Req} {rs : Resp} (notOk : rs.status ≠ .ok) :
    shown w rq rs = [] := if_pos notOk

section Handle

variable {w : World} {rq : Req} {uid : Nat} {sess : Option (Fin nsess)} {bk : State}
  {m : Medium} {notes : List SessNote} {clocks : List Nat}

/-- The tokens of a reply to LOGIN. -/
theorem shown_login {entry : Sess} (op : rq.op = opLoginId) {rs : Resp}
    (reply : rs =
      { status := .ok, body := entry.tok.bytes ++ entry.csrf.bytes ++ Tlv.putBe32 sessTtl }) :
    shown w rq rs = [.opened entry.tok.bytes entry.csrf.bytes w.login.new.madeAt] := by
  have tok := entry.tok.length_eq
  have csrf := entry.csrf.length_eq
  unfold shown
  rw [reply, if_neg (fun notOk => notOk rfl), if_pos op, List.append_assoc,
    List.take_left' tok, List.drop_left' tok, List.take_left' csrf]

theorem opLogin_lives {cip : UInt32} {done : State × Resp}
    (lives : Lives bk.sessions.table notes clocks) (op : rq.op = opLoginId)
    (login : done = opLogin w.entropy w.login rq uid cip bk)
    (fresh : Note.Fresh (notes ++ shown w rq done.2))
    (whole : done.2.status = .io → ¬ TearsToken w.login.new bk.sessions) :
    Lives done.1.sessions.table (notes ++ shown w rq done.2) (clocks ++ searches w rq) := by
  have only : searches w rq = [w.login.new.expireAt] := if_pos op
  have leaves := opLogin_leaves w.entropy w.login rq uid cip bk
  rw [← login] at leaves
  rw [only]
  cases leaves with
  | refused notOk same =>
      rw [shown_of_not_ok notOk, List.append_nil, same]
      exact lives.searched (List.subset_append_left _ _)
  | failed io unmade left =>
      rw [shown_of_not_ok (by rw [io]; nofun), List.append_nil, left]
      exact lives.refuse unmade (whole io)
  | opened i made left reply =>
      rw [shown_login op reply] at fresh ⊢
      rw [left]
      exact lives.make made fresh

theorem opLogout_shown {done : State × Resp} (lives : Lives bk.sessions.table notes clocks)
    (op : rq.op = opLogoutId) (logout : done = opLogout w.findAgainAt rq uid sess bk)
    (found : ∀ i, sess = some i →
      (bk.sessions.table i).used = true ∧ (bk.sessions.table i).tok = rq.session)
    (missed : sess = none → ∀ i, (bk.sessions.table i).used = true →
      (bk.sessions.table i).tok ≠ rq.session) :
    Lives done.1.sessions.table (notes ++ shown w rq done.2) (clocks ++ searches w rq) := by
  have only : searches w rq = [w.findAgainAt] := by
    unfold searches
    rw [op]
    rfl
  have ends := opLogout_lives w.findAgainAt uid lives found missed
  rw [← logout] at ends
  rw [only]
  obtain ⟨ok, closed⟩ | ⟨notOk, same⟩ := ends
  · have note : shown w rq done.2 = [.closed rq.session.bytes] := by
      unfold shown
      rw [if_neg (fun notOk => notOk ok), op]
      rfl
    rw [note]
    exact closed
  · rw [shown_of_not_ok notOk, List.append_nil, same]
    exact lives.searched (List.subset_append_left _ _)

theorem opPwset_lives {done : Handled} (lives : Lives bk.sessions.table notes clocks)
    (op : rq.op = opPwsetId) (pwset : done = opPwset w.entropy w.pwset rq uid bk m) :
    Lives done.bk.sessions.table (notes ++ shown w rq done.rs) clocks := by
  have ends := opPwset_sessions w.entropy w.pwset rq uid bk m
  dsimp only at ends
  rw [← pwset] at ends
  obtain ⟨ok, all⟩ | ⟨notOk, same⟩ := ends
  · have note : shown w rq done.rs = [.cleared] := by
      unfold shown
      rw [if_neg (fun notOk => notOk ok), op]
      rfl
    rw [note, all]
    exact lives_cleared
  · rw [shown_of_not_ok notOk, List.append_nil, same]
    exact lives

/-- The rest of the operations leave the sessions, but for a search. -/
theorem lives_of_quiet {op : Nat} {done : Handled} (quiet : noted op = false)
    (lives : Lives done.bk.sessions.table notes (clocks ++ searches w rq)) (same : rq.op = op) :
    Lives done.bk.sessions.table (notes ++ shown w rq done.rs) (clocks ++ searches w rq) := by
  rw [shown_of_not_noted (same ▸ quiet), List.append_nil]
  exact lives

/-- One handler, on a session of the table if the request has one. -/
theorem Lives.handled (lives : Lives bk.sessions.table notes clocks)
    (found : ∀ i, sess = some i →
      (bk.sessions.table i).used = true ∧ (bk.sessions.table i).tok = rq.session)
    (missed : sess = none → rq.op = opLogoutId → ∀ i, (bk.sessions.table i).used = true →
      (bk.sessions.table i).tok ≠ rq.session) :
    Note.Fresh (notes ++ shown w rq (handle w rq uid sess bk m).rs) →
    (rq.op = opLoginId → (handle w rq uid sess bk m).rs.status = .io →
      ¬ TearsToken w.login.new bk.sessions) →
    Lives (handle w rq uid sess bk m).bk.sessions.table
      (notes ++ shown w rq (handle w rq uid sess bk m).rs) (clocks ++ searches w rq) := by
  have kept : ∀ {done : Handled}, done.bk.sessions = bk.sessions →
      Lives done.bk.sessions.table notes (clocks ++ searches w rq) := fun same => by
    rw [same]
    exact lives.searched (List.subset_append_left _ _)
  have swept : ∀ {done : Handled} {times : SweepTimes},
      done.bk.sessions = (bkUpdSweep times bk).sessions → searches w rq = [times.expireAt] →
      Lives done.bk.sessions.table notes (clocks ++ searches w rq) := fun same only => by
    rw [same, only]
    exact lives.sweep _
  refine handle_cases (fun handler =>
    Note.Fresh (notes ++ shown w rq (handler bk m).rs) →
    (rq.op = opLoginId → (handler bk m).rs.status = .io →
      ¬ TearsToken w.login.new bk.sessions) →
    Lives (handler bk m).bk.sessions.table
      (notes ++ shown w rq (handler bk m).rs) (clocks ++ searches w rq))
    ?_ ?_ ?_ ?_ ?_ ?_ ?_ ?_ ?_ ?_ ?_ ?_
  · exact fun op _ _ => lives_of_quiet (by decide) (kept rfl) op
  · exact fun op _ _ => lives_of_quiet (by decide) (kept (opSet_sessions w.store rq uid bk m)) op
  · intro op _ _
    refine lives_of_quiet (by decide) (kept ?_) op
    dsimp only [onBroker]
    split_ifs <;> rfl
  · intro op _ _
    refine lives_of_quiet (by decide) (kept ?_) op
    dsimp only [onBroker]
    split_ifs
    · rfl
    · have sessions := (bkEntropyReady_carries w.entropy bk).2
      unfold opStatus
      dsimp only
      split <;> exact sessions
  · exact fun op _ _ => lives_of_quiet (by decide) (kept rfl) op
  · exact fun op fresh whole => opLogin_lives lives op rfl fresh (whole op)
  · exact fun op _ _ => opLogout_shown lives op rfl found fun unfound => missed unfound op
  · intro op _ _
    exact (opPwset_lives lives op rfl).searched (List.subset_append_left _ _)
  · intro op _ _
    have only : searches w rq = [w.begin.sweep.expireAt] := by
      unfold searches
      rw [op]
      rfl
    exact lives_of_quiet (by decide) (swept (bkUpdBegin_sessions w.begin rq uid bk) only) op
  · intro op _ _
    have only : searches w rq = [w.data.sweep.expireAt] := by
      unfold searches
      rw [op]
      rfl
    exact lives_of_quiet (by decide) (swept (bkUpdData_sessions w.data rq uid bk) only) op
  · intro op _ _
    have only : searches w rq = [w.fin.sweep.expireAt] := by
      unfold searches
      rw [op]
      rfl
    exact lives_of_quiet (by decide)
      (swept (bkUpdEnd_sessions w.ed25519 w.pk w.fin rq uid bk) only) op
  · intro _ _
    have notOk : (onBroker (bk, rsStatus .notsup) m).rs.status ≠ .ok := nofun
    rw [shown_of_not_ok notOk, List.append_nil]
    exact kept rfl

end Handle

/-! ## The gate -/

namespace Turn

/-- What the gate makes of a request. -/
def gated (t : Turn) (s : State) : Gated := gate t.w t.rq t.uid s t.m

/-- The reload of a request that finds another hash. -/
def cleared (t : Turn) (s : State) : List SessNote :=
  if earlyRefusal t.rq t.uid = none ∧ hashChanged (pwhash s.cfg) t.found then [.cleared] else []

/-- A request that is let in on a session. -/
def renewed (t : Turn) (s : State) : List SessNote :=
  if (t.gated s).sess.join.isSome then [.used t.rq.session.bytes t.w.touchAt] else []

/-- What a request and its reply show of the sessions. -/
def notes (t : Turn) (s : State) : List SessNote :=
  t.cleared s ++ (t.renewed s ++ shown t.w t.rq (bkDispatch t.w t.rq t.uid s t.m).rs)

/-- When a request has the table searched for idle entries. -/
def clocks (t : Turn) : List Nat := t.w.findAt :: searches t.w t.rq

/-- A LOGIN that answers IO has torn the token of a session it did not evict. -/
def Tears (t : Turn) (s : State) : Prop :=
  t.rq.op = opLoginId ∧ (bkDispatch t.w t.rq t.uid s t.m).rs.status = .io ∧
    TearsToken t.w.login.new (t.gated s).state.sessions

/-- A request that needs the CSRF token of its session. -/
def AsksCsrf (t : Turn) : Prop :=
  t.uid = uidHttpd ∧ ∃ r, bkOpRule t.rq.op = some r ∧ r.needSession = true ∧ r.needCsrf = true

end Turn

section Gate

variable {t : Turn} {s : State} {notes : List SessNote} {clocks : List Nat}

theorem Lives.reload (lives : Lives s.sessions.table notes clocks)
    (early : earlyRefusal t.rq t.uid = none) :
    Lives (bkReload t.w.load t.m s).sessions.table (notes ++ t.cleared s) clocks := by
  unfold bkReload Turn.cleared Turn.found
  dsimp only
  by_cases changed : hashChanged (pwhash s.cfg)
      (pwhash (CfgStore.bkCfgReload (loadInfo t.w.load t.m))) = true
  · rw [if_pos changed, if_pos ⟨early, changed⟩]
    exact lives_cleared
  · rw [if_neg changed, if_neg fun both => changed both.2, List.append_nil]
    exact lives

theorem Lives.lookup {table : Table} (lives : Lives table notes clocks) (now : Nat)
    (rq : Req) (uid : Nat) :
    Lives (findSession now rq uid table).1 notes (clocks ++ [now]) := by
  unfold findSession
  split_ifs
  · exact lives.expire now
  · exact lives.searched (List.subset_append_left _ _)

/-- The entry that a request's lookup finds. -/
theorem findSession_some {now : Nat} {rq : Req} {uid : Nat} {table : Table} {i : Fin nsess}
    (found : (findSession now rq uid table).2 = some i) :
    (uid = uidRoot ∨ uid = uidHttpd) ∧ LiveSession now table rq.session i ∧
      (findSession now rq uid table).1 i = table i := by
  unfold findSession at found ⊢
  split_ifs at found ⊢ with known
  exact ⟨known, liveSession_of_find found⟩

/-- A LOGOUT without a session names a token that the table does not hold. -/
theorem findSession_missed {now : Nat} {rq : Req} {uid : Nat} {table : Table}
    (early : earlyRefusal rq uid = none) (op : rq.op = opLogoutId)
    (missed : (findSession now rq uid table).2 = none) {i : Fin nsess}
    (used : ((findSession now rq uid table).1 i).used = true) :
    ((findSession now rq uid table).1 i).tok ≠ rq.session := by
  unfold findSession at missed used ⊢
  split_ifs at missed used ⊢ with known
  · exact hit_eq_none missed used
  · -- the third peer may not ask for a LOGOUT
    exfalso
    have uidIs : uid = uidDnsfwd := by
      by_contra other
      obtain ⟨notRoot, notHttpd⟩ := not_or.mp known
      have unknown : knownUid uid = false := by
        simp [knownUid, notRoot, notHttpd, other]
      unfold earlyRefusal at early
      rw [op] at early
      simp [unknown, bkOpRule, rules, opLogoutId, opGetId, opSetId, opRebootId, opStatusId,
        opPingId, opLoginId] at early
    have refused := @earlyRefusal_dnsfwd rq (by rw [op]; decide)
    rw [← uidIs, early] at refused
    cases refused

/-- One request keeps the leases true. -/
theorem Lives.turn (lives : Lives s.sessions.table notes clocks)
    (fresh : Note.Fresh (notes ++ t.notes s)) (whole : ¬ t.Tears s) :
    Lives (bkDispatch t.w t.rq t.uid s t.m).bk.sessions.table (notes ++ t.notes s)
      (clocks ++ t.clocks) := by
  unfold Turn.notes at fresh ⊢
  unfold Turn.Tears at whole
  have later : clocks ++ t.clocks = clocks ++ [t.w.findAt] ++ searches t.w t.rq := by
    simp [Turn.clocks]
  rw [later]
  cases early : earlyRefusal t.rq t.uid with
  | some st =>
      have refused : t.gated s = .refused s st := gate_early early
      have notOk : (rsStatus st).status ≠ .ok := earlyRefusal_status early
      have quiet : t.cleared s = [] := by
        unfold Turn.cleared
        rw [if_neg fun both => by rw [early] at both; cases both.1]
      rw [bkDispatch_refused refused, shown_of_not_ok notOk, quiet]
      unfold Turn.renewed
      rw [refused]
      simp only [Gated.sess, Option.join_none, Option.isSome_none, Bool.false_eq_true, if_false,
        List.append_nil]
      exact lives.searched (by rw [List.append_assoc]; exact List.subset_append_left _ _)
  | none =>
      have looked := (lives.reload early).lookup t.w.findAt t.rq t.uid
      cases gated : t.gated s with
      | refused bk st =>
          have notOk : (rsStatus st).status ≠ .ok := gate_refused_status gated
          have left : bk.sessions.table = (findSession t.w.findAt t.rq t.uid
              (bkReload t.w.load t.m s).sessions.table).1 := by
            unfold Turn.gated gate at gated
            rw [early] at gated
            dsimp only at gated
            split at gated
            · cases gated
              rfl
            · cases gated
          rw [bkDispatch_refused gated, shown_of_not_ok notOk]
          unfold Turn.renewed
          rw [gated]
          simp only [Gated.sess, Option.join_none, Option.isSome_none, Bool.false_eq_true,
            if_false, List.append_nil]
          rw [left]
          exact looked.searched (List.subset_append_left _ _)
      | passed bk sess =>
          have passed := gatePassed_of_gate gated
          have dispatched := bkDispatch_passed gated
          rw [gated] at whole
          rw [dispatched] at fresh whole ⊢
          have table : bk.sessions.table = touch (findSession t.w.findAt t.rq t.uid
              (bkReload t.w.load t.m s).sessions.table).1 sess (some t.w.touchAt) := by
            rw [passed.state]
          have sessEq := passed.sess_eq
          -- the lookup's hit, marked as used
          have marked : Lives bk.sessions.table (notes ++ t.cleared s ++ t.renewed s)
                (clocks ++ [t.w.findAt]) ∧
              (∀ i, sess = some i → (bk.sessions.table i).used = true ∧
                (bk.sessions.table i).tok = t.rq.session) ∧
              (sess = none → t.rq.op = opLogoutId → ∀ i, (bk.sessions.table i).used = true →
                (bk.sessions.table i).tok ≠ t.rq.session) := by
            unfold Turn.renewed
            rw [gated, table]
            cases sess with
            | none =>
                refine ⟨?_, nofun, fun _ op i used => findSession_missed early op sessEq.symm used⟩
                simp only [Gated.sess, Option.join_some, Option.isSome_none, Bool.false_eq_true,
                  if_false, List.append_nil]
                exact looked
            | some i =>
                obtain ⟨-, live, same⟩ := findSession_some sessEq.symm
                have inUse := same ▸ live.used
                have token := same ▸ live.tok_eq
                refine ⟨?_, ?_, nofun⟩
                · simp only [Gated.sess, Option.join_some, Option.isSome_some, if_true]
                  rw [← token]
                  exact looked.mark inUse t.w.touchAt
                · rintro j same'
                  cases same'
                  have entry := touch_entry (findSession t.w.findAt t.rq t.uid
                    (bkReload t.w.load t.m s).sessions.table).1 (some i) (some t.w.touchAt) i
                  exact ⟨entry.1.trans inUse, entry.2.1.trans token⟩
          obtain ⟨marked, found, missed⟩ := marked
          rw [← List.append_assoc, ← List.append_assoc] at fresh ⊢
          exact marked.handled found missed fresh fun op io torn => whole ⟨op, io, torn⟩

/-- A request that is let in on a session holds a lease. -/
theorem Lives.held (lives : Lives s.sessions.table notes clocks) {bk : State} {i : Fin nsess}
    (passed : t.gated s = .passed bk (some i)) :
    ∃ csrf last, lease (notes ++ t.cleared s) t.rq.session.bytes = some (csrf, last) ∧
      t.w.findAt - last < sessTtl ∧ (t.AsksCsrf → csrf = t.rq.csrf.bytes) := by
  have gated := gatePassed_of_gate passed
  obtain ⟨-, live, same⟩ := findSession_some gated.sess_eq.symm
  have known := (lives.reload gated.early).leased i live.used
  rw [live.tok_eq] at known
  refine ⟨_, _, known, live.fresh, ?_⟩
  rintro ⟨httpd, r, rule, needs, csrf⟩
  have session := gated.session
  unfold sessionRefusal at session
  rw [rule] at session
  dsimp only at session
  rw [if_pos ⟨httpd, needs⟩, ← gated.sess_eq] at session
  dsimp only at session
  by_contra other
  have wrong : r.needCsrf = true ∧ ¬ bkCtEq ((bkReload t.w.load t.m s).sessions.table i).csrf.bytes
      t.rq.csrf.bytes = true :=
    ⟨csrf, fun equal => other (congrArg Token.bytes ((Token.ctEq_iff _ _).mp equal))⟩
  rw [same, if_pos wrong] at session
  cases session

/-- A lease that is neither idle nor crowded out lets its requests in. -/
theorem Lives.admits (lives : Lives s.sessions.table notes clocks)
    (early : earlyRefusal t.rq t.uid = none) (known : t.uid = uidRoot ∨ t.uid = uidHttpd)
    {csrf : List UInt8} {last : Nat}
    (held : lease (notes ++ t.cleared s) t.rq.session.bytes = some (csrf, last))
    (onTime : ∀ clock ∈ clocks, clock ≤ t.w.findAt) (recent : t.w.findAt - last < sessTtl)
    (room : (rivals (notes ++ t.cleared s) t.rq.session.bytes last).card + 1 < nsess)
    (named : t.AsksCsrf → csrf = t.rq.csrf.bytes) :
    ∃ bk i, t.gated s = .passed bk (some i) := by
  have reloaded := lives.reload early
  generalize notes ++ t.cleared s = notes at *
  obtain ⟨i, used, token⟩ | ⟨clock, listed, idle⟩ | crowded := reloaded.lost _ _ _ held
  · have leased := reloaded.leased i used
    rw [token, held] at leased
    obtain ⟨-, lastEq⟩ := Prod.mk.inj (Option.some.inj leased)
    have still : bkSessExpire t.w.findAt (bkReload t.w.load t.m s).sessions.table i =
        (bkReload t.w.load t.m s).sessions.table i := by
      unfold bkSessExpire
      rw [if_neg fun both => by rw [← lastEq] at both; omega]
    have hits : (hit (bkSessExpire t.w.findAt (bkReload t.w.load t.m s).sessions.table)
        t.rq.session).isSome = true :=
      hit_isSome (i := i) (by rw [still, used]) (by rw [still]; exact Token.bytes_inj token)
    obtain ⟨j, found⟩ := Option.isSome_iff_exists.mp hits
    have lookup : (findSession t.w.findAt t.rq t.uid
        (bkReload t.w.load t.m s).sessions.table).2 = some j := by
      unfold findSession
      rw [if_pos known]
      exact found
    obtain ⟨-, live, same⟩ := findSession_some lookup
    have csrfEq : ((bkReload t.w.load t.m s).sessions.table j).csrf.bytes = csrf := by
      have there := reloaded.leased j live.used
      rw [live.tok_eq] at there
      exact (Prod.mk.inj (Option.some.inj (there.symm.trans held))).1
    have passes : sessionRefusal t.rq t.uid (findSession t.w.findAt t.rq t.uid
        (bkReload t.w.load t.m s).sessions.table) = none := by
      unfold sessionRefusal
      cases rule : bkOpRule t.rq.op with
      | none => rfl
      | some r =>
          dsimp only
          by_cases asks : t.uid = uidHttpd ∧ r.needSession = true
          · rw [if_pos asks, lookup]
            dsimp only
            rw [if_neg]
            rintro ⟨needs, differ⟩
            apply differ
            rw [same, csrfEq, named ⟨asks.1, r, rule, asks.2, needs⟩]
            exact (Token.ctEq_iff _ _).mpr rfl
          · rw [if_neg asks]
    have letIn : (t.gated s).sess = some (some j) := by
      unfold Turn.gated gate
      rw [early]
      dsimp only
      rw [passes]
      exact congrArg some lookup
    exact ⟨_, j, Gated.eq_passed letIn⟩
  · have after := onTime clock listed
    omega
  · omega

end Gate

/-! ## Runs -/

/-- What the broker does with its sessions. -/
inductive Happening where
  | request (t : Turn)
  | sweep (times : SweepTimes)

namespace Happening

def step (s : State) : Happening → State
  | request t => (bkDispatch t.w t.rq t.uid s t.m).bk
  | sweep times => bkUpdSweep times s

/-- What requests and replies show of it. -/
def notes (s : State) : Happening → List SessNote
  | request t => t.notes s
  | sweep _ => []

def clocks : Happening → List Nat
  | request t => t.clocks
  | sweep times => [times.expireAt]

def Tears (s : State) : Happening → Prop
  | request t => t.Tears s
  | sweep _ => False

end Happening

/-- The broker over a run, with what was shown and the times that were read. -/
structure Observed where
  bk : State
  notes : List SessNote
  clocks : List Nat

namespace Observed

def start (bk : State) : Observed where
  bk := { bk with sessions := State.init.sessions }
  notes := []
  clocks := []

def step (o : Observed) (h : Happening) : Observed where
  bk := h.step o.bk
  notes := o.notes ++ h.notes o.bk
  clocks := o.clocks ++ h.clocks

def run (o : Observed) (hs : List Happening) : Observed := hs.foldl step o

/-- No LOGIN of a run tears a token. -/
def Whole : Observed → List Happening → Prop
  | _, [] => True
  | o, h :: rest => ¬ h.Tears o.bk ∧ Whole (o.step h) rest

variable {o : Observed} {h : Happening} {hs : List Happening}

theorem notes_run (o : Observed) (hs : List Happening) :
    ∃ more, (o.run hs).notes = o.notes ++ more := by
  induction hs generalizing o with
  | nil => exact ⟨[], (List.append_nil _).symm⟩
  | cons h rest ih =>
      obtain ⟨more, later⟩ := ih (o.step h)
      refine ⟨h.notes o.bk ++ more, ?_⟩
      rw [← List.append_assoc]
      exact later

theorem lives_step (lives : Lives o.bk.sessions.table o.notes o.clocks)
    (fresh : Note.Fresh (o.step h).notes) (whole : ¬ h.Tears o.bk) :
    Lives (o.step h).bk.sessions.table (o.step h).notes (o.step h).clocks := by
  cases h with
  | request t => exact lives.turn fresh whole
  | sweep times =>
      unfold step Happening.step Happening.notes Happening.clocks
      rw [List.append_nil]
      exact lives.sweep times

theorem lives_run (lives : Lives o.bk.sessions.table o.notes o.clocks)
    (fresh : Note.Fresh (o.run hs).notes) (whole : o.Whole hs) :
    Lives (o.run hs).bk.sessions.table (o.run hs).notes (o.run hs).clocks := by
  induction hs generalizing o with
  | nil => exact lives
  | cons h rest ih =>
      obtain ⟨more, later⟩ := notes_run (o.step h) rest
      have now : Note.Fresh (o.step h).notes := by
        have whole' : Note.Fresh ((o.step h).run rest).notes := fresh
        rw [later] at whole'
        exact whole'.left
      exact ih (lives_step lives now whole.1) fresh whole.2

end Observed

/-- Over any run of requests and sweeps in which no token is handed out twice and none is torn:
a request is let in on a session only with a token that a LOGIN's reply handed out, which was
not given back or cleared since, was used less than the idle limit ago, and comes with its CSRF
token where one is asked for; and such a request is let in, unless three other sessions were
opened or used since. -/
theorem session_honoured (bk : State) (hs : List Happening) (t : Turn)
    (fresh : Note.Fresh ((Observed.start bk).run hs).notes)
    (whole : (Observed.start bk).Whole hs) :
    let o := (Observed.start bk).run hs
    let held := fun csrf last =>
      lease (o.notes ++ t.cleared o.bk) t.rq.session.bytes = some (csrf, last) ∧
        t.w.findAt - last < sessTtl ∧ (t.AsksCsrf → csrf = t.rq.csrf.bytes)
    (∀ bk' i, t.gated o.bk = .passed bk' (some i) → ∃ csrf last, held csrf last) ∧
      (earlyRefusal t.rq t.uid = none → t.uid = uidRoot ∨ t.uid = uidHttpd →
        (∀ clock ∈ o.clocks, clock ≤ t.w.findAt) → ∀ csrf last, held csrf last →
        (rivals (o.notes ++ t.cleared o.bk) t.rq.session.bytes last).card + 1 < nsess →
        ∃ bk' i, t.gated o.bk = .passed bk' (some i)) := by
  have lives := Observed.lives_run (o := .start bk) lives_start fresh whole
  refine ⟨fun bk' i passed => lives.held passed, ?_⟩
  intro early known onTime csrf last held room
  exact lives.admits early known held.1 onTime held.2.1 room held.2.2

/-- A reading on the session of a LOGIN, 899 seconds after it. -/
def lateReading : Turn :=
  { Watched.readTurn with w := { World.quiet with findAt := 899 }, m := Watched.loginTurn.m }

/-- A LOGIN, evaluated: what it shows, when it searched the table, its reply, and that the
reload of the late reading finds the same hash. -/
theorem lateReading_evaluated :
    let o := (Observed.start .init).run [.request Watched.loginTurn]
    o.notes = [.cleared, .opened (List.replicate tokLen 7) (List.replicate tokLen 8) 0] ∧
      o.clocks = [0, 0] ∧ lateReading.cleared o.bk = [] ∧
      (bkDispatch Watched.loginTurn.w Watched.loginTurn.rq Watched.loginTurn.uid
        (Observed.start .init).bk Watched.loginTurn.m).rs.status = .ok := by
  decide +kernel

/-- That reading is let in. -/
theorem session_honoured_sample :
    ∃ bk i, lateReading.gated
      ((Observed.start .init).run [.request Watched.loginTurn]).bk = .passed bk (some i) := by
  obtain ⟨notes, clocks, quiet, ok⟩ := lateReading_evaluated
  have fresh : Note.Fresh ((Observed.start .init).run [.request Watched.loginTurn]).notes := by
    rw [notes]
    exact List.nodup_singleton _
  have untorn : ¬ Watched.loginTurn.Tears (Observed.start .init).bk := by
    rintro ⟨-, io, -⟩
    rw [ok] at io
    cases io
  have whole : (Observed.start .init).Whole [.request Watched.loginTurn] := ⟨untorn, trivial⟩
  have honoured := session_honoured .init [.request Watched.loginTurn] lateReading fresh whole
  dsimp only at honoured
  rw [notes, clocks, quiet] at honoured
  refine honoured.2 rfl (Or.inr rfl) (by simp) (List.replicate tokLen 8) 0
    ⟨rfl, by decide, ?_⟩ (by decide)
  rintro ⟨-, r, rule, -, needs⟩
  cases rule
  cases needs

end RlxFw.Broker
