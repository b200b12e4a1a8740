import RlxFw.Authorisation
import RlxFw.StoreAlike

/-!
# The stored hash and the replies

Two brokers over two stores that differ in the bytes of the stored hash alone
answer GET, SET and STATUS alike, as long as the reload finds the hash changed
in both or in neither.
-/

namespace RlxFw.Broker

open CfgStore (Cfg Faults Medium SameShown DifferInHash MediaAlike Oblivious
  OutcomesAlike loadInfo storeRec)

/-- Two brokers that differ in the bytes of the stored hash alone. -/
structure BrokersAlike (bk bk' : State) : Prop where
  cfg : DifferInHash bk.cfg bk'.cfg
  rest : bk' = bk.withCfg bk'.cfg

/-- The reload of a request finds another hash than the broker holds. -/
def revokes (w : World) (bk : State) (m : Medium) : Bool :=
  hashChanged (pwhash bk.cfg)
    (pwhash (CfgStore.bkCfgReload (loadInfo w.load m)))

/-! ## The handlers -/

theorem edited_differInHash {c c' work work' : Cfg}
    (apart : DifferInHash c c') (edited : Edited c c' work work') :
    DifferInHash work work' where
  toSameShown := edited.shown
  length i := by
    by_cases hidden : (CfgStore.cfgKeys i).web = .hidden
    · obtain ⟨kept, kept'⟩ := edited.kept i hidden
      rw [kept, kept', apart.length]
    · rw [edited.shown.value i hidden]

/-- SET answers both alike. -/
theorem opSet_alike {bk : State} {c : Cfg} {m m' : Medium} {faults : Faults}
    (apart : DifferInHash bk.cfg c) (media : MediaAlike m m')
    (oblivious : Oblivious faults) (rq : Req) {uid : Nat}
    (notRoot : uid ≠ uidRoot) :
    (opSet faults rq uid bk m).rs =
      (opSet faults rq uid (bk.withCfg c) m').rs := by
  unfold opSet
  rcases (opSetEdit_shown apart.toSameShown notRoot rq.body).cases with
    ⟨rs, first, second⟩ | ⟨work, work', first, second, edited⟩
  · rw [first, show opSetEdit uid rq.body (bk.withCfg c).cfg = _ from second]
  · rw [first, show opSetEdit uid rq.body (bk.withCfg c).cfg = _ from second]
    have stored := CfgStore.storeRec_alike media oblivious
      (edited_differInHash apart edited) false
    unfold commitCfg
    dsimp only
    rw [stored]
    cases (storeRec faults m' work' false).rc <;> rfl

theorem handle_status {w : World} {rq : Req} {uid : Nat}
    {sess : Option (Fin nsess)} {bk : State} {m : Medium}
    (op : rq.op = opStatusId) :
    (handle w rq uid sess bk m).rs =
      if rq.body.length ≠ 0 then rsInval 0
      else (opStatus w.entropy w.proc (uid == uidRoot || sess.isSome) bk).2 := by
  have others : rq.op ≠ opGetId ∧ rq.op ≠ opSetId ∧ rq.op ≠ opRebootId := by
    rw [op]
    decide
  unfold handle
  dsimp only
  rw [if_neg others.1, if_neg others.2.1, if_neg others.2.2, if_pos op]
  dsimp only [onBroker]
  split_ifs <;> rfl

/-- The three requests at one broker, on the same session: their replies. -/
theorem handle_alike {w : World} {rq : Req} {uid : Nat} {bk bk' : State}
    {m m' : Medium} (brokers : BrokersAlike bk bk') (media : MediaAlike m m')
    (oblivious : Oblivious w.store) (notRoot : uid ≠ uidRoot)
    (reads : rq.op = opGetId ∨ rq.op = opSetId ∨ rq.op = opStatusId)
    (sess : Option (Fin nsess)) :
    (handle w rq uid sess bk m).rs = (handle w rq uid sess bk' m').rs := by
  obtain ⟨apart, rest⟩ := brokers
  generalize bk'.cfg = c at apart rest
  subst rest
  rcases reads with op | op | op
  · unfold handle
    dsimp only
    rw [if_pos op, if_pos op]
    exact opGet_shown apart.toSameShown notRoot rq
  · have other : rq.op ≠ opGetId := by
      rw [op]
      decide
    unfold handle
    dsimp only
    rw [if_neg other, if_neg other, if_pos op, if_pos op]
    exact opSet_alike apart media oblivious rq notRoot
  · have alike : StatusAlike bk (bk.withCfg c) :=
      ⟨apart.toSameShown, rfl, rfl, rfl⟩
    rw [handle_status op, handle_status op, opStatus_alike alike]

/-! ## The gate -/

theorem reload_alike {m m' : Medium} (media : MediaAlike m m')
    (faults : Faults) :
    DifferInHash (CfgStore.bkCfgReload (loadInfo faults m))
      (CfgStore.bkCfgReload (loadInfo faults m')) := by
  have loads := media.load faults
  unfold CfgStore.bkCfgReload CfgStore.Loaded.invalid
  rw [loads.rc, loads.info]
  split_ifs
  · exact CfgStore.differInHash_refl _
  · exact loads.out

/-- Reloads that revoke alike leave brokers that differ in the configuration
alone. -/
theorem bkReload_alike {w : World} {bk bk' : State} {m m' : Medium}
    (brokers : BrokersAlike bk bk')
    (revoked : revokes w bk m = revokes w bk' m') :
    bkReload w.load m' bk' =
      (bkReload w.load m bk).withCfg (bkReload w.load m' bk').cfg := by
  unfold revokes at revoked
  unfold bkReload
  dsimp only
  rw [revoked, brokers.rest]
  rfl

/-- A web request passes the gate on the session it names, or is refused. -/
theorem gate_httpd {w : World} {rq : Req} {bk : State} {m : Medium}
    {r : OpRule} (open100 : earlyRefusal rq uidHttpd = none)
    (rule : bkOpRule rq.op = some r)
    (absent : (bkSessFind w.findAt (bkReload w.load m bk).sessions.table
      rq.session).2 = none) :
    (∃ bk', r.needSession = true ∧
      gate w rq uidHttpd bk m = .refused bk' .auth) ∨
      ∃ bk', r.needSession = false ∧
        gate w rq uidHttpd bk m = .passed bk' none ∧
        bk'.cfg = (bkReload w.load m bk).cfg ∧ bk'.authReady = bk.authReady ∧
        bk'.entropyLast = bk.entropyLast ∧ bk'.upd = bk.upd := by
  have found : (findSession w.findAt rq uidHttpd
      (bkReload w.load m bk).sessions.table).2 = none := absent
  unfold gate
  rw [open100]
  dsimp only
  unfold sessionRefusal
  rw [rule, found]
  dsimp only
  by_cases needs : r.needSession = true
  · rw [if_pos ⟨rfl, needs⟩]
    exact Or.inl ⟨_, needs, rfl⟩
  · rw [if_neg fun both => needs both.2]
    exact Or.inr ⟨_, Bool.not_eq_true _ ▸ needs, rfl, rfl, rfl, rfl, rfl⟩

/-- A token that names no live session is not found after the reload. -/
theorem find_eq_none {w : World} {rq : Req} {bk : State} {m : Medium}
    (absent : ¬ ∃ i, LiveSession w.findAt bk.sessions.table rq.session i) :
    (bkSessFind w.findAt (bkReload w.load m bk).sessions.table
      rq.session).2 = none := by
  cases found : (bkSessFind w.findAt (bkReload w.load m bk).sessions.table
      rq.session).2 with
  | none => rfl
  | some i =>
      have live := (liveSession_of_find found).1
      exact absurd ⟨i, live.before_reload ▸ live⟩ absent

/-- Web requests on reloads that revoke alike. -/
theorem dispatch_alike_of_revokes {w : World} {rq : Req} {uid : Nat}
    {bk bk' : State} {m m' : Medium} (brokers : BrokersAlike bk bk')
    (media : MediaAlike m m') (oblivious : Oblivious w.store)
    (notRoot : uid ≠ uidRoot)
    (reads : rq.op = opGetId ∨ rq.op = opSetId ∨ rq.op = opStatusId)
    (early : earlyRefusal rq uid = none)
    (revoked : revokes w bk m = revokes w bk' m') :
    (bkDispatch w rq uid bk m).rs = (bkDispatch w rq uid bk' m').rs := by
  obtain ⟨c, reloaded, apart⟩ : ∃ c,
      bkReload w.load m' bk' = (bkReload w.load m bk).withCfg c ∧
        DifferInHash (bkReload w.load m bk).cfg c :=
    ⟨_, bkReload_alike brokers revoked, reload_alike media w.load⟩
  have sessions : ((bkReload w.load m bk).withCfg c).sessions =
      (bkReload w.load m bk).sessions := rfl
  unfold bkDispatch gate
  rw [early]
  dsimp only
  rw [reloaded, sessions]
  -- what was loaded is not looked into again
  clear reloaded sessions
  generalize bkReload w.load m bk = fresh at apart ⊢
  cases sessionRefusal rq uid
      (findSession w.findAt rq uid fresh.sessions.table) with
  | some st => dsimp only
  | none =>
      dsimp only
      exact handle_alike ⟨apart, rfl⟩ media oblivious notRoot reads _

/-- Web requests that name no live session. -/
theorem dispatch_alike_of_absent {w : World} {rq : Req} {bk bk' : State}
    {m m' : Medium} (brokers : BrokersAlike bk bk') (media : MediaAlike m m')
    (reads : rq.op = opGetId ∨ rq.op = opSetId ∨ rq.op = opStatusId)
    (early : earlyRefusal rq uidHttpd = none)
    (absent : ¬ ∃ i, LiveSession w.findAt bk.sessions.table rq.session i) :
    (bkDispatch w rq uidHttpd bk m).rs =
      (bkDispatch w rq uidHttpd bk' m').rs := by
  have absent' : ¬ ∃ i,
      LiveSession w.findAt bk'.sessions.table rq.session i := by
    rw [brokers.rest]
    exact absent
  have needed : ∀ r ∈ rules, r.needSession = false → r.op ≠ opGetId ∧
      r.op ≠ opSetId := by
    decide
  obtain ⟨r, rule⟩ : ∃ r, bkOpRule rq.op = some r := by
    cases rule : bkOpRule rq.op with
    | some r => exact ⟨r, rfl⟩
    | none =>
        unfold earlyRefusal at early
        rw [rule] at early
        cases early
  rcases gate_httpd early rule (find_eq_none absent) with
    ⟨at₁, needs, first⟩ | ⟨at₁, needs, first, cfg, ready, last, upd⟩ <;>
  rcases gate_httpd early rule (find_eq_none absent') with
    ⟨at₂, needs', second⟩ | ⟨at₂, needs', second, cfg', ready', last', upd'⟩
  · rw [bkDispatch_refused first, bkDispatch_refused second]
  · rw [needs] at needs'
    cases needs'
  · rw [needs] at needs'
    cases needs'
  · obtain ⟨member, named⟩ := bkOpRule_mem rule
    have others := needed r member needs
    rw [named] at others
    have op : rq.op = opStatusId := by
      rcases reads with op | op | op
      · exact absurd op others.1
      · exact absurd op others.2
      · exact op
    have alike : StatusAlike at₁ at₂ := by
      refine ⟨?_, ?_, ?_, ?_⟩
      · rw [cfg, cfg']
        exact (reload_alike media w.load).toSameShown
      · rw [ready, ready', brokers.rest]
        rfl
      · rw [last, last', brokers.rest]
        rfl
      · rw [upd, upd', brokers.rest]
        rfl
    rw [bkDispatch_passed first, bkDispatch_passed second, handle_status op,
      handle_status op, opStatus_alike alike]

/-- GET, SET and STATUS answer a peer other than root alike in two brokers over
two stores that differ in the bytes of the stored hash alone, as long as the
reload of a web request on a live session revokes in both or in neither. -/
theorem bkDispatch_alike {w : World} {rq : Req} {uid : Nat} {bk bk' : State}
    {m m' : Medium} (brokers : BrokersAlike bk bk') (media : MediaAlike m m')
    (oblivious : Oblivious w.store) (notRoot : uid ≠ uidRoot)
    (reads : rq.op = opGetId ∨ rq.op = opSetId ∨ rq.op = opStatusId)
    (revoked : uid = uidHttpd →
      (∃ i, LiveSession w.findAt bk.sessions.table rq.session i) →
      revokes w bk m = revokes w bk' m') :
    (bkDispatch w rq uid bk m).rs = (bkDispatch w rq uid bk' m').rs := by
  cases early : earlyRefusal rq uid with
  | some st =>
      rw [bkDispatch_refused (gate_early early),
        bkDispatch_refused (gate_early early)]
  | none =>
      by_cases web : uid = uidHttpd
      · subst web
        by_cases live :
            ∃ i, LiveSession w.findAt bk.sessions.table rq.session i
        · exact dispatch_alike_of_revokes brokers media oblivious notRoot
            reads early (revoked rfl live)
        · exact dispatch_alike_of_absent brokers media reads early live
      · have dnsfwd : uid = uidDnsfwd := by
          have known : knownUid uid = true := by
            by_contra stranger
            rw [earlyRefusal_stranger (Bool.not_eq_true _ ▸ stranger)] at early
            cases early
          simpa [knownUid, notRoot, web] using known
        subst dnsfwd
        have op : rq.op = opGetId := by
          by_contra other
          have refused := earlyRefusal_dnsfwd other
          rw [early] at refused
          cases refused
        rw [bkDispatch_passed (gate_dnsfwd early),
          bkDispatch_passed (gate_dnsfwd early)]
        unfold handle
        dsimp only
        rw [if_pos op, if_pos op]
        exact opGet_shown (reload_alike media w.load).toSameShown notRoot rq

/-! ## A reload that revokes in one of them -/

/-- A hash that can be checked, of one byte over and over. -/
def sampleHash (byte : UInt8) : List UInt8 :=
  newHashHead ++ List.replicate 48 byte

/-- A record with number 1 that holds such a hash and nothing else, with the
two CRCs that it has. -/
def hashRecord (crcs : List UInt8) (byte : UInt8) : List UInt8 :=
  [0x52, 0x4C, 0x58, 0x43, 0x00, 0x01, 0x00, 0x18, 0x00, 0x00, 0x00, 0x01,
    0x00, 0x00, 0x00, 0x3C] ++ crcs ++ [0x00, 0x70, 0x00, 0x38] ++
    sampleHash byte

/-- A store of that record. -/
def hashFile (crcs : List UInt8) (byte : UInt8) : CfgStore.File where
  bytes := ByteMap.ofList (hashRecord crcs byte) 0
  size := 84

/-- The store of the hash of zeros. -/
def zeroFile : CfgStore.File :=
  hashFile [0xEB, 0xD9, 0x1E, 0xC3, 0x41, 0x18, 0x2D, 0xB1] 0

/-- The store of the hash of ones. -/
def oneFile : CfgStore.File :=
  hashFile [0x98, 0x4B, 0x2B, 0x99, 0xEF, 0x8A, 0x34, 0x01] 1

/-- What such a store holds. -/
def hashCfg (byte : UInt8) : Cfg where
  seq := 1
  source := 0
  value := fun i =>
    if (CfgStore.cfgKeys i).web = .hidden then some (sampleHash byte) else none

/-- A broker that loaded such a store, with one session, under the token of
zeros. -/
def loggedIn (byte : UInt8) : State :=
  { State.init with
    cfg := hashCfg byte
    sessions :=
      { table := fun i => { Sess.zero with used := decide (i = 0) }, seq := 1 } }

/-- A web request for `lan.ipaddr` under that token. -/
def getLanIp : Req where
  op := opGetId
  session := .zero
  csrf := .zero
  clientIp := 0
  body := Tlv.putBe16 CfgStore.idLanIp

theorem hashCfg_apart (byte byte' : UInt8) :
    DifferInHash (hashCfg byte) (hashCfg byte') where
  seq := rfl
  source := rfl
  value i shown := by
    unfold hashCfg
    dsimp only
    rw [if_neg shown, if_neg shown]
  length i := by
    unfold hashCfg
    dsimp only
    split_ifs
    · rfl
    · rfl

theorem loggedIn_alike (byte byte' : UInt8) :
    BrokersAlike (loggedIn byte) (loggedIn byte') :=
  ⟨hashCfg_apart byte byte', rfl⟩

/-- A record by what it holds. -/
def shape (c : Cfg) : Nat × Nat × List (Option (List UInt8)) :=
  (c.seq, c.source, (List.finRange CfgStore.nkeys).map c.value)

theorem shape_injective : Function.Injective shape := by
  rintro ⟨seq, source, value⟩ ⟨seq', source', value'⟩ same
  obtain ⟨rfl, rfl, values⟩ := by simpa only [shape, Prod.mk.injEq] using same
  have sameValue : value = value' := by
    funext i
    exact List.map_inj_left.mp values i (List.mem_finRange i)
  rw [sameValue]

theorem eq_ok_of_shape {loaded : Except CfgStore.Fault Cfg} {c : Cfg}
    (held : loaded.map shape = .ok (shape c)) : loaded = .ok c := by
  cases loaded with
  | error fault => cases held
  | ok c' => exact congrArg _ (shape_injective (Except.ok.inj held))

theorem zeroFile_record :
    CfgStore.parseRecord (zeroFile.slot 0).bytes (zeroFile.slot 0).got =
      .ok (hashCfg 0) := by
  apply eq_ok_of_shape
  decide +kernel

theorem oneFile_record :
    CfgStore.parseRecord (oneFile.slot 0).bytes (oneFile.slot 0).got =
      .ok (hashCfg 1) := by
  apply eq_ok_of_shape
  decide +kernel

/-- The second slot of such a store is not there. -/
theorem hashFile_second (crcs : List UInt8) (byte : UInt8) :
    CfgStore.parseRecord ((hashFile crcs byte).slot 1).bytes
        ((hashFile crcs byte).slot 1).got = .error ⟨.short, 0⟩ := by
  have got : ((hashFile crcs byte).slot 1).got = 0 := by
    change min CfgStore.slotSize (84 - CfgStore.fileBase 1) = 0
    decide
  unfold CfgStore.parseRecord
  rw [got]
  exact if_pos (by decide)

theorem files_alike :
    MediaAlike (.file (.regular zeroFile)) (.file (.regular oneFile)) := by
  refine .regular rfl (Fin.forall_fin_two.mpr ⟨?_, ?_⟩)
  · refine ⟨by decide, ?_⟩
    rw [zeroFile_record, oneFile_record]
    exact hashCfg_apart 0 1
  · refine ⟨by decide, ?_⟩
    unfold zeroFile oneFile
    rw [hashFile_second, hashFile_second]
    exact rfl

theorem oblivious_noFaults : Oblivious CfgStore.noFaults :=
  fun _ _ _ => ⟨fun _ _ _ _ => rfl, fun _ _ _ _ => rfl⟩

/-- A web request that turns NAT on, under that token. -/
def setNat : Req :=
  { getLanIp with op := opSetId, body := Tlv.itemBytes CfgStore.idFwNat [1] }

/-- A medium that takes an image with a zero where the salt starts, and spoils
any other without a word. -/
def telling : World :=
  { World.quiet with
    store :=
      { CfgStore.noFaults with
        landed := fun img => if img 41 = 0 then img else fun _ => 0 } }

/-- The byte where the salt starts in the image that a SET would store. -/
def plannedByte (cfg : Cfg) (m : Medium) : Option UInt8 :=
  (opSetEdit uidHttpd setNat.body cfg).toOption.bind fun work =>
    (CfgStore.storePlan work false (loadInfo telling.store m)).toOption.map
      fun plan => plan.img 41

/-- The same, past the gate. -/
def Gated.plannedByte (m : Medium) : Gated → Option UInt8
  | .passed bk _ => Broker.plannedByte bk.cfg m
  | .refused _ _ => none

theorem lands_telling (img : ByteMap) :
    CfgStore.Lands telling.store img ↔ img 41 = 0 := by
  change ByteMap.AgreeOn img (if img 41 = 0 then img else fun _ => 0) 0
    CfgStore.slotSize ↔ _
  by_cases zero : img 41 = 0
  · rw [if_pos zero]
    exact ⟨fun _ => zero, fun _ _ _ _ => rfl⟩
  · rw [if_neg zero]
    exact ⟨fun lands => lands 41 (Nat.zero_le _) (by decide),
      fun zero' => absurd zero' zero⟩

theorem eq_ok_of_toOption {ε α : Type} {outcome : Except ε α} {a : α}
    (held : outcome.toOption = some a) : outcome = .ok a := by
  cases outcome with
  | error fault => cases held
  | ok b => exact congrArg _ (Option.some.inj held)

/-- An edit that ends well keeps the cross-field rules. -/
theorem opSetEdit_valid {uid : Nat} {body : List UInt8} {cfg work : Cfg}
    (edit : opSetEdit uid body cfg = .ok work) :
    CfgStore.cfgValidate work = .ok () := by
  unfold opSetEdit at edit
  split_ifs at edit
  cases items : opSetItems uid CfgStore.getMaxKeys body none cfg with
  | error rs =>
      rw [items] at edit
      cases edit
  | ok edited =>
      rw [items] at edit
      dsimp only at edit
      cases valid : CfgStore.cfgValidate edited with
      | error fault =>
          rw [valid] at edit
          cases edit
      | ok _ =>
          rw [valid] at edit
          cases edit
          exact valid

/-- That SET is stored there when the salt starts with a zero. -/
theorem bkDispatch_telling {bk : State} {f : CfgStore.File} {byte : UInt8}
    (planned : (gate telling setNat uidHttpd bk
      (.file (.regular f))).plannedByte (.file (.regular f)) = some byte) :
    (bkDispatch telling setNat uidHttpd bk (.file (.regular f))).rs.status =
        .ok ↔ byte = 0 := by
  cases gated : gate telling setNat uidHttpd bk (.file (.regular f)) with
  | refused bk' st =>
      rw [gated] at planned
      cases planned
  | passed bk' sess =>
      rw [gated] at planned
      obtain ⟨work, edited, rest⟩ := Option.bind_eq_some_iff.mp planned
      obtain ⟨plan, planOk, rfl⟩ := Option.map_eq_some_iff.mp rest
      have edit := eq_ok_of_toOption edited
      have decided := eq_ok_of_toOption planOk
      have stored := CfgStore.storeRec_iff (opSetEdit_valid edit) rfl decided
      have takes : CfgStore.Takes telling.store (.file (.regular f)) :=
        ⟨rfl, rfl, fun _ => rfl, rfl, rfl, rfl, rfl⟩
      rw [bkDispatch_passed gated, ← lands_telling plan.img]
      unfold handle
      dsimp only
      rw [if_neg (by decide), if_pos (by decide)]
      unfold opSet
      rw [edit]
      dsimp only
      unfold commitCfg
      dsimp only
      cases rc : (storeRec telling.store (.file (.regular f)) work false).rc with
      | none => exact ⟨fun _ => (stored.mp rc).2, fun _ => rfl⟩
      | some fault =>
          rw [rc] at stored
          exact ⟨nofun, fun lands => nomatch stored.mpr ⟨takes, lands⟩⟩

/-- A reading under either hash, and a SET that plans a write of either, evaluated. -/
theorem tells_evaluated :
    (bkDispatch .quiet getLanIp uidHttpd (loggedIn 0)
        (.file (.regular zeroFile))).rs.status = .ok ∧
      (bkDispatch .quiet getLanIp uidHttpd (loggedIn 1)
        (.file (.regular zeroFile))).rs.status = .auth ∧
      revokes telling (loggedIn 0) (.file (.regular zeroFile)) =
        revokes telling (loggedIn 1) (.file (.regular oneFile)) ∧
      (gate telling setNat uidHttpd (loggedIn 0)
        (.file (.regular zeroFile))).plannedByte (.file (.regular zeroFile)) = some 0 ∧
      (gate telling setNat uidHttpd (loggedIn 1)
        (.file (.regular oneFile))).plannedByte (.file (.regular oneFile)) = some 1 := by
  decide +kernel

/-- Neither what the reload finds nor what the medium does to a write can be
left out: each tells two hashes apart. -/
theorem bkDispatch_tells :
    (¬ ∀ (w : World) (rq : Req) (uid : Nat) (bk bk' : State) (m m' : Medium),
      BrokersAlike bk bk' → MediaAlike m m' → Oblivious w.store →
      uid ≠ uidRoot →
      (rq.op = opGetId ∨ rq.op = opSetId ∨ rq.op = opStatusId) →
      (bkDispatch w rq uid bk m).rs = (bkDispatch w rq uid bk' m').rs) ∧
    ¬ ∀ (w : World) (rq : Req) (uid : Nat) (bk bk' : State) (m m' : Medium),
      BrokersAlike bk bk' → MediaAlike m m' →
      revokes w bk m = revokes w bk' m' → uid ≠ uidRoot →
      (rq.op = opGetId ∨ rq.op = opSetId ∨ rq.op = opStatusId) →
      (bkDispatch w rq uid bk m).rs = (bkDispatch w rq uid bk' m').rs := by
  obtain ⟨first, second, revoked, planned, planned'⟩ := tells_evaluated
  constructor
  · intro always
    have replies := congrArg Resp.status
      (always .quiet getLanIp uidHttpd (loggedIn 0) (loggedIn 1)
        (.file (.regular zeroFile)) (.file (.regular zeroFile))
        (loggedIn_alike 0 1) (CfgStore.mediaAlike_refl _) oblivious_noFaults
        (by decide) (Or.inl rfl))
    rw [first, second] at replies
    cases replies
  · intro always
    have replies := congrArg Resp.status
      (always telling setNat uidHttpd (loggedIn 0) (loggedIn 1)
        (.file (.regular zeroFile)) (.file (.regular oneFile))
        (loggedIn_alike 0 1) files_alike revoked (by decide)
        (Or.inr (Or.inl rfl)))
    have stored := (bkDispatch_telling planned).mpr rfl
    have kept := mt (bkDispatch_telling planned').mp (by decide)
    exact kept (replies.symm.trans stored)

/-- Two stores with a hash each, two brokers that loaded them, and a reading on
the session. -/
theorem bkDispatch_alike_hashes :
    (bkDispatch .quiet getLanIp uidHttpd (loggedIn 0)
        (.file (.regular zeroFile))).rs =
      (bkDispatch .quiet getLanIp uidHttpd (loggedIn 1)
        (.file (.regular oneFile))).rs :=
  bkDispatch_alike (loggedIn_alike 0 1) files_alike oblivious_noFaults
    (by decide) (Or.inl rfl) fun _ _ => by decide +kernel

end RlxFw.Broker
