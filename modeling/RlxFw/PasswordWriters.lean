import RlxFw.CfgstoreVerbs
import RlxFw.FirstPasswordSafe

/-!
# Three writers of one password

The first-password step, `cfgstore passwd` and a PWSET of root: the same keys are the
same password, and the same password and salt are the same record.
-/

namespace RlxFw.Cfgstore

open Broker (PwsetWorld bkEntropyReady bkRandom kdfLog2n kdfP kdfR opPwset pwsetBody
  scryptHash scryptKdf)
open CfgStore (Cfg Faults Medium Returns asLoaded bkCfgReload cfgIndexById cfgKeys cfgSet
  cfgValidate fpHasHash idPwhash loadInfo loadOrDie newestOf nslots pwhashLen storeRec)
open FirstPassword (FpResult FpWorld Honours LineResult ReadResult Termios fpHash fpReadLine
  fpReadLoop fpSalt passwordBlob pwMax pwhashSalt stripCr)
open Scrypt (kdfScrypt pwhashMake)

/-! ## A line -/

theorem fpReadLoop_over {keys : List UInt8} (oneLine : 0x0A ∉ keys) (buf : List UInt8)
    (full : ¬ buf.length < pwMax) (reads : List ReadResult) :
    fpReadLoop pwMax buf true (keys.map .byte ++ .byte 0x0A :: reads) =
      (some .long, reads) := by
  induction keys with
  | nil => rfl
  | cons b keys ih =>
      obtain ⟨notNl, later⟩ := not_or.mp (mt List.mem_cons.mpr oneLine)
      rw [List.map_cons, List.cons_append, fpReadLoop, if_neg (Ne.symm notNl), if_neg full]
      exact ih later

theorem readLoop_alike {keys buf : List UInt8} (oneLine : 0x0A ∉ keys)
    (fits : buf.length ≤ pwMax) (rest : List UInt8) (reads : List ReadResult) :
    ((readLoop pwBuf buf (keys ++ 0x0A :: rest)).toOption.elim
        (some LineResult.long) fun pw => some (.line pw)) =
      (fpReadLoop pwMax buf false (keys.map .byte ++ .byte 0x0A :: reads)).1 := by
  induction keys generalizing buf with
  | nil => rfl
  | cons b keys ih =>
      obtain ⟨notNl, later⟩ := not_or.mp (mt List.mem_cons.mpr oneLine)
      rw [List.map_cons, List.cons_append, List.cons_append, fpReadLoop, readLoop,
        if_neg (Ne.symm notNl), if_neg (Ne.symm notNl)]
      by_cases room : buf.length < pwMax
      · have more : ¬ buf.length + 1 ≥ pwBuf := by
          unfold pwBuf pwMax at *
          omega
        rw [if_pos room, if_neg more]
        exact ih later (by rw [List.length_append]; exact room)
      · have none : buf.length + 1 ≥ pwBuf := by
          unfold pwBuf pwMax at *
          omega
        rw [if_neg room, if_pos none, fpReadLoop_over later buf room]
        rfl

/-! ## The terminal of `passwd` -/

section Tty

variable {w : PasswdWorld} {mode : Termios} {m : Medium}

theorem cmdPasswd_unseen (isatty : w.isatty = true) :
    ∀ during ∈ (cmdPasswd w mode m).2.2, during.echo = false := by
  unfold cmdPasswd
  rw [isatty]
  simp only [if_true]
  intro during member
  split at member
  · cases member
  next off =>
  have quiet := FirstPassword.echoOff_quiet (not_not.mp off)
  split at member
  · rwa [List.mem_singleton.mp member]
  · split at member
    · rwa [List.mem_singleton.mp member]
    · rwa [List.mem_singleton.mp member]

theorem cmdPasswd_restored (honours : Honours w.tty.restore) :
    (cmdPasswd w mode m).2.1 = mode := by
  have restores (now : Termios) : FirstPassword.echoRestore w.tty mode now = mode :=
    FirstPassword.echoRestore_honoured honours mode now
  unfold cmdPasswd
  cases w.isatty with
  | false =>
      simp only [Bool.false_eq_true, if_false, not_true_eq_false]
      split
      · rfl
      · split <;> rfl
  | true =>
      simp only [if_true, restores]
      split
      · next failed => exact FirstPassword.echoOff_failed honours (by simpa using failed)
      · split
        · rfl
        · split <;> rfl

end Tty

/-! ## The record -/

/-- A hash of the right length is set. -/
theorem cfgSet_pwhash (c : Cfg) {blob : List UInt8} (length : blob.length = pwhashLen) :
    ∃ work, cfgSet c idPwhash blob = .ok work := by
  obtain ⟨i, found, isBytes, least, most⟩ : ∃ i, cfgIndexById idPwhash = some i ∧
      (cfgKeys i).type = .bytes ∧ (cfgKeys i).min = pwhashLen ∧
      (cfgKeys i).max = pwhashLen := ⟨15, by decide⟩
  have checked : CfgStore.schemaCheckValue (cfgKeys i) blob = none := by
    unfold CfgStore.schemaCheckValue
    rw [if_neg (by rw [length]; decide), isBytes, least, most, length]
    rfl
  unfold cfgSet
  rw [found]
  dsimp only
  rw [checked]
  exact ⟨_, rfl⟩

theorem commit_medium (faults : Faults) (m : Medium) (c : Cfg) :
    (commit faults m c).medium = (storeRec faults m c false).medium ∧
      ((commit faults m c).exit = .ok ↔ (storeRec faults m c false).rc = none) := by
  unfold commit
  cases valid : cfgValidate c with
  | error fault =>
      unfold storeRec
      rw [valid]
      exact ⟨rfl, by simp [Ran.stop]⟩
  | ok done =>
      dsimp only
      cases stored : (storeRec faults m c false).rc with
      | none => exact ⟨rfl, by simp⟩
      | some rc =>
          refine ⟨rfl, ?_⟩
          dsimp only
          split <;> simp

theorem pwhashMake_of_key {malloc : Scrypt.Allocator} {pw salt key : List UInt8}
    (derived : kdfScrypt malloc pw salt kdfLog2n kdfR kdfP = .ok key) :
    pwhashMake malloc pw (UInt8.ofNat kdfLog2n) (UInt16.ofNat kdfR) (UInt16.ofNat kdfP) salt =
      .ok (passwordBlob salt key) := by
  unfold pwhashMake
  have same : kdfScrypt malloc pw salt (UInt8.ofNat kdfLog2n).toNat (UInt16.ofNat kdfR).toNat
      (UInt16.ofNat kdfP).toNat = .ok key := derived
  rw [same]
  rfl

/-- What the three writers are told: a record without a hash, a password and a salt. -/
structure Told (m : Medium) (s : Fin nslots) (c : Cfg) (malloc : Scrypt.Allocator)
    (pw salt key : List UInt8) : Prop where
  newest : newestOf m.slot = some (s, c)
  unhashed : fpHasHash c = false
  salted : salt.length = 16
  derived : kdfScrypt malloc pw salt kdfLog2n kdfR kdfP = .ok key

section Store

variable {m : Medium} {s : Fin nslots} {c work : Cfg} {malloc : Scrypt.Allocator}
  {pw salt key : List UInt8} {faults : Faults}

theorem Told.out (told : Told m s c malloc pw salt key)
    (fine : (loadInfo faults m).rc = none) :
    (loadInfo faults m).out = asLoaded s c ∧ (loadInfo faults m).info.selected = some s := by
  have selects := CfgStore.loadInfo_selects fine
  rw [selects.out, selects.selected, told.newest]
  exact ⟨rfl, rfl⟩

theorem Told.length (told : Told m s c malloc pw salt key) :
    (passwordBlob salt key).length = pwhashLen :=
  Broker.blobOf_length told.salted (Scrypt.length_kdfScrypt told.derived)

/-- The first-password step on such a store. -/
theorem fpHash_told (told : Told m s c malloc pw salt key)
    (set : cfgSet (asLoaded s c) idPwhash (passwordBlob salt key) = .ok work) {w : FpWorld}
    (isMalloc : w.malloc = malloc) (drawn : fpSalt w.salts = some (.ok salt))
    (fine : (loadInfo w.load m).rc = none) :
    (fpHash w pw m).2 = (storeRec w.store m work false).medium ∧
      ((fpHash w pw m).1 = some .setStore ↔ (storeRec w.store m work false).rc = none) := by
  obtain ⟨out, selected⟩ := told.out fine
  have base : CfgStore.fpBase (loadInfo w.load m) = .ok (asLoaded s c, false) := by
    unfold CfgStore.fpBase
    rw [fine, selected, out]
    simp only [Option.isSome_none, Option.isSome_some, if_true, Bool.false_eq_true, if_false]
    rw [if_neg]
    rw [show fpHasHash (asLoaded s c) = fpHasHash c from rfl, told.unhashed]
    exact Bool.false_ne_true
  have edit : CfgStore.fpSet (asLoaded s c) [{ type := idPwhash, val := passwordBlob salt key }] =
      .ok work := by
    unfold CfgStore.fpSet
    dsimp only
    rw [if_pos rfl, set]
  unfold fpHash
  rw [drawn, isMalloc]
  dsimp only
  rw [pwhashMake_of_key told.derived]
  dsimp only
  unfold FirstPassword.fpStore
  rw [base]
  dsimp only
  rw [edit]
  dsimp only
  cases (storeRec w.store m work false).rc with
  | none => exact ⟨rfl, by simp⟩
  | some rc => exact ⟨rfl, by simp⟩

/-- `cfgstore passwd` on it. -/
theorem passwdStore_told (told : Told m s c malloc pw salt key)
    (set : cfgSet (asLoaded s c) idPwhash (passwordBlob salt key) = .ok work) {w : PasswdWorld}
    (isMalloc : w.malloc = malloc) (drawn : pwhashSalt w.salt = .ok salt)
    (fine : (loadInfo w.load m).rc = none) :
    (passwdStore w m pw).medium = (storeRec w.store m work false).medium ∧
      ((passwdStore w m pw).exit = .ok ↔ (storeRec w.store m work false).rc = none) := by
  obtain ⟨out, selected⟩ := told.out fine
  have loaded : loadOrDie (loadInfo w.load m) = .ok (asLoaded s c) := by
    unfold loadOrDie CfgStore.Loaded.invalid
    rw [fine, selected, out]
    rfl
  unfold passwdStore
  rw [drawn, isMalloc]
  dsimp only
  rw [pwhashMake_of_key told.derived]
  dsimp only
  rw [loaded]
  dsimp only
  rw [set]
  exact commit_medium w.store m work

/-- A record without a hash is one that root may set a password over. -/
theorem scryptHash_of_unhashed {c : Cfg} (unhashed : fpHasHash c = false) :
    scryptHash c = none := by
  have hash : Broker.pwhash c = none := by
    unfold Broker.pwhash CfgStore.cfgGet
    unfold fpHasHash at unhashed
    cases found : cfgIndexById idPwhash with
    | none => rfl
    | some i =>
        rw [found] at unhashed
        dsimp only
        have absent : c.value i = none := by simpa using unhashed
        rw [absent]
        rfl
  rw [scryptHash, hash]
  rfl

theorem commitCfg_told (faults : Faults) (work : Cfg) (bk : Broker.State) (m : Medium) :
    (Broker.commitCfg faults work bk m).medium = (storeRec faults m work false).medium ∧
      ((Broker.commitCfg faults work bk m).rs.status = .ok ↔
        (storeRec faults m work false).rc = none) := by
  unfold Broker.commitCfg
  dsimp only
  cases (storeRec faults m work false).rc with
  | none => exact ⟨rfl, by simp [Broker.rsStatus]⟩
  | some rc => exact ⟨rfl, by simp [Broker.rsStatus]⟩

/-- PWSET of root on it. -/
theorem opPwset_told (told : Told m s c malloc pw salt key)
    (set : cfgSet (asLoaded s c) idPwhash (passwordBlob salt key) = .ok work)
    {entropy : Option Nat} {w : PwsetWorld} {rq : Broker.Req} {bk : Broker.State}
    {old : List UInt8} (isKdf : w.kdf = scryptKdf malloc)
    (drawn : bkRandom w.salt 16 = (salt, true))
    (loaded : bk.cfg = bkCfgReload (loadInfo faults m))
    (fine : (loadInfo faults m).rc = none) (idle : bk.kdfBusy = false)
    (ready : (bkEntropyReady entropy bk).authReady = true)
    (framed : pwsetBody rq.body = some (old, pw)) :
    (opPwset entropy w rq Broker.uidRoot bk m).medium =
        (storeRec w.store m work false).medium ∧
      ((opPwset entropy w rq Broker.uidRoot bk m).rs.status = .ok ↔
        (storeRec w.store m work false).rc = none) := by
  obtain ⟨out, selected⟩ := told.out fine
  have isCfg : bk.cfg = asLoaded s c := by
    rw [loaded, ← out]
    exact @CfgStore.base_eq_out (.brokerSet true) faults m _ _ fine rfl
  obtain ⟨cfg, -⟩ := Broker.bkEntropyReady_carries entropy bk
  obtain ⟨busy, -⟩ := Broker.bkEntropyReady_rest entropy bk
  unfold opPwset
  dsimp only
  generalize bkEntropyReady entropy bk = bk' at *
  have key' : scryptKdf malloc pw salt kdfLog2n kdfR kdfP =
      some ⟨key, Scrypt.length_kdfScrypt told.derived⟩ :=
    Broker.scryptKdf_eq_some_iff.mpr told.derived
  have unset : Broker.pwsetOld w old Broker.uidRoot bk' = none := by
    have none : scryptHash (asLoaded s c) = none := scryptHash_of_unhashed told.unhashed
    unfold Broker.pwsetOld
    rw [cfg, isCfg, none]
    rfl
  have made : Broker.pwsetNew w pw bk' = .ok (passwordBlob salt key) := by
    unfold Broker.pwsetNew
    rw [drawn, isKdf, busy, idle]
    simp only [not_true_eq_false, Bool.false_eq_true, if_false, key']
    rfl
  rw [if_neg (by simp [ready]), framed]
  dsimp only
  rw [unset, made]
  dsimp only
  rw [cfg, isCfg, set]
  dsimp only
  have committed := commitCfg_told w.store work bk' m
  split
  · exact committed
  · exact committed

end Store

/-! ## The three writers -/

/-- A first-password step that has its password and its salt. -/
structure FirstSays (w : FpWorld) (m : Medium) (malloc : Scrypt.Allocator) (store : Faults)
    (salt : List UInt8) : Prop where
  malloc : w.malloc = malloc
  store : w.store = store
  salt : fpSalt w.salts = some (.ok salt)
  fine : (loadInfo w.load m).rc = none

/-- A `cfgstore passwd` that has its password and its salt. -/
structure ToolSays (w : PasswdWorld) (m : Medium) (malloc : Scrypt.Allocator)
    (store : Faults) (salt : List UInt8) : Prop where
  malloc : w.malloc = malloc
  store : w.store = store
  salt : pwhashSalt w.salt = .ok salt
  fine : (loadInfo w.load m).rc = none

/-- A PWSET of a broker that has loaded this store. -/
structure PwsetSays (entropy : Option Nat) (w : PwsetWorld) (rq : Broker.Req)
    (bk : Broker.State) (m : Medium) (malloc : Scrypt.Allocator) (store : Faults)
    (pw salt : List UInt8) : Prop where
  kdf : w.kdf = scryptKdf malloc
  store : w.store = store
  salt : bkRandom w.salt 16 = (salt, true)
  loaded : ∃ load, bk.cfg = bkCfgReload (loadInfo load m) ∧ (loadInfo load m).rc = none
  idle : bk.kdfBusy = false
  ready : (bkEntropyReady entropy bk).authReady = true
  framed : ∃ old, pwsetBody rq.body = some (old, pw)

/-- What the three writers of a password have in common. -/
structure WritersAlike : Prop where
  /-- The two consoles read the same password of the same keys, or find both too long. -/
  line : ∀ (keys rest : List UInt8) (reads : List ReadResult), 0x0A ∉ keys →
    ((readLine (keys ++ 0x0A :: rest)).toOption.elim (some LineResult.long)
        fun pw => some (.line pw)) =
      (fpReadLine (keys.map .byte ++ .byte 0x0A :: reads)).1
  /-- `passwd` reads nothing of a terminal that echoes, and leaves it as it was. -/
  terminal : ∀ (w : PasswdWorld) (mode : Termios) (m : Medium),
    (w.isatty = true → ∀ during ∈ (cmdPasswd w mode m).2.2, during.echo = false) ∧
      (Honours w.tty.restore → (cmdPasswd w mode m).2.1 = mode)
  /-- The three leave the same bytes, or all fail. -/
  record : ∀ (m : Medium) (s : Fin nslots) (c : Cfg) (malloc : Scrypt.Allocator)
    (pw salt key : List UInt8) (store : Faults), Told m s c malloc pw salt key →
    ∃ work,
      (∀ w, FirstSays w m malloc store salt →
        (fpHash w pw m).2 = (storeRec store m work false).medium ∧
          ((fpHash w pw m).1 = some FpResult.setStore ↔
            (storeRec store m work false).rc = none)) ∧
      (∀ w, ToolSays w m malloc store salt →
        (passwdStore w m pw).medium = (storeRec store m work false).medium ∧
          ((passwdStore w m pw).exit = .ok ↔ (storeRec store m work false).rc = none)) ∧
      ∀ entropy w rq bk, PwsetSays entropy w rq bk m malloc store pw salt →
        (opPwset entropy w rq Broker.uidRoot bk m).medium =
            (storeRec store m work false).medium ∧
          ((opPwset entropy w rq Broker.uidRoot bk m).rs.status = .ok ↔
            (storeRec store m work false).rc = none)

end RlxFw.Cfgstore
