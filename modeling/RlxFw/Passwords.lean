import RlxFw.HttpRoutes
import RlxFw.Scrypt
import RlxFw.SessionHash
import RlxFw.SetAtomic

/-!
# Passwords that are set can be used

What PWSET stores, LOGIN evaluates to the same hash; and the library's own verifier
agrees with LOGIN on every blob it makes.
-/

namespace RlxFw.Broker

open CfgStore (Cfg Medium cfgGet cfgSet idPwhash)
open Scrypt (Allocator kdfScrypt pwhashMake pwhashVerify pwhashParams ample)

/-! ## The blob, read field by field -/

/-- `kdf_scrypt` as the broker is linked with it. -/
def scryptKdf (malloc : Allocator) : Kdf := fun pw salt log2n r p =>
  match derived : kdfScrypt malloc pw salt log2n r p with
  | .error _ => none
  | .ok key => some ⟨key, Scrypt.length_kdfScrypt derived⟩

theorem scryptKdf_eq_some_iff {malloc : Allocator} {pw salt : List UInt8} {log2n r p : Nat}
    {want : Derived} :
    scryptKdf malloc pw salt log2n r p = some want ↔
      kdfScrypt malloc pw salt log2n r p = .ok want.1 := by
  unfold scryptKdf
  split
  next e failed => simp [failed]
  next key derived => simp [derived, Subtype.ext_iff]

theorem scryptKdf_eq_none_iff {malloc : Allocator} {pw salt : List UInt8} {log2n r p : Nat} :
    scryptKdf malloc pw salt log2n r p = none ↔
      ∃ e, kdfScrypt malloc pw salt log2n r p = .error e := by
  unfold scryptKdf
  split
  next e failed => simp [failed]
  next key derived => simp [derived]

/-- A blob by its fields. -/
def blobOf (log2n : UInt8) (r p : Nat) (salt key : List UInt8) : List UInt8 :=
  [1, log2n] ++ Tlv.putBe16 r ++ Tlv.putBe16 p ++ [0, 0] ++ salt ++ key

section Blob

variable {log2n : UInt8} {r p : Nat} {salt key : List UInt8}

theorem blobOf_salt (sixteen : salt.length = 16) :
    ((blobOf log2n r p salt key).drop 8).take 16 = salt := by
  have shape : blobOf log2n r p salt key =
      ([1, log2n] ++ Tlv.putBe16 r ++ Tlv.putBe16 p ++ [0, 0]) ++ (salt ++ key) := by
    simp [blobOf]
  have header : ([1, log2n] ++ Tlv.putBe16 r ++ Tlv.putBe16 p ++ [0, 0]).length = 8 := rfl
  rw [shape, List.drop_left' header, List.take_left' sixteen]

theorem blobOf_key (sixteen : salt.length = 16) :
    (blobOf log2n r p salt key).drop 24 = key := by
  have front : ([1, log2n] ++ Tlv.putBe16 r ++ Tlv.putBe16 p ++ [0, 0] ++ salt).length = 24 := by
    rw [List.length_append, sixteen]
    rfl
  exact List.drop_left' front

theorem blobOf_length (sixteen : salt.length = 16) (long : key.length = 32) :
    (blobOf log2n r p salt key).length = CfgStore.pwhashLen := by
  simp [blobOf, sixteen, long, Tlv.putBe16, CfgStore.pwhashLen]

theorem blobOf_r (small : r < 2 ^ 16) : protoBe16 (blobOf log2n r p salt key) 2 = r := by
  have read := Tlv.getBe16_ofList small [1, log2n]
    (Tlv.putBe16 p ++ [0, 0] ++ salt ++ key) 0
  simpa [blobOf, protoBe16] using read

theorem blobOf_p (small : p < 2 ^ 16) : protoBe16 (blobOf log2n r p salt key) 4 = p := by
  have read := Tlv.getBe16_ofList small ([1, log2n] ++ Tlv.putBe16 r)
    ([0, 0] ++ salt ++ key) 0
  simpa [blobOf, protoBe16] using read

theorem be16_bytes (body : List UInt8) (off : Nat) :
    Tlv.be16 (byteAt body off) (byteAt body (off + 1)) = protoBe16 body off := rfl

/-- The library reads of a blob what it was made of. -/
theorem pwhashParams_blobOf (smallR : r < 2 ^ 16) (smallP : p < 2 ^ 16) :
    pwhashParams (blobOf log2n r p salt key) = .ok (log2n.toNat, r, p) := by
  have isR : protoBe16 (blobOf log2n r p salt key) 2 = r := blobOf_r smallR
  have isP : protoBe16 (blobOf log2n r p salt key) 4 = p := blobOf_p smallP
  rw [← be16_bytes] at isR isP
  unfold pwhashParams
  rw [if_neg (by simp [blobOf, byteAt]), if_neg (by simp [blobOf, byteAt, Tlv.putBe16]),
    isR, isP]
  rfl

/-- LOGIN puts a password through the parameters that the blob was made with. -/
theorem kdfStored_blobOf (kdf : Kdf) (pw : List UInt8) (sixteen : salt.length = 16)
    (smallR : r < 2 ^ 16) (smallP : p < 2 ^ 16) :
    kdfStored kdf pw (blobOf log2n r p salt key) = kdf pw salt log2n.toNat r p := by
  unfold kdfStored
  rw [blobOf_salt sixteen, blobOf_r smallR, blobOf_p smallP]
  rfl

/-- The range of LOGIN, on the parameters a blob was made with. -/
theorem evaluable_blobOf (smallR : r < 2 ^ 16) (smallP : p < 2 ^ 16) :
    evaluable (blobOf log2n r p salt key) =
      decide (8 ≤ log2n ∧ log2n ≤ 20 ∧ r ≠ 0 ∧ p ≠ 0) := by
  unfold evaluable
  rw [blobOf_r smallR, blobOf_p smallP]
  rfl

end Blob

/-! ## The two comparisons -/

theorem ctMemeq_eq_bkCtEq (x y : List UInt8) : Scrypt.ctMemeq x y = bkCtEq x y := by
  have only_zero : ∀ d : UInt8,
      (((d.toUInt32 - 1) >>> 8) &&& 1 == (1 : UInt32)) = (d == 0) := by
    apply forall_byte
    decide
  exact only_zero _

/-- A key that LOGIN finds equal to the stored one. -/
def Matches (kdf : Kdf) (pw h : List UInt8) : Prop :=
  ∃ want, kdfStored kdf pw h = some want ∧ bkCtEq want.1 (h.drop 24) = true

/-- What the library says of a blob of 56 bytes, LOGIN's evaluation says. -/
theorem pwhashVerify_blobOf {malloc : Allocator} {pw salt key : List UInt8} {log2n : UInt8}
    {r p : Nat} (sixteen : salt.length = 16) (long : key.length = 32)
    (smallR : r < 2 ^ 16) (smallP : p < 2 ^ 16) :
    (pwhashVerify malloc (blobOf log2n r p salt key) pw).toOption =
      (kdfStored (scryptKdf malloc) pw (blobOf log2n r p salt key)).map
        fun want => bkCtEq want.1 ((blobOf log2n r p salt key).drop 24) := by
  have whole : ((blobOf log2n r p salt key).drop 24).take 32 =
      (blobOf log2n r p salt key).drop 24 := by
    rw [blobOf_key sixteen]
    exact List.take_of_length_le long.le
  unfold pwhashVerify
  rw [pwhashParams_blobOf smallR smallP, kdfStored_blobOf _ _ sixteen smallR smallP,
    whole, blobOf_salt sixteen]
  dsimp only
  cases derived : kdfScrypt malloc pw salt log2n.toNat r p with
  | error e =>
      rw [scryptKdf_eq_none_iff.mpr ⟨e, derived⟩]
      rfl
  | ok key =>
      have made : scryptKdf malloc pw salt log2n.toNat r p =
          some ⟨key, Scrypt.length_kdfScrypt derived⟩ :=
        scryptKdf_eq_some_iff.mpr derived
      rw [made]
      exact congrArg some (ctMemeq_eq_bkCtEq _ _)

/-! ## LOGIN -/

section Login

variable {entropy : Option Nat} {w : LoginWorld} {rq : Req} {uid : Nat} {cip : UInt32}
  {bk : State}

/-- Nothing but the password stands in the way of a LOGIN. -/
structure LoginOpen (entropy : Option Nat) (w : LoginWorld) (uid : Nat) (cip : UInt32)
    (bk : State) : Prop where
  ready : (bkEntropyReady entropy bk).authReady = true
  unlocked : uid ≠ uidRoot → (bkRlCheck w.now w.slotAt bk.rl cip).2 = none
  tok : (bkRandom w.new.tok tokLen).2 = true
  csrf : (bkRandom w.new.csrf tokLen).2 = true

theorem loginSession_ok (tok : (bkRandom w.new.tok tokLen).2 = true)
    (csrf : (bkRandom w.new.csrf tokLen).2 = true) :
    (loginSession w bk).2.status = .ok := by
  have made : (bkSessNew w.new bk.sessions).2 =
      some (newSlot (bkSessExpire w.new.expireAt bk.sessions.table)) := by
    simp [bkSessNew, tok, csrf]
  simp [loginSession, made]

theorem loginChecked_ok_iff {h : List UInt8} (stored : scryptHash bk.cfg = some h)
    (idle : bk.kdfBusy = false) (tok : (bkRandom w.new.tok tokLen).2 = true)
    (csrf : (bkRandom w.new.csrf tokLen).2 = true) :
    (loginChecked w rq uid cip bk).2.status = .ok ↔
      evaluable h = true ∧ Matches w.kdf rq.body h := by
  unfold loginChecked Matches
  rw [stored]
  dsimp only
  rw [if_neg (by simp [idle])]
  by_cases good : evaluable h = true
  · rw [if_neg (by simp [good])]
    cases kdfStored w.kdf rq.body h with
    | none => simp [rsStatus]
    | some want =>
        by_cases same : bkCtEq want.1 (h.drop 24) = true
        · simp [same, good, loginSession_ok tok csrf]
        · simp [same, rsStatus]
  · simp [good, rsStatus]

theorem bkEntropyReady_rest (entropy : Option Nat) (bk : State) :
    (bkEntropyReady entropy bk).kdfBusy = bk.kdfBusy ∧
      (bkEntropyReady entropy bk).rl = bk.rl := by
  unfold bkEntropyReady
  split_ifs
  · exact ⟨rfl, rfl⟩
  · cases entropy <;> exact ⟨rfl, rfl⟩

/-- A LOGIN that nothing else stands in the way of opens a session exactly for a
password that evaluates to the stored key. -/
theorem opLogin_ok_iff {h : List UInt8} (free : LoginOpen entropy w uid cip bk)
    (stored : scryptHash bk.cfg = some h) (idle : bk.kdfBusy = false)
    (least : 1 ≤ rq.body.length) (most : rq.body.length ≤ 64) :
    (opLogin entropy w rq uid cip bk).2.status = .ok ↔
      evaluable h = true ∧ Matches w.kdf rq.body h := by
  obtain ⟨cfg, -⟩ := bkEntropyReady_carries entropy bk
  obtain ⟨busy, rl⟩ := bkEntropyReady_rest entropy bk
  have ready := free.ready
  have unlocked := free.unlocked
  rw [← cfg] at stored
  rw [← busy] at idle
  rw [← rl] at unlocked
  unfold opLogin
  rw [if_neg (by omega)]
  dsimp only
  generalize bkEntropyReady entropy bk = bk at *
  rw [if_neg (by simp [ready])]
  by_cases root : uid = uidRoot
  · rw [if_pos root]
    exact loginChecked_ok_iff stored idle free.tok free.csrf
  · rw [if_neg root, unlocked root]
    dsimp only
    generalize (bkRlCheck w.now w.slotAt bk.rl cip).1 = rl'
    exact loginChecked_ok_iff (by exact stored) (by exact idle) free.tok free.csrf

/-- A session is opened only on a password that evaluates to the stored key. -/
theorem opLogin_ok (opened : (opLogin entropy w rq uid cip bk).2.status = .ok) :
    ∃ h, scryptHash bk.cfg = some h ∧ Matches w.kdf rq.body h := by
  have checked {bk : State} (opened : (loginChecked w rq uid cip bk).2.status = .ok) :
      ∃ h, scryptHash bk.cfg = some h ∧ Matches w.kdf rq.body h := by
    unfold loginChecked at opened
    split at opened
    · cases opened
    next h stored =>
    split at opened
    · cases opened
    split at opened
    · cases opened
    split at opened
    · cases opened
    next want derived =>
    split at opened
    · cases opened
    next same => exact ⟨h, stored, want, derived, not_not.mp same⟩
  obtain ⟨cfg, -⟩ := bkEntropyReady_carries entropy bk
  rw [← cfg]
  unfold opLogin at opened
  split at opened
  · cases opened
  dsimp only at opened
  generalize bkEntropyReady entropy bk = bk at *
  split at opened
  · cases opened
  split at opened
  · exact checked opened
  · split at opened
    · cases opened
    · have found := checked opened
      exact found

end Login

/-! ## PWSET -/

section Pwset

variable {entropy : Option Nat} {w : PwsetWorld} {rq : Req} {uid : Nat} {bk : State}
  {m : Medium} {old new : List UInt8}

theorem pwsetBody_eq_some_iff {body : List UInt8} :
    pwsetBody body = some (old, new) ↔
      body = Httpd.pwsetRequest old new ∧ old.length ≤ 64 ∧ 8 ≤ new.length ∧
        new.length ≤ 64 := by
  constructor
  · intro parsed
    unfold pwsetBody at parsed
    split at parsed
    · cases parsed
    next oldlen rest =>
    split_ifs at parsed with short
    split at parsed
    · cases parsed
    next newlen tail shape =>
    split_ifs at parsed with unequal range
    simp only [Option.some.injEq, Prod.mk.injEq] at parsed
    obtain ⟨rfl, rfl⟩ := parsed
    have eight : (8 : UInt8).toNat = 8 := rfl
    have sixtyFour : (64 : UInt8).toNat = 64 := rfl
    simp only [not_or, gt_iff_lt, UInt8.lt_iff_toNat_lt, eight, sixtyFour] at range
    obtain ⟨least, most, oldMost⟩ := range
    have whole : tail.length = newlen.toNat := not_not.mp unequal
    have front : (rest.take oldlen.toNat).length = oldlen.toNat := by
      rw [List.length_take]
      omega
    refine ⟨?_, by omega, by omega, by omega⟩
    unfold Httpd.pwsetRequest
    rw [front, whole, UInt8.ofNat_toNat, UInt8.ofNat_toNat, ← shape, List.cons_append,
      List.take_append_drop]
  · rintro ⟨rfl, oldMost, least, most⟩
    have oldLength : (UInt8.ofNat old.length).toNat = old.length :=
      UInt8.toNat_ofNat_of_lt' (show _ < 256 by omega)
    have newLength : (UInt8.ofNat new.length).toNat = new.length :=
      UInt8.toNat_ofNat_of_lt' (show _ < 256 by omega)
    have range : ¬ (UInt8.ofNat new.length < 8 ∨ UInt8.ofNat new.length > 64 ∨
        UInt8.ofNat old.length > 64) := by
      have eight : (8 : UInt8).toNat = 8 := rfl
      have sixtyFour : (64 : UInt8).toNat = 64 := rfl
      simp only [gt_iff_lt, UInt8.lt_iff_toNat_lt, oldLength, newLength, eight, sixtyFour]
      omega
    simp [Httpd.pwsetRequest, pwsetBody, oldLength, newLength, range]

/-- What the web handler sends is read back as the two passwords it was given. -/
theorem pwsetBody_passwordBody {rs : Httpd.Rsp} {grant : Except Nat Unit}
    {body request : List UInt8} (sent : Httpd.passwordBody rs grant body = .ok request) :
    ∃ old new, Httpd.passwords rs body = .ok (old, new) ∧
      pwsetBody request = some (old, new) := by
  unfold Httpd.passwordBody at sent
  split at sent
  · cases sent
  next old new accepted =>
  split at sent
  · cases sent
  cases sent
  refine ⟨old, new, accepted, pwsetBody_eq_some_iff.mpr ⟨rfl, ?_⟩⟩
  unfold Httpd.passwords at accepted
  split at accepted
  · cases accepted
  split at accepted
  · split_ifs at accepted with range
    cases accepted
    omega
  · cases accepted

/-- A body of another form changes nothing. -/
theorem opPwset_refused (framing : pwsetBody rq.body = none) :
    (opPwset entropy w rq uid bk m).rs.status ≠ .ok ∧
      (opPwset entropy w rq uid bk m).bk = bkEntropyReady entropy bk ∧
      (opPwset entropy w rq uid bk m).medium = m := by
  unfold opPwset
  dsimp only
  by_cases unready : ¬ (bkEntropyReady entropy bk).authReady = true
  · rw [if_pos unready]
    exact ⟨nofun, rfl, rfl⟩
  · rw [if_neg unready, framing]
    exact ⟨nofun, rfl, rfl⟩

theorem pwsetOld_refuses {st : Status} (refused : pwsetOld w old uid bk = some st) :
    st ≠ .ok := by
  rintro rfl
  unfold pwsetOld at refused
  repeat' split at refused
  all_goals cases refused

theorem pwsetNew_refuses {st : Status} (refused : pwsetNew w new bk = .error st) :
    st ≠ .ok := by
  rintro rfl
  unfold pwsetNew at refused
  dsimp only at refused
  repeat' split at refused
  all_goals cases refused

/-- The old password of a PWSET that is not refused, for a peer other than root. -/
theorem matches_of_pwsetOld (notRoot : uid ≠ uidRoot) (passed : pwsetOld w old uid bk = none) :
    ∃ h, scryptHash bk.cfg = some h ∧ Matches w.kdf old h := by
  unfold pwsetOld at passed
  split at passed
  · rw [if_pos notRoot] at passed
    cases passed
  next h stored =>
  split_ifs at passed
  split at passed
  · cases passed
  next want derived =>
  split_ifs at passed with same
  exact ⟨h, stored, want, derived, same⟩

/-- The hash that PWSET makes: a blob of its parameters, a fresh salt and the key. -/
theorem exists_blob_of_pwsetNew {hash : List UInt8} (made : pwsetNew w new bk = .ok hash) :
    bk.kdfBusy = false ∧ ∃ (salt : List UInt8) (key : Derived), salt.length = 16 ∧
      w.kdf new salt kdfLog2n kdfR kdfP = some key ∧
      hash = blobOf (UInt8.ofNat kdfLog2n) kdfR kdfP salt key.1 := by
  unfold pwsetNew at made
  dsimp only at made
  split_ifs at made with unread busy
  split at made
  · cases made
  next key derived =>
  cases made
  exact ⟨by simpa using busy, _, key, (bkRandom_length w.salt 16).2 (by simpa using unread),
    derived, rfl⟩

/-- A value that was set is the one that is read. -/
theorem pwhash_cfgSet {c c' : Cfg} {v : List UInt8} (set : cfgSet c idPwhash v = .ok c') :
    pwhash c' = some v := by
  obtain ⟨i, found, checked, rfl⟩ := cfgSet_eq_ok set
  have fits := CfgStore.length_le_of_checked checked
  simp [pwhash, CfgStore.cfgGet, found, not_lt.mpr fits, Except.toOption]

theorem scryptHash_eq_some {c : Cfg} {salt key : List UInt8} {log2n : UInt8} {r p : Nat}
    (sixteen : salt.length = 16) (long : key.length = 32)
    (stored : pwhash c = some (blobOf log2n r p salt key)) :
    scryptHash c = some (blobOf log2n r p salt key) := by
  rw [scryptHash, stored, Option.filter_some, if_pos]
  simpa using ⟨blobOf_length sixteen long, rfl⟩

theorem commitCfg_ok {faults : CfgStore.Faults} {work : Cfg}
    (committed : (commitCfg faults work bk m).rs.status = .ok) :
    pwhash (commitCfg faults work bk m).bk.cfg = pwhash work ∧
      (commitCfg faults work bk m).bk.kdfBusy = bk.kdfBusy := by
  unfold commitCfg at committed ⊢
  dsimp only at committed ⊢
  cases stored : (CfgStore.storeRec faults m work false).rc with
  | some fault =>
      rw [stored] at committed
      cases committed
  | none => exact ⟨pwhash_stored stored, rfl⟩

/-- What a PWSET that answers OK went through, and what it leaves. -/
theorem opPwset_ok (done : (opPwset entropy w rq uid bk m).rs.status = .ok) :
    ∃ old new, pwsetBody rq.body = some (old, new) ∧
      pwsetOld w old uid (bkEntropyReady entropy bk) = none ∧
      (opPwset entropy w rq uid bk m).bk.kdfBusy = false ∧
      ∃ (salt : List UInt8) (key : Derived), salt.length = 16 ∧
        w.kdf new salt kdfLog2n kdfR kdfP = some key ∧
        scryptHash (opPwset entropy w rq uid bk m).bk.cfg =
          some (blobOf (UInt8.ofNat kdfLog2n) kdfR kdfP salt key.1) := by
  unfold opPwset at done ⊢
  dsimp only at done ⊢
  generalize bkEntropyReady entropy bk = bk at *
  by_cases unready : ¬ bk.authReady = true
  · rw [if_pos unready] at done
    cases done
  rw [if_neg unready] at done ⊢
  cases framed : pwsetBody rq.body with
  | none =>
      rw [framed] at done
      cases done
  | some pair =>
      obtain ⟨old, new⟩ := pair
      rw [framed] at done
      dsimp only at done ⊢
      cases passed : pwsetOld w old uid bk with
      | some st =>
          rw [passed] at done
          exact absurd done (pwsetOld_refuses passed)
      | none =>
          rw [passed] at done
          dsimp only at done ⊢
          cases hashed : pwsetNew w new bk with
          | error st =>
              rw [hashed] at done
              exact absurd done (pwsetNew_refuses hashed)
          | ok hash =>
              rw [hashed] at done
              dsimp only at done ⊢
              obtain ⟨idle, salt, key, sixteen, derived, rfl⟩ := exists_blob_of_pwsetNew hashed
              refine ⟨old, new, rfl, passed, ?_⟩
              cases set : cfgSet bk.cfg idPwhash
                  (blobOf (UInt8.ofNat kdfLog2n) kdfR kdfP salt key.1) with
              | error fault =>
                  rw [set] at done
                  cases done
              | ok work =>
                  rw [set] at done
                  dsimp only at done ⊢
                  have committed : (commitCfg w.store work bk m).rs.status = .ok := by
                    split at done
                    · assumption
                    · exact done
                  rw [if_pos committed]
                  obtain ⟨hash, busy⟩ := commitCfg_ok committed
                  refine ⟨busy.trans idle, salt, key, sixteen, derived, ?_⟩
                  exact scryptHash_eq_some sixteen key.2 (hash.trans (pwhash_cfgSet set))

end Pwset

/-! ## What the owner relies on -/

/-- Parameters that `kdf_scrypt` accepts are not 0. -/
theorem params_of_kdfScrypt {malloc : Allocator} {pw salt key : List UInt8} {log2n r p : Nat}
    (derived : kdfScrypt malloc pw salt log2n r p = .ok key) : r ≠ 0 ∧ p ≠ 0 := by
  unfold kdfScrypt Scrypt.kdfScryptRaw at derived
  split at derived
  · cases derived
  split_ifs at derived with large empty zero
  exact ⟨fun isZero => zero (Or.inl isZero), fun isZero => zero (Or.inr isZero)⟩

/-- The library's verifier finds a match exactly where LOGIN does. -/
theorem matches_iff_pwhashVerify {malloc : Allocator} {pw salt key : List UInt8}
    {log2n : UInt8} {r p : Nat} (sixteen : salt.length = 16) (long : key.length = 32)
    (smallR : r < 2 ^ 16) (smallP : p < 2 ^ 16) :
    Matches (scryptKdf malloc) pw (blobOf log2n r p salt key) ↔
      pwhashVerify malloc (blobOf log2n r p salt key) pw = .ok true := by
  have same := @pwhashVerify_blobOf malloc pw salt key log2n r p sixteen long smallR smallP
  have toOption {e : Except Scrypt.Err Bool} : e.toOption = some true ↔ e = .ok true := by
    cases e <;> simp [Except.toOption]
  rw [← toOption, same, Option.map_eq_some_iff]
  rfl

/-- The framing of a PWSET's body. -/
def PwsetFramed (body old new : List UInt8) : Prop :=
  body = Httpd.pwsetRequest old new ∧ old.length ≤ 64 ∧ 8 ≤ new.length ∧ new.length ≤ 64

/-- Passwords that are set can be used, and nothing else can. -/
structure PasswordsUsable : Prop where
  /-- After a PWSET, LOGIN takes the new password, and another one only with its key. -/
  login : ∀ (entropy : Option Nat) (w : PwsetWorld) (malloc : Allocator) (rq : Req) (uid : Nat)
    (bk : State) (m : Medium), w.kdf = scryptKdf malloc →
    (opPwset entropy w rq uid bk m).rs.status = .ok →
    ∃ old new salt key, PwsetFramed rq.body old new ∧
      kdfScrypt malloc new salt kdfLog2n kdfR kdfP = .ok key ∧
      ∀ (entropy' : Option Nat) (lw : LoginWorld) (rq' : Req) (uid' : Nat) (cip : UInt32)
        (bk' : State), bk'.cfg = (opPwset entropy w rq uid bk m).bk.cfg →
        bk'.kdfBusy = (opPwset entropy w rq uid bk m).bk.kdfBusy →
        (lw.kdf = scryptKdf Scrypt.ample → LoginOpen entropy' lw uid' cip bk' →
          rq'.body = new → (opLogin entropy' lw rq' uid' cip bk').2.status = .ok) ∧
        ∀ malloc', lw.kdf = scryptKdf malloc' →
          (opLogin entropy' lw rq' uid' cip bk').2.status = .ok →
          kdfScrypt malloc' rq'.body salt kdfLog2n kdfR kdfP = .ok key
  /-- The old password of a peer other than root evaluates to the stored hash. -/
  proof : ∀ (entropy : Option Nat) (w : PwsetWorld) (rq : Req) (uid : Nat) (bk : State)
    (m : Medium), uid ≠ uidRoot → (opPwset entropy w rq uid bk m).rs.status = .ok →
    ∃ old new h key, PwsetFramed rq.body old new ∧ scryptHash bk.cfg = some h ∧
      kdfStored w.kdf old h = some key ∧ key.1 = h.drop 24
  /-- The web handler's request is read back as the passwords it accepted. -/
  form : ∀ (rs : Httpd.Rsp) (grant : Except Nat Unit) (body request : List UInt8),
    Httpd.passwordBody rs grant body = .ok request →
    ∃ old new, Httpd.passwords rs body = .ok (old, new) ∧
      pwsetBody request = some (old, new)
  /-- A body of another form is refused, with nothing changed. -/
  framing : ∀ (entropy : Option Nat) (w : PwsetWorld) (rq : Req) (uid : Nat) (bk : State)
    (m : Medium), (¬ ∃ old new, PwsetFramed rq.body old new) →
    (opPwset entropy w rq uid bk m).rs.status ≠ .ok ∧
      (opPwset entropy w rq uid bk m).bk = bkEntropyReady entropy bk ∧
      (opPwset entropy w rq uid bk m).medium = m
  /-- The library's verifier takes what it made, and LOGIN agrees with it. -/
  verifier : ∀ (malloc : Allocator) (pw salt blob : List UInt8) (log2n : UInt8) (r p : UInt16),
    salt.length = 16 → Scrypt.pwhashMake malloc pw log2n r p salt = .ok blob →
    pwhashVerify Scrypt.ample blob pw = .ok true ∧
      ∀ (malloc' : Allocator) (entropy : Option Nat) (w : LoginWorld) (rq : Req) (uid : Nat)
        (cip : UInt32) (bk : State), w.kdf = scryptKdf malloc' →
        LoginOpen entropy w uid cip bk → bk.kdfBusy = false → pwhash bk.cfg = some blob →
        8 ≤ log2n → log2n ≤ 20 → 1 ≤ rq.body.length → rq.body.length ≤ 64 →
        ((opLogin entropy w rq uid cip bk).2.status = .ok ↔
          pwhashVerify malloc' blob rq.body = .ok true)

theorem drop_of_scryptHash {c : Cfg} {h : List UInt8} (stored : scryptHash c = some h) :
    (h.drop 24).length = 32 := by
  have shape := (Option.filter_eq_some_iff.mp stored).2
  simp only [decide_eq_true_eq] at shape
  rw [List.length_drop, shape.1]
  rfl

end RlxFw.Broker
