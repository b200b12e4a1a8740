import RlxFw.FirstPassword

/-!
# What the first password relies on

The step reads a password only where the terminal does not echo it, leaves the terminal
as it was, writes over no password, and what it sets can be used to log in.
-/

namespace RlxFw.FirstPassword

open Broker (LoginOpen LoginWorld Matches blobOf bkRandom kdfLog2n kdfP kdfR opLogin
  scryptHash scryptKdf)
open CfgStore (Cfg Faults Medium OnChip Returns bkCfgReload cfgDefaults cfgKeys fpBase fpSet
  fpHasHash idPwhash loadInfo newestOf newestSeq nkeys noFaults storeRec)
open Scrypt (Allocator ample kdfScrypt pwhashMake)

/-! ## The terminal -/

section Tty

variable {w : TtyWorld} {mode : Termios} {tty : Bool}

/-- What is read back is what the terminal does. -/
theorem echoOff_quiet (off : (echoOff w mode).1 = true) : (echoOff w mode).2.echo = false := by
  unfold echoOff at off ⊢
  split at off
  · cases off
  next got =>
  rw [if_neg got]
  split at off
  · cases off
  next now set =>
  split at off
  · cases off
  next shown =>
  rw [if_neg shown]
  simpa using (not_or.mp shown).2

theorem echoRestore_honoured (honours : Honours w.restore) (saved now : Termios) :
    echoRestore w saved now = saved := by
  rw [echoRestore, honours]
  rfl

theorem echoOff_failed (honours : Honours w.restore) (failed : (echoOff w mode).1 = false) :
    (echoOff w mode).2 = mode := by
  unfold echoOff at failed ⊢
  split
  · rfl
  next got =>
  rw [if_neg got] at failed
  split
  · exact echoRestore_honoured honours mode mode
  next now set =>
  rw [set] at failed
  dsimp only at failed
  split
  · exact echoRestore_honoured honours mode now
  next shown =>
  rw [if_neg shown] at failed
  cases failed

theorem fpEchoOff_quiet (isTty : tty = true) (off : (fpEchoOff tty w mode).1 = true) :
    (fpEchoOff tty w mode).2.echo = false := by
  subst isTty
  exact echoOff_quiet off

theorem fpEchoOff_failed (honours : Honours w.restore)
    (failed : (fpEchoOff tty w mode).1 = false) : (fpEchoOff tty w mode).2 = mode := by
  cases tty with
  | false => rfl
  | true => exact echoOff_failed honours failed

theorem fpEchoRestore_honoured (honours : Honours w.restore) :
    fpEchoRestore tty w mode (fpEchoOff tty w mode).2 = mode := by
  cases tty with
  | false => rfl
  | true => exact echoRestore_honoured honours mode _

end Tty

/-! ## The entries -/

theorem length_stripCr (line : List UInt8) : (stripCr line).length ≤ line.length :=
  (List.rdropWhile_prefix _ line).length_le

theorem length_fpReadLoop {cap : Nat} {buf line : List UInt8} {tooLong : Bool}
    {reads rest : List ReadResult} (fits : buf.length ≤ cap)
    (read : fpReadLoop cap buf tooLong reads = (some (.line line), rest)) :
    line.length ≤ cap := by
  induction reads generalizing buf tooLong with
  | nil => cases read
  | cons r reads ih =>
      cases r with
      | again => exact ih fits read
      | gone => cases read
      | byte b =>
          unfold fpReadLoop at read
          split at read
          · cases tooLong with
            | true => cases read
            | false =>
                cases read
                exact (length_stripCr buf).trans fits
          · split at read
            · next room =>
              refine ih ?_ read
              rw [List.length_append]
              exact room
            · exact ih fits read

/-- A turn in which the same password was typed twice. -/
def Typed (e : Entry) (pw : List UInt8) : Prop :=
  ∃ rest, fpReadLine e.reads = (some (.line pw), rest) ∧
    (fpReadLine rest).1 = some (.line pw)

theorem fpJudge_got {r1 r2 : LineResult} {pw : List UInt8} (got : fpJudge r1 r2 = .got pw) :
    r1 = .line pw ∧ r2 = .line pw ∧ pwMin ≤ pw.length := by
  cases r1 with
  | eof => cases got
  | long =>
      cases r2 <;> cases got
  | line first =>
      cases r2 with
      | eof => cases got
      | long => cases got
      | line second =>
          unfold fpJudge at got
          dsimp only at got
          split_ifs at got with short differ
          cases got
          rw [not_not.mp differ]
          exact ⟨rfl, rfl, not_lt.mp (not_not.mp differ ▸ short)⟩

theorem fpJudge_ended {r1 r2 : LineResult} {result : FpResult}
    (ended : fpJudge r1 r2 = .ended result) : result = .eof := by
  cases r1 with
  | eof =>
      cases ended
      rfl
  | long =>
      cases r2 <;> cases ended
      rfl
  | line first =>
      cases r2 with
      | eof =>
          cases ended
          rfl
      | long => cases ended
      | line second =>
          unfold fpJudge at ended
          dsimp only at ended
          split_ifs at ended

/-- What a turn does to the terminal, and what it comes to. -/
structure TurnSpec (tty : Bool) (entries : List Entry) (mode : Termios)
    (after : Turn × Termios × List Termios) : Prop where
  unseen : tty = true → ∀ during ∈ after.2.2, during.echo = false
  restored : (∀ e ∈ entries, Honours e.tty.restore) → after.1 ≠ .waiting → after.2.1 = mode
  got : ∀ pw, after.1 = .got pw → pwMin ≤ pw.length ∧ ∃ e ∈ entries, Typed e pw
  ended : ∀ result, after.1 = .ended result → result = .tty ∨ result = .eof

theorem fpTurn_spec (tty : Bool) (e : Entry) (mode : Termios) :
    TurnSpec tty [e] mode (fpTurn tty e mode) := by
  unfold fpTurn
  dsimp only
  by_cases off : (fpEchoOff tty e.tty mode).1 = true
  case neg =>
    rw [if_pos off]
    exact
      { unseen := fun _ _ none => by cases none
        restored := fun honours _ =>
          fpEchoOff_failed (honours e (List.mem_singleton_self e)) (by simpa using off)
        got := fun _ got => by cases got
        ended := fun _ ended => by
          cases ended
          exact .inl rfl }
  rw [if_neg (not_not.mpr off)]
  have unseen : tty = true → ∀ during ∈ [(fpEchoOff tty e.tty mode).2],
      during.echo = false := by
    intro isTty during member
    rw [List.mem_singleton.mp member]
    exact fpEchoOff_quiet isTty off
  have waits : TurnSpec tty [e] mode
      (.waiting, (fpEchoOff tty e.tty mode).2, [(fpEchoOff tty e.tty mode).2]) :=
    { unseen
      restored := fun _ moved => absurd rfl moved
      got := fun _ got => by cases got
      ended := fun _ ended => by cases ended }
  generalize isFirst : fpReadLine e.reads = first
  obtain ⟨r1, rest⟩ := first
  cases r1 with
  | none => exact waits
  | some r1 =>
      dsimp only
      cases isSecond : fpSecond r1 rest with
      | none => exact waits
      | some r2 =>
          refine ⟨unseen, fun honours _ =>
            fpEchoRestore_honoured (honours e (List.mem_singleton_self e)), ?_, ?_⟩
          · intro pw got
            obtain ⟨rfl, rfl, least⟩ := fpJudge_got got
            refine ⟨least, e, List.mem_singleton_self e, rest, isFirst, ?_⟩
            rwa [fpSecond, if_pos least] at isSecond
          · exact fun result ended => .inr (fpJudge_ended ended)

theorem fpAsk_spec (tty : Bool) (entries : List Entry) (mode : Termios) :
    TurnSpec tty entries mode (fpAsk tty entries mode) := by
  induction entries generalizing mode with
  | nil =>
      exact
        { unseen := fun _ _ none => by cases none
          restored := fun _ moved => absurd rfl moved
          got := fun _ got => by cases got
          ended := fun _ ended => by cases ended }
  | cons e rest ih =>
      have turn := fpTurn_spec tty e mode
      unfold fpAsk
      generalize fpTurn tty e mode = after at turn
      obtain ⟨came, mode', readIn⟩ := after
      have first {came' : Turn} (same : came = came') :
          TurnSpec tty (e :: rest) mode (came', mode', readIn) := by
        subst same
        refine ⟨turn.unseen, ?_, ?_, turn.ended⟩
        · intro honours
          refine turn.restored fun e' member => honours e' ?_
          rw [List.mem_singleton.mp member]
          exact List.mem_cons_self
        · intro pw got
          obtain ⟨least, e', member, typed⟩ := turn.got pw got
          refine ⟨least, e', ?_, typed⟩
          rw [List.mem_singleton.mp member]
          exact List.mem_cons_self
      cases came with
      | waiting => exact first rfl
      | ended result => exact first rfl
      | got pw => exact first rfl
      | again =>
          have later := ih mode'
          refine ⟨?_, ?_, ?_, later.ended⟩
          · intro isTty during member
            rcases List.mem_append.mp member with now | then_
            · exact turn.unseen isTty during now
            · exact later.unseen isTty during then_
          · intro honours moved
            have back := later.restored
              (fun e' member => honours e' (List.mem_cons_of_mem _ member)) moved
            refine back.trans (turn.restored (fun e' member => honours e' ?_) ?_)
            · rw [List.mem_singleton.mp member]
              exact List.mem_cons_self
            · intro waiting
              cases waiting
          · intro pw got
            obtain ⟨least, e', member, typed⟩ := later.got pw got
            exact ⟨least, e', List.mem_cons_of_mem _ member, typed⟩

/-! ## The salt -/

/-- A salt is drawn whole, from a pool that the kernel says is full enough. -/
theorem pwhashSalt_ok {w : SaltWorld} {salt : List UInt8} (drawn : pwhashSalt w = .ok salt) :
    salt.length = 16 ∧ ∃ avail, kdfEntropyAvail w.entropyAvail = .ok avail ∧
      kdfEntropyMin ≤ avail := by
  unfold pwhashSalt at drawn
  cases read : kdfEntropyAvail w.entropyAvail with
  | error e =>
      rw [read] at drawn
      cases drawn
  | ok avail =>
      rw [read] at drawn
      dsimp only at drawn
      split_ifs at drawn with low whole
      cases drawn
      exact ⟨(Broker.bkRandom_length w.urandom 16).2 whole, avail, rfl, not_lt.mp low⟩

theorem fpSalt_ok {salts : List SaltWorld} {salt : List UInt8}
    (drawn : fpSalt salts = some (.ok salt)) : ∃ w ∈ salts, pwhashSalt w = .ok salt := by
  induction salts with
  | nil => cases drawn
  | cons w rest ih =>
      have later (found : fpSalt rest = some (.ok salt)) :
          ∃ w' ∈ w :: rest, pwhashSalt w' = .ok salt := by
        obtain ⟨w', member, isSalt⟩ := ih found
        exact ⟨w', List.mem_cons_of_mem w member, isSalt⟩
      cases first : pwhashSalt w with
      | ok salt' =>
          simp only [fpSalt, first] at drawn
          cases drawn
          exact ⟨w, List.mem_cons_self, first⟩
      | error e =>
          cases e with
          | io =>
              simp only [fpSalt, first] at drawn
              cases drawn
          | entropy =>
              simp only [fpSalt, first] at drawn
              exact later drawn

/-! ## The store -/

/-- What the store was based on: the record that was read, which held no hash, or the
defaults where no slot held a record. -/
structure BasedOn (m : Medium) (load : Faults) (result : FpResult) (base : Cfg) : Prop where
  readable : (loadInfo load m).rc = none
  unhashed : fpHasHash base = false
  record : result = .setStore → (loadInfo load m).info.selected.isSome ∧
    base = (loadInfo load m).out
  defaults : result = .setFresh → (loadInfo load m).info.selected = none ∧
    base = cfgDefaults

theorem fpBase_ok {load : Faults} {m : Medium} {base : Cfg} {fresh : Bool}
    (based : fpBase (loadInfo load m) = .ok (base, fresh)) :
    BasedOn m load (if fresh then .setFresh else .setStore) base := by
  unfold fpBase at based
  split_ifs at based with unread selected hashed
  · cases based
    exact
      { readable := by simpa using unread
        unhashed := by simpa using hashed
        record := fun _ => ⟨selected, rfl⟩
        defaults := fun fresh => by cases fresh }
  · cases based
    exact
      { readable := by simpa using unread
        unhashed := rfl
        record := fun stored => by cases stored
        defaults := fun _ => ⟨by simpa using selected, rfl⟩ }

/-- A store that the step made, from its base. -/
structure StoredFrom (w : FpWorld) (m : Medium) (result : FpResult) (blob : List UInt8)
    (base work : Cfg) (fresh : Bool) : Prop where
  based : BasedOn m w.load result base
  edited : fpSet base [{ type := idPwhash, val := blob }] = .ok work
  isFresh : result = if fresh then .setFresh else .setStore
  stored : (storeRec w.store m work fresh).rc = none

/-- What `fp_store` comes to: a store of the one value, or a refusal. -/
theorem fpStore_cases (w : FpWorld) (m : Medium) (blob : List UInt8) :
    (∃ base work fresh,
        StoredFrom w m (fpStore w.load w.store m blob).1 blob base work fresh ∧
        (fpStore w.load w.store m blob).2 = (storeRec w.store m work fresh).medium) ∨
      fpStore w.load w.store m blob = (.hashed, m) ∨
      (fpStore w.load w.store m blob).1 = .io := by
  unfold fpStore
  cases based : fpBase (loadInfo w.load m) with
  | error refusal =>
      cases refusal with
      | hashed => exact .inr (.inl rfl)
      | inval key => exact .inr (.inr rfl)
      | perm => exact .inr (.inr rfl)
      | io => exact .inr (.inr rfl)
      | corrupt => exact .inr (.inr rfl)
      | usage => exact .inr (.inr rfl)
  | ok pair =>
      obtain ⟨base, fresh⟩ := pair
      dsimp only
      cases edited : fpSet base [{ type := idPwhash, val := blob }] with
      | error refusal => exact .inr (.inr rfl)
      | ok work =>
          dsimp only
          cases stored : (storeRec w.store m work fresh).rc with
          | some fault => exact .inr (.inr rfl)
          | none => exact .inl ⟨base, work, fresh, ⟨fpBase_ok based, edited, rfl, stored⟩, rfl⟩

/-- A store that already holds a hash is left as it is. -/
theorem fpStore_hashed {w : FpWorld} {m : Medium}
    (hashed : fpHasHash (loadInfo w.load m).out = true) (blob : List UInt8) :
    (fpStore w.load w.store m blob).2 = m ∧
      (fpStore w.load w.store m blob).1 ≠ .setStore ∧
      (fpStore w.load w.store m blob).1 ≠ .setFresh := by
  have refused : fpBase (loadInfo w.load m) = .error .io ∨
      fpBase (loadInfo w.load m) = .error .hashed := by
    unfold fpBase
    by_cases unread : (loadInfo w.load m).rc.isSome
    · exact .inl (if_pos unread)
    · have fine : (loadInfo w.load m).rc = none := by simpa using unread
      have selects := CfgStore.loadInfo_selects fine
      have selected : (loadInfo w.load m).info.selected.isSome := by
        rw [selects.selected]
        cases newer : newestOf m.slot with
        | some p => rfl
        | none =>
            rw [selects.out, newer] at hashed
            cases hashed
      rw [if_neg unread, if_pos selected, if_pos hashed]
      exact .inr rfl
  unfold fpStore
  rcases refused with io | already
  · rw [io]
    exact ⟨rfl, nofun, nofun⟩
  · rw [already]
    exact ⟨rfl, nofun, nofun⟩

/-! ## What the step leaves -/

/-- The blob of a password. -/
def passwordBlob (salt key : List UInt8) : List UInt8 :=
  blobOf (UInt8.ofNat kdfLog2n) kdfR kdfP salt key

theorem pwhashMake_ok {malloc : Allocator} {pw salt blob : List UInt8}
    (made : pwhashMake malloc pw (UInt8.ofNat kdfLog2n) (UInt16.ofNat kdfR)
      (UInt16.ofNat kdfP) salt = .ok blob) :
    ∃ key, kdfScrypt malloc pw salt kdfLog2n kdfR kdfP = .ok key ∧
      blob = passwordBlob salt key := by
  unfold pwhashMake at made
  split at made
  · cases made
  next key derived =>
  cases made
  exact ⟨key, derived, rfl⟩

/-- A password evaluates to a blob exactly with its key. -/
theorem matches_passwordBlob {malloc : Allocator} {pw salt key : List UInt8}
    (sixteen : salt.length = 16) (long : key.length = 32) :
    Matches (scryptKdf malloc) pw (passwordBlob salt key) ↔
      kdfScrypt malloc pw salt kdfLog2n kdfR kdfP = .ok key := by
  unfold Matches passwordBlob
  rw [Broker.kdfStored_blobOf _ _ sixteen (by decide) (by decide), Broker.blobOf_key sixteen]
  constructor
  · rintro ⟨want, isKey, same⟩
    have equal := (Broker.bkCtEq_iff (want.2.trans long.symm)).mp same
    rw [← equal]
    exact Broker.scryptKdf_eq_some_iff.mp isKey
  · intro isKey
    exact ⟨⟨key, long⟩, Broker.scryptKdf_eq_some_iff.mpr isKey, (Broker.bkCtEq_iff rfl).mpr rfl⟩

/-- The configuration that a store of this base and this hash leaves to the next load. -/
structure Leaves (base : Cfg) (blob : List UInt8) (after : Medium) (kept : Cfg) : Prop where
  returns : Returns after kept
  seq : kept.seq = base.seq + 1
  value : ∀ i : Fin nkeys, kept.value i =
    if (cfgKeys i).id = idPwhash then some blob else base.value i

theorem leaves_of_storedFrom {w : FpWorld} {m : Medium} {result : FpResult}
    {blob : List UInt8} {base work : Cfg} {fresh : Bool} (onChip : OnChip m)
    (from_ : StoredFrom w m result blob base work fresh) :
    Leaves base blob (storeRec w.store m work fresh).medium
      (storeRec w.store m work fresh).cfg := by
  have kept := CfgStore.not_revives_of_onChip onChip
  obtain ⟨target, -, left⟩ := CfgStore.newestOf_stored_of_not_revives from_.stored kept
  have selects := CfgStore.loadInfo_selects from_.based.readable
  refine ⟨CfgStore.returns_stored_of_not_revives from_.stored kept, ?_, ?_⟩
  · rw [left]
    change newestSeq (newestOf m.slot) + 1 = base.seq + 1
    have isFresh := from_.isFresh
    cases fresh with
    | true =>
        obtain ⟨nothing, rfl⟩ := from_.based.defaults isFresh
        rw [selects.selected, Option.map_eq_none_iff] at nothing
        rw [nothing]
        rfl
    | false =>
        obtain ⟨there, rfl⟩ := from_.based.record isFresh
        rw [selects.out]
        cases newer : newestOf m.slot with
        | none =>
            rw [selects.selected, newer] at there
            cases there
        | some p => rfl
  · intro i
    have edits := CfgStore.edits_of_fpSet from_.edited i
    rw [left]
    change work.value i = _
    rw [edits]
    unfold CfgStore.finalValue CfgStore.finalValue
    simp only [Option.none_or]
    by_cases isHash : (cfgKeys i).id = idPwhash
    · rw [if_pos isHash, if_pos isHash.symm]
      rfl
    · rw [if_neg isHash, if_neg (Ne.symm isHash)]
      rfl

/-- The hash that was stored is the one that a broker which loads the store checks. -/
theorem scryptHash_of_storedFrom {w : FpWorld} {m : Medium} {result : FpResult}
    {salt key : List UInt8} {base work : Cfg} {fresh : Bool} (onChip : OnChip m)
    (from_ : StoredFrom w m result (passwordBlob salt key) base work fresh)
    (sixteen : salt.length = 16) (long : key.length = 32) :
    scryptHash (bkCfgReload (loadInfo noFaults (storeRec w.store m work fresh).medium)) =
      some (passwordBlob salt key) := by
  obtain ⟨⟨fine, out⟩, -, -⟩ := leaves_of_storedFrom onChip from_
  have reload := @CfgStore.base_eq_out (.brokerSet true) noFaults
    (storeRec w.store m work fresh).medium _ _ fine rfl
  obtain ⟨plan, -, -, left⟩ := CfgStore.exists_plan_of_storeRec from_.stored
  have hash : Broker.pwhash work = some (passwordBlob salt key) := by
    have edited := from_.edited
    unfold fpSet at edited
    dsimp only at edited
    rw [if_pos rfl] at edited
    cases set : CfgStore.cfgSet base idPwhash (passwordBlob salt key) with
    | error fault =>
        rw [set] at edited
        cases edited
    | ok work' =>
        rw [set] at edited
        cases edited
        exact Broker.pwhash_cfgSet set
  rw [reload, out, left]
  exact Broker.scryptHash_eq_some sixteen long hash

/-- A password that was set: who typed it, what was stored and who can log in. -/
structure PasswordSet (w : FpWorld) (m after : Medium) (result : FpResult)
    (pw salt key : List UInt8) : Prop where
  typed : ∃ e ∈ w.entries, Typed e pw
  least : pwMin ≤ pw.length
  most : pw.length ≤ pwMax
  drawn : ∃ s ∈ w.salts, pwhashSalt s = .ok salt ∧
    ∃ avail, kdfEntropyAvail s.entropyAvail = .ok avail ∧ kdfEntropyMin ≤ avail
  derived : kdfScrypt w.malloc pw salt kdfLog2n kdfR kdfP = .ok key
  /-- The record that was there, or the defaults, and the hash; nothing else changes. -/
  kept : OnChip m → ∃ base kept, BasedOn m w.load result base ∧
    Leaves base (passwordBlob salt key) after kept
  /-- After the broker's next load the password opens a session, and one that does not
  evaluate to its key does not. -/
  login : OnChip m → ∀ (entropy : Option Nat) (lw : LoginWorld) (rq : Broker.Req) (uid : Nat)
    (cip : UInt32) (bk : Broker.State), bk.cfg = bkCfgReload (loadInfo noFaults after) →
    (bk.kdfBusy = false → lw.kdf = scryptKdf ample → LoginOpen entropy lw uid cip bk →
      rq.body = pw → (opLogin entropy lw rq uid cip bk).2.status = .ok) ∧
    ∀ malloc, lw.kdf = scryptKdf malloc →
      (opLogin entropy lw rq uid cip bk).2.status = .ok →
      kdfScrypt malloc rq.body salt kdfLog2n kdfR kdfP = .ok key

/-- What holds of the first-password step, whatever it meets. -/
structure FirstPasswordSafe (w : FpWorld) (mode : Termios) (m : Medium) (run : FpRun) :
    Prop where
  /-- No read is made of a terminal that echoes. -/
  unseen : w.tty = true → ∀ during ∈ run.readIn, during.echo = false
  /-- A step that has returned left the terminal as it was. -/
  restored : (∀ e ∈ w.entries, Honours e.tty.restore) → run.result.isSome → run.mode = mode
  /-- A hash that is there stays. -/
  hashed : fpHasHash (loadInfo w.load m).out = true →
    run.medium = m ∧ run.result ≠ some .setStore ∧ run.result ≠ some .setFresh
  /-- Nothing is written but a password, where no write fails. -/
  unwritten : run.result ≠ some .setStore → run.result ≠ some .setFresh →
    run.result ≠ some .io → run.medium = m
  set : ∀ result, run.result = some result → result = .setStore ∨ result = .setFresh →
    ∃ pw salt key, PasswordSet w m run.medium result pw salt key

theorem login_of_storedFrom {w : FpWorld} {m : Medium} {result : FpResult}
    {pw salt key : List UInt8} {base work : Cfg} {fresh : Bool} (onChip : OnChip m)
    (from_ : StoredFrom w m result (passwordBlob salt key) base work fresh)
    (sixteen : salt.length = 16) (least : pwMin ≤ pw.length) (most : pw.length ≤ pwMax)
    (derived : kdfScrypt w.malloc pw salt kdfLog2n kdfR kdfP = .ok key)
    (entropy : Option Nat) (lw : LoginWorld) (rq : Broker.Req) (uid : Nat) (cip : UInt32)
    (bk : Broker.State)
    (loaded : bk.cfg =
      bkCfgReload (loadInfo noFaults (storeRec w.store m work fresh).medium)) :
    (bk.kdfBusy = false → lw.kdf = scryptKdf ample → LoginOpen entropy lw uid cip bk →
      rq.body = pw → (opLogin entropy lw rq uid cip bk).2.status = .ok) ∧
    ∀ malloc, lw.kdf = scryptKdf malloc →
      (opLogin entropy lw rq uid cip bk).2.status = .ok →
      kdfScrypt malloc rq.body salt kdfLog2n kdfR kdfP = .ok key := by
  have long := Scrypt.length_kdfScrypt derived
  have stored := scryptHash_of_storedFrom onChip from_ sixteen long
  rw [← loaded] at stored
  constructor
  · intro idle isKdf opened isPw
    subst isPw
    have one : 1 ≤ rq.body.length := Nat.le_trans (by decide) least
    refine (Broker.opLogin_ok_iff opened stored idle one most).mpr ⟨?_, ?_⟩
    · rw [passwordBlob, Broker.evaluable_blobOf (by decide) (by decide)]
      decide
    · rw [isKdf, matches_passwordBlob sixteen long]
      exact Scrypt.kdfScrypt_ample derived
  · intro malloc isKdf opened
    obtain ⟨h, isStored, found⟩ := Broker.opLogin_ok opened
    rw [stored] at isStored
    cases isStored
    rw [isKdf] at found
    exact (matches_passwordBlob sixteen long).mp found

/-- What the step does once it has a password. -/
structure HashSpec (w : FpWorld) (m : Medium) (pw : List UInt8)
    (after : Option FpResult × Medium) : Prop where
  hashed : fpHasHash (loadInfo w.load m).out = true →
    after.2 = m ∧ after.1 ≠ some .setStore ∧ after.1 ≠ some .setFresh
  unwritten : after.1 ≠ some .setStore → after.1 ≠ some .setFresh → after.1 ≠ some .io →
    after.2 = m
  set : ∀ result, after.1 = some result → result = .setStore ∨ result = .setFresh →
    ∃ salt key, salt.length = 16 ∧ (∃ s ∈ w.salts, pwhashSalt s = .ok salt) ∧
      kdfScrypt w.malloc pw salt kdfLog2n kdfR kdfP = .ok key ∧
      ∃ base work fresh, StoredFrom w m result (passwordBlob salt key) base work fresh ∧
        after.2 = (storeRec w.store m work fresh).medium

theorem fpHash_spec (w : FpWorld) (pw : List UInt8) (m : Medium) :
    HashSpec w m pw (fpHash w pw m) := by
  have untouched {result : Option FpResult} (other : ∀ r, result = some r → r = .kdf) :
      HashSpec w m pw (result, m) := by
    refine ⟨fun _ => ⟨rfl, ?_, ?_⟩, fun _ _ _ => rfl, ?_⟩
    · intro set
      cases other _ set
    · intro set
      cases other _ set
    · intro r isResult set
      rw [other r isResult] at set
      rcases set with set | set <;> cases set
  unfold fpHash
  cases drawn : fpSalt w.salts with
  | none =>
      exact untouched fun r absurd => by cases absurd
  | some attempt =>
      cases attempt with
      | error e =>
          refine untouched fun r isKdf => ?_
          cases isKdf
          rfl
      | ok salt =>
          dsimp only
          cases made : pwhashMake w.malloc pw (UInt8.ofNat kdfLog2n) (UInt16.ofNat kdfR)
              (UInt16.ofNat kdfP) salt with
          | error e =>
              refine untouched fun r isKdf => ?_
              cases isKdf
              rfl
          | ok blob =>
              obtain ⟨key, derived, rfl⟩ := pwhashMake_ok made
              obtain ⟨s, member, isSalt⟩ := fpSalt_ok drawn
              refine ⟨?_, ?_, ?_⟩
              · intro hashed
                obtain ⟨same, notStore, notFresh⟩ := fpStore_hashed hashed (passwordBlob salt key)
                exact ⟨same, fun set => notStore (Option.some.inj set),
                  fun set => notFresh (Option.some.inj set)⟩
              · intro notStore notFresh notIo
                rcases fpStore_cases w m (passwordBlob salt key) with
                  ⟨base, work, fresh, from_, -⟩ | already | io
                · have isFresh := from_.isFresh
                  cases fresh with
                  | true => exact absurd (congrArg some isFresh) notFresh
                  | false => exact absurd (congrArg some isFresh) notStore
                · exact congrArg Prod.snd already
                · exact absurd (congrArg some io) notIo
              · intro result isResult set
                cases isResult
                refine ⟨salt, key, (pwhashSalt_ok isSalt).1, ⟨s, member, isSalt⟩, derived, ?_⟩
                rcases fpStore_cases w m (passwordBlob salt key) with found | already | io
                · exact found
                · rw [already] at set
                  rcases set with set | set <;> cases set
                · rw [io] at set
                  rcases set with set | set <;> cases set

end RlxFw.FirstPassword
