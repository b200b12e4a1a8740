import RlxFw.BrokerLoop
import RlxFw.StagingMoves
import Mathlib.Data.List.Induction

/-!
# An install follows its reply

The loop's log read as rounds: END's OK opens one in its slot, and either its last
byte is written and the install runs, or the slot ends otherwise and the staging is
gone.  Every call into the loop keeps the staging verified exactly while a round is
open in one slot.
-/

namespace RlxFw.Broker

open CfgStore (Faults Medium)

/-! ## Rounds -/

/-- END's OK in a slot, and how much of it was written. -/
structure InstallRound where
  slot : SlotIx
  reply : List UInt8
  staged : Upd
  written : Nat

/-- An entry read, with the round open before it. -/
def LoopEntry.turn (round : Option InstallRound) : LoopEntry → Option InstallRound
  | .answered i reply staged => some { slot := i, reply, staged, written := 0 }
  | .wrote i count =>
      round.map fun r => if r.slot = i then { r with written := r.written + count } else r
  | .installed _ _ => none
  | .dropped _ _ => none
  | .rebooted _ => round

/-- The round that is open after a log. -/
def openRound (log : List LoopEntry) : Option InstallRound := log.foldl LoopEntry.turn none

@[simp]
theorem openRound_nil : openRound [] = none := rfl

@[simp]
theorem openRound_snoc (log : List LoopEntry) (e : LoopEntry) :
    openRound (log ++ [e]) = e.turn (openRound log) := by
  simp [openRound]

/-- What an entry has to find: END's OK no round, an install its own reply written to
the last byte, and any other end of the slot nothing staged after it. -/
def LoopEntry.Fits (before : Option InstallRound) : LoopEntry → Prop
  | .answered _ reply staged =>
      before = none ∧ staged.state = .verified ∧
        ∃ rs, rs.status = .ok ∧ protoEncodeResp rs = some reply
  | .installed i staged =>
      ∃ r, before = some r ∧ r.slot = i ∧ r.written = r.reply.length ∧
        staged.image = r.staged.image
  | .dropped i left =>
      ∃ r, before = some r ∧ r.slot = i ∧ left.state = .none ∧ left.buf = none
  | .wrote _ _ => True
  | .rebooted _ => True

/-- Every entry of a log finds what it has to. -/
def Delivers (log : List LoopEntry) : Prop :=
  ∀ before e after, log = before ++ e :: after → e.Fits (openRound before)

theorem delivers_nil : Delivers [] := by
  intro before e after split
  simp at split

theorem Delivers.snoc {log : List LoopEntry} (delivers : Delivers log) {e : LoopEntry}
    (fits : e.Fits (openRound log)) : Delivers (log ++ [e]) := by
  intro before found after split
  induction after using List.reverseRecOn with
  | nil =>
      obtain ⟨same, last⟩ := List.append_inj' split rfl
      cases last
      exact same ▸ fits
  | append_singleton rest last _ =>
      have shorter : log ++ [e] = (before ++ found :: rest) ++ [last] := by
        simpa using split
      exact delivers before found rest (List.append_inj' shorter rfl).1

/-! ## The invariant -/

/-- A slot carries install-after-write. -/
def BkLoop.Carries (s : BkLoop) (i : SlotIx) : Prop :=
  ∃ c, s.conns i = some c ∧ c.installAfterWrite = true

/-- The round is the slot's: it writes that reply and has written so much of it. -/
structure InRound (s : BkLoop) (r : InstallRound) : Prop where
  verified : s.bk.upd.state = .verified
  image : s.bk.upd.image = r.staged.image
  slot : ∃ c, s.conns r.slot = some c ∧ c.installAfterWrite = true ∧ c.writing = true ∧
    c.out = r.reply ∧ c.outoff = r.written
  fits : r.written ≤ r.reply.length
  only : ∀ i, s.Carries i → i = r.slot

/-- No slot waits to install, and nothing is verified. -/
structure Unowned (s : BkLoop) : Prop where
  state : s.bk.upd.state ≠ .verified
  none_ : ∀ i, ¬ s.Carries i

/-- The owner of the staging, if the log shows one. -/
def OwnedBy (s : BkLoop) : Option InstallRound → Prop
  | none => Unowned s
  | some r => InRound s r

/-- What holds between any two steps of the loop. -/
structure Rounds (s : BkLoop) : Prop where
  log : Delivers s.log
  flag : s.bk.pendingUpdate = false
  owned : OwnedBy s (openRound s.log)

namespace Rounds

variable {s : BkLoop} {i : SlotIx}

/-- A slot carries the flag only while it writes the open round's reply. -/
theorem round_of_carries (rounds : Rounds s) (carries : s.Carries i) :
    ∃ r, openRound s.log = some r ∧ r.slot = i ∧ InRound s r := by
  have owned := rounds.owned
  cases found : openRound s.log with
  | none =>
      rw [found] at owned
      exact absurd carries (owned.none_ i)
  | some r =>
      rw [found] at owned
      exact ⟨r, rfl, (owned.only i carries).symm, owned⟩

theorem verified_iff (rounds : Rounds s) :
    s.bk.upd.state = .verified ↔ ∃ i, s.Carries i := by
  have owned := rounds.owned
  constructor
  · intro verified
    cases found : openRound s.log with
    | none =>
        rw [found] at owned
        exact absurd verified owned.state
    | some r =>
        rw [found] at owned
        obtain ⟨c, atSlot, carried, -⟩ := owned.slot
        exact ⟨r.slot, c, atSlot, carried⟩
  · rintro ⟨i, carries⟩
    obtain ⟨r, -, -, held⟩ := rounds.round_of_carries carries
    exact held.verified

/-- Nothing verified means no round. -/
theorem no_round (rounds : Rounds s) (unverified : s.bk.upd.state ≠ .verified) :
    openRound s.log = none ∧ Unowned s := by
  have owned := rounds.owned
  cases found : openRound s.log with
  | none =>
      rw [found] at owned
      exact ⟨rfl, owned⟩
  | some r =>
      rw [found] at owned
      exact absurd owned.verified unverified

/-! ## One slot -/

theorem carries_put_iff {j : SlotIx} {new : Option Conn} :
    (s.put i new).Carries j ↔
      if j = i then ∃ c, new = some c ∧ c.installAfterWrite = true else s.Carries j := by
  unfold BkLoop.Carries BkLoop.put
  by_cases same : j = i
  · subst same
    simp
  · simp [same]

theorem conns_put_of_ne {j : SlotIx} (new : Option Conn) (other : j ≠ i) :
    (s.put i new).conns j = s.conns j :=
  Function.update_of_ne other _ _

/-- A slot that does not carry the flag gets a content that does not. -/
theorem put_plain (rounds : Rounds s) (was : ¬ s.Carries i) {new : Option Conn}
    (plain : ∀ c, new = some c → c.installAfterWrite = false) : Rounds (s.put i new) := by
  have same : ∀ j, (s.put i new).Carries j ↔ s.Carries j := by
    intro j
    rw [carries_put_iff]
    by_cases here : j = i
    · subst here
      have not : ¬ ∃ c, new = some c ∧ c.installAfterWrite = true := by
        rintro ⟨c, isNew, carried⟩
        rw [plain c isNew] at carried
        cases carried
      simp [not, was]
    · simp [here]
  refine ⟨rounds.log, rounds.flag, ?_⟩
  have owned := rounds.owned
  change OwnedBy _ (openRound s.log)
  cases found : openRound s.log with
  | none =>
      rw [found] at owned
      exact ⟨owned.state, fun j carries => owned.none_ j ((same j).mp carries)⟩
  | some r =>
      rw [found] at owned
      have other : r.slot ≠ i := by
        rintro rfl
        obtain ⟨c, atSlot, carried, -⟩ := owned.slot
        exact was ⟨c, atSlot, carried⟩
      refine ⟨owned.verified, owned.image, ?_, owned.fits, fun j carries =>
        owned.only j ((same j).mp carries)⟩
      rw [conns_put_of_ne new other]
      exact owned.slot

/-- A slot that does not carry the flag is emptied. -/
theorem put_none (rounds : Rounds s) (was : ¬ s.Carries i) : Rounds (s.put i none) :=
  rounds.put_plain was fun _ empty => nomatch empty

/-- The broker changes and spares the staging. -/
theorem withBk (rounds : Rounds s) {bk : State} (spares : SparesStaging s.bk bk) :
    Rounds { s with bk } := by
  refine ⟨rounds.log, spares.flag.trans rounds.flag, ?_⟩
  have owned := rounds.owned
  change OwnedBy _ (openRound s.log)
  cases found : openRound s.log with
  | none =>
      rw [found] at owned
      exact ⟨fun verified => owned.state (spares.verified_iff.mp verified), owned.none_⟩
  | some r =>
      rw [found] at owned
      have image : bk.upd.image = s.bk.upd.image := by
        rcases spares.staged with same | ⟨was, -⟩
        · exact same
        · exact absurd owned.verified was
      exact ⟨spares.verified_iff.mpr owned.verified, image.trans owned.image, owned.slot,
        owned.fits, owned.only⟩

/-- An entry that leaves the round alone. -/
theorem withEntry (rounds : Rounds s) {e : LoopEntry} (fits : e.Fits (openRound s.log))
    (kept : e.turn (openRound s.log) = openRound s.log) :
    Rounds { s with log := s.log ++ [e] } := by
  refine ⟨rounds.log.snoc fits, rounds.flag, ?_⟩
  change OwnedBy _ (openRound (s.log ++ [e]))
  rw [openRound_snoc, kept]
  have owned := rounds.owned
  cases found : openRound s.log with
  | none =>
      rw [found] at owned
      exact ⟨owned.state, owned.none_⟩
  | some r =>
      rw [found] at owned
      exact ⟨owned.verified, owned.image, owned.slot, owned.fits, owned.only⟩

/-- The owner's slot ends, its staging with it: no round is left open. -/
theorem settle (rounds : Rounds s) (carries : s.Carries i) {e : LoopEntry} {bk : State}
    (fits : e.Fits (openRound s.log)) (ends : e.turn (openRound s.log) = none)
    (flag : bk.pendingUpdate = false) (gone : bk.upd.state ≠ .verified) :
    Rounds { s.put i none with bk, log := s.log ++ [e] } := by
  refine ⟨rounds.log.snoc fits, flag, ?_⟩
  change OwnedBy _ (openRound (s.log ++ [e]))
  rw [openRound_snoc, ends]
  refine ⟨gone, fun j still => ?_⟩
  obtain ⟨r, -, isSlot, held⟩ := rounds.round_of_carries carries
  have left := (@carries_put_iff s i j none).mp still
  by_cases here : j = i
  · simp [here] at left
  · rw [if_neg here] at left
    exact here ((held.only j left).trans isSlot)

theorem connDrop (rounds : Rounds s) (i : SlotIx) : Rounds (connDrop s i) := by
  unfold Broker.connDrop
  cases slot : s.conns i with
  | none => exact rounds
  | some c =>
      dsimp only
      by_cases carried : c.installAfterWrite = true
      · rw [if_pos carried]
        have carries : s.Carries i := ⟨c, slot, carried⟩
        obtain ⟨r, isOpen, isSlot, held⟩ := rounds.round_of_carries carries
        rcases bkUpdAfterReply_cases false false s.bk with
          ⟨unverified, -⟩ | ⟨-, ⟨text, after⟩, -⟩
        · exact absurd held.verified unverified
        · rw [after]
          exact rounds.settle carries ⟨r, isOpen, isSlot, rfl, rfl⟩ rfl rfl nofun
      · rw [if_neg carried]
        apply rounds.put_none
        rintro ⟨c', slot', carried'⟩
        rw [slot] at slot'
        cases slot'
        exact carried carried'

end Rounds

/-! ## A request -/

/-- A reply put into a slot is about to be written, and keeps the flags. -/
theorem connReply_some {c c' : Conn} {rs : Resp} {asIs : Bool}
    (put : connReply c rs = some (c', asIs)) :
    c'.installAfterWrite = c.installAfterWrite ∧ c'.writing = true ∧ c'.outoff = 0 ∧
      (asIs = true → protoEncodeResp rs = some c'.out) := by
  unfold connReply at put
  cases encoded : protoEncodeResp rs with
  | some out =>
      rw [encoded] at put
      cases put
      exact ⟨rfl, rfl, rfl, fun _ => rfl⟩
  | none =>
      rw [encoded] at put
      dsimp only at put
      obtain ⟨out, -, same⟩ := Option.map_eq_some_iff.mp put
      cases same
      exact ⟨rfl, rfl, rfl, nofun⟩

theorem connReplyStatus_plain {c c' : Conn} {st : Status}
    (put : connReplyStatus c st = some c') (plain : c.installAfterWrite = false) :
    c'.installAfterWrite = false := by
  obtain ⟨⟨c'', asIs⟩, replied, rfl⟩ := Option.map_eq_some_iff.mp put
  exact (connReply_some replied).1.trans plain

theorem armReboot_keeps (bk : State) (slot : Option Conn) :
    KeepsStaging bk (armReboot bk slot).1 := by
  unfold armReboot
  split <;> exact ⟨rfl, rfl⟩

/-- Arming a reboot changes nothing else of the slot. -/
theorem armReboot_slot {bk : State} {slot : Option Conn} {c : Conn}
    (armed : (armReboot bk slot).2 = some c) :
    ∃ c', slot = some c' ∧ c.installAfterWrite = c'.installAfterWrite ∧
      c.writing = c'.writing ∧ c.out = c'.out ∧ c.outoff = c'.outoff := by
  unfold armReboot at armed
  split at armed
  · obtain ⟨c', isSlot, rfl⟩ := Option.map_eq_some_iff.mp armed
    exact ⟨c', isSlot, rfl, rfl, rfl, rfl⟩
  · exact ⟨c, armed, rfl, rfl, rfl, rfl⟩

namespace Rounds

variable {s : BkLoop} {i : SlotIx}

/-- END's OK opens a round in its slot. -/
theorem answer (rounds : Rounds s) (unverified : s.bk.upd.state ≠ .verified) {bk : State}
    (flag : bk.pendingUpdate = false) (verified : bk.upd.state = .verified) {rs : Resp}
    (ok : rs.status = .ok) {reply : List UInt8} (encoded : protoEncodeResp rs = some reply)
    {c : Conn} (carried : c.installAfterWrite = true) (writing : c.writing = true)
    (unwritten : c.outoff = 0) (out : c.out = reply) :
    Rounds
      (BkLoop.put { s with bk, log := s.log ++ [.answered i reply bk.upd] } i (some c)) := by
  obtain ⟨closed, unowned⟩ := rounds.no_round unverified
  have fits : (LoopEntry.answered i reply bk.upd).Fits (openRound s.log) :=
    ⟨closed, verified, rs, ok, encoded⟩
  refine ⟨rounds.log.snoc fits, flag, ?_⟩
  change OwnedBy _ (openRound (s.log ++ [_]))
  rw [openRound_snoc]
  refine ⟨verified, rfl, ⟨c, ?_, carried, writing, out, unwritten⟩, Nat.zero_le _, ?_⟩
  · exact Function.update_self _ _ _
  · intro j carries
    by_contra other
    have before := carries_put_iff.mp carries
    rw [if_neg other] at before
    exact unowned.none_ j before

/-- A request is dispatched from a slot that does not carry the flag. -/
theorem connDispatch (rounds : Rounds s) (w : World) (m : Medium) {c : Conn}
    (was : ¬ s.Carries i) (plain : c.installAfterWrite = false) :
    Rounds (connDispatch w m c i s) := by
  have moves := bkDispatch_moves w (reqOf c.rx.req) c.uid s.bk m
  unfold Broker.connDispatch
  generalize bkDispatch w (reqOf c.rx.req) c.uid s.bk m = h at moves ⊢
  dsimp only
  have arms := armReboot_keeps h.bk ((connReply c h.rs).map Prod.fst)
  have slots := @armReboot_slot h.bk ((connReply c h.rs).map Prod.fst)
  generalize armReboot h.bk ((connReply c h.rs).map Prod.fst) = armed at arms slots ⊢
  obtain ⟨bk, slot⟩ := armed
  dsimp only at arms slots ⊢
  have replied : ∀ c', slot = some c' → c'.installAfterWrite = false ∧ c'.writing = true ∧
      c'.outoff = 0 ∧
      ((connReply c h.rs).any Prod.snd = true → protoEncodeResp h.rs = some c'.out) := by
    intro c' isSlot
    obtain ⟨c'', isReply, flags, writing, out, outoff⟩ := slots isSlot
    obtain ⟨⟨c₀, asIs⟩, put, rfl⟩ := Option.map_eq_some_iff.mp isReply
    obtain ⟨kept, writes, unwritten, encoded⟩ := connReply_some put
    rw [put]
    exact ⟨flags.trans (kept.trans plain), writing.trans writes, outoff.trans unwritten,
      fun isAsIs => out ▸ encoded isAsIs⟩
  rcases moves with spares | verifies
  · have idle : bk.pendingUpdate = false :=
      (arms.flag.trans spares.flag).trans rounds.flag
    rw [if_neg (by simp [idle])]
    apply (rounds.withBk (spares.trans (.of_keeps arms))).put_plain was
    intro c' isWiped
    obtain ⟨c'', isSlot, rfl⟩ := Option.map_eq_some_iff.mp isWiped
    exact (replied c'' isSlot).1
  · rw [if_pos (arms.flag.trans verifies.flag)]
    have verified : bk.upd.state = .verified := arms.upd ▸ verifies.is
    -- the staging that was verified is thrown away
    have undelivered : Rounds
        { s with bk := (bkUpdAfterReply false false { bk with pendingUpdate := false }).1 } := by
      apply rounds.withBk
      rcases bkUpdAfterReply_cases false false { bk with pendingUpdate := false } with
        ⟨not, -⟩ | ⟨-, ⟨text, after⟩, -⟩
      · exact absurd verified not
      · rw [after]
        exact .unverified rounds.flag.symm verifies.was nofun
    cases slot with
    | none => exact undelivered.put_none was
    | some c' =>
        obtain ⟨unflagged, writing, unwritten, encoded⟩ := replied c' rfl
        dsimp only
        split
        · next answers =>
          have opened := @answer s i rounds verifies.was { bk with pendingUpdate := false } rfl
            verified h.rs answers.2 c'.out (encoded answers.1)
            { c' with installAfterWrite := true, rx := ProtoRx.wiped }
          exact opened rfl writing unwritten rfl
        · apply undelivered.put_plain was
          intro c'' isWiped
          cases isWiped
          exact unflagged

theorem connRead (rounds : Rounds s) (result : Io (List UInt8)) (now : Nat) (w : World)
    (m : Medium) {c : Conn} (slot : s.conns i = some c) (reading : c.writing = false) :
    Rounds (connRead result now w m i s) := by
  have plain : c.installAfterWrite = false := by
    by_contra carried
    obtain ⟨r, -, isSlot, held⟩ :=
      rounds.round_of_carries ⟨c, slot, Bool.eq_true_of_not_eq_false carried⟩
    obtain ⟨c', atSlot, -, writing, -⟩ := held.slot
    rw [isSlot, slot] at atSlot
    cases atSlot
    rw [reading] at writing
    cases writing
  have was : ¬ s.Carries i := by
    rintro ⟨c', slot', carried⟩
    rw [slot] at slot'
    cases slot'
    rw [plain] at carried
    cases carried
  unfold Broker.connRead
  rw [slot]
  cases result with
  | again => exact rounds
  | failed => exact rounds.connDrop i
  | done data =>
      dsimp only
      split
      · exact rounds.connDrop i
      · split
        · exact rounds.put_plain was fun c' put => connReplyStatus_plain put plain
        · split
          · exact rounds.put_plain was fun c' put => connReplyStatus_plain put plain
          · exact rounds.connDispatch w m was plain
        · apply rounds.put_plain was
          intro c' same
          cases same
          exact plain

/-- A slot that does not carry the flag writes. -/
theorem connWrite_plain (rounds : Rounds s) (count now : Nat) (installed : Bool) {c : Conn}
    (slot : s.conns i = some c) (plain : c.installAfterWrite = false) :
    Rounds (connWrite (.done count) now installed i s) := by
  have was : ¬ s.Carries i := by
    rintro ⟨c', slot', carried⟩
    rw [slot] at slot'
    cases slot'
    rw [plain] at carried
    cases carried
  have wrote : ∀ count, Rounds { s with log := s.log ++ [.wrote i count] } := by
    intro count
    refine rounds.withEntry trivial ?_
    cases found : openRound s.log with
    | none => rfl
    | some r =>
        have owned := rounds.owned
        rw [found] at owned
        have other : r.slot ≠ i := by
          rintro rfl
          obtain ⟨c', atSlot, carried, -⟩ := owned.slot
          exact was ⟨c', atSlot, carried⟩
        simp [LoopEntry.turn, other]
  unfold Broker.connWrite
  rw [slot]
  dsimp only
  split
  · have closed := (wrote (min count (c.out.length - c.outoff))).put_none was
    have unflagged : ¬ c.installAfterWrite = true := by simp [plain]
    rw [if_neg unflagged]
    split
    · exact closed.withEntry (e := .rebooted i) trivial rfl
    · exact closed
  · apply (wrote _).put_plain was
    intro c' same
    cases same
    exact plain

theorem put_put (s : BkLoop) (i : SlotIx) (first last : Option Conn) :
    (s.put i first).put i last = s.put i last := by
  simp [BkLoop.put]

/-- The owner of the staging writes some more of its reply. -/
theorem wroteMore (rounds : Rounds s) {c : Conn} (slot : s.conns i = some c)
    (carried : c.installAfterWrite = true) {count : Nat} (room : count ≤ c.out.length - c.outoff)
    (now : Nat) :
    Rounds (BkLoop.put { s with log := s.log ++ [.wrote i count] } i
      (some { c with last := now, outoff := c.outoff + count })) := by
  obtain ⟨r, isOpen, isSlot, held⟩ := rounds.round_of_carries ⟨c, slot, carried⟩
  subst isSlot
  obtain ⟨c', atSlot, -, writing, isReply, isWritten⟩ := held.slot
  rw [slot] at atSlot
  cases atSlot
  have wrote : (LoopEntry.wrote r.slot count).Fits (openRound s.log) := trivial
  refine ⟨rounds.log.snoc wrote, rounds.flag, ?_⟩
  change OwnedBy _ (openRound (s.log ++ [_]))
  have grown : (LoopEntry.wrote r.slot count).turn (openRound s.log) =
      some { r with written := r.written + count } := by
    simp [isOpen, LoopEntry.turn]
  rw [openRound_snoc, grown]
  refine ⟨held.verified, held.image, ⟨_, Function.update_self _ _ _, carried, writing, isReply, ?_⟩,
    ?_, ?_⟩
  · change c.outoff + count = r.written + count
    rw [isWritten]
  · change r.written + count ≤ r.reply.length
    have fits := held.fits
    rw [isReply, isWritten] at room
    omega
  · intro j carries
    by_contra other
    have before := carries_put_iff.mp carries
    rw [if_neg other] at before
    exact other (held.only j before)

/-- The owner of the staging writes: its round goes on, or ends with the install. -/
theorem connWrite_owner (rounds : Rounds s) (count now : Nat) (installed : Bool) {c : Conn}
    (slot : s.conns i = some c) (carried : c.installAfterWrite = true) :
    Rounds (connWrite (.done count) now installed i s) := by
  unfold Broker.connWrite
  rw [slot]
  dsimp only
  rw [if_pos carried]
  generalize taken : min count (c.out.length - c.outoff) = count'
  have room : count' ≤ c.out.length - c.outoff := taken ▸ min_le_right _ _
  have more := rounds.wroteMore slot carried room now
  split
  · next whole =>
    have carries : BkLoop.Carries (BkLoop.put { s with log := s.log ++ [.wrote i count'] } i
        (some { c with last := now, outoff := c.outoff + count' })) i :=
      ⟨_, Function.update_self _ _ _, carried⟩
    obtain ⟨r, isOpen, isSlot, held⟩ := more.round_of_carries carries
    subst isSlot
    obtain ⟨c', atSlot, -, -, isReply, isWritten⟩ := held.slot
    cases (Function.update_self _ _ _).symm.trans atSlot
    have full : r.written = r.reply.length := by
      rw [← isReply, ← isWritten]
      change c.outoff + count' = c.out.length
      have fits := held.fits
      rw [← isReply, ← isWritten] at fits
      exact le_antisymm fits whole
    rcases bkUpdAfterReply_cases true installed s.bk with ⟨unverified, -⟩ | ⟨-, ⟨text, gone⟩, ran⟩
    · exact absurd held.verified unverified
    · have done : bkUpdAfterReply true installed s.bk =
          ({ s.bk with pendingUpdate := false, upd := .empty text }, some s.bk.upd) :=
        Prod.ext gone ran
      change Rounds (if c.rebootAfterWrite = true then _ else _)
      rw [show (connClose { s with log := s.log ++ [.wrote r.slot count'] } r.slot).bk = s.bk from rfl,
        done]
      dsimp only
      have settled := @settle _ _ more carries (.installed r.slot s.bk.upd)
        { s.bk with pendingUpdate := false, upd := .empty text }
        ⟨r, isOpen, rfl, full, held.image⟩ rfl rfl nofun
      rw [put_put] at settled
      split
      · exact settled.withEntry (e := .rebooted r.slot) trivial rfl
      · exact settled
  · exact more

/-! ## A pass -/

theorem serve (rounds : Rounds s) (p : PassWorld) (i : SlotIx) : Rounds (serve p s i) := by
  unfold Broker.serve
  cases slot : s.conns i with
  | none => exact rounds
  | some c =>
      dsimp only
      cases writing : c.writing with
      | false => exact rounds.connRead (p.read i) p.now (p.world i) (p.medium i) slot writing
      | true =>
          rw [if_pos rfl]
          cases result : p.write i with
          | again =>
              unfold connWrite
              rw [slot]
              exact rounds
          | failed =>
              unfold connWrite
              rw [slot]
              exact rounds.connDrop i
          | done count =>
              cases carried : c.installAfterWrite with
              | false => exact rounds.connWrite_plain count p.now _ slot carried
              | true => exact rounds.connWrite_owner count p.now _ slot carried

theorem expire (rounds : Rounds s) (now : Nat) (i : SlotIx) : Rounds (expire now s i) := by
  unfold Broker.expire
  split
  · exact rounds
  · split
    · exact rounds.connDrop i
    · exact rounds

theorem bkLoopAdopt (rounds : Rounds s) (uid now : Nat) : Rounds (bkLoopAdopt uid now s) := by
  unfold Broker.bkLoopAdopt
  split
  · exact rounds
  · next j found =>
    have free : s.conns j = none := by
      simpa using List.find?_some found
    apply rounds.put_plain
    · rintro ⟨c, slot, -⟩
      rw [free] at slot
      cases slot
    · intro c isNew
      cases isNew
      rfl

theorem foldl {step : BkLoop → SlotIx → BkLoop}
    (keeps : ∀ s i, Rounds s → Rounds (step s i)) (rounds : Rounds s) (slots : List SlotIx) :
    Rounds (slots.foldl step s) := by
  induction slots generalizing s with
  | nil => exact rounds
  | cons i rest ih => exact ih (keeps s i rounds)

theorem bkLoopStep (rounds : Rounds s) (p : PassWorld) : Rounds (bkLoopStep p s) := by
  unfold Broker.bkLoopStep
  split
  · exact rounds
  · refine withBk ?swept (.sweep p.sweep _)
    -- the slots in turn, after a connection is taken in
    refine foldl (fun _ i rounds => rounds.expire p.now i) ?served _
    refine foldl (fun _ i rounds => rounds.serve p i) ?adopted _
    split
    · split
      · exact rounds.bkLoopAdopt _ _
      · exact rounds
    · exact rounds

theorem bkLoopCloseAll (rounds : Rounds s) : Rounds (bkLoopCloseAll s) :=
  rounds.foldl (fun _ i rounds => rounds.connDrop i) _

/-- Every call into the loop keeps the rounds. -/
theorem step (rounds : Rounds s) (e : LoopEvent) : Rounds (bkLoop.step s e).1 := by
  cases e with
  | adopt uid now => exact rounds.bkLoopAdopt uid now
  | pass p => exact rounds.bkLoopStep p
  | closeAll => exact rounds.bkLoopCloseAll

/-- The loop starts with no round. -/
theorem init (load : Faults) (m : Medium) (entropy : Option Nat) :
    Rounds (bkLoopInit load m entropy) := by
  have keeps : KeepsStaging State.init (bkLoopInit load m entropy).bk :=
    (KeepsStaging.reload load m .init).trans (.entropyReady entropy _)
  refine ⟨delivers_nil, keeps.flag, ?_, ?_⟩
  · rw [keeps.upd]
    nofun
  · rintro i ⟨c, slot, -⟩
    cases slot

end Rounds

/-! ## The whole log -/

/-- END's OK put into a slot. -/
def LoopEntry.isAnswered : LoopEntry → Bool
  | .answered _ _ _ => true
  | _ => false

/-- An install. -/
def LoopEntry.isInstalled : LoopEntry → Bool
  | .installed _ _ => true
  | _ => false

/-- Another end of the slot of END's OK. -/
def LoopEntry.isDropped : LoopEntry → Bool
  | .dropped _ _ => true
  | _ => false

theorem Delivers.of_snoc {log : List LoopEntry} {e : LoopEntry}
    (delivers : Delivers (log ++ [e])) : Delivers log ∧ e.Fits (openRound log) := by
  refine ⟨fun before found after split => ?_, delivers log e [] rfl⟩
  exact delivers before found (after ++ [e]) (by simp [split])

/-- Every END's OK is installed once, dropped once, or still in its slot. -/
theorem Delivers.settled {log : List LoopEntry} (delivers : Delivers log) :
    log.countP LoopEntry.isAnswered =
      log.countP LoopEntry.isInstalled + log.countP LoopEntry.isDropped +
        (openRound log).toList.length := by
  induction log using List.reverseRecOn with
  | nil => rfl
  | append_singleton log e ih =>
      obtain ⟨before, fits⟩ := delivers.of_snoc
      have counted := ih before
      rw [openRound_snoc]
      simp only [List.countP_append, List.countP_singleton]
      cases e with
      | answered i reply staged =>
          rw [fits.1] at counted
          simp [LoopEntry.isAnswered, LoopEntry.isInstalled, LoopEntry.isDropped,
            LoopEntry.turn] at counted ⊢
          omega
      | installed i staged =>
          obtain ⟨r, isOpen, -⟩ := fits
          rw [isOpen] at counted
          simp [LoopEntry.isAnswered, LoopEntry.isInstalled, LoopEntry.isDropped,
            LoopEntry.turn] at counted ⊢
          omega
      | dropped i left =>
          obtain ⟨r, isOpen, -⟩ := fits
          rw [isOpen] at counted
          simp [LoopEntry.isAnswered, LoopEntry.isInstalled, LoopEntry.isDropped,
            LoopEntry.turn] at counted ⊢
          omega
      | wrote i count =>
          cases found : openRound log <;>
            simp [LoopEntry.isAnswered, LoopEntry.isInstalled, LoopEntry.isDropped,
              LoopEntry.turn, found] at counted ⊢ <;> omega
      | rebooted i =>
          simpa [LoopEntry.isAnswered, LoopEntry.isInstalled, LoopEntry.isDropped,
            LoopEntry.turn] using counted

/-- The install, the slots and the staging between two calls into the loop. -/
structure DeliveredInstall (s : BkLoop) : Prop where
  /-- The staging is verified exactly while one slot carries the install. -/
  verified_iff : s.bk.upd.state = .verified ↔ ∃! i, s.Carries i
  /-- A slot that carries it owns what is staged: the OK of END that it writes is the
  one open in the log, and the staging is END's. -/
  owner : ∀ i, s.Carries i → s.bk.upd.state = .verified ∧
    ∃ r, openRound s.log = some r ∧ r.slot = i ∧ s.bk.upd.image = r.staged.image ∧
      ∃ c, s.conns i = some c ∧ c.out = r.reply ∧ c.outoff = r.written
  /-- An install found its own OK written to the last byte; any other end of the slot
  left nothing staged. -/
  log : Delivers s.log
  /-- Every OK of END is installed once, dropped once, or still in its slot. -/
  settled : s.log.countP LoopEntry.isAnswered =
    s.log.countP LoopEntry.isInstalled + s.log.countP LoopEntry.isDropped +
      (openRound s.log).toList.length

/-- From boot, whatever calls are made into the loop and whatever they find, a
verified staging has exactly one slot that waits to install it. -/
theorem delivered_install (load : Faults) (m : Medium) (entropy : Option Nat)
    (events : List LoopEvent) :
    DeliveredInstall (bkLoop.run (bkLoopInit load m entropy) events).1 := by
  have rounds : Rounds (bkLoop.run (bkLoopInit load m entropy) events).1 :=
    bkLoop.run_keeps (fun _ e rounds => rounds.step e) (Rounds.init load m entropy) events
  refine ⟨?_, ?_, rounds.log, rounds.log.settled⟩
  · rw [rounds.verified_iff]
    constructor
    · rintro ⟨i, carries⟩
      obtain ⟨r, -, isSlot, held⟩ := rounds.round_of_carries carries
      exact ⟨i, carries, fun j also => (held.only j also).trans isSlot⟩
    · rintro ⟨i, carries, -⟩
      exact ⟨i, carries⟩
  · intro i carries
    obtain ⟨r, isOpen, isSlot, held⟩ := rounds.round_of_carries carries
    obtain ⟨c, atSlot, -, -, out, outoff⟩ := held.slot
    exact ⟨held.verified, r, isOpen, isSlot, held.image, c, isSlot ▸ atSlot, out, outoff⟩

end RlxFw.Broker
