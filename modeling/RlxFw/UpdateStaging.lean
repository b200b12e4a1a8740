import RlxFw.Update

/-!
# What is staged

Over any run of update requests, from any peers and sessions: the buffer holds
the pieces its owner sent since it began, and a transfer that went wrong stays
wrong until it is begun again.
-/

namespace RlxFw.Broker

open Container (SignatureCheck)

/-! ## The log of accepted requests -/

/-- A request that was answered OK: a transfer begun, or a piece taken. -/
inductive Entry where
  | begun (uid : Nat) (tok : Token) (total : Nat)
  | taken (uid : Nat) (tok : Token) (piece : List UInt8)
deriving DecidableEq, Repr

/-- One entry read by an owner: what it announced, and its pieces so far. -/
def Entry.read (uid : Nat) (tok : Token) (acc : Option (Nat × List UInt8)) :
    Entry → Option (Nat × List UInt8)
  | .begun uid' tok' total =>
      if uid' = uid ∧ tok' = tok then some (total, []) else acc
  | .taken uid' tok' piece =>
      if uid' = uid ∧ tok' = tok then
        acc.map fun sent => (sent.1, sent.2 ++ piece)
      else acc

/-- What an owner announced when it last began, and the pieces taken from it
since, in order. -/
def sinceBegin (uid : Nat) (tok : Token) (log : List Entry) :
    Option (Nat × List UInt8) :=
  log.foldl (Entry.read uid tok) none

theorem sinceBegin_begun (uid : Nat) (tok : Token) (log : List Entry)
    (total : Nat) :
    sinceBegin uid tok (log ++ [.begun uid tok total]) = some (total, []) := by
  simp [sinceBegin, Entry.read]

theorem sinceBegin_taken (uid : Nat) (tok : Token) (log : List Entry)
    (piece : List UInt8) :
    sinceBegin uid tok (log ++ [.taken uid tok piece]) =
      (sinceBegin uid tok log).map fun sent => (sent.1, sent.2 ++ piece) := by
  simp [sinceBegin, Entry.read]

/-- Bytes laid out after a run extend the run by themselves. -/
theorem blit_slice (buf : ByteMap) (received : Nat) (piece : List UInt8) :
    (buf.blit received piece.length (ByteMap.ofList piece 0)).slice 0
        (received + piece.length) =
      buf.slice 0 received ++ piece := by
  have before : ByteMap.AgreeOn
      (buf.blit received piece.length (ByteMap.ofList piece 0)) buf 0
      received := ByteMap.blit_agreeOn_of_disjoint (Or.inl (by omega))
  have after := ByteMap.slice_ofList [] piece [] 0
  simp only [List.nil_append, List.append_nil, List.length_nil] at after
  rw [ByteMap.slice_append, ByteMap.slice_congr before, Nat.zero_add,
    ByteMap.slice_blit_self, after]

/-! ## The invariant -/

/-- The staging is what its owner sent. -/
structure Staging (u : Upd) (log : List Entry) : Prop where
  received_le : u.received ≤ u.total
  total_le : u.total ≤ Slots.slotSize
  held : u.buf.isSome ↔ u.state = .staging ∨ u.state = .verified
  pieces : ∀ buf, u.buf = some buf →
    sinceBegin u.uid u.tok log = some (u.total, buf.slice 0 u.received)
  whole : u.state = .verified → u.received = u.total

variable {u : Upd} {bk : State} {log : List Entry}

theorem staging_empty (text : List UInt8) (log : List Entry) :
    Staging (.empty text) log where
  received_le := le_rfl
  total_le := Nat.zero_le _
  held := by simp [Upd.empty]
  pieces _ found := nomatch found
  whole verified := nomatch verified

theorem Staging.discard (bk : State) (log : List Entry) :
    Staging (bkUpdDiscard bk).upd log := staging_empty _ _

theorem Staging.refuse (staging : Staging bk.upd log) (st : Status)
    (why : UpdReason) : Staging (updRefuse bk st why).1.upd log :=
  ⟨staging.received_le, staging.total_le, staging.held, staging.pieces,
    staging.whole⟩

theorem Staging.poison (staging : Staging bk.upd log) :
    Staging (updPoison bk).upd log where
  received_le := staging.received_le
  total_le := staging.total_le
  held := by simp [updPoison]
  pieces _ found := nomatch found
  whole verified := nomatch verified

/-- A sweep leaves the staging or nothing. -/
theorem bkUpdSweep_upd (times : SweepTimes) (bk : State) :
    (bkUpdSweep times bk).upd = bk.upd ∨
      (bkUpdSweep times bk).upd = .empty bk.upd.lastResult := by
  unfold bkUpdSweep
  split_ifs
  · exact Or.inl rfl
  · exact Or.inr rfl
  · dsimp only
    split_ifs
    · exact Or.inr rfl
    · exact Or.inl rfl
  · exact Or.inl rfl

theorem Staging.sweep (staging : Staging bk.upd log) (times : SweepTimes) :
    Staging (bkUpdSweep times bk).upd log := by
  rcases bkUpdSweep_upd times bk with same | gone
  · rw [same]
    exact staging
  · rw [gone]
    exact staging_empty _ _

/-- A staging that a sweep leaves in some state is the one before it. -/
theorem upd_eq_of_sweep {times : SweepTimes}
    (left : (bkUpdSweep times bk).upd.state ≠ .none) :
    (bkUpdSweep times bk).upd = bk.upd := by
  rcases bkUpdSweep_upd times bk with same | gone
  · exact same
  · rw [gone] at left
    exact absurd rfl left

theorem updOwner_iff {rq : Req} {uid : Nat} :
    updOwner u rq uid = true ↔ u.uid = uid ∧ u.tok = rq.session := by
  unfold updOwner
  rw [Bool.and_eq_true, beq_iff_eq, Token.ctEq_iff]

/-! ## Begin -/

/-- An accepted BEGIN starts an empty transfer of the announced total. -/
theorem bkUpdBegin_ok {w : BeginWorld} {rq : Req} {uid : Nat}
    (accepted : (bkUpdBegin w rq uid bk).2.status = .ok) :
    Container.bodyOff ≤ protoBe32 rq.body 0 ∧
      protoBe32 rq.body 0 ≤ Slots.slotSize ∧
      ∃ memory run text, (bkUpdBegin w rq uid bk).1.upd =
        { state := .staging, uid := uid, tok := rq.session
          buf := some memory, total := protoBe32 rq.body 0, received := 0
          last := w.startedAt, dest := some run, version := 0
          lastResult := text } := by
  unfold bkUpdBegin at accepted ⊢
  dsimp only at accepted ⊢
  cases handoff : updHandoff w.boot with
  | none =>
      rw [handoff] at accepted
      cases accepted
  | some running =>
      obtain ⟨run, ver⟩ := running
      rw [handoff] at accepted
      dsimp only at accepted ⊢
      split_ifs at accepted ⊢ with badlen large small busy
      · cases accepted
      · cases accepted
      · cases accepted
      · cases accepted
      · refine ⟨by omega, by omega, ?_⟩
        unfold updStart at accepted ⊢
        cases given : w.memory with
        | none =>
            rw [given] at accepted
            cases accepted
        | some memory =>
            exact ⟨memory, run.other, _, rfl⟩

theorem Staging.begin (staging : Staging bk.upd log) (w : BeginWorld)
    (rq : Req) (uid : Nat)
    (refused : (bkUpdBegin w rq uid bk).2.status ≠ .ok) :
    Staging (bkUpdBegin w rq uid bk).1.upd log := by
  have swept := staging.sweep w.sweep
  unfold bkUpdBegin at refused ⊢
  dsimp only at refused ⊢
  cases handoff : updHandoff w.boot with
  | none => exact swept.refuse _ _
  | some running =>
      rw [handoff] at refused
      dsimp only at refused ⊢
      split_ifs at refused ⊢
      · exact swept.refuse _ _
      · exact swept.refuse _ _
      · exact swept.refuse _ _
      · exact swept.refuse _ _
      · unfold updStart at refused ⊢
        cases given : w.memory with
        | none => exact (Staging.discard _ _).refuse _ _
        | some memory =>
            rw [given] at refused
            exact absurd rfl refused

/-! ## Data -/

/-- What makes a piece of the owner's bad: too short to hold a byte, not the
next one, or past the total. -/
def BadPiece (u : Upd) (rq : Req) : Prop :=
  rq.body.length < 5 ∨ protoBe32 rq.body 0 ≠ u.received ∨
    rq.body.length - 4 > u.left

/-- An accepted DATA is the owner's next piece, and is taken. -/
theorem bkUpdData_ok {w : DataWorld} {rq : Req} {uid : Nat}
    (accepted : (bkUpdData w rq uid bk).2.status = .ok) :
    bk.upd.state = .staging ∧ updOwner bk.upd rq uid = true ∧
      ¬ BadPiece bk.upd rq ∧
      (bkUpdData w rq uid bk).1.upd =
        bk.upd.take (rq.body.drop 4) w.takenAt := by
  unfold bkUpdData at accepted ⊢
  dsimp only at accepted ⊢
  split_ifs at accepted ⊢ with absent other poisoned short bad
  · cases accepted
  · cases accepted
  · cases accepted
  · cases accepted
  · cases accepted
  · have same := upd_eq_of_sweep absent
    rw [same] at absent other poisoned bad ⊢
    rw [not_or, not_not] at other
    have staging : bk.upd.state = .staging := by
      cases state : bk.upd.state with
      | none => exact absurd state absent
      | staging => rfl
      | poisoned => exact absurd state poisoned
      | verified => exact absurd state other.2
    refine ⟨staging, other.1, ?_, rfl⟩
    rintro (short' | bad')
    · exact short short'
    · exact bad bad'

/-- A DATA that is not accepted leaves the staging as it was, swept or
poisoned. -/
theorem Staging.data (staging : Staging bk.upd log) (w : DataWorld) (rq : Req)
    (uid : Nat) (refused : (bkUpdData w rq uid bk).2.status ≠ .ok) :
    Staging (bkUpdData w rq uid bk).1.upd log := by
  have swept := staging.sweep w.sweep
  unfold bkUpdData at refused ⊢
  dsimp only at refused ⊢
  split_ifs at refused ⊢
  · exact swept.refuse _ _
  · exact swept.refuse _ _
  · exact swept.refuse _ _
  · exact swept.poison.refuse _ _
  · exact swept.poison.refuse _ _
  · exact absurd rfl refused

/-- Taking the owner's next piece appends it to what was sent. -/
theorem Staging.take (staging : Staging u log) (inProgress : u.state = .staging)
    {rq : Req} (good : ¬ BadPiece u rq) (now : Nat) :
    Staging (u.take (rq.body.drop 4) now)
      (log ++ [.taken u.uid u.tok (rq.body.drop 4)]) := by
  have fits := staging.received_le
  have small := staging.total_le
  have slot : Slots.slotSize = 0x120000 := rfl
  have left : u.left = u.total - u.received := by
    unfold Upd.left
    omega
  have length : (rq.body.drop 4).length = rq.body.length - 4 :=
    List.length_drop
  have room : (rq.body.drop 4).length ≤ u.total - u.received := by
    by_contra beyond
    exact good (Or.inr (Or.inr (by omega)))
  refine ⟨?_, staging.total_le, ?_, ?_, ?_⟩
  · change u.received + (rq.body.drop 4).length ≤ u.total
    omega
  · simpa [Upd.take] using staging.held
  · intro buf found
    simp only [Upd.take, Option.map_eq_some_iff] at found
    obtain ⟨before, held, rfl⟩ := found
    have sent := staging.pieces before held
    change sinceBegin u.uid u.tok _ = some (u.total, _)
    rw [sinceBegin_taken, sent]
    simp only [Option.map_some, Option.some.injEq, Prod.mk.injEq, true_and]
    exact (blit_slice before u.received (rq.body.drop 4)).symm
  · intro verified
    change u.state = .verified at verified
    rw [inProgress] at verified
    cases verified

/-! ## End -/

section End

variable (ed25519 : SignatureCheck) (pk : List UInt8)

/-- What END verifies is whole, and of the total it names. -/
theorem endVerdict_ok {w : EndWorld} {total : Nat} {dest : SlotName}
    {version : Nat}
    (passed : endVerdict ed25519 pk w u total = .ok (dest, version)) :
    u.state ≠ .poisoned ∧ u.received = u.total ∧ total = u.total ∧
      ∃ upload, u.buf = some upload := by
  unfold endVerdict at passed
  split_ifs at passed with poisoned incomplete
  rw [not_or, not_not, not_not] at incomplete
  refine ⟨poisoned, incomplete.1, incomplete.2, ?_⟩
  cases held : u.buf with
  | some upload => exact ⟨upload, rfl⟩
  | none =>
      rw [held] at passed
      cases handoff : updHandoff w.boot with
      | none =>
          rw [handoff] at passed
          cases passed
      | some running =>
          rw [handoff] at passed
          cases passed

theorem endCounter_error {w : EndWorld} {ver : Nat} {fault : EndFault}
    (failed : endCounter w ver = .error fault) : fault.1 ≠ .ok := by
  unfold endCounter at failed
  cases read : w.bitmap with
  | none =>
      rw [read] at failed
      cases failed
      nofun
  | some bm =>
      rw [read] at failed
      dsimp only at failed
      split_ifs at failed
      cases failed
      nofun

theorem endChosen_error {sa sb : Slots.Verdict} {run : SlotName} {ver : Nat}
    {fault : EndFault} (failed : endChosen sa sb run ver = .error fault) :
    fault.1 ≠ .ok := by
  unfold endChosen at failed
  split at failed
  · cases failed
    nofun
  · dsimp only at failed
    split_ifs at failed
    all_goals
      cases failed
      nofun

theorem endRunning_error {w : EndWorld} {e : Container.Env} {run : SlotName}
    {ver : Nat} {fault : EndFault}
    (failed : endRunning ed25519 w e run ver = .error fault) :
    fault.1 ≠ .ok := by
  unfold endRunning at failed
  split at failed
  · cases failed
    nofun
  · split at failed
    · exact endChosen_error failed
    · cases failed
      nofun

theorem endAccept_error {ur : Container.Rlxu} {total : Nat} {dest : SlotName}
    {running : Slots.Verdict} {fault : EndFault}
    (failed : endAccept ur total dest running = .error fault) :
    fault.1 ≠ .ok := by
  unfold endAccept at failed
  split_ifs at failed
  all_goals
    cases failed
    nofun

/-- No refusal of END answers OK. -/
theorem endVerdict_error {w : EndWorld} {total : Nat} {fault : EndFault}
    (failed : endVerdict ed25519 pk w u total = .error fault) :
    fault.1 ≠ .ok := by
  unfold endVerdict at failed
  split_ifs at failed
  · cases failed
    nofun
  · cases failed
    nofun
  · split at failed
    · cases failed
      nofun
    · cases failed
      nofun
    · rename_i run ver upload _ _
      cases counter : endCounter w ver with
      | error fault' =>
          rw [counter] at failed
          cases failed
          exact endCounter_error counter
      | ok ctr =>
          rw [counter] at failed
          cases running : endRunning ed25519 w (updEnv pk ctr) run ver with
          | error fault' =>
              simp only [bind, Except.bind, running] at failed
              cases failed
              exact endRunning_error ed25519 running
          | ok chosen =>
              cases version : endUpload ed25519 upload u.total (updEnv pk ctr)
                  run.other chosen with
              | error fault' =>
                  simp only [bind, Except.bind, running, version] at failed
                  cases failed
                  exact endAccept_error version
              | ok passed =>
                  simp only [bind, Except.bind, running, version] at failed
                  cases failed

theorem endBody_isSome (dest : SlotName) (version : Nat) :
    ∃ body, endBody dest version = some body := by
  cases dest <;> exact ⟨_, rfl⟩

/-- The staging of an END that answers OK. -/
def Upd.verifiedAs (u : Upd) (dest : SlotName) (version : Nat) : Upd :=
  { u with
    state := .verified, dest := some dest, version := version
    lastResult := okText dest version }

/-- An END that answers OK is the owner's, on a staging that passed every step,
which now waits for the reply. -/
theorem bkUpdEnd_ok {w : EndWorld} {rq : Req} {uid : Nat}
    (accepted : (bkUpdEnd ed25519 pk w rq uid bk).2.status = .ok) :
    bk.upd.state = .staging ∧ updOwner bk.upd rq uid = true ∧
      ∃ dest version,
        endVerdict ed25519 pk w bk.upd (protoBe32 rq.body 0) =
          .ok (dest, version) ∧
        (bkUpdEnd ed25519 pk w rq uid bk).1.upd =
          bk.upd.verifiedAs dest version ∧
        (bkUpdEnd ed25519 pk w rq uid bk).1.pendingUpdate = true ∧
        some (bkUpdEnd ed25519 pk w rq uid bk).2.body =
          endBody dest version := by
  unfold bkUpdEnd at accepted ⊢
  dsimp only at accepted ⊢
  split_ifs at accepted ⊢ with absent other badlen
  · cases accepted
  · cases accepted
  · cases accepted
  · have same := upd_eq_of_sweep absent
    rw [same] at absent other ⊢
    rw [not_or, not_not] at other
    cases verdict : endVerdict ed25519 pk w bk.upd (protoBe32 rq.body 0) with
    | error fault =>
        rw [same, verdict] at accepted
        exact absurd accepted (endVerdict_error ed25519 pk verdict)
    | ok passed =>
        obtain ⟨dest, version⟩ := passed
        have whole := endVerdict_ok ed25519 pk verdict
        have staging : bk.upd.state = .staging := by
          cases state : bk.upd.state with
          | none => exact absurd state absent
          | staging => rfl
          | poisoned => exact absurd state whole.1
          | verified => exact absurd state other.2
        obtain ⟨body, formed⟩ := endBody_isSome dest version
        refine ⟨staging, other.1, dest, version, rfl, ?_⟩
        unfold updVerified
        dsimp only
        rw [formed]
        exact ⟨by rw [same]; rfl, rfl, rfl⟩

/-- An END that answers OK has a whole staging wait for its reply. -/
theorem Staging.verified (staging : Staging u log) (whole : u.received = u.total)
    (inProgress : u.state = .staging) (dest : SlotName) (version : Nat) :
    Staging (u.verifiedAs dest version) log where
  received_le := staging.received_le
  total_le := staging.total_le
  held := by simpa [Upd.verifiedAs, inProgress] using staging.held
  pieces := staging.pieces
  whole _ := whole

/-- An END that does not answer OK leaves the staging as it was or nothing. -/
theorem Staging.refusedEnd (staging : Staging bk.upd log) (w : EndWorld)
    (rq : Req) (uid : Nat)
    (refused : (bkUpdEnd ed25519 pk w rq uid bk).2.status ≠ .ok) :
    Staging (bkUpdEnd ed25519 pk w rq uid bk).1.upd log := by
  have swept := staging.sweep w.sweep
  unfold bkUpdEnd at refused ⊢
  dsimp only at refused ⊢
  split_ifs at refused ⊢
  · exact swept.refuse _ _
  · exact swept.refuse _ _
  · exact (Staging.discard _ _).refuse _ _
  · cases verdict : endVerdict ed25519 pk w (bkUpdSweep w.sweep bk).upd
        (protoBe32 rq.body 0) with
    | error fault => exact (Staging.discard _ _).refuse _ _
    | ok passed =>
        obtain ⟨dest, version⟩ := passed
        obtain ⟨body, formed⟩ := endBody_isSome dest version
        rw [verdict] at refused
        unfold updVerified at refused
        dsimp only at refused
        rw [formed] at refused
        exact absurd rfl refused

theorem Staging.end (staging : Staging bk.upd log) (w : EndWorld) (rq : Req)
    (uid : Nat) : Staging (bkUpdEnd ed25519 pk w rq uid bk).1.upd log := by
  by_cases accepted : (bkUpdEnd ed25519 pk w rq uid bk).2.status = .ok
  · obtain ⟨inProgress, -, dest, version, passed, after, -⟩ :=
      bkUpdEnd_ok ed25519 pk accepted
    rw [after]
    exact staging.verified (endVerdict_ok ed25519 pk passed).2.1 inProgress dest
      version
  · exact staging.refusedEnd ed25519 pk w rq uid accepted

end End

/-- After a reply nothing is staged, or what was staged and not verified. -/
theorem bkUpdAfterReply_cases (delivered installed : Bool) (bk : State) :
    (bk.upd.state ≠ .verified ∧
      bkUpdAfterReply delivered installed bk =
        ({ bk with pendingUpdate := false }, none)) ∨
    (bk.upd.state = .verified ∧
      (∃ text, (bkUpdAfterReply delivered installed bk).1 =
        { bk with pendingUpdate := false, upd := .empty text }) ∧
      (bkUpdAfterReply delivered installed bk).2 =
        if delivered then some bk.upd else none) := by
  unfold bkUpdAfterReply
  by_cases verified : bk.upd.state = .verified
  · right
    refine ⟨verified, ?_⟩
    cases delivered <;> cases installed <;> simp [verified] <;>
      exact ⟨_, rfl⟩
  · left
    exact ⟨verified, if_pos verified⟩

theorem Staging.afterReply (staging : Staging bk.upd log)
    (delivered installed : Bool) :
    Staging (bkUpdAfterReply delivered installed bk).1.upd log := by
  rcases bkUpdAfterReply_cases delivered installed bk with
    ⟨-, same⟩ | ⟨-, ⟨text, same⟩, -⟩
  · rw [same]
    exact staging
  · rw [same]
    exact staging_empty _ _

/-! ## Runs -/

/-- What can happen to the staging: a request of a peer, a sweep, the end of the
reply to an END, and whatever else changes the sessions meanwhile. -/
inductive UpdEvent where
  | begin (w : BeginWorld) (rq : Req) (uid : Nat)
  | data (w : DataWorld) (rq : Req) (uid : Nat)
  | finish (w : EndWorld) (rq : Req) (uid : Nat)
  | sweep (times : SweepTimes)
  | afterReply (delivered installed : Bool)
  | sessions (sessions : Sessions)

/-- The broker, and the requests it answered OK. -/
structure UpdRun where
  bk : State
  log : List Entry

/-- At boot. -/
def UpdRun.init : UpdRun := { bk := .init, log := [] }

section Runs

variable (ed25519 : SignatureCheck) (pk : List UInt8)

def UpdRun.step (run : UpdRun) : UpdEvent → UpdRun
  | .begin w rq uid =>
      let answer := bkUpdBegin w rq uid run.bk
      { bk := answer.1
        log :=
          if answer.2.status = .ok then
            run.log ++ [.begun uid rq.session (protoBe32 rq.body 0)]
          else run.log }
  | .data w rq uid =>
      let answer := bkUpdData w rq uid run.bk
      { bk := answer.1
        log :=
          if answer.2.status = .ok then
            run.log ++ [.taken uid rq.session (rq.body.drop 4)]
          else run.log }
  | .finish w rq uid => { run with bk := (bkUpdEnd ed25519 pk w rq uid run.bk).1 }
  | .sweep times => { run with bk := bkUpdSweep times run.bk }
  | .afterReply delivered installed =>
      { run with bk := (bkUpdAfterReply delivered installed run.bk).1 }
  | .sessions sessions => { run with bk := { run.bk with sessions := sessions } }

variable {run : UpdRun}

theorem Staging.step (staging : Staging run.bk.upd run.log)
    (event : UpdEvent) :
    Staging (run.step ed25519 pk event).bk.upd
      (run.step ed25519 pk event).log := by
  cases event with
  | begin w rq uid =>
      simp only [UpdRun.step]
      split_ifs with accepted
      · obtain ⟨-, inSlot, memory, dest, text, started⟩ :=
          bkUpdBegin_ok accepted
        rw [started]
        refine ⟨Nat.zero_le _, inSlot, by simp, ?_, nofun⟩
        intro buf found
        exact sinceBegin_begun uid rq.session run.log _
      · exact staging.begin w rq uid accepted
  | data w rq uid =>
      simp only [UpdRun.step]
      split_ifs with accepted
      · obtain ⟨inProgress, owner, good, taken⟩ := bkUpdData_ok accepted
        obtain ⟨sameUid, sameTok⟩ := updOwner_iff.mp owner
        rw [taken, ← sameUid, ← sameTok]
        exact staging.take inProgress good w.takenAt
      · exact staging.data w rq uid accepted
  | finish w rq uid => exact staging.end ed25519 pk w rq uid
  | sweep times => exact staging.sweep times
  | afterReply delivered installed => exact staging.afterReply _ _
  | sessions sessions => exact staging

theorem Staging.runAll (staging : Staging run.bk.upd run.log)
    (events : List UpdEvent) :
    Staging (events.foldl (UpdRun.step ed25519 pk) run).bk.upd
      (events.foldl (UpdRun.step ed25519 pk) run).log := by
  induction events generalizing run with
  | nil => exact staging
  | cons event events ih => exact ih (staging.step ed25519 pk event)

/-! ## A transfer that went wrong -/

/-- Nothing is staged that an END could verify. -/
def Stuck (u : Upd) : Prop := u.state = .none ∨ u.state = .poisoned

theorem Stuck.sweep {bk : State} (stuck : Stuck bk.upd) (times : SweepTimes) :
    Stuck (bkUpdSweep times bk).upd := by
  rcases bkUpdSweep_upd times bk with same | gone
  · rw [same]
    exact stuck
  · rw [gone]
    exact Or.inl rfl

theorem Stuck.begin {bk : State} (stuck : Stuck bk.upd) {w : BeginWorld}
    {rq : Req} {uid : Nat}
    (refused : (bkUpdBegin w rq uid bk).2.status ≠ .ok) :
    Stuck (bkUpdBegin w rq uid bk).1.upd := by
  have swept := stuck.sweep w.sweep
  unfold bkUpdBegin at refused ⊢
  dsimp only at refused ⊢
  cases handoff : updHandoff w.boot with
  | none => exact swept
  | some running =>
      rw [handoff] at refused
      dsimp only at refused ⊢
      split_ifs at refused ⊢
      · exact swept
      · exact swept
      · exact swept
      · exact swept
      · unfold updStart at refused ⊢
        cases given : w.memory with
        | none => exact Or.inl rfl
        | some memory =>
            rw [given] at refused
            exact absurd rfl refused

theorem Stuck.data {bk : State} (stuck : Stuck bk.upd) (w : DataWorld)
    (rq : Req) (uid : Nat) : Stuck (bkUpdData w rq uid bk).1.upd := by
  have swept := stuck.sweep w.sweep
  unfold bkUpdData
  dsimp only
  split_ifs with absent other poisoned short bad
  · exact swept
  · exact swept
  · exact swept
  · exact Or.inr rfl
  · exact Or.inr rfl
  · exact absurd swept (not_or_intro absent poisoned)

theorem Stuck.end {bk : State} (stuck : Stuck bk.upd) (w : EndWorld) (rq : Req)
    (uid : Nat) :
    Stuck (bkUpdEnd ed25519 pk w rq uid bk).1.upd ∧
      (bkUpdEnd ed25519 pk w rq uid bk).2.status ≠ .ok := by
  have swept := stuck.sweep w.sweep
  have notOk : (bkUpdEnd ed25519 pk w rq uid bk).2.status ≠ .ok := by
    intro accepted
    have inProgress := (bkUpdEnd_ok ed25519 pk accepted).1
    rcases stuck with absent | poisoned
    · rw [inProgress] at absent
      cases absent
    · rw [inProgress] at poisoned
      cases poisoned
  refine ⟨?_, notOk⟩
  unfold bkUpdEnd at notOk ⊢
  dsimp only at notOk ⊢
  split_ifs at notOk ⊢
  · exact swept
  · exact swept
  · exact Or.inl rfl
  · cases verdict : endVerdict ed25519 pk w (bkUpdSweep w.sweep bk).upd
        (protoBe32 rq.body 0) with
    | error fault => exact Or.inl rfl
    | ok passed =>
        obtain ⟨dest, version⟩ := passed
        obtain ⟨body, formed⟩ := endBody_isSome dest version
        rw [verdict] at notOk
        unfold updVerified at notOk
        dsimp only at notOk
        rw [formed] at notOk
        exact absurd rfl notOk

/-- No BEGIN of a run is accepted. -/
def NoBegin : UpdRun → List UpdEvent → Prop
  | _, [] => True
  | run, event :: events =>
      (match event with
        | .begin w rq uid => (bkUpdBegin w rq uid run.bk).2.status ≠ .ok
        | _ => True) ∧
      NoBegin (run.step ed25519 pk event) events

theorem Stuck.step (stuck : Stuck run.bk.upd) {event : UpdEvent}
    (noBegin : NoBegin ed25519 pk run [event]) :
    Stuck (run.step ed25519 pk event).bk.upd := by
  cases event with
  | begin w rq uid => exact stuck.begin noBegin.1
  | data w rq uid => exact stuck.data w rq uid
  | finish w rq uid => exact (stuck.end ed25519 pk w rq uid).1
  | sweep times => exact stuck.sweep times
  | afterReply delivered installed =>
      simp only [UpdRun.step]
      rcases bkUpdAfterReply_cases delivered installed run.bk with
        ⟨-, same⟩ | ⟨-, ⟨text, same⟩, -⟩
      · rw [same]
        exact stuck
      · rw [same]
        exact Or.inl rfl
  | sessions sessions => exact stuck

theorem Stuck.runAll (stuck : Stuck run.bk.upd) {events : List UpdEvent}
    (noBegin : NoBegin ed25519 pk run events) :
    Stuck (events.foldl (UpdRun.step ed25519 pk) run).bk.upd := by
  induction events generalizing run with
  | nil => exact stuck
  | cons event events ih =>
      exact ih (stuck.step ed25519 pk ⟨noBegin.1, trivial⟩) noBegin.2

/-- A bad piece of the owner's leaves its transfer stuck. -/
theorem stuck_of_badPiece {bk : State} {w : DataWorld} {rq : Req} {uid : Nat}
    (inProgress : bk.upd.state = .staging)
    (owner : updOwner bk.upd rq uid = true) (bad : BadPiece bk.upd rq) :
    Stuck (bkUpdData w rq uid bk).1.upd := by
  unfold bkUpdData
  dsimp only
  split_ifs with absent other poisoned short wrong
  · exact Or.inl absent
  · rw [upd_eq_of_sweep absent, owner, inProgress] at other
    simp at other
  · exact Or.inr poisoned
  · exact Or.inr rfl
  · exact Or.inr rfl
  · rw [upd_eq_of_sweep absent] at wrong
    exact absurd bad (not_or_intro short wrong)

/-! ## The staging of a run -/

/-- The buffer holds the whole of what an owner announced and sent. -/
def HoldsUpload (u : Upd) (uid : Nat) (tok : Token) (log : List Entry) : Prop :=
  ∃ buf bytes, u.buf = some buf ∧
    sinceBegin uid tok log = some (u.total, bytes) ∧
    bytes.length = u.total ∧ buf.slice 0 u.total = bytes

theorem Staging.holdsUpload {u : Upd} {log : List Entry}
    (staging : Staging u log) (active : u.state = .staging ∨ u.state = .verified)
    (whole : u.received = u.total) : HoldsUpload u u.uid u.tok log := by
  obtain ⟨buf, found⟩ := Option.isSome_iff_exists.mp (staging.held.mpr active)
  have sent := staging.pieces buf found
  rw [whole] at sent
  exact ⟨buf, _, found, sent, ByteMap.slice_length _ _ _, rfl⟩

/-- In every reachable state no more is received than announced, no more
announced than a slot holds, and a buffer is held exactly in the two states that
need one.  An END answers OK, and an install runs, only on a buffer whose bytes
are the pieces taken from its owner since it began, of exactly the announced
total; and a bad piece keeps any END from answering OK until a BEGIN is
accepted. -/
theorem staged_bytes_are_pieces (events : List UpdEvent) :
    let run := events.foldl (UpdRun.step ed25519 pk) .init
    run.bk.upd.received ≤ run.bk.upd.total ∧
    run.bk.upd.total ≤ Slots.slotSize ∧
    (run.bk.upd.buf.isSome ↔
      run.bk.upd.state = .staging ∨ run.bk.upd.state = .verified) ∧
    (∀ w rq uid, (bkUpdEnd ed25519 pk w rq uid run.bk).2.status = .ok →
      HoldsUpload (bkUpdEnd ed25519 pk w rq uid run.bk).1.upd uid rq.session
        run.log ∧
      protoBe32 rq.body 0 =
        (bkUpdEnd ed25519 pk w rq uid run.bk).1.upd.total) ∧
    (∀ delivered installed u,
      (bkUpdAfterReply delivered installed run.bk).2 = some u →
        HoldsUpload u u.uid u.tok run.log) ∧
    ∀ w rq uid, run.bk.upd.state = .staging →
      updOwner run.bk.upd rq uid = true → BadPiece run.bk.upd rq →
        let bad := run.step ed25519 pk (.data w rq uid)
        ∀ later, NoBegin ed25519 pk bad later → ∀ w' rq' uid',
          (bkUpdEnd ed25519 pk w' rq' uid'
            (later.foldl (UpdRun.step ed25519 pk) bad).bk).2.status ≠ .ok := by
  have boot : Staging UpdRun.init.bk.upd UpdRun.init.log := staging_empty [] []
  have staging := boot.runAll ed25519 pk events
  refine ⟨staging.received_le, staging.total_le, staging.held, ?_, ?_, ?_⟩
  · intro w rq uid accepted
    obtain ⟨inProgress, owner, dest, version, passed, after, -⟩ :=
      bkUpdEnd_ok ed25519 pk accepted
    obtain ⟨-, whole, total, -⟩ := endVerdict_ok ed25519 pk passed
    obtain ⟨sameUid, sameTok⟩ := updOwner_iff.mp owner
    rw [after, ← sameUid, ← sameTok]
    exact ⟨staging.holdsUpload (Or.inl inProgress) whole, total⟩
  · intro delivered installed u ran
    rcases bkUpdAfterReply_cases delivered installed
        (events.foldl (UpdRun.step ed25519 pk) .init).bk with
      ⟨-, same⟩ | ⟨verified, -, result⟩
    · rw [same] at ran
      cases ran
    · rw [result] at ran
      split_ifs at ran
      cases ran
      exact staging.holdsUpload (Or.inr verified) (staging.whole verified)
  · intro w rq uid inProgress owner wrong bad later noBegin w' rq' uid'
    have stuck : Stuck ((events.foldl (UpdRun.step ed25519 pk) .init).step
        ed25519 pk (.data w rq uid)).bk.upd :=
      stuck_of_badPiece inProgress owner wrong
    exact ((stuck.runAll ed25519 pk noBegin).end ed25519 pk w' rq' uid').2

end Runs

end RlxFw.Broker
