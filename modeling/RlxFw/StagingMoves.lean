import RlxFw.Dispatch
import RlxFw.UpdateStaging

/-!
# What a request does to the staging

Three operations can touch the one staging, and only END can arm the install.
A staging that is verified waits for its reply: every request leaves it alone.
-/

namespace RlxFw.Broker

open CfgStore (Faults Medium)

/-- A staging without the text that STATUS shows. -/
def Upd.image (u : Upd) : Upd := { u with lastResult := [] }

@[simp]
theorem Upd.image_state (u : Upd) : u.image.state = u.state := rfl

theorem Upd.state_of_image {u v : Upd} (same : u.image = v.image) :
    u.state = v.state := by
  simpa using congrArg Upd.state same

/-! ## The other operations -/

/-- The staging and the install's flag are left as they were. -/
structure KeepsStaging (bk after : State) : Prop where
  upd : after.upd = bk.upd
  flag : after.pendingUpdate = bk.pendingUpdate

namespace KeepsStaging

variable {bk mid after : State}

theorem refl (bk : State) : KeepsStaging bk bk := ⟨rfl, rfl⟩

theorem trans (first : KeepsStaging bk mid) (second : KeepsStaging mid after) :
    KeepsStaging bk after :=
  ⟨second.upd.trans first.upd, second.flag.trans first.flag⟩

theorem entropyReady (avail : Option Nat) (bk : State) :
    KeepsStaging bk (bkEntropyReady avail bk) := by
  unfold bkEntropyReady
  split
  · exact refl bk
  · cases avail <;> exact ⟨rfl, rfl⟩

theorem commitCfg (faults : Faults) (work : CfgStore.Cfg) (bk : State) (m : Medium) :
    KeepsStaging bk (commitCfg faults work bk m).bk := by
  unfold Broker.commitCfg
  dsimp only
  split <;> exact ⟨rfl, rfl⟩

theorem opSet (faults : Faults) (rq : Req) (uid : Nat) (bk : State) (m : Medium) :
    KeepsStaging bk (opSet faults rq uid bk m).bk := by
  unfold Broker.opSet
  split
  · exact refl bk
  · exact commitCfg faults _ bk m

theorem opStatus (avail : Option Nat) (w : ProcWorld) (full : Bool) (bk : State) :
    KeepsStaging bk (opStatus avail w full bk).1 := by
  unfold Broker.opStatus
  dsimp only
  split <;> exact entropyReady avail bk

/-- A bucket counted is no change to the staging. -/
theorem withBuckets (rl : Buckets) (kept : KeepsStaging { bk with rl } after) :
    KeepsStaging bk after := ⟨kept.upd, kept.flag⟩

theorem loginSession (w : LoginWorld) (bk : State) :
    KeepsStaging bk (loginSession w bk).1 := by
  unfold Broker.loginSession
  dsimp only
  split <;> exact ⟨rfl, rfl⟩

theorem loginChecked (w : LoginWorld) (rq : Req) (uid : Nat) (cip : UInt32) (bk : State) :
    KeepsStaging bk (loginChecked w rq uid cip bk).1 := by
  unfold Broker.loginChecked
  split
  · exact refl bk
  · split
    · exact refl bk
    · split
      · exact refl bk
      · split
        · exact refl bk
        · split
          · dsimp only
            split
            · exact refl bk
            · exact ⟨rfl, rfl⟩
          · split
            · exact loginSession w bk
            · exact withBuckets _ (loginSession w _)

theorem opLogin (avail : Option Nat) (w : LoginWorld) (rq : Req) (uid : Nat) (cip : UInt32)
    (bk : State) : KeepsStaging bk (opLogin avail w rq uid cip bk).1 := by
  have ready := entropyReady avail bk
  unfold Broker.opLogin
  dsimp only
  split
  · exact refl bk
  · split
    · exact ready
    · split
      · exact ready.trans (loginChecked w rq uid cip _)
      · split
        · exact ready.trans ⟨rfl, rfl⟩
        · exact ready.trans (withBuckets _ (loginChecked w rq uid cip _))

theorem opLogout (findAgainAt : Nat) (rq : Req) (uid : Nat) (sess : Option (Fin nsess))
    (bk : State) : KeepsStaging bk (opLogout findAgainAt rq uid sess bk).1 := by
  unfold Broker.opLogout
  split
  · exact refl bk
  · exact ⟨rfl, rfl⟩

theorem opPwset (avail : Option Nat) (w : PwsetWorld) (rq : Req) (uid : Nat) (bk : State)
    (m : Medium) : KeepsStaging bk (opPwset avail w rq uid bk m).bk := by
  have ready := entropyReady avail bk
  unfold Broker.opPwset
  dsimp only
  split
  · exact ready
  · split
    · exact ready
    · split
      · exact ready
      · split
        · exact ready
        · split
          · exact ready
          · next work _ =>
            have stored := ready.trans (commitCfg w.store work (bkEntropyReady avail bk) m)
            split
            · exact ⟨stored.upd, stored.flag⟩
            · exact stored

theorem reload (faults : Faults) (m : Medium) (bk : State) :
    KeepsStaging bk (bkReload faults m bk) := ⟨rfl, rfl⟩

end KeepsStaging

/-! ## The update's operations -/

/-- The flag is left alone, and of the staging all but the text of STATUS, unless
it is verified neither before nor after. -/
structure SparesStaging (bk after : State) : Prop where
  flag : after.pendingUpdate = bk.pendingUpdate
  staged : after.upd.image = bk.upd.image ∨
    bk.upd.state ≠ .verified ∧ after.upd.state ≠ .verified

namespace SparesStaging

variable {bk mid after : State}

theorem of_keeps (keeps : KeepsStaging bk after) : SparesStaging bk after :=
  ⟨keeps.flag, .inl (congrArg Upd.image keeps.upd)⟩

theorem refl (bk : State) : SparesStaging bk bk := of_keeps (.refl bk)

theorem verified_iff (spares : SparesStaging bk after) :
    after.upd.state = .verified ↔ bk.upd.state = .verified := by
  rcases spares.staged with same | ⟨was, is⟩
  · rw [Upd.state_of_image same]
  · simp [was, is]

theorem trans (first : SparesStaging bk mid) (second : SparesStaging mid after) :
    SparesStaging bk after := by
  refine ⟨second.flag.trans first.flag, ?_⟩
  rcases second.staged with later | ⟨was, is⟩
  · rcases first.staged with sooner | ⟨was, is⟩
    · exact .inl (later.trans sooner)
    · exact .inr ⟨was, Upd.state_of_image later ▸ is⟩
  · exact .inr ⟨fun verified => was (first.verified_iff.mpr verified), is⟩

/-- A staging that is not verified may become another that is not. -/
theorem unverified (flag : after.pendingUpdate = bk.pendingUpdate)
    (was : bk.upd.state ≠ .verified) (is : after.upd.state ≠ .verified) :
    SparesStaging bk after := ⟨flag, .inr ⟨was, is⟩⟩

theorem refuse (bk : State) (st : Status) (why : UpdReason) :
    SparesStaging bk (updRefuse bk st why).1 := ⟨rfl, .inl rfl⟩

theorem endRefuse (was : bk.upd.state ≠ .verified) (st : Status) (why : UpdReason) :
    SparesStaging bk (updEndRefuse bk st why).1 :=
  unverified rfl was nofun

theorem sweep (times : SweepTimes) (bk : State) :
    SparesStaging bk (bkUpdSweep times bk) := by
  unfold bkUpdSweep
  dsimp only
  split
  · exact refl bk
  · next waits =>
    have was : bk.upd.state ≠ .verified := by
      intro verified
      simp [verified] at waits
    split
    · exact unverified rfl was nofun
    · split
      · split
        · exact unverified rfl was nofun
        · exact of_keeps ⟨rfl, rfl⟩
      · exact refl bk

theorem start (w : BeginWorld) (rq : Req) (uid total : Nat) (run : SlotName)
    (was : bk.upd.state ≠ .verified) :
    SparesStaging bk (updStart w rq uid total run bk).1 := by
  unfold updStart
  dsimp only
  split
  · exact unverified rfl was nofun
  · split
    · exact unverified rfl was nofun
    · exact unverified rfl was nofun

theorem begin (w : BeginWorld) (rq : Req) (uid : Nat) (bk : State) :
    SparesStaging bk (bkUpdBegin w rq uid bk).1 := by
  have swept := sweep w.sweep bk
  apply swept.trans
  unfold bkUpdBegin
  dsimp only
  split
  · exact refuse _ _ _
  · split
    · exact refuse _ _ _
    · split
      · exact refuse _ _ _
      · split
        · exact refuse _ _ _
        · split
          · exact refuse _ _ _
          · next free => exact start w rq uid _ _ (not_or.mp free).1

theorem data (w : DataWorld) (rq : Req) (uid : Nat) (bk : State) :
    SparesStaging bk (bkUpdData w rq uid bk).1 := by
  have swept := sweep w.sweep bk
  apply swept.trans
  unfold bkUpdData
  dsimp only
  split
  · exact refuse _ _ _
  · split
    · exact refuse _ _ _
    · next mine =>
      have was := (not_or.mp mine).2
      have poisoned : SparesStaging (bkUpdSweep w.sweep bk) (updPoison (bkUpdSweep w.sweep bk)) :=
        unverified rfl was nofun
      split
      · exact refuse _ _ _
      · split
        · exact poisoned.trans (refuse _ _ _)
        · split
          · exact poisoned.trans (refuse _ _ _)
          · split
            · exact unverified rfl was nofun
            · exact unverified rfl was was

end SparesStaging

/-- An END that answers OK, and asks for the install of what it verified. -/
structure Verifies (bk after : State) (st : Status) : Prop where
  was : bk.upd.state ≠ .verified
  is : after.upd.state = .verified
  flag : after.pendingUpdate = true
  ok : st = .ok

theorem bkUpdEnd_moves (ed25519 : Container.SignatureCheck) (pk : List UInt8) (w : EndWorld)
    (rq : Req) (uid : Nat) (bk : State) :
    SparesStaging bk (bkUpdEnd ed25519 pk w rq uid bk).1 ∨
      Verifies bk (bkUpdEnd ed25519 pk w rq uid bk).1
        (bkUpdEnd ed25519 pk w rq uid bk).2.status := by
  have swept := SparesStaging.sweep w.sweep bk
  unfold bkUpdEnd
  dsimp only
  split
  · exact .inl (swept.trans (.refuse _ _ _))
  · split
    · exact .inl (swept.trans (.refuse _ _ _))
    · next mine =>
      have was := (not_or.mp mine).2
      split
      · exact .inl (swept.trans (.endRefuse was _ _))
      · split
        · exact .inl (swept.trans (.endRefuse was _ _))
        · next dest version _ =>
          obtain ⟨body, formed⟩ := endBody_isSome dest version
          unfold updVerified
          dsimp only
          rw [formed]
          exact .inr ⟨fun verified => was (swept.verified_iff.mpr verified), rfl, rfl, rfl⟩

/-! ## Every request -/

/-- What a request leaves of the staging. -/
def StagingMoves (bk after : State) (st : Status) : Prop :=
  SparesStaging bk after ∨ Verifies bk after st

namespace StagingMoves

variable {bk mid after : State} {st : Status}

theorem after_keeps (first : KeepsStaging bk mid) (moves : StagingMoves mid after st) :
    StagingMoves bk after st := by
  rcases moves with spares | verifies
  · exact .inl ((SparesStaging.of_keeps first).trans spares)
  · exact .inr ⟨first.upd ▸ verifies.was, verifies.is, verifies.flag, verifies.ok⟩

/-- Every handler leaves the staging so. -/
theorem handle (w : World) (rq : Req) (uid : Nat) (sess : Option (Fin nsess)) (bk : State)
    (m : Medium) :
    StagingMoves bk (handle w rq uid sess bk m).bk (handle w rq uid sess bk m).rs.status := by
  have kept : ∀ {after : State} {st : Status}, KeepsStaging bk after → StagingMoves bk after st :=
    fun keeps => .inl (.of_keeps keeps)
  refine handle_cases (fun handler => StagingMoves bk (handler bk m).bk
    (handler bk m).rs.status) ?_ ?_ ?_ ?_ ?_ ?_ ?_ ?_ ?_ ?_ ?_ ?_
  · exact fun _ => kept (.refl bk)
  · exact fun _ => kept (.opSet w.store rq uid bk m)
  · intro _
    dsimp only [onBroker]
    split <;> exact kept ⟨rfl, rfl⟩
  · intro _
    dsimp only [onBroker]
    split
    · exact kept (.refl bk)
    · exact kept (.opStatus w.entropy w.proc _ bk)
  · exact fun _ => kept (.refl bk)
  · exact fun _ => kept (.opLogin w.entropy w.login rq uid _ bk)
  · exact fun _ => kept (.opLogout w.findAgainAt rq uid sess bk)
  · exact fun _ => kept (.opPwset w.entropy w.pwset rq uid bk m)
  · exact fun _ => .inl (.begin w.begin rq uid bk)
  · exact fun _ => .inl (.data w.data rq uid bk)
  · exact fun _ => bkUpdEnd_moves w.ed25519 w.pk w.fin rq uid bk
  · exact kept (.refl bk)

/-- What reaches a handler has the staging as it was. -/
theorem keeps_gate (w : World) (rq : Req) (uid : Nat) (bk : State) (m : Medium) :
    match gate w rq uid bk m with
    | .refused after _ => KeepsStaging bk after
    | .passed after _ => KeepsStaging bk after := by
  unfold gate
  dsimp only
  split
  · next gated =>
    split at gated
    · cases gated
      exact .refl bk
    · split at gated
      · cases gated
        exact ⟨rfl, rfl⟩
      · cases gated
  · next gated =>
    split at gated
    · cases gated
    · split at gated
      · cases gated
      · cases gated
        exact ⟨rfl, rfl⟩

end StagingMoves

/-- Every request leaves the staging so. -/
theorem bkDispatch_moves (w : World) (rq : Req) (uid : Nat) (bk : State) (m : Medium) :
    StagingMoves bk (bkDispatch w rq uid bk m).bk (bkDispatch w rq uid bk m).rs.status := by
  have gated := StagingMoves.keeps_gate w rq uid bk m
  unfold bkDispatch
  cases found : gate w rq uid bk m with
  | refused after st =>
      rw [found] at gated
      exact .inl (.of_keeps gated)
  | passed after sess =>
      rw [found] at gated
      exact .after_keeps gated (.handle w rq uid sess after m)

end RlxFw.Broker
