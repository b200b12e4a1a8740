import RlxFw.HttpBuckets
import RlxFw.Reactor

/-!
# One password computation at a time

The parent of `src/httpd/serve.c`: its table of children, the one KDF grant and
what the children's messages, ends and forks do to both.  A child's end is what
the parent sees of it, an end of file or a reaped pid.
-/

namespace RlxFw.Httpd

/-- `HTTP_CONN_MAX`. -/
abbrev connMax : Nat := 8
/-- `SRV_PER_IP`. -/
def srvPerIp : Nat := 4
/-- `SRV_KDF_BUSY_S`. -/
def srvKdfBusyS : Nat := 2
/-- `SRV_ASK`. -/
def srvAsk : UInt8 := 0x4C
/-- `SRV_REL`. -/
def srvRel : UInt8 := 0x52

/-- `RL_KDF_BURST`. -/
def rlKdfBurst : Nat := 3
/-- `RL_KDF_RATE_MILLI`. -/
def rlKdfRateMilli : Nat := 250
/-- `RL_KDF_IP_BURST`. -/
def rlKdfIpBurst : Nat := 3
/-- `RL_KDF_IP_RATE`. -/
def rlKdfIpRate : Nat := 100
/-- `RL_CONN_BURST`. -/
def rlConnBurst : Nat := 32
/-- `RL_CONN_RATE_MILLI`. -/
def rlConnRateMilli : Nat := 16000
/-- `RL_CONN_IP_BURST`. -/
def rlConnIpBurst : Nat := 16
/-- `RL_CONN_IP_RATE`. -/
def rlConnIpRate : Nat := 8000

/-! ## The parent -/

/-- `struct kid`; a closed `fd` is `none`. -/
structure Kid where
  pid : Nat
  fd : Option Nat
  ip : UInt32
  holds : Bool
deriving DecidableEq, Repr

/-- `kids`. -/
abbrev Kids := Fin connMax → Kid

/-- A slot without a child. -/
def Kid.empty : Kid := { pid := 0, fd := none, ip := 0, holds := false }

/-- What the parent keeps. -/
structure Parent where
  kids : Kids
  kdfG : RlBucket
  kdfIp : RlTable
  connG : RlBucket
  connIp : RlTable

/-- `srv_loop` before its loop. -/
def Parent.init : Parent where
  kids := fun _ => .empty
  kdfG := rlInit rlKdfBurst rlKdfRateMilli
  kdfIp := rlTableInit rlKdfIpBurst rlKdfIpRate
  connG := rlInit rlConnBurst rlConnRateMilli
  connIp := rlTableInit rlConnIpBurst rlConnIpRate

/-! ## The grant -/

/-- `kdf_holder`. -/
def kdfHolder (kids : Kids) : Option (Fin connMax) :=
  (List.finRange connMax).find? fun i => (kids i).holds

/-- `srv_kdf_gone`. -/
def srvKdfGone (kids : Kids) (slot : Fin connMax) : Kids :=
  Function.update kids slot { kids slot with holds := false }

/-- What a child is told: yes or no, and when to come back. -/
structure Answer where
  yes : Bool
  retryS : Nat
deriving DecidableEq, Repr

/-- `srv_kdf_ask`, of a slot of the table. -/
def srvKdfAsk (p : Parent) (slot : Fin connMax) (ip : UInt32) (tMs : Nat) :
    Parent × Answer :=
  match kdfHolder p.kids with
  | some _ => (p, { yes := false, retryS := srvKdfBusyS })
  | none =>
      let byIp := rlTableTake p.kdfIp ip tMs
      let p := { p with kdfIp := byIp.1 }
      if ¬ byIp.2 then
        (p, { yes := false, retryS := rlTableRetryS p.kdfIp ip })
      else
        let global := rlTake p.kdfG tMs
        let p := { p with kdfG := global.1 }
        if ¬ global.2 then
          ({ p with kdfIp := rlTableRefund p.kdfIp ip },
            { yes := false, retryS := rlRetryS p.kdfG })
        else
          ({ p with
            kids := Function.update p.kids slot
              { p.kids slot with holds := true } },
            { yes := true, retryS := 0 })

/-! ## What the loop does -/

/-- `reap`, on a pid that `waitpid` returned. -/
def reap (kids : Kids) (pid : Nat) : Kids := fun i =>
  if pid ≠ 0 ∧ (kids i).pid = pid then .empty else kids i

/-- A child that was forked: its pid and the parent's end of its channel. -/
structure Forked where
  pid : Nat
  started : pid ≠ 0
  fd : Nat

/-- What happens to the parent. -/
inductive Event where
  /-- A channel is readable: a byte, or the end of it. -/
  | message (slot : Fin connMax) (byte : Option UInt8) (nowMs : Nat)
  /-- A child ended. -/
  | reaped (pid : Nat)
  /-- A peer connects, and a child is forked for it if that succeeds. -/
  | connection (ip : UInt32) (nowMs : Nat) (forked : Option Forked)

/-- An answer, and the slot it goes to. -/
abbrev Told := Fin connMax × Answer

/-- The loop's part for a readable channel. -/
def onMessage (p : Parent) (slot : Fin connMax) (byte : Option UInt8)
    (nowMs : Nat) : Parent × List Told :=
  match (p.kids slot).fd with
  | none => (p, [])
  | some _ =>
      match byte with
      | none =>
          let kids := srvKdfGone p.kids slot
          ({ p with
            kids := Function.update kids slot { kids slot with fd := none } }, [])
      | some c =>
          if c = srvRel then ({ p with kids := srvKdfGone p.kids slot }, [])
          else if c ≠ srvAsk then (p, [])
          else
            let asked := srvKdfAsk p slot (p.kids slot).ip nowMs
            (asked.1, [(slot, asked.2)])

/-- The loop's part for a connection. -/
def onConnection (p : Parent) (ip : UInt32) (nowMs : Nat)
    (forked : Option Forked) : Parent :=
  let sameIp := (List.finRange connMax).countP fun i =>
    (p.kids i).pid ≠ 0 ∧ (p.kids i).ip = ip
  match (List.finRange connMax).find? fun i => (p.kids i).pid = 0 with
  | none => p
  | some slot =>
      if sameIp ≥ srvPerIp then p
      else
        let byIp := rlTableTake p.connIp ip nowMs
        let p := { p with connIp := byIp.1 }
        if ¬ byIp.2 then p
        else
          let global := rlTake p.connG nowMs
          let p := { p with connG := global.1 }
          if ¬ global.2 then p
          else
            match forked with
            | none => p
            | some child =>
                let kids := Function.update p.kids slot
                  { p.kids slot with pid := child.pid, fd := child.fd, ip }
                { p with kids := srvKdfGone kids slot }

/-- `srv_loop`, an event at a time. -/
def srvLoop : Reactor Parent Event Told where
  step p
    | .message slot byte nowMs => onMessage p slot byte nowMs
    | .reaped pid => ({ p with kids := reap p.kids pid }, [])
    | .connection ip nowMs forked => (onConnection p ip nowMs forked, [])

/-! ## The invariant -/

/-- One holder at most, and none without a child that can be heard. -/
structure Granted (kids : Kids) : Prop where
  single : ∀ i j, (kids i).holds = true → (kids j).holds = true → i = j
  heard : ∀ i, (kids i).fd = none → (kids i).holds = false
  childless : ∀ i, (kids i).pid = 0 → (kids i).fd = none

/-- What holds of the parent between events. -/
structure Parent.Sound (p : Parent) : Prop where
  granted : Granted p.kids
  global : p.kdfG.Sound rlKdfBurst rlKdfRateMilli
  byIp : p.kdfIp.Sound rlKdfIpBurst rlKdfIpRate

namespace Granted

variable {kids : Kids}

/-- A slot may lose the grant, its channel and its child, or get new ones. -/
theorem set (granted : Granted kids) {slot : Fin connMax} {k : Kid}
    (kept : k.holds = true → (kids slot).holds = true)
    (heard : k.fd = none → k.holds = false)
    (childless : k.pid = 0 → k.fd = none) :
    Granted (Function.update kids slot k) := by
  have before (i : Fin connMax)
      (holds : (Function.update kids slot k i).holds = true) :
      (kids i).holds = true := by
    by_cases here : i = slot
    · subst here
      rw [Function.update_self] at holds
      exact kept holds
    · rwa [Function.update_of_ne here] at holds
  refine ⟨fun i j holdsI holdsJ =>
    granted.single i j (before i holdsI) (before j holdsJ), fun i => ?_,
    fun i => ?_⟩
  all_goals
    by_cases here : i = slot
    · subst here
      rw [Function.update_self]
      assumption
    · rw [Function.update_of_ne here]
      first
        | exact granted.heard i
        | exact granted.childless i

theorem gone (granted : Granted kids) (slot : Fin connMax) :
    Granted (srvKdfGone kids slot) :=
  granted.set nofun (fun _ => rfl) (granted.childless slot)

/-- The grant goes to a slot that is heard, when no slot holds it. -/
theorem give (granted : Granted kids) {slot : Fin connMax}
    (free : kdfHolder kids = none) (open_ : (kids slot).fd ≠ none) :
    Granted (Function.update kids slot { kids slot with holds := true }) := by
  have nobody (i : Fin connMax) : (kids i).holds = false := by
    simpa using List.find?_eq_none.mp free i (List.mem_finRange i)
  have only (i : Fin connMax)
      (holds : (Function.update kids slot { kids slot with holds := true }
        i).holds = true) : i = slot := by
    by_contra other
    rw [Function.update_of_ne other, nobody i] at holds
    cases holds
  refine ⟨fun i j holdsI holdsJ => (only i holdsI).trans (only j holdsJ).symm,
    fun i => ?_, fun i => ?_⟩
  all_goals
    by_cases here : i = slot
    · subst here
      rw [Function.update_self]
      first
        | exact fun closed => absurd closed open_
        | exact granted.childless i
    · rw [Function.update_of_ne here]
      first
        | exact granted.heard i
        | exact granted.childless i

theorem reap (granted : Granted kids) (pid : Nat) : Granted (reap kids pid) := by
  have holds_reap (i : Fin connMax) (holds : (Httpd.reap kids pid i).holds = true) :
      (kids i).holds = true := by
    unfold Httpd.reap at holds
    split at holds
    · cases holds
    · exact holds
  refine ⟨fun i j holdsI holdsJ =>
    granted.single i j (holds_reap i holdsI) (holds_reap j holdsJ), fun i => ?_,
    fun i => ?_⟩
  all_goals
    unfold Httpd.reap
    split
    · exact fun _ => rfl
    · first
      | exact granted.heard i
      | exact granted.childless i

end Granted

/-- How an ask ends: who had the grant, or which bucket refused, or granted. -/
theorem Parent.Sound.ask {p : Parent} (sound : p.Sound) {slot : Fin connMax}
    (open_ : (p.kids slot).fd ≠ none) (ip : UInt32) (tMs : Nat) :
    (srvKdfAsk p slot ip tMs).1.Sound := by
  obtain ⟨byIp, found, -, -⟩ := sound.byIp.take ip tMs
  have global := sound.global.take tMs
  unfold srvKdfAsk
  split
  · exact sound
  next free =>
  dsimp only
  split
  · exact ⟨sound.granted, sound.global, byIp⟩
  split
  · exact ⟨sound.granted, global, (byIp.refund found).1⟩
  · exact ⟨sound.granted.give free open_, global, byIp⟩

theorem Parent.Sound.message {p : Parent} (sound : p.Sound) (slot : Fin connMax)
    (byte : Option UInt8) (nowMs : Nat) :
    (onMessage p slot byte nowMs).1.Sound := by
  unfold onMessage
  split
  · exact sound
  next fd opened =>
  have open_ : (p.kids slot).fd ≠ none := by simp [opened]
  split
  · refine ⟨(sound.granted.gone slot).set id ?_ fun _ => rfl, sound.global,
      sound.byIp⟩
    intro _
    unfold srvKdfGone
    rw [Function.update_self]
  split
  · exact ⟨sound.granted.gone slot, sound.global, sound.byIp⟩
  split
  · exact sound
  · exact sound.ask open_ _ nowMs

theorem Parent.Sound.connection {p : Parent} (sound : p.Sound) (ip : UInt32)
    (nowMs : Nat) (forked : Option Forked) :
    (onConnection p ip nowMs forked).Sound := by
  unfold onConnection
  dsimp only
  split
  · exact sound
  next slot found =>
  split
  · exact sound
  split
  · exact ⟨sound.granted, sound.global, sound.byIp⟩
  split
  · exact ⟨sound.granted, sound.global, sound.byIp⟩
  cases forked with
  | none => exact ⟨sound.granted, sound.global, sound.byIp⟩
  | some child =>
      have forkedHere : Granted (Function.update p.kids slot
          { p.kids slot with pid := child.pid, fd := child.fd, ip }) :=
        sound.granted.set id nofun fun pid => absurd pid child.started
      exact ⟨forkedHere.gone slot, sound.global, sound.byIp⟩

theorem sound_init : Parent.init.Sound where
  granted := ⟨nofun, fun _ _ => rfl, fun _ _ => rfl⟩
  global := sound_rlInit _ _
  byIp := RlTable.sound_init _ _

theorem sound_run (events : List Event) :
    (srvLoop.run Parent.init events).1.Sound := by
  refine srvLoop.run_keeps ?_ sound_init events
  intro p e sound
  cases e with
  | message slot byte nowMs => exact sound.message slot byte nowMs
  | reaped pid => exact ⟨sound.granted.reap pid, sound.global, sound.byIp⟩
  | connection ip nowMs forked => exact sound.connection ip nowMs forked

/-! ## A refusal costs nothing -/

/-- A bucket is as if it had only been refilled. -/
def OnlyRefilled (tMs : Nat) (before after : RlBucket) : Prop :=
  rlRefill after tMs = rlRefill before tMs

theorem onlyRefilled_of_refill {burst rate cost : Nat} {b b' : RlBucket}
    (sound : b.Sound burst rate) (whole : cost * rate = 1000) {tMs : Nat}
    (same : b' = rlRefill b tMs) : OnlyRefilled tMs b b' := by
  rw [same]
  exact rlRefill_again sound whole tMs

theorem sound_addrBucket {burst rate : Nat} {t : RlTable}
    (sound : t.Sound burst rate) (ip : UInt32) :
    (addrBucket t ip).Sound burst rate := by
  unfold addrBucket
  split
  · exact sound.bucket _
  · rw [sound.ofBurst, sound.ofRate]
    exact sound_rlInit burst rate

/-- A refused ask leaves both buckets as refilling alone would. -/
theorem onlyRefilled_of_refused {p : Parent} (sound : p.Sound)
    (slot : Fin connMax) (ip : UInt32) (tMs : Nat)
    (refused : (srvKdfAsk p slot ip tMs).2.yes = false) :
    OnlyRefilled tMs (addrBucket p.kdfIp ip)
        (addrBucket (srvKdfAsk p slot ip tMs).1.kdfIp ip) ∧
      OnlyRefilled tMs p.kdfG (srvKdfAsk p slot ip tMs).1.kdfG := by
  obtain ⟨byIp, found, bucket, verdict⟩ := sound.byIp.take ip tMs
  have atIp := sound_addrBucket sound.byIp ip
  have costIp : 10 * rlKdfIpRate = 1000 := rfl
  have costG : 4 * rlKdfRateMilli = 1000 := rfl
  unfold srvKdfAsk at refused ⊢
  split at refused
  · exact ⟨rfl, rfl⟩
  dsimp only at refused ⊢
  split at refused
  · next dry =>
    rw [if_pos dry]
    refine ⟨?_, rfl⟩
    rw [verdict] at dry
    exact onlyRefilled_of_refill atIp costIp
      (bucket.trans (rlTake_refused (by simpa using dry)))
  next taken =>
  split at refused
  · next dry =>
    rw [if_neg taken, if_pos dry]
    dsimp only
    rw [verdict] at taken
    refine ⟨onlyRefilled_of_refill atIp costIp ?_,
      onlyRefilled_of_refill sound.global costG
        (rlTake_refused (by simpa using dry))⟩
    rw [(byIp.refund found).2, bucket]
    exact credit_taken atIp (by simpa using taken)
  · cases refused

/-- In every state that the parent reaches: at most one slot holds the grant; a
slot whose channel ended or whose child was reaped holds nothing, and it is so
right after either; and an ask that is refused leaves the bucket of its address
and the global one as refilling alone would. -/
theorem kdf_grant_single (events : List Event) :
    (∀ i j, ((srvLoop.run Parent.init events).1.kids i).holds = true →
      ((srvLoop.run Parent.init events).1.kids j).holds = true → i = j) ∧
    (∀ i, ((srvLoop.run Parent.init events).1.kids i).fd = none ∨
        ((srvLoop.run Parent.init events).1.kids i).pid = 0 →
      ((srvLoop.run Parent.init events).1.kids i).holds = false) ∧
    (∀ i nowMs,
      ((srvLoop.step (srvLoop.run Parent.init events).1
        (.message i none nowMs)).1.kids i).holds = false ∧
      ((srvLoop.step (srvLoop.run Parent.init events).1 (.reaped
        ((srvLoop.run Parent.init events).1.kids i).pid)).1.kids i).holds =
          false) ∧
    ∀ slot ip tMs,
      (srvKdfAsk (srvLoop.run Parent.init events).1 slot ip tMs).2.yes = false →
      OnlyRefilled tMs
          (addrBucket (srvLoop.run Parent.init events).1.kdfIp ip)
          (addrBucket (srvKdfAsk (srvLoop.run Parent.init events).1 slot ip
            tMs).1.kdfIp ip) ∧
        OnlyRefilled tMs (srvLoop.run Parent.init events).1.kdfG
          (srvKdfAsk (srvLoop.run Parent.init events).1 slot ip tMs).1.kdfG := by
  have sound := sound_run events
  generalize (srvLoop.run Parent.init events).1 = p at sound ⊢
  have silent (i : Fin connMax) (ended : (p.kids i).fd = none ∨
      (p.kids i).pid = 0) : (p.kids i).holds = false :=
    sound.granted.heard i (ended.elim id (sound.granted.childless i))
  refine ⟨sound.granted.single, silent, fun i nowMs => ⟨?_, ?_⟩,
    onlyRefilled_of_refused sound⟩
  · change ((onMessage p i none nowMs).1.kids i).holds = false
    unfold onMessage
    split
    · exact silent i (.inl ‹_›)
    · dsimp only
      unfold srvKdfGone
      rw [Function.update_self, Function.update_self]
  · change (reap p.kids (p.kids i).pid i).holds = false
    unfold reap
    split
    · rfl
    · next none =>
      refine silent i (.inr ?_)
      by_contra child
      exact none ⟨child, rfl⟩

end RlxFw.Httpd
