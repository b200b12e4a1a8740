import RlxFw.CounterVerb
import RlxFw.Spictl
import RlxFw.Update

/-!
# The counter's report at boot

`src/init/ctradv.c`: the helper that advances the counter once the broker
answers, and reads from the driver's node what became of its one verb.
-/

namespace RlxFw.CtrAdv

open Spi (Boot CtrSt Kernel FlashPart)
open Spi.Kernel (Same Counted Attempted ReadsAs)
open Broker (decimal)
open Emission

/-! ## The handoff's text -/

/-- What `/proc/rlxfw-boot` says. -/
inductive BootText where
  | none
  | slot (slot : UInt8) (ver : Nat)
  | bad
  | unread
deriving DecidableEq, Repr

/-- `ctr_parse_boot`. -/
def ctrParseBoot (b : List UInt8) : BootText :=
  if b = ascii "none\n" then .none
  else if b.length < 13 ∨ b.length > 22 then .bad
  else if b.take 5 ≠ ascii "slot " ∨
      (byteAt b 5 ≠ 0x41 ∧ byteAt b 5 ≠ 0x42) ∨
      (b.drop 6).take 5 ≠ ascii " ver " ∨
      byteAt b (b.length - 1) ≠ 0x0A ∨ byteAt b 11 = 0x30 then .bad
  else
    match ((b.take (b.length - 1)).drop 11).foldlM Install.decStep 0 with
    | .none => .bad
    | some v => if v = 0xFFFFFFFF then .bad else .slot (byteAt b 5) v

/-- `ctr_read_boot`: one read of 64 bytes, of a file that may not open or
read. -/
def ctrReadBoot (text : Option (List UInt8)) : BootText :=
  match text with
  | .none => .unread
  | some text => ctrParseBoot (text.take 64)

/-! ## Up -/

/-- `CTR_UP_BUDGET_MS`. -/
def upBudgetMs : Int := 60000

/-- `CTR_UP_TRIES`. -/
def upTries : Nat := 121

/-- What the helper is given: the answers of the broker, the clock at the
start and after each try, the text of `/proc/rlxfw-boot`, and whether the flash
lock is taken in time. -/
structure CtrEnv where
  brokerUp : Nat → Bool
  nowMs : Nat → Int
  boot : Option (List UInt8)
  lock : Bool

/-- The tries of `ctr_wait_up` from `k`, with `left` more after it. -/
def waitUpFrom (e : CtrEnv) : Nat → Nat → Bool
  | k, 0 => e.brokerUp k
  | k, left + 1 =>
      if e.brokerUp k then true
      else if e.nowMs k - e.nowMs 0 ≥ upBudgetMs then false
      else waitUpFrom e (k + 1) left

/-- `ctr_wait_up`. -/
def ctrWaitUp (e : CtrEnv) : Bool := waitUpFrom e 1 (upTries - 1)

/-! ## The node -/

/-- `rlxfw_spi_inst_rname`. -/
def reasonName : Install.Reason → List UInt8
  | .ok => ascii "OK"
  | .badSyntax => ascii "SYNTAX"
  | .region => ascii "REGION"
  | .eraseOnly => ascii "ERASE_ONLY"
  | .notErasable => ascii "NOT_ERASABLE"
  | .armRead => ascii "ARM_READ"
  | .unarmed => ascii "UNARMED"
  | .armWindow => ascii "ARM_WINDOW"
  | .armBudget => ascii "ARM_BUDGET"
  | .imgBad => ascii "IMG_BAD"
  | .imgEmpty => ascii "IMG_EMPTY"
  | .imgSize => ascii "IMG_SIZE"
  | .kat => ascii "KAT"
  | .hash => ascii "HASH"
  | .sha => ascii "SHA"
  | .hdrMagic => ascii "HDR_MAGIC"
  | .hdrFormat => ascii "HDR_FORMAT"
  | .hdrFlashAt => ascii "HDR_FLASH_AT"
  | .hdrForm => ascii "HDR_FORM"
  | .hdrLen => ascii "HDR_LEN"
  | .hdrSum => ascii "HDR_SUM"
  | .policy => ascii "POLICY"
  | .nomem => ascii "NOMEM"
  | .engine => ascii "ENGINE"
  | .cmp => ascii "CMP"
  | .probeOnly => ascii "PROBE_ONLY"
  | .probeDirty => ascii "PROBE_DIRTY"
  | .probeMark => ascii "PROBE_MARK"
  | .probeAnomaly => ascii "PROBE_ANOMALY"
  | .probeUnclean => ascii "PROBE_UNCLEAN"
  | .hdrSeq => ascii "HDR_SEQ"
  | .repeatOnlySlot => ascii "REPEAT_ONLY_SLOT"
  | .runningSlot => ascii "RUNNING_SLOT"
  | .ctrAbove => ascii "CTR_ABOVE"
  | .ctrHandoff => ascii "CTR_HANDOFF"
  | .ctrBelow => ascii "CTR_BELOW"
  | .ctrMalformed => ascii "CTR_MALFORMED"
  | .ctrCmp => ascii "CTR_CMP"

/-- The numbers of `rlxfw_spi_inst_emit_ctr` that the helper reads. -/
def ctrNumber (c : CtrSt) (name : List UInt8) : Option Nat :=
  if name = ascii "ctr_attempts" then some c.attempts.toNat
  else if name = ascii "ctr_done" then some c.done.toNat
  else if name = ascii "ctr_refused" then some c.refused.toNat
  else if name = ascii "ctr_failed" then some c.failed.toNat
  else if name = ascii "ctr_cur" then some c.cur
  else if name = ascii "ctr_new" then some c.newv
  else if name = ascii "ctr_read" then some c.read
  else if name = ascii "ctr_pp" then some c.pp
  else .none

/-- What other processes do before a call, keeping to the flash lock, and
whether the call then reaches the driver. -/
structure Around {World : Type} (p : FlashPart World) where
  meanwhile : Kernel World → Kernel World
  keeps : ∀ k, Same p k (meanwhile k)
  reaches : Bool

/-- The kernel while the lock is held, and how many calls were made. -/
structure Locked (World : Type) where
  kernel : Kernel World
  calls : Nat

section Calls

variable {World : Type} (p : FlashPart World) (around : Nat → Around p)

/-- A computation of the helper. -/
abbrev Helper (World Value : Type) : Type :=
  Emission (Locked World) Unit Unit Value

/-- The kernel as the next call finds it. -/
def Locked.next (w : Locked World) : Locked World where
  kernel := (around w.calls).meanwhile w.kernel
  calls := w.calls + 1

/-- `spictl_field_u32`, on the counter's lines. -/
def spictlFieldU32 (name : List UInt8) : Helper World Nat := do
  let read ← step fun w =>
    (if (around w.calls).reaches then
      ctrNumber (w.next p around).kernel.ctr name else .none,
      w.next p around)
  match read with
  | some value => pure value
  | .none => stop ()

/-- `spictl_field` of `ctr_reason`. -/
def spictlReason : Helper World (List UInt8) := do
  let read ← step fun w =>
    (if (around w.calls).reaches then
      some (reasonName (w.next p around).kernel.ctr.reason) else .none,
      w.next p around)
  match read with
  | some value => pure value
  | .none => stop ()

/-- `spictl_verb`, as to whether it returned 0. -/
def spictlVerb (b : Boot) (line : List UInt8) (w : Locked World) :
    Bool × Locked World :=
  let w' := w.next p around
  if (around w.calls).reaches then
    let ran := Kernel.writeProc p.machine b line w'.kernel
    ((match ran.1 with
      | .ok (.ok count) => decide (count = line.length)
      | _ => false),
      { w' with kernel := ran.2.1 })
  else (false, w')

/-! ## The helper -/

/-- `struct ctr_count`. -/
structure CtrCount where
  attempts : UInt32
  done : UInt32
  refused : UInt32
  failed : UInt32
deriving DecidableEq, Repr

/-- `struct ctr_verdict`. -/
structure CtrVerdict where
  reason : List UInt8
  cur : Nat
  newv : Nat
  read : Nat
  pp : Nat
deriving DecidableEq, Repr

/-- `ctr_counts`. -/
def ctrCounts : Helper World CtrCount := do
  let attempts ← spictlFieldU32 p around (ascii "ctr_attempts")
  let done ← spictlFieldU32 p around (ascii "ctr_done")
  let refused ← spictlFieldU32 p around (ascii "ctr_refused")
  let failed ← spictlFieldU32 p around (ascii "ctr_failed")
  pure
    { attempts := UInt32.ofNat attempts, done := UInt32.ofNat done
      refused := UInt32.ofNat refused, failed := UInt32.ofNat failed }

/-- `ctr_fields`. -/
def ctrFields : Helper World CtrVerdict := do
  let reason ← spictlReason p around
  let cur ← spictlFieldU32 p around (ascii "ctr_cur")
  let newv ← spictlFieldU32 p around (ascii "ctr_new")
  let read ← spictlFieldU32 p around (ascii "ctr_read")
  let pp ← spictlFieldU32 p around (ascii "ctr_pp")
  pure { reason := reason, cur := cur, newv := newv, read := read, pp := pp }

/-- `ctr_reason_ok`. -/
def ctrReasonOk (s : List UInt8) : Bool :=
  (s.all fun c =>
    (0x41 ≤ c && c ≤ 0x5A) || (0x30 ≤ c && c ≤ 0x39) || c == 0x5F) &&
    decide (0 < s.length)

/-- `enum ctr_result`. -/
inductive CtrResult where
  | ok
  | same
  | nobroker
  | nohandoff
  | bootread
  | lock
  | state
  | unran
  | refused
  | failed
  | unknown
deriving DecidableEq, Repr

/-- `ctr_judge`, with what could be read after the verb. -/
def ctrJudge (read : Option (CtrCount × CtrVerdict)) (wrote : Bool) (ver : Nat)
    (a : CtrCount) : CtrResult :=
  match read with
  | .none => .unknown
  | some (b, v) =>
      let dn := b.attempts - a.attempts
      let dd := b.done - a.done
      let dr := b.refused - a.refused
      let df := b.failed - a.failed
      if dn = 0 then .unran
      else if dn ≠ 1 ∨ dd + dr + df ≠ 1 ∨ ¬ ctrReasonOk v.reason then .unknown
      else if dd = 1 ∧ wrote ∧ v.reason = ascii "OK" ∧ v.newv = ver ∧
          v.read = ver then
        if v.pp = 0 then .same else .ok
      else if dr = 1 ∧ ¬ wrote then .refused
      else if df = 1 ∧ ¬ wrote then .failed
      else .unknown

/-- The line of the one verb. -/
def ctrLine (ver : Nat) : List UInt8 := ascii "ctr " ++ decimal ver

/-- `ctr_advance`, from the kernel as the flash lock is asked for: the result,
and the kernel as the lock is given back. -/
def ctrAdvance (b : Boot) (e : CtrEnv) (w : Locked World) :
    CtrResult × Locked World :=
  if ¬ ctrWaitUp e then (.nobroker, w)
  else
    match ctrReadBoot e.boot with
    | .none => (.nohandoff, w)
    | .bad => (.bootread, w)
    | .unread => (.bootread, w)
    | .slot _ ver =>
        if ¬ e.lock then (.lock, w)
        else
          let before := ctrCounts p around w
          match before.1 with
          | .error _ => (.state, before.2.1)
          | .ok a =>
              let wrote := spictlVerb p around b (ctrLine ver) before.2.1
              let after := (do
                let b ← ctrCounts p around
                let v ← ctrFields p around
                pure (b, v) : Helper World (CtrCount × CtrVerdict)) wrote.2
              (ctrJudge after.1.toOption wrote.1 ver a, after.2.1)

/-! ## What the helper reads -/

variable {p around}

theorem same_next {k : Kernel World} {w : Locked World}
    (same : Same p k w.kernel) : Same p k (w.next p around).kernel :=
  same.trans ((around w.calls).keeps w.kernel)

theorem meets_spictlFieldU32 (k : Kernel World) (name : List UInt8) :
    Meets (fun w => Same p k w.kernel) (spictlFieldU32 p around name)
      (fun value w => Same p k w.kernel ∧ ctrNumber k.ctr name = some value)
      (fun _ w => Same p k w.kernel) := by
  have asked : Meets (fun w => Same p k w.kernel)
      (step fun w =>
        (if (around w.calls).reaches then
          ctrNumber (w.next p around).kernel.ctr name else none,
          w.next p around) : Helper World (Option Nat))
      (fun read w => Same p k w.kernel ∧
        ∀ value, read = some value → ctrNumber k.ctr name = some value)
      (fun _ w => Same p k w.kernel) := by
    apply meets_step
    intro w same
    have next : Same p k (w.next p around).kernel := same_next same
    refine ⟨next, ?_⟩
    intro value read
    rw [← next.2]
    split_ifs at read
    exact read
  refine asked.bind fun read => ?_
  cases read with
  | none => exact meets_stop fun _ holds => holds.1
  | some value => exact meets_pure fun _ holds => ⟨holds.1, holds.2 value rfl⟩

/-- The counters of a kernel, as `ctr_counts` takes them. -/
def countsOf (c : CtrSt) : CtrCount where
  attempts := c.attempts
  done := c.done
  refused := c.refused
  failed := c.failed

theorem meets_ctrCounts (k : Kernel World) :
    Meets (fun w => Same p k w.kernel) (ctrCounts p around)
      (fun counts w => Same p k w.kernel ∧ counts = countsOf k.ctr)
      (fun _ w => Same p k w.kernel) := by
  have number {name : List UInt8} {field : UInt32} {value : Nat}
      (shown : ctrNumber k.ctr name = some field.toNat)
      (read : ctrNumber k.ctr name = some value) :
      UInt32.ofNat value = field := by
    rw [shown] at read
    cases read
    exact UInt32.ofNat_toNat
  refine (meets_spictlFieldU32 k _).bind fun attempts =>
    meets_of_fact fun attempts' => ?_
  refine (meets_spictlFieldU32 k _).bind fun done =>
    meets_of_fact fun done' => ?_
  refine (meets_spictlFieldU32 k _).bind fun refused =>
    meets_of_fact fun refused' => ?_
  refine (meets_spictlFieldU32 k _).bind fun failed =>
    meets_of_fact fun failed' => ?_
  apply meets_pure
  intro w same
  refine ⟨same, ?_⟩
  rw [number rfl attempts', number rfl done', number rfl refused',
    number rfl failed']
  rfl

theorem meets_spictlReason (k : Kernel World) :
    Meets (fun w => Same p k w.kernel) (spictlReason p around)
      (fun _ w => Same p k w.kernel) (fun _ w => Same p k w.kernel) := by
  have asked : Meets (fun w => Same p k w.kernel)
      (step fun w =>
        (if (around w.calls).reaches then
          some (reasonName (w.next p around).kernel.ctr.reason) else none,
          w.next p around) : Helper World (Option (List UInt8)))
      (fun _ w => Same p k w.kernel) (fun _ w => Same p k w.kernel) :=
    meets_step fun _ same => same_next same
  refine asked.bind fun read => ?_
  cases read with
  | none => exact meets_stop fun _ same => same
  | some text => exact meets_pure fun _ same => same

theorem meets_ctrFields (k : Kernel World) :
    Meets (fun w => Same p k w.kernel) (ctrFields p around)
      (fun verdict w => Same p k w.kernel ∧ verdict.newv = k.ctr.newv)
      (fun _ w => Same p k w.kernel) := by
  refine (meets_spictlReason k).bind fun reason => ?_
  refine (meets_spictlFieldU32 k _).bind fun cur => meets_of_fact fun _ => ?_
  refine (meets_spictlFieldU32 k _).bind fun newv =>
    meets_of_fact fun newv' => ?_
  refine (meets_spictlFieldU32 k _).bind fun read => meets_of_fact fun _ => ?_
  refine (meets_spictlFieldU32 k _).bind fun pp => meets_of_fact fun _ => ?_
  apply meets_pure
  intro w same
  have shown : ctrNumber k.ctr (ascii "ctr_new") = some k.ctr.newv := rfl
  exact ⟨same, Option.some.inj (newv'.symm.trans shown)⟩

/-! ## The one verb -/

theorem decimal_digit (n : Nat) : ∀ c ∈ decimal n, 0x30 ≤ c ∧ c ≤ 0x39 := by
  intro c member
  obtain ⟨digit, among, rfl⟩ := List.mem_map.mp member
  obtain ⟨low, high⟩ := Char.isDigit_iff_toNat.mp
    (Nat.isDigit_of_mem_toDigits (by decide) (by decide) among)
  change 48 ≤ digit.toNat at low
  change digit.toNat ≤ 57 at high
  have value : (UInt8.ofNat digit.toNat).toNat = digit.toNat := by
    rw [UInt8.toNat_ofNat']
    omega
  constructor
  · rw [UInt8.le_iff_toNat_le, value]
    exact low
  · rw [UInt8.le_iff_toNat_le, value]
    exact high

/-- The line has no newline and no NUL, so it is dispatched whole. -/
theorem lineOf_ctrLine (ver : Nat) : Spi.lineOf (ctrLine ver) = ctrLine ver := by
  have plain : ∀ c ∈ ctrLine ver, 0x20 ≤ c := by
    intro c member
    rcases List.mem_append.mp member with word | digit
    · exact (by decide +kernel : ∀ c ∈ ascii "ctr ", (0x20 : UInt8) ≤ c)
        c word
    · exact UInt8.le_trans (show (0x20 : UInt8) ≤ 0x30 by decide)
        (decimal_digit ver c digit).1
  have kept : (ctrLine ver).reverse.dropWhile
      (fun c => c == 0x0A || c == 0x0D) = (ctrLine ver).reverse := by
    rw [List.dropWhile_eq_self_iff]
    intro nonempty newline
    have high := plain _ (List.mem_reverse.mp (List.getElem_mem nonempty))
    rcases Bool.or_eq_true _ _ ▸ newline with feed | feed
    · rw [eq_of_beq feed] at high
      exact absurd high (by decide)
    · rw [eq_of_beq feed] at high
      exact absurd high (by decide)
  unfold Spi.lineOf cString
  rw [kept, List.reverse_reverse, List.takeWhile_eq_self_iff]
  intro c member
  rw [bne_iff_ne]
  rintro rfl
  exact absurd (plain 0 member) (by decide)

theorem parse_ctrLine (ver : Nat) :
    Install.parse (ctrLine ver) =
      Install.parseCtr (0x20 :: decimal ver) := by
  have text : ctrLine ver = ascii "ctr" ++ 0x20 :: decimal ver := rfl
  have word : Install.toklen (ctrLine ver) = (ascii "ctr").length := by
    rw [text]
    exact Spictl.toklen_token (by decide) _
  have named : Install.tokeq (ctrLine ver) (ascii "ctr").length
      (ascii "ctr") = true := by
    rw [text, Spictl.tokeq_token]
    rfl
  unfold Install.parse
  rw [word]
  dsimp only
  rw [if_pos named]
  rfl

theorem parseCtr_spec (s : List UInt8) :
    (Install.parseCtr s).2.verb = .ctr ∧
      ((Install.parseCtr s).1 = .ok →
        (Install.parseCtr s).2.ctrN ≤ Install.ctrBits) := by
  unfold Install.parseCtr
  dsimp only
  cases Install.numTail s 4 with
  | none => exact ⟨rfl, nofun⟩
  | some v =>
      dsimp only
      split_ifs with high
      · exact ⟨rfl, nofun⟩
      · exact ⟨rfl, fun _ => Nat.le_of_not_gt high⟩

/-- The verb is one attempt, or nothing that the counter or the flash sees. -/
theorem spictlVerb_cases (b : Boot) (ver : Nat) {k : Kernel World}
    {w : Locked World} (same : Same p k w.kernel) :
    Same p k (spictlVerb p around b (ctrLine ver) w).2.kernel ∨
      ∃ n, Attempted p b n k
        (spictlVerb p around b (ctrLine ver) w).2.kernel := by
  have next : Same p k (w.next p around).kernel := same_next same
  unfold spictlVerb
  dsimp only
  split
  · have parsed : Install.parse (Spi.lineOf (ctrLine ver)) =
        Install.parseCtr (0x20 :: decimal ver) := by
      rw [lineOf_ctrLine, parse_ctrLine]
    have reaches : Spi.reachesInst (Spi.lineOf (ctrLine ver)) = true := by
      rw [lineOf_ctrLine]
      rfl
    obtain ⟨verb, inRange⟩ := parseCtr_spec (0x20 :: decimal ver)
    rcases Spi.Kernel.attempted_writeProc b parsed reaches verb inRange
      (w.next p around).kernel with quiet | attempted
    · exact .inl (next.trans quiet)
    · exact .inr ⟨_, attempted.between next ⟨rfl, rfl⟩⟩
  · exact .inl next

/-! ## The verdict -/

theorem ctrJudge_same {before after : CtrSt} (same : after = before)
    (v : CtrVerdict) (wrote : Bool) (ver : Nat) :
    ctrJudge (some (countsOf after, v)) wrote ver (countsOf before) =
      .unran := by
  subst same
  have none : (countsOf after).attempts - (countsOf after).attempts = 0 :=
    UInt32.sub_self _
  unfold ctrJudge
  dsimp only
  rw [if_pos none]

/-- The results that say nothing was written. -/
def CtrResult.idle : CtrResult → Bool
  | .refused | .unran | .nohandoff | .bootread | .lock | .state => true
  | _ => false

/-- What a counted attempt can be judged as. -/
theorem ctrJudge_counted {before after : CtrSt} {done refused failed : UInt32}
    (counted : Counted before after done refused failed)
    (v : CtrVerdict) (wrote : Bool) (ver : Nat) {result : CtrResult}
    (judged : ctrJudge (some (countsOf after, v)) wrote ver (countsOf before) =
      result) :
    (result = .ok ∨ result = .same → done = 1 ∧ v.newv = ver) ∧
      (result.idle = true → refused = 1) := by
  have moved {x y d : UInt32} (sum : y = x + d) : y - x = d := by
    rw [sum, UInt32.add_comm, UInt32.add_sub_cancel]
  unfold ctrJudge at judged
  dsimp only [countsOf] at judged
  rw [moved counted.attempts, moved counted.done, moved counted.refused,
    moved counted.failed] at judged
  subst judged
  split_ifs with none odd good _ away down <;> simp_all [CtrResult.idle]

theorem exists_handoff {b : Boot} {n : Nat}
    (tied : Install.ctrTie n (b.hoSlot != 0) b.hoVer = .ok) :
    ∃ valid, b.handoff = .ok valid ∧ valid.ver.toNat = n := by
  unfold Install.ctrTie Boot.hoSlot Boot.hoVer at tied
  cases handed : b.handoff with
  | error fault =>
      rw [handed] at tied
      exact absurd tied (by simp)
  | ok valid =>
      rw [handed] at tied
      dsimp only at tied
      split_ifs at tied with differs
      push Not at differs
      exact ⟨valid, rfl, differs.2⟩

/-- What a result of the helper says of the kernel it began with. -/
structure Truthful (p : FlashPart World) (b : Boot) (e : CtrEnv)
    (before : Kernel World) (result : CtrResult) (after : Kernel World) :
    Prop where
  advanced : result = .ok ∨ result = .same →
    ∃ slot ver valid, ctrReadBoot e.boot = .slot slot ver ∧
      b.handoff = .ok valid ∧ valid.ver.toNat = ver ∧
      after.ctr.attempts = before.ctr.attempts + 1 ∧
      Counter.rlxuCounterFromBitmap
        ((Install.bitmapOf (p.flash after.state.world)).slice 0
          Install.ctrBytes) = (ver, false)
  untouched : result.idle = true →
    p.flash after.state.world = p.flash before.state.world

theorem truthful_of_same {b : Boot} {e : CtrEnv} {before after : Kernel World}
    {result : CtrResult} (same : Same p before after)
    (other : result ≠ .ok ∧ result ≠ .same) :
    Truthful p b e before result after where
  advanced := fun good => absurd good (not_or.mpr other)
  untouched := fun _ => same.1

/-- What was read after the verb is what the verb left. -/
theorem after_verb {k : Kernel World} {w : Locked World}
    (same : Same p k w.kernel) :
    let after := (do
      let b ← ctrCounts p around
      let v ← ctrFields p around
      pure (b, v) : Helper World (CtrCount × CtrVerdict)) w
    Same p k after.2.1.kernel ∧
      ∀ read, after.1 = .ok read →
        read.1 = countsOf k.ctr ∧ read.2.newv = k.ctr.newv := by
  intro after
  have meets : Meets (fun w => Same p k w.kernel)
      (do
        let b ← ctrCounts p around
        let v ← ctrFields p around
        pure (b, v) : Helper World (CtrCount × CtrVerdict))
      (fun read w => Same p k w.kernel ∧
        read.1 = countsOf k.ctr ∧ read.2.newv = k.ctr.newv)
      (fun _ w => Same p k w.kernel) := by
    refine (meets_ctrCounts k).bind fun counts => meets_of_fact fun counted => ?_
    refine (meets_ctrFields k).bind fun verdict => meets_of_fact fun newv => ?_
    exact meets_pure fun _ same => ⟨same, counted, newv⟩
  obtain ⟨returned, stopped⟩ := meets w same
  cases outcome : after.1 with
  | ok read =>
      obtain ⟨kept, facts⟩ := returned read outcome
      refine ⟨kept, ?_⟩
      rintro _ ⟨⟩
      exact facts
  | error why => exact ⟨stopped why outcome, nofun⟩

/-- The verb, what is read after it, and the verdict. -/
theorem truthful_verb {b : Boot} {e : CtrEnv} {slot : UInt8} {ver : Nat}
    (text : ctrReadBoot e.boot = .slot slot ver) {k : Kernel World}
    {w : Locked World} (same : Same p k w.kernel) :
    let wrote := spictlVerb p around b (ctrLine ver) w
    let after := (do
      let b ← ctrCounts p around
      let v ← ctrFields p around
      pure (b, v) : Helper World (CtrCount × CtrVerdict)) wrote.2
    Truthful p b e k
      (ctrJudge after.1.toOption wrote.1 ver (countsOf k.ctr))
      after.2.1.kernel := by
  intro wrote after
  obtain ⟨kept, facts⟩ :=
    @after_verb _ p around _ _
      (show Same p wrote.2.kernel wrote.2.kernel from ⟨rfl, rfl⟩)
  change Same p wrote.2.kernel after.2.1.kernel at kept
  cases outcome : after.1 with
  | error why => exact ⟨by rintro (ok | ok) <;> (cases ok), nofun⟩
  | ok read =>
      rcases read with ⟨counts, verdict⟩
      obtain ⟨rfl, newv⟩ := facts _ outcome
      change Truthful p b e k (ctrJudge (some (countsOf wrote.2.kernel.ctr,
        verdict)) wrote.1 ver (countsOf k.ctr)) after.2.1.kernel
      rcases @spictlVerb_cases _ p around b ver _ _ same with
        quiet | ⟨n, attempted⟩
      · rw [ctrJudge_same quiet.2]
        exact truthful_of_same (quiet.trans kept) ⟨nofun, nofun⟩
      cases attempted with
      | refused flash counted =>
          obtain ⟨good, _⟩ := ctrJudge_counted counted verdict wrote.1 ver rfl
          refine ⟨fun said => absurd (good said).1 (by decide), fun _ => ?_⟩
          exact kept.1.trans flash
      | done tied reads value counted =>
          obtain ⟨good, idle⟩ :=
            ctrJudge_counted counted verdict wrote.1 ver rfl
          refine ⟨fun said => ?_, fun said => absurd (idle said) (by decide)⟩
          have same : n = ver := by
            rw [← (good said).2, newv, value]
          subst same
          obtain ⟨valid, handed, version⟩ := exists_handoff tied
          refine ⟨slot, n, valid, text, handed, version, ?_, ?_⟩
          · rw [kept.2]
            exact counted.attempts
          · rw [kept.1]
            exact reads
      | failed counted =>
          obtain ⟨good, idle⟩ :=
            ctrJudge_counted counted verdict wrote.1 ver rfl
          exact ⟨fun said => absurd (good said).1 (by decide),
            fun said => absurd (idle said) (by decide)⟩

/-- The helper's report is true.  OK and SAME: rlxboot handed over a slot and
the version of the text, the kernel counted one attempt, and the bitmap reads
as that version, well formed.  A result that says nothing was written: the
flash is as it was. -/
theorem ctr_report_truthful (p : FlashPart World) (around : Nat → Around p)
    (b : Boot) (e : CtrEnv) (w : Locked World) :
    Truthful p b e w.kernel (ctrAdvance p around b e w).1
      (ctrAdvance p around b e w).2.kernel := by
  have start : Same p w.kernel w.kernel := ⟨rfl, rfl⟩
  unfold ctrAdvance
  split
  · exact truthful_of_same start ⟨nofun, nofun⟩
  split
  · exact truthful_of_same start ⟨nofun, nofun⟩
  · exact truthful_of_same start ⟨nofun, nofun⟩
  · exact truthful_of_same start ⟨nofun, nofun⟩
  next slot ver text =>
  split
  · exact truthful_of_same start ⟨nofun, nofun⟩
  obtain ⟨returned, stopped⟩ :=
    @meets_ctrCounts _ p around w.kernel w start
  dsimp only
  cases counted : (ctrCounts p around w).1 with
  | error why => exact truthful_of_same (stopped why counted) ⟨nofun, nofun⟩
  | ok a =>
      obtain ⟨same, rfl⟩ := returned a counted
      dsimp only
      exact truthful_verb text same

end Calls

end RlxFw.CtrAdv
