import RlxFw.Prelude
import Mathlib.Data.List.FinRange
import Mathlib.Logic.Function.Basic

/-!
# Token buckets

`src/httpd/rl.c`: a bucket in milli-tokens, refilled when it is looked at, and
the table of buckets by address.  The products stay below 2^32 at the rates of
`rl.h`, and times are readings of a 32-bit millisecond counter.
-/

namespace RlxFw.Httpd

/-! ## One bucket -/

/-- `struct rl_bucket`. -/
structure RlBucket where
  capMilli : Nat
  rateMilli : Nat
  tokensMilli : Nat
  lastMs : Nat
  started : Bool
deriving DecidableEq, Repr

/-- `rl_init`. -/
def rlInit (burst milliPerS : Nat) : RlBucket where
  capMilli := burst * 1000
  rateMilli := milliPerS
  tokensMilli := burst * 1000
  lastMs := 0
  started := false

/-- Tokens that are added, never above the burst. -/
def RlBucket.credit (b : RlBucket) (add : Nat) : Nat :=
  if b.capMilli - b.tokensMilli ≤ add then b.capMilli else b.tokensMilli + add

/-- `rl_refill`. -/
def rlRefill (b : RlBucket) (nowMs : Nat) : RlBucket :=
  let dt := nowMs - b.lastMs
  let add := dt * b.rateMilli / 1000
  if ¬ b.started then { b with started := true, lastMs := nowMs }
  else if nowMs < b.lastMs then { b with lastMs := nowMs }
  else if b.rateMilli = 0 then { b with lastMs := nowMs }
  else if dt = 0 then b
  else if dt > 200000 then { b with tokensMilli := b.capMilli, lastMs := nowMs }
  else if add = 0 then b
  else
    { b with
      lastMs := b.lastMs + add * 1000 / b.rateMilli
      tokensMilli := b.credit add }

/-- `rl_take`. -/
def rlTake (b : RlBucket) (nowMs : Nat) : RlBucket × Bool :=
  let b := rlRefill b nowMs
  if b.tokensMilli < 1000 then (b, false)
  else ({ b with tokensMilli := b.tokensMilli - 1000 }, true)

/-- `rl_retry_s`. -/
def rlRetryS (b : RlBucket) : Nat :=
  if b.tokensMilli ≥ 1000 then 0
  else if b.rateMilli = 0 then 3600
  else (1000 - b.tokensMilli + b.rateMilli - 1) / b.rateMilli + 1

/-! ## The table -/

/-- `RL_IPS`. -/
abbrev rlIps : Nat := 16

/-- An entry of `struct rl_table`. -/
structure RlEntry where
  ip : UInt32
  lastMs : Nat
  used : Bool
  b : RlBucket
deriving DecidableEq, Repr

/-- `struct rl_table`. -/
structure RlTable where
  burst : Nat
  rateMilli : Nat
  e : Fin rlIps → RlEntry

/-- `rl_table_init`. -/
def rlTableInit (burst milliPerS : Nat) : RlTable where
  burst := burst
  rateMilli := milliPerS
  e := fun _ =>
    { ip := 0, lastMs := 0, used := false, b := rlInit burst milliPerS }

/-- The entry of an address. -/
def rlFind (t : RlTable) (ip : UInt32) : Option (Fin rlIps) :=
  (List.finRange rlIps).find? fun i => (t.e i).used && (t.e i).ip == ip

/-- The entry used longest ago. -/
def rlOldest (t : RlTable) : Fin rlIps :=
  (List.finRange rlIps).foldl
    (fun (best : Option (Fin rlIps)) i =>
      match best with
      | none => some i
      | some lru => if (t.e i).lastMs < (t.e lru).lastMs then some i else some lru)
    none |>.getD 0

/-- `rl_table_slot`. -/
def rlTableSlot (t : RlTable) (ip : UInt32) (nowMs : Nat) :
    RlTable × Fin rlIps :=
  match rlFind t ip with
  | some i =>
      ({ t with e := Function.update t.e i { t.e i with lastMs := nowMs } }, i)
  | none =>
      let i := ((List.finRange rlIps).find? fun i => !(t.e i).used).getD
        (rlOldest t)
      ({ t with
        e := Function.update t.e i
          { ip, lastMs := nowMs, used := true
            b := rlInit t.burst t.rateMilli } }, i)

/-- `rl_table_take`. -/
def rlTableTake (t : RlTable) (ip : UInt32) (nowMs : Nat) : RlTable × Bool :=
  let slot := rlTableSlot t ip nowMs
  let taken := rlTake (slot.1.e slot.2).b nowMs
  ({ slot.1 with
    e := Function.update slot.1.e slot.2
      { slot.1.e slot.2 with b := taken.1 } }, taken.2)

/-- `rl_table_refund`. -/
def rlTableRefund (t : RlTable) (ip : UInt32) : RlTable :=
  match rlFind t ip with
  | none => t
  | some i =>
      { t with
        e := Function.update t.e i
          { t.e i with
            b := { (t.e i).b with tokensMilli := (t.e i).b.credit 1000 } } }

/-- `rl_table_retry_s`. -/
def rlTableRetryS (t : RlTable) (ip : UInt32) : Nat :=
  match rlFind t ip with
  | some i => rlRetryS (t.e i).b
  | none => 1

/-! ## A bucket is refilled once -/

/-- A bucket of a burst and a rate, holding no more than its burst. -/
structure RlBucket.Sound (burst rate : Nat) (b : RlBucket) : Prop where
  cap : b.capMilli = burst * 1000
  rate : b.rateMilli = rate
  full : b.tokensMilli ≤ b.capMilli

section Bucket

variable {burst rate : Nat} {b : RlBucket}

theorem sound_rlInit (burst rate : Nat) : (rlInit burst rate).Sound burst rate :=
  ⟨rfl, rfl, le_rfl⟩

theorem RlBucket.credit_le (b : RlBucket) (add : Nat) :
    b.credit add ≤ b.capMilli := by
  unfold RlBucket.credit
  split <;> omega

theorem RlBucket.Sound.refill (sound : b.Sound burst rate) (now : Nat) :
    (rlRefill b now).Sound burst rate := by
  have credit := b.credit_le
  unfold rlRefill
  dsimp only
  repeat' split
  all_goals first
    | exact sound
    | exact ⟨sound.cap, sound.rate, sound.full⟩
    | exact ⟨sound.cap, sound.rate, le_rfl⟩
    | exact ⟨sound.cap, sound.rate, credit _⟩

theorem RlBucket.Sound.take (sound : b.Sound burst rate) (now : Nat) :
    (rlTake b now).1.Sound burst rate := by
  have refilled := sound.refill now
  have full := refilled.full
  unfold rlTake
  dsimp only
  split
  · exact refilled
  · exact ⟨refilled.cap, refilled.rate, by dsimp only; omega⟩

/-- A refused take refills and no more. -/
theorem rlTake_refused {now : Nat} (refused : (rlTake b now).2 = false) :
    (rlTake b now).1 = rlRefill b now := by
  unfold rlTake at refused ⊢
  dsimp only at refused ⊢
  split at refused
  · next short => rw [if_pos short]
  · cases refused

/-- A token that is taken and given back leaves the refilled bucket. -/
theorem credit_taken (sound : b.Sound burst rate) {now : Nat}
    (taken : (rlTake b now).2 = true) :
    { (rlTake b now).1 with
      tokensMilli := (rlTake b now).1.credit 1000 } = rlRefill b now := by
  have full := (sound.refill now).full
  unfold rlTake at taken ⊢
  dsimp only at taken ⊢
  split at taken
  · cases taken
  next enough =>
  rw [if_neg enough]
  have back : (RlBucket.credit
      { rlRefill b now with tokensMilli := (rlRefill b now).tokensMilli - 1000 }
      1000) = (rlRefill b now).tokensMilli := by
    unfold RlBucket.credit
    dsimp only
    split <;> omega
  dsimp only
  rw [back]

/-- Too little time has passed for a milli-token. -/
theorem rlRefill_settled {now : Nat} (started : b.started = true)
    (before : b.lastMs ≤ now) (rate : b.rateMilli ≠ 0)
    (near : now - b.lastMs ≤ 200000)
    (nothing : (now - b.lastMs) * b.rateMilli / 1000 = 0) :
    rlRefill b now = b := by
  unfold rlRefill
  dsimp only
  rw [if_neg (not_not.mpr started), if_neg (by omega), if_neg rate,
    if_neg (not_lt.mpr near), if_pos nothing, ite_self]

/-- At a rate whose milli-tokens cost whole milliseconds, a second refill at
the same time changes nothing. -/
theorem rlRefill_again (sound : b.Sound burst rate) {cost : Nat}
    (whole : cost * rate = 1000) (now : Nat) :
    rlRefill (rlRefill b now) now = rlRefill b now := by
  have positive : 0 < rate := by
    rcases Nat.eq_zero_or_pos rate with rfl | positive
    · omega
    · exact positive
  have costs : 0 < cost := by
    rcases Nat.eq_zero_or_pos cost with rfl | costs
    · omega
    · exact costs
  have rate_ne : b.rateMilli ≠ 0 := by
    rw [sound.rate]
    omega
  have settled {b' : RlBucket} (started : b'.started = true)
      (same : b'.rateMilli = b.rateMilli) (now_ : b'.lastMs = now) :
      rlRefill b' now = b' :=
    rlRefill_settled started (by omega) (by rwa [same]) (by omega)
      (by rw [now_]; simp)
  have perMs (n : Nat) : n * rate / 1000 = n / cost := by
    rw [← whole, Nat.mul_div_mul_right _ _ positive]
  generalize made : rlRefill b now = b'
  unfold rlRefill at made
  dsimp only at made
  split at made
  · subst made
    exact settled rfl rfl rfl
  next fresh =>
  have started : b.started = true := not_not.mp fresh
  split at made
  · subst made
    exact settled started rfl rfl
  next ahead =>
  split at made
  · next still =>
    subst made
    exact settled started rfl (by omega)
  split at made
  · subst made
    exact settled started rfl rfl
  next near =>
  split at made
  · next nothing =>
    subst made
    exact rlRefill_settled started (by omega) rate_ne (by omega) nothing
  -- What is left of the time is less than the cost of a milli-token.
  rw [sound.rate, perMs, ← whole, ← Nat.mul_assoc,
    Nat.mul_div_cancel _ positive] at made
  have left : now - (b.lastMs + (now - b.lastMs) / cost * cost) =
      (now - b.lastMs) % cost := by
    have parts := Nat.div_add_mod' (now - b.lastMs) cost
    omega
  have room : (now - b.lastMs) / cost * cost ≤ now - b.lastMs :=
    Nat.div_mul_le_self _ _
  subst made
  apply rlRefill_settled
  · exact started
  · dsimp only
    omega
  · dsimp only
    omega
  · dsimp only
    rw [left]
    exact le_trans (Nat.mod_le _ _) (by omega)
  · dsimp only
    rw [left, perMs]
    exact Nat.div_eq_of_lt (Nat.mod_lt _ costs)

end Bucket

/-! ## The bucket of an address -/

/-- The bucket that an address has, or would be given. -/
def addrBucket (t : RlTable) (ip : UInt32) : RlBucket :=
  match rlFind t ip with
  | some i => (t.e i).b
  | none => rlInit t.burst t.rateMilli

namespace RlTable

/-- Every bucket is sound, and no address has two. -/
structure Sound (burst rate : Nat) (t : RlTable) : Prop where
  ofBurst : t.burst = burst
  ofRate : t.rateMilli = rate
  bucket : ∀ i, (t.e i).b.Sound burst rate
  distinct : ∀ i j, (t.e i).used = true → (t.e j).used = true →
    (t.e i).ip = (t.e j).ip → i = j

variable {burst rate : Nat} {t : RlTable} {ip : UInt32} {i : Fin rlIps}

theorem sound_init (burst rate : Nat) : (rlTableInit burst rate).Sound burst rate :=
  ⟨rfl, rfl, fun _ => sound_rlInit burst rate, nofun⟩

theorem rlFind_some (found : rlFind t ip = some i) :
    (t.e i).used = true ∧ (t.e i).ip = ip := by
  have holds := List.find?_some found
  simpa using holds

theorem not_used_of_rlFind (absent : rlFind t ip = none) (j : Fin rlIps)
    (used : (t.e j).used = true) : (t.e j).ip ≠ ip := by
  intro same
  have fails := List.find?_eq_none.mp absent j (List.mem_finRange j)
  simp [used, same] at fails

theorem Sound.rlFind_eq (sound : t.Sound burst rate)
    (used : (t.e i).used = true) (at_ : (t.e i).ip = ip) :
    rlFind t ip = some i := by
  cases found : rlFind t ip with
  | none => exact absurd at_ (not_used_of_rlFind found i used)
  | some j =>
      obtain ⟨used', at'⟩ := rlFind_some found
      rw [sound.distinct i j used used' (at_.trans at'.symm)]

theorem Sound.addrBucket_eq (sound : t.Sound burst rate)
    (used : (t.e i).used = true) (at_ : (t.e i).ip = ip) :
    addrBucket t ip = (t.e i).b := by
  unfold addrBucket
  rw [sound.rlFind_eq used at_]

/-- An entry may be given another sound bucket. -/
theorem Sound.setBucket (sound : t.Sound burst rate) {e : RlEntry}
    (used : e.used = (t.e i).used) (at_ : e.ip = (t.e i).ip)
    (bucket : e.b.Sound burst rate) :
    ({ t with e := Function.update t.e i e } : RlTable).Sound burst rate := by
  refine ⟨sound.ofBurst, sound.ofRate, fun j => ?_, fun j l usedJ usedL same => ?_⟩
  · dsimp only
    by_cases here : j = i
    · subst here
      rw [Function.update_self]
      exact bucket
    · rw [Function.update_of_ne here]
      exact sound.bucket j
  · have kept (j : Fin rlIps) :
        (Function.update t.e i e j).used = (t.e j).used ∧
          (Function.update t.e i e j).ip = (t.e j).ip := by
      by_cases here : j = i
      · subst here
        rw [Function.update_self]
        exact ⟨used, at_⟩
      · rw [Function.update_of_ne here]
        exact ⟨rfl, rfl⟩
    dsimp only at usedJ usedL same
    rw [(kept j).1] at usedJ
    rw [(kept l).1] at usedL
    rw [(kept j).2, (kept l).2] at same
    exact sound.distinct j l usedJ usedL same

/-- The entry that `rl_table_slot` gives an address holds its bucket. -/
structure SlotFor (burst rate : Nat) (t : RlTable) (ip : UInt32)
    (slot : RlTable × Fin rlIps) : Prop where
  sound : slot.1.Sound burst rate
  used : (slot.1.e slot.2).used = true
  ofIp : (slot.1.e slot.2).ip = ip
  bucket : (slot.1.e slot.2).b = addrBucket t ip

theorem Sound.slot (sound : t.Sound burst rate) (ip : UInt32) (now : Nat) :
    SlotFor burst rate t ip (rlTableSlot t ip now) := by
  unfold rlTableSlot
  cases found : rlFind t ip with
  | some i =>
      obtain ⟨used, at_⟩ := rlFind_some found
      refine ⟨sound.setBucket rfl rfl (sound.bucket i), ?_, ?_, ?_⟩
      all_goals
        dsimp only
        rw [Function.update_self]
      · exact used
      · exact at_
      · exact (sound.addrBucket_eq used at_).symm
  | none =>
      dsimp only
      generalize ((List.finRange rlIps).find? fun i => !(t.e i).used).getD
        (rlOldest t) = i
      refine ⟨⟨sound.ofBurst, sound.ofRate, fun j => ?_, fun j l usedJ usedL same => ?_⟩,
        ?_, ?_, ?_⟩
      · dsimp only
        by_cases here : j = i
        · subst here
          rw [Function.update_self]
          rw [sound.ofBurst, sound.ofRate]
          exact sound_rlInit burst rate
        · rw [Function.update_of_ne here]
          exact sound.bucket j
      · dsimp only at usedJ usedL same
        by_cases jHere : j = i <;> by_cases lHere : l = i
        · rw [jHere, lHere]
        · subst jHere
          rw [Function.update_of_ne lHere] at usedL same
          rw [Function.update_self] at same
          exact absurd same.symm (not_used_of_rlFind found l usedL)
        · subst lHere
          rw [Function.update_of_ne jHere] at usedJ same
          rw [Function.update_self] at same
          exact absurd same (not_used_of_rlFind found j usedJ)
        · rw [Function.update_of_ne jHere] at usedJ same
          rw [Function.update_of_ne lHere] at usedL same
          exact sound.distinct j l usedJ usedL same
      all_goals
        dsimp only
        rw [Function.update_self]
      unfold addrBucket
      rw [found]

/-- A take from a table is a take from the bucket of the address. -/
theorem Sound.take (sound : t.Sound burst rate) (ip : UInt32) (now : Nat) :
    (rlTableTake t ip now).1.Sound burst rate ∧
      rlFind (rlTableTake t ip now).1 ip = some (rlTableSlot t ip now).2 ∧
      addrBucket (rlTableTake t ip now).1 ip = (rlTake (addrBucket t ip) now).1 ∧
      (rlTableTake t ip now).2 = (rlTake (addrBucket t ip) now).2 := by
  have slot := sound.slot ip now
  have after : (rlTableTake t ip now).1.Sound burst rate :=
    slot.sound.setBucket rfl rfl ((slot.sound.bucket _).take now)
  have here : (rlTableTake t ip now).1.e (rlTableSlot t ip now).2 =
      { (rlTableSlot t ip now).1.e (rlTableSlot t ip now).2 with
        b := (rlTake (addrBucket t ip) now).1 } := by
    unfold rlTableTake
    dsimp only
    rw [Function.update_self, slot.bucket]
  have used : ((rlTableTake t ip now).1.e (rlTableSlot t ip now).2).used = true := by
    rw [here]
    exact slot.used
  have at_ : ((rlTableTake t ip now).1.e (rlTableSlot t ip now).2).ip = ip := by
    rw [here]
    exact slot.ofIp
  refine ⟨after, after.rlFind_eq used at_, ?_, ?_⟩
  · rw [after.addrBucket_eq used at_, here]
  · unfold rlTableTake
    dsimp only
    rw [slot.bucket]

/-- A refund is a refund to the bucket of the address. -/
theorem Sound.refund (sound : t.Sound burst rate) (found : rlFind t ip = some i) :
    (rlTableRefund t ip).Sound burst rate ∧
      addrBucket (rlTableRefund t ip) ip =
        { addrBucket t ip with
          tokensMilli := (addrBucket t ip).credit 1000 } := by
  obtain ⟨used, at_⟩ := rlFind_some found
  have bucket := sound.bucket i
  have was := sound.addrBucket_eq used at_
  unfold rlTableRefund
  rw [found]
  dsimp only
  have credited : RlBucket.Sound burst rate
      { (t.e i).b with tokensMilli := (t.e i).b.credit 1000 } :=
    ⟨bucket.cap, bucket.rate, (t.e i).b.credit_le 1000⟩
  have after := sound.setBucket (i := i)
    (e := { t.e i with
      b := { (t.e i).b with tokensMilli := (t.e i).b.credit 1000 } }) rfl rfl
    credited
  refine ⟨after, ?_⟩
  rw [was]
  refine (after.addrBucket_eq (i := i) ?_ ?_).trans ?_
  all_goals
    dsimp only
    rw [Function.update_self]
  · exact used
  · exact at_

end RlTable

end RlxFw.Httpd
