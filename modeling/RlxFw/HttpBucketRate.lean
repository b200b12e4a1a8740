import RlxFw.HttpBuckets
import Mathlib.Data.List.Sort
import Mathlib.Tactic.Linarith

/-!
# The declared rate of the buckets

`src/httpd/rl.c` in its own 32-bit words, against the buckets of natural numbers,
and over any run of takes.  Time is real and unbounded; the buckets see it as a
millisecond counter that wraps.
-/

namespace RlxFw.Httpd

/-! ## The words -/

/-- `struct rl_bucket`, in words. -/
structure RlWords where
  capMilli : UInt32
  rateMilli : UInt32
  tokensMilli : UInt32
  lastMs : UInt32
  started : Bool
deriving DecidableEq, Repr

/-- `rl_init`. -/
def rlInit32 (burst milliPerS : UInt32) : RlWords where
  capMilli := burst * 1000
  rateMilli := milliPerS
  tokensMilli := burst * 1000
  lastMs := 0
  started := false

/-- `rl_refill`. -/
def rlRefill32 (b : RlWords) (nowMs : UInt32) : RlWords :=
  let dt := nowMs - b.lastMs
  let add := dt * b.rateMilli / 1000
  if ¬ b.started then { b with started := true, lastMs := nowMs }
  else if nowMs < b.lastMs then { b with lastMs := nowMs }
  else if b.rateMilli = 0 then { b with lastMs := nowMs }
  else if dt = 0 then b
  else if dt > 200000 then { b with tokensMilli := b.capMilli, lastMs := nowMs }
  else if add = 0 then b
  else
    { b with
      lastMs := b.lastMs + add * 1000 / b.rateMilli
      tokensMilli :=
        if b.capMilli - b.tokensMilli ≤ add then b.capMilli
        else b.tokensMilli + add }

/-- `rl_take`. -/
def rlTake32 (b : RlWords) (nowMs : UInt32) : RlWords × Bool :=
  let b := rlRefill32 b nowMs
  if b.tokensMilli < 1000 then (b, false)
  else ({ b with tokensMilli := b.tokensMilli - 1000 }, true)

/-- `rl_retry_s`. -/
def rlRetryS32 (b : RlWords) : UInt32 :=
  if b.tokensMilli ≥ 1000 then 0
  else if b.rateMilli = 0 then 3600
  else (1000 - b.tokensMilli + b.rateMilli - 1) / b.rateMilli + 1

/-- The numbers that the words stand for. -/
def RlWords.value (b : RlWords) : RlBucket where
  capMilli := b.capMilli.toNat
  rateMilli := b.rateMilli.toNat
  tokensMilli := b.tokensMilli.toNat
  lastMs := b.lastMs.toNat
  started := b.started

/-- A burst and a rate at which no product leaves its word. -/
structure Fits (burst rate : Nat) : Prop where
  burst_lt : burst * 1000 < 2 ^ 32
  rate_lt : 200000 * rate < 2 ^ 32
  pos : 0 < rate

section Words

variable {burst rate : Nat} {b : RlWords}

theorem value_rlInit32 {burst rate : UInt32} (fits : Fits burst.toNat rate.toNat) :
    (rlInit32 burst rate).value = rlInit burst.toNat rate.toNat := by
  have cap : (burst * 1000).toNat = burst.toNat * 1000 := by
    rw [UInt32.toNat_mul]
    exact Nat.mod_eq_of_lt fits.burst_lt
  unfold rlInit32 rlInit RlWords.value
  rw [cap]
  rfl

/-- The credit of a refill, in words and in numbers. -/
structure Credited (b : RlWords) (now credit : UInt32) : Prop where
  add : credit.toNat = (now.toNat - b.value.lastMs) * b.value.rateMilli / 1000
  clock : (b.lastMs + credit * 1000 / b.rateMilli).toNat =
    b.value.lastMs + credit.toNat * 1000 / b.value.rateMilli
  filled : (if b.capMilli - b.tokensMilli ≤ credit then b.capMilli
    else b.tokensMilli + credit).toNat = b.value.credit credit.toNat

theorem credited (fits : Fits burst rate) (sound : b.value.Sound burst rate)
    {now : UInt32} (after : b.lastMs ≤ now) (short : (now - b.lastMs).toNat ≤ 200000) :
    Credited b now ((now - b.lastMs) * b.rateMilli / 1000) := by
  have same : b.value.rateMilli = b.rateMilli.toNat := rfl
  have isRate : b.rateMilli.toNat = rate := sound.rate
  have full : b.tokensMilli.toNat ≤ b.capMilli.toNat := sound.full
  have capLt := b.capMilli.toNat_lt
  have rateLt := fits.rate_lt
  have nowLt := now.toNat_lt
  have afterNat := UInt32.le_iff_toNat_le.mp after
  have dt : (now - b.lastMs).toNat = now.toNat - b.lastMs.toNat :=
    UInt32.toNat_sub_of_le _ _ after
  have product : (now - b.lastMs).toNat * rate ≤ 200000 * rate :=
    Nat.mul_le_mul_right _ short
  have add : ((now - b.lastMs) * b.rateMilli / 1000).toNat =
      (now - b.lastMs).toNat * rate / 1000 := by
    rw [UInt32.toNat_div, UInt32.toNat_mul, isRate, Nat.mod_eq_of_lt (by omega)]
    rfl
  generalize (now - b.lastMs) * b.rateMilli / 1000 = credit at add ⊢
  have cost : credit.toNat * 1000 ≤ (now - b.lastMs).toNat * rate := by
    rw [add]
    exact Nat.div_mul_le_self _ _
  have product' : (credit * 1000).toNat = credit.toNat * 1000 := by
    rw [UInt32.toNat_mul]
    exact Nat.mod_eq_of_lt (by
      change credit.toNat * 1000 < _
      omega)
  have spent : (credit * 1000 / b.rateMilli).toNat = credit.toNat * 1000 / rate := by
    rw [UInt32.toNat_div, product', isRate]
  have passed : credit.toNat * 1000 / rate ≤ (now - b.lastMs).toNat :=
    Nat.div_le_of_le_mul (by rw [Nat.mul_comm rate]; exact cost)
  refine ⟨?_, ?_, ?_⟩
  · rw [add, dt, same, isRate]
    rfl
  · rw [UInt32.toNat_add, spent, same, isRate, Nat.mod_eq_of_lt]
    · rfl
    · omega
  · have room : (b.capMilli - b.tokensMilli).toNat =
        b.capMilli.toNat - b.tokensMilli.toNat :=
      UInt32.toNat_sub_of_le _ _ (UInt32.le_iff_toNat_le.mpr full)
    have isFull : b.capMilli - b.tokensMilli ≤ credit ↔
        b.value.capMilli - b.value.tokensMilli ≤ credit.toNat := by
      rw [UInt32.le_iff_toNat_le, room]
      rfl
    unfold RlBucket.credit
    by_cases whole : b.capMilli - b.tokensMilli ≤ credit
    · rw [if_pos whole, if_pos (isFull.mp whole)]
      rfl
    · have below := mt UInt32.le_iff_toNat_le.mpr whole
      rw [if_neg whole, if_neg (mt isFull.mpr whole), UInt32.toNat_add,
        Nat.mod_eq_of_lt (by omega)]
      rfl

/-- A refill in words is a refill in numbers. -/
theorem value_rlRefill32 (fits : Fits burst rate) (sound : b.value.Sound burst rate)
    (now : UInt32) : (rlRefill32 b now).value = rlRefill b.value now.toNat := by
  have back : now < b.lastMs ↔ now.toNat < b.value.lastMs := UInt32.lt_iff_toNat_lt
  have moving : ¬ b.value.rateMilli = 0 := by
    rw [sound.rate]
    exact fits.pos.ne'
  unfold rlRefill32 rlRefill
  dsimp only
  by_cases fresh : ¬ b.started = true
  · rw [if_pos fresh, if_pos (show ¬ b.value.started = true from fresh)]
    rfl
  rw [if_neg fresh, if_neg (show ¬ ¬ b.value.started = true from fresh)]
  by_cases behind : now < b.lastMs
  · rw [if_pos behind, if_pos (back.mp behind)]
    rfl
  rw [if_neg behind, if_neg (mt back.mpr behind),
    if_neg (fun zero : b.rateMilli = 0 => moving (congrArg UInt32.toNat zero)),
    if_neg moving]
  have after : b.lastMs ≤ now := UInt32.not_lt.mp behind
  have dt : (now - b.lastMs).toNat = now.toNat - b.value.lastMs :=
    UInt32.toNat_sub_of_le _ _ after
  have isStill : now - b.lastMs = 0 ↔ now.toNat - b.value.lastMs = 0 := by
    rw [← dt]
    exact UInt32.toNat_inj.symm
  by_cases still : now - b.lastMs = 0
  · rw [if_pos still, if_pos (isStill.mp still)]
  rw [if_neg still, if_neg (mt isStill.mpr still)]
  have isLong : now - b.lastMs > 200000 ↔ now.toNat - b.value.lastMs > 200000 := by
    rw [← dt]
    exact UInt32.lt_iff_toNat_lt
  by_cases long : now - b.lastMs > 200000
  · rw [if_pos long, if_pos (isLong.mp long)]
    rfl
  rw [if_neg long, if_neg (mt isLong.mpr long)]
  have credit := credited fits sound after
    (UInt32.le_iff_toNat_le.mp (UInt32.not_lt.mp long))
  generalize (now - b.lastMs) * b.rateMilli / 1000 = add at credit ⊢
  have isNothing : add = 0 ↔ add.toNat = 0 := UInt32.toNat_inj.symm
  rw [← credit.add]
  by_cases nothing : add = 0
  · rw [if_pos nothing, if_pos (isNothing.mp nothing)]
  rw [if_neg nothing, if_neg (mt isNothing.mpr nothing), ← credit.clock,
    ← credit.filled]
  rfl

/-- A take in words is a take in numbers. -/
theorem value_rlTake32 (fits : Fits burst rate) (sound : b.value.Sound burst rate)
    (now : UInt32) :
    (rlTake32 b now).1.value = (rlTake b.value now.toNat).1 ∧
      (rlTake32 b now).2 = (rlTake b.value now.toNat).2 := by
  have refilled := value_rlRefill32 fits sound now
  unfold rlTake32 rlTake
  dsimp only
  rw [← refilled]
  generalize rlRefill32 b now = b'
  have isShort : b'.tokensMilli < 1000 ↔ b'.value.tokensMilli < 1000 :=
    UInt32.lt_iff_toNat_lt
  by_cases short : b'.tokensMilli < 1000
  · rw [if_pos short, if_pos (isShort.mp short)]
    exact ⟨rfl, rfl⟩
  · have left : (b'.tokensMilli - 1000).toNat = b'.tokensMilli.toNat - 1000 :=
      UInt32.toNat_sub_of_le _ _ (UInt32.not_lt.mp short)
    rw [if_neg short, if_neg (mt isShort.mpr short)]
    refine ⟨?_, rfl⟩
    unfold RlWords.value
    dsimp only
    rw [left]

/-- The wait in words is the wait in numbers. -/
theorem toNat_rlRetryS32 (fits : Fits burst rate) (sound : b.value.Sound burst rate) :
    (rlRetryS32 b).toNat = rlRetryS b.value := by
  have isRate : b.rateMilli.toNat = rate := sound.rate
  have rateLt := fits.rate_lt
  have ratePos := fits.pos
  have isEnough : b.tokensMilli ≥ 1000 ↔ b.value.tokensMilli ≥ 1000 :=
    UInt32.le_iff_toNat_le
  have moving : ¬ b.value.rateMilli = 0 := by
    rw [sound.rate]
    omega
  unfold rlRetryS32 rlRetryS
  by_cases enough : b.tokensMilli ≥ 1000
  · rw [if_pos enough, if_pos (isEnough.mp enough)]
    rfl
  rw [if_neg enough, if_neg (mt isEnough.mpr enough),
    if_neg (fun zero : b.rateMilli = 0 => moving (congrArg UInt32.toNat zero)),
    if_neg moving]
  have short : b.tokensMilli.toNat < 1000 :=
    UInt32.lt_iff_toNat_lt.mp (UInt32.not_le.mp enough)
  have need : (1000 - b.tokensMilli).toNat = 1000 - b.tokensMilli.toNat :=
    UInt32.toNat_sub_of_le _ _ (UInt32.le_of_lt (UInt32.not_le.mp enough))
  have sum : (1000 - b.tokensMilli + b.rateMilli).toNat =
      1000 - b.tokensMilli.toNat + rate := by
    rw [UInt32.toNat_add, need, isRate, Nat.mod_eq_of_lt (by omega)]
  have part : (1000 - b.tokensMilli + b.rateMilli - 1).toNat =
      1000 - b.tokensMilli.toNat + rate - 1 := by
    rw [UInt32.toNat_sub_of_le, sum]
    · rfl
    · rw [UInt32.le_iff_toNat_le, sum]
      change 1 ≤ _
      omega
  have quotient : (1000 - b.tokensMilli.toNat + rate - 1) / rate ≤
      1000 - b.tokensMilli.toNat + rate - 1 := Nat.div_le_self _ _
  rw [UInt32.toNat_add, UInt32.toNat_div, part, isRate, Nat.mod_eq_of_lt]
  · rw [sound.rate]
    rfl
  · change _ + 1 < _
    omega

end Words

/-! ## Runs -/

/-- Takes, one after the other at these times: the bucket, and how many were
granted. -/
def takesAt {Bucket : Type*} (take : Bucket → Nat → Bucket × Bool) :
    Bucket → List Nat → Bucket × Nat
  | b, [] => (b, 0)
  | b, t :: ts =>
      ((takesAt take (take b t).1 ts).1,
        (take b t).2.toNat + (takesAt take (take b t).1 ts).2)

/-- A take at a real time, in words: the counter wraps. -/
def rlTakeWords (b : RlWords) (t : Nat) : RlWords × Bool :=
  rlTake32 b (UInt32.ofNat t)

/-- A take at a real time, in numbers. -/
def rlTakeNumbers (b : RlBucket) (t : Nat) : RlBucket × Bool :=
  rlTake b (t % 2 ^ 32)

/-- The buckets of the server, as `rl.h` configures them. -/
inductive RlUse where
  /-- `RL_CONN_*`. -/
  | conn
  /-- `RL_CONN_IP_*`. -/
  | connIp
  /-- `RL_KDF_*`. -/
  | kdf
  /-- `RL_KDF_IP_*`. -/
  | kdfIp
deriving DecidableEq, Repr

/-- The burst of a bucket. -/
def RlUse.burst : RlUse → UInt32
  | .conn => 32
  | .connIp => 16
  | .kdf => 3
  | .kdfIp => 3

/-- Its rate, in milli-tokens a second. -/
def RlUse.rate : RlUse → UInt32
  | .conn => 16000
  | .connIp => 8000
  | .kdf => 250
  | .kdfIp => 100

/-- The milliseconds that may have passed before the next milli-token is due. -/
def RlUse.slack : RlUse → Nat
  | .conn => 0
  | .connIp => 0
  | .kdf => 3
  | .kdfIp => 9

/-- The bucket as it starts. -/
def RlUse.bucket (use : RlUse) : RlWords := rlInit32 use.burst use.rate

theorem RlUse.fits (use : RlUse) : Fits use.burst.toNat use.rate.toNat := by
  cases use <;> constructor <;> decide

/-! ## The level of a bucket -/

/-- Milli-tokens are due at whole milliseconds: what a refill grants is paid for
exactly, and little time is left. -/
structure Exact (burst rate slack : Nat) : Prop where
  spent : ∀ dt, dt * rate / 1000 * 1000 / rate * rate = dt * rate / 1000 * 1000
  left : ∀ dt, dt - dt * rate / 1000 * 1000 / rate ≤ slack
  saturates : burst * 1000000 ≤ 200000 * rate

theorem exact_of_cost {burst rate cost : Nat} (whole : cost * rate = 1000)
    (saturates : burst * 1000000 ≤ 200000 * rate) :
    Exact burst rate (cost - 1) := by
  have ratePos : 0 < rate := Nat.pos_of_ne_zero (by rintro rfl; omega)
  have costPos : 0 < cost := Nat.pos_of_ne_zero (by rintro rfl; omega)
  have perMs (dt : Nat) : dt * rate / 1000 = dt / cost := by
    rw [← whole, Nat.mul_div_mul_right _ _ ratePos]
  have paid (dt : Nat) : dt * rate / 1000 * 1000 / rate = dt / cost * cost := by
    rw [perMs, ← whole, ← Nat.mul_assoc, Nat.mul_div_cancel _ ratePos]
  refine ⟨fun dt => ?_, fun dt => ?_, saturates⟩
  · rw [paid, perMs, Nat.mul_assoc, whole]
  · rw [paid]
    have parts := Nat.div_add_mod' dt cost
    have rest := Nat.mod_lt dt costPos
    omega

theorem exact_of_multiple {burst rate k : Nat} (multiple : rate = k * 1000)
    (pos : 0 < rate) (saturates : burst * 1000000 ≤ 200000 * rate) :
    Exact burst rate 0 := by
  have paid (dt : Nat) : dt * rate / 1000 * 1000 = dt * rate := by
    rw [multiple, ← Nat.mul_assoc, Nat.mul_div_cancel _ (by decide)]
  refine ⟨fun dt => ?_, fun dt => ?_, saturates⟩
  · rw [paid, Nat.mul_div_cancel _ pos]
  · rw [paid, Nat.mul_div_cancel _ pos, Nat.sub_self]

theorem RlUse.exact (use : RlUse) :
    Exact use.burst.toNat use.rate.toNat use.slack := by
  cases use with
  | conn =>
      exact exact_of_multiple (show (16000 : Nat) = 16 * 1000 from rfl)
        (by decide) (by decide)
  | connIp =>
      exact exact_of_multiple (show (8000 : Nat) = 8 * 1000 from rfl)
        (by decide) (by decide)
  | kdf => exact exact_of_cost (show 4 * 250 = 1000 from rfl) (by decide)
  | kdfIp => exact exact_of_cost (show 10 * 100 = 1000 from rfl) (by decide)

/-- The milliseconds that were not yet granted. -/
def RlBucket.lag (b : RlBucket) (t : Nat) : Nat :=
  if b.started then t % 2 ^ 32 - b.lastMs else 0

/-- What a bucket holds, the time not yet granted included, in millionths of a
token. -/
def RlBucket.level (b : RlBucket) (t : Nat) : Nat :=
  b.tokensMilli * 1000 + b.lag t * b.rateMilli

/-- A bucket as a call at a time leaves it. -/
structure RlBucket.ReadyAt (burst rate slack : Nat) (b : RlBucket) (t : Nat) :
    Prop where
  sound : b.Sound burst rate
  lag_le : b.lag t ≤ slack
  before : b.started = true → b.lastMs ≤ t % 2 ^ 32

section Level

variable {burst rate slack : Nat} {b : RlBucket} {t t' : Nat}

theorem readyAt_rlInit (slack t : Nat) : (rlInit burst rate).ReadyAt burst rate slack t :=
  ⟨sound_rlInit burst rate, Nat.zero_le _, nofun⟩

theorem RlBucket.ReadyAt.level_le (ready : b.ReadyAt burst rate slack t) :
    b.level t ≤ burst * 1000000 + slack * rate := by
  have full := ready.sound.full
  have lag := Nat.mul_le_mul_right b.rateMilli ready.lag_le
  have cap := ready.sound.cap
  have isRate := ready.sound.rate
  unfold RlBucket.level
  rw [isRate] at lag ⊢
  omega

/-- What a refill leaves. -/
structure Refills (burst rate slack : Nat) (b b' : RlBucket) (t t' : Nat) : Prop where
  ready : b'.ReadyAt burst rate slack t'
  started : b'.started = true
  level : b'.level t' ≤ b.level t + (t' - t) * rate

/-- The counter moves no further than the time, when it moves forward. -/
theorem counter_sub_le (later : t ≤ t') : t' % 2 ^ 32 - t % 2 ^ 32 ≤ t' - t := by
  have first := Nat.div_add_mod t (2 ^ 32)
  have second := Nat.div_add_mod t' (2 ^ 32)
  have turns : t / 2 ^ 32 ≤ t' / 2 ^ 32 := Nat.div_le_div_right later
  omega

theorem RlBucket.credit_le_add (b : RlBucket) (add : Nat) :
    b.credit add ≤ b.tokensMilli + add := by
  unfold RlBucket.credit
  split <;> omega

/-- A bucket that keeps its clock, or moves it by what it granted. -/
theorem refills_of_lag {b' : RlBucket} {now : Nat} (isNow : t' % 2 ^ 32 = now)
    (sound' : b'.Sound burst rate) (started : b'.started = true)
    (before : b'.lastMs ≤ now) (lag : now - b'.lastMs ≤ slack)
    (level : b'.tokensMilli * 1000 + (now - b'.lastMs) * rate ≤
      b.level t + (t' - t) * rate) :
    Refills burst rate slack b b' t t' := by
  subst isNow
  have isLag : b'.lag t' = t' % 2 ^ 32 - b'.lastMs := if_pos started
  refine ⟨⟨sound', isLag ▸ lag, fun _ => before⟩, started, ?_⟩
  unfold RlBucket.level
  rw [isLag, sound'.rate]
  exact level

/-- A refill grants no more than the time that passed. -/
theorem RlBucket.ReadyAt.refill (exact_ : Exact burst rate slack)
    (ready : b.ReadyAt burst rate slack t) (later : t ≤ t') :
    Refills burst rate slack b (rlRefill b (t' % 2 ^ 32)) t t' := by
  have isRate := ready.sound.rate
  have sound' := ready.sound.refill (t' % 2 ^ 32)
  have advance := counter_sub_le later
  have before := ready.before
  have held : b.tokensMilli * 1000 ≤ b.level t + (t' - t) * rate := by
    unfold RlBucket.level
    omega
  generalize isNow : t' % 2 ^ 32 = now at sound' advance ⊢
  have keeps {b' : RlBucket} (sound' : b'.Sound burst rate)
      (started : b'.started = true) (clock : b'.lastMs = now)
      (tokens : b'.tokensMilli * 1000 ≤ b.level t + (t' - t) * rate) :
      Refills burst rate slack b b' t t' := by
    apply refills_of_lag isNow sound' started clock.le
    · rw [clock, Nat.sub_self]
      exact Nat.zero_le _
    · rw [clock, Nat.sub_self, Nat.zero_mul, Nat.add_zero]
      exact tokens
  have isLevel (started : b.started = true) :
      b.level t = b.tokensMilli * 1000 + (t % 2 ^ 32 - b.lastMs) * rate := by
    rw [RlBucket.level, RlBucket.lag, if_pos started, isRate]
  generalize t % 2 ^ 32 = then_ at advance before isLevel
  generalize made : rlRefill b now = b' at sound' ⊢
  unfold rlRefill at made
  dsimp only at made
  split at made
  · subst made
    exact keeps sound' rfl rfl held
  next fresh =>
  have started : b.started = true := not_not.mp fresh
  split at made
  · subst made
    exact keeps sound' started rfl held
  next ahead =>
  split at made
  · subst made
    exact keeps sound' started rfl held
  split at made
  · next still =>
    subst made
    exact keeps sound' started (by omega) held
  -- the time not yet granted is the earlier lag and what has passed since
  have before := before started
  have passed : (now - b.lastMs) * rate ≤
      (then_ - b.lastMs) * rate + (t' - t) * rate := by
    rw [← Nat.add_mul]
    exact Nat.mul_le_mul_right _ (by omega)
  rw [isLevel started] at keeps
  split at made
  · next long =>
    have saturates := exact_.saturates
    have cap : b.capMilli * 1000 = burst * 1000000 := by
      rw [ready.sound.cap, Nat.mul_assoc]
    have much : 200000 * rate ≤ (now - b.lastMs) * rate :=
      Nat.mul_le_mul_right _ (by omega)
    have enough : b.capMilli * 1000 ≤
        b.tokensMilli * 1000 + (then_ - b.lastMs) * rate + (t' - t) * rate := by
      linarith
    subst made
    exact keeps sound' started rfl enough
  have left := exact_.left (now - b.lastMs)
  have spent := exact_.spent (now - b.lastMs)
  have whole : (now - b.lastMs) * rate / 1000 * 1000 ≤ (now - b.lastMs) * rate :=
    Nat.div_mul_le_self _ _
  rw [isRate] at made
  generalize (now - b.lastMs) * rate / 1000 = add at made left spent whole
  split at made
  · next nothing =>
    subst made
    rw [nothing, Nat.zero_mul, Nat.zero_div, Nat.sub_zero] at left
    refine refills_of_lag isNow sound' started (by omega) left ?_
    rw [isLevel started]
    linarith
  · have granted := b.credit_le_add add
    have room : add * 1000 / rate ≤ now - b.lastMs := by
      rcases Nat.eq_zero_or_pos rate with rfl | pos
      · rw [Nat.div_zero]
        exact Nat.zero_le _
      · exact Nat.div_le_of_le_mul (by rw [Nat.mul_comm rate]; exact whole)
    have rest : (now - (b.lastMs + add * 1000 / rate)) * rate =
        (now - b.lastMs) * rate - add * 1000 := by
      rw [← Nat.sub_sub, Nat.sub_mul, spent]
    subst made
    refine refills_of_lag isNow sound' started ?_ ?_ ?_ <;> dsimp only
    · omega
    · omega
    · rw [rest, isLevel started]
      calc b.credit add * 1000 + ((now - b.lastMs) * rate - add * 1000)
          ≤ (b.tokensMilli + add) * 1000 + ((now - b.lastMs) * rate - add * 1000) :=
            Nat.add_le_add_right (Nat.mul_le_mul_right _ granted) _
        _ = b.tokensMilli * 1000 + (now - b.lastMs) * rate := by
            rw [Nat.add_mul, Nat.add_assoc, Nat.add_sub_cancel' whole]
        _ ≤ b.tokensMilli * 1000 + (then_ - b.lastMs) * rate + (t' - t) * rate := by
            linarith

/-- A take at a time. -/
theorem RlBucket.ReadyAt.take (exact_ : Exact burst rate slack)
    (ready : b.ReadyAt burst rate slack t) (later : t ≤ t') :
    (rlTakeNumbers b t').1.ReadyAt burst rate slack t' ∧
      (rlTakeNumbers b t').1.level t' + (rlTakeNumbers b t').2.toNat * 1000000 ≤
        b.level t + (t' - t) * rate ∧
      (rlTakeNumbers b t').1.level t' + (rlTakeNumbers b t').2.toNat * 1000000 ≤
        burst * 1000000 + slack * rate := by
  have refilled := ready.refill exact_ later
  have sound' := ready.sound.take (t' % 2 ^ 32)
  have full := refilled.ready.level_le
  have level := refilled.level
  unfold rlTakeNumbers
  unfold rlTake at sound' ⊢
  dsimp only at sound' ⊢
  generalize rlRefill b (t' % 2 ^ 32) = b' at refilled level full sound' ⊢
  split
  · simp only [Bool.toNat_false, Nat.zero_mul, Nat.add_zero]
    exact ⟨refilled.ready, level, full⟩
  · next enough =>
    rw [if_neg enough] at sound'
    have less : ({ b' with tokensMilli := b'.tokensMilli - 1000 } : RlBucket).level t' +
        1000000 = b'.level t' := by
      unfold RlBucket.level RlBucket.lag
      dsimp only
      omega
    have lag : ({ b' with tokensMilli := b'.tokensMilli - 1000 } : RlBucket).lag t' =
        b'.lag t' := by
      unfold RlBucket.lag
      dsimp only
    refine ⟨⟨sound', lag.trans_le refilled.ready.lag_le, refilled.ready.before⟩,
      ?_, ?_⟩ <;> simp only [Bool.toNat_true] <;> linarith

end Level

/-! ## Any run and any window -/

section Runs

variable {burst rate slack : Nat} {b : RlBucket} {t : Nat}

theorem takesAt_append {Bucket : Type*} (take : Bucket → Nat → Bucket × Bool)
    (b : Bucket) (first rest : List Nat) :
    takesAt take b (first ++ rest) =
      ((takesAt take (takesAt take b first).1 rest).1,
        (takesAt take b first).2 + (takesAt take (takesAt take b first).1 rest).2) := by
  induction first generalizing b with
  | nil => simp [takesAt]
  | cons t ts ih => simp [takesAt, ih, Nat.add_assoc]

/-- A run of takes, and the time it took. -/
theorem RlBucket.ReadyAt.takes (exact_ : Exact burst rate slack)
    (ready : b.ReadyAt burst rate slack t) (times : List Nat)
    (ordered : times.Pairwise (· ≤ ·)) {until_ : Nat}
    (inside : ∀ u ∈ times, t ≤ u ∧ u ≤ until_) (later : t ≤ until_) :
    (∃ last, (takesAt rlTakeNumbers b times).1.ReadyAt burst rate slack last ∧
        last ≤ until_ ∧ t ≤ last) ∧
      (takesAt rlTakeNumbers b times).2 * 1000000 ≤
        b.level t + (until_ - t) * rate := by
  induction times generalizing b t with
  | nil => exact ⟨⟨t, ready, later, le_refl _⟩, by simp [takesAt]⟩
  | cons u us ih =>
      have bounds := inside u (List.mem_cons_self ..)
      obtain ⟨ready', level, -⟩ := ready.take exact_ bounds.1
      obtain ⟨rest, after⟩ := List.pairwise_cons.mp ordered
      obtain ⟨⟨last, lastReady, lastLe, leLast⟩, granted⟩ := ih ready' after
        (fun v member => ⟨rest v member, (inside v (List.mem_cons_of_mem _ member)).2⟩)
        bounds.2
      refine ⟨⟨last, lastReady, lastLe, bounds.1.trans leLast⟩, ?_⟩
      have parts : (until_ - t) * rate = (u - t) * rate + (until_ - u) * rate := by
        rw [← Nat.add_mul]
        congr 1
        omega
      simp only [takesAt]
      rw [Nat.add_mul, parts]
      linarith

/-- After a refusal, a take at the announced time is granted. -/
theorem RlBucket.ReadyAt.granted_after (ready : b.ReadyAt burst rate slack t)
    (started : b.started = true) (short : b.tokensMilli < 1000) (pos : 0 < rate)
    (some_ : 0 < burst) {u : Nat} (epoch : u / 2 ^ 32 = t / 2 ^ 32)
    (waited : t + 1000 * rlRetryS b ≤ u) : (rlTakeNumbers b u).2 = true := by
  have isRate := ready.sound.rate
  have cap := ready.sound.cap
  have before := ready.before started
  have moved : t % 2 ^ 32 + 1000 * rlRetryS b ≤ u % 2 ^ 32 := by
    have first := Nat.div_add_mod t (2 ^ 32)
    have second := Nat.div_add_mod u (2 ^ 32)
    omega
  have wait : rlRetryS b = (1000 - b.tokensMilli + rate - 1) / rate + 1 := by
    unfold rlRetryS
    rw [if_neg (by omega), if_neg (by omega), isRate]
  have paid : 1000 - b.tokensMilli ≤ rlRetryS b * rate := by
    have parts := Nat.div_add_mod' (1000 - b.tokensMilli + rate - 1) rate
    have rest := Nat.mod_lt (1000 - b.tokensMilli + rate - 1) pos
    rw [wait, Nat.add_mul, Nat.one_mul]
    omega
  have waits : 1 ≤ rlRetryS b := by
    rw [wait]
    exact Nat.succ_pos _
  generalize t % 2 ^ 32 = then_ at before moved
  unfold rlTakeNumbers
  generalize u % 2 ^ 32 = now at moved ⊢
  have due : rlRetryS b * rate ≤ (now - b.lastMs) * rate / 1000 := by
    rw [Nat.le_div_iff_mul_le (by decide)]
    calc rlRetryS b * rate * 1000 = 1000 * rlRetryS b * rate := by
          rw [Nat.mul_comm _ 1000, Nat.mul_assoc]
      _ ≤ (now - b.lastMs) * rate := Nat.mul_le_mul_right _ (by omega)
  have enough : 1000 ≤ (rlRefill b now).tokensMilli := by
    unfold rlRefill
    dsimp only
    rw [if_neg (not_not.mpr started), if_neg (by omega), if_neg (by omega), isRate]
    generalize (now - b.lastMs) * rate / 1000 = add at due ⊢
    rw [if_neg (by omega : ¬ now - b.lastMs = 0)]
    split
    · dsimp only
      omega
    rw [if_neg (by omega)]
    dsimp only
    unfold RlBucket.credit
    split <;> omega
  unfold rlTake
  dsimp only
  rw [if_neg (not_lt.mpr enough)]

/-- The words of a run stand for the numbers of the same run. -/
theorem value_takesAt (fits : Fits burst rate) {b : RlWords}
    (sound : b.value.Sound burst rate) (times : List Nat) :
    (takesAt rlTakeWords b times).1.value = (takesAt rlTakeNumbers b.value times).1 ∧
      (takesAt rlTakeWords b times).2 = (takesAt rlTakeNumbers b.value times).2 ∧
      (takesAt rlTakeWords b times).1.value.Sound burst rate := by
  induction times generalizing b with
  | nil => exact ⟨rfl, rfl, sound⟩
  | cons t ts ih =>
      obtain ⟨value, granted⟩ := value_rlTake32 fits sound (UInt32.ofNat t)
      rw [UInt32.toNat_ofNat'] at value granted
      have sound' : (rlTakeWords b t).1.value.Sound burst rate := by
        unfold rlTakeWords
        rw [value]
        exact sound.take _
      obtain ⟨state, count, after⟩ := ih sound'
      have same : (rlTakeWords b t).1.value = (rlTakeNumbers b.value t).1 := value
      have flag : (rlTakeWords b t).2 = (rlTakeNumbers b.value t).2 := granted
      refine ⟨?_, ?_, after⟩
      · simp only [takesAt]
        rw [state, same]
      · simp only [takesAt]
        rw [count, same, flag]

end Runs

/-! ## What is promised -/

/-- A bucket after takes at these times. -/
def RlUse.after (use : RlUse) (times : List Nat) : RlWords :=
  (takesAt rlTakeWords use.bucket times).1

/-- In any window of `T` ms of any run the grants stay within the burst and what
the rate gives in `T` ms and `slack`. -/
def WindowBound (use : RlUse) (slack : Nat) : Prop :=
  ∀ (early window : List Nat) (start T : Nat), (early ++ window).Pairwise (· ≤ ·) →
    (∀ t ∈ window, start ≤ t ∧ t ≤ start + T) →
    (takesAt rlTakeWords (use.after early) window).2 * 1000000 ≤
      use.burst.toNat * 1000000 + (T + slack) * use.rate.toNat

/-- No word overflows: a run in words is the run in numbers, and never holds more
than the burst. -/
def StaysInWords (use : RlUse) : Prop :=
  ∀ times : List Nat,
    (use.after times).value =
        (takesAt rlTakeNumbers (rlInit use.burst.toNat use.rate.toNat) times).1 ∧
      (use.after times).tokensMilli.toNat ≤ use.burst.toNat * 1000 ∧
      (rlRetryS32 (use.after times)).toNat = rlRetryS (use.after times).value

/-- After a refusal, once `rl_retry_s` has passed without a wrap, a take is
granted. -/
def RetryGranted (use : RlUse) : Prop :=
  ∀ (past : List Nat) (t u : Nat), (past ++ [t]).Pairwise (· ≤ ·) →
    (rlTakeWords (use.after past) t).2 = false →
    t + 1000 * (rlRetryS32 (use.after (past ++ [t]))).toNat ≤ u →
    u / 2 ^ 32 = t / 2 ^ 32 →
    (rlTakeWords (use.after (past ++ [t])) u).2 = true

theorem RlUse.sound (use : RlUse) :
    use.bucket.value.Sound use.burst.toNat use.rate.toNat := by
  rw [RlUse.bucket, value_rlInit32 use.fits]
  exact sound_rlInit _ _

/-- A run of the words, as a run of the numbers. -/
theorem RlUse.after_value (use : RlUse) (times : List Nat) :
    (use.after times).value =
        (takesAt rlTakeNumbers (rlInit use.burst.toNat use.rate.toNat) times).1 ∧
      (use.after times).value.Sound use.burst.toNat use.rate.toNat := by
  obtain ⟨value, -, sound⟩ := value_takesAt use.fits use.sound times
  refine ⟨value.trans ?_, sound⟩
  rw [RlUse.bucket, value_rlInit32 use.fits]

theorem staysInWords (use : RlUse) : StaysInWords use := by
  intro times
  obtain ⟨value, sound⟩ := use.after_value times
  refine ⟨value, ?_, toNat_rlRetryS32 use.fits sound⟩
  have full := sound.full
  rw [sound.cap] at full
  exact full

/-- A bucket after an ordered run is ready for what comes later. -/
theorem RlUse.readyAt (use : RlUse) {past : List Nat} {t : Nat}
    (ordered : (past ++ [t]).Pairwise (· ≤ ·)) :
    ∃ last, last ≤ t ∧
      (use.after past).value.ReadyAt use.burst.toNat use.rate.toNat use.slack last := by
  obtain ⟨early, -, before⟩ := List.pairwise_append.mp ordered
  have bounds (u : Nat) (member : u ∈ past) : 0 ≤ u ∧ u ≤ t :=
    ⟨Nat.zero_le _, before u member t (List.mem_singleton_self t)⟩
  obtain ⟨⟨last, ready, lastLe, -⟩, -⟩ :=
    (readyAt_rlInit use.slack 0).takes use.exact past early bounds
      (Nat.zero_le _)
  rw [← (use.after_value past).1] at ready
  exact ⟨last, lastLe, ready⟩

theorem windowBound (use : RlUse) : WindowBound use use.slack := by
  intro early window start T ordered inside
  cases window with
  | nil => simp [takesAt]
  | cons t rest =>
      have apart : early ++ t :: rest = (early ++ [t]) ++ rest := by simp
      rw [apart] at ordered
      obtain ⟨upTo, late, between⟩ := List.pairwise_append.mp ordered
      obtain ⟨last, lastLe, ready⟩ := use.readyAt upTo
      obtain ⟨-, count, -⟩ := value_takesAt use.fits (use.after_value early).2 (t :: rest)
      -- the first take of the window finds no more than the burst and the slack
      obtain ⟨ready', -, level⟩ := ready.take use.exact lastLe
      have bounds (u : Nat) (member : u ∈ rest) : t ≤ u ∧ u ≤ start + T :=
        ⟨between t (by simp) u member, (inside u (List.mem_cons_of_mem _ member)).2⟩
      have first := inside t (List.mem_cons_self ..)
      obtain ⟨-, granted⟩ := ready'.takes use.exact rest late bounds first.2
      have short : (start + T - t) * use.rate.toNat ≤ T * use.rate.toNat :=
        Nat.mul_le_mul_right _ (by omega)
      rw [count, Nat.add_mul T]
      simp only [takesAt]
      rw [Nat.add_mul]
      linarith

theorem retryGranted (use : RlUse) : RetryGranted use := by
  intro past t u ordered refused waited epoch
  obtain ⟨last, lastLe, ready⟩ := use.readyAt ordered
  obtain ⟨value, flag⟩ := value_rlTake32 use.fits ready.sound (UInt32.ofNat t)
  rw [UInt32.toNat_ofNat'] at value flag
  have now : (use.after (past ++ [t])).value =
      (rlTakeNumbers (use.after past).value t).1 := by
    unfold RlUse.after
    rw [takesAt_append]
    exact value
  rw [toNat_rlRetryS32 use.fits (use.after_value _).2] at waited
  have refilled := ready.refill use.exact lastLe
  have kept := rlTake_refused (flag.symm.trans refused)
  have short : (rlRefill (use.after past).value (t % 2 ^ 32)).tokensMilli < 1000 := by
    have refused' := flag.symm.trans refused
    unfold rlTake at refused'
    dsimp only at refused'
    split at refused'
    · assumption
    · cases refused'
  have isState : (use.after (past ++ [t])).value =
      rlRefill (use.after past).value (t % 2 ^ 32) := now.trans kept
  have granted := refilled.ready.granted_after refilled.started short use.fits.pos
    (by cases use <;> decide) epoch (isState ▸ waited)
  rw [← isState] at granted
  obtain ⟨-, answer⟩ := value_rlTake32 use.fits (use.after_value (past ++ [t])).2
    (UInt32.ofNat u)
  rw [UInt32.toNat_ofNat'] at answer
  exact answer.trans granted

/-- The four buckets of the server: their rate up to a milli-token, their words,
and the wait they announce. -/
theorem buckets_keep_their_rate (use : RlUse) :
    WindowBound use use.slack ∧ StaysInWords use ∧ RetryGranted use :=
  ⟨windowBound use, staysInWords use, retryGranted use⟩

/-- With no slack the bound fails: a milli-token that was nearly due when the
window opened is granted in it. -/
theorem windowBound_fails :
    ¬ ∀ use : RlUse, WindowBound use 0 ∧ StaysInWords use ∧ RetryGranted use := by
  intro all
  have bound := (all .kdfIp).1 [0] [10009, 10009, 10009, 20000] 10009 9991 (by decide)
    (by decide)
  revert bound
  decide

end RlxFw.Httpd
