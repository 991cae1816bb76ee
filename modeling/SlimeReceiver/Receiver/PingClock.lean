import SlimeReceiver.Library.NewtonSqrt
import SlimeReceiver.Library.SignedRange

/-! # The clock of a tracker

With the diagnostics on, `account_ping_clock` compares the ticks of every PING with those the tracker expected, and
estimates how fast the two clocks drift apart. Every operation on a signed type is checked: the model ends where one
would overflow, and where one would divide by zero.

* **`accountPingClock`** — the bias and the drift, on the fields of one tracker; **`pingClockAfter`** — a sequence of
  calls.
* **`stdDev`** — the standard deviation, a square root by Newton's iteration.
* **`TicksInRange`** — the ticks a PING may have: the condition of **`ping_clock_in_range`**. -/

namespace SlimeReceiver

/-! ## The code -/

/-- The fields of `struct tracker_diag` the clock uses. -/
structure TrackerClock where
  lastPingRxTimeDiffTicks : SignedInt 32
  lastPingRxTimeDiffValid : Bool
  pingIsrRxTicks : BitVec 32
  pingIsrRxTicksValid : Bool
  /-- 0 = unavailable, 1 = initial estimate, 2 = mature estimate. -/
  biasPpbValid : ℕ
  biasPpb : SignedInt 32
  biasRefOffset : SignedInt 32
  biasRefTicks : BitVec 32
  lastPingIsrRxTicksRaw : BitVec 32
  pingDirtyStreak : BitVec 8
  pingRejectCount : BitVec 32
  deriving DecidableEq

/-- Zero as an `int32_t`. -/
def zeroTicks : SignedInt 32 := ⟨0, by decide⟩

/-- `memset` to zero. -/
def TrackerClock.zero : TrackerClock := ⟨zeroTicks, false, 0, false, 0, zeroTicks, zeroTicks, 0, 0, 0, 0⟩

/-- `PING_TX_START_TO_RX_TICKS`. -/
def pingTxStartToRxTicks : ℤ := 5

/-- `PING_CLEAN_REACQUIRE_STREAK`. -/
def pingCleanReacquireStreak : ℕ := 8

/-- `isr_rx_ticks`: the ticks sampled in the interrupt, if there are any. -/
def TrackerClock.isrRxTicks (clock : TrackerClock) (currentRxTicks : BitVec 32) : BitVec 32 :=
  if clock.pingIsrRxTicksValid then clock.pingIsrRxTicks else currentRxTicks

/-- `rx_time_diff_ticks`. -/
def TrackerClock.rxTimeDiffTicks (clock : TrackerClock) (expectedRxTicks currentRxTicks : BitVec 32) : ℤ :=
  (clock.isrRxTicks currentRxTicks - expectedRxTicks).toInt

/-- The choice of `clean_ping`, with `prev_bias`. -/
def cleanPing (clock : TrackerClock) (rxTimeDiffTicks : ℤ) : Option (TrackerClock × Bool × ℤ) :=
  if !clock.lastPingRxTimeDiffValid then some (clock, true, 0)
  else
    let prevBias := clock.lastPingRxTimeDiffTicks.val
    (checked 32 (clock.lastPingRxTimeDiffTicks.val + pingTxStartToRxTicks)).bind fun sum =>
    (checked 32 (sum.val + 2)).bind fun limit =>
    if rxTimeDiffTicks ≤ limit.val then some ({ clock with pingDirtyStreak := 0 }, true, prevBias)
    else
      let counted := { clock with
        pingRejectCount := clock.pingRejectCount + 1, pingDirtyStreak := clock.pingDirtyStreak + 1 }
      if pingCleanReacquireStreak ≤ counted.pingDirtyStreak.toNat then
        some ({ counted with pingDirtyStreak := 0, biasPpbValid := 0 }, true, 0)
      else some (counted, false, prevBias)

/-- The division of `int64_t` by `uint32_t`. -/
def checkedDiv (x : SignedInt 64) (y : BitVec 32) : Option ℤ := if y.toNat = 0 then none else some (x.val.tdiv y.toNat)

/-- `raw_ppb`. -/
def rawPpb (newBias refOffset : SignedInt 32) (elapsed : BitVec 32) : Option (SignedInt 32) :=
  (checked 32 (newBias.val - refOffset.val)).bind fun totalDrift =>
  (checked 64 (totalDrift.val * 1000000000)).bind fun scaled =>
  (checkedDiv scaled elapsed).bind fun quotient =>
  checked 32 quotient

/-- The smoothed estimate. -/
def smoothPpb (biasPpb raw : SignedInt 32) : Option (SignedInt 32) :=
  (checked 32 (raw.val - biasPpb.val)).bind fun diff => checked 32 (biasPpb.val + diff.val.tdiv 4)

/-- A new estimate of the drift, once a second has passed. -/
def estimateDrift (clock : TrackerClock) (elapsed : BitVec 32) : Option TrackerClock :=
  (rawPpb clock.lastPingRxTimeDiffTicks clock.biasRefOffset elapsed).bind fun raw =>
  if 1 < clock.biasPpbValid then
    (smoothPpb clock.biasPpb raw).map fun biasPpb => { clock with biasPpb }
  else some { clock with biasPpb := raw, biasPpbValid := 2 }

/-- What a clean PING does to the drift. -/
def updateDrift (clock : TrackerClock) (isrRxTicks : BitVec 32) : Option TrackerClock :=
  if clock.biasPpbValid = 0 then
    some { clock with
      biasRefOffset := clock.lastPingRxTimeDiffTicks, biasRefTicks := isrRxTicks, biasPpb := zeroTicks,
      biasPpbValid := 1 }
  else
    let elapsed := isrRxTicks - clock.biasRefTicks
    (if 32768 ≤ elapsed.toNat then estimateDrift clock elapsed else some clock).map fun clock =>
      if 60 * 32768 < elapsed.toNat then
        { clock with biasRefOffset := clock.lastPingRxTimeDiffTicks, biasRefTicks := isrRxTicks }
      else clock

/-- A clean PING. -/
def takePing (clock : TrackerClock) (rxTimeDiffTicks prevBias : ℤ) (isrRxTicks : BitVec 32) : Option TrackerClock :=
  (checked 32 (rxTimeDiffTicks - pingTxStartToRxTicks)).bind fun bias =>
  let clock := { clock with lastPingRxTimeDiffTicks := bias, lastPingRxTimeDiffValid := true }
  (if prevBias ≠ 0 then updateDrift clock isrRxTicks else some clock).map fun clock =>
    { clock with lastPingIsrRxTicksRaw := isrRxTicks }

/-- `account_ping_clock` without the line it logs; `none` where an operation is undefined. -/
def accountPingClock (clock : TrackerClock) (expectedRxTicks currentRxTicks : BitVec 32) : Option TrackerClock :=
  (cleanPing clock (clock.rxTimeDiffTicks expectedRxTicks currentRxTicks)).bind fun (counted, clean, prevBias) =>
    if clean then
      takePing counted (clock.rxTimeDiffTicks expectedRxTicks currentRxTicks) prevBias (clock.isrRxTicks currentRxTicks)
    else some counted

/-- What happens to the clock of a tracker. -/
inductive PingClockOp
  /-- The radio interrupt of a PING. -/
  | timestamp (rxTicks : BitVec 32)
  | ping (expectedRxTicks currentRxTicks : BitVec 32)
  /-- `tdma_sync_stats_reset`. -/
  | statsReset
  /-- `tracker_slot_reset`. -/
  | slotReset
  deriving DecidableEq

def PingClockOp.apply (clock : TrackerClock) : PingClockOp → Option TrackerClock
  | .timestamp rxTicks => some { clock with pingIsrRxTicks := rxTicks, pingIsrRxTicksValid := true }
  | .ping expectedRxTicks currentRxTicks => accountPingClock clock expectedRxTicks currentRxTicks
  | .statsReset => some { clock with
      lastPingRxTimeDiffValid := false, biasPpbValid := 0, lastPingIsrRxTicksRaw := 0,
      lastPingRxTimeDiffTicks := zeroTicks, pingDirtyStreak := 0, pingRejectCount := 0 }
  | .slotReset => some .zero

/-- The clock after a sequence of operations, from the beginning. -/
def pingClockAfter (ops : List PingClockOp) : Option TrackerClock :=
  ops.foldlM PingClockOp.apply TrackerClock.zero

/-- The loop of the square root: `y` is computed from `x`, and becomes the next `x` if it is smaller. A division by
zero and an overflow of `uint64_t` end it with `none`. -/
def stdDevFrom (variance x : ℕ) : Option ℕ :=
  if x = 0 ∨ 2 ^ 64 ≤ x + variance / x then none
  else if (x + variance / x) / 2 < x then stdDevFrom variance ((x + variance / x) / 2)
  else some x
termination_by x

/-- `std_dev`. -/
def stdDev (variance : BitVec 64) : Option ℕ :=
  if 0 < variance.toNat then
    let s := variance.toNat / 2
    if 0 < s then (stdDevFrom variance.toNat s).map (· % 2 ^ 32)
    else some (variance.toNat % 2 ^ 32)
  else some 0

/-! ## The square root -/

section StdDev

variable {variance x : ℕ}

/-- Neither the quotient nor the sum is undefined for a guess between the root and half of the variance. -/
theorem guess_sum_lt (hvariance : variance < 2 ^ 64) (hx : 0 < x) (hroot : Nat.sqrt variance ≤ x)
    (hhalf : x ≤ variance / 2) : x + variance / x < 2 ^ 64 := by
  rcases Nat.lt_or_ge x 2 with hone | htwo
  · have hx' : x = 1 := by omega
    subst hx'
    have hsmall : variance < 2 * 2 := Nat.sqrt_lt.mp (Nat.lt_succ_of_le hroot)
    rw [Nat.div_one]
    omega
  · have hquotient : variance / x ≤ variance / 2 := Nat.div_le_div_left htwo Nat.zero_lt_two
    omega

/-- **The loop ends at the root**, from any guess that is large enough. -/
theorem stdDevFrom_eq (hvariance : variance < 2 ^ 64) : ∀ x, 0 < x → Nat.sqrt variance ≤ x → x ≤ variance / 2 →
    stdDevFrom variance x = some (Nat.sqrt variance) := by
  intro x
  induction x using Nat.strong_induction_on with
  | _ x ih =>
    intro hx hroot hhalf
    have hsum := guess_sum_lt hvariance hx hroot hhalf
    have hnext : Nat.sqrt variance ≤ (x + variance / x) / 2 := sqrt_le_newtonStep variance hx
    rw [stdDevFrom, if_neg (not_or.mpr ⟨Nat.ne_of_gt hx, not_le.mpr hsum⟩)]
    split
    case isTrue hless =>
      have hpos : 0 < Nat.sqrt variance := Nat.sqrt_pos.mpr (by omega)
      exact ih _ hless (hpos.trans_le hnext) hnext (hless.le.trans hhalf)
    case isFalse hmore =>
      exact congrArg some (le_antisymm (le_sqrt_of_le_newtonStep hx (not_lt.mp hmore)) hroot)

/-- The root of a variance fits into 32 bits. -/
theorem stdDev_eq (variance : BitVec 64) : stdDev variance = some (Nat.sqrt variance.toNat) := by
  have hvariance : variance.toNat < 2 ^ 64 := variance.isLt
  have hroot : Nat.sqrt variance.toNat < 2 ^ 32 := Nat.sqrt_lt.mpr hvariance
  unfold stdDev
  split
  case isFalse hzero =>
    have hnone : variance.toNat = 0 := by omega
    rw [hnone, Nat.sqrt_zero]
  case isTrue hpos =>
    dsimp only
    split
    case isTrue hhalf =>
      have hstart : Nat.sqrt variance.toNat ≤ variance.toNat / 2 := by
        rw [Nat.le_div_iff_mul_le Nat.zero_lt_two]
        have hsquare := Nat.sqrt_le variance.toNat
        rcases Nat.lt_or_ge (Nat.sqrt variance.toNat) 2 with hsmall | hlarge
        · omega
        · exact (Nat.mul_le_mul_left _ hlarge).trans hsquare
      rw [stdDevFrom_eq hvariance _ hhalf hstart (le_refl _), Option.map_some, Nat.mod_eq_of_lt hroot]
    case isFalse hhalf =>
      have hone : variance.toNat = 1 := by omega
      rw [hone, Nat.sqrt_one]
      rfl

end StdDev

/-! ## The drift -/

section Drift

/-- A quotient fits, if the dividend lies within so many times the divisor. -/
theorem fits_tdiv {a e : ℤ} (he : 0 < e) :
    FitsSigned 32 (a.tdiv e) ↔ -(2 ^ 31 + 1) * e < a ∧ a < 2 ^ 31 * e := by
  unfold FitsSigned
  rcases le_or_gt 0 a with hpos | hneg
  · rw [Int.tdiv_eq_ediv_of_nonneg hpos]
    have hquotient : 0 ≤ a / e := Int.ediv_nonneg hpos he.le
    refine ⟨fun ⟨_, hlt⟩ => ⟨?_, Int.lt_mul_of_ediv_lt he hlt⟩, fun ⟨_, hlt⟩ => ⟨?_, Int.ediv_lt_of_lt_mul he hlt⟩⟩
    · exact (by linarith : -(2 ^ 31 + 1) * e < 0).trans_le hpos
    · norm_num
      omega
  · have hflip : a.tdiv e = -(-a / e) := by
      rw [← Int.tdiv_eq_ediv_of_nonneg (by omega : 0 ≤ -a), Int.neg_tdiv, neg_neg]
    have hquotient : 0 ≤ -a / e := Int.ediv_nonneg (by omega) he.le
    rw [hflip]
    refine ⟨fun ⟨hle, _⟩ => ⟨?_, hneg.trans (by linarith)⟩, fun ⟨hlt, _⟩ => ⟨?_, ?_⟩⟩
    · have hless : -a / e < 2 ^ 31 + 1 := by
        norm_num at hle ⊢
        omega
      linarith [Int.lt_mul_of_ediv_lt he hless]
    · have hless : -a / e < 2 ^ 31 + 1 := Int.ediv_lt_of_lt_mul he (by linarith)
      norm_num at hless ⊢
      omega
    · norm_num
      omega

/-- The product of a difference of 32 bits and 10⁹ fits into 64. -/
theorem fits_scaled (drift : SignedInt 32) : FitsSigned 64 (drift.val * 1000000000) := by
  have hdrift := drift.fits
  unfold FitsSigned at *
  norm_num at *
  omega

/-- The estimate from the difference of the biases. -/
theorem rawPpb_eq (newBias refOffset : SignedInt 32) {elapsed : BitVec 32} (helapsed : 0 < elapsed.toNat) :
    rawPpb newBias refOffset elapsed =
      if FitsSigned 32 (newBias.val - refOffset.val) then
        checked 32 (((newBias.val - refOffset.val) * 1000000000).tdiv elapsed.toNat)
      else none := by
  unfold rawPpb
  split
  case isTrue h =>
    rw [checked_of_fits h, Option.bind_some, checked_of_fits (fits_scaled ⟨_, h⟩), Option.bind_some, checkedDiv,
      if_neg helapsed.ne', Option.bind_some]
  case isFalse h => rw [checked_of_not_fits h, Option.bind_none]

/-- The smoothed estimate lies between the old one and the new one. -/
theorem isSome_smoothPpb {biasPpb raw : SignedInt 32} :
    (smoothPpb biasPpb raw).isSome = true ↔ FitsSigned 32 (raw.val - biasPpb.val) := by
  rw [smoothPpb, isSome_checked_bind]
  refine ⟨fun ⟨h, _⟩ => h, fun h => ⟨h, isSome_checked.mpr ?_⟩⟩
  have hraw := raw.fits
  have hold := biasPpb.fits
  unfold FitsSigned at *
  dsimp only
  rcases le_total 0 (raw.val - biasPpb.val) with hpos | hneg
  · rw [Int.tdiv_eq_ediv_of_nonneg hpos]
    norm_num at *
    omega
  · have hflip : (raw.val - biasPpb.val).tdiv 4 = -((biasPpb.val - raw.val) / 4) := by
      rw [← Int.tdiv_eq_ediv_of_nonneg (by omega), ← Int.neg_tdiv, neg_sub]
    rw [hflip]
    norm_num at *
    omega

/-- A new estimate is defined for a drift of 32 bits that is slow enough, and near enough to the estimate before. -/
theorem isSome_estimateDrift {clock : TrackerClock} {elapsed : BitVec 32} (helapsed : 0 < elapsed.toNat) {drift : ℤ}
    (hdrift : clock.lastPingRxTimeDiffTicks.val - clock.biasRefOffset.val = drift) :
    (estimateDrift clock elapsed).isSome = true ↔ FitsSigned 32 drift ∧
      (-(2 ^ 31 + 1) * (elapsed.toNat : ℤ) < drift * 1000000000 ∧
        drift * 1000000000 < 2 ^ 31 * (elapsed.toNat : ℤ)) ∧
      (1 < clock.biasPpbValid → FitsSigned 32 ((drift * 1000000000).tdiv elapsed.toNat - clock.biasPpb.val)) := by
  rw [estimateDrift, rawPpb_eq _ _ helapsed, hdrift, ← fits_tdiv (by exact_mod_cast helapsed)]
  split
  case isFalse h => exact ⟨fun hf => absurd hf Bool.false_ne_true, fun ⟨hfits, _⟩ => absurd hfits h⟩
  case isTrue h =>
    rw [isSome_checked_bind]
    refine ⟨fun ⟨hquotient, hmore⟩ => ⟨h, hquotient, fun hmature => ?_⟩, fun ⟨_, hquotient, hmature⟩ => ⟨hquotient, ?_⟩⟩
    · rw [if_pos hmature, Option.isSome_map, isSome_smoothPpb] at hmore
      exact hmore
    · split
      case isTrue hold =>
        rw [Option.isSome_map]
        exact isSome_smoothPpb.mpr (hmature hold)
      case isFalse => rfl

theorem isSome_updateDrift {clock : TrackerClock} {isrRxTicks : BitVec 32} :
    (updateDrift clock isrRxTicks).isSome = true ↔
      (clock.biasPpbValid ≠ 0 → 32768 ≤ (isrRxTicks - clock.biasRefTicks).toNat →
        (estimateDrift clock (isrRxTicks - clock.biasRefTicks)).isSome = true) := by
  unfold updateDrift
  split
  case isTrue hnone => exact ⟨fun _ h => absurd hnone h, fun _ => rfl⟩
  case isFalse hsome =>
    dsimp only
    rw [Option.isSome_map]
    split
    case isTrue hlong => exact ⟨fun h _ _ => h, fun h => h hsome hlong⟩
    case isFalse hshort => exact ⟨fun _ _ h => absurd h hshort, fun _ => rfl⟩

end Drift

/-! ## The ticks a PING may have -/

namespace TrackerClock

variable (clock : TrackerClock) (expectedRxTicks currentRxTicks : BitVec 32)

/-- The difference is not much larger than the last one. -/
def Near : Prop :=
  clock.rxTimeDiffTicks expectedRxTicks currentRxTicks ≤ clock.lastPingRxTimeDiffTicks.val + pingTxStartToRxTicks + 2

/-- The PING counts: it is the first one, or near the last one, or one too many that was not. -/
def Clean : Prop :=
  clock.lastPingRxTimeDiffValid = false ∨ clock.Near expectedRxTicks currentRxTicks ∨
    pingCleanReacquireStreak ≤ (clock.pingDirtyStreak + 1).toNat

/-- The ticks since the reference. -/
def elapsed : BitVec 32 := clock.isrRxTicks currentRxTicks - clock.biasRefTicks

/-- The PING is the end of a measurement of at least a second. -/
def EndsMeasurement : Prop :=
  clock.lastPingRxTimeDiffValid = true ∧ clock.Near expectedRxTicks currentRxTicks ∧
    clock.lastPingRxTimeDiffTicks.val ≠ 0 ∧ clock.biasPpbValid ≠ 0 ∧ 32768 ≤ (clock.elapsed currentRxTicks).toNat

/-- How far the clocks went apart since the reference. -/
def drift : ℤ :=
  clock.rxTimeDiffTicks expectedRxTicks currentRxTicks - pingTxStartToRxTicks - clock.biasRefOffset.val

/-- The drift in parts per billion, in unbounded integers. -/
def driftPpb : ℤ :=
  (clock.drift expectedRxTicks currentRxTicks * 1000000000).tdiv (clock.elapsed currentRxTicks).toNat

/-- **The ticks of the PING are in range.** -/
structure TicksInRange : Prop where
  /-- The last difference leaves room for the tolerance. -/
  stored : clock.lastPingRxTimeDiffValid = true → clock.lastPingRxTimeDiffTicks.val < 2 ^ 31 - 7
  /-- The transmission can be taken off the difference. -/
  difference : clock.Clean expectedRxTicks currentRxTicks →
    -2 ^ 31 + pingTxStartToRxTicks ≤ clock.rxTimeDiffTicks expectedRxTicks currentRxTicks
  /-- The clocks did not go too far apart. -/
  drift : clock.EndsMeasurement expectedRxTicks currentRxTicks →
    -2 ^ 31 ≤ clock.drift expectedRxTicks currentRxTicks ∧ clock.drift expectedRxTicks currentRxTicks < 2 ^ 31
  /-- They went apart by less than 2.147483648 ticks a tick. -/
  rate : clock.EndsMeasurement expectedRxTicks currentRxTicks →
    -(2 ^ 31 + 1) * ((clock.elapsed currentRxTicks).toNat : ℤ) <
        clock.drift expectedRxTicks currentRxTicks * 1000000000 ∧
      clock.drift expectedRxTicks currentRxTicks * 1000000000 < 2 ^ 31 * ((clock.elapsed currentRxTicks).toNat : ℤ)
  /-- The drift is not too far from the smoothed one. -/
  smooth : clock.EndsMeasurement expectedRxTicks currentRxTicks → 1 < clock.biasPpbValid →
    -2 ^ 31 ≤ clock.driftPpb expectedRxTicks currentRxTicks - clock.biasPpb.val ∧
      clock.driftPpb expectedRxTicks currentRxTicks - clock.biasPpb.val < 2 ^ 31

end TrackerClock

section Ping

variable {clock : TrackerClock} {expectedRxTicks currentRxTicks : BitVec 32}

/-- A clean PING is taken without its transmission, and ends a measurement if there is a bias before it. -/
theorem isSome_takePing {rxTimeDiffTicks prevBias : ℤ} {isrRxTicks : BitVec 32} :
    (takePing clock rxTimeDiffTicks prevBias isrRxTicks).isSome = true ↔
      FitsSigned 32 (rxTimeDiffTicks - pingTxStartToRxTicks) ∧
      (prevBias ≠ 0 → clock.biasPpbValid ≠ 0 → 32768 ≤ (isrRxTicks - clock.biasRefTicks).toNat →
        FitsSigned 32 (rxTimeDiffTicks - pingTxStartToRxTicks - clock.biasRefOffset.val) ∧
        (-(2 ^ 31 + 1) * ((isrRxTicks - clock.biasRefTicks).toNat : ℤ) <
            (rxTimeDiffTicks - pingTxStartToRxTicks - clock.biasRefOffset.val) * 1000000000 ∧
          (rxTimeDiffTicks - pingTxStartToRxTicks - clock.biasRefOffset.val) * 1000000000 <
            2 ^ 31 * ((isrRxTicks - clock.biasRefTicks).toNat : ℤ)) ∧
        (1 < clock.biasPpbValid → FitsSigned 32
          (((rxTimeDiffTicks - pingTxStartToRxTicks - clock.biasRefOffset.val) * 1000000000).tdiv
            (isrRxTicks - clock.biasRefTicks).toNat - clock.biasPpb.val))) := by
  rw [takePing, isSome_checked_bind]
  refine Iff.trans (exists_congr fun hbias => ?_) exists_prop
  dsimp only
  rw [Option.isSome_map]
  split
  case isTrue hprev =>
    rw [isSome_updateDrift]
    refine ⟨fun h _ hvalid hlong => ?_, fun h hvalid hlong => ?_⟩
    · exact (isSome_estimateDrift (lt_of_lt_of_le (by decide) hlong) rfl).mp (h hvalid hlong)
    · exact (isSome_estimateDrift (lt_of_lt_of_le (by decide) hlong) rfl).mpr (h hprev hvalid hlong)
  case isFalse hprev => exact ⟨fun _ h => absurd h hprev, fun _ => rfl⟩

theorem fits_difference (clock : TrackerClock) (expectedRxTicks currentRxTicks : BitVec 32) :
    FitsSigned 32 (clock.rxTimeDiffTicks expectedRxTicks currentRxTicks - pingTxStartToRxTicks) ↔
      -2 ^ 31 + pingTxStartToRxTicks ≤ clock.rxTimeDiffTicks expectedRxTicks currentRxTicks := by
  have hdiff : FitsSigned 32 (clock.rxTimeDiffTicks expectedRxTicks currentRxTicks) := fitsSigned_toInt _
  unfold FitsSigned pingTxStartToRxTicks at *
  norm_num at *
  omega

/-- The first PING. -/
theorem cleanPing_first (hfirst : clock.lastPingRxTimeDiffValid = false) (rxTimeDiffTicks : ℤ) :
    cleanPing clock rxTimeDiffTicks = some (clock, true, 0) := by
  rw [cleanPing, if_pos (by rw [hfirst]; rfl)]

/-- A PING after another one. -/
theorem cleanPing_next (hnext : clock.lastPingRxTimeDiffValid = true) (rxTimeDiffTicks : ℤ) :
    cleanPing clock rxTimeDiffTicks =
      if clock.lastPingRxTimeDiffTicks.val < 2 ^ 31 - 7 then
        some (if rxTimeDiffTicks ≤ clock.lastPingRxTimeDiffTicks.val + pingTxStartToRxTicks + 2 then
          ({ clock with pingDirtyStreak := 0 }, true, clock.lastPingRxTimeDiffTicks.val)
        else if pingCleanReacquireStreak ≤ (clock.pingDirtyStreak + 1).toNat then
          ({ clock with pingRejectCount := clock.pingRejectCount + 1, pingDirtyStreak := 0, biasPpbValid := 0 },
            true, 0)
        else
          ({ clock with
              pingRejectCount := clock.pingRejectCount + 1, pingDirtyStreak := clock.pingDirtyStreak + 1 },
            false, clock.lastPingRxTimeDiffTicks.val))
      else none := by
  have hlast := clock.lastPingRxTimeDiffTicks.fits
  rw [cleanPing, if_neg (by rw [hnext]; decide)]
  dsimp only
  by_cases hroom : clock.lastPingRxTimeDiffTicks.val < 2 ^ 31 - 7
  · rw [if_pos hroom]
    have hsum : FitsSigned 32 (clock.lastPingRxTimeDiffTicks.val + pingTxStartToRxTicks) := by
      unfold FitsSigned pingTxStartToRxTicks at *
      norm_num at *
      omega
    have hlimit : FitsSigned 32 (clock.lastPingRxTimeDiffTicks.val + pingTxStartToRxTicks + 2) := by
      unfold FitsSigned pingTxStartToRxTicks at *
      norm_num at *
      omega
    rw [checked_of_fits hsum, Option.bind_some, checked_of_fits hlimit, Option.bind_some]
    dsimp only
    split
    · rfl
    · split <;> rfl
  · rw [if_neg hroom]
    refine Option.not_isSome_iff_eq_none.mp fun h => hroom ?_
    obtain ⟨_, h⟩ := isSome_checked_bind.mp h
    obtain ⟨hlimit, _⟩ := isSome_checked_bind.mp h
    dsimp only at hlimit
    unfold FitsSigned pingTxStartToRxTicks at *
    norm_num at *
    omega

/-- **One PING**: nothing overflows if and only if its ticks are in range. -/
theorem isSome_accountPingClock :
    (accountPingClock clock expectedRxTicks currentRxTicks).isSome = true ↔
      clock.TicksInRange expectedRxTicks currentRxTicks := by
  unfold accountPingClock
  cases hvalid : clock.lastPingRxTimeDiffValid with
  | false =>
    -- the first PING: only the transmission is taken off
    have hclean : clock.Clean expectedRxTicks currentRxTicks := Or.inl hvalid
    have hfirst : ¬clock.lastPingRxTimeDiffValid = true := by
      rw [hvalid]
      decide
    have hends : ¬clock.EndsMeasurement expectedRxTicks currentRxTicks := fun h => hfirst h.1
    rw [cleanPing_first hvalid, Option.bind_some]
    simp only [if_true]
    rw [isSome_takePing, fits_difference]
    exact ⟨fun h => ⟨fun hstored => absurd hstored hfirst, fun _ => h.1, fun h => absurd h hends,
      fun h => absurd h hends, fun h => absurd h hends⟩, fun h => ⟨h.difference hclean, fun h => absurd rfl h⟩⟩
  | true =>
    rw [cleanPing_next hvalid]
    split
    case isFalse hroom => exact ⟨fun h => absurd h Bool.false_ne_true, fun h => absurd (h.stored hvalid) hroom⟩
    case isTrue hroom =>
      rw [Option.bind_some]
      by_cases hnear : clock.Near expectedRxTicks currentRxTicks
      · -- a PING near the last one
        have hclean : clock.Clean expectedRxTicks currentRxTicks := Or.inr (Or.inl hnear)
        have hle := hnear
        rw [TrackerClock.Near] at hle
        rw [if_pos hle]
        simp only [if_true]
        rw [isSome_takePing, fits_difference]
        constructor
        · rintro ⟨hdiff, hmeasured⟩
          refine ⟨fun _ => hroom, fun _ => hdiff, fun h => ?_, fun h => ?_, fun h hmature => ?_⟩ <;>
            obtain ⟨hdrift, hrate, hsmooth⟩ := hmeasured h.2.2.1 h.2.2.2.1 h.2.2.2.2
          · exact hdrift
          · exact hrate
          · exact hsmooth hmature
        · intro h
          refine ⟨h.difference hclean, fun hprev hmeasuring hlong => ?_⟩
          have hends : clock.EndsMeasurement expectedRxTicks currentRxTicks :=
            ⟨hvalid, hnear, hprev, hmeasuring, hlong⟩
          exact ⟨h.drift hends, h.rate hends, h.smooth hends⟩
      · have hends : ¬clock.EndsMeasurement expectedRxTicks currentRxTicks := fun h => hnear h.2.1
        have hgt := hnear
        rw [TrackerClock.Near] at hgt
        rw [if_neg hgt]
        by_cases hstreak : pingCleanReacquireStreak ≤ (clock.pingDirtyStreak + 1).toNat
        · -- the last of too many that were not
          have hclean : clock.Clean expectedRxTicks currentRxTicks := Or.inr (Or.inr hstreak)
          rw [if_pos hstreak]
          simp only [if_true]
          rw [isSome_takePing, fits_difference]
          exact ⟨fun h => ⟨fun _ => hroom, fun _ => h.1, fun h => absurd h hends, fun h => absurd h hends,
            fun h => absurd h hends⟩, fun h => ⟨h.difference hclean, fun h => absurd rfl h⟩⟩
        · -- a PING that does not count
          have hclean : ¬clock.Clean expectedRxTicks currentRxTicks := by
            rintro (hfirst | h | h)
            · rw [hvalid] at hfirst
              cases hfirst
            · exact hnear h
            · exact hstreak h
          rw [if_neg hstreak]
          exact ⟨fun _ => ⟨fun _ => hroom, fun h => absurd h hclean, fun h => absurd h hends,
            fun h => absurd h hends, fun h => absurd h hends⟩, fun _ => rfl⟩

end Ping

/-! ## Sequences of PINGs -/

/-- Only a PING may be out of range. -/
def PingClockOp.InRange (clock : TrackerClock) : PingClockOp → Prop
  | .ping expectedRxTicks currentRxTicks => clock.TicksInRange expectedRxTicks currentRxTicks
  | _ => True

theorem PingClockOp.isSome_apply (clock : TrackerClock) (op : PingClockOp) :
    (op.apply clock).isSome = true ↔ op.InRange clock := by
  cases op with
  | ping expectedRxTicks currentRxTicks => exact isSome_accountPingClock
  | timestamp rxTicks => exact ⟨fun _ => trivial, fun _ => rfl⟩
  | statsReset => exact ⟨fun _ => trivial, fun _ => rfl⟩
  | slotReset => exact ⟨fun _ => trivial, fun _ => rfl⟩

/-- **The arithmetic of the clock.** The loop for the deviation ends, divides by no zero, does not overflow and gives
the root rounded down. In a sequence of PINGs nothing overflows and nothing is divided by zero exactly as long as the
ticks of every PING are in range. -/
theorem ping_clock_in_range (variance : BitVec 64) (ops : List PingClockOp) :
    stdDev variance = some (Nat.sqrt variance.toNat) ∧
    ((pingClockAfter ops).isSome = true ↔ ∀ before op after clock,
      ops = before ++ op :: after → pingClockAfter before = some clock → op.InRange clock) := by
  refine ⟨stdDev_eq variance, ?_⟩
  simp only [← PingClockOp.isSome_apply]
  exact isSome_foldlM_iff _ ops _

/-- Three PINGs: the tracker expects its first two at a tick of the receiver that is long past, and the third one as
far in the future. The difference of the two biases does not fit into 32 bits. -/
def resynchronized : List PingClockOp :=
  [.timestamp 1700000000, .ping 0 1700000000, .timestamp 1700000100, .ping 100 1700000100,
    .timestamp 1700040100, .ping 3400040100 1700040100]

/-- Not every sequence of PINGs is free of overflow. -/
theorem ping_clock_overflows : ¬((∀ variance : BitVec 64, stdDev variance = some (Nat.sqrt variance.toNat)) ∧
    ∀ ops, (pingClockAfter ops).isSome = true) := by
  rintro ⟨_, hall⟩
  have hnone : pingClockAfter resynchronized = none := by decide +kernel
  have hsome := hall resynchronized
  rw [hnone] at hsome
  exact Bool.false_ne_true hsome

end SlimeReceiver
