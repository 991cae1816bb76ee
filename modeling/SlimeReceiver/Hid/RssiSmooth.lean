import SlimeReceiver.Library.MovingAverage
import SlimeReceiver.Library.SignedRange
import SlimeReceiver.Tdma.State

/-! # The smoothed signal strength

A report goes to the host with a smoothed signal strength: `rssi_smooth_update` averages the samples of a tracker in
units of 1/256, and `hid_reset_rssi_smooth` starts again when the slot gets a new tracker.

* **`rssiSmoothUpdate`**, **`hidResetRssiSmooth`** — the two operations on the states of all trackers.
* **`SmoothTerms`** — what a sample is computed from, and **`SmoothTerms.Fits`** — it fits its types.
* **`smoothed`** — the average of a list of samples in unbounded integers.
* **`rssi_smooth_in_range`** — the values fit, and the result stays among the samples and follows them. -/

namespace SlimeReceiver

open Function (update update_self update_of_ne)

namespace Hid

/-! ## The code -/

/-- `struct rssi_ema_state`. -/
structure RssiEmaState where
  /-- The average in units of 1/256. -/
  emaValue : BitVec 16
  initialized : Bool
  deriving DecidableEq

/-- `RSSI_EMA_ALPHA`. -/
def rssiEmaAlpha : ℤ := 51

/-- The values of type `int32_t` in `rssi_smooth_update`. -/
structure SmoothTerms where
  newScaled : ℤ
  alphaTerm : ℤ
  betaTerm : ℤ
  /-- `alpha_term + beta_term`, before the shift. -/
  sum : ℤ
  deriving DecidableEq

def smoothTerms (state : RssiEmaState) (newRssi : BitVec 8) : SmoothTerms :=
  let newScaled := newRssi.toInt * 256
  let alphaTerm := rssiEmaAlpha * newScaled
  let betaTerm := (256 - rssiEmaAlpha) * state.emaValue.toInt
  ⟨newScaled, alphaTerm, betaTerm, alphaTerm + betaTerm⟩

/-- None of the values overflows, and the casts to `int16_t` and to `int8_t` cut nothing off. -/
structure SmoothTerms.Fits (terms : SmoothTerms) : Prop where
  newScaled : FitsSigned 32 terms.newScaled
  alphaTerm : FitsSigned 32 terms.alphaTerm
  betaTerm : FitsSigned 32 terms.betaTerm
  sum : FitsSigned 32 terms.sum
  emaValue : FitsSigned 16 (terms.sum >>> (8 : ℕ))
  result : FitsSigned 8 (terms.sum >>> (8 : ℕ) >>> (8 : ℕ))

/-- `rssi_smooth_update`, with the states of all trackers. -/
def rssiSmoothUpdate (states : ℕ → RssiEmaState) (trackerId : ℕ) (newRssi : BitVec 8) :
    (ℕ → RssiEmaState) × BitVec 8 :=
  if maxTrackers ≤ trackerId then (states, newRssi)
  else
    let state := states trackerId
    if !state.initialized then
      (update states trackerId ⟨BitVec.ofInt 16 (newRssi.toInt * 256), true⟩, newRssi)
    else
      let emaValue := BitVec.ofInt 16 ((smoothTerms state newRssi).sum >>> (8 : ℕ))
      (update states trackerId { state with emaValue }, BitVec.ofInt 8 (emaValue.toInt >>> (8 : ℕ)))

/-- `hid_reset_rssi_smooth`. -/
def hidResetRssiSmooth (states : ℕ → RssiEmaState) (trackerId : ℕ) : ℕ → RssiEmaState :=
  if trackerId < maxTrackers then update states trackerId ⟨0, false⟩ else states

/-- The calls that change the states. -/
inductive RssiSmoothCall
  | sample (trackerId : ℕ) (newRssi : BitVec 8)
  | reset (trackerId : ℕ)

/-- What a call leaves. -/
def RssiSmoothCall.apply (states : ℕ → RssiEmaState) : RssiSmoothCall → ℕ → RssiEmaState
  | .sample trackerId newRssi => (rssiSmoothUpdate states trackerId newRssi).1
  | .reset trackerId => hidResetRssiSmooth states trackerId

/-- `rssi_states` after a number of calls. -/
def rssiStatesAfter (calls : List RssiSmoothCall) : ℕ → RssiEmaState :=
  calls.foldl RssiSmoothCall.apply fun _ => ⟨0, false⟩

/-! ## The samples since a reset -/

/-- The samples of a tracker since its last reset, after one more call. -/
def addSample (trackerId : ℕ) (samples : List (BitVec 8)) : RssiSmoothCall → List (BitVec 8)
  | .sample t newRssi => if t = trackerId then samples ++ [newRssi] else samples
  | .reset t => if t = trackerId then [] else samples

/-- The samples of a tracker since its last reset. -/
def samplesSince (trackerId : ℕ) (calls : List RssiSmoothCall) : List (BitVec 8) :=
  calls.foldl (addSample trackerId) []

/-- One more sample in the average. -/
def smoothStep (average : Option ℤ) (newRssi : BitVec 8) : Option ℤ :=
  some (average.elim (256 * newRssi.toInt) (blend 256 rssiEmaAlpha (256 * newRssi.toInt)))

/-- The average of the samples. -/
def smoothed (samples : List (BitVec 8)) : Option ℤ := samples.foldl smoothStep none

@[simp] theorem smoothed_nil : smoothed [] = none := rfl

@[simp] theorem smoothed_concat (samples : List (BitVec 8)) (newRssi : BitVec 8) :
    smoothed (samples ++ [newRssi]) = smoothStep (smoothed samples) newRssi := by
  rw [smoothed, List.foldl_append]
  rfl

section Average

variable {samples : List (BitVec 8)} {x : ℤ}

/-- **The average lies among the samples.** -/
theorem smoothed_between {lo hi : ℤ} (hsamples : ∀ s ∈ samples, lo ≤ s.toInt ∧ s.toInt ≤ hi)
    (hx : smoothed samples = some x) : 256 * lo ≤ x ∧ x ≤ 256 * hi := by
  induction samples using List.reverseRecOn generalizing x with
  | nil => cases hx
  | append_singleton samples s ih =>
    obtain ⟨hlo, hhi⟩ := hsamples s (List.mem_append_right _ (List.mem_singleton_self s))
    have hlo' : 256 * lo ≤ 256 * s.toInt := by omega
    have hhi' : 256 * s.toInt ≤ 256 * hi := by omega
    rw [smoothed_concat, smoothStep, Option.some.injEq] at hx
    subst hx
    cases haverage : smoothed samples with
    | none => exact ⟨hlo', hhi'⟩
    | some y =>
      obtain ⟨hy, hy'⟩ := ih (fun s hs => hsamples s (List.mem_append_left _ hs)) haverage
      exact ⟨le_blend (by decide) (by decide) (by decide) hlo' hy,
        blend_le (by decide) (by decide) (by decide) hhi' hy'⟩

theorem toInt_bounds (s : BitVec 8) : -128 ≤ s.toInt ∧ s.toInt ≤ 127 := by
  have hlow := BitVec.le_toInt s
  have hhigh := BitVec.toInt_lt (x := s)
  omega

/-- The average as an `int16_t`. -/
theorem smoothed_bounds (hx : smoothed samples = some x) : -32768 ≤ x ∧ x ≤ 32512 :=
  smoothed_between (fun s _ => toInt_bounds s) hx

/-- After a number of equal samples. -/
theorem smoothed_append_replicate (hx : smoothed samples = some x) (c : BitVec 8) (n : ℕ) :
    smoothed (samples ++ List.replicate n c) = some ((blend 256 rssiEmaAlpha (256 * c.toInt))^[n] x) := by
  induction n with
  | zero => rw [List.replicate_zero, List.append_nil, hx, Function.iterate_zero, id]
  | succ n ih =>
    rw [List.replicate_succ', ← List.append_assoc, smoothed_concat, ih, Function.iterate_succ_apply']
    rfl

/-- As many samples as it takes. -/
def settleSamples : ℕ := 26

/-- **Equal samples bring the average to within one unit**, wherever it was. -/
theorem smoothed_settled {history : List (BitVec 8)} {c : BitVec 8} {n : ℕ} (hn : settleSamples ≤ n)
    (hx : smoothed (history ++ List.replicate n c) = some x) : |x - 256 * c.toInt| ≤ 256 := by
  obtain ⟨m, rfl⟩ : ∃ m, n = m + 1 := ⟨n - 1, by unfold settleSamples at hn; omega⟩
  -- the first of them is in the average; the others bring it nearer
  obtain ⟨y, hy⟩ : ∃ y, smoothed (history ++ [c]) = some y := ⟨_, smoothed_concat history c⟩
  rw [List.replicate_succ, ← List.singleton_append, ← List.append_assoc, smoothed_append_replicate hy,
    Option.some.injEq] at hx
  subst hx
  have hfar : |y - 256 * c.toInt| ≤ 65280 := by
    have hbounds := smoothed_bounds hy
    have hsample := toInt_bounds c
    rw [abs_le]
    omega
  have hnear : |(blend 256 rssiEmaAlpha (256 * c.toInt))^[25] y - 256 * c.toInt| ≤ 256 :=
    (abs_blends_sub_le (by decide) (by decide) (by decide) hfar 25).trans (by decide +kernel)
  refine abs_blends_sub_le_of_le (by decide) (by decide) (by decide) ?_ hnear
  unfold settleSamples at hn
  omega

end Average

/-! ## The code computes the average -/

/-- The average a state holds. -/
def RssiEmaState.average (state : RssiEmaState) : Option ℤ :=
  if state.initialized then some state.emaValue.toInt else none

section Step

variable {state : RssiEmaState} {samples : List (BitVec 8)}

/-- The shift rounds down. -/
theorem shiftRight_eight (x : ℤ) : x >>> (8 : ℕ) = x / 256 := Int.shiftRight_eq_div_pow x 8

/-- The shift is the division of the average. -/
theorem smoothTerms_sum (state : RssiEmaState) (newRssi : BitVec 8) :
    (smoothTerms state newRssi).sum >>> (8 : ℕ) =
      blend 256 rssiEmaAlpha (256 * newRssi.toInt) state.emaValue.toInt := by
  rw [shiftRight_eight, smoothTerms, blend, mul_comm 256 newRssi.toInt]

/-- A value between two samples is a value of `int16_t`. -/
theorem fits_of_bounds {x : ℤ} (h : -32768 ≤ x ∧ x ≤ 32512) : FitsSigned 16 x ∧ FitsSigned 8 (x >>> (8 : ℕ)) := by
  obtain ⟨hlo, hhi⟩ := h
  rw [shiftRight_eight]
  refine ⟨⟨?_, ?_⟩, ?_, ?_⟩ <;> norm_num <;> omega

/-- The average after one more sample, as the next state has it. -/
theorem smoothed_concat_of_state (newRssi : BitVec 8) (hstate : state.average = smoothed samples)
    (hinit : state.initialized = true) :
    smoothed (samples ++ [newRssi]) = some ((smoothTerms state newRssi).sum >>> (8 : ℕ)) := by
  rw [RssiEmaState.average, if_pos hinit] at hstate
  rw [smoothed_concat, ← hstate, smoothTerms_sum]
  rfl

/-- **Every value fits its type.** -/
theorem smoothTerms_fits (newRssi : BitVec 8) (hstate : state.average = smoothed samples)
    (hinit : state.initialized = true) : (smoothTerms state newRssi).Fits := by
  have hsample := toInt_bounds newRssi
  have haverage : -32768 ≤ state.emaValue.toInt ∧ state.emaValue.toInt ≤ 32512 := by
    rw [RssiEmaState.average, if_pos hinit] at hstate
    exact smoothed_bounds hstate.symm
  obtain ⟨hfits16, hfits8⟩ := fits_of_bounds (smoothed_bounds (smoothed_concat_of_state newRssi hstate hinit))
  refine ⟨?_, ?_, ?_, ?_, hfits16, hfits8⟩ <;> simp only [smoothTerms, rssiEmaAlpha, FitsSigned] <;> omega

/-- **One sample**: the state holds the average with it, and the result is the average rounded down. -/
theorem rssiSmoothUpdate_spec (newRssi : BitVec 8) {states : ℕ → RssiEmaState} {trackerId : ℕ}
    (htracker : trackerId < maxTrackers) (hstate : (states trackerId).average = smoothed samples) :
    ((rssiSmoothUpdate states trackerId newRssi).1 trackerId).average = smoothed (samples ++ [newRssi]) ∧
    ∃ x, smoothed (samples ++ [newRssi]) = some x ∧
      (rssiSmoothUpdate states trackerId newRssi).2.toInt = x >>> (8 : ℕ) := by
  have hsample := toInt_bounds newRssi
  rw [rssiSmoothUpdate, if_neg (not_le.mpr htracker)]
  cases hinit : (states trackerId).initialized with
  | false =>
    rw [RssiEmaState.average, if_neg (by rw [hinit]; decide)] at hstate
    have hfits : FitsSigned 16 (newRssi.toInt * 256) := by
      refine ⟨?_, ?_⟩ <;> norm_num <;> omega
    have hfirst : smoothed (samples ++ [newRssi]) = some (newRssi.toInt * 256) := by
      rw [smoothed_concat, ← hstate, mul_comm]
      rfl
    simp only [hinit, Bool.not_false, if_true, update_self, RssiEmaState.average]
    refine ⟨?_, _, hfirst, ?_⟩
    · rw [toInt_ofInt_of_fits (by decide) hfits, hfirst]
    · rw [shiftRight_eight, Int.mul_ediv_cancel _ (by decide)]
  | true =>
    have hnext := smoothed_concat_of_state newRssi hstate hinit
    have hfits := smoothTerms_fits newRssi hstate hinit
    simp only [hinit, Bool.not_true, Bool.false_eq_true, if_false, update_self, RssiEmaState.average, if_true,
      toInt_ofInt_of_fits (w := 16) (by decide) hfits.emaValue, toInt_ofInt_of_fits (w := 8) (by decide) hfits.result]
    exact ⟨hnext.symm, _, hnext, rfl⟩

end Step

section Run

variable (calls : List RssiSmoothCall) (trackerId : ℕ)

/-- The states of the other trackers are left alone. -/
theorem rssiSmoothUpdate_of_ne {states : ℕ → RssiEmaState} {t : ℕ} (h : t ≠ trackerId) (newRssi : BitVec 8) :
    (rssiSmoothUpdate states t newRssi).1 trackerId = states trackerId := by
  unfold rssiSmoothUpdate
  split
  · rfl
  · dsimp only
    split <;> exact update_of_ne h.symm _ _

theorem hidResetRssiSmooth_of_ne {states : ℕ → RssiEmaState} {t : ℕ} (h : t ≠ trackerId) :
    hidResetRssiSmooth states t trackerId = states trackerId := by
  unfold hidResetRssiSmooth
  split
  · exact update_of_ne h.symm _ _
  · rfl

/-- **The states hold the averages of the samples since the last reset**, after any calls. -/
theorem rssiStatesAfter_average (htracker : trackerId < maxTrackers) :
    (rssiStatesAfter calls trackerId).average = smoothed (samplesSince trackerId calls) := by
  induction calls using List.reverseRecOn with
  | nil => rfl
  | append_singleton calls call ih =>
    rw [rssiStatesAfter, samplesSince, List.foldl_append, List.foldl_append, ← rssiStatesAfter, ← samplesSince]
    cases call with
    | sample t newRssi =>
      by_cases ht : t = trackerId
      · subst ht
        have hstep := (rssiSmoothUpdate_spec newRssi htracker ih).1
        simpa only [List.foldl_cons, List.foldl_nil, addSample, if_true, RssiSmoothCall.apply] using hstep
      · simp only [List.foldl_cons, List.foldl_nil, addSample, if_neg ht, RssiSmoothCall.apply]
        rwa [rssiSmoothUpdate_of_ne trackerId ht]
    | reset t =>
      by_cases ht : t = trackerId
      · subst ht
        simp only [List.foldl_cons, List.foldl_nil, addSample, if_true, RssiSmoothCall.apply, hidResetRssiSmooth,
          if_pos htracker, update_self]
        rfl
      · simp only [List.foldl_cons, List.foldl_nil, addSample, if_neg ht, RssiSmoothCall.apply]
        rwa [hidResetRssiSmooth_of_ne trackerId ht]

/-- What is returned for the next sample: the sample itself beyond the array, and otherwise the average with it. -/
theorem rssiSmoothUpdate_result (newRssi : BitVec 8) :
    (rssiSmoothUpdate (rssiStatesAfter calls) trackerId newRssi).2 = newRssi ∨
    ∃ x, smoothed (samplesSince trackerId calls ++ [newRssi]) = some x ∧
      (rssiSmoothUpdate (rssiStatesAfter calls) trackerId newRssi).2.toInt = x >>> (8 : ℕ) := by
  rcases lt_or_ge trackerId maxTrackers with htracker | hbeyond
  · exact Or.inr (rssiSmoothUpdate_spec newRssi htracker (rssiStatesAfter_average calls trackerId htracker)).2
  · refine Or.inl ?_
    rw [rssiSmoothUpdate, if_pos hbeyond]

/-- No state beyond the array is touched. -/
theorem rssiStatesAfter_beyond (hbeyond : maxTrackers ≤ trackerId) : rssiStatesAfter calls trackerId = ⟨0, false⟩ := by
  induction calls using List.reverseRecOn with
  | nil => rfl
  | append_singleton calls call ih =>
    rw [rssiStatesAfter, List.foldl_append, ← rssiStatesAfter]
    cases call with
    | sample t newRssi =>
      by_cases ht : t = trackerId
      · subst ht
        simpa only [List.foldl_cons, List.foldl_nil, RssiSmoothCall.apply, rssiSmoothUpdate, if_pos hbeyond] using ih
      · simp only [List.foldl_cons, List.foldl_nil, RssiSmoothCall.apply]
        rwa [rssiSmoothUpdate_of_ne trackerId ht]
    | reset t =>
      by_cases ht : t = trackerId
      · subst ht
        simpa only [List.foldl_cons, List.foldl_nil, RssiSmoothCall.apply, hidResetRssiSmooth,
          if_neg (not_lt.mpr hbeyond)] using ih
      · simp only [List.foldl_cons, List.foldl_nil, RssiSmoothCall.apply]
        rwa [hidResetRssiSmooth_of_ne trackerId ht]

/-- **The smoothing stays in range.** After any calls for any trackers, nothing overflows and nothing is cut off; the
result lies between the least and the greatest of the samples since the reset, is the sample if they are all equal,
and is within one of it once enough of the last ones are equal. -/
theorem rssi_smooth_in_range (newRssi : BitVec 8) :
    ((rssiStatesAfter calls trackerId).initialized = true →
      (smoothTerms (rssiStatesAfter calls trackerId) newRssi).Fits) ∧
    FitsSigned 16 (newRssi.toInt * 256) ∧
    (∀ lo hi, (∀ s ∈ samplesSince trackerId calls ++ [newRssi], lo ≤ s.toInt ∧ s.toInt ≤ hi) →
      lo ≤ (rssiSmoothUpdate (rssiStatesAfter calls) trackerId newRssi).2.toInt ∧
        (rssiSmoothUpdate (rssiStatesAfter calls) trackerId newRssi).2.toInt ≤ hi) ∧
    ((∀ s ∈ samplesSince trackerId calls, s = newRssi) →
      (rssiSmoothUpdate (rssiStatesAfter calls) trackerId newRssi).2 = newRssi) ∧
    (∀ history c n, samplesSince trackerId calls ++ [newRssi] = history ++ List.replicate n c → settleSamples ≤ n →
      |(rssiSmoothUpdate (rssiStatesAfter calls) trackerId newRssi).2.toInt - c.toInt| ≤ 1) := by
  have hsample := toInt_bounds newRssi
  have hresult := rssiSmoothUpdate_result calls trackerId newRssi
  generalize (rssiSmoothUpdate (rssiStatesAfter calls) trackerId newRssi).2 = result at hresult ⊢
  have hbetween : ∀ lo hi, (∀ s ∈ samplesSince trackerId calls ++ [newRssi], lo ≤ s.toInt ∧ s.toInt ≤ hi) →
      lo ≤ result.toInt ∧ result.toInt ≤ hi := by
    intro lo hi hsamples
    rcases hresult with rfl | ⟨x, hx, hround⟩
    · exact hsamples result (List.mem_append_right _ (List.mem_singleton_self _))
    · obtain ⟨hlo, hhi⟩ := smoothed_between hsamples hx
      rw [hround, shiftRight_eight]
      omega
  refine ⟨fun hinit => ?_, ?_, hbetween, fun hequal => ?_, fun history c n hsamples hn => ?_⟩
  · rcases lt_or_ge trackerId maxTrackers with htracker | hbeyond
    · exact smoothTerms_fits newRssi (rssiStatesAfter_average calls trackerId htracker) hinit
    · rw [rssiStatesAfter_beyond calls trackerId hbeyond] at hinit
      cases hinit
  · refine ⟨?_, ?_⟩ <;> norm_num <;> omega
  · have hequal' : ∀ s ∈ samplesSince trackerId calls ++ [newRssi], newRssi.toInt ≤ s.toInt ∧
        s.toInt ≤ newRssi.toInt := by
      intro s hs
      rcases List.mem_append.mp hs with hs | hs
      · rw [hequal s hs]
        exact ⟨le_refl _, le_refl _⟩
      · rw [List.mem_singleton.mp hs]
        exact ⟨le_refl _, le_refl _⟩
    obtain ⟨hlo, hhi⟩ := hbetween _ _ hequal'
    exact BitVec.eq_of_toInt_eq (le_antisymm hhi hlo)
  · rcases hresult with rfl | ⟨x, hx, hround⟩
    · -- the last of the equal samples is the one that is returned
      have hlast : result = c := by
        obtain ⟨m, rfl⟩ : ∃ m, n = m + 1 := ⟨n - 1, by unfold settleSamples at hn; omega⟩
        rw [List.replicate_succ', ← List.append_assoc] at hsamples
        exact (List.append_inj' hsamples rfl).2 |> List.singleton_inj.mp
      rw [hlast, sub_self, abs_zero]
      exact zero_le_one
    · have hnear := abs_le.mp (smoothed_settled hn (hsamples ▸ hx))
      rw [hround, shiftRight_eight, abs_le]
      omega

/-- From below the average stops short of the samples, and the result one below them. -/
example : (rssiSmoothUpdate (rssiStatesAfter (.sample 3 0x80 :: List.replicate 60 (.sample 3 0))) 3 0).2 = 0xFF := by
  decide +kernel

end Run

end Hid

end SlimeReceiver
