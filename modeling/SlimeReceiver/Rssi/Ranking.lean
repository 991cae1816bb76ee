import SlimeReceiver.Library.InsertionSort
import Mathlib.Data.BitVec
import Mathlib.Data.List.GetD

/-! # The ranking of the channels

`rssi_scan_run_and_print` visits the preferred channels two hundred times, recommends one of those without a failed
visit, and lists them all in order.

* **`ScanVisit`**, **`scanSweeps`** — the visits and the scores they leave.
* **`betterChannel`** — the comparison, **`Better`** — the order it is of the channels with their scores.
* **`rssiScanReport`**, **`rssiScanRun`** — what is printed.
* **`scanSweeps_spec`** — a channel holds the least of its samples, or -1 for good after a failed visit.
* **`rssi_ranking`** — the list is in order, and the recommendation is its first entry. -/

namespace SlimeReceiver

open Function (update update_self update_of_ne)

namespace Rssi

/-! ## The visits -/

/-- `esb_allowed_channels`. -/
def esbAllowedChannels : List ℕ :=
  [0, 2, 52, 72, 74, 76, 78, 82, 84, 86, 88, 50, 24, 48, 70, 68, 46, 44, 20, 54, 56,
    28, 30, 6, 8, 10, 12, 14, 16, 18, 32, 34, 36, 38, 40, 42, 58, 60, 62, 64, 66]

/-- `esb_channel_is_allowed`. -/
def esbChannelIsAllowed (channel : ℕ) : Bool := esbAllowedChannels.any (· == channel)

/-- `RSSI_SCAN_LAST_CHANNEL`. -/
def rssiScanLastChannel : ℕ := 88

/-- `RSSI_SCAN_SWEEPS`. -/
def rssiScanSweeps : ℕ := 200

/-- `RSSI_SAMPLE_MAX`. -/
def rssiSampleMax : ℤ := 127

/-- An entry of `scan_results`. -/
structure ScanResult where
  score : ℤ
  failures : ℕ
  deriving DecidableEq

/-- What a visit of a channel ends with. -/
inductive ScanVisit
  /-- The radio or the front end was left on. -/
  | stuck
  | failed
  | measured (lowest : BitVec 8)
  deriving DecidableEq

/-- What a visit does to the result of its channel; `none` ends the scan. -/
def ScanResult.record (result : ScanResult) : ScanVisit → Option ScanResult
  | .stuck => none
  | .failed => some ⟨-1, result.failures + 1⟩
  | .measured lowest =>
    some (if (lowest.toNat : ℤ) < result.score then { result with score := lowest.toNat } else result)

/-- The channels from the first to the last. -/
def scanRange : List ℕ := List.range (rssiScanLastChannel + 1)

/-- A visit of a channel; the others are passed over. -/
def scanVisit (visits : ℕ → ScanVisit) (results : ℕ → ScanResult) (ch : ℕ) : Option (ℕ → ScanResult) :=
  if !esbChannelIsAllowed ch then some results
  else ((results ch).record (visits ch)).map (update results ch)

/-- The sweeps, with what every visit ends with. -/
def scanSweeps (visits : ℕ → ℕ → ScanVisit) : ℕ → Option (ℕ → ScanResult)
  | 0 => some fun _ => ⟨rssiSampleMax, 0⟩
  | sweep + 1 => (scanSweeps visits sweep).bind fun results => scanRange.foldlM (scanVisit (visits sweep)) results

/-! ## The ranking -/

/-- `better_channel`. -/
def betterChannel (chA lowestA chB lowestB : ℕ) (chBValid : Bool) (currentCh : ℕ) : Bool :=
  if !chBValid then true
  else if lowestB < lowestA then true
  else if lowestA < lowestB then false
  else
    let distA := if currentCh < chA then chA - currentCh else currentCh - chA
    let distB := if currentCh < chB then chB - currentCh else currentCh - chB
    if distA < distB then true
    else if distB < distA then false
    else chA < chB

/-- A score as the argument of type `uint8_t`. -/
def scoreByte (score : ℤ) : ℕ := (BitVec.ofInt 8 score).toNat

/-- The comparison of two channels with their scores. -/
def better (results : ℕ → ScanResult) (currentCh a b : ℕ) : Bool :=
  betterChannel a (scoreByte (results a).score) b (scoreByte (results b).score) true currentCh

/-- `cand_ch`. -/
def candCh (results : ℕ → ScanResult) : List ℕ :=
  scanRange.filter fun ch => esbChannelIsAllowed ch && decide (0 ≤ (results ch).score)

/-- The step of the scan for the recommendation; the channel so far is 0 as long as there is none. -/
def recommend (results : ℕ → ScanResult) (currentCh : ℕ) (recommended : Option ℕ) (ch : ℕ) : Option ℕ :=
  if betterChannel ch (scoreByte (results ch).score) (recommended.getD 0)
      (if recommended.isSome then scoreByte (results (recommended.getD 0)).score else 0)
      recommended.isSome currentCh then some ch
  else recommended

/-- `sorted_ch`, up to `cand_count`. -/
def sortedCh (results : ℕ → ScanResult) (currentCh : ℕ) : List ℕ :=
  (List.range (candCh results).length).map
    (sortPasses (better results currentCh) ((candCh results).length - 1) fun i => (candCh results).getD i 0)

/-- What is printed. -/
structure ScanReport where
  recommended : Option ℕ
  /-- The channels that are excluded, with the number of their failures. -/
  excluded : List (ℕ × ℕ)
  /-- The channels that are listed, with their scores. -/
  listed : List (ℕ × ℤ)
  deriving DecidableEq

def rssiScanReport (results : ℕ → ScanResult) (currentCh : ℕ) : ScanReport where
  recommended := (candCh results).foldl (recommend results currentCh) none
  excluded := (scanRange.filter fun ch => decide ((results ch).failures ≠ 0)).map fun ch => (ch, (results ch).failures)
  listed := (sortedCh results currentCh).map fun ch => (ch, (results ch).score)

/-- `rssi_scan_run_and_print`: the radio is there for the scan, the visits, and the radio is restored. -/
def rssiScanRun (ready : Bool) (visits : ℕ → ℕ → ScanVisit) (restored : Bool) (currentCh : ℕ) : Option ScanReport :=
  if !ready then none
  else (scanSweeps visits rssiScanSweeps).bind fun results =>
    if !restored then none else some (rssiScanReport results currentCh)

/-! ## The order -/

section Order

/-- The distance of a channel from the current one. -/
def channelDist (currentCh ch : ℕ) : ℕ := if currentCh < ch then ch - currentCh else currentCh - ch

theorem betterChannel_iff (a lowestA b lowestB currentCh : ℕ) :
    betterChannel a lowestA b lowestB true currentCh = true ↔ lowestB < lowestA ∨ lowestA = lowestB ∧
      (channelDist currentCh a < channelDist currentCh b ∨
        channelDist currentCh a = channelDist currentCh b ∧ a < b) := by
  unfold betterChannel channelDist
  simp only [Bool.not_true, Bool.false_eq_true, if_false]
  generalize (if currentCh < a then a - currentCh else currentCh - a) = distA
  generalize (if currentCh < b then b - currentCh else currentCh - b) = distB
  split
  case isTrue h => exact ⟨fun _ => Or.inl h, fun _ => rfl⟩
  case isFalse h =>
    split
    case isTrue h' => exact ⟨fun hf => absurd hf Bool.false_ne_true, fun h => by omega⟩
    case isFalse h' =>
      split
      case isTrue hnear => exact ⟨fun _ => by omega, fun _ => rfl⟩
      case isFalse hnear =>
        split
        case isTrue hfar => exact ⟨fun hf => absurd hf Bool.false_ne_true, fun h => by omega⟩
        case isFalse hfar =>
          rw [decide_eq_true_iff]
          omega

/-- **The comparison is a strict total order**, whatever the scores and the current channel are. -/
theorem better_order (results : ℕ → ScanResult) (currentCh : ℕ) :
    IsStrictTotalOrder ℕ fun a b => better results currentCh a b = true where
  trichotomous a b := by
    simp only [better, betterChannel_iff]
    omega
  irrefl a := by
    simp only [better, betterChannel_iff]
    omega
  trans a b c := by
    simp only [better, betterChannel_iff]
    omega

end Order

/-! ## The scores -/

/-- **What a channel holds after a number of sweeps**, with what its visits ended with. -/
structure ScoreOf (visits : ℕ → ScanVisit) (sweeps : ℕ) (result : ScanResult) : Prop where
  /-- A failed visit excludes the channel for good. -/
  excluded : (∃ sweep < sweeps, visits sweep = .failed) → result.score = -1
  range : (∀ sweep < sweeps, visits sweep ≠ .failed) → 0 ≤ result.score ∧ result.score ≤ rssiSampleMax
  least : (∀ sweep < sweeps, visits sweep ≠ .failed) → ∀ sweep < sweeps, ∀ lowest, visits sweep = .measured lowest →
    result.score ≤ (lowest.toNat : ℤ)
  /-- The score is one of the samples, or as large as a sample may be. -/
  attained : (∀ sweep < sweeps, visits sweep ≠ .failed) → result.score = rssiSampleMax ∨
    ∃ sweep < sweeps, ∃ lowest, visits sweep = .measured lowest ∧ result.score = (lowest.toNat : ℤ)
  counted : result.failures = (List.range sweeps).countP fun sweep => decide (visits sweep = .failed)

section Scores

variable {visits : ℕ → ScanVisit} {sweeps : ℕ} {result result' : ScanResult}

theorem scoreOf_zero (visits : ℕ → ScanVisit) : ScoreOf visits 0 ⟨rssiSampleMax, 0⟩ where
  excluded := fun ⟨_, h, _⟩ => absurd h (Nat.not_lt_zero _)
  range _ := ⟨by decide, le_refl _⟩
  least _ _ h := absurd h (Nat.not_lt_zero _)
  attained _ := Or.inl rfl
  counted := rfl

/-- The next visit. -/
theorem ScoreOf.step (h : ScoreOf visits sweeps result) (hrecord : result.record (visits sweeps) = some result') :
    ScoreOf visits (sweeps + 1) result' := by
  have hcount : (List.range (sweeps + 1)).countP (fun sweep => decide (visits sweep = .failed)) =
      result.failures + if visits sweeps = .failed then 1 else 0 := by
    rw [List.range_succ, List.countP_append, ← h.counted, List.countP_singleton]
    simp only [decide_eq_true_eq]
  cases hvisit : visits sweeps with
  | stuck =>
    rw [hvisit] at hrecord
    cases hrecord
  | failed =>
    rw [hvisit] at hrecord
    obtain rfl := Option.some.inj hrecord
    have hnever : ¬∀ sweep < sweeps + 1, visits sweep ≠ .failed := fun hall => hall sweeps sweeps.lt_succ_self hvisit
    refine ⟨fun _ => rfl, fun hall => absurd hall hnever, fun hall => absurd hall hnever,
      fun hall => absurd hall hnever, ?_⟩
    rw [hcount, if_pos hvisit]
  | measured lowest =>
    rw [hvisit] at hrecord
    obtain rfl := Option.some.inj hrecord
    have hbefore : (∃ sweep < sweeps + 1, visits sweep = .failed) → ∃ sweep < sweeps, visits sweep = .failed := by
      rintro ⟨sweep, hsweep, hfailed⟩
      rcases Nat.lt_succ_iff_lt_or_eq.mp hsweep with hsweep | rfl
      · exact ⟨sweep, hsweep, hfailed⟩
      · rw [hvisit] at hfailed
        cases hfailed
    have hbelow : (∀ sweep < sweeps + 1, visits sweep ≠ .failed) → ∀ sweep < sweeps, visits sweep ≠ .failed :=
      fun hall sweep hsweep => hall sweep (Nat.lt_succ_of_lt hsweep)
    have hsample : (0 : ℤ) ≤ lowest.toNat := Int.natCast_nonneg _
    have hscore : (if (lowest.toNat : ℤ) < result.score then { result with score := lowest.toNat } else result).score =
        min result.score lowest.toNat := by
      split
      case isTrue hless => exact (min_eq_right hless.le).symm
      case isFalse hmore => exact (min_eq_left (not_lt.mp hmore)).symm
    refine ⟨fun hfailed => ?_, fun hall => ?_, fun hall sweep hsweep sample hmeasured => ?_, fun hall => ?_, ?_⟩
    · -- a good visit does not bring the channel back
      have hexcluded := h.excluded (hbefore hfailed)
      rw [hscore]
      omega
    · obtain ⟨hlo, hhi⟩ := h.range (hbelow hall)
      rw [hscore]
      exact ⟨le_min hlo hsample, (min_le_left _ _).trans hhi⟩
    · rw [hscore]
      rcases Nat.lt_succ_iff_lt_or_eq.mp hsweep with hsweep | rfl
      · exact (min_le_left _ _).trans (h.least (hbelow hall) sweep hsweep sample hmeasured)
      · rw [hvisit] at hmeasured
        obtain rfl := ScanVisit.measured.inj hmeasured
        exact min_le_right _ _
    · rw [hscore]
      rcases min_choice result.score (lowest.toNat : ℤ) with hold | hnew
      · rw [hold]
        refine (h.attained (hbelow hall)).imp_right ?_
        rintro ⟨sweep, hsweep, hattained⟩
        exact ⟨sweep, Nat.lt_succ_of_lt hsweep, hattained⟩
      · exact Or.inr ⟨sweeps, sweeps.lt_succ_self, lowest, hvisit, hnew⟩
    · have hgood : visits sweeps ≠ .failed := by
        rw [hvisit]
        exact ScanVisit.noConfusion
      rw [hcount, if_neg hgood, Nat.add_zero]
      split <;> rfl

end Scores

section Sweeps

variable {results results' : ℕ → ScanResult}

/-- A visit changes the result of its channel only. -/
theorem scanVisit_spec {visits : ℕ → ScanVisit} {ch : ℕ} (h : scanVisit visits results ch = some results') (c : ℕ) :
    if c = ch ∧ esbChannelIsAllowed c = true then (results c).record (visits c) = some (results' c)
    else results' c = results c := by
  unfold scanVisit at h
  split at h
  case isTrue hskip =>
    obtain rfl := Option.some.inj h
    rw [if_neg]
    rintro ⟨rfl, hallowed⟩
    rw [hallowed] at hskip
    exact absurd hskip (by decide)
  case isFalse hallowed =>
    obtain ⟨result, hrecord, rfl⟩ := Option.map_eq_some_iff.mp h
    split
    case isTrue hc => rw [hc.1, update_self, hrecord]
    case isFalse hc => exact update_of_ne (fun heq => hc ⟨heq, by rw [heq]; simpa using hallowed⟩) _ _

/-- A sweep visits every allowed channel once. -/
theorem foldlM_scanVisit_spec {visits : ℕ → ScanVisit} {channels : List ℕ} (hnodup : channels.Nodup)
    (h : channels.foldlM (scanVisit visits) results = some results') (c : ℕ) :
    if c ∈ channels ∧ esbChannelIsAllowed c = true then (results c).record (visits c) = some (results' c)
    else results' c = results c := by
  induction channels generalizing results with
  | nil =>
    obtain rfl := Option.some.inj h
    rw [if_neg fun hc => List.not_mem_nil hc.1]
  | cons ch channels ih =>
    rw [List.foldlM_cons] at h
    obtain ⟨next, hnext, hrest⟩ := Option.bind_eq_some_iff.mp h
    have hvisit := scanVisit_spec hnext c
    obtain ⟨hnew, hnodup⟩ := List.nodup_cons.mp hnodup
    have hlater := ih hnodup hrest
    by_cases hc : c = ch
    · subst hc
      rw [if_neg fun h => hnew h.1] at hlater
      rw [hlater]
      simpa only [true_and, List.mem_cons_self] using hvisit
    · rw [if_neg fun h => hc h.1] at hvisit
      rw [← hvisit]
      simpa only [List.mem_cons, hc, false_or] using hlater

theorem scanRange_nodup : scanRange.Nodup := List.nodup_range

/-- **The scores after the sweeps.** -/
theorem scanSweeps_spec {visits : ℕ → ℕ → ScanVisit} {sweeps : ℕ} (h : scanSweeps visits sweeps = some results) {ch : ℕ}
    (hch : ch ∈ scanRange) (hallowed : esbChannelIsAllowed ch = true) :
    ScoreOf (fun sweep => visits sweep ch) sweeps (results ch) := by
  induction sweeps generalizing results with
  | zero =>
    obtain rfl := Option.some.inj h
    exact scoreOf_zero _
  | succ sweeps ih =>
    obtain ⟨before, hbefore, hsweep⟩ := Option.bind_eq_some_iff.mp h
    have hvisit := foldlM_scanVisit_spec scanRange_nodup hsweep ch
    rw [if_pos ⟨hch, hallowed⟩] at hvisit
    exact (ih hbefore).step hvisit

end Sweeps

/-! ## What is printed -/

section Report

variable (results : ℕ → ScanResult) (currentCh : ℕ)

theorem mem_candCh {ch : ℕ} : ch ∈ candCh results ↔
    ch ∈ scanRange ∧ esbChannelIsAllowed ch = true ∧ 0 ≤ (results ch).score := by
  rw [candCh, List.mem_filter, Bool.and_eq_true, decide_eq_true_eq]

theorem map_getD_range (l : List ℕ) : (List.range l.length).map (fun i => l.getD i 0) = l := by
  refine List.ext_getElem (by rw [List.length_map, List.length_range]) fun i hi hi' => ?_
  rw [List.getElem_map, List.getElem_range, List.getD_eq_getElem _ _ hi']

/-- The number of passes is one less than the number of candidates. -/
theorem candidates_range : candCh results = [] ∨
    List.range (candCh results).length = List.range ((candCh results).length - 1 + 1) := by
  rcases Nat.eq_zero_or_pos (candCh results).length with hzero | hpos
  · exact Or.inl (List.length_eq_zero_iff.mp hzero)
  · rw [Nat.sub_add_cancel hpos]
    exact Or.inr rfl

theorem sortedCh_perm : (sortedCh results currentCh).Perm (candCh results) := by
  unfold sortedCh
  rcases candidates_range results with hnone | hrange
  · rw [hnone]
    exact List.Perm.refl _
  · have hperm := sortPasses_perm (better results currentCh) ((candCh results).length - 1) fun i =>
      (candCh results).getD i 0
    rwa [← hrange, map_getD_range] at hperm

theorem sortedCh_pairwise : (sortedCh results currentCh).Pairwise fun a b => better results currentCh a b = true := by
  have := better_order results currentCh
  unfold sortedCh
  rcases candidates_range results with hnone | hrange
  · rw [hnone]
    exact List.Pairwise.nil
  · rw [hrange]
    refine sortPasses_pairwise ?_
    rw [← hrange, map_getD_range]
    exact scanRange_nodup.filter _

/-- Without a channel so far every channel is better. -/
theorem recommend_eq : recommend results currentCh = pickFirst (better results currentCh) := by
  funext recommended ch
  cases recommended with
  | none => rfl
  | some b => rfl

/-- The recommendation is the first of the list. -/
theorem recommended_eq : (rssiScanReport results currentCh).recommended = (sortedCh results currentCh).head? := by
  have := better_order results currentCh
  rw [rssiScanReport, recommend_eq]
  exact pickFirst_eq_head (sortedCh_perm results currentCh) (sortedCh_pairwise results currentCh)

end Report

section Complete

/-- Steps that fail whatever the state is. -/
theorem isSome_foldlM_of_step {σ α : Type*} {f : σ → α → Option σ} {p : α → Prop}
    (hstep : ∀ s a, (f s a).isSome = true ↔ p a) (l : List α) (s : σ) :
    (l.foldlM f s).isSome = true ↔ ∀ a ∈ l, p a := by
  induction l generalizing s with
  | nil => exact ⟨fun _ a ha => absurd ha List.not_mem_nil, fun _ => rfl⟩
  | cons a l ih =>
    rw [List.foldlM_cons, List.forall_mem_cons, ← hstep s a]
    cases f s a with
    | none => exact ⟨fun h => absurd h Bool.false_ne_true, fun h => absurd h.1 Bool.false_ne_true⟩
    | some next => exact (ih next).trans ⟨fun h => ⟨rfl, h⟩, fun h => h.2⟩

theorem isSome_scanVisit (visits : ℕ → ScanVisit) (results : ℕ → ScanResult) (ch : ℕ) :
    (scanVisit visits results ch).isSome = true ↔ (esbChannelIsAllowed ch = true → visits ch ≠ .stuck) := by
  unfold scanVisit
  cases esbChannelIsAllowed ch with
  | false => exact ⟨fun _ h => absurd h Bool.false_ne_true, fun _ => rfl⟩
  | true =>
    rw [Bool.not_true, if_neg Bool.false_ne_true, Option.isSome_map]
    cases visits ch with
    | stuck => exact ⟨fun h => absurd h Bool.false_ne_true, fun h => absurd rfl (h rfl)⟩
    | failed => exact ⟨fun _ _ => ScanVisit.noConfusion, fun _ => rfl⟩
    | measured lowest => exact ⟨fun _ _ => ScanVisit.noConfusion, fun _ => rfl⟩

/-- The sweeps are complete if no visit leaves the radio on. -/
theorem isSome_scanSweeps (visits : ℕ → ℕ → ScanVisit) (sweeps : ℕ) : (scanSweeps visits sweeps).isSome = true ↔
    ∀ sweep < sweeps, ∀ ch ∈ scanRange, esbChannelIsAllowed ch = true → visits sweep ch ≠ .stuck := by
  induction sweeps with
  | zero => exact ⟨fun _ _ h => absurd h (Nat.not_lt_zero _), fun _ => rfl⟩
  | succ sweeps ih =>
    have hlast := isSome_foldlM_of_step (isSome_scanVisit (visits sweeps)) scanRange
    rw [Nat.forall_lt_succ_right, ← ih, scanSweeps]
    cases scanSweeps visits sweeps with
    | none => exact ⟨fun h => absurd h Bool.false_ne_true, fun h => absurd h.1 Bool.false_ne_true⟩
    | some results => exact (hlast results).trans ⟨fun h => ⟨rfl, h⟩, fun h => h.2⟩

end Complete

/-- **The ranking of a scan.** A scan reports nothing if the radio is not there, a visit leaves it on or it is not
restored. Otherwise every preferred channel holds the least of its samples, or -1 if a visit failed; the comparison is
a strict total order; the channels without a failed visit are listed in this order, each of them once, and the first
of them is recommended; and a channel with a failed visit is neither listed nor recommended. -/
theorem rssi_ranking (ready : Bool) (visits : ℕ → ℕ → ScanVisit) (restored : Bool) (currentCh : ℕ) :
    (rssiScanRun ready visits restored currentCh = none ∧ (ready = false ∨ restored = false ∨
      ∃ sweep < rssiScanSweeps, ∃ ch ∈ scanRange, esbChannelIsAllowed ch = true ∧ visits sweep ch = .stuck)) ∨
    ∃ results report, rssiScanRun ready visits restored currentCh = some report ∧
      (∀ ch ∈ scanRange, esbChannelIsAllowed ch = true →
        ScoreOf (fun sweep => visits sweep ch) rssiScanSweeps (results ch)) ∧
      IsStrictTotalOrder ℕ (fun a b => better results currentCh a b = true) ∧
      (∀ ch, ch ∈ candCh results ↔ ch ∈ scanRange ∧ esbChannelIsAllowed ch = true ∧
        ∀ sweep < rssiScanSweeps, visits sweep ch ≠ .failed) ∧
      (report.listed.map Prod.fst).Perm (candCh results) ∧
      (report.listed.map Prod.fst).Pairwise (fun a b => better results currentCh a b = true) ∧
      report.recommended = (report.listed.map Prod.fst).head? ∧
      ∀ ch, (∃ sweep < rssiScanSweeps, visits sweep ch = .failed) →
        ch ∉ report.listed.map Prod.fst ∧ report.recommended ≠ some ch := by
  unfold rssiScanRun
  cases ready with
  | false => exact Or.inl ⟨rfl, Or.inl rfl⟩
  | true =>
    rw [Bool.not_true, if_neg Bool.false_ne_true]
    cases hsweeps : scanSweeps visits rssiScanSweeps with
    | none =>
      refine Or.inl ⟨rfl, Or.inr (Or.inr ?_)⟩
      by_contra hnone
      have hsome := (isSome_scanSweeps visits rssiScanSweeps).mpr fun sweep hsweep ch hch hallowed hstuck =>
        hnone ⟨sweep, hsweep, ch, hch, hallowed, hstuck⟩
      rw [hsweeps] at hsome
      exact Bool.false_ne_true hsome
    | some results =>
      cases restored with
      | false => exact Or.inl ⟨rfl, Or.inr (Or.inl rfl)⟩
      | true =>
        have hscores : ∀ ch ∈ scanRange, esbChannelIsAllowed ch = true →
            ScoreOf (fun sweep => visits sweep ch) rssiScanSweeps (results ch) :=
          fun _ hch hallowed => scanSweeps_spec hsweeps hch hallowed
        have hlisted : (rssiScanReport results currentCh).listed.map Prod.fst = sortedCh results currentCh := by
          rw [rssiScanReport, List.map_map]
          exact List.map_id _
        refine Or.inr ⟨results, rssiScanReport results currentCh, rfl, hscores, better_order results currentCh, ?_⟩
        have hcandidate : ∀ ch, ch ∈ candCh results ↔ ch ∈ scanRange ∧ esbChannelIsAllowed ch = true ∧
            ∀ sweep < rssiScanSweeps, visits sweep ch ≠ .failed := by
          intro ch
          rw [mem_candCh]
          refine and_congr_right fun hch => and_congr_right fun hallowed => ⟨fun hscore => ?_, fun hgood => ?_⟩
          · intro sweep hsweep hfailed
            rw [(hscores ch hch hallowed).excluded ⟨sweep, hsweep, hfailed⟩] at hscore
            exact absurd hscore (by decide)
          · exact ((hscores ch hch hallowed).range hgood).1
        rw [hlisted, recommended_eq]
        refine ⟨hcandidate, sortedCh_perm results currentCh, sortedCh_pairwise results currentCh, rfl,
          fun ch hfailed => ?_⟩
        obtain ⟨sweep, hsweep, hfailed⟩ := hfailed
        have habsent : ch ∉ sortedCh results currentCh := fun hmem =>
          ((hcandidate ch).mp ((sortedCh_perm results currentCh).mem_iff.mp hmem)).2.2 sweep hsweep hfailed
        exact ⟨habsent, fun hhead => habsent (List.mem_of_mem_head? hhead)⟩

end Rssi

end SlimeReceiver
