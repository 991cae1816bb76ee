import SlimeReceiver.AutoChannel.Policy
import SlimeReceiver.Library.WordMask

/-! # Sweeps over the channels

The energy statistics of `auto_channel.c` and the order in which a sweep visits the channels.

* **`Survey`** — `scores`, `energy` and `sweep`, which are reset together.
* **`shuffleSweep`** — the channels that lack visits, in random order, and `mem_shuffleSweep`.
* **`recordVisit`** — a measurement that was not censored.
* **`beginConfirmation`** — the finalists and the second part of a sweep. -/

namespace SlimeReceiver.AutoChannel

open Function (update)

/-- `AC_SCAN_ROUNDS`. -/
def acScanRounds : ℕ := 12

/-- `AC_CONFIRM_ROUNDS`. -/
def acConfirmRounds : ℕ := 24

/-- `random_next`. -/
def randomNext (state : BitVec 32) : BitVec 32 := state * 1664525 + 1013904223

/-! ## Statistics -/

/-- `struct auto_channel_energy_status`. -/
structure EnergyStatus where
  peak : ℤ
  quietFloor : ℤ
  coverageUs : BitVec 32
  samples : BitVec 32
  visits : ℕ
  attempts : ℕ

/-- The statistics of a channel that was not visited. -/
def EnergyStatus.unvisited : EnergyStatus := ⟨-1, -1, 0, 0, 0, 0⟩

/-- `struct rssi_scan_observation`. -/
structure ScanObservation where
  peak : BitVec 8
  quietFloor : BitVec 8
  samples : BitVec 16
  coverageUs : BitVec 32

/-- The statistics with a further visit. -/
def EnergyStatus.visit (o : ScanObservation) (e : EnergyStatus) : EnergyStatus :=
  { e with
    peak := if e.peak < 0 ∨ (o.peak.toNat : ℤ) < e.peak then o.peak.toNat else e.peak
    quietFloor := if e.quietFloor < (o.quietFloor.toNat : ℤ) then o.quietFloor.toNat else e.quietFloor
    samples := e.samples + o.samples.setWidth 32
    coverageUs := e.coverageUs + o.coverageUs
    visits := e.visits + 1 }

/-- The static struct `sweep`; `count` is the length of `order`. -/
structure Sweep where
  candidate : ℕ
  rounds : ℕ
  deadline : ℤ
  order : List ℕ
  finalists : BitVec 64
  active : Bool
  confirming : Bool

/-- `scores`, `energy` and `sweep`. -/
structure Survey where
  scores : ℕ → ℤ
  energy : ℕ → EnergyStatus
  sweep : Sweep

/-- What `reset_sweep` leaves. -/
def Survey.reset : Survey where
  scores := fun _ => -1
  energy := fun _ => .unvisited
  sweep := ⟨0, 0, 0, [], 0, false, false⟩

/-! ## The order of a sweep -/

/-- One by one from the end, an entry changes places with a random one before it or itself. -/
def shuffleFrom : ℕ → BitVec 32 → List ℕ → BitVec 32 × List ℕ
  | 0, random, order => (random, order)
  | 1, random, order => (random, order)
  | n + 2, random, order =>
    shuffleFrom (n + 1) (randomNext random)
      (order.swap (n + 1) ((randomNext random).toNat % (n + 2)))

theorem shuffleFrom_perm (n : ℕ) (random : BitVec 32) (order : List ℕ) :
    (shuffleFrom n random order).2.Perm order := by
  induction n using Nat.strong_induction_on generalizing random order with
  | _ n ih =>
    match n with
    | 0 => exact .refl _
    | 1 => exact .refl _
    | n + 2 =>
      rw [shuffleFrom]
      exact (ih (n + 1) (Nat.lt_succ_self _) _ _).trans (List.swap_perm ..)

namespace Sweep

/-- `required_visits`. -/
def requiredVisits (s : Sweep) : ℕ := acScanRounds + if s.confirming then acConfirmRounds else 0

/-- The channel is a finalist. -/
def isFinalist (channel : ℕ) (s : Sweep) : Bool :=
  decide (channel ≤ 88) && channel % 2 == 0 && hasBit s.finalists (channel / 2)

/-- `survey_channel`. -/
def surveyChannel (channel home : ℕ) (s : Sweep) : Bool :=
  !s.confirming || channel == home || s.isFinalist channel

end Sweep

namespace Survey

/-- The channel lacks visits. -/
def lacks (channel : ℕ) (v : Survey) : Bool :=
  decide ((v.energy channel).visits < v.sweep.requiredVisits)

/-- The channels of the next round. -/
def candidates (home : ℕ) (v : Survey) : List ℕ :=
  (evenChannels.filter fun ch => v.sweep.surveyChannel ch home && v.lacks ch) ++
    if (88 < home ∨ home % 2 = 1) ∧ v.lacks home = true then [home] else []

/-- `shuffle_sweep`, with the random state. -/
def shuffleSweep (home : ℕ) (random : BitVec 32) (v : Survey) : BitVec 32 × Survey :=
  let order := v.candidates home
  let shuffled := shuffleFrom order.length random order
  (shuffled.1, { v with sweep := { v.sweep with order := shuffled.2 } })

/-- A visit that was not censored. -/
def recordVisit (channel : ℕ) (o : ScanObservation) (v : Survey) : Survey :=
  { v with
    energy := update v.energy channel ((v.energy channel).visit o)
    scores := update v.scores channel ((v.energy channel).visit o).peak }

/-- `energy[channel].attempts++`. -/
def attempt (channel : ℕ) (v : Survey) : Survey :=
  { v with
    energy := update v.energy channel
      { v.energy channel with attempts := (v.energy channel).attempts + 1 } }

/-! ## Finalists -/

/-- The loop of `begin_confirmation`: the best channels in order, with their scores. -/
def pickFinalists (home : ℕ) (now : ℤ) (policy : AcPolicy) : ℕ → (ℕ → ℤ) → List (ℕ × ℤ)
  | 0, _ => []
  | n + 1, scores =>
    match policy.acChoose home scores now with
    | none => []
    | some channel =>
      (channel, scores channel) :: pickFinalists home now policy n (update scores channel (-1))

/-- `begin_confirmation`, with the random state; `none` is its failure. -/
def beginConfirmation (home : ℕ) (now : ℤ) (policy : AcPolicy) (random : BitVec 32) (v : Survey) :
    Option (BitVec 32 × Survey) :=
  let chosen := pickFinalists home now policy 3 v.scores
  if chosen = [] then none
  else
    let cleared : ℕ → ℤ := fun ch => if ch ≤ 88 ∧ ch % 2 = 0 ∧ ch ≠ home then -1 else v.scores ch
    let confirming : Survey := { v with
      scores := chosen.foldl (fun scores c => update scores c.1 c.2) cleared
      sweep := { v.sweep with
        finalists := chosen.foldl (fun mask c => setBit mask (c.1 / 2)) v.sweep.finalists
        confirming := true } }
    some (confirming.shuffleSweep home random)

end Survey

/-! ## What the operations do -/

section Specs

variable {home : ℕ} {now : ℤ} {policy : AcPolicy} {random : BitVec 32} {v : Survey}

/-- A round visits channels of the survey that lack visits. -/
theorem mem_candidates {ch : ℕ} (h : ch ∈ v.candidates home) : (ch ∈ evenChannels ∨ ch = home) ∧
    v.sweep.surveyChannel ch home = true ∧ v.lacks ch = true := by
  rcases List.mem_append.mp h with heven | hodd
  · obtain ⟨hmem, hsurvey⟩ := List.mem_filter.mp heven
    rw [Bool.and_eq_true] at hsurvey
    exact ⟨.inl hmem, hsurvey⟩
  · split at hodd
    case isFalse => cases hodd
    case isTrue hlacks =>
      obtain rfl := List.mem_singleton.mp hodd
      refine ⟨.inr rfl, ?_, hlacks.2⟩
      rw [Sweep.surveyChannel, beq_self_eq_true, Bool.or_true, Bool.true_or]

theorem mem_candidates_of_even {ch : ℕ} (heven : ch ∈ evenChannels)
    (hsurvey : v.sweep.surveyChannel ch home = true) (hlacks : v.lacks ch = true) :
    ch ∈ v.candidates home := by
  refine List.mem_append_left _ (List.mem_filter.mpr ⟨heven, ?_⟩)
  rw [hsurvey, hlacks, Bool.and_self]

/-- Home is visited too, among the even channels or after them. -/
theorem home_mem_candidates (hlacks : v.lacks home = true) : home ∈ v.candidates home := by
  by_cases heven : home ∈ evenChannels
  · refine mem_candidates_of_even heven ?_ hlacks
    rw [Sweep.surveyChannel, beq_self_eq_true, Bool.or_true, Bool.true_or]
  · rw [mem_evenChannels] at heven
    have hodd : 88 < home ∨ home % 2 = 1 := by omega
    refine List.mem_append_right _ ?_
    rw [if_pos ⟨hodd, hlacks⟩]
    exact List.mem_singleton.mpr rfl

theorem nodup_candidates (home : ℕ) (v : Survey) : (v.candidates home).Nodup := by
  refine (nodup_evenChannels.filter _).append ?_ ?_
  · split
    · exact List.nodup_singleton _
    · exact .nil
  · intro ch heven hodd
    split at hodd
    case isFalse => cases hodd
    case isTrue hhome =>
      obtain rfl := List.mem_singleton.mp hodd
      have hmem := mem_evenChannels.mp (List.mem_filter.mp heven).1
      omega

theorem length_candidates (home : ℕ) (v : Survey) : (v.candidates home).length ≤ 46 := by
  rw [Survey.candidates, List.length_append]
  have heven : (evenChannels.filter fun ch => v.sweep.surveyChannel ch home && v.lacks ch).length ≤ 45 :=
    (List.length_filter_le _ _).trans (by decide)
  have hodd : (if (88 < home ∨ home % 2 = 1) ∧ v.lacks home = true then [home] else []).length ≤ 1 := by
    split <;> simp
  omega

theorem shuffleSweep_perm (home : ℕ) (random : BitVec 32) (v : Survey) :
    (v.shuffleSweep home random).2.sweep.order.Perm (v.candidates home) := shuffleFrom_perm _ _ _

/-- Of the finalists: there are at most as many as asked for, they are different destinations other than
home, and each comes with its score. -/
theorem pickFinalists_spec (n : ℕ) (scores : ℕ → ℤ) :
    (Survey.pickFinalists home now policy n scores).length ≤ n ∧
    ((Survey.pickFinalists home now policy n scores).map Prod.fst).Nodup ∧
    ∀ c ∈ Survey.pickFinalists home now policy n scores,
      c.1 ∈ evenChannels ∧ c.1 ≠ home ∧ 0 ≤ scores c.1 ∧ c.2 = scores c.1 := by
  induction n generalizing scores with
  | zero => exact ⟨le_refl _, .nil, fun c hc => by cases hc⟩
  | succ n ih =>
    rw [Survey.pickFinalists]
    cases hchoice : policy.acChoose home scores now with
    | none => exact ⟨Nat.zero_le _, .nil, fun c hc => by cases hc⟩
    | some channel =>
      obtain ⟨heven, hne, hreference, hbetter, -⟩ := AcPolicy.acChoose_spec hchoice
      obtain ⟨hlength, hnodup, hall⟩ := ih (update scores channel (-1))
      -- a channel that was picked has no score any more
      have hother : ∀ c ∈ Survey.pickFinalists home now policy n (update scores channel (-1)),
          c.1 ≠ channel := by
        intro c hc hsame
        obtain ⟨-, -, hscore, -⟩ := hall c hc
        rw [hsame, Function.update_self] at hscore
        omega
      refine ⟨Nat.succ_le_succ hlength, ?_, fun c hc => ?_⟩
      · rw [List.map_cons, List.nodup_cons]
        refine ⟨fun hmem => ?_, hnodup⟩
        obtain ⟨c, hc, hsame⟩ := List.mem_map.mp hmem
        exact hother c hc hsame
      · rcases List.mem_cons.mp hc with rfl | hc'
        · exact ⟨heven, hne, hreference.trans hbetter.le, rfl⟩
        · obtain ⟨heven', hne', hscore, hvalue⟩ := hall c hc'
          rw [Function.update_of_ne (hother c hc')] at hscore hvalue
          exact ⟨heven', hne', hscore, hvalue⟩

/-- Scores written back one by one. -/
theorem foldl_update_eq {scores : ℕ → ℤ} {chosen : List (ℕ × ℤ)} (ch : ℕ) {value : ℕ → ℤ}
    (h : ∀ c ∈ chosen, c.2 = value c.1) :
    chosen.foldl (fun scores c => update scores c.1 c.2) scores ch =
      if ch ∈ chosen.map Prod.fst then value ch else scores ch := by
  induction chosen generalizing scores with
  | nil => rfl
  | cons c chosen ih =>
    rw [List.foldl_cons, ih fun c' hc' => h c' (List.mem_cons_of_mem _ hc'), List.map_cons]
    by_cases htail : ch ∈ chosen.map Prod.fst
    · rw [if_pos htail, if_pos (List.mem_cons_of_mem _ htail)]
    · rw [if_neg htail]
      by_cases hhead : ch = c.1
      · rw [hhead, Function.update_self, if_pos List.mem_cons_self]
        exact h c List.mem_cons_self
      · rw [Function.update_of_ne hhead, if_neg]
        exact fun hmem => (List.mem_cons.mp hmem).elim hhead htail

/-- A mask of channels collected one by one. -/
theorem hasBit_foldl_setBit {chosen : List (ℕ × ℤ)} {mask : BitVec 64} (k : ℕ)
    (h : ∀ c ∈ chosen, c.1 ∈ evenChannels) :
    hasBit (chosen.foldl (fun mask c => setBit mask (c.1 / 2)) mask) k =
      (hasBit mask k || decide (2 * k ∈ chosen.map Prod.fst)) := by
  induction chosen generalizing mask with
  | nil => simp
  | cons c chosen ih =>
    obtain ⟨hle, heven⟩ := mem_evenChannels.mp (h c List.mem_cons_self)
    rw [List.foldl_cons, ih fun c' hc' => h c' (List.mem_cons_of_mem _ hc'), hasBit_setBit,
      List.map_cons]
    have hsmall : c.1 / 2 < 64 := by omega
    have hmem : decide (2 * k ∈ c.1 :: chosen.map Prod.fst) =
        (decide (c.1 / 2 = k) || decide (2 * k ∈ chosen.map Prod.fst)) := by
      rw [← Bool.decide_or, decide_eq_decide, List.mem_cons]
      exact or_congr_left (by omega)
    rw [hmem, decide_eq_true hsmall, Bool.true_and, Bool.or_assoc]

/-- What a confirmation that begins has done. -/
structure Confirms (home : ℕ) (chosen : List ℕ) (v v' : Survey) : Prop where
  few : chosen.length ≤ 3
  destinations : ∀ ch ∈ chosen, ch ∈ evenChannels ∧ ch ≠ home
  energy : v'.energy = v.energy
  confirming : v'.sweep.confirming = true
  place : v'.sweep.candidate = v.sweep.candidate ∧ v'.sweep.active = v.sweep.active
  finalist : v.sweep.finalists = 0 → ∀ ch, v'.sweep.isFinalist ch = decide (ch ∈ chosen)
  scores : ∀ ch, v'.scores ch =
    if ch ∈ chosen then v.scores ch else if ch ∈ evenChannels ∧ ch ≠ home then -1 else v.scores ch
  order : v'.sweep.order.Perm (v'.candidates home)

theorem beginConfirmation_spec {random' : BitVec 32} {v' : Survey}
    (h : v.beginConfirmation home now policy random = some (random', v')) :
    Confirms home ((Survey.pickFinalists home now policy 3 v.scores).map Prod.fst) v v' := by
  have hpicked : (Survey.pickFinalists home now policy 3 v.scores).length ≤ 3 ∧ _ :=
    pickFinalists_spec 3 v.scores
  obtain ⟨hlength, -, hall⟩ := hpicked
  unfold Survey.beginConfirmation at h
  simp only [] at h
  split at h
  case isTrue => cases h
  case isFalse =>
    obtain ⟨-, rfl⟩ := Prod.mk.inj (Option.some.inj h)
    refine ⟨by rwa [List.length_map], fun ch hch => ?_, rfl, rfl, ⟨rfl, rfl⟩, fun hnone ch => ?_,
      fun ch => ?_, shuffleSweep_perm _ _ _⟩
    · obtain ⟨c, hc, rfl⟩ := List.mem_map.mp hch
      exact ⟨(hall c hc).1, (hall c hc).2.1⟩
    · show (decide (ch ≤ 88) && ch % 2 == 0 && hasBit _ (ch / 2)) = _
      rw [hasBit_foldl_setBit _ fun c hc => (hall c hc).1, hnone]
      by_cases heven : ch ∈ evenChannels
      · obtain ⟨hle, hmod⟩ := mem_evenChannels.mp heven
        have hchannel : 2 * (ch / 2) = ch := by omega
        have hzero : hasBit (0 : BitVec 64) (ch / 2) = false := hasBit_zero _
        rw [hchannel, hzero, decide_eq_true hle, hmod]
        rfl
      · have hnot : ch ∉ (Survey.pickFinalists home now policy 3 v.scores).map Prod.fst := by
          intro hmem
          obtain ⟨c, hc, rfl⟩ := List.mem_map.mp hmem
          exact heven (hall c hc).1
        rw [decide_eq_false hnot]
        rw [mem_evenChannels] at heven
        have hbits : (decide (ch ≤ 88) && ch % 2 == 0) = false := by
          rw [Bool.and_eq_false_iff, decide_eq_false_iff_not, beq_eq_false_iff_ne]
          omega
        rw [hbits, Bool.false_and]
    · refine (foldl_update_eq ch fun c hc => (hall c hc).2.2.2).trans ?_
      simp only [mem_evenChannels, and_assoc]

end Specs

end SlimeReceiver.AutoChannel
