import Mathlib.Data.List.GetD
import SlimeReceiver.AutoChannel.Worker
import SlimeReceiver.Library.Evaluation

/-! # What a channel request rests on

A sweep goes on over thousands of calls of `auto_step` and ends in a request or nowhere.

* **`SweepRecord`**, **`currentSweep`** — the sweep under way, from the history alone.
* **`RequestLaw`** — what has to be true of the sweep when a channel is requested.
* **`Counted`**, **`Ordered`**, **`Sweeping`** — the statistics and the order agree with the history of
  the sweep: the invariant, which a sweep that is given up leaves with everything reset.
* **`channel_request_evidence`** — the law holds of every run. -/

namespace SlimeReceiver.AutoChannel

open Function (update)

/-! ## The history of a sweep -/

/-- What the history tells of a sweep; the newest comes first. -/
structure SweepRecord where
  home : ℕ
  token : BitVec 32
  finalists : List ℕ
  visits : List (ℕ × ScanObservation)
  /-- Home and generation, as the calls have read them since. -/
  readings : List (ℕ × BitVec 32)

namespace SweepRecord

/-- How often a channel was visited. -/
def visitsOf (ch : ℕ) (r : SweepRecord) : ℕ := r.visits.countP fun v => v.1 == ch

/-- The strongest energy measured on a channel; -1 before the first visit. -/
def peakOf (ch : ℕ) (r : SweepRecord) : ℤ :=
  (r.visits.filter fun v => v.1 == ch).foldr (fun v peak =>
    if peak < 0 ∨ (v.2.peak.toNat : ℤ) < peak then v.2.peak.toNat else peak) (-1)

/-- The sweep after an event. -/
def follow (r : SweepRecord) : WorkerEvent → SweepRecord
  | .sampled home token => { r with readings := (home, token) :: r.readings }
  | .rechecked home token => { r with readings := (home, token) :: r.readings }
  | .confirming finalists => { r with finalists := finalists }
  | .visited ch o => { r with visits := (ch, o) :: r.visits }
  | _ => r

end SweepRecord

/-- The sweep under way after an event. -/
def followSweep (r : Option SweepRecord) : WorkerEvent → Option SweepRecord
  | .sweepStarted home token => some ⟨home, token, [], [], []⟩
  | e => r.map fun r => r.follow e

/-- The sweep that started last. -/
def currentSweep (trace : List WorkerEvent) : Option SweepRecord := trace.foldl followSweep none

theorem currentSweep_snoc (trace : List WorkerEvent) (e : WorkerEvent) :
    currentSweep (trace ++ [e]) = followSweep (currentSweep trace) e := by
  rw [currentSweep, List.foldl_append]
  rfl

/-- The evidence for a request: the sweep in which home and generation were read as they are in the
request every time, with 12 visits of every destination and 36 of home and of each finalist, and a
finalist that is strictly better than home and that no fresh peer disturbs. -/
structure Evidence (r : SweepRecord) (q : Request) : Prop where
  home : r.home = q.home
  token : r.token = q.token
  readings : ∀ reading ∈ r.readings, reading = (q.home, q.token)
  surveyed : ∀ ch ∈ evenChannels, 12 ≤ r.visitsOf ch
  reference : r.visitsOf q.home = 36
  few : r.finalists.length ≤ 3
  confirmed : ∀ ch ∈ r.finalists, r.visitsOf ch = 36
  target : q.target ∈ r.finalists
  destination : q.target ∈ evenChannels ∧ q.target ≠ q.home
  better : 0 ≤ r.peakOf q.home ∧ r.peakOf q.home < r.peakOf q.target
  free : q.policy.acOccupied q.target q.chosenAt = false
  room : q.policy.saturated q.chosenAt = false

/-- What a request rests on, and that the order of a sweep is read in range. -/
def RequestLaw (earlier : List WorkerEvent) : WorkerEvent → Prop
  | .ordered candidate count => candidate < count ∧ count ≤ 46
  | .requested q => (∃ r, currentSweep earlier = some r ∧ Evidence r q) ∧
      ∃ before, earlier = before ++ [WorkerEvent.rechecked q.home q.token]
  | _ => True

/-! ## The statistics follow the history -/

/-- The statistics of a sweep agree with its history. -/
structure Counted (r : SweepRecord) (v : Survey) : Prop where
  visits : ∀ ch, (v.energy ch).visits = r.visitsOf ch
  peak : ∀ ch, (v.energy ch).peak = r.peakOf ch
  scores : ∀ ch, ch ∈ evenChannels ∨ ch = r.home →
    v.scores ch = if v.sweep.surveyChannel ch r.home then (v.energy ch).peak else -1
  bounded : ∀ ch, ch ∈ evenChannels ∨ ch = r.home → v.sweep.surveyChannel ch r.home = true →
    (v.energy ch).visits ≤ v.sweep.requiredVisits
  surveyed : v.sweep.confirming = true → ∀ ch ∈ evenChannels, 12 ≤ (v.energy ch).visits
  finalist : v.sweep.confirming = true → ∀ ch, v.sweep.isFinalist ch = decide (ch ∈ r.finalists)
  few : r.finalists.length ≤ 3
  destinations : ∀ ch ∈ r.finalists, ch ∈ evenChannels ∧ ch ≠ r.home
  unconfirmed : v.sweep.confirming = false → v.sweep.finalists = 0

/-- From its `n`-th entry on, the order lists channels that lack visits. -/
structure Ordered (n home : ℕ) (v : Survey) : Prop where
  nodup : v.sweep.order.Nodup
  few : v.sweep.order.length ≤ 46
  lacking : ∀ ch ∈ v.sweep.order.drop n, (ch ∈ evenChannels ∨ ch = home) ∧
    v.sweep.surveyChannel ch home = true ∧ v.lacks ch = true

/-- A sweep is under way. -/
structure Sweeping (n : ℕ) (r : SweepRecord) (w : Worker) : Prop where
  home : r.home = w.observedHome
  token : r.token = w.observedGeneration
  readings : ∀ reading ∈ r.readings, reading = (r.home, r.token)
  counted : Counted r w.survey
  ordered : Ordered n r.home w.survey
  candidate : w.survey.sweep.candidate < w.survey.sweep.order.length

section Counted

variable {r : SweepRecord} {v v' : Survey} {home n ch : ℕ} {o : ScanObservation}

theorem visitsOf_visited (r : SweepRecord) (ch : ℕ) (o : ScanObservation) (ch' : ℕ) :
    (r.follow (.visited ch o)).visitsOf ch' = r.visitsOf ch' + if ch = ch' then 1 else 0 := by
  show ((ch, o) :: r.visits).countP _ = _
  rw [List.countP_cons]
  simp only [beq_iff_eq]
  rfl

theorem peakOf_visited_self (r : SweepRecord) (ch : ℕ) (o : ScanObservation) :
    (r.follow (.visited ch o)).peakOf ch =
      if r.peakOf ch < 0 ∨ (o.peak.toNat : ℤ) < r.peakOf ch then (o.peak.toNat : ℤ)
      else r.peakOf ch := by
  show (((ch, o) :: r.visits).filter _).foldr _ _ = _
  rw [List.filter_cons_of_pos (by simp), List.foldr_cons]
  rfl

theorem peakOf_visited_of_ne (r : SweepRecord) {ch ch' : ℕ} (o : ScanObservation) (h : ch ≠ ch') :
    (r.follow (.visited ch o)).peakOf ch' = r.peakOf ch' := by
  show (((ch, o) :: r.visits).filter _).foldr _ _ = _
  rw [List.filter_cons_of_neg (by simpa using h)]
  rfl

/-- An attempt counts for nothing else. -/
theorem Counted.attempt (h : Counted r v) (ch : ℕ) : Counted r (v.attempt ch) := by
  have hkept : ∀ ch', ((v.attempt ch).energy ch').visits = (v.energy ch').visits ∧
      ((v.attempt ch).energy ch').peak = (v.energy ch').peak := by
    intro ch'
    show ((update v.energy ch _) ch').visits = _ ∧ ((update v.energy ch _) ch').peak = _
    by_cases hsame : ch' = ch
    · rw [hsame, Function.update_self]
      exact ⟨rfl, rfl⟩
    · rw [Function.update_of_ne hsame]
      exact ⟨rfl, rfl⟩
  refine ⟨fun ch' => ?_, fun ch' => ?_, fun ch' hch => ?_, fun ch' hch hsurvey => ?_,
    fun hconfirming ch' heven => ?_, h.finalist, h.few, h.destinations, h.unconfirmed⟩
  · rw [(hkept ch').1]
    exact h.visits ch'
  · rw [(hkept ch').2]
    exact h.peak ch'
  · rw [(hkept ch').2]
    exact h.scores ch' hch
  · rw [(hkept ch').1]
    exact h.bounded ch' hch hsurvey
  · rw [(hkept ch').1]
    exact h.surveyed hconfirming ch' heven

/-- A visit of a channel that lacks one. -/
theorem Counted.recordVisit (h : Counted r v) (hsurvey : v.sweep.surveyChannel ch r.home = true)
    (hlacks : v.lacks ch = true) (o : ScanObservation) :
    Counted (r.follow (.visited ch o)) (v.recordVisit ch o) := by
  have hself : (v.recordVisit ch o).energy ch = (v.energy ch).visit o := Function.update_self ..
  have hother : ∀ ch', ch' ≠ ch → (v.recordVisit ch o).energy ch' = v.energy ch' :=
    fun ch' hne => Function.update_of_ne hne ..
  have hlt : (v.energy ch).visits < v.sweep.requiredVisits := of_decide_eq_true hlacks
  refine ⟨fun ch' => ?_, fun ch' => ?_, fun ch' hch => ?_, fun ch' hch hsurvey' => ?_,
    fun hconfirming ch' heven => ?_, h.finalist, h.few, h.destinations, h.unconfirmed⟩
  · rw [visitsOf_visited, ← h.visits]
    by_cases hsame : ch' = ch
    · rw [hsame, hself, if_pos rfl]
      rfl
    · rw [hother ch' hsame, if_neg (Ne.symm hsame)]
      rfl
  · by_cases hsame : ch' = ch
    · rw [hsame, hself, peakOf_visited_self, ← h.peak]
      rfl
    · rw [hother ch' hsame, peakOf_visited_of_ne _ _ (Ne.symm hsame)]
      exact h.peak ch'
  · by_cases hsame : ch' = ch
    · rw [hsame, hself]
      show update v.scores ch _ ch = if v.sweep.surveyChannel ch r.home then _ else _
      rw [Function.update_self, hsurvey, if_pos rfl]
    · rw [hother ch' hsame]
      show update v.scores ch _ ch' = _
      rw [Function.update_of_ne hsame]
      exact h.scores ch' hch
  · by_cases hsame : ch' = ch
    · rw [hsame, hself]
      exact hlt
    · rw [hother ch' hsame]
      exact h.bounded ch' hch hsurvey'
  · have hbefore := h.surveyed hconfirming ch' heven
    by_cases hsame : ch' = ch
    · rw [hsame] at hbefore ⊢
      rw [hself]
      exact hbefore.trans (Nat.le_succ _)
    · rw [hother ch' hsame]
      exact hbefore

/-- Only the statistics, the finalists and the part of the sweep matter. -/
theorem Counted.frame (h : Counted r v) (henergy : v'.energy = v.energy) (hscores : v'.scores = v.scores)
    (hfinalists : v'.sweep.finalists = v.sweep.finalists)
    (hconfirming : v'.sweep.confirming = v.sweep.confirming) : Counted r v' := by
  have hsurvey : ∀ ch, v'.sweep.surveyChannel ch r.home = v.sweep.surveyChannel ch r.home := by
    intro ch
    rw [Sweep.surveyChannel, Sweep.surveyChannel, Sweep.isFinalist, Sweep.isFinalist, hconfirming,
      hfinalists]
  have hrequired : v'.sweep.requiredVisits = v.sweep.requiredVisits := by
    rw [Sweep.requiredVisits, Sweep.requiredVisits, hconfirming]
  refine ⟨henergy ▸ h.visits, henergy ▸ h.peak, fun ch hch => ?_, fun ch hch hsurvey' => ?_,
    fun hconfirming' => henergy ▸ h.surveyed (hconfirming ▸ hconfirming'), fun hconfirming' ch => ?_,
    h.few, h.destinations, fun hconfirming' => ?_⟩
  · rw [hscores, hsurvey, henergy]
    exact h.scores ch hch
  · rw [hrequired, henergy]
    exact h.bounded ch hch (hsurvey ch ▸ hsurvey')
  · rw [Sweep.isFinalist, hfinalists]
    exact h.finalist (hconfirming ▸ hconfirming') ch
  · rw [hfinalists]
    exact h.unconfirmed (hconfirming ▸ hconfirming')

/-- So do the visits and the finalists of the history. -/
theorem Counted.reread (h : Counted r v) (readings : List (ℕ × BitVec 32)) :
    Counted { r with readings := readings } v :=
  ⟨h.visits, h.peak, h.scores, h.bounded, h.surveyed, h.finalist, h.few, h.destinations,
    h.unconfirmed⟩

/-- Nothing was visited yet. -/
theorem counted_start (home : ℕ) (token : BitVec 32) (h : v.energy = Survey.reset.energy ∧
    v.scores = Survey.reset.scores ∧ v.sweep.finalists = 0 ∧ v.sweep.confirming = false) :
    Counted ⟨home, token, [], [], []⟩ v := by
  obtain ⟨henergy, hscores, hfinalists, hconfirming⟩ := h
  have hsurvey : ∀ ch, v.sweep.surveyChannel ch home = true := by
    intro ch
    rw [Sweep.surveyChannel, hconfirming]
    rfl
  refine ⟨fun ch => ?_, fun ch => ?_, fun ch _ => ?_, fun ch _ _ => ?_, fun htrue => ?_, fun htrue => ?_,
    Nat.zero_le _, fun _ hch => ?_, fun _ => hfinalists⟩
  · rw [henergy]
    rfl
  · rw [henergy]
    rfl
  · show v.scores ch = if v.sweep.surveyChannel ch home then _ else _
    rw [hscores, hsurvey, if_pos rfl, henergy]
    rfl
  · rw [henergy]
    exact Nat.zero_le _
  · rw [hconfirming] at htrue
    cases htrue
  · rw [hconfirming] at htrue
    cases htrue
  · cases hch

/-- A part of a sweep that is complete. -/
theorem complete_iff (h : Worker.complete home v = true) :
    (∀ ch ∈ evenChannels, v.sweep.surveyChannel ch home = true →
      (v.energy ch).visits = v.sweep.requiredVisits) ∧
      (v.energy home).visits = v.sweep.requiredVisits := by
  rw [Worker.complete, Bool.and_eq_true, List.all_eq_true, beq_iff_eq] at h
  refine ⟨fun ch heven hsurvey => ?_, h.2⟩
  have hch := h.1 ch heven
  rw [hsurvey, Bool.not_true, Bool.false_or, beq_iff_eq] at hch
  exact hch

/-- In a part of a sweep that is not complete some channel lacks visits. -/
theorem exists_candidate (h : Counted r v) (hincomplete : Worker.complete r.home v = false) :
    v.candidates r.home ≠ [] := by
  by_cases hhome : v.lacks r.home = true
  · exact List.ne_nil_of_mem (home_mem_candidates hhome)
  -- home has its visits, so an even channel of the survey has not
  have hself : v.sweep.surveyChannel r.home r.home = true := by
    rw [Sweep.surveyChannel, beq_self_eq_true, Bool.or_true, Bool.true_or]
  have hle := h.bounded r.home (.inr rfl) hself
  have hdone : (v.energy r.home).visits = v.sweep.requiredVisits := by
    rw [Survey.lacks, decide_eq_true_iff] at hhome
    omega
  rw [Worker.complete, hdone, beq_self_eq_true, Bool.and_true, List.all_eq_false] at hincomplete
  obtain ⟨ch, heven, hch⟩ := hincomplete
  rw [Bool.or_eq_true, not_or, Bool.not_eq_true', Bool.not_eq_false, beq_iff_eq] at hch
  have hbound := h.bounded ch (.inl heven) hch.1
  have hlacks : v.lacks ch = true := decide_eq_true (Nat.lt_of_le_of_ne hbound hch.2)
  exact List.ne_nil_of_mem (mem_candidates_of_even heven hch.1 hlacks)

/-- The finalists of a complete survey are visited further. -/
theorem Counted.confirm {chosen : List ℕ} (h : Counted r v) (hhome : r.home = home)
    (hconfirming : v.sweep.confirming = false) (hcomplete : Worker.complete home v = true)
    (hconfirms : Confirms home chosen v v') :
    Counted (r.follow (.confirming chosen)) v' ∧ v'.lacks home = true := by
  subst hhome
  obtain ⟨hdone, hhome⟩ := complete_iff hcomplete
  have hall : ∀ ch, v.sweep.surveyChannel ch r.home = true := by
    intro ch
    rw [Sweep.surveyChannel, hconfirming]
    rfl
  have htwelve : v.sweep.requiredVisits = 12 := by
    rw [Sweep.requiredVisits, hconfirming]
    rfl
  have hrequired : v'.sweep.requiredVisits = 36 := by
    rw [Sweep.requiredVisits, hconfirms.confirming]
    rfl
  have hfinalist := hconfirms.finalist (h.unconfirmed hconfirming)
  have hsurvey : ∀ ch, v'.sweep.surveyChannel ch r.home = (ch == r.home || decide (ch ∈ chosen)) := by
    intro ch
    rw [Sweep.surveyChannel, hconfirms.confirming, hfinalist]
    rfl
  have hvisits : ∀ ch, ch ∈ evenChannels ∨ ch = r.home → (v'.energy ch).visits = 12 := by
    intro ch hch
    rw [hconfirms.energy, ← htwelve]
    rcases hch with heven | rfl
    · exact hdone ch heven (hall ch)
    · exact hhome
  refine ⟨⟨fun ch => ?_, fun ch => ?_, fun ch hch => ?_, fun ch hch _ => ?_, fun _ ch heven => ?_,
    fun _ => hfinalist, hconfirms.few, hconfirms.destinations, fun hfalse => ?_⟩, ?_⟩
  · rw [hconfirms.energy]
    exact h.visits ch
  · rw [hconfirms.energy]
    exact h.peak ch
  · have hbefore := h.scores ch hch
    rw [hall, if_pos rfl] at hbefore
    show v'.scores ch = if v'.sweep.surveyChannel ch r.home then _ else _
    rw [hconfirms.scores, hsurvey, hconfirms.energy, hbefore]
    by_cases hmem : ch ∈ chosen
    · rw [if_pos hmem, decide_eq_true hmem, Bool.or_true, if_pos rfl]
    · rw [if_neg hmem, decide_eq_false hmem, Bool.or_false]
      by_cases hsame : ch = r.home
      · rw [if_neg fun hboth => hboth.2 hsame, hsame, beq_self_eq_true, if_pos rfl]
      · rw [if_pos ⟨hch.resolve_right hsame, hsame⟩, beq_false_of_ne hsame,
          if_neg Bool.false_ne_true]
  · rw [hvisits ch hch, hrequired]
    decide
  · exact (hvisits ch (.inl heven)).ge
  · rw [hconfirms.confirming] at hfalse
    cases hfalse
  · rw [Survey.lacks, hvisits r.home (.inr rfl), hrequired]
    rfl

/-- A new order lists the channels that lack visits. -/
theorem ordered_of_perm (h : v.sweep.order.Perm (v.candidates home)) (n : ℕ) : Ordered n home v where
  nodup := h.nodup_iff.mpr (nodup_candidates home v)
  few := h.length_eq.trans_le (length_candidates home v)
  lacking _ hch := mem_candidates (h.subset (List.mem_of_mem_drop hch))

theorem length_pos_of_perm (h : v.sweep.order.Perm (v.candidates home))
    (hsome : v.candidates home ≠ []) : 0 < v.sweep.order.length := by
  rw [h.length_eq]
  exact List.length_pos_of_ne_nil hsome

theorem Ordered.mono (h : Ordered n home v) {m : ℕ} (hle : n ≤ m) : Ordered m home v where
  nodup := h.nodup
  few := h.few
  lacking ch hch := by
    obtain ⟨k, rfl⟩ := Nat.exists_eq_add_of_le hle
    rw [← List.drop_drop] at hch
    exact h.lacking ch (List.mem_of_mem_drop hch)

/-- An attempt is no visit. -/
theorem Ordered.attempt (h : Ordered n home v) (ch : ℕ) : Ordered n home (v.attempt ch) where
  nodup := h.nodup
  few := h.few
  lacking ch' hch := by
    obtain ⟨hmem, hsurvey, hlacks⟩ := h.lacking ch' hch
    refine ⟨hmem, hsurvey, ?_⟩
    show decide ((update v.energy ch _ ch').visits < v.sweep.requiredVisits) = true
    by_cases hsame : ch' = ch
    · rw [hsame] at hlacks ⊢
      rw [Function.update_self]
      exact hlacks
    · rw [Function.update_of_ne hsame]
      exact hlacks

/-- The entry in turn. -/
theorem Ordered.current (h : Ordered n home v) (hn : n < v.sweep.order.length) :
    v.sweep.surveyChannel (v.sweep.order.getD n 0) home = true ∧
      v.lacks (v.sweep.order.getD n 0) = true := by
  rw [List.getD_eq_getElem _ _ hn]
  refine (h.lacking _ ?_).2
  rw [List.drop_eq_getElem_cons hn]
  exact List.mem_cons_self

/-- After a visit of the entry in turn the later ones still lack theirs: it is not among them. -/
theorem Ordered.recordVisit (h : Ordered n home v) (hn : n < v.sweep.order.length)
    (o : ScanObservation) : Ordered (n + 1) home (v.recordVisit (v.sweep.order.getD n 0) o) where
  nodup := h.nodup
  few := h.few
  lacking ch' hch := by
    obtain ⟨hmem, hsurvey, hlacks⟩ := (h.mono (Nat.le_succ n)).lacking ch' hch
    refine ⟨hmem, hsurvey, ?_⟩
    have hdrop : (v.sweep.order.drop n).Nodup := h.nodup.sublist (List.drop_sublist _ _)
    rw [List.drop_eq_getElem_cons hn, List.nodup_cons] at hdrop
    rw [List.getD_eq_getElem _ _ hn]
    have hne : ch' ≠ v.sweep.order[n] := fun hsame => hdrop.1 (hsame ▸ hch)
    show decide ((update v.energy v.sweep.order[n] _ ch').visits < v.sweep.requiredVisits) = true
    rw [Function.update_of_ne hne]
    exact hlacks

end Counted

/-! ## The stages of a call -/

/-- The worker has read home and generation in this call. -/
def Reads (i : StepInput) (w : Worker) : Prop :=
  w.observedHome = i.home ∧ w.observedGeneration = i.token

/-- The sweep agrees with the history; without a sweep everything is reset, apart from before the first
call. -/
structure Evidenced (trace : List WorkerEvent) (w : Worker) : Prop where
  idle : w.survey.sweep.active = false → w.survey = .reset ∨ 100 < w.observedHome
  sweeping : w.survey.sweep.active = true →
    ∃ r, currentSweep trace = some r ∧ Sweeping w.survey.sweep.candidate r w
  lawful : EachAfter RequestLaw trace

/-- A stage that leaves the sweep alone, or resets it. -/
structure Keeps (w w' : Worker) : Prop where
  survey : w'.survey = w.survey ∨ w'.survey = .reset
  home : w'.observedHome = w.observedHome
  token : w'.observedGeneration = w.observedGeneration

/-- The visit of a call is over: the entry in turn counts no longer. -/
structure Visited (trace : List WorkerEvent) (i : StepInput) (w : Worker) : Prop where
  reads : Reads i w
  active : w.survey.sweep.active = true
  sweeping : ∃ r, currentSweep trace = some r ∧ Sweeping (w.survey.sweep.candidate + 1) r w
  lawful : EachAfter RequestLaw trace

section Stages

variable {trace : List WorkerEvent} {i : StepInput} {w w' w'' : Worker} {s : AutoLossSnapshot}

theorem Keeps.refl (w : Worker) : Keeps w w := ⟨.inl rfl, rfl, rfl⟩

theorem Keeps.trans (h : Keeps w w') (h' : Keeps w' w'') : Keeps w w'' where
  survey := by
    rcases h'.survey with hsame | hreset
    · rw [hsame]
      exact h.survey
    · exact .inr hreset
  home := h'.home.trans h.home
  token := h'.token.trans h.token

theorem Keeps.reads (h : Keeps w w') (hreads : Reads i w) : Reads i w' :=
  ⟨h.home.trans hreads.1, h.token.trans hreads.2⟩

theorem keeps_abandon (w : Worker) : Keeps w w.abandon := ⟨.inr rfl, rfl, rfl⟩

-- the random state is generalized first: comparing the states would unfold the arithmetic of words
theorem nextRandom_survey (w : Worker) : w.nextRandom.survey = w.survey := by
  unfold Worker.nextRandom
  generalize randomNext w.randomState = random
  rfl

theorem keeps_nextRandom (w : Worker) : Keeps w w.nextRandom := by
  refine ⟨.inl (nextRandom_survey w), ?_, ?_⟩
  all_goals
    unfold Worker.nextRandom
    generalize randomNext w.randomState = random
    rfl

theorem keeps_beaconAfter (now : ℤ) (w : Worker) : Keeps w (w.beaconAfter now) := by
  refine (keeps_nextRandom w).trans ?_
  unfold Worker.beaconAfter
  generalize w.nextRandom = next
  exact ⟨.inl rfl, rfl, rfl⟩

theorem keeps_sampled (s : AutoLossSnapshot) (i : StepInput) (w : Worker) : Keeps w (w.sampled s i) :=
  ⟨.inl rfl, rfl, rfl⟩

theorem keeps_hear (i : StepInput) (w : Worker) : Keeps w (w.hear i) := ⟨.inl rfl, rfl, rfl⟩

theorem keeps_recoverySample (s : AutoLossSnapshot) (i : StepInput) (w : Worker) :
    Keeps w (w.recoverySample s i) := by
  unfold Worker.recoverySample
  simp only []
  split
  · exact ⟨.inl rfl, rfl, rfl⟩
  · split <;> exact ⟨.inl rfl, rfl, rfl⟩

theorem keeps_judge (evidence : Option Bool) (i : StepInput) (w : Worker) :
    Keeps w (w.judge evidence i).1 ∧
      ∀ e ∈ (w.judge evidence i).2.2.2, ∃ lost latched, e = .judged lost latched := by
  unfold Worker.judge
  split
  · exact ⟨⟨.inl rfl, rfl, rfl⟩, fun e he => ⟨_, _, List.mem_singleton.mp he⟩⟩
  · exact ⟨⟨.inl rfl, rfl, rfl⟩, fun e he => ⟨_, _, List.mem_singleton.mp he⟩⟩
  · exact ⟨⟨.inl rfl, rfl, rfl⟩, fun e he => by cases he⟩
  · exact ⟨⟨.inl rfl, rfl, rfl⟩, fun e he => by cases he⟩

theorem keeps_advanceGrid (s : AutoLossSnapshot) (i : StepInput) (w : Worker) :
    Keeps w (w.advanceGrid s i) := by
  unfold Worker.advanceGrid
  simp only []
  split
  · split <;> exact ⟨.inl rfl, rfl, rfl⟩
  · exact ⟨.inl rfl, rfl, rfl⟩

theorem keeps_weigh (s : AutoLossSnapshot) (i : StepInput) (w : Worker) :
    Keeps w (w.weigh s i).1 ∧
      ∀ e ∈ (w.weigh s i).2.2.2, ∃ lost latched, e = .judged lost latched := by
  unfold Worker.weigh
  split
  · exact ⟨keeps_recoverySample s i w, fun e he => by cases he⟩
  · split
    · split
      · exact ⟨⟨.inr rfl, rfl, rfl⟩, fun e he => by cases he⟩
      · exact ⟨⟨.inl rfl, rfl, rfl⟩, fun e he => by cases he⟩
    · split
      · exact ⟨⟨.inl rfl, rfl, rfl⟩, fun e he => by cases he⟩
      · split
        · exact ⟨⟨.inl rfl, rfl, rfl⟩, fun e he => by cases he⟩
        · obtain ⟨hkeeps, hevents⟩ := keeps_judge (w.loss.lossSample s i.now).2 i (w.sampled s i)
          exact ⟨(keeps_sampled s i w).trans hkeeps, hevents⟩

theorem keeps_evidence (available : Bool) (i : StepInput) (w : Worker) :
    Keeps w (w.evidence available i).1 ∧
      ∀ e ∈ (w.evidence available i).2.2.2, ∃ lost latched, e = .judged lost latched := by
  unfold Worker.evidence
  split
  · simp only []
    obtain ⟨hkeeps, hevents⟩ := keeps_weigh { i.snapshot with eligible := i.snapshot.eligible && available }
      i (w.advanceGrid { i.snapshot with eligible := i.snapshot.eligible && available } i)
    exact ⟨(keeps_advanceGrid _ i w).trans hkeeps, hevents⟩
  · exact ⟨⟨.inl rfl, rfl, rfl⟩, fun e he => by cases he⟩

theorem Evidenced.reset_of_idle (h : Evidenced trace w) (hreads : Reads i w)
    (hidle : w.survey.sweep.active = false) : w.survey = .reset := by
  rcases h.idle hidle with hreset | hfar
  · exact hreset
  · rw [hreads.1] at hfar
    exact absurd i.home_le (not_le.mpr hfar)

/-- Where the sweep is left alone or reset, the evidence stays. -/
theorem Evidenced.keep (h : Evidenced trace w) (hkeeps : Keeps w w') : Evidenced trace w' := by
  obtain ⟨hsurvey, hhome, htoken⟩ := hkeeps
  rcases hsurvey with hsame | hreset
  · refine ⟨fun hidle => ?_, fun hactive => ?_, h.lawful⟩
    · rw [hsame, hhome]
      rw [hsame] at hidle
      exact h.idle hidle
    · rw [hsame] at hactive
      obtain ⟨r, hr, hsweeping⟩ := h.sweeping hactive
      refine ⟨r, hr, ?_⟩
      rw [hsame]
      exact ⟨hsweeping.home.trans hhome.symm, hsweeping.token.trans htoken.symm, hsweeping.readings,
        hsame ▸ hsweeping.counted, hsame ▸ hsweeping.ordered, hsame ▸ hsweeping.candidate⟩
  · refine ⟨fun _ => .inl hreset, fun hactive => ?_, h.lawful⟩
    rw [hreset] at hactive
    cases hactive

/-- Events that do not concern the sweep. -/
theorem Evidenced.quiet {es : List WorkerEvent} (h : Evidenced trace w)
    (hes : ∀ e ∈ es, (∀ r, followSweep r e = r) ∧ ∀ earlier, RequestLaw earlier e) :
    Evidenced (trace ++ es) w where
  idle := h.idle
  sweeping hactive := by
    obtain ⟨r, hr, hsweeping⟩ := h.sweeping hactive
    refine ⟨r, ?_, hsweeping⟩
    rw [currentSweep, List.foldl_append]
    exact (foldl_eq_self (fun e he => (hes e he).1) _).trans hr
  lawful := h.lawful.append fun earlier e he => (hes e he).2 earlier

theorem followSweep_quiet {r : Option SweepRecord} {e : WorkerEvent} (h : ∀ r, SweepRecord.follow r e = r)
    (hstart : ∀ home token, e ≠ .sweepStarted home token) : followSweep r e = r := by
  cases e with
  | sweepStarted home token => exact absurd rfl (hstart home token)
  | _ =>
    cases r with
    | none => rfl
    | some r => exact congrArg some (h r)

theorem quiet_judged (lost latched : Bool) : (∀ r, followSweep r (.judged lost latched) = r) ∧
    ∀ earlier, RequestLaw earlier (.judged lost latched) :=
  ⟨fun _ => followSweep_quiet (fun _ => rfl) fun _ _ => by simp, fun _ => trivial⟩

theorem quiet_committed (s : AutoLossSnapshot) (now : ℤ) :
    (∀ r, followSweep r (.committed s now) = r) ∧ ∀ earlier, RequestLaw earlier (.committed s now) :=
  ⟨fun _ => followSweep_quiet (fun _ => rfl) fun _ _ => by simp, fun _ => trivial⟩

theorem generation_of_decisionValid {token : BitVec 32} {radioFault : Bool} {reading : Reading}
    (h : reading.decisionValid token radioFault = true) : reading.generation = token := by
  simp only [Reading.decisionValid, Bool.and_eq_true, beq_iff_eq] at h
  exact h.2

/-- A call has read the same home and generation again. -/
theorem Sweeping.read {n : ℕ} {r : SweepRecord} (h : Sweeping n r w) (hreads : Reads i w) :
    Sweeping n { r with readings := (i.home, i.token) :: r.readings } w where
  home := h.home
  token := h.token
  readings reading hmem := by
    rcases List.mem_cons.mp hmem with rfl | hmem
    · rw [← hreads.1, ← hreads.2, ← h.home, ← h.token]
    · exact h.readings reading hmem
  counted := h.counted.reread _
  ordered := h.ordered
  candidate := h.candidate

/-- The call has read home and generation. -/
theorem Evidenced.noteHome (h : Evidenced trace w) (now : ℤ) (committed : Bool) (i : StepInput) :
    Evidenced (trace ++ [WorkerEvent.sampled i.home i.token]) (w.noteHome now i.home i.token committed) ∧
      Reads i (w.noteHome now i.home i.token committed) := by
  have hlawful : EachAfter RequestLaw (trace ++ [WorkerEvent.sampled i.home i.token]) :=
    eachAfter_snoc.mpr ⟨h.lawful, trivial⟩
  unfold Worker.noteHome
  by_cases hchanged : i.home ≠ w.observedHome ∨ i.token ≠ w.observedGeneration
  · rw [if_pos hchanged]
    exact ⟨⟨fun _ => .inl rfl, fun hactive => (by cases hactive), hlawful⟩, rfl, rfl⟩
  · rw [if_neg hchanged]
    obtain ⟨hhome, htoken⟩ := not_or.mp hchanged
    rw [not_not] at hhome htoken
    refine ⟨⟨h.idle, fun hactive => ?_, hlawful⟩, hhome.symm, htoken.symm⟩
    obtain ⟨r, hr, hsweeping⟩ := h.sweeping hactive
    refine ⟨r.follow (.sampled i.home i.token), ?_, hsweeping.read ⟨hhome.symm, htoken.symm⟩⟩
    rw [currentSweep_snoc, hr]
    rfl

/-- The start of a call. -/
theorem Evidenced.takeCompletion (h : Evidenced trace w) (i : StepInput) :
    Evidenced (trace ++ .sampled i.home i.token :: (w.takeCompletion i).2) (w.takeCompletion i).1 ∧
      Reads i (w.takeCompletion i).1 := by
  unfold Worker.takeCompletion
  simp only []
  obtain ⟨hnoted, hreads⟩ := h.noteHome i.now (i.completion.any (w.commits i.home i.token)) i
  rw [← List.singleton_append, ← List.append_assoc]
  split
  · split
    · exact ⟨(hnoted.quiet fun e he => List.mem_singleton.mp he ▸ quiet_committed _ _).keep
        ⟨.inl rfl, rfl, rfl⟩, hreads⟩
    · rw [List.append_nil]
      exact ⟨hnoted.keep ⟨.inl rfl, rfl, rfl⟩, hreads⟩
  · rw [List.append_nil]
    exact ⟨hnoted, hreads⟩

/-- A sweep that is given up. -/
theorem evidenced_of_reset (h : EachAfter RequestLaw trace) (hreset : w.survey = .reset) :
    Evidenced trace w := by
  refine ⟨fun _ => .inl hreset, fun hactive => ?_, h⟩
  rw [hreset] at hactive
  cases hactive

/-- A sweep starts. -/
theorem Evidenced.startSweep (h : Evidenced trace w) (hreads : Reads i w)
    (hidle : w.survey.sweep.active = false) :
    Evidenced (trace ++ [WorkerEvent.sweepStarted i.home i.token]) (w.startSweep i) := by
  have hreset := h.reset_of_idle hreads hidle
  have hlacks : (w.startSweep i).survey.lacks i.home = true := by
    show decide ((w.survey.energy i.home).visits < w.survey.sweep.requiredVisits) = true
    rw [hreset]
    rfl
  have hperm : (w.startSweep i).survey.sweep.order.Perm
      ((w.startSweep i).survey.candidates i.home) := shuffleSweep_perm _ _ _
  refine ⟨fun hidle' => (by cases hidle'), fun _ => ⟨⟨i.home, i.token, [], [], []⟩, ?_, ?_⟩,
    eachAfter_snoc.mpr ⟨h.lawful, trivial⟩⟩
  · rw [currentSweep_snoc]
    rfl
  · refine ⟨hreads.1.symm, hreads.2.symm, fun reading hmem => (by cases hmem), ?_,
      ordered_of_perm hperm _, ?_⟩
    · refine counted_start _ _ ⟨?_, ?_, ?_, ?_⟩
      · exact congrArg (fun v => v.energy) hreset
      · exact congrArg (fun v => v.scores) hreset
      · exact congrArg (fun v => v.sweep.finalists) hreset
      · exact congrArg (fun v => v.sweep.confirming) hreset
    · have hcandidate : (w.startSweep i).survey.sweep.candidate = 0 :=
        congrArg (fun v => v.sweep.candidate) hreset
      rw [hcandidate]
      exact length_pos_of_perm hperm (List.ne_nil_of_mem (home_mem_candidates hlacks))

/-- The measurement of a call. -/
theorem Evidenced.measure (h : Evidenced trace w) (hreads : Reads i w)
    (hactive : w.survey.sweep.active = true) :
    Visited (trace ++ (w.measure i).2.2) i (w.measure i).1 := by
  obtain ⟨r, hr, hsweeping⟩ := h.sweeping hactive
  have hn := hsweeping.candidate
  obtain ⟨hsurvey, hlacks⟩ := hsweeping.ordered.current hn
  have hordered : EachAfter RequestLaw
      (trace ++ [WorkerEvent.ordered w.survey.sweep.candidate w.survey.sweep.order.length]) :=
    eachAfter_snoc.mpr ⟨h.lawful, hn, hsweeping.ordered.few⟩
  have hkept : currentSweep
      (trace ++ [WorkerEvent.ordered w.survey.sweep.candidate w.survey.sweep.order.length]) = some r := by
    rw [currentSweep_snoc, hr]
    rfl
  -- a visit that is censored, or that fails, counts as an attempt
  have hattempted : Visited (trace ++ [WorkerEvent.ordered w.survey.sweep.candidate w.survey.sweep.order.length]) i
      { w with survey := w.survey.attempt (w.survey.sweep.order.getD w.survey.sweep.candidate 0) } :=
    ⟨hreads, hactive, ⟨r, hkept, hsweeping.home, hsweeping.token, hsweeping.readings,
      hsweeping.counted.attempt _, (hsweeping.ordered.mono (Nat.le_succ _)).attempt _, hn⟩, hordered⟩
  unfold Worker.measure
  simp only []
  split
  case h_1 o _ =>
    split
    · rw [← List.singleton_append (l := [WorkerEvent.visited _ o]), ← List.append_assoc]
      refine ⟨hreads, hactive, ⟨r.follow (.visited _ o), ?_, hsweeping.home, hsweeping.token,
        hsweeping.readings, (hsweeping.counted.attempt _).recordVisit hsurvey ?_ o,
        (hsweeping.ordered.attempt _).recordVisit hn o, hn⟩, eachAfter_snoc.mpr ⟨hordered, trivial⟩⟩
      · rw [currentSweep_snoc, hkept]
        rfl
      · exact ((hsweeping.ordered.attempt _).current hn).2
    · exact hattempted
  case h_2 => exact hattempted
  case h_3 => exact hattempted

/-- A choice at the end of a complete confirmation has its evidence. -/
theorem Sweeping.evidence {n target : ℕ} {r : SweepRecord} (h : Sweeping n r w) (hreads : Reads i w)
    (hcomplete : Worker.complete i.home w.survey = true) (hconfirming : w.survey.sweep.confirming = true)
    (hchoice : w.policy.acChoose i.home w.survey.scores i.chosenAt = some target) :
    Evidence r ⟨target, i.home, i.token, w.policy, i.chosenAt, i.calling, i.rejected⟩ := by
  have hhome : r.home = i.home := h.home.trans hreads.1
  have htoken : r.token = i.token := h.token.trans hreads.2
  obtain ⟨heven, hne, hreference, hbetter, hfree, hroom⟩ := AcPolicy.acChoose_spec hchoice
  obtain ⟨hdone, hhomeDone⟩ := complete_iff hcomplete
  have hrequired : w.survey.sweep.requiredVisits = 36 := by
    rw [Sweep.requiredVisits, hconfirming]
    rfl
  have hself : w.survey.sweep.surveyChannel i.home r.home = true := by
    rw [Sweep.surveyChannel, hhome, beq_self_eq_true, Bool.or_true, Bool.true_or]
  have hpeak : w.survey.scores i.home = r.peakOf i.home := by
    rw [h.counted.scores i.home (.inr hhome.symm), hself, if_pos rfl]
    exact h.counted.peak i.home
  -- only channels of the confirmation still have a score
  have hscore := h.counted.scores target (.inl heven)
  have hsurvey : w.survey.sweep.surveyChannel target r.home = true := by
    by_contra hout
    rw [if_neg hout] at hscore
    omega
  rw [hsurvey, if_pos rfl, h.counted.peak] at hscore
  have hfinalist : target ∈ r.finalists := by
    rw [Sweep.surveyChannel, hconfirming, hhome, beq_false_of_ne hne,
      h.counted.finalist hconfirming] at hsurvey
    exact of_decide_eq_true hsurvey
  refine ⟨hhome, htoken, fun reading hmem => ?_, fun ch hch => ?_, ?_, h.counted.few, fun ch hch => ?_,
    hfinalist, ⟨heven, hne⟩, ⟨?_, ?_⟩, hfree, hroom⟩
  · rw [h.readings reading hmem, hhome, htoken]
  · rw [← h.counted.visits]
    exact h.counted.surveyed hconfirming ch hch
  · rw [← h.counted.visits, hhomeDone, hrequired]
  · rw [← h.counted.visits, hdone ch (h.counted.destinations ch hch).1 ?_, hrequired]
    rw [Sweep.surveyChannel, h.counted.finalist hconfirming, decide_eq_true hch, Bool.or_true]
  · rw [← hpeak]
    exact hreference
  · rw [← hpeak, ← hscore]
    exact hbetter

/-- A sweep that is over. -/
theorem evidenced_finishSweep {target : Option ℕ} (h : EachAfter RequestLaw trace)
    (hrequest : ∀ t, target = some t → RequestLaw trace
      (.requested ⟨t, i.home, i.token, w.policy, i.chosenAt, i.calling, i.rejected⟩)) :
    Evidenced (trace ++ (w.finishSweep target i).2) (w.finishSweep target i).1 := by
  cases target with
  | none =>
    refine evidenced_of_reset ?_ rfl
    show EachAfter RequestLaw (trace ++ [])
    rw [List.append_nil]
    exact h
  | some target => exact evidenced_of_reset (eachAfter_snoc.mpr ⟨h, hrequest target rfl⟩) rfl

/-- The end of a round, after the last check. -/
theorem evidenced_finishRound {r : SweepRecord} {n : ℕ} (expired : Bool) (hreads : Reads i w)
    (hactive : w.survey.sweep.active = true) (hfirst : w.survey.sweep.candidate = 0)
    (hr : currentSweep trace = some r) (hcounted : Sweeping n r w)
    (hlawful : EachAfter RequestLaw trace)
    (hchecked : ∃ before, trace = before ++ [WorkerEvent.rechecked i.home i.token]) :
    Evidenced (trace ++ (w.finishRound expired i).2) (w.finishRound expired i).1 := by
  have hhome : r.home = i.home := hcounted.home.trans hreads.1
  unfold Worker.finishRound
  simp only []
  split
  case h_1 random v hconfirmed =>
    rw [Option.ite_none_right_eq_some] at hconfirmed
    obtain ⟨hpart, hbegin⟩ := hconfirmed
    simp only [Bool.and_eq_true, Bool.not_eq_true'] at hpart
    have hconfirms := beginConfirmation_spec hbegin
    obtain ⟨hcounted', hlacks⟩ := hcounted.counted.confirm hhome hpart.2 hpart.1.1 hconfirms
    refine ⟨fun hidle => ?_, fun _ => ⟨r.follow (.confirming
      ((Survey.pickFinalists i.home i.confirmAt w.policy 3 w.survey.scores).map Prod.fst)), ?_,
      hcounted.home, hcounted.token, hcounted.readings, hcounted', ?_, ?_⟩, eachAfter_snoc.mpr ⟨hlawful, trivial⟩⟩
    · have hstill : v.sweep.active = w.survey.sweep.active := hconfirms.place.2
      exact absurd (hidle.symm.trans (hstill.trans hactive)) Bool.false_ne_true
    · rw [currentSweep_snoc, hr]
      rfl
    · show Ordered _ r.home v
      rw [hhome]
      exact ordered_of_perm hconfirms.order _
    · show v.sweep.candidate < v.sweep.order.length
      rw [hconfirms.place.1, hfirst]
      exact length_pos_of_perm hconfirms.order (List.ne_nil_of_mem (home_mem_candidates hlacks))
  case h_2 =>
    split
    · refine evidenced_finishSweep hlawful fun target hchoice => ?_
      rw [Option.ite_none_right_eq_some] at hchoice
      obtain ⟨hpart, hchosen⟩ := hchoice
      simp only [Bool.and_eq_true] at hpart
      exact ⟨⟨r, hr, hcounted.evidence hreads hpart.1.1 hpart.2 hchosen⟩, hchecked⟩
    · rename_i hunfinished
      simp only [Bool.or_eq_true, not_or, Bool.not_eq_true] at hunfinished
      have hincomplete : Worker.complete r.home w.survey = false := hhome ▸ hunfinished.1.1
      have hperm := shuffleSweep_perm i.home w.randomState w.survey
      refine ⟨fun hidle => ?_, fun _ => ⟨r, ?_, hcounted.home, hcounted.token, hcounted.readings,
        hcounted.counted.frame rfl rfl rfl rfl, ?_, ?_⟩, ?_⟩
      · exact absurd (hidle.symm.trans hactive) Bool.false_ne_true
      · rw [List.append_nil]
        exact hr
      · rw [hhome]
        exact ordered_of_perm hperm _
      · show w.survey.sweep.candidate < _
        rw [hfirst]
        refine length_pos_of_perm hperm ?_
        show w.survey.candidates i.home ≠ []
        rw [← hhome]
        exact exists_candidate hcounted.counted hincomplete
      · rw [List.append_nil]
        exact hlawful

/-- The end of a visit, after the last check. -/
theorem Visited.finishVisit (h : Visited trace i w)
    (hchecked : ∃ before, trace = before ++ [WorkerEvent.rechecked i.home i.token]) :
    Evidenced (trace ++ (w.finishVisit i).2) (w.finishVisit i).1 := by
  obtain ⟨r, hr, hsweeping⟩ := h.sweeping
  have hnext := keeps_nextRandom w
  have hhome := hsweeping.home.trans hnext.home.symm
  have htoken := hsweeping.token.trans hnext.token.symm
  unfold Worker.finishVisit
  simp only []
  generalize w.nextRandom = next at hnext hhome htoken ⊢
  split
  · refine evidenced_finishRound (r := r) (n := w.survey.sweep.candidate + 1) _ (hnext.reads h.reads)
      h.active rfl hr ⟨hhome, htoken, hsweeping.readings, hsweeping.counted.frame rfl rfl rfl rfl,
        ⟨hsweeping.ordered.nodup, hsweeping.ordered.few, hsweeping.ordered.lacking⟩,
        Nat.zero_lt_of_lt hsweeping.candidate⟩ h.lawful hchecked
  · rename_i hmore
    rw [List.append_nil]
    refine ⟨fun hidle => absurd (hidle.symm.trans h.active) Bool.false_ne_true, fun _ => ⟨r, hr,
      hhome, htoken, hsweeping.readings, hsweeping.counted.frame rfl rfl rfl rfl,
      ⟨hsweeping.ordered.nodup, hsweeping.ordered.few, hsweeping.ordered.lacking⟩, ?_⟩, h.lawful⟩
    have hlt := hsweeping.candidate
    exact Nat.lt_of_le_of_ne hlt (not_or.mp hmore).1

/-- The last check of a call, with what it has read. -/
theorem Visited.recheck (h : Visited trace i w) :
    Visited (trace ++ [WorkerEvent.rechecked i.home i.token]) i w := by
  obtain ⟨r, hr, hsweeping⟩ := h.sweeping
  refine ⟨h.reads, h.active, ⟨r.follow (.rechecked i.home i.token), ?_, hsweeping.read h.reads⟩,
    eachAfter_snoc.mpr ⟨h.lawful, trivial⟩⟩
  rw [currentSweep_snoc, hr]
  rfl

theorem Evidenced.recheck (h : Evidenced trace w) (hreads : Reads i w) :
    Evidenced (trace ++ [WorkerEvent.rechecked i.home i.token]) w := by
  refine ⟨h.idle, fun hactive => ?_, eachAfter_snoc.mpr ⟨h.lawful, trivial⟩⟩
  obtain ⟨r, hr, hsweeping⟩ := h.sweeping hactive
  refine ⟨r.follow (.rechecked i.home i.token), ?_, hsweeping.read hreads⟩
  rw [currentSweep_snoc, hr]
  rfl

/-- A call that does not measure leaves the entry in turn for the next round. -/
theorem Evidenced.visited (h : Evidenced trace w) (hreads : Reads i w)
    (hactive : w.survey.sweep.active = true) : Visited trace i w := by
  obtain ⟨r, hr, hsweeping⟩ := h.sweeping hactive
  exact ⟨hreads, hactive, ⟨r, hr, hsweeping.home, hsweeping.token, hsweeping.readings,
    hsweeping.counted, hsweeping.ordered.mono (Nat.le_succ _), hsweeping.candidate⟩, h.lawful⟩

/-- From the stop of the radio to the end of the visit. -/
theorem Evidenced.radioVisit {beaconDue scanDue : Bool} (h : Evidenced trace w) (hreads : Reads i w)
    (hdue : scanDue = true → w.survey.sweep.active = true) :
    Evidenced (trace ++ (w.radioVisit beaconDue scanDue i).2) (w.radioVisit beaconDue scanDue i).1 := by
  unfold Worker.radioVisit
  simp only []
  generalize (i.stopFails || beaconDue && i.beaconFails) = failed
  -- with or without a measurement
  have hmeasured : ∀ m : Worker × Bool × List WorkerEvent,
      m = (if !failed && scanDue && i.measuring.decisionValid i.token w.radioFault &&
        i.measuring.home == i.home then w.measure i else (w, failed, [])) →
      EachAfter RequestLaw (trace ++ m.2.2) ∧ (scanDue = true → Visited (trace ++ m.2.2) i m.1) ∧
        (scanDue = false → m.1 = w ∧ m.2.2 = []) := by
    rintro m rfl
    split
    case isTrue hmeasures =>
      simp only [Bool.and_eq_true] at hmeasures
      have hvisited := h.measure hreads (hdue hmeasures.1.1.2)
      refine ⟨hvisited.lawful, fun _ => hvisited, fun hnot => ?_⟩
      rw [hmeasures.1.1.2] at hnot
      cases hnot
    case isFalse =>
      rw [List.append_nil]
      exact ⟨h.lawful, fun hscan => h.visited hreads (hdue hscan), fun _ => ⟨rfl, rfl⟩⟩
  obtain ⟨hlawful, hvisited, hidle⟩ := hmeasured _ rfl
  generalize (if !failed && scanDue && i.measuring.decisionValid i.token w.radioFault &&
    i.measuring.home == i.home then w.measure i else (w, failed, [])) = m at hlawful hvisited hidle ⊢
  split
  case isTrue => exact evidenced_of_reset hlawful rfl
  case isFalse hpassed =>
    simp only [Bool.or_eq_true, not_or, Bool.not_eq_true', Bool.not_eq_false, bne_iff_ne,
      ne_eq, not_not] at hpassed
    obtain ⟨⟨-, hvalid⟩, hhome⟩ := hpassed
    rw [hhome, generation_of_decisionValid hvalid]
    by_cases hscan : scanDue = true
    · rw [if_pos hscan, ← List.append_assoc, ← List.append_assoc]
      have hrechecked := (hvisited hscan).recheck
      have hrestored : Visited (trace ++ m.2.2 ++ [WorkerEvent.rechecked i.home i.token]) i
          { m.1 with radioFault := w.radioFault || i.restoreFails } := by
        obtain ⟨r, hr, hsweeping⟩ := hrechecked.sweeping
        exact ⟨hrechecked.reads, hrechecked.active, ⟨r, hr, hsweeping.home, hsweeping.token,
          hsweeping.readings, hsweeping.counted, hsweeping.ordered, hsweeping.candidate⟩,
          hrechecked.lawful⟩
      exact hrestored.finishVisit ⟨_, rfl⟩
    · rw [if_neg hscan]
      obtain ⟨hsame, hquiet⟩ := hidle (Bool.eq_false_iff.mpr hscan)
      rw [hsame, hquiet, List.nil_append]
      exact (h.recheck hreads).keep ⟨.inl rfl, rfl, rfl⟩

/-- What the worker does with the radio. -/
theorem Evidenced.radioStage {beaconDue scanDue qualified : Bool} (h : Evidenced trace w)
    (hreads : Reads i w) (hdue : scanDue = true → w.survey.sweep.active = true) :
    Evidenced (trace ++ (w.radioStage beaconDue scanDue qualified i).2)
      (w.radioStage beaconDue scanDue qualified i).1 := by
  have habandoned : ∀ {trace : List WorkerEvent} {w : Worker}, Evidenced trace w →
      Evidenced (trace ++ []) w.abandon := by
    intro trace w hbefore
    rw [List.append_nil]
    exact hbefore.keep (keeps_abandon w)
  unfold Worker.radioStage
  split
  · exact habandoned h
  · split
    · exact habandoned h
    · simp only []
      -- a sweep may start first
      have hstarted : ∀ started : Worker, ∀ events : List WorkerEvent,
          started = (if (qualified && !w.survey.sweep.active) = true then w.startSweep i else w) →
          events = (if (qualified && !w.survey.sweep.active) = true
            then [.sweepStarted i.home i.token] else []) →
          Evidenced (trace ++ events) started ∧ Reads i started ∧
            (scanDue = true → started.survey.sweep.active = true) := by
        rintro started events rfl rfl
        split
        case isTrue hstarts =>
          rw [Bool.and_eq_true, Bool.not_eq_true'] at hstarts
          exact ⟨h.startSweep hreads hstarts.2, hreads, fun _ => rfl⟩
        case isFalse =>
          rw [List.append_nil]
          exact ⟨h, hreads, hdue⟩
      obtain ⟨hevidenced, hreads', hdue'⟩ := hstarted _ _ rfl rfl
      generalize (if (qualified && !w.survey.sweep.active) = true then w.startSweep i else w) = started
        at hevidenced hreads' hdue' ⊢
      generalize (if (qualified && !w.survey.sweep.active) = true
        then [WorkerEvent.sweepStarted i.home i.token] else []) = events at hevidenced ⊢
      split
      · exact hevidenced
      · -- the random number of the dither
        have hdithered : ∀ dithered : Worker,
            dithered = (if scanDue = true then started.nextRandom else started) →
            Keeps started dithered ∧ dithered.survey = started.survey := by
          rintro dithered rfl
          split
          · exact ⟨keeps_nextRandom started, nextRandom_survey started⟩
          · exact ⟨.refl started, rfl⟩
        obtain ⟨hkeeps, hsurvey⟩ := hdithered _ rfl
        generalize (if scanDue = true then started.nextRandom else started) = dithered
          at hkeeps hsurvey ⊢
        have hkept := hevidenced.keep hkeeps
        split
        · exact hkept.keep (keeps_abandon dithered)
        · rw [← List.append_assoc]
          refine hkept.radioVisit (hkeeps.reads hreads') fun hscan => ?_
          rw [hsurvey]
          exact hdue' hscan

/-- A call after its start. -/
theorem Evidenced.act (h : Evidenced trace w) (hreads : Reads i w) :
    Evidenced (trace ++ (w.act i).2.2) (w.act i).1 := by
  obtain ⟨hkeeps, hjudged⟩ := keeps_evidence (w.isAvailable i) i w
  have hweighed : Evidenced (trace ++ (w.evidence (w.isAvailable i) i).2.2.2)
      (w.evidence (w.isAvailable i) i).1 := by
    refine (h.quiet fun e he => ?_).keep hkeeps
    obtain ⟨lost, latched, rfl⟩ := hjudged e he
    exact quiet_judged lost latched
  unfold Worker.act
  simp only []
  generalize w.evidence (w.isAvailable i) i = weighed at hkeeps hweighed ⊢
  have hkept : ∀ kept : Worker,
      kept = (if weighed.2.1 = true then weighed.1 else weighed.1.abandon) → Keeps weighed.1 kept := by
    rintro kept rfl
    split
    · exact .refl _
    · exact keeps_abandon _
  have hkeptKeeps := hkept _ rfl
  generalize (if weighed.2.1 = true then weighed.1 else weighed.1.abandon) = kept at hkeptKeeps ⊢
  have hstill := hweighed.keep hkeptKeeps
  split
  · exact hstill
  · rw [← List.append_assoc]
    refine hstill.radioStage (hkeptKeeps.reads (hkeeps.reads hreads)) fun hscan => ?_
    rw [Bool.and_eq_true] at hscan
    exact hscan.1

/-- A call. -/
theorem Evidenced.autoStep (h : Evidenced trace w) (i : StepInput) :
    Evidenced (trace ++ (w.autoStep i).2) (w.autoStep i).1 := by
  have hseeded : Evidenced trace (if w.nextBeacon = 0 then w.beaconAfter i.now else w) := by
    split
    · exact h.keep (keeps_beaconAfter i.now w)
    · exact h
  unfold Worker.autoStep
  simp only []
  generalize (if w.nextBeacon = 0 then w.beaconAfter i.now else w) = seeded at hseeded ⊢
  obtain ⟨htaken, hreads⟩ := hseeded.takeCompletion i
  generalize seeded.takeCompletion i = taken at htaken hreads ⊢
  have hacted := (htaken.keep (keeps_hear i taken.1)).act ((keeps_hear i taken.1).reads hreads)
  rw [List.append_assoc, List.cons_append] at hacted
  split
  · exact hacted.keep (keeps_beaconAfter _ _)
  · exact hacted

end Stages

/-! ## Every run -/

variable {identity : List (BitVec 8)} {seed : BitVec 32} {trace : List WorkerEvent} {w : Worker}

theorem run_evidenced (h : (workerSystem identity seed).Run trace w) : Evidenced trace w := by
  refine h.history_invariant ⟨fun _ => .inr (by show 100 < 255; decide), fun hactive => (by cases hactive),
    eachAfter_nil⟩ fun trace w i w' es hevidenced _ htaken => ?_
  obtain ⟨rfl, rfl⟩ := Prod.mk.inj (Option.some.inj htaken)
  exact hevidenced.autoStep i

/-- In every history of the worker, a channel is requested at the end of a sweep with its evidence,
right after a check that found the home channel and the generation of the request. -/
theorem channel_request_evidence (h : (workerSystem identity seed).Run trace w) :
    EachAfter RequestLaw trace := (run_evidenced h).lawful

/-! ## A sweep that ends in a request -/

/-- Hand on statistics in evaluated form. -/
def EnergyStatus.eval {β : Type*} (e : EnergyStatus) (k : EnergyStatus → β) : β :=
  evalInt e.peak fun peak => evalInt e.quietFloor fun quietFloor =>
    evalWord e.coverageUs fun coverageUs => evalWord e.samples fun samples =>
      evalNat e.visits fun visits => evalNat e.attempts fun attempts =>
        k ⟨peak, quietFloor, coverageUs, samples, visits, attempts⟩

theorem EnergyStatus.eval_eq {β : Type*} (e : EnergyStatus) (k : EnergyStatus → β) : e.eval k = k e := by
  simp only [EnergyStatus.eval, evalInt_eq, evalWord_eq, evalNat_eq]

/-- Hand on a survey in evaluated form. -/
def Survey.eval {β : Type*} (v : Survey) (k : Survey → β) : β :=
  evalTable 89 evalInt v.scores fun scores =>
    evalTable 89 EnergyStatus.eval v.energy fun energy =>
      evalList evalNat v.sweep.order fun order => k ⟨scores, energy, { v.sweep with order := order }⟩

theorem Survey.eval_eq {β : Type*} (v : Survey) (k : Survey → β) : v.eval k = k v := by
  rw [Survey.eval, evalTable_eq evalInt_eq, evalTable_eq EnergyStatus.eval_eq, evalList_eq evalNat_eq]

/-- Hand on a worker with its survey in evaluated form. -/
def Worker.eval (w : Worker) (k : Worker → Bool) : Bool :=
  w.survey.eval fun survey => k { w with survey := survey }

theorem Worker.eval_eq (w : Worker) (k : Worker → Bool) : w.eval k = k w := Survey.eval_eq ..

/-- Nothing keeps the worker from acting on channel 2. -/
def quietReading : Reading := ⟨2, 0, true, false, false, false⟩

/-- A call on channel 2 at which nothing fails. The generation changes, and another channel becomes the
home channel, before the call could request anything. -/
def quietInput (now : ℤ) (s : AutoLossSnapshot) (peak : BitVec 8) : StepInput where
  now := now
  home := 2
  home_le := by decide
  token := 0
  completion := none
  committed := s
  observations := []
  available := quietReading
  snapshot := s
  rebased := s
  latching := quietReading
  radioBusy := false
  admitted := quietReading
  dithered := quietReading
  stopFails := false
  beaconFails := false
  measuring := quietReading
  measurement := .observed ⟨peak, 90, 100, 5000⟩
  radioDisabled := true
  restoreFails := false
  final := quietReading
  measuredAt := now
  expiryAt := now
  confirmAt := now
  chosenAt := now
  calling := { quietReading with
    home := 4
    generation := 1 }
  rejected := true
  scheduledAt := now

/-- Eleven lossy seconds, and then a call every 60 ms; the second visit, that of channel 2, finds the
strongest energy. -/
def sweepPortions : List (List StepInput) :=
  ((List.range 11).map fun k => quietInput (1000 * (k + 1 : ℕ)) (lossySecond k) 60) ::
    (List.range 5).map fun m => (List.range 127).map fun k =>
      quietInput (11060 + 60 * (127 * m + k : ℕ)) (lossySecond 10) (if m = 0 ∧ k = 1 then 40 else 60)

/-- The sweep ends in a request. -/
theorem exists_requested : ∃ trace w earlier q later,
    (workerSystem [1, 2, 3, 4, 5, 6] 0).Run trace w ∧ trace = earlier ++ .requested q :: later ∧
      q.calling.home ≠ q.home ∧ q.calling.generation ≠ q.token := by
  have hreplay : (workerSystem [1, 2, 3, 4, 5, 6] 0).replay Worker.eval
      (fun w => (w.autoStep (quietInput 49160 (lossySecond 10) 60)).2.any fun e =>
        match e with
        | .requested q => q.calling.home != q.home && q.calling.generation != q.token
        | _ => false) (.init [1, 2, 3, 4, 5, 6] 0) sweepPortions = true := by decide +kernel
  obtain ⟨trace, w, hrun, htest⟩ := EventSystem.Run.replay Worker.eval_eq .start hreplay
  obtain ⟨e, hmem, hchanged⟩ := List.any_eq_true.mp htest
  obtain ⟨before, after, hevents⟩ := List.append_of_mem hmem
  cases e with
  | requested q =>
    rw [Bool.and_eq_true, bne_iff_ne, bne_iff_ne] at hchanged
    have hstep : (workerSystem [1, 2, 3, 4, 5, 6] 0).step w (quietInput 49160 (lossySecond 10) 60) =
        some ((w.autoStep (quietInput 49160 (lossySecond 10) 60)).1, before ++ .requested q :: after) := by
      rw [← hevents]
      rfl
    exact ⟨_, _, trace ++ before, q, after, .snoc hrun trivial hstep,
      (List.append_assoc _ _ _).symm, hchanged⟩
  | _ => cases hchanged

/-- The call does find home channel and generation changed: nothing is checked between the last check
and the call, which checks for itself. -/
theorem requested_after_change : ¬ ∀ trace w, (workerSystem [1, 2, 3, 4, 5, 6] 0).Run trace w →
    ∀ earlier q later, trace = earlier ++ .requested q :: later →
      q.calling.home = q.home ∧ q.calling.generation = q.token := by
  intro hunchanged
  obtain ⟨trace, w, earlier, q, later, hrun, htrace, hhome, -⟩ := exists_requested
  exact hhome (hunchanged trace w hrun earlier q later htrace).1

/-- A request with its evidence. -/
theorem channel_request_evidence_requested : ∃ earlier q r,
    currentSweep earlier = some r ∧ Evidence r q := by
  obtain ⟨trace, w, earlier, q, later, hrun, htrace, -⟩ := exists_requested
  obtain ⟨⟨r, hr, hevidence⟩, -⟩ := channel_request_evidence hrun earlier (.requested q) later htrace
  exact ⟨earlier, q, r, hr, hevidence⟩

end SlimeReceiver.AutoChannel
