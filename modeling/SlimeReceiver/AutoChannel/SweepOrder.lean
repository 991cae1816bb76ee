import SlimeReceiver.AutoChannel.Sweep

/-! # The order of a sweep and its finalists

Which channels `shuffle_sweep` lays out, and which ones `begin_confirmation` advances. The finalists are selected from
the scores themselves: a channel loses its score when it is taken, and gets it back at the end.

* **`shuffleBy`** — the loop of the shuffle with any source of random numbers.
* **`pickLoop`**, **`beginConfirmationInPlace`** — the selection as it is done, with what it leaves when it fails.
* **`Eligible`**, **`RanksBefore`** — the channels that may be taken, and the order they are taken in.
* **`BestFirst`** — the best of them; **`pickFinalists_bestFirst`**.
* **`sweep_order_and_finalists`** — the two operations. -/

namespace SlimeReceiver.AutoChannel

open Function (update update_self update_of_ne)

/-! ## The code -/

/-- The loop of `shuffle_sweep` with a source of random numbers. -/
def shuffleBy {σ : Type} (next : σ → σ) (value : σ → ℕ) : ℕ → σ → List ℕ → σ × List ℕ
  | 0, random, order => (random, order)
  | 1, random, order => (random, order)
  | n + 2, random, order =>
    shuffleBy next value (n + 1) (next random) (order.swap (n + 1) (value (next random) % (n + 2)))

/-- What the loop of `begin_confirmation` changes. -/
structure Picking where
  scores : ℕ → ℤ
  finalists : BitVec 64
  /-- `chosen` with `values`. -/
  chosen : List (ℕ × ℤ)

/-- The loop of `begin_confirmation`, with the number of channels still wanted. -/
def pickLoop (home : ℕ) (now : ℤ) (policy : AcPolicy) : ℕ → Picking → Picking
  | 0, p => p
  | n + 1, p =>
    match policy.acChoose home p.scores now with
    | none => p
    | some channel =>
      pickLoop home now policy n
        { scores := update p.scores channel (-1)
          finalists := setBit p.finalists (channel / 2)
          chosen := p.chosen ++ [(channel, p.scores channel)] }

/-- `begin_confirmation` with the random state and what is left when it returns. -/
def beginConfirmationInPlace (home : ℕ) (now : ℤ) (policy : AcPolicy) (random : BitVec 32) (v : Survey) :
    Bool × BitVec 32 × Survey :=
  let p := pickLoop home now policy 3 ⟨v.scores, v.sweep.finalists, []⟩
  if p.chosen = [] then
    (false, random, { v with scores := p.scores, sweep := { v.sweep with finalists := p.finalists } })
  else
    let cleared := evenChannels.foldl (fun scores ch => if ch ≠ home then update scores ch (-1) else scores) p.scores
    let confirming : Survey := { v with
      scores := p.chosen.foldl (fun scores c => update scores c.1 c.2) cleared
      sweep := { v.sweep with finalists := p.finalists, confirming := true } }
    (true, confirming.shuffleSweep home random)

/-! ## The order of `ac_choose` -/

section Choice

variable (home : ℕ) (score : ℕ → ℤ) (now : ℤ) (policy : AcPolicy)

/-- A channel `ac_choose` may return. -/
structure Eligible (ch : ℕ) : Prop where
  home_le : home ≤ 100
  reference : 0 ≤ score home
  room : policy.saturated now = false
  even : ch ∈ evenChannels
  ne_home : ch ≠ home
  free : policy.acOccupied ch now = false
  better : score home < score ch

/-- The order of `ac_choose`: the greater score first, and of equal ones the lower channel. -/
def RanksBefore (a b : ℕ) : Prop := score b < score a ∨ score a = score b ∧ a < b

variable {home score now policy}

theorem RanksBefore.trans {a b c : ℕ} (h : RanksBefore score a b) (h' : RanksBefore score b c) :
    RanksBefore score a c := by
  unfold RanksBefore at *
  omega

theorem excluded_eq_false_iff {ch : ℕ} (hreference : 0 ≤ score home) :
    policy.excluded home score now ch = false ↔
      ch ≠ home ∧ policy.acOccupied ch now = false ∧ score home < score ch := by
  simp only [AcPolicy.excluded, Bool.or_eq_false_iff, beq_eq_false_iff_ne, decide_eq_false_iff_not, not_lt, not_le]
  constructor
  · rintro ⟨⟨⟨hne, -⟩, hfree⟩, hbetter⟩
    exact ⟨hne, hfree, hbetter⟩
  · rintro ⟨hne, hfree, hbetter⟩
    exact ⟨⟨⟨hne, hreference.trans hbetter.le⟩, hfree⟩, hbetter⟩

theorem better_of_excluded {ch : ℕ} (h : policy.excluded home score now ch = true) (best : Option ℕ) :
    policy.better home score now best ch = best := if_pos h

theorem better_of_included {ch : ℕ} (h : policy.excluded home score now ch = false) (best : Option ℕ) :
    policy.better home score now best ch =
      match best with
      | none => some ch
      | some b => if score b < score ch then some ch else best :=
  if_neg (Bool.eq_false_iff.mp h)

/-- The loop keeps the best of the channels it has seen. -/
theorem foldl_better_best {channels : List ℕ} (hascending : channels.Pairwise (· < ·)) :
    (channels.foldl (policy.better home score now) none = none ∧
      ∀ c ∈ channels, policy.excluded home score now c = true) ∨
    ∃ t, channels.foldl (policy.better home score now) none = some t ∧ t ∈ channels ∧
      policy.excluded home score now t = false ∧
      ∀ c ∈ channels, policy.excluded home score now c = false → c = t ∨ RanksBefore score t c := by
  induction channels using List.reverseRecOn with
  | nil => exact Or.inl ⟨rfl, fun c hc => absurd hc List.not_mem_nil⟩
  | append_singleton channels ch ih =>
    obtain ⟨hbefore, -, hlast⟩ := List.pairwise_append.mp hascending
    have hbelow : ∀ c ∈ channels, c < ch := fun c hc => hlast c hc ch (List.mem_singleton_self ch)
    rw [List.foldl_append, List.foldl_cons, List.foldl_nil]
    cases hexcluded : policy.excluded home score now ch with
    | true =>
      rw [better_of_excluded hexcluded]
      refine (ih hbefore).imp (fun ⟨hnone, hall⟩ => ⟨hnone, fun c hc => ?_⟩)
        (fun ⟨t, ht, hmem, hfree, hbest⟩ => ⟨t, ht, List.mem_append_left _ hmem, hfree, fun c hc hc' => ?_⟩)
      · rcases List.mem_append.mp hc with hc | hc
        · exact hall c hc
        · rwa [List.mem_singleton.mp hc]
      · rcases List.mem_append.mp hc with hc | hc
        · exact hbest c hc hc'
        · rw [List.mem_singleton.mp hc, hexcluded] at hc'
          cases hc'
    | false =>
      have hself : ch ∈ channels ++ [ch] := List.mem_append_right _ (List.mem_singleton_self ch)
      rw [better_of_included hexcluded]
      rcases ih hbefore with ⟨hnone, hall⟩ | ⟨t, ht, hmem, hfree, hbest⟩
      · rw [hnone]
        refine Or.inr ⟨ch, rfl, hself, hexcluded, fun c hc hc' => Or.inl ?_⟩
        rcases List.mem_append.mp hc with hc | hc
        · rw [hall c hc] at hc'
          cases hc'
        · exact List.mem_singleton.mp hc
      · rw [ht]
        dsimp only
        by_cases hscore : score t < score ch
        · -- a greater score takes the place of the best one
          rw [if_pos hscore]
          refine Or.inr ⟨ch, rfl, hself, hexcluded, fun c hc hc' => ?_⟩
          rcases List.mem_append.mp hc with hc | hc
          · have hahead : RanksBefore score ch t := Or.inl hscore
            rcases hbest c hc hc' with rfl | hbehind
            · exact Or.inr hahead
            · exact Or.inr (hahead.trans hbehind)
          · exact Or.inl (List.mem_singleton.mp hc)
        · rw [if_neg hscore]
          refine Or.inr ⟨t, rfl, List.mem_append_left _ hmem, hfree, fun c hc hc' => ?_⟩
          rcases List.mem_append.mp hc with hc | hc
          · exact hbest c hc hc'
          · -- an equal score comes later in the list
            rw [List.mem_singleton.mp hc]
            have hlater := hbelow t hmem
            unfold RanksBefore
            omega

theorem ascending_evenChannels : evenChannels.Pairwise (· < ·) := by
  refine List.pairwise_map.mpr (List.pairwise_lt_range.imp fun {a b} hab => ?_)
  show 2 * a < 2 * b
  omega

/-- **What `ac_choose` returns**: the first of the eligible channels, if there is one. -/
theorem acChoose_best (home : ℕ) (score : ℕ → ℤ) (now : ℤ) (policy : AcPolicy) :
    (policy.acChoose home score now = none ∧ ∀ ch, ¬Eligible home score now policy ch) ∨
    ∃ t, policy.acChoose home score now = some t ∧ Eligible home score now policy t ∧
      ∀ ch, Eligible home score now policy ch → ch = t ∨ RanksBefore score t ch := by
  unfold AcPolicy.acChoose
  by_cases hhome : 100 < home ∨ score home < 0
  · rw [if_pos hhome]
    refine Or.inl ⟨rfl, fun ch h => ?_⟩
    have hle := h.home_le
    have hreference := h.reference
    omega
  rw [if_neg hhome]
  have hle : home ≤ 100 := not_lt.mp (not_or.mp hhome).1
  have hreference : 0 ≤ score home := not_lt.mp (not_or.mp hhome).2
  cases hroom : policy.saturated now with
  | true =>
    rw [if_pos rfl]
    refine Or.inl ⟨rfl, fun ch h => ?_⟩
    have hfree := h.room
    rw [hroom] at hfree
    cases hfree
  | false =>
    rw [if_neg Bool.false_ne_true]
    have heligible : ∀ ch, Eligible home score now policy ch ↔
        ch ∈ evenChannels ∧ policy.excluded home score now ch = false := by
      intro ch
      rw [excluded_eq_false_iff hreference]
      exact ⟨fun h => ⟨h.even, h.ne_home, h.free, h.better⟩,
        fun ⟨heven, hne, hfree, hbetter⟩ => ⟨hle, hreference, hroom, heven, hne, hfree, hbetter⟩⟩
    refine (foldl_better_best ascending_evenChannels).imp (fun ⟨hnone, hall⟩ => ⟨hnone, fun ch h => ?_⟩)
      (fun ⟨t, ht, hmem, hfree, hbest⟩ => ⟨t, ht, (heligible t).mpr ⟨hmem, hfree⟩, fun ch h => ?_⟩)
    · obtain ⟨heven, hincluded⟩ := (heligible ch).mp h
      rw [hall ch heven] at hincluded
      cases hincluded
    · obtain ⟨heven, hincluded⟩ := (heligible ch).mp h
      exact hbest ch heven hincluded

end Choice

/-! ## The finalists -/

section Finalists

variable {home : ℕ} {scores : ℕ → ℤ} {now : ℤ} {policy : AcPolicy}

/-- **The best channels**: so many of the eligible ones as are wanted, in order, and none that is left out comes
before one of them. -/
structure BestFirst (home : ℕ) (scores : ℕ → ℤ) (now : ℤ) (policy : AcPolicy) (wanted : ℕ) (chosen : List ℕ) :
    Prop where
  length_le : chosen.length ≤ wanted
  eligible : ∀ ch ∈ chosen, Eligible home scores now policy ch
  ordered : chosen.Pairwise (RanksBefore scores)
  complete : ∀ ch, Eligible home scores now policy ch → ch ∉ chosen →
    chosen.length = wanted ∧ ∀ c ∈ chosen, RanksBefore scores c ch

/-- A channel without its score is not eligible any more, and nothing else changes. -/
theorem eligible_update {t ch : ℕ} (ht : Eligible home scores now policy t) :
    Eligible home (update scores t (-1)) now policy ch ↔ Eligible home scores now policy ch ∧ ch ≠ t := by
  have hreference : update scores t (-1) home = scores home := update_of_ne ht.ne_home.symm _ _
  constructor
  · intro h
    have hne : ch ≠ t := by
      rintro rfl
      have hbetter := h.better
      have hscore := ht.reference
      rw [update_self, hreference] at hbetter
      omega
    have hbetter := h.better
    rw [update_of_ne hne, hreference] at hbetter
    exact ⟨⟨h.home_le, ht.reference, h.room, h.even, h.ne_home, h.free, hbetter⟩, hne⟩
  · rintro ⟨h, hne⟩
    refine ⟨h.home_le, ?_, h.room, h.even, h.ne_home, h.free, ?_⟩
    · rw [hreference]
      exact h.reference
    · rw [hreference, update_of_ne hne]
      exact h.better

theorem ranksBefore_update {t a b : ℕ} (ha : a ≠ t) (hb : b ≠ t) :
    RanksBefore (update scores t (-1)) a b ↔ RanksBefore scores a b := by
  unfold RanksBefore
  rw [update_of_ne ha, update_of_ne hb]

/-- **The loop takes the best channels.** -/
theorem pickFinalists_bestFirst (wanted : ℕ) (scores : ℕ → ℤ) : BestFirst home scores now policy wanted
    ((Survey.pickFinalists home now policy wanted scores).map Prod.fst) := by
  induction wanted generalizing scores with
  | zero => exact ⟨le_refl _, fun _ h => absurd h List.not_mem_nil, List.Pairwise.nil,
      fun _ _ _ => ⟨rfl, fun _ h => absurd h List.not_mem_nil⟩⟩
  | succ wanted ih =>
    rw [Survey.pickFinalists]
    rcases acChoose_best home scores now policy with ⟨hnone, hall⟩ | ⟨t, ht, heligible, hbest⟩
    · rw [hnone]
      exact ⟨Nat.zero_le _, fun _ h => absurd h List.not_mem_nil, List.Pairwise.nil, fun ch h => absurd h (hall ch)⟩
    · rw [ht]
      dsimp only
      rw [List.map_cons]
      have hlater := ih (update scores t (-1))
      set rest := (Survey.pickFinalists home now policy wanted (update scores t (-1))).map Prod.fst
      have hrest : ∀ ch ∈ rest, Eligible home scores now policy ch ∧ ch ≠ t := fun ch hch =>
        (eligible_update heligible).mp (hlater.eligible ch hch)
      refine ⟨Nat.succ_le_succ hlater.length_le, fun ch hch => ?_, ?_, fun ch hch hout => ?_⟩
      · rcases List.mem_cons.mp hch with rfl | hch
        · exact heligible
        · exact (hrest ch hch).1
      · refine List.pairwise_cons.mpr ⟨fun ch hch => ?_, ?_⟩
        · exact (hbest ch (hrest ch hch).1).resolve_left (hrest ch hch).2
        · refine hlater.ordered.imp_of_mem fun {a b} ha hb hab => ?_
          exact (ranksBefore_update (hrest a ha).2 (hrest b hb).2).mp hab
      · have hne : ch ≠ t := fun h => hout (h ▸ List.mem_cons_self)
        obtain ⟨hfull, hahead⟩ := hlater.complete ch ((eligible_update heligible).mpr ⟨hch, hne⟩)
          fun hmem => hout (List.mem_cons_of_mem _ hmem)
        refine ⟨congrArg Nat.succ hfull, fun c hc => ?_⟩
        rcases List.mem_cons.mp hc with rfl | hc
        · exact (hbest ch hch).resolve_left hne
        · exact (ranksBefore_update (hrest c hc).2 hne).mp (hahead c hc)

/-! ## The selection in place -/

/-- What the loop leaves of the scores, the mask and the channels. -/
theorem pickLoop_eq (wanted : ℕ) (p : Picking) : pickLoop home now policy wanted p =
    let picked := Survey.pickFinalists home now policy wanted p.scores
    { scores := picked.foldl (fun scores c => update scores c.1 (-1)) p.scores
      finalists := picked.foldl (fun mask c => setBit mask (c.1 / 2)) p.finalists
      chosen := p.chosen ++ picked } := by
  induction wanted generalizing p with
  | zero =>
    dsimp only [pickLoop, Survey.pickFinalists, List.foldl_nil]
    rw [List.append_nil]
  | succ wanted ih =>
    dsimp only
    rw [pickLoop, Survey.pickFinalists]
    cases policy.acChoose home p.scores now with
    | none =>
      dsimp only [List.foldl_nil]
      rw [List.append_nil]
    | some channel =>
      dsimp only
      rw [ih]
      dsimp only [List.foldl_cons]
      rw [List.append_assoc, List.singleton_append]

/-- The scores of the even channels are cleared, except that of home. -/
theorem foldl_clear (channels : List ℕ) (scores : ℕ → ℤ) (ch : ℕ) :
    channels.foldl (fun scores c => if c ≠ home then update scores c (-1) else scores) scores ch =
      if ch ∈ channels ∧ ch ≠ home then -1 else scores ch := by
  induction channels generalizing scores with
  | nil => rw [List.foldl_nil, if_neg fun h => List.not_mem_nil h.1]
  | cons c channels ih =>
    rw [List.foldl_cons, ih]
    by_cases htail : ch ∈ channels ∧ ch ≠ home
    · rw [if_pos htail, if_pos ⟨List.mem_cons_of_mem _ htail.1, htail.2⟩]
    · rw [if_neg htail]
      by_cases hhead : ch = c ∧ ch ≠ home
      · obtain ⟨rfl, hne⟩ := hhead
        rw [if_pos hne, update_self, if_pos ⟨List.mem_cons_self, hne⟩]
      · have hnot : ¬(ch ∈ c :: channels ∧ ch ≠ home) := by
          rintro ⟨hmem, hne⟩
          exact (List.mem_cons.mp hmem).elim (fun h => hhead ⟨h, hne⟩) fun h => htail ⟨h, hne⟩
        rw [if_neg hnot]
        split
        case isTrue hc => exact update_of_ne (fun h => hhead ⟨h, h ▸ hc⟩) _ _
        case isFalse => rfl

/-- **The selection in place is the selection from the list**: the scores that are destroyed on the way are restored,
and a failure leaves everything as it was. -/
theorem beginConfirmationInPlace_eq (random : BitVec 32) (v : Survey) :
    beginConfirmationInPlace home now policy random v =
      match v.beginConfirmation home now policy random with
      | none => (false, random, v)
      | some confirmed => (true, confirmed) := by
  have hall : ∀ c ∈ Survey.pickFinalists home now policy 3 v.scores,
      c.1 ∈ evenChannels ∧ c.1 ≠ home ∧ 0 ≤ v.scores c.1 ∧ c.2 = v.scores c.1 := (pickFinalists_spec 3 v.scores).2.2
  unfold beginConfirmationInPlace Survey.beginConfirmation
  simp only [pickLoop_eq, List.nil_append]
  generalize Survey.pickFinalists home now policy 3 v.scores = picked at hall
  by_cases hnone : picked = []
  · rw [if_pos hnone, if_pos hnone, hnone]
    rfl
  · rw [if_neg hnone, if_neg hnone]
    dsimp only
    have hscores : picked.foldl (fun scores c => update scores c.1 c.2)
        (evenChannels.foldl (fun scores ch => if ch ≠ home then update scores ch (-1) else scores)
          (picked.foldl (fun scores c => update scores c.1 (-1)) v.scores)) =
        picked.foldl (fun scores c => update scores c.1 c.2)
          (fun ch => if ch ≤ 88 ∧ ch % 2 = 0 ∧ ch ≠ home then -1 else v.scores ch) := by
      funext ch
      rw [foldl_update_eq ch fun c hc => (hall c hc).2.2.2, foldl_update_eq ch fun c hc => (hall c hc).2.2.2]
      by_cases hpicked : ch ∈ picked.map Prod.fst
      · rw [if_pos hpicked, if_pos hpicked]
      · rw [if_neg hpicked, if_neg hpicked, foldl_clear]
        simp only [mem_evenChannels, and_assoc]
        refine if_congr Iff.rfl rfl ?_
        -- a channel that was not taken still has its score
        have hkept : (picked.map fun c => (c.1, (-1 : ℤ))).foldl (fun scores c => update scores c.1 c.2) v.scores ch =
            if ch ∈ (picked.map fun c => (c.1, (-1 : ℤ))).map Prod.fst then -1 else v.scores ch := by
          refine @foldl_update_eq _ _ ch (fun _ => -1) fun c hc => ?_
          obtain ⟨c', -, rfl⟩ := List.mem_map.mp hc
          rfl
        rw [List.foldl_map, List.map_map] at hkept
        exact hkept.trans (if_neg hpicked)
    rw [hscores]

end Finalists

/-! ## The operations -/

/-- Whatever the random numbers are, the loop only changes the order. -/
theorem shuffleBy_perm {σ : Type} (next : σ → σ) (value : σ → ℕ) (n : ℕ) (random : σ) (order : List ℕ) :
    (shuffleBy next value n random order).2.Perm order := by
  induction n using Nat.strong_induction_on generalizing random order with
  | _ n ih =>
    match n with
    | 0 => exact .refl _
    | 1 => exact .refl _
    | n + 2 =>
      rw [shuffleBy]
      exact (ih (n + 1) (Nat.lt_succ_self _) _ _).trans (List.swap_perm ..)

/-- The source of the code is `random_next`. -/
theorem shuffleFrom_eq (n : ℕ) (random : BitVec 32) (order : List ℕ) :
    shuffleFrom n random order = shuffleBy randomNext BitVec.toNat n random order := by
  induction n using Nat.strong_induction_on generalizing random order with
  | _ n ih =>
    match n with
    | 0 => rfl
    | 1 => rfl
    | n + 2 =>
      rw [shuffleFrom, shuffleBy]
      exact ih (n + 1) (Nat.lt_succ_self _) _ _

/-- The channels of a round are those of the survey that lack visits. -/
theorem mem_candidates_iff {home ch : ℕ} {v : Survey} : ch ∈ v.candidates home ↔
    (ch ∈ evenChannels ∨ ch = home) ∧ v.sweep.surveyChannel ch home = true ∧ v.lacks ch = true := by
  refine ⟨mem_candidates, ?_⟩
  rintro ⟨heven | rfl, hsurvey, hlacks⟩
  · exact mem_candidates_of_even heven hsurvey hlacks
  · exact home_mem_candidates hlacks

/-- What a round visits. -/
structure VisitsOnce (home : ℕ) (v : Survey) (order : List ℕ) : Prop where
  nodup : order.Nodup
  length_le : order.length ≤ 46
  mem_iff : ∀ ch, ch ∈ order ↔
    (ch ∈ evenChannels ∨ ch = home) ∧ v.sweep.surveyChannel ch home = true ∧ v.lacks ch = true

theorem visitsOnce_of_perm {home : ℕ} {v : Survey} {order : List ℕ} (h : order.Perm (v.candidates home)) :
    VisitsOnce home v order where
  nodup := h.nodup_iff.mpr (nodup_candidates home v)
  length_le := h.length_eq.trans_le (length_candidates home v)
  mem_iff _ := h.mem_iff.trans mem_candidates_iff

/-- What a confirmation that begins leaves. -/
structure Confirmed (home : ℕ) (chosen : List ℕ) (v v' : Survey) : Prop where
  confirming : v'.sweep.confirming = true
  /-- The finalists and home keep their scores, the other even channels lose theirs, and the rest is left alone. -/
  scores : ∀ ch, v'.scores ch =
    if ch ∈ chosen ∨ ch = home then v.scores ch else if ch ∈ evenChannels then -1 else v.scores ch
  finalists : ∀ k, hasBit v'.sweep.finalists k = (hasBit v.sweep.finalists k || decide (2 * k ∈ chosen))
  energy : v'.energy = v.energy
  order : VisitsOnce home v' v'.sweep.order

/-- **The order of a sweep and the finalists.** With any source of random numbers a round visits every channel of the
survey that lacks visits, once, and nothing else. A confirmation advances the best of the eligible channels, up to
three; if there is none, nothing has changed. -/
theorem sweep_order_and_finalists (home : ℕ) (now : ℤ) (policy : AcPolicy) (v : Survey) :
    (∀ (σ : Type) (next : σ → σ) (value : σ → ℕ) (random : σ),
      VisitsOnce home v (shuffleBy next value (v.candidates home).length random (v.candidates home)).2) ∧
    (∀ random, (v.shuffleSweep home random).2 = { v with sweep := { v.sweep with
      order := (shuffleBy randomNext BitVec.toNat (v.candidates home).length random (v.candidates home)).2 } }) ∧
    ∀ random, ∃ chosen, BestFirst home v.scores now policy 3 chosen ∧
      if chosen = [] then beginConfirmationInPlace home now policy random v = (false, random, v)
      else ∃ random' v', beginConfirmationInPlace home now policy random v = (true, random', v') ∧
        Confirmed home chosen v v' := by
  refine ⟨fun σ next value random => visitsOnce_of_perm (shuffleBy_perm _ _ _ _ _), fun random => ?_, fun random => ?_⟩
  · rw [Survey.shuffleSweep, shuffleFrom_eq]
  · have hall : ∀ c ∈ Survey.pickFinalists home now policy 3 v.scores,
        c.1 ∈ evenChannels ∧ c.1 ≠ home ∧ 0 ≤ v.scores c.1 ∧ c.2 = v.scores c.1 := (pickFinalists_spec 3 v.scores).2.2
    refine ⟨_, pickFinalists_bestFirst 3 v.scores, ?_⟩
    rw [beginConfirmationInPlace_eq, Survey.beginConfirmation]
    dsimp only
    split
    case isTrue hnone => rw [if_pos (List.map_eq_nil_iff.mp hnone)]
    case isFalse hsome =>
      rw [if_neg fun h => hsome (List.map_eq_nil_iff.mpr h)]
      refine ⟨_, _, rfl, rfl, fun ch => ?_, fun k => hasBit_foldl_setBit k fun c hc => (hall c hc).1, rfl,
        visitsOnce_of_perm (shuffleSweep_perm _ _ _)⟩
      refine (foldl_update_eq ch fun c hc => (hall c hc).2.2.2).trans ?_
      by_cases hchosen : ch ∈ (Survey.pickFinalists home now policy 3 v.scores).map Prod.fst
      · rw [if_pos hchosen, if_pos (Or.inl hchosen)]
      · rw [if_neg hchosen]
        by_cases hhome : ch = home
        · rw [if_pos (Or.inr hhome), if_neg fun h => h.2.2 hhome]
        · rw [if_neg (not_or.mpr ⟨hchosen, hhome⟩)]
          refine if_congr ?_ rfl rfl
          rw [mem_evenChannels]
          exact ⟨fun h => ⟨h.1, h.2.1⟩, fun h => ⟨h.1, h.2, hhome⟩⟩

end SlimeReceiver.AutoChannel
