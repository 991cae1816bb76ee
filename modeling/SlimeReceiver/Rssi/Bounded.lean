import SlimeReceiver.Rssi.FrontEnd

/-! # The bounded measurement

A measurement that returns zero has taken one sample in each slot and heard no paired tracker; any other leaves the
destination alone. Whichever way a measurement ends, the registers and the front end are as they were.

* **`SlotVisit`**, **`Slice`** — what is observed in a slot, and in a whole measurement.
* **`SlotVisit.InSlot`**, **`Slice.Shows`** — the sample is in its slot; the result is that of the samples.
* **`ScanCall`**, **`runCalls`** — the calls from outside.
* **`measure_all_or_nothing`** — the result, the registers and the front end. -/

namespace SlimeReceiver

namespace Rssi

open Observing

/-! ## A slot -/

/-- What is observed in a slot. -/
structure SlotVisit where
  /-- The cycle counter before the sample is triggered. -/
  begun : Moment
  waited : List Moment
  /-- The cycle counter after `RSSIEND`. -/
  taken : Moment
  sample : Moment
  polls : List Moment
  /-- The cycle counter at the end of the slot. -/
  ended : Moment
  closing : Moment

namespace SlotVisit

def accesses (v : SlotVisit) : List Access :=
  Access.saw v.begun :: Access.task .rssiStart ::
    (v.waited ++ v.taken :: v.sample :: (v.polls ++ [v.ended, v.closing])).map Access.saw

/-- The sample. -/
def value (v : SlotVisit) : BitVec 8 := (v.sample.rssiSample &&& 0x7F).setWidth 8

/-- The sample is taken before the counter reaches the end of the slot, and the slot is not left before that, nor
later. -/
structure InSlot (v : SlotVisit) (hz : ℕ) (start : BitVec 32) (slot : ℕ) : Prop where
  begun : v.begun.cycles - start < slotEnd hz slot
  sampled : ∃ m ∈ v.waited, .rssiEnd ∈ m.arrived
  taken : v.taken.cycles - start < slotEnd hz slot
  polled : ∀ m ∈ v.polls, m.cycles - start < slotEnd hz slot
  ended : slotEnd hz slot ≤ v.ended.cycles - start
  closing : v.closing.cycles - start ≤ slotEnd hz slot

end SlotVisit

/-- A slot that is passed has one sample. -/
def Passed (hz : ℕ) (start : BitVec 32) (slot : ℕ) (result : Observation) (w : World) (r : ℤ × Observation)
    (w' : World) : Prop :=
  ∃ taken, Reaches w w' taken ∧ (r.1 = 0 → ∃ v : SlotVisit, taken = v.accesses ∧ v.InSlot hz start slot ∧
    r.2 = result.add v.value)

theorem etimedout_ne : etimedout ≠ 0 := by decide

section Slot

variable {w : World} {hz slot : ℕ} {start : BitVec 32} {result : Observation}

theorem Passed.failed {w' : World} {taken : List Access} {r : ℤ × Observation} (h : Reaches w w' taken)
    (herr : r.1 ≠ 0) : Passed hz start slot result w r w' := ⟨taken, h, fun hzero => absurd hzero herr⟩

/-- The counter is polled until the slot is over. -/
theorem pollSlot_spec : wlp (repeatUntil do
      let now ← cycleGet
      pure (if now - start < slotEnd hz slot then none else some ()))
    (fun _ w' => ∃ (polls : List Moment) (ended : Moment), Reaches w w' ((polls ++ [ended]).map .saw) ∧
      (∀ m ∈ polls, m.cycles - start < slotEnd hz slot) ∧ slotEnd hz slot ≤ ended.cycles - start) w := by
  refine wlp_repeatUntil (I := fun w' => ∃ polls : List Moment, Reaches w w' (polls.map .saw) ∧
    ∀ m ∈ polls, m.cycles - start < slotEnd hz slot) ⟨[], .refl w, fun m hm => by cases hm⟩ ?_
  rintro w' ⟨polls, hreaches, hpolls⟩
  rw [wlp_cycleGet_bind]
  intro m
  have hsee : Reaches w (w'.see m) ((polls ++ [m]).map .saw) := by
    rw [List.map_append]
    exact hreaches.trans (.see m w')
  rw [wlp_pure]
  split
  case h_1 a hover =>
    split at hover
    case isTrue => cases hover
    case isFalse hend => exact ⟨polls, m, hsee, hpolls, BitVec.not_lt.mp hend⟩
  case h_2 hover =>
    split at hover
    case isTrue hend =>
      refine ⟨polls ++ [m], hsee, fun n hn => ?_⟩
      rcases List.mem_append.mp hn with hn | hn
      · exact hpolls n hn
      · rw [List.mem_singleton.mp hn]
        exact hend
    case isFalse => cases hover

theorem slotPass_spec :
    wlp (slotPass hz start slot result) (Passed hz start slot result w) w := by
  unfold slotPass
  rw [wlp_cycleGet_bind]
  intro begun
  have hbegun : Reaches w (w.see begun) [.saw begun] := .see begun w
  split
  case isTrue => exact wlp_pure.mpr (.failed hbegun etimedout_ne)
  case isFalse hstart =>
    rw [wlp_change_bind, wlp_task_bind]
    have hcleared := hbegun.trans (.clear (by decide : Event.rssiEnd ≠ .address) _)
    have htriggered := hcleared.trans (.trigger .rssiStart _)
    refine wlp_call (waitForEventAndClear_spec (by decide) _) fun isEnded w₁ h => ?_
    obtain ⟨waited, hwaited, harrived⟩ := h
    split
    case isTrue => exact wlp_pure.mpr (.failed (htriggered.trans hwaited) etimedout_ne)
    case isFalse hended =>
      rw [wlp_cycleGet_bind]
      intro taken
      have htaken := (htriggered.trans hwaited).trans (.see taken w₁)
      split
      case isTrue => exact wlp_pure.mpr (.failed htaken etimedout_ne)
      case isFalse hlate =>
        rw [wlp_rssiSample_bind]
        intro sample
        refine wlp_call pollSlot_spec fun _ w₂ h => ?_
        obtain ⟨polls, ended, hpolled, hpolls, hover⟩ := h
        rw [wlp_cycleGet_bind]
        intro closing
        have hclosed := ((htaken.trans (.see sample _)).trans hpolled).trans (.see closing w₂)
        split
        case isTrue => exact wlp_pure.mpr (.failed hclosed etimedout_ne)
        case isFalse hclosing =>
          refine wlp_pure.mpr ⟨_, hclosed, fun _ =>
            ⟨⟨begun, waited, taken, sample, polls, ended, closing⟩, ?_, ?_, rfl⟩⟩
          · simp only [SlotVisit.accesses, List.map_append, List.map_cons, List.map_nil, List.append_assoc,
              List.cons_append, List.nil_append]
          · refine ⟨BitVec.not_le.mp hstart, ?_, BitVec.not_le.mp hlate, hpolls, hover, BitVec.not_lt.mp hclosing⟩
            rcases harrived (by simpa using hended) with hpending | harrived
            · exact absurd rfl (of_decide_eq_true (List.mem_filter.mp hpending).2)
            · exact harrived

end Slot

/-! ## The samples -/

/-- Some samples are added. -/
def Observation.addAll (values : List (BitVec 8)) (o : Observation) : Observation :=
  values.foldl (fun o value => o.add value) o

/-- A field that each sample keeps or replaces, and that only moves one way, ends at an extreme. -/
theorem addAll_extreme {f : Observation → BitVec 8} {r : BitVec 8 → BitVec 8 → Prop} (hrefl : ∀ x, r x x)
    (htrans : ∀ {x y z}, r x y → r y z → r x z)
    (hadd : ∀ value o, r (f (o.add value)) value ∧ r (f (o.add value)) (f o) ∧
      (f (o.add value) = f o ∨ f (o.add value) = value)) (values : List (BitVec 8)) (o : Observation) :
    (∀ v ∈ values, r (f (o.addAll values)) v) ∧ r (f (o.addAll values)) (f o) ∧
      (f (o.addAll values) = f o ∨ f (o.addAll values) ∈ values) := by
  induction values generalizing o with
  | nil => exact ⟨fun v hv => absurd hv List.not_mem_nil, hrefl _, .inl rfl⟩
  | cons value values ih =>
    obtain ⟨hall, hle, hmem⟩ := ih (o.add value)
    obtain ⟨hvalue, hkept, heither⟩ := hadd value o
    refine ⟨fun v hv => ?_, htrans hle hkept, ?_⟩
    · rcases List.mem_cons.mp hv with rfl | hv
      · exact htrans hle hvalue
      · exact hall v hv
    · rcases hmem with hsame | hmem
      · rcases heither with hold | hnew
        · exact .inl (hsame.trans hold)
        · exact .inr (List.mem_cons.mpr (.inl (hsame.trans hnew)))
      · exact .inr (List.mem_cons_of_mem _ hmem)

theorem addAll_peak (values : List (BitVec 8)) (o : Observation) : (∀ v ∈ values, (o.addAll values).peak ≤ v) ∧
    (o.addAll values).peak ≤ o.peak ∧ ((o.addAll values).peak = o.peak ∨ (o.addAll values).peak ∈ values) := by
  refine addAll_extreme (f := Observation.peak) (r := (· ≤ ·)) BitVec.le_refl BitVec.le_trans (fun value o => ?_) values o
  unfold Observation.add
  by_cases hlt : value < o.peak
  · simp only [if_pos hlt]
    exact ⟨BitVec.le_refl _, BitVec.le_of_lt hlt, .inr trivial⟩
  · simp only [if_neg hlt]
    exact ⟨BitVec.not_lt.mp hlt, BitVec.le_refl _, .inl trivial⟩

theorem addAll_quietFloor (values : List (BitVec 8)) (o : Observation) :
    (∀ v ∈ values, v ≤ (o.addAll values).quietFloor) ∧ o.quietFloor ≤ (o.addAll values).quietFloor ∧
      ((o.addAll values).quietFloor = o.quietFloor ∨ (o.addAll values).quietFloor ∈ values) := by
  refine addAll_extreme (f := Observation.quietFloor) (r := (· ≥ ·)) BitVec.le_refl (fun h h' => BitVec.le_trans h' h)
    (fun value o => ?_) values o
  unfold Observation.add
  by_cases hlt : o.quietFloor < value
  · simp only [if_pos hlt]
    exact ⟨BitVec.le_refl _, BitVec.le_of_lt hlt, .inr trivial⟩
  · simp only [if_neg hlt]
    exact ⟨BitVec.not_lt.mp hlt, BitVec.le_refl _, .inl trivial⟩

theorem addAll_samples (values : List (BitVec 8)) (o : Observation) :
    (o.addAll values).samples = o.samples + BitVec.ofNat 16 values.length := by
  induction values generalizing o with
  | nil => exact (BitVec.add_zero _).symm
  | cons value values ih =>
    have hadd : (o.add value).samples = o.samples + 1 := rfl
    have hall : o.addAll (value :: values) = (o.add value).addAll values := rfl
    rw [hall, ih (o.add value), hadd, List.length_cons, BitVec.ofNat_add, BitVec.add_assoc,
      BitVec.add_comm 1]
    rfl

/-- The extremes of samples of seven bits. -/
theorem addAll_none {values : List (BitVec 8)} (hne : values ≠ []) (hle : ∀ v ∈ values, v ≤ 127) :
    (Observation.none.addAll values).peak ∈ values ∧ (Observation.none.addAll values).quietFloor ∈ values := by
  obtain ⟨hpeak, _, hpeakMem⟩ := addAll_peak values .none
  obtain ⟨hfloor, _, hfloorMem⟩ := addAll_quietFloor values .none
  obtain ⟨value, hvalue⟩ := List.exists_mem_of_ne_nil values hne
  constructor
  · rcases hpeakMem with hpeakEq | hmem
    · have heq : value = (Observation.none.addAll values).peak := by
        refine BitVec.le_antisymm ?_ (hpeak value hvalue)
        rw [hpeakEq]
        exact hle value hvalue
      exact heq ▸ hvalue
    · exact hmem
  · rcases hfloorMem with hfloorEq | hmem
    · have heq : value = (Observation.none.addAll values).quietFloor := by
        refine BitVec.le_antisymm (hfloor value hvalue) ?_
        rw [hfloorEq]
        exact Nat.zero_le _
      exact heq ▸ hvalue
    · exact hmem

/-- A sample has seven bits. -/
theorem SlotVisit.value_le (v : SlotVisit) : v.value ≤ 127 := by
  rw [BitVec.le_def, SlotVisit.value, BitVec.toNat_setWidth, BitVec.toNat_and]
  have hle : v.sample.rssiSample.toNat &&& (0x7F : BitVec 32).toNat ≤ 127 := Nat.and_le_right
  exact (Nat.mod_le _ _).trans hle

/-! ## A slice -/

/-- What is observed in a measurement. -/
structure Slice where
  before : List Moment
  ready : List Moment
  start : Moment
  visits : List SlotVisit
  checked : Moment
  after : List Moment

namespace Slice

/-- While the radio receives. -/
def heard (s : Slice) : List Access :=
  s.ready.map Access.saw ++ Access.task .start :: Access.saw s.start ::
    (s.visits.flatMap SlotVisit.accesses ++ [Access.saw s.checked])

def accesses (s : Slice) : List Access :=
  s.before.map Access.saw ++ Access.task .rxEn :: (s.heard ++ Access.task .disable :: s.after.map Access.saw)

/-- The samples. -/
def values (s : Slice) : List (BitVec 8) := s.visits.map SlotVisit.value

/-- A complete measurement without an address of a paired tracker, and its result. -/
structure Shows (s : Slice) (hz : ℕ) (w w' : World) : Prop where
  accesses : w'.hardware.accesses = w.hardware.accesses ++ s.accesses
  unheard : ∀ m, Access.saw m ∈ s.heard → Event.address ∉ m.arrived
  slots : s.visits.length = sliceSlots
  inSlot : ∀ k (v : SlotVisit), s.visits[k]? = some v → v.InSlot hz s.start.cycles k
  /-- A slot begins after the one before it unless the counter has run back. -/
  inOrder : ∀ k (v v' : SlotVisit), s.visits[k]? = some v → s.visits[k + 1]? = some v' →
    v.ended.cycles - s.start.cycles ≤ v'.begun.cycles - s.start.cycles →
      slotEnd hz k ≤ v'.begun.cycles - s.start.cycles
  samples : w'.out.samples = BitVec.ofNat 16 sliceSlots
  peak : w'.out.peak ∈ s.values ∧ ∀ v ∈ s.values, w'.out.peak ≤ v
  quietFloor : w'.out.quietFloor ∈ s.values ∧ ∀ v ∈ s.values, v ≤ w'.out.quietFloor

end Slice

section Listen

variable {w : World} {hz : ℕ} {start : BitVec 32} {b : Board}

theorem slotPasses_spec (n slot : ℕ) (result : Observation) :
    wlp (slotPasses hz start n slot result) (fun r w' => ∃ taken, Reaches w w' taken ∧
      (r.1 = 0 → ∃ visits : List SlotVisit, taken = visits.flatMap SlotVisit.accesses ∧ visits.length = n ∧
        (∀ k (v : SlotVisit), visits[k]? = some v → v.InSlot hz start (slot + k)) ∧
        r.2 = result.addAll (visits.map SlotVisit.value))) w := by
  induction n generalizing slot result w with
  | zero =>
    refine wlp_pure.mpr ⟨[], .refl w, fun _ => ⟨[], rfl, rfl, fun k v hv => ?_, rfl⟩⟩
    cases hv
  | succ n ih =>
    unfold slotPasses
    refine wlp_call slotPass_spec fun r w₁ h => ?_
    obtain ⟨taken, hreaches, hpassed⟩ := h
    split
    case isTrue herr => exact wlp_pure.mpr ⟨taken, hreaches, fun hzero => absurd hzero herr⟩
    case isFalse herr =>
      refine (ih (slot + 1) r.2).mono fun r' w₂ h => ?_
      obtain ⟨more, hmore, hvisits⟩ := h
      refine ⟨taken ++ more, hreaches.trans hmore, fun hzero => ?_⟩
      obtain ⟨v, htaken, hslot, hresult⟩ := hpassed (not_not.mp herr)
      obtain ⟨visits, hall, hlength, hslots, hlast⟩ := hvisits hzero
      refine ⟨v :: visits, by rw [htaken, hall, List.flatMap_cons], congrArg (· + 1) hlength, ?_, ?_⟩
      · intro k v' hv'
        cases k with
        | zero =>
          obtain rfl := Option.some.inj hv'
          exact hslot
        | succ k =>
          rw [Nat.add_comm k 1, ← Nat.add_assoc]
          exact hslots k v' hv'
      · rw [hlast, hresult]
        rfl

/-- Listening without an error is a complete slice without a paired address. -/
theorem boundedListen_spec : wlp (boundedListen b) (fun r w' => ∃ taken, Reaches w w' (.task .rxEn :: taken) ∧
    (r.1 = 0 → ∃ s : Slice, taken = s.heard ∧ (∀ m, Access.saw m ∈ taken → Event.address ∉ m.arrived) ∧
      s.visits.length = sliceSlots ∧ (∀ k (v : SlotVisit), s.visits[k]? = some v → v.InSlot b.hz s.start.cycles k) ∧
      ∃ coverageUs, r.2 = { Observation.none.addAll s.values with coverageUs := coverageUs })) w := by
  unfold boundedListen
  rw [wlp_task_bind]
  refine wlp_call (waitForEventAndClear_spec (by decide) _) fun isReady w₁ h => ?_
  obtain ⟨ready, hready, _⟩ := h
  have hrx := (Reaches.trigger .rxEn w).trans hready
  split
  case isTrue => exact wlp_pure.mpr ⟨_, hrx, fun hzero => absurd hzero etimedout_ne⟩
  case isFalse =>
    rw [wlp_task_bind, wlp_cycleGet_bind]
    intro start
    have hstart := (hrx.trans (.trigger .start w₁)).trans (.see start _)
    refine wlp_call (slotPasses_spec _ _ _) fun r w₂ h => ?_
    obtain ⟨taken, hreaches, hvisits⟩ := h
    have hpassed := hstart.trans hreaches
    split
    case isTrue herr => exact wlp_pure.mpr ⟨_, hpassed, fun hzero => absurd hzero herr⟩
    case isFalse herr =>
      rw [wlp_eventSet_bind]
      intro checked
      obtain ⟨visits, htaken, hlength, hslots, hresult⟩ := hvisits (not_not.mp herr)
      let s : Slice := ⟨[], ready, start, visits, checked, []⟩
      have hchecked : Reaches w (w₂.see checked) (.task .rxEn :: s.heard) := by
        have hall := hpassed.trans (.see checked w₂)
        simp only [htaken, List.append_assoc, List.cons_append, List.nil_append] at hall
        exact hall
      refine wlp_pure.mpr ⟨s.heard, hchecked, fun hzero => ⟨s, rfl, fun m hmem harrived => ?_, hlength, ?_, ?_⟩⟩
      · have hpending := hchecked.address (.inr ⟨m, List.mem_cons_of_mem _ hmem, harrived⟩)
        rw [if_pos (decide_eq_true hpending)] at hzero
        exact absurd hzero (by decide : eagain ≠ 0)
      · intro k v hv
        rw [← Nat.zero_add k]
        exact hslots k v hv
      · exact ⟨_, by rw [hresult]; rfl⟩

end Listen

/-! ## A measurement -/

section Measurement

variable {w : World} {b : Board}

/-- What a measurement writes. -/
structure Returned (b : Board) (w : World) (err : ℤ) (w' : World) : Prop where
  kept : err ≠ 0 → w'.out = w.out
  complete : err = 0 → ∃ s : Slice, s.Shows b.hz w w' ∧ w'.out.peak ≤ w'.out.quietFloor
  restored : w'.hardware.disabled = true →
    w'.registers.shorts = w.registers.shorts ∧ w'.registers.rxAddresses = w.registers.rxAddresses

theorem Returned.refused {err : ℤ} {w' : World} (hout : w'.out = w.out) (hregisters : w'.registers = w.registers)
    (herr : err ≠ 0) : Returned b w err w' where
  kept _ := hout
  complete hzero := absurd hzero herr
  restored _ := by
    rw [hregisters]
    exact ⟨rfl, rfl⟩

/-- A complete slice shows what its samples are. -/
theorem Slice.shows {s : Slice} {hz : ℕ} {w' : World} (coverageUs : BitVec 32)
    (haccesses : w'.hardware.accesses = w.hardware.accesses ++ s.accesses)
    (hunheard : ∀ m, Access.saw m ∈ s.heard → Event.address ∉ m.arrived) (hslots : s.visits.length = sliceSlots)
    (hinSlot : ∀ k (v : SlotVisit), s.visits[k]? = some v → v.InSlot hz s.start.cycles k)
    (hout : w'.out = { Observation.none.addAll s.values with coverageUs := coverageUs }) :
    s.Shows hz w w' ∧ w'.out.peak ≤ w'.out.quietFloor := by
  have hlength : s.values.length = sliceSlots := (List.length_map _).trans hslots
  have hne : s.values ≠ [] := by
    intro hnil
    rw [hnil] at hlength
    exact absurd hlength (by decide)
  have hle : ∀ v ∈ s.values, v ≤ 127 := by
    intro v hv
    obtain ⟨visit, _, rfl⟩ := List.mem_map.mp hv
    exact visit.value_le
  obtain ⟨hpeak, hfloor⟩ := addAll_none hne hle
  have hshows : s.Shows hz w w' :=
    { accesses := haccesses
      unheard := hunheard
      slots := hslots
      inSlot := hinSlot
      inOrder := fun k v _ hv _ hle => BitVec.le_trans (hinSlot k v hv).ended hle
      samples := by
        rw [hout]
        show (Observation.none.addAll s.values).samples = _
        rw [addAll_samples, hlength]
        rfl
      peak := by
        rw [hout]
        exact ⟨hpeak, (addAll_peak _ _).1⟩
      quietFloor := by
        rw [hout]
        exact ⟨hfloor, (addAll_quietFloor _ _).1⟩ }
  exact ⟨hshows, hshows.quietFloor.2 _ hshows.peak.1⟩

theorem measureBounded_spec (channel : BitVec 8) (valid : Bool) (hboard : w.fem.OnBoard b) :
    wlp (measureBounded b channel valid) (fun err w' => Returned b w err w' ∧ Visited b w err w') w := by
  unfold measureBounded
  split
  case isTrue => exact wlp_pure.mpr ⟨.refused rfl rfl (by decide), .refused hboard rfl (by decide)⟩
  case isFalse =>
    rw [wlp_radioDisabled_bind]
    intro m
    split
    case isTrue => exact wlp_pure.mpr ⟨.refused rfl rfl (by decide), .refused hboard rfl (by decide)⟩
    case isFalse =>
      rw [wlp_state_bind]
      refine wlp_call (scanFemPrepare_spec hboard) fun err w₁ h => ?_
      obtain ⟨hcall, hboard₁, _, _⟩ := h
      have hprepared : FemCall w w₁ := (FemCall.see m w).trans hcall
      split
      case isTrue hne =>
        refine wlp_call (scanFemRelease_spec hboard₁) fun _ w₂ h => ?_
        obtain ⟨hcall₂, hboard₂, hunowned, _⟩ := h
        have hreleased := hprepared.trans hcall₂
        exact wlp_pure.mpr ⟨.refused hreleased.out hreleased.registers hne,
          hreleased.cleaned, hboard₂, fun _ => hunowned, fun _ => hne⟩
      case isFalse =>
        rw [wlp_change_bind]
        refine wlp_call boundedListen_spec fun heard w₂ h => ?_
        obtain ⟨taken, hlisten, hcomplete⟩ := h
        have hboard₂ : w₂.fem.OnBoard b := by
          rw [hlisten.fem]
          exact hboard₁
        refine wlp_call (closeVisit_spec hboard₂) fun err' w₃ hclosed => ?_
        have hcleaned : w.fem.Cleaned w₃.fem := by
          refine hprepared.cleaned.trans ?_
          have hclosing := hclosed.cleaned
          rw [hlisten.fem] at hclosing
          exact hclosing
        have hout : w₃.out = w.out := (hclosed.out.trans hlisten.out).trans hprepared.out
        rw [wlp_radioDisabled_bind]
        intro last
        split
        case isTrue hstate =>
          refine wlp_pure.mpr ⟨⟨fun _ => hout, fun hzero => absurd hzero (by decide), fun hdisabled => ?_⟩,
            hcleaned, hclosed.board, fun _ => hclosed.unowned, fun _ => by decide⟩
          rw [show last.disabled = true from hdisabled] at hstate
          cases hstate
        case isFalse =>
          rw [wlp_change_bind, wlp_change_bind, wlp_pure]
          refine ⟨⟨fun hne => ?_, fun hzero => ?_, fun _ => ⟨rfl, rfl⟩⟩,
            hcleaned, hclosed.board, fun _ => hclosed.unowned, hclosed.fault⟩
          · exact (if_neg hne).trans hout
          · obtain ⟨s, htaken, hunheard, hslots, hinSlot, coverageUs, hresult⟩ := hcomplete (hclosed.err hzero)
            obtain ⟨before, hbefore⟩ := hprepared.watched
            obtain ⟨after, hafter⟩ := hclosed.accesses
            refine ⟨{ s with before := before, after := after ++ [last] }, Slice.shows coverageUs ?_ ?_ hslots hinSlot ?_⟩
            · show w₃.hardware.accesses ++ [.saw last] = _
              rw [hafter, hlisten.accesses]
              show w₁.hardware.accesses ++ _ ++ _ ++ _ = _
              rw [hbefore, htaken]
              simp only [Slice.accesses, Slice.heard, List.map_append, List.map_cons, List.map_nil, List.append_assoc,
                List.cons_append, List.nil_append]
            · intro m hm
              exact hunheard m (htaken ▸ hm)
            · exact (if_pos hzero).trans hresult

end Measurement

/-! ## Calls -/

/-- The calls of the measurements and of the front end, and other code that sets the registers of the radio. -/
inductive ScanCall
  | bounded (channel : BitVec 8) (valid : Bool)
  | minN (channel : BitVec 8) (samples : ℕ)
  | prepare
  | release
  | elsewhere (registers : Registers)
  deriving DecidableEq

namespace ScanCall

def run (b : Board) : ScanCall → Observing World Moment ℤ
  | .bounded channel valid => measureBounded b channel valid
  | .minN channel samples => channelMeasureMinN b channel samples
  | .prepare => scanFemPrepare b
  | .release => scanFemRelease b
  | .elsewhere registers => do
    change fun w => { w with registers := registers }
    pure 0

/-- The call needs the front end. -/
def acquires : ScanCall → Bool
  | .bounded _ _ | .minN _ _ | .prepare => true
  | .release | .elsewhere _ => false

end ScanCall

/-- Calls one after the other. -/
def runCalls (b : Board) : List ScanCall → Observing World Moment Unit
  | [] => pure ()
  | call :: calls => do
    let _ ← call.run b
    runCalls b calls

/-- The fault tells of every cleanup that ever failed. -/
structure FrontEnd.Sound (b : Board) (f : FrontEnd) : Prop where
  board : f.OnBoard b
  fault : f.cleanupFault = true ↔ ∃ r ∈ f.cleanups, r ≠ 0

theorem FrontEnd.Sound.cleaned {b : Board} {f f' : FrontEnd} (h : f.Sound b) (hcleaned : f.Cleaned f')
    (hboard : f'.OnBoard b) : f'.Sound b := by
  obtain ⟨more, hcleanups, hfault⟩ := hcleaned
  refine ⟨hboard, ?_⟩
  rw [hfault, hcleanups, h.fault]
  simp only [List.mem_append, or_and_right, exists_or]

/-- After a fault is told, the front end is safe exactly if it is not owned and no cleanup failed. -/
theorem FrontEnd.Sound.isSafe_iff {b : Board} {f : FrontEnd} (h : f.Sound b) (hunowned : f.Unowned) :
    f.isSafe = true ↔ ∀ r ∈ f.cleanups, r = 0 := by
  have hsafe : f.isSafe = !f.cleanupFault := by rw [FrontEnd.isSafe, hunowned.1, hunowned.2]; rfl
  rw [hsafe, Bool.not_eq_true', Bool.eq_false_iff, Ne, h.fault]
  push Not
  rfl

/-- What a call returns, and what it leaves. -/
structure CallReturned (b : Board) (call : ScanCall) (w : World) (err : ℤ) (w' : World) : Prop where
  bounded : ∀ channel valid, call = .bounded channel valid → Returned b w err w'
  settled : (w.fem.Unowned ∨ call = .release) → (call = .prepare → err ≠ 0) →
    w'.fem.Unowned ∧ (w'.fem.isSafe = true ↔ ∀ r ∈ w'.fem.cleanups, r = 0)
  refused : (∃ r ∈ w.fem.cleanups, r ≠ 0) → call.acquires = true → err ≠ 0

section Calls

variable {w : World} {b : Board}

/-- A measurement from a sound front end leaves a sound one. -/
theorem CallReturned.of_visited {call : ScanCall} {err : ℤ} {w' : World} (hsound : w.fem.Sound b)
    (h : Visited b w err w') (hrelease : call ≠ .release)
    (hbounded : ∀ channel valid, call = .bounded channel valid → Returned b w err w') :
    CallReturned b call w err w' where
  bounded := hbounded
  settled := by
    rintro (hunowned | hrel) _
    · exact ⟨h.unowned hunowned, (hsound.cleaned h.cleaned h.board).isSafe_iff (h.unowned hunowned)⟩
    · exact absurd hrel hrelease
  refused := by
    intro hfailed _
    obtain ⟨more, _, hfault⟩ := h.cleaned
    exact h.fault (hfault.mpr (.inl (hsound.fault.mpr hfailed)))

theorem call_spec (hsound : w.fem.Sound b) (call : ScanCall) :
    wlp (call.run b) (fun err w' => CallReturned b call w err w' ∧ w'.fem.Sound b) w := by
  cases call with
  | bounded channel valid =>
    refine (measureBounded_spec channel valid hsound.board).mono fun err w' h => ?_
    exact ⟨.of_visited hsound h.2 (by rintro ⟨⟩) fun _ _ _ => h.1, hsound.cleaned h.2.cleaned h.2.board⟩
  | minN channel samples =>
    refine (channelMeasureMinN_spec channel samples hsound.board).mono fun err w' h => ?_
    exact ⟨.of_visited hsound h (by rintro ⟨⟩) (by rintro _ _ ⟨⟩), hsound.cleaned h.cleaned h.board⟩
  | prepare =>
    refine (scanFemPrepare_spec hsound.board).mono fun err w' h => ?_
    obtain ⟨hcall, hboard, hunowned, hfault⟩ := h
    have hsound' := hsound.cleaned hcall.cleaned hboard
    refine ⟨⟨(by rintro _ _ ⟨⟩), ?_, fun hfailed _ => hfault (hsound.fault.mpr hfailed)⟩, hsound'⟩
    rintro (hbefore | hrelease) herr
    · exact ⟨hunowned (herr rfl) hbefore, hsound'.isSafe_iff (hunowned (herr rfl) hbefore)⟩
    · cases hrelease
  | release =>
    refine (scanFemRelease_spec hsound.board).mono fun err w' h => ?_
    obtain ⟨hcall, hboard, hunowned, _⟩ := h
    have hsound' := hsound.cleaned hcall.cleaned hboard
    exact ⟨⟨(by rintro _ _ ⟨⟩), fun _ _ => ⟨hunowned, hsound'.isSafe_iff hunowned⟩,
      (by rintro _ ⟨⟩)⟩, hsound'⟩
  | elsewhere registers =>
    unfold ScanCall.run
    rw [wlp_change_bind, wlp_pure]
    refine ⟨⟨(by rintro _ _ ⟨⟩), ?_, (by rintro _ ⟨⟩)⟩, hsound⟩
    rintro (hunowned | hrelease) _
    · exact ⟨hunowned, hsound.isSafe_iff hunowned⟩
    · cases hrelease

theorem runCalls_spec (hsound : w.fem.Sound b) (calls : List ScanCall) :
    wlp (runCalls b calls) (fun _ w' => w'.fem.Sound b) w := by
  induction calls generalizing w with
  | nil => exact wlp_pure.mpr hsound
  | cons call calls ih => exact wlp_call (call_spec hsound call) fun _ w' h => ih h.2

end Calls

/-- After any calls, whatever they observed, a measurement is all or nothing, and no call leaves the front end
owned or a failed cleanup unnoticed. -/
theorem measure_all_or_nothing {b : Board} {calls : List ScanCall} {call : ScanCall} {w₀ w w' : World}
    {script script' rest : List Moment} {err : ℤ} (hstart : w₀.fem = .init)
    (hruns : runCalls b calls w₀ script = some ((), w, script')) (hcall : call.run b w script' = some (err, w', rest)) :
    CallReturned b call w err w' := by
  have hinit : w₀.fem.Sound b := by
    rw [hstart]
    refine ⟨fun _ => rfl, ?_⟩
    constructor
    · rintro ⟨⟩
    · rintro ⟨_, hmem, _⟩
      cases hmem
  exact (call_spec (runCalls_spec hinit calls script () w script' hruns) call script' err w' rest hcall).1

/-! ## A measurement that succeeds -/

/-- A moment with the radio disabled. -/
def momentAt (cycles : BitVec 32) (arrived : List Event) : Moment where
  arrived := arrived
  cycles := cycles
  disabled := true
  rssiSample := 84
  result := 0

/-- A slot of four cycles of a slice that begins two cycles before the counter wraps. -/
def slotScript (slot : ℕ) : List Moment :=
  let start := BitVec.ofNat 32 (4 * slot) - 2
  [momentAt start [], momentAt start [], momentAt start [.rssiEnd], momentAt (start + 1) [], momentAt start [],
    momentAt (start + 2) [], momentAt (start + 4) [], momentAt (start + 4) []]

/-- What a successful measurement observes. -/
def sliceScript : List Moment :=
  [momentAt 0 [], momentAt 0 [], momentAt 0 [], momentAt 0 [], momentAt 0 [], momentAt 0 [.compare3], momentAt 0 [],
    momentAt 0 [.ready], momentAt (-2) []] ++ (List.range 5).flatMap slotScript ++
    [momentAt 0 [], momentAt 0 [], momentAt 0 [.disabled], momentAt 0 [], momentAt 0 [], momentAt 0 []]

/-- The receiver before it. -/
def idleWorld : World := ⟨⟨[], true, []⟩, ⟨0, 1, 0⟩, .init, .none, 127⟩

/-- A board with a front end, and a counter at 32768 Hz. -/
def femBoard : Board := ⟨32768, true⟩

theorem measure_succeeds : ∃ w' rest, measureBounded femBoard 18 true idleWorld sliceScript = some (0, w', rest) ∧
    CallReturned femBoard (.bounded 18 true) idleWorld 0 w' := by
  have hreturn : (measureBounded femBoard 18 true idleWorld sliceScript).map (·.1) = some 0 := by decide +kernel
  obtain ⟨⟨err, w', rest⟩, hsome, rfl⟩ := Option.map_eq_some_iff.mp hreturn
  have hruns : runCalls femBoard [] idleWorld sliceScript = some ((), idleWorld, sliceScript) := rfl
  have hcall : (ScanCall.bounded 18 true).run femBoard idleWorld sliceScript = some (0, w', rest) := hsome
  exact ⟨w', rest, hsome, measure_all_or_nothing rfl hruns hcall⟩

end Rssi

end SlimeReceiver
