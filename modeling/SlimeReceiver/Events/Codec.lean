import SlimeReceiver.Events.Protocol

/-! # The event codec is a bijection

* **`EventGrammar`** — the combinations of fields a tracker sends, written out, and
  `trackerEventValid_iff`, that the validity test decides them.
* **`get16_put16`**, **`get32_put32`** and their inverses — little-endian fields.
* **`trackerEventDecode_iff`** — which byte strings are accepted, and as what.
* **`tracker_event_codec`** — encoder and decoders are inverse to each other on valid events and
  accepted frames. -/

namespace SlimeReceiver.Events

/-! ## Grammar -/

/-- The combinations of kind, operation, event, outcome, phase and detail of an event. -/
inductive EventGrammar (e : TrackerEvent) : Prop
  | progress (hkind : trackerEventIsCalibration e.kind = true) (hoperation : e.operationId ≠ 0)
      (hevent : e.event = calEventAccepted ∨ e.event = calEventBegin ∨ e.event = calEventStep)
      (houtcome : e.outcome = calOutcomeNone)
  | ended (hkind : trackerEventIsCalibration e.kind = true) (hoperation : e.operationId ≠ 0)
      (hevent : e.event = calEventEnd)
      (houtcome : e.outcome = calOutcomeSuccess ∨ e.outcome = calOutcomeFailed ∨
        e.outcome = calOutcomeCancelled ∨ e.outcome = calOutcomeSkipped)
  | rejected (hkind : trackerEventIsCalibration e.kind = true) (hoperation : e.operationId ≠ 0)
      (hevent : e.event = calEventRejected) (houtcome : e.outcome = calOutcomeFailed)
  | trackerRest (hkind : e.kind = kindTrackerRest) (hoperation : e.operationId = 0)
      (hevent : e.event = calEventState) (houtcome : e.outcome = calOutcomeNone)
      (hphase : e.phase ∈ [0, 1, 2]) (hdetail : e.detail ∈ [0, 1, 2, 3, 4])
  | fusionRest (hkind : e.kind = kindFusionRest) (hoperation : e.operationId = 0)
      (hevent : e.event = calEventState) (houtcome : e.outcome = calOutcomeNone)
      (hphase : e.phase ∈ [0, 1, 2, 3]) (hdetail : e.detail ∈ [0, 1, 2])
  | wom (hkind : e.kind = kindPower) (hoperation : e.operationId = 0)
      (hevent : e.event = calEventNotice) (houtcome : e.outcome = calOutcomeNone)
      (hphase : e.phase ∈ [powerWillWom, powerWomCancelled]) (hdetail : e.detail ∈ [0, 1, 2])
  | power (hkind : e.kind = kindPower) (hoperation : e.operationId = 0)
      (hevent : e.event = calEventNotice) (houtcome : e.outcome = calOutcomeNone)
      (hphase : e.phase ∈
        [powerWillShutdown, powerBoot, powerWake, powerWillReboot, powerWatchdogReset])
      (hdetail : e.detail = powerReasonUnknown)
  | button (hkind : e.kind = kindButton) (hoperation : e.operationId = 0)
      (hevent : e.event = calEventNotice) (houtcome : e.outcome = calOutcomeNone)
      (hphase : e.phase = 1) (hdetail : e.detail ≠ 0)

/-! The ranges of the validity test, value by value. -/

theorem outcome_range : ∀ x : BitVec 8, calOutcomeSuccess ≤ x ∧ x ≤ calOutcomeSkipped ↔
    x = calOutcomeSuccess ∨ x = calOutcomeFailed ∨ x = calOutcomeCancelled ∨
      x = calOutcomeSkipped := by
  decide

theorem le_two_iff : ∀ x : BitVec 8, x ≤ 2 ↔ x ∈ [0, 1, 2] := by decide

theorem le_three_iff : ∀ x : BitVec 8, x ≤ 3 ↔ x ∈ [0, 1, 2, 3] := by decide

theorem le_four_iff : ∀ x : BitVec 8, x ≤ 4 ↔ x ∈ [0, 1, 2, 3, 4] := by decide

theorem power_range : ∀ x : BitVec 8,
    x ≠ powerWomCancelled ∧ powerWillShutdown ≤ x ∧ x ≤ powerWatchdogReset ↔
      x ∈ [powerWillShutdown, powerBoot, powerWake, powerWillReboot, powerWatchdogReset] := by
  decide

variable {e : TrackerEvent}

/-- A calibration kind is none of the others. -/
theorem kind_ne_of_calibration (h : trackerEventIsCalibration e.kind = true) :
    e.kind ≠ kindTrackerRest ∧ e.kind ≠ kindFusionRest ∧ e.kind ≠ kindPower ∧ e.kind ≠ kindButton := by
  refine ⟨?_, ?_, ?_, ?_⟩ <;>
    · intro hkind
      rw [hkind] at h
      exact absurd h (by decide)

theorem calibrationValid_iff (hkind : trackerEventIsCalibration e.kind = true) :
    calibrationValid e = true ↔ EventGrammar e := by
  obtain ⟨hrest, hfusion, hpower, hbutton⟩ := kind_ne_of_calibration hkind
  unfold calibrationValid
  constructor
  · intro h
    split at h
    case isTrue => cases h
    case isFalse hoperation =>
      split at h
      case isTrue hevent => exact .progress hkind hoperation hevent (beq_iff_eq.mp h)
      case isFalse =>
        split at h
        case isTrue hevent =>
          exact .ended hkind hoperation hevent ((outcome_range _).mp (of_decide_eq_true h))
        case isFalse =>
          split at h
          case isTrue hevent => exact .rejected hkind hoperation hevent (beq_iff_eq.mp h)
          case isFalse => cases h
  · intro h
    cases h with
    | progress _ hoperation hevent houtcome => rw [if_neg hoperation, if_pos hevent, beq_iff_eq, houtcome]
    | ended _ hoperation hevent houtcome =>
      rw [if_neg hoperation, if_neg (by rw [hevent]; decide), if_pos hevent]
      exact decide_eq_true ((outcome_range _).mpr houtcome)
    | rejected _ hoperation hevent houtcome =>
      rw [if_neg hoperation, if_neg (by rw [hevent]; decide), if_neg (by rw [hevent]; decide),
        if_pos hevent, beq_iff_eq, houtcome]
    | trackerRest h => exact absurd h hrest
    | fusionRest h => exact absurd h hfusion
    | wom h => exact absurd h hpower
    | power h => exact absurd h hpower
    | button h => exact absurd h hbutton

/-- Of the kinds other than calibrations, the test accepts the grammar's combinations. -/
theorem otherValid_iff (hkind : trackerEventIsCalibration e.kind = false)
    (hoperation : e.operationId = 0) (houtcome : e.outcome = 0) :
    (if e.kind = kindTrackerRest then
        decide (e.event = calEventState ∧ e.phase ≤ 2 ∧ e.detail ≤ 4)
      else if e.kind = kindFusionRest then
        decide (e.event = calEventState ∧ e.phase ≤ 3 ∧ e.detail ≤ 2)
      else if e.kind = kindPower then powerValid e
      else if e.kind = kindButton then
        decide (e.event = calEventNotice ∧ e.phase = 1 ∧ e.detail ≠ 0)
      else false) = true ↔ EventGrammar e := by
  constructor
  · intro h
    split at h
    case isTrue hrest =>
      obtain ⟨hevent, hphase, hdetail⟩ := of_decide_eq_true h
      exact .trackerRest hrest hoperation hevent houtcome ((le_two_iff _).mp hphase)
        ((le_four_iff _).mp hdetail)
    case isFalse =>
      split at h
      case isTrue hfusion =>
        obtain ⟨hevent, hphase, hdetail⟩ := of_decide_eq_true h
        exact .fusionRest hfusion hoperation hevent houtcome ((le_three_iff _).mp hphase)
          ((le_two_iff _).mp hdetail)
      case isFalse =>
        split at h
        case isTrue hpower =>
          obtain ⟨hevent, ⟨hphase, hdetail⟩ | ⟨hother, hlow, hhigh, hdetail⟩⟩ := of_decide_eq_true h
          · exact .wom hpower hoperation hevent houtcome (by simpa using hphase)
              ((le_two_iff _).mp hdetail)
          · exact .power hpower hoperation hevent houtcome
              ((power_range _).mp ⟨hother, hlow, hhigh⟩) hdetail
        case isFalse =>
          split at h
          case isTrue hbutton =>
            obtain ⟨hevent, hphase, hdetail⟩ := of_decide_eq_true h
            exact .button hbutton hoperation hevent houtcome hphase hdetail
          case isFalse => cases h
  · intro h
    cases h with
    | progress h | ended h | rejected h =>
      rw [hkind] at h
      cases h
    | trackerRest hrest _ hevent _ hphase hdetail =>
      rw [if_pos hrest]
      exact decide_eq_true ⟨hevent, (le_two_iff _).mpr hphase, (le_four_iff _).mpr hdetail⟩
    | fusionRest hfusion _ hevent _ hphase hdetail =>
      rw [if_neg (by rw [hfusion]; decide), if_pos hfusion]
      exact decide_eq_true ⟨hevent, (le_three_iff _).mpr hphase, (le_two_iff _).mpr hdetail⟩
    | wom hpower _ hevent _ hphase hdetail =>
      rw [if_neg (by rw [hpower]; decide), if_neg (by rw [hpower]; decide), if_pos hpower]
      exact decide_eq_true ⟨hevent, .inl ⟨by simpa using hphase, (le_two_iff _).mpr hdetail⟩⟩
    | power hpower _ hevent _ hphase hdetail =>
      rw [if_neg (by rw [hpower]; decide), if_neg (by rw [hpower]; decide), if_pos hpower]
      obtain ⟨hother, hlow, hhigh⟩ := (power_range _).mpr hphase
      exact decide_eq_true ⟨hevent, .inr ⟨hother, hlow, hhigh, hdetail⟩⟩
    | button hbutton _ hevent _ hphase hdetail =>
      rw [if_neg (by rw [hbutton]; decide), if_neg (by rw [hbutton]; decide),
        if_neg (by rw [hbutton]; decide), if_pos hbutton]
      exact decide_eq_true ⟨hevent, hphase, hdetail⟩

/-- Outside the calibrations neither an operation nor an outcome is set. -/
theorem EventGrammar.plain (h : EventGrammar e) (hkind : trackerEventIsCalibration e.kind = false) :
    e.operationId = 0 ∧ e.outcome = 0 := by
  cases h with
  | progress h | ended h | rejected h =>
    rw [hkind] at h
    cases h
  | trackerRest _ hoperation _ houtcome | fusionRest _ hoperation _ houtcome
  | wom _ hoperation _ houtcome | power _ hoperation _ houtcome | button _ hoperation _ houtcome =>
    exact ⟨hoperation, houtcome⟩

/-- **The validity test decides the grammar.** -/
theorem trackerEventValid_iff : trackerEventValid e = true ↔
    e.nonce ≠ 0 ∧ e.trackerId < 16 ∧ EventGrammar e := by
  unfold trackerEventValid
  by_cases hidentity : e.nonce = 0 ∨ e.trackerId ≥ 16
  · rw [if_pos hidentity]
    refine iff_of_false (by decide) fun ⟨hnonce, htracker, _⟩ => ?_
    rcases hidentity with h | h
    · exact hnonce h
    · exact absurd htracker (BitVec.not_lt.mpr h)
  · have hvalid : e.nonce ≠ 0 ∧ e.trackerId < 16 :=
      ⟨fun h => hidentity (.inl h), BitVec.not_le.mp fun h => hidentity (.inr h)⟩
    rw [if_neg hidentity]
    simp only [hvalid, ne_eq, not_false_eq_true, true_and]
    cases hkind : trackerEventIsCalibration e.kind with
    | true => exact calibrationValid_iff hkind
    | false =>
      rw [if_neg Bool.false_ne_true]
      by_cases hplain : e.operationId ≠ 0 ∨ e.outcome ≠ 0
      · rw [if_pos hplain]
        refine iff_of_false (by decide) fun h => ?_
        obtain ⟨hoperation, houtcome⟩ := h.plain hkind
        exact hplain.elim (fun h => h hoperation) fun h => h houtcome
      · rw [if_neg hplain]
        simp only [ne_eq, not_or, Decidable.not_not] at hplain
        exact otherValid_iff hkind hplain.1 hplain.2

/-- The event and outcome of a valid event fit in four bits each, without the top one. -/
theorem EventGrammar.nibbles (h : EventGrammar e) : e.event ≤ 7 ∧ e.outcome ≤ 5 := by
  cases h with
  | progress _ _ hevent houtcome =>
    rw [houtcome]
    rcases hevent with h | h | h <;> rw [h] <;> decide
  | ended _ _ hevent houtcome =>
    rw [hevent]
    rcases houtcome with h | h | h | h <;> rw [h] <;> decide
  | rejected _ _ hevent houtcome | trackerRest _ _ hevent houtcome
  | fusionRest _ _ hevent houtcome | wom _ _ hevent houtcome | power _ _ hevent houtcome
  | button _ _ hevent houtcome =>
    rw [hevent, houtcome]
    decide

/-! ## Fields -/

theorem get16_put16 (x : BitVec 16) :
    trackerEventGet16 (x.setWidth 8) ((x >>> 8).setWidth 8) = x := by
  apply BitVec.eq_of_getLsbD_eq
  intro i hi
  simp only [trackerEventGet16, BitVec.getLsbD_or, BitVec.getLsbD_setWidth, BitVec.getLsbD_shiftLeft,
    BitVec.getLsbD_ushiftRight, hi, decide_true, Bool.true_and]
  by_cases hlow : i < 8
  · simp [hlow]
  · have hhigh : i - 8 < 8 := by omega
    have hindex : 8 + (i - 8) = i := by omega
    simp [hlow, hhigh, hindex]
    omega

theorem put16_get16 (low high : BitVec 8) :
    trackerEventPut16 (trackerEventGet16 low high) = [low, high] := by
  have hlow : (trackerEventGet16 low high).setWidth 8 = low := by
    apply BitVec.eq_of_getLsbD_eq
    intro i hi
    simp [trackerEventGet16, hi]
  have hhigh : (trackerEventGet16 low high >>> 8).setWidth 8 = high := by
    apply BitVec.eq_of_getLsbD_eq
    intro i hi
    have hwide : 8 + i < 16 := by omega
    simp [trackerEventGet16, hi, hwide]
  rw [trackerEventPut16, hlow, hhigh]

/-- The four bytes of a 32-bit field give it back. -/
theorem get32_put32 (x : BitVec 32) :
    trackerEventGet32 ((x.setWidth 16).setWidth 8) ((x.setWidth 16 >>> 8).setWidth 8)
      (((x >>> 16).setWidth 16).setWidth 8) (((x >>> 16).setWidth 16 >>> 8).setWidth 8) = x := by
  rw [trackerEventGet32, get16_put16, get16_put16]
  apply BitVec.eq_of_getLsbD_eq
  intro i hi
  simp only [BitVec.getLsbD_or, BitVec.getLsbD_setWidth, BitVec.getLsbD_shiftLeft,
    BitVec.getLsbD_ushiftRight, hi, decide_true, Bool.true_and]
  by_cases hlow : i < 16
  · simp [hlow]
  · have hhigh : i - 16 < 16 := by omega
    have hindex : 16 + (i - 16) = i := by omega
    simp [hlow, hhigh, hindex]
    omega

theorem put32_get32 (p₀ p₁ p₂ p₃ : BitVec 8) :
    trackerEventPut32 (trackerEventGet32 p₀ p₁ p₂ p₃) = [p₀, p₁, p₂, p₃] := by
  have hlow : (trackerEventGet32 p₀ p₁ p₂ p₃).setWidth 16 = trackerEventGet16 p₀ p₁ := by
    apply BitVec.eq_of_getLsbD_eq
    intro i hi
    simp [trackerEventGet32, hi]
  have hhigh : (trackerEventGet32 p₀ p₁ p₂ p₃ >>> 16).setWidth 16 = trackerEventGet16 p₂ p₃ := by
    apply BitVec.eq_of_getLsbD_eq
    intro i hi
    have hwide : 16 + i < 32 := by omega
    simp [trackerEventGet32, hi, hwide]
  rw [trackerEventPut32, hlow, hhigh, put16_get16, put16_get16]
  rfl

/-! The event and the outcome share a byte, four bits each. -/

theorem nibbles_pack : ∀ x y : BitVec 4,
    (x.setWidth 8 ||| y.setWidth 8 <<< 4) &&& (15 : BitVec 8) = x.setWidth 8 ∧
      (x.setWidth 8 ||| y.setWidth 8 <<< 4) >>> 4 = y.setWidth 8 := by
  decide

theorem setWidth_of_le : ∀ x : BitVec 8, x ≤ 7 → (x.setWidth 4).setWidth 8 = x := by decide

theorem nibbles_unpack : ∀ p : BitVec 8, p &&& (15 : BitVec 8) ||| (p >>> 4) <<< 4 = p := by decide

/-- Neither part of the byte uses its top bit. -/
theorem nibbles_reserved : ∀ p : BitVec 8, p &&& (15 : BitVec 8) ≤ 7 → p >>> 4 ≤ 5 →
    p.getLsbD 3 = false ∧ p.getLsbD 7 = false := by
  decide

/-! ## Frames -/

/-- A packet is the list of its bytes. -/
theorem eq_map_byteAt (p : List (BitVec 8)) : p = (List.range p.length).map (byteAt p) := by
  apply List.ext_getElem
  · rw [List.length_map, List.length_range]
  · intro i hi _
    rw [List.getElem_map, List.getElem_range, byteAt, List.getD_eq_getElem?_getD,
      List.getElem?_eq_getElem hi, Option.getD_some]

/-- The fields of a frame are those of the event it was written from. -/
theorem eventFields_eventFrame (h : EventGrammar e) : eventFields (eventFrame e) = e := by
  obtain ⟨hevent, houtcome⟩ := h.nibbles
  have hsmall : e.outcome ≤ 7 := BitVec.le_trans houtcome (by decide)
  obtain ⟨hlow, hhigh⟩ := nibbles_pack (e.event.setWidth 4) (e.outcome.setWidth 4)
  rw [setWidth_of_le _ hevent, setWidth_of_le _ hsmall] at hlow hhigh
  show TrackerEvent.mk (trackerEventGet32 _ _ _ _) (trackerEventGet16 _ _) (trackerEventGet16 _ _) _ _
    ((e.event ||| e.outcome <<< 4) &&& (15 : BitVec 8)) ((e.event ||| e.outcome <<< 4) >>> 4) _ _ = e
  rw [hlow, hhigh]
  show TrackerEvent.mk (trackerEventGet32 ((e.nonce.setWidth 16).setWidth 8)
    ((e.nonce.setWidth 16 >>> 8).setWidth 8) (((e.nonce >>> 16).setWidth 16).setWidth 8)
    (((e.nonce >>> 16).setWidth 16 >>> 8).setWidth 8))
    (trackerEventGet16 (e.eventSeq.setWidth 8) ((e.eventSeq >>> 8).setWidth 8))
    (trackerEventGet16 (e.operationId.setWidth 8) ((e.operationId >>> 8).setWidth 8))
    e.trackerId e.kind e.event e.outcome e.phase e.detail = e
  rw [get32_put32, get16_put16, get16_put16]

/-- A frame with the fixed bytes in place is the one written from its fields. -/
theorem eventFrame_eventFields {p : List (BitVec 8)} (hlen : p.length = trackerEventEsbLen)
    (htype : byteAt p 0 = trackerEventEsbType) (hversion : byteAt p 2 = trackerEventVersion)
    (hmagic0 : byteAt p 15 = trackerEventMagic0) (hmagic1 : byteAt p 16 = trackerEventMagic1) :
    eventFrame (eventFields p) = p := by
  have hbytes := eq_map_byteAt p
  rw [hlen] at hbytes
  conv_rhs => rw [hbytes]
  rw [eventFrame]
  simp only [eventFields, put32_get32, put16_get16]
  rw [nibbles_unpack (byteAt p 3)]
  rw [← htype, ← hversion, ← hmagic0, ← hmagic1]
  rfl

/-- **A frame is accepted exactly if it was written from a valid event, and as that event.** -/
theorem trackerEventDecode_iff {p : List (BitVec 8)} :
    trackerEventDecode p = some e ↔ trackerEventValid e = true ∧ p = eventFrame e := by
  unfold trackerEventDecode
  constructor
  · intro h
    split at h
    case isTrue => cases h
    case isFalse hfixed =>
      simp only [not_or, ne_eq, Decidable.not_not] at hfixed
      obtain ⟨hlen, htype, hversion, hmagic0, hmagic1⟩ := hfixed
      split at h
      case isTrue hvalid =>
        obtain rfl := Option.some.inj h
        exact ⟨hvalid, (eventFrame_eventFields hlen htype hversion hmagic0 hmagic1).symm⟩
      case isFalse => cases h
  · rintro ⟨hvalid, rfl⟩
    obtain ⟨-, -, hgrammar⟩ := trackerEventValid_iff.mp hvalid
    rw [eventFields_eventFrame hgrammar, if_neg, if_pos hvalid]
    rintro (h | h | h | h | h) <;> exact h rfl

/-- The body decoder accepts a body exactly if the full decoder accepts the frame around it. -/
theorem trackerEventDecodeBody_eq (tracker : BitVec 8) (body : List (BitVec 8)) :
    trackerEventDecodeBody tracker body =
      trackerEventDecode (trackerEventEsbType :: tracker :: body) := by
  unfold trackerEventDecodeBody
  split
  case isTrue hlen =>
    unfold trackerEventDecode
    rw [if_pos]
    left
    intro h
    exact hlen (by simpa [trackerEventEsbLen, trackerEventBodyLen] using h)
  case isFalse => rfl

/-- Everything an accepted frame satisfies; a frame that misses any of it is rejected. -/
structure WellFormedFrame (p : List (BitVec 8)) : Prop where
  length_eq : p.length = trackerEventEsbLen
  type_eq : byteAt p 0 = trackerEventEsbType
  version_eq : byteAt p 2 = trackerEventVersion
  magic0_eq : byteAt p 15 = trackerEventMagic0
  magic1_eq : byteAt p 16 = trackerEventMagic1
  /-- The two bits that no event and no outcome uses. -/
  reserved : (byteAt p 3).getLsbD 3 = false ∧ (byteAt p 3).getLsbD 7 = false
  nonce_ne : (eventFields p).nonce ≠ 0
  tracker_lt : byteAt p 1 < 16
  grammar : EventGrammar (eventFields p)

/-- The frames that are accepted are the well-formed ones. -/
theorem trackerEventDecode_isSome_iff {p : List (BitVec 8)} :
    (∃ e, trackerEventDecode p = some e) ↔ WellFormedFrame p := by
  constructor
  · rintro ⟨e, h⟩
    obtain ⟨hvalid, rfl⟩ := trackerEventDecode_iff.mp h
    obtain ⟨hnonce, htracker, hgrammar⟩ := trackerEventValid_iff.mp hvalid
    have hfields := eventFields_eventFrame hgrammar
    have hlow : byteAt (eventFrame e) 3 &&& (15 : BitVec 8) = e.event :=
      congrArg TrackerEvent.event hfields
    have hhigh : byteAt (eventFrame e) 3 >>> 4 = e.outcome := congrArg TrackerEvent.outcome hfields
    obtain ⟨hevent, houtcome⟩ := hgrammar.nibbles
    exact ⟨rfl, rfl, rfl, rfl, rfl, nibbles_reserved _ (hlow ▸ hevent) (hhigh ▸ houtcome),
      by rw [hfields]; exact hnonce, htracker, by rw [hfields]; exact hgrammar⟩
  · intro h
    have hvalid : trackerEventValid (eventFields p) = true :=
      trackerEventValid_iff.mpr ⟨h.nonce_ne, h.tracker_lt, h.grammar⟩
    exact ⟨eventFields p, trackerEventDecode_iff.mpr ⟨hvalid, (eventFrame_eventFields h.length_eq
      h.type_eq h.version_eq h.magic0_eq h.magic1_eq).symm⟩⟩

/-! ## Composite packets -/

/-- The event record a scan ends with holds a body that the body decoder accepts. -/
theorem compositeScanRecords_event {tracker : BitVec 8} {data : List (BitVec 8)} {frameEnd : ℕ}
    (remaining : ℕ) {s s' : CompositeScan} (hstart : s.eventPos = 0)
    (h : compositeScanRecords tracker data frameEnd remaining s = some s') (hpos : s'.eventPos ≠ 0) :
    (trackerEventDecodeBody tracker (slice data s'.eventPos trackerEventBodyLen)).isSome = true := by
  induction remaining generalizing s with
  | zero =>
    obtain rfl := Option.some.inj h
    exact absurd hstart hpos
  | succ remaining ih =>
    rw [compositeScanRecords] at h
    split at h
    case isTrue => cases h
    case isFalse =>
      simp only [] at h
      split at h
      -- An unknown tail keeps the position, which is still 0.
      · obtain rfl := Option.some.inj h
        exact absurd hstart hpos
      case h_2 bodyLen hlen =>
        split at h
        case isTrue => cases h
        case isFalse =>
          split at h
          case isTrue htype =>
            have hbody : bodyLen = trackerEventBodyLen := by
              rw [htype] at hlen
              exact (Option.some.inj hlen).symm
            split at h
            case isTrue haccepted =>
              obtain rfl := Option.some.inj h
              rw [← hbody]
              exact haccepted.2
            case isFalse => cases h
          case isFalse => exact ih (s := { s with scan := s.scan + 1 + bodyLen }) hstart h

/-- **What a composite packet hands on is a frame the full decoder accepts**, as the event the body
decoder found in it. -/
theorem compositeEventPacket_accepted {storedTrackers : ℕ} {data frame : List (BitVec 8)}
    (h : compositeEventPacket storedTrackers data = some frame) : ∃ e pos,
      trackerEventDecodeBody (byteAt data 1) (slice data pos trackerEventBodyLen) = some e ∧
      trackerEventDecode frame = some e := by
  unfold compositeEventPacket at h
  simp only [] at h
  split at h
  case isTrue => cases h
  case isFalse =>
    split at h
    case isTrue => cases h
    case isFalse =>
      split at h
      case isTrue => cases h
      case isFalse =>
        obtain ⟨s, hscan, hframe⟩ := Option.bind_eq_some_iff.mp h
        split at hframe
        case isTrue => cases hframe
        case isFalse =>
          split at hframe
          case isTrue => cases hframe
          case isFalse hpos =>
            obtain rfl := Option.some.inj hframe
            obtain ⟨e, he⟩ := Option.isSome_iff_exists.mp
              (compositeScanRecords_event _ (s := ⟨3, 0, false⟩) rfl hscan hpos)
            refine ⟨e, s.eventPos, he, ?_⟩
            rw [← trackerEventDecodeBody_eq]
            exact he

/-! ## The codec -/

/-- **The event codec is a bijection** between the valid events and the well-formed frames: decoding
an encoded event gives the event, encoding a decoded frame gives the frame, and every frame with a
wrong length, fixed byte, reserved bit, nonce, tracker or combination of fields is rejected. The body
decoder accepts the same events as the full decoder, also within a composite packet. -/
theorem tracker_event_codec :
    (∀ e, trackerEventValid e = true →
      ∃ frame, trackerEventEncode e = some frame ∧ trackerEventDecode frame = some e) ∧
    (∀ frame e, trackerEventDecode frame = some e → trackerEventEncode e = some frame) ∧
    (∀ frame, ¬WellFormedFrame frame → trackerEventDecode frame = none) ∧
    (∀ tracker body e, trackerEventDecodeBody tracker body = some e ↔
      trackerEventDecode (trackerEventEsbType :: tracker :: body) = some e) ∧
    (∀ frame e, trackerEventDecode frame = some e →
      trackerEventDecodeBody e.trackerId (frame.drop 2) = some e) ∧
    ∀ storedTrackers data frame, compositeEventPacket storedTrackers data = some frame → ∃ e pos,
      trackerEventDecodeBody (byteAt data 1) (slice data pos trackerEventBodyLen) = some e ∧
      trackerEventDecode frame = some e := by
  refine ⟨?_, ?_, ?_, ?_, ?_, fun _ _ _ => compositeEventPacket_accepted⟩
  · intro e hvalid
    exact ⟨eventFrame e, if_pos hvalid, trackerEventDecode_iff.mpr ⟨hvalid, rfl⟩⟩
  · intro frame e h
    obtain ⟨hvalid, rfl⟩ := trackerEventDecode_iff.mp h
    exact if_pos hvalid
  · intro frame hbad
    by_contra hsome
    exact hbad (trackerEventDecode_isSome_iff.mp (Option.ne_none_iff_exists'.mp hsome))
  · intro tracker body e
    rw [trackerEventDecodeBody_eq]
  · intro frame e h
    obtain ⟨-, hframe⟩ := trackerEventDecode_iff.mp h
    have hsplit : frame = trackerEventEsbType :: e.trackerId :: frame.drop 2 := by
      rw [hframe]
      rfl
    rw [trackerEventDecodeBody_eq, ← hsplit]
    exact h

end SlimeReceiver.Events
