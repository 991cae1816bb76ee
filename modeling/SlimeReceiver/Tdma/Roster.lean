import SlimeReceiver.Tdma.Shadow

/-! # Roster administration

`tracker_slot_reset` and the operations that change the stored roster: `esb_add_pair`,
`esb_pop_pair`, `esb_clear` and `tracker_store_restore`. They hold `tracker_store_lock`; removing
a tracker ends in a forced `tdma_recalculate`, which `storeTask` records as still to come.

* **`trackerSlotReset`** — a slot is a new session.
* **`esbAddPair`**, **`esbPopPair`**, **`esbClear`**, **`trackerStoreRestore`** — the operations.
* **`esbAddPair_cases`** and its siblings — the state is untouched or changed in one way. -/

namespace SlimeReceiver

open Function (update)

/-! ## Validity of a roster -/

/-- `tracker_roster_address_valid`. -/
def trackerRosterAddressValid (address : ℕ) : Bool := address != 0 && decide (address < 0xffffffffffff)

/-- `roster_valid`: the first `count` addresses are valid and distinct. -/
def rosterValid (count : ℕ) (addresses : ℕ → ℕ) : Bool :=
  decide (count ≤ maxTrackers) &&
    (List.range count).all fun i =>
      trackerRosterAddressValid (addresses i) &&
        (List.range i).all fun j => addresses i != addresses j

/-- Why a roster operation fails. -/
inductive StoreError
  /-- `-EINVAL`. -/
  | invalid
  /-- `-EIO`: the roster was never restored. -/
  | notReady
  /-- `-ENOSPC`. -/
  | full
  /-- The error of the storage write. -/
  | write
  deriving DecidableEq, Repr

/-- `tracker_roster_save`, given whether the storage write succeeds. -/
def trackerRosterSave (count : ℕ) (addresses : ℕ → ℕ) (written : Bool) : Except StoreError Unit :=
  if !rosterValid count addresses then .error .invalid
  else if !written then .error .write
  else .ok ()

namespace Tdma

/-! ## Slot reset -/

/-- `tracker_slot_reset`, as far as the scheduler is concerned: the slot record is zeroed, the
evidence forgotten and the loss evidence invalidated. -/
def trackerSlotReset (id : ℕ) (t : Tdma) : Tdma :=
  tdmaShadowForgetTracker id { t with
    layout := { t.layout with tdmaConfigPacked := update t.layout.tdmaConfigPacked id 0 }
    loss := { t.loss with
      tdmaPrevRecv := update t.loss.tdmaPrevRecv id 0
      tdmaPrevGaps := update t.loss.tdmaPrevGaps id 0
      tdmaPrevRestarts := update t.loss.tdmaPrevRestarts id 0
      rxDiscontinuityPending := true } }

/-! ## The operations -/

/-- `esb_add_pair`: the assigned id, or why there is none. -/
def esbAddPair (addr : ℕ) (written : Bool) (t : Tdma) : Except StoreError ℕ × Tdma :=
  if !trackerRosterAddressValid addr then (.error .invalid, t)
  else if !t.roster.storeReady then (.error .notReady, t)
  else
    match (List.range t.roster.storedTrackers).find? fun i => t.roster.storedTrackerAddr i == addr with
    | some assignedId => (.ok assignedId, t)
    | none =>
      if hroom : t.roster.storedTrackers < maxTrackers then
        let assignedId := t.roster.storedTrackers
        let addresses := update t.roster.storedTrackerAddr assignedId addr
        match trackerRosterSave (assignedId + 1) addresses written with
        | .error err => (.error err, t)
        | .ok () =>
          (.ok assignedId, { t.trackerSlotReset assignedId with
            roster := { t.roster with
              storedTrackers := assignedId + 1
              storedTrackerAddr := addresses
              stored_le := hroom } })
      else (.error .full, t)

/-- The roster without its last tracker. -/
def withoutLast (t : Tdma) : TrackerRoster :=
  { t.roster with
    storedTrackers := t.roster.storedTrackers - 1
    storedTrackerAddr := update t.roster.storedTrackerAddr (t.roster.storedTrackers - 1) 0
    stored_le := (Nat.sub_le _ _).trans t.roster.stored_le }

/-- `esb_pop_pair`, up to its forced `tdma_recalculate`. -/
def esbPopPair (written : Bool) (t : Tdma) : Except StoreError Unit × Tdma :=
  if !t.roster.storeReady then (.error .notReady, t)
  else if t.roster.storedTrackers = 0 then (.ok (), t)
  else
    let removedId := t.roster.storedTrackers - 1
    match trackerRosterSave removedId (update t.roster.storedTrackerAddr removedId 0) written with
    | .error err => (.error err, t)
    | .ok () =>
      (.ok (), { trackerSlotReset removedId { t with roster := t.withoutLast } with
        storeTask := .recalculate true false })

/-- All slots reset and the roster empty: what `esb_clear` does in its critical section. -/
def cleared (t : Tdma) : Tdma :=
  let reset := forBelow maxTrackers (fun t id => t.trackerSlotReset id) { t with
    roster := { t.roster with
      storedTrackers := 0
      storedTrackerAddr := fun _ => 0
      stored_le := Nat.zero_le _ } }
  { reset with
    shadow := { reset.shadow with desiredChangedAtMs := 0 }
    roster := { reset.roster with storeReady := true } }

/-- `esb_clear`, up to its forced `tdma_recalculate`. -/
def esbClear (written : Bool) (t : Tdma) : Except StoreError Unit × Tdma :=
  match trackerRosterSave 0 (fun _ => 0) written with
  | .error err => (.error err, t)
  | .ok () => (.ok (), { t.cleared with storeTask := .recalculate true false })

/-- `tracker_store_restore` with the roster found in storage. -/
def trackerStoreRestore (count : ℕ) (addresses : ℕ → ℕ) (t : Tdma) : Tdma :=
  if t.roster.storeReady then t
  else if hcount : count ≤ maxTrackers then
    { t with roster :=
      { storedTrackers := count
        storedTrackerAddr := addresses
        storeReady := true
        stored_le := hcount } }
  else t

/-! ## What the operations change -/

section SlotReset

variable (id : ℕ) (t : Tdma)

@[simp] theorem trackerSlotReset_uptime : (t.trackerSlotReset id).uptime = t.uptime := by
  rw [trackerSlotReset, tdmaShadowForgetTracker_eq]

@[simp] theorem trackerSlotReset_roster : (t.trackerSlotReset id).roster = t.roster := by
  rw [trackerSlotReset, tdmaShadowForgetTracker_eq]

@[simp] theorem trackerSlotReset_storeTask :
    (t.trackerSlotReset id).storeTask = t.storeTask := by
  rw [trackerSlotReset, tdmaShadowForgetTracker_eq]

/-- A slot reset zeroes one slot word and leaves the rest of the layout. -/
@[simp] theorem trackerSlotReset_layout : (t.trackerSlotReset id).layout =
    { t.layout with tdmaConfigPacked := update t.layout.tdmaConfigPacked id 0 } := by
  rw [trackerSlotReset, tdmaShadowForgetTracker_eq]

/-- A slot reset leaves the level and the windows of the loss controller. -/
@[simp] theorem trackerSlotReset_loss : (t.trackerSlotReset id).loss = { t.loss with
    tdmaPrevRecv := update t.loss.tdmaPrevRecv id 0
    tdmaPrevGaps := update t.loss.tdmaPrevGaps id 0
    tdmaPrevRestarts := update t.loss.tdmaPrevRestarts id 0
    rxDiscontinuityPending := true } := by
  rw [trackerSlotReset, tdmaShadowForgetTracker_eq]

/-- A slot reset forgets the tracker. -/
theorem trackerSlotReset_shadow {id : ℕ} (hid : id < maxTrackers) (t : Tdma) :
    (t.trackerSlotReset id).shadow = { t.shadow with
      lastSeenMs := update t.shadow.lastSeenMs id 0
      everPingMask := clearBit t.shadow.everPingMask id
      everDataMask := clearBit t.shadow.everDataMask id
      liveEvidenceMask := clearBit t.shadow.liveEvidenceMask id
      desiredMask := clearBit t.shadow.desiredMask id
      pendingJoinMask := clearBit t.shadow.pendingJoinMask id
      pendingLeaveMask := clearBit t.shadow.pendingLeaveMask id
      membershipDeadlineArmed :=
        if clearBit t.shadow.desiredMask id = t.layout.activeMask ∧
            clearBit t.shadow.pendingJoinMask id = 0#32 then false
        else t.shadow.membershipDeadlineArmed } := by
  rw [trackerSlotReset, tdmaShadowForgetTracker_shadow hid]

end SlotReset

theorem cleared_uptime (t : Tdma) : t.cleared.uptime = t.uptime := by
  refine forBelow_frame Tdma.uptime (n := maxTrackers) (fun s i _ => ?_) _
  exact trackerSlotReset_uptime i s

/-- Adding a pair changes nothing, or resets the next slot and stores the address there. -/
theorem esbAddPair_cases (addr : ℕ) (written : Bool) (t : Tdma) :
    (t.esbAddPair addr written).2 = t ∨
      t.roster.storeReady = true ∧
      ∃ hroom : t.roster.storedTrackers < maxTrackers, (t.esbAddPair addr written).2 =
        { t.trackerSlotReset t.roster.storedTrackers with
          roster := { t.roster with
            storedTrackers := t.roster.storedTrackers + 1
            storedTrackerAddr := update t.roster.storedTrackerAddr t.roster.storedTrackers addr
            stored_le := hroom } } := by
  unfold esbAddPair
  split
  · exact .inl rfl
  split
  · exact .inl rfl
  rename_i hready
  split
  · exact .inl rfl
  split
  case isTrue hroom =>
    simp only []
    split
    · exact .inl rfl
    · exact .inr ⟨by simpa using hready, hroom, rfl⟩
  case isFalse => exact .inl rfl

/-- Removing a pair changes nothing, or removes the last tracker and leaves the forced
recalculation to do. -/
theorem esbPopPair_cases (written : Bool) (t : Tdma) :
    (t.esbPopPair written).2 = t ∨
      t.roster.storedTrackers ≠ 0 ∧ (t.esbPopPair written).2 =
        { trackerSlotReset (t.roster.storedTrackers - 1) { t with roster := t.withoutLast } with
          storeTask := .recalculate true false } := by
  unfold esbPopPair
  split
  · exact .inl rfl
  split
  · exact .inl rfl
  rename_i hnonempty
  simp only []
  split
  · exact .inl rfl
  · exact .inr ⟨hnonempty, rfl⟩

/-- Clearing changes nothing, or empties the roster and leaves the forced recalculation to do. -/
theorem esbClear_cases (written : Bool) (t : Tdma) :
    (t.esbClear written).2 = t ∨
      (t.esbClear written).2 = { t.cleared with storeTask := .recalculate true false } := by
  unfold esbClear
  split
  · exact .inl rfl
  · exact .inr rfl

end Tdma

end SlimeReceiver
