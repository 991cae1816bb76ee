import Mathlib.Data.List.DropRight
import SlimeReceiver.Receiver.RemoteCommands

/-! # Slot resets revoke remote commands

* **`occupancy`** — what has happened since the last reset of a slot.
* **`RevocationLaw`** — a reset leaves nothing pending, and a command is published only if it was requested after the
  last reset of its slot or its selection saw a packet of the occupant.
* **`ResetsUnheld`** — no slot is reset under a call that is bound to it.
* **`RevocationInvariant`** — what each call, the layout and the slots rely on.
* **`slot_reset_revokes`** — under this condition the law holds of every run. -/

namespace SlimeReceiver

open Function (update update_self update_of_ne)

namespace Revocation

/-! ## The law -/

/-- What has happened since the last reset of a slot. -/
def occupancy (id : ℕ) (trace : List RevocationEvent) : List RevocationEvent :=
  trace.rtakeWhile (· != .reset id)

/-- The caller was asked for its command since the last reset of the slot, or has selected it there after a packet. -/
def Chosen (caller : Option ℕ) (id : ℕ) (trace : List RevocationEvent) : Prop :=
  (∃ k, caller = some k ∧ .requested k ∈ occupancy id trace) ∨
    [.packet id, .selected caller id].Sublist (occupancy id trace)

/-- A published command was chosen for the occupant of the slot. -/
def Justified (earlier : List RevocationEvent) : RevocationEvent → Prop
  | .published caller id _ => Chosen caller id earlier
  | _ => True

/-- The pending command of a slot after an event. -/
def follow (id : ℕ) (pending : BitVec 8) : RevocationEvent → BitVec 8
  | .reset id' | .withdrawn id' => if id' = id then pongFlagNormal else pending
  | .published _ id' value => if id' = id then value else pending
  | _ => pending

/-- A reset leaves nothing pending until something is published to the slot, and what is published was chosen for its
occupant. -/
structure RevocationLaw (trace : List RevocationEvent) (s : RevocationState) : Prop where
  revoked : ∀ id earlier later, trace = earlier ++ RevocationEvent.reset id :: later →
    (∀ caller value, .published caller id value ∉ later) → (s.slots id).trackerRemoteCommand = pongFlagNormal
  justified : EachAfter Justified trace

/-- The command the history leaves pending. -/
def pendingCommand (id : ℕ) (trace : List RevocationEvent) : BitVec 8 := trace.foldl (follow id) pongFlagNormal

/-! ## The condition -/

/-- The call will write the slot whoever occupies it: its command is for this id, or it has selected it. A WOM command
for one tracker looks whether it is stored, so only a new tracker gets it; a superseded test command writes
nothing. -/
def Place.bound (generation : BitVec 32) (adding : Bool) (id : ℕ) : Place → Bool
  | .calling (.flag id' _) _ | .calling (.sens id') _ | .calling (.test id' _) _ => id' == id
  | .calling (.wom id' _) _ => adding && id' == id
  | .flagging _ ids => ids.contains id
  | .testPublishing _ gen ids => gen == generation && ids.contains id
  | _ => false

/-- The token of an all-target test command that is about to publish. -/
def Place.token : Place → Option (BitVec 32)
  | .testPublishing _ gen _ => some gen
  | _ => none

/-- The step takes a new generation. -/
def bumps (s : RevocationState) : RevocationOp → Bool
  | .clear written => clears written
  | .call k =>
    match s.calls k with
    | .calling (.test _ _) _ | .testCounting _ => true
    | _ => false
  | _ => false

/-- The generation after a step. -/
def generationAfter (s : RevocationState) (op : RevocationOp) : BitVec 32 :=
  if bumps s op then s.testAllGeneration + 1 else s.testAllGeneration

def RevocationOp.adding : RevocationOp → Bool
  | .addPair _ _ => true
  | _ => false

/-- The request is for all active trackers. -/
def RevocationOp.forAll : RevocationOp → Bool
  | .request c => c.all
  | _ => false

/-- No call is bound to a slot that is reset, no generation comes back while its owner is about to publish, and
all-target commands come after the first millisecond. -/
structure ResetsUnheld (s : RevocationState) (op : RevocationOp) : Prop where
  unbound : ∀ id ∈ resetIds s op, ∀ k < s.next, (s.calls k).bound (generationAfter s op) op.adding id = false
  fresh : bumps s op = true → ∀ k < s.next, (s.calls k).token ≠ some (s.testAllGeneration + 1)
  started : op.forAll = true → 0 < s.uptime

theorem resetsUnheld_iff {s : RevocationState} {op : RevocationOp} : ResetsUnheld s op ↔
    (∀ id ∈ resetIds s op, ∀ k < s.next, (s.calls k).bound (generationAfter s op) op.adding id = false) ∧
      (bumps s op = true → ∀ k < s.next, (s.calls k).token ≠ some (s.testAllGeneration + 1)) ∧
      (op.forAll = true → 0 < s.uptime) :=
  ⟨fun h => ⟨h.unbound, h.fresh, h.started⟩, fun h => ⟨h.1, h.2.1, h.2.2⟩⟩

instance (s : RevocationState) (op : RevocationOp) : Decidable (ResetsUnheld s op) :=
  decidable_of_iff' _ resetsUnheld_iff

/-! ## The invariant -/

/-- What a call relies on. -/
def Placed (trace : List RevocationEvent) (s : RevocationState) (k : ℕ) : Place → Prop
  | .calling (.flag id _) _ | .calling (.sens id) _ | .calling (.test id _) _ => .requested k ∈ occupancy id trace
  | .calling (.wom id _) _ => id < s.roster.storedTrackers → .requested k ∈ occupancy id trace
  | .calling (.sensAuto _) _ => True
  | .calling (.testAll _) _ | .testGuarding _ | .testCounting _ | .testStarting _ _ => 0 < s.uptime
  | .calling _ start | .testScanning _ _ start => 0 < start
  | .flagging _ ids => ∀ id ∈ ids, Chosen (some k) id trace
  | .testPublishing _ gen ids => gen = s.testAllGeneration → ∀ id ∈ ids, Chosen (some k) id trace
  | _ => True

/-- The slot has heard its occupant. -/
def SlotState.heard (slot : SlotState) : Prop := 0 < slot.lastPacketTime ∨ slot.evidence = true

/-- The pending commands, the calls and the layout, told from the history. -/
structure RevocationInvariant (trace : List RevocationEvent) (s : RevocationState) : Prop where
  command : ∀ id, (s.slots id).trackerRemoteCommand = pendingCommand id trace
  justified : EachAfter Justified trace
  heard : ∀ id, (s.slots id).heard → .packet id ∈ occupancy id trace
  unborn : ∀ k, s.next ≤ k → s.calls k = .idle
  placed : ∀ k, Placed trace s k (s.calls k)
  layout : s.storeWork ≠ .recalculate → ∀ id < maxTrackers, hasBit s.tdmaActiveMask id = true →
    id < s.roster.storedTrackers ∧ Chosen none id trace

section Occupancy

variable {id : ℕ} {trace es : List RevocationEvent} {caller : Option ℕ}

theorem occupancy_append (hes : .reset id ∉ es) : occupancy id (trace ++ es) = occupancy id trace ++ es := by
  induction es using List.reverseRecOn with
  | nil => rw [List.append_nil, List.append_nil]
  | append_singleton es e ih =>
    have hlast : e ≠ .reset id := by
      rintro rfl
      exact hes (by simp)
    have hinit : .reset id ∉ es := fun hmem => hes (List.mem_append_left _ hmem)
    rw [← List.append_assoc, occupancy, List.rtakeWhile_concat_pos _ _ _ (by simpa using hlast),
      ← List.append_assoc, ← ih hinit, occupancy]

theorem mem_occupancy_append {e : RevocationEvent} (h : e ∈ occupancy id trace) (hes : .reset id ∉ es) :
    e ∈ occupancy id (trace ++ es) := by
  rw [occupancy_append hes]
  exact List.mem_append_left _ h

theorem mem_occupancy_of_mem {e : RevocationEvent} (h : e ∈ es) (hes : .reset id ∉ es) :
    e ∈ occupancy id (trace ++ es) := by
  rw [occupancy_append hes]
  exact List.mem_append_right _ h

theorem Chosen.append (h : Chosen caller id trace) (hes : .reset id ∉ es) : Chosen caller id (trace ++ es) := by
  rcases h with ⟨k, hk, hrequested⟩ | hselected
  · exact .inl ⟨k, hk, mem_occupancy_append hrequested hes⟩
  · refine .inr ?_
    rw [occupancy_append hes]
    exact hselected.trans (List.sublist_append_left _ _)

/-- A selection after a packet. -/
theorem chosen_of_selected (hheard : .packet id ∈ occupancy id trace) (hselected : .selected caller id ∈ es)
    (hes : .reset id ∉ es) : Chosen caller id (trace ++ es) := by
  refine .inr ?_
  rw [occupancy_append hes]
  exact (List.singleton_sublist.mpr hheard).append (List.singleton_sublist.mpr hselected)

theorem chosen_of_requested {k : ℕ} (h : .requested k ∈ occupancy id trace) : Chosen (some k) id trace :=
  .inl ⟨k, rfl, h⟩

end Occupancy

/-! ### Steps that reset no slot -/

section Steps

variable {trace es : List RevocationEvent} {s s' : RevocationState} {k : ℕ} {place : Place}

/-- What a call relies on survives a step that does not reset the slots it is bound to. -/
theorem Placed.step (es : List RevocationEvent) (adding : Bool) (h : Placed trace s k place)
    (huptime : s.uptime ≤ s'.uptime)
    (hfresh : s'.testAllGeneration = s.testAllGeneration ∨ place.token ≠ some s'.testAllGeneration)
    (hbound : ∀ id, .reset id ∈ es → place.bound s'.testAllGeneration adding id = false)
    (hgone : adding = false → ∀ id, .reset id ∈ es → s'.roster.storedTrackers ≤ id)
    (hstored : ∀ id < s'.roster.storedTrackers, .reset id ∉ es → id < s.roster.storedTrackers) :
    Placed (trace ++ es) s' k place := by
  cases place with
  | calling c start =>
    cases c with
    | flag id value | sens id | test id on =>
      refine mem_occupancy_append h fun hreset => ?_
      simpa [Place.bound] using hbound id hreset
    | wom id minutes =>
      intro hid
      have hkept : .reset id ∉ es := by
        intro hreset
        cases adding with
        | false => exact absurd hid (not_lt.mpr (hgone rfl id hreset))
        | true => simpa [Place.bound] using hbound id hreset
      exact mem_occupancy_append (h (hstored id hid hkept)) hkept
    | sensAuto id => trivial
    | testAll on => exact lt_of_lt_of_le h huptime
    | flagAll value | sensAutoAll | womAll minutes => exact h
  | testGuarding on | testCounting on | testStarting on gen => exact lt_of_lt_of_le h huptime
  | testScanning on gen start => exact h
  | flagging value ids =>
    intro id hid
    refine (h id hid).append fun hreset => ?_
    simpa [Place.bound, hid] using hbound id hreset
  | testPublishing on gen ids =>
    intro hgen id hid
    have hold : gen = s.testAllGeneration := by
      rcases hfresh with hsame | hother
      · rw [hgen, hsame]
      · exact absurd (congrArg some hgen) hother
    refine (h hold id hid).append fun hreset => ?_
    simpa [Place.bound, hid, hgen] using hbound id hreset
  | idle | testAborting | testUnlocking => trivial

/-- What a call relies on besides the history. -/
theorem Placed.congr (huptime : s'.uptime = s.uptime) (hroster : s'.roster = s.roster)
    (hgen : s'.testAllGeneration = s.testAllGeneration) (h : Placed trace s k place) : Placed trace s' k place := by
  have hstep : Placed (trace ++ []) s' k place :=
    h.step [] false (Nat.le_of_eq huptime.symm) (.inl hgen) (by simp) (by simp) (by simp [hroster])
  rwa [List.append_nil] at hstep

namespace RevocationInvariant

/-- A step that resets no slot and reports what it does to the slots. -/
theorem report (hi : RevocationInvariant trace s) {slots : ℕ → SlotState} (hes : ∀ id, .reset id ∉ es)
    (hjustified : EachAfter Justified (trace ++ es))
    (hcommand : ∀ id, (slots id).trackerRemoteCommand = es.foldl (follow id) (s.slots id).trackerRemoteCommand)
    (hheard : ∀ id, (slots id).heard → (s.slots id).heard ∨ .packet id ∈ es) :
    RevocationInvariant (trace ++ es) { s with slots } where
  command id := by rw [hcommand, hi.command, pendingCommand, pendingCommand, List.foldl_append]
  justified := hjustified
  heard id hid := by
    rcases hheard id hid with hold | hnew
    · exact mem_occupancy_append (hi.heard id hold) (hes id)
    · exact mem_occupancy_of_mem hnew (hes id)
  unborn := hi.unborn
  placed k := (hi.placed k).step es false (Nat.le_refl _) (.inl rfl) (fun id hreset => absurd hreset (hes id))
    (fun _ id hreset => absurd hreset (hes id)) (fun _ hid _ => hid)
  layout hwork id hid hmem :=
    ⟨(hi.layout hwork id hid hmem).1, (hi.layout hwork id hid hmem).2.append (hes id)⟩

/-- The target selection of a caller. -/
theorem selected (hi : RevocationInvariant trace s) (caller : Option ℕ) (ids : List ℕ) :
    RevocationInvariant (trace ++ ids.map (.selected caller)) s := by
  refine hi.report (by simp) (hi.justified.append fun earlier e he => ?_) (fun id => ?_) fun id hid => .inl hid
  · obtain ⟨id, -, rfl⟩ := List.mem_map.mp he
    trivial
  · refine (foldl_eq_self (fun e he v => ?_) _).symm
    obtain ⟨id', -, rfl⟩ := List.mem_map.mp he
    rfl

theorem follow_published (caller : Option ℕ) (ids : List ℕ) (id : ℕ) (value pending : BitVec 8) :
    (ids.map (.published caller · value)).foldl (follow id) pending = if id ∈ ids then value else pending := by
  induction ids generalizing pending with
  | nil => rfl
  | cons id' ids ih =>
    rw [List.map_cons, List.foldl_cons, ih, follow]
    by_cases heq : id' = id
    · simp [heq]
    · simp [heq, Ne.symm heq]

theorem justified_published {caller : Option ℕ} {ids : List ℕ} {value : BitVec 8} (h : EachAfter Justified trace)
    (hids : ∀ id ∈ ids, Chosen caller id trace) :
    EachAfter Justified (trace ++ ids.map (.published caller · value)) := by
  induction ids generalizing trace with
  | nil => simpa using h
  | cons id ids ih =>
    rw [List.map_cons, ← List.singleton_append, ← List.append_assoc]
    refine ih (eachAfter_snoc.mpr ⟨h, hids id List.mem_cons_self⟩) fun id' hid' => ?_
    exact (hids id' (List.mem_cons_of_mem _ hid')).append (by simp)

/-- A caller publishes to slots it was chosen for. -/
theorem issued (hi : RevocationInvariant trace s) (caller : Option ℕ) (ids : List ℕ) (value : BitVec 8)
    (hids : ∀ id ∈ ids, Chosen caller id trace) :
    RevocationInvariant (trace ++ (issue caller ids value s).2) (issue caller ids value s).1 := by
  refine hi.report (by simp [issue]) (justified_published hi.justified hids) (fun id => ?_) fun id hid => .inl ?_
  · rw [issue, follow_published]
    split <;> rfl
  · dsimp only at hid
    split at hid
    all_goals exact hid

/-- A call goes on at another place. -/
theorem withPlace (hi : RevocationInvariant trace s) (place : Place) (hk : k < s.next)
    (hplace : Placed trace s k place) : RevocationInvariant trace (s.withPlace k place) :=
  { hi with
    unborn := fun k' hk' => by
      have hne : k' ≠ k := fun heq => absurd hk (by rw [← heq]; exact not_lt.mpr hk')
      exact (update_of_ne hne _ _).trans (hi.unborn k' hk')
    placed := fun k' => by
      refine Placed.congr rfl rfl rfl ?_
      change Placed trace s k' (update s.calls k place k')
      by_cases heq : k' = k
      · subst heq
        rw [update_self]
        exact hplace
      · rw [update_of_ne heq]
        exact hi.placed k' }

/-- The variables of the sticky policy and the mutexes. -/
theorem policy (hi : RevocationInvariant trace s) (huptime : s'.uptime = s.uptime) (hroster : s'.roster = s.roster)
    (hgen : s'.testAllGeneration = s.testAllGeneration) (hslots : s'.slots = s.slots)
    (hmask : s'.tdmaActiveMask = s.tdmaActiveMask)
    (hwork : s'.storeWork ≠ .recalculate → s.storeWork ≠ .recalculate) (hnext : s'.next = s.next)
    (hcalls : s'.calls = s.calls) : RevocationInvariant trace s' where
  command id := by rw [hslots, hi.command]
  justified := hi.justified
  heard id := by
    rw [hslots]
    exact hi.heard id
  unborn k := by
    rw [hnext, hcalls]
    exact hi.unborn k
  placed k := by
    rw [hcalls]
    exact (hi.placed k).congr huptime hroster hgen
  layout h := by
    rw [hmask, hroster]
    exact hi.layout (hwork h)

/-- A call number that is not given away yet is nowhere. -/
theorem forall_place (hi : RevocationInvariant trace s) {P : Place → Prop} (hidle : P .idle)
    (h : ∀ k < s.next, P (s.calls k)) (k : ℕ) : P (s.calls k) := by
  by_cases hk : k < s.next
  · exact h k hk
  · rw [hi.unborn k (not_lt.mp hk)]
    exact hidle

theorem elapsed (hi : RevocationInvariant trace s) (ms : ℕ) :
    RevocationInvariant trace { s with uptime := s.uptime + ms } :=
  { hi with
    placed := fun k => by
      have hstep : Placed (trace ++ []) { s with uptime := s.uptime + ms } k (s.calls k) :=
        (hi.placed k).step [] false (Nat.le_add_right _ _) (.inl rfl) (by simp) (by simp) (by simp)
      rwa [List.append_nil] at hstep }

theorem bumped (hi : RevocationInvariant trace s)
    (hfresh : ∀ k < s.next, (s.calls k).token ≠ some (s.testAllGeneration + 1)) :
    RevocationInvariant trace s.bump :=
  { hi with
    placed := fun k => by
      have hother : (s.calls k).token ≠ some (s.testAllGeneration + 1) :=
        hi.forall_place (P := fun place => place.token ≠ some (s.testAllGeneration + 1)) nofun hfresh k
      have hstep : Placed (trace ++ []) s.bump k (s.calls k) :=
        (hi.placed k).step [] false (Nat.le_refl _) (.inr hother) (by simp) (by simp) fun _ hid _ => hid
      rwa [List.append_nil] at hstep }

/-- A new call. -/
theorem asked (hi : RevocationInvariant trace s) (c : Command) (hc : c.all = true → 0 < s.uptime) :
    RevocationInvariant (trace ++ [RevocationEvent.requested s.next])
      ({ s with next := s.next + 1 }.withPlace s.next (.calling c s.uptime)) := by
  have hreported : RevocationInvariant (trace ++ [RevocationEvent.requested s.next]) s :=
    hi.report (by simp) (eachAfter_snoc.mpr ⟨hi.justified, trivial⟩) (fun id => rfl) fun id hid => .inl hid
  have hnumbered : RevocationInvariant (trace ++ [RevocationEvent.requested s.next]) { s with next := s.next + 1 } :=
    { hreported with unborn := fun k hk => hreported.unborn k (Nat.le_of_succ_le hk) }
  refine hnumbered.withPlace _ (Nat.lt_succ_self _) ?_
  have hrequested : ∀ id, .requested s.next ∈ occupancy id (trace ++ [RevocationEvent.requested s.next]) :=
    fun id => mem_occupancy_of_mem List.mem_cons_self (by simp)
  cases c with
  | flag id value | sens id | test id on => exact hrequested id
  | wom id minutes => exact fun _ => hrequested id
  | sensAuto id => trivial
  | flagAll value | sensAutoAll | testAll on | womAll minutes => exact hc rfl

/-- The packets of a tracker. -/
theorem received (hi : RevocationInvariant trace s) (id : ℕ) {slot : SlotState}
    (hcommand : slot.trackerRemoteCommand = (s.slots id).trackerRemoteCommand) :
    RevocationInvariant (trace ++ [RevocationEvent.packet id]) (s.withSlot id slot) := by
  refine hi.report (by simp) (eachAfter_snoc.mpr ⟨hi.justified, trivial⟩) (fun id' => ?_) fun id' hid' => ?_
  · change (update s.slots id slot id').trackerRemoteCommand = (s.slots id').trackerRemoteCommand
    by_cases heq : id' = id
    · rw [heq, update_self, hcommand]
    · rw [update_of_ne heq]
  · by_cases heq : id' = id
    · exact .inr (by simp [heq])
    · exact .inl (by rwa [update_of_ne heq] at hid')

theorem withdrew (hi : RevocationInvariant trace s) (id : ℕ) :
    RevocationInvariant (trace ++ [RevocationEvent.withdrawn id])
      (s.withSlot id { s.slots id with trackerRemoteCommand := pongFlagNormal }) := by
  refine hi.report (by simp) (eachAfter_snoc.mpr ⟨hi.justified, trivial⟩) (fun id' => ?_) fun id' hid' => .inl ?_
  · by_cases heq : id' = id
    · simp [heq, follow]
    · simp [update_of_ne heq, follow, Ne.symm heq]
  · by_cases heq : id' = id
    · rw [heq] at hid' ⊢
      rwa [update_self] at hid'
    · rwa [update_of_ne heq] at hid'

/-- New graces leave the commands alone. -/
theorem graced (hi : RevocationInvariant trace s) (ready : ℕ → BitVec 32) :
    RevocationInvariant trace
      { s with slots := fun id => { s.slots id with testAllReadyAfterMs := ready id } } :=
  { hi with placed := fun k => (hi.placed k).congr rfl rfl rfl }

end RevocationInvariant

end Steps

/-! ### Slot resets -/

section Resets

variable {trace : List RevocationEvent} {s s' : RevocationState} {es : List RevocationEvent}

theorem trackerSlotReset_slots (ids : List ℕ) (id : ℕ) :
    (s.trackerSlotReset ids).slots id = if id ∈ ids then .zero else s.slots id := rfl

theorem follow_reset (ids : List ℕ) (id : ℕ) (pending : BitVec 8) :
    (ids.map RevocationEvent.reset).foldl (follow id) pending = if id ∈ ids then pongFlagNormal else pending := by
  induction ids generalizing pending with
  | nil => rfl
  | cons id' ids ih =>
    rw [List.map_cons, List.foldl_cons, ih, follow]
    by_cases heq : id' = id
    · simp [heq]
    · simp [heq, Ne.symm heq]

theorem reset_mem_map {id : ℕ} {ids : List ℕ} : .reset id ∈ ids.map RevocationEvent.reset ↔ id ∈ ids := by
  simp

/-- Slots that no call is bound to are reset. -/
theorem RevocationInvariant.resets (hi : RevocationInvariant trace s) (ids : List ℕ) (adding : Bool)
    (hslots : s'.slots = (s.trackerSlotReset ids).slots) (huptime : s'.uptime = s.uptime)
    (hnext : s'.next = s.next) (hcalls : s'.calls = s.calls)
    (hfresh : ∀ k, s'.testAllGeneration = s.testAllGeneration ∨ (s.calls k).token ≠ some s'.testAllGeneration)
    (hbound : ∀ id ∈ ids, ∀ k, (s.calls k).bound s'.testAllGeneration adding id = false)
    (hgone : adding = false → ∀ id ∈ ids, s'.roster.storedTrackers ≤ id)
    (hstored : ∀ id < s'.roster.storedTrackers, id ∉ ids → id < s.roster.storedTrackers)
    (hlayout : s'.storeWork ≠ .recalculate → ∀ id < maxTrackers, hasBit s'.tdmaActiveMask id = true →
      id < s'.roster.storedTrackers ∧ id ∉ ids ∧ Chosen none id trace) :
    RevocationInvariant (trace ++ ids.map RevocationEvent.reset) s' where
  command id := by
    have hreset : (s'.slots id).trackerRemoteCommand =
        if id ∈ ids then pongFlagNormal else (s.slots id).trackerRemoteCommand := by
      rw [hslots, trackerSlotReset_slots]
      split <;> rfl
    rw [hreset, hi.command, pendingCommand, pendingCommand, List.foldl_append, follow_reset]
  justified := by
    refine hi.justified.append fun earlier e he => ?_
    obtain ⟨id, -, rfl⟩ := List.mem_map.mp he
    trivial
  heard id hid := by
    rw [hslots, trackerSlotReset_slots] at hid
    by_cases hmem : id ∈ ids
    · simp [hmem, SlotState.heard, SlotState.zero] at hid
    · rw [if_neg hmem] at hid
      exact mem_occupancy_append (hi.heard id hid) (mt reset_mem_map.mp hmem)
  unborn k := by
    rw [hnext, hcalls]
    exact hi.unborn k
  placed k := by
    rw [hcalls]
    exact (hi.placed k).step _ adding (Nat.le_of_eq huptime.symm) (hfresh k)
      (fun id hid => hbound id (reset_mem_map.mp hid) k) (fun h id hid => hgone h id (reset_mem_map.mp hid))
      fun id hid hkept => hstored id hid (mt reset_mem_map.mpr hkept)
  layout hwork id hid hmem := by
    obtain ⟨hcount, hkept, hchosen⟩ := hlayout hwork id hid hmem
    exact ⟨hcount, hchosen.append (mt reset_mem_map.mp hkept)⟩

namespace RevocationInvariant

theorem afterAddPair (hi : RevocationInvariant trace s) {addr : ℕ} {written : Bool}
    (hok : ResetsUnheld s (.addPair addr written)) (htaken : addPair addr written s = some (s', es)) :
    RevocationInvariant (trace ++ es) s' := by
  simp only [addPair] at htaken
  split at htaken
  case isTrue => cases htaken
  case isFalse hfree =>
    split at htaken
    case isFalse =>
      obtain ⟨rfl, rfl⟩ := Prod.mk.inj (Option.some.inj htaken)
      rwa [List.append_nil]
    case isTrue hadds =>
      obtain ⟨rfl, rfl⟩ := Prod.mk.inj (Option.some.inj htaken)
      have hwork : s.storeWork ≠ .recalculate := by
        intro hwork
        simp [RevocationState.storeFree, hwork] at hfree
      have hunbound : ∀ k < s.next,
          (s.calls k).bound s.testAllGeneration true s.roster.storedTrackers = false := by
        refine hok.unbound _ ?_
        simp [resetIds, hadds]
      refine hi.resets [s.roster.storedTrackers] true rfl rfl rfl rfl (fun k => .inl rfl) ?_ (by simp) ?_ ?_
      · intro id hid k
        obtain rfl := List.mem_singleton.mp hid
        exact hi.forall_place (P := fun place => place.bound s.testAllGeneration true _ = false) rfl hunbound k
      · intro id hid hkept
        exact Nat.lt_of_le_of_ne (Nat.le_of_lt_succ hid) (by simpa using hkept)
      · intro _ id hid hmem
        obtain ⟨hcount, hchosen⟩ := hi.layout hwork id hid hmem
        exact ⟨Nat.lt_succ_of_lt hcount, by simpa using Nat.ne_of_lt hcount, hchosen⟩

theorem afterPopPair (hi : RevocationInvariant trace s) {written : Bool}
    (hok : ResetsUnheld s (.popPair written)) (htaken : popPair written s = some (s', es)) :
    RevocationInvariant (trace ++ es) s' := by
  simp only [popPair] at htaken
  split at htaken
  case isTrue => cases htaken
  case isFalse =>
    split at htaken
    case isFalse =>
      obtain ⟨rfl, rfl⟩ := Prod.mk.inj (Option.some.inj htaken)
      rwa [List.append_nil]
    case isTrue hremoves =>
      obtain ⟨rfl, rfl⟩ := Prod.mk.inj (Option.some.inj htaken)
      have hunbound : ∀ k < s.next,
          (s.calls k).bound s.testAllGeneration false (s.roster.storedTrackers - 1) = false := by
        refine hok.unbound _ ?_
        simp [resetIds, hremoves]
      refine hi.resets [s.roster.storedTrackers - 1] false rfl rfl rfl rfl (fun k => .inl rfl) ?_ ?_ ?_ ?_
      · intro id hid k
        obtain rfl := List.mem_singleton.mp hid
        exact hi.forall_place (P := fun place => place.bound s.testAllGeneration false _ = false) rfl hunbound k
      · intro _ id hid
        exact Nat.le_of_eq (List.mem_singleton.mp hid).symm
      · intro id hid _
        exact lt_of_lt_of_le hid (Nat.sub_le _ _)
      · intro hwork
        exact absurd rfl hwork

theorem afterClear (hi : RevocationInvariant trace s) {written : Bool}
    (hok : ResetsUnheld s (.clear written)) (htaken : clear written s = some (s', es)) :
    RevocationInvariant (trace ++ es) s' := by
  simp only [clear] at htaken
  split at htaken
  case isTrue => cases htaken
  case isFalse =>
    split at htaken
    case isFalse =>
      obtain ⟨rfl, rfl⟩ := Prod.mk.inj (Option.some.inj htaken)
      rwa [List.append_nil]
    case isTrue hclears =>
      obtain ⟨rfl, rfl⟩ := Prod.mk.inj (Option.some.inj htaken)
      have hbumps : bumps s (.clear written) = true := hclears
      have hgeneration : generationAfter s (.clear written) = s.testAllGeneration + 1 := if_pos hbumps
      refine hi.resets (List.range maxTrackers) false rfl rfl rfl rfl (fun k => .inr ?_) ?_ ?_ ?_ ?_
      · exact hi.forall_place (P := fun place => place.token ≠ some (s.testAllGeneration + 1)) nofun
          (hok.fresh hbumps) k
      · intro id hid k
        refine hi.forall_place (P := fun place => place.bound (s.testAllGeneration + 1) false id = false) rfl
          (fun k hk => ?_) k
        have hunbound := hok.unbound id (by simpa [resetIds, hclears] using hid) k hk
        rw [hgeneration] at hunbound
        exact hunbound
      · intro _ id _
        exact Nat.zero_le id
      · intro id hid
        exact absurd hid (Nat.not_lt_zero id)
      · intro hwork
        exact absurd rfl hwork

end RevocationInvariant

end Resets

/-! ### The calls -/

section Calls

variable {trace : List RevocationEvent} {s s' : RevocationState} {es : List RevocationEvent} {k : ℕ}

/-- A scan that starts after boot finds trackers that were heard. -/
theorem heard_of_scanned {id start : ℕ} (hstart : 0 < start) (hid : id ∈ s.scanActiveMask start) :
    (s.slots id).heard := by
  simp only [RevocationState.scanActiveMask, RevocationState.selection, List.mem_filter, Bool.and_eq_true,
    decide_eq_true_eq] at hid
  exact .inl (lt_of_lt_of_le hstart hid.2.2)

theorem heard_of_sensAutoActive {id now : ℕ} (h : s.sensAutoActive id now = true) : (s.slots id).heard := by
  simp only [RevocationState.sensAutoActive, Bool.and_eq_true, decide_eq_true_eq] at h
  exact .inl h.1.1.2

namespace RevocationInvariant

/-- What a caller selects was heard, so it is chosen. -/
theorem chosen (hi : RevocationInvariant trace s) {caller : Option ℕ} {ids : List ℕ}
    (hheard : ∀ id ∈ ids, (s.slots id).heard) :
    ∀ id ∈ ids, Chosen caller id (trace ++ ids.map (.selected caller)) :=
  fun id hid => chosen_of_selected (hi.heard id (hheard id hid)) (List.mem_map.mpr ⟨id, hid, rfl⟩) (by simp)

theorem afterIssueSelected (hi : RevocationInvariant trace s) (hk : k < s.next) {ids : List ℕ} {value : BitVec 8}
    (hheard : ∀ id ∈ ids, (s.slots id).heard) (htaken : issueSelected k ids value s = some (s', es)) :
    RevocationInvariant (trace ++ es) s' := by
  obtain ⟨rfl, rfl⟩ := Prod.mk.inj (Option.some.inj htaken)
  rw [← List.append_assoc]
  have hselected := hi.selected (some k) ids
  exact (hselected.issued (some k) ids value (hi.chosen hheard)).withPlace .idle hk trivial

theorem afterIssueSingle (hi : RevocationInvariant trace s) (hk : k < s.next) {id : ℕ} {value : BitVec 8}
    (hrequested : .requested k ∈ occupancy id trace) (htaken : issueSingle k id value s = some (s', es)) :
    RevocationInvariant (trace ++ es) s' := by
  obtain ⟨rfl, rfl⟩ := Prod.mk.inj (Option.some.inj htaken)
  refine (hi.issued (some k) [id] value fun id' hid' => ?_).withPlace .idle hk trivial
  obtain rfl := List.mem_singleton.mp hid'
  exact chosen_of_requested hrequested

/-- The selection of a call that publishes later. -/
theorem afterScan (hi : RevocationInvariant trace s) (place : Place) (hk : k < s.next) {start : ℕ}
    (hstart : 0 < start)
    (hplace : (∀ id ∈ s.scanActiveMask start,
        Chosen (some k) id (trace ++ (s.scanActiveMask start).map (.selected (some k)))) →
      Placed (trace ++ (s.scanActiveMask start).map (.selected (some k))) s k place)
    (htaken : (if scanned start s then
      some (s.withPlace k place, (s.scanActiveMask start).map (.selected (some k))) else none) = some (s', es)) :
    RevocationInvariant (trace ++ es) s' := by
  split at htaken
  case isFalse => cases htaken
  case isTrue =>
    obtain ⟨rfl, rfl⟩ := Prod.mk.inj (Option.some.inj htaken)
    exact (hi.selected (some k) _).withPlace place hk (hplace (hi.chosen fun id hid => heard_of_scanned hstart hid))

theorem invalidated (hi : RevocationInvariant trace s) : RevocationInvariant trace s.testAllInvalidate :=
  hi.policy rfl rfl rfl rfl rfl id rfl rfl

/-- The critical section of a command, or its selection. -/
theorem afterCallStep (hi : RevocationInvariant trace s) {c : Command} {start : ℕ}
    (hplace : s.calls k = .calling c start) (hk : k < s.next) (hok : ResetsUnheld s (.call k))
    (htaken : callStep k c start s = some (s', es)) : RevocationInvariant (trace ++ es) s' := by
  have hplaced : Placed trace s k (.calling c start) := hplace ▸ hi.placed k
  cases c with
  | flag id value | sens id => exact hi.afterIssueSingle hk hplaced htaken
  | sensAuto id =>
    simp only [callStep] at htaken
    split at htaken
    case isTrue => cases htaken
    case isFalse =>
      refine hi.afterIssueSelected hk (fun id' hid' => ?_) htaken
      split at hid'
      case isFalse => exact absurd hid' List.not_mem_nil
      case isTrue hactive =>
        obtain rfl := List.mem_singleton.mp hid'
        exact heard_of_sensAutoActive hactive
  | test id on =>
    have hbumps : bumps s (.call k) = true := by simp [bumps, hplace]
    exact (hi.bumped (hok.fresh hbumps)).invalidated.afterIssueSingle hk hplaced htaken
  | wom id minutes =>
    simp only [callStep] at htaken
    split at htaken
    case isTrue => cases htaken
    case isFalse =>
      split at htaken
      case isTrue hstored =>
        simp only [RevocationState.stored, Bool.and_eq_true, decide_eq_true_eq] at hstored
        exact hi.afterIssueSingle hk (hplaced hstored.1) htaken
      case isFalse =>
        obtain ⟨rfl, rfl⟩ := Prod.mk.inj (Option.some.inj htaken)
        rw [List.append_nil]
        exact hi.withPlace .idle hk trivial
  | flagAll value => exact hi.afterScan (.flagging value _) hk hplaced id htaken
  | sensAutoAll | womAll minutes =>
    simp only [callStep] at htaken
    split at htaken
    case isFalse => cases htaken
    case isTrue => exact hi.afterIssueSelected hk (fun id hid => heard_of_scanned hplaced hid) htaken
  | testAll on =>
    simp only [callStep] at htaken
    split at htaken
    case isFalse => cases htaken
    case isTrue =>
      obtain ⟨rfl, rfl⟩ := Prod.mk.inj (Option.some.inj htaken)
      rw [List.append_nil]
      have hheld : RevocationInvariant trace { s with testAllMutex := some k } :=
        hi.policy rfl rfl rfl rfl rfl id rfl rfl
      exact hheld.withPlace _ hk hplaced

/-- The final critical section of an all-target test command. -/
theorem afterTestPublish (hi : RevocationInvariant trace s) (hk : k < s.next) {on : Bool} {ids : List ℕ}
    (hids : ∀ id ∈ ids, Chosen (some k) id trace) (htaken : testPublish k on ids s = some (s', es)) :
    RevocationInvariant (trace ++ es) s' := by
  obtain ⟨rfl, rfl⟩ := Prod.mk.inj (Option.some.inj htaken)
  have hinstalled : RevocationInvariant trace (installPolicy on s) :=
    (hi.graced fun id => Receiver.clearExpired s.uptime (s.slots id).testAllReadyAfterMs).policy
      rfl rfl rfl rfl rfl id rfl rfl
  refine (hinstalled.issued (some k) _ (testFlag on) fun id hid => ?_).withPlace .testUnlocking hk trivial
  exact hids id (List.mem_of_mem_filter hid)

/-- One step of a call. -/
theorem afterProceed (hi : RevocationInvariant trace s) (hok : ResetsUnheld s (.call k))
    (htaken : proceed k s = some (s', es)) : RevocationInvariant (trace ++ es) s' := by
  have hplaced : Placed trace s k (s.calls k) := hi.placed k
  have hk : k < s.next := by
    by_contra hle
    rw [proceed, hi.unborn k (not_lt.mp hle)] at htaken
    cases htaken
  cases hplace : s.calls k with
  | idle =>
    simp only [proceed, hplace] at htaken
    cases htaken
  | calling c start =>
    simp only [proceed, hplace] at htaken
    exact hi.afterCallStep hplace hk hok htaken
  | flagging value ids =>
    cases ids with
    | nil =>
      simp only [proceed, hplace] at htaken
      obtain ⟨rfl, rfl⟩ := Prod.mk.inj (Option.some.inj htaken)
      rw [List.append_nil]
      exact hi.withPlace .idle hk trivial
    | cons id ids =>
      simp only [proceed, hplace] at htaken
      obtain ⟨rfl, rfl⟩ := Prod.mk.inj (Option.some.inj htaken)
      rw [hplace] at hplaced
      have hissued := hi.issued (some k) [id] value fun id' hid' => by
        obtain rfl := List.mem_singleton.mp hid'
        exact hplaced id' List.mem_cons_self
      refine hissued.withPlace (.flagging value ids) hk fun id' hid' => ?_
      refine (hplaced id' (List.mem_cons_of_mem _ hid')).append ?_
      simp [issue]
  | testGuarding on =>
    simp only [proceed, hplace] at htaken
    obtain ⟨rfl, rfl⟩ := Prod.mk.inj (Option.some.inj htaken)
    rw [hplace] at hplaced
    rw [List.append_nil]
    have hguarded : RevocationInvariant trace { s with testAllBroadcasting := true } :=
      hi.policy rfl rfl rfl rfl rfl id rfl rfl
    exact hguarded.withPlace (.testCounting on) hk hplaced
  | testCounting on =>
    simp only [proceed, hplace] at htaken
    obtain ⟨rfl, rfl⟩ := Prod.mk.inj (Option.some.inj htaken)
    rw [hplace] at hplaced
    rw [List.append_nil]
    have hbumps : bumps s (.call k) = true := by simp [bumps, hplace]
    exact (hi.bumped (hok.fresh hbumps)).withPlace (.testStarting on _) hk hplaced
  | testStarting on gen =>
    simp only [proceed, hplace] at htaken
    obtain ⟨rfl, rfl⟩ := Prod.mk.inj (Option.some.inj htaken)
    rw [hplace] at hplaced
    rw [List.append_nil]
    exact hi.withPlace (.testScanning on gen s.uptime) hk hplaced
  | testScanning on gen start =>
    simp only [proceed, hplace] at htaken
    rw [hplace] at hplaced
    exact hi.afterScan (.testPublishing on gen _) hk hplaced (fun h _ => h) htaken
  | testPublishing on gen ids =>
    simp only [proceed, hplace] at htaken
    rw [hplace] at hplaced
    split at htaken
    case isTrue =>
      obtain ⟨rfl, rfl⟩ := Prod.mk.inj (Option.some.inj htaken)
      rw [List.append_nil]
      exact hi.withPlace .testAborting hk trivial
    case isFalse hcurrent => exact hi.afterTestPublish hk (hplaced (not_not.mp hcurrent).symm) htaken
  | testAborting =>
    simp only [proceed, hplace] at htaken
    obtain ⟨rfl, rfl⟩ := Prod.mk.inj (Option.some.inj htaken)
    rw [List.append_nil]
    have hreleased : RevocationInvariant trace { s with testAllBroadcasting := false } :=
      hi.policy rfl rfl rfl rfl rfl id rfl rfl
    exact hreleased.withPlace .testUnlocking hk trivial
  | testUnlocking =>
    simp only [proceed, hplace] at htaken
    obtain ⟨rfl, rfl⟩ := Prod.mk.inj (Option.some.inj htaken)
    rw [List.append_nil]
    have hreleased : RevocationInvariant trace { s with testAllMutex := none } :=
      hi.policy rfl rfl rfl rfl rfl id rfl rfl
    exact hreleased.withPlace .idle hk trivial

/-- The members of a layout were heard. -/
theorem afterLayout (hi : RevocationInvariant trace s) {layout : TrackerMask}
    (htaken : publishLayout layout s = some (s', es)) : RevocationInvariant (trace ++ es) s' := by
  simp only [publishLayout] at htaken
  split at htaken
  case isTrue => cases htaken
  case isFalse =>
    split at htaken
    case isFalse => cases htaken
    case isTrue hmembers =>
      obtain ⟨rfl, rfl⟩ := Prod.mk.inj (Option.some.inj htaken)
      have hmember : ∀ id < maxTrackers, hasBit layout id = true →
          id < s.roster.storedTrackers ∧ (s.slots id).heard := by
        intro id hid hbit
        have hok := List.all_eq_true.mp hmembers id (List.mem_range.mpr hid)
        simp only [hbit, Bool.not_true, Bool.false_or, Bool.and_eq_true, decide_eq_true_eq] at hok
        exact ⟨hok.1, .inr hok.2⟩
      have hselected := hi.selected none (members layout)
      refine { hselected with
        placed := fun k => (hselected.placed k).congr rfl rfl rfl
        layout := fun _ id hid hbit => ⟨(hmember id hid hbit).1, ?_⟩ }
      refine hi.chosen (fun id' hid' => ?_) id (List.mem_filter.mpr ⟨List.mem_range.mpr hid, hbit⟩)
      obtain ⟨hrange, hbit'⟩ := List.mem_filter.mp hid'
      exact (hmember id' (List.mem_range.mp hrange) hbit').2

/-- The sticky policy publishes to members of the layout. -/
theorem afterReconcile (hi : RevocationInvariant trace s) (htaken : reconcile s = some (s', es)) :
    RevocationInvariant (trace ++ es) s' := by
  simp only [reconcile] at htaken
  split at htaken
  case h_1 hwork =>
    split at htaken
    case isTrue =>
      obtain ⟨rfl, rfl⟩ := Prod.mk.inj (Option.some.inj htaken)
      rw [List.append_nil]
      exact hi.policy rfl rfl rfl rfl rfl (fun _ h => nomatch hwork.symm.trans h) rfl rfl
    case isFalse =>
      obtain ⟨rfl, rfl⟩ := Prod.mk.inj (Option.some.inj htaken)
      rwa [List.append_nil]
  case h_2 now hwork =>
    obtain ⟨rfl, rfl⟩ := Prod.mk.inj (Option.some.inj htaken)
    rw [List.append_nil]
    exact hi.policy rfl rfl rfl rfl rfl (fun _ h => nomatch hwork.symm.trans h) rfl rfl
  case h_3 now enabled hwork =>
    have hheld : s.storeWork ≠ .recalculate := fun h => nomatch hwork.symm.trans h
    split at htaken
    case isTrue =>
      obtain ⟨rfl, rfl⟩ := Prod.mk.inj (Option.some.inj htaken)
      have hissued := hi.issued none (reconcileIds now s) (testFlag enabled) fun id hid => by
        obtain ⟨hrange, hbit⟩ := List.mem_filter.mp (List.mem_of_mem_filter hid)
        rw [hasBit_and_not, Bool.and_eq_true] at hbit
        exact (hi.layout hheld id (List.mem_range.mp hrange) hbit.1).2
      exact hissued.policy rfl rfl rfl rfl rfl (fun _ => hheld) rfl rfl
    case isFalse =>
      obtain ⟨rfl, rfl⟩ := Prod.mk.inj (Option.some.inj htaken)
      rw [List.append_nil]
      exact hi.policy rfl rfl rfl rfl rfl (fun _ => hheld) rfl rfl
  case h_4 => cases htaken

end RevocationInvariant

end Calls

/-! ## The theorem -/

section Law

variable {trace : List RevocationEvent} {s s' : RevocationState} {es : List RevocationEvent}

theorem RevocationInvariant.boot (roster : TrackerRoster) : RevocationInvariant [] (.boot roster) where
  command _ := rfl
  justified := eachAfter_nil
  heard id hid := by simp [RevocationState.boot, SlotState.heard, SlotState.zero] at hid
  unborn _ _ := rfl
  placed _ := trivial
  layout _ id _ hid := by simp [RevocationState.boot] at hid

/-- One allowed step. -/
theorem RevocationInvariant.afterStep (hi : RevocationInvariant trace s) {op : RevocationOp}
    (hok : ResetsUnheld s op) (htaken : revocationStep s op = some (s', es)) :
    RevocationInvariant (trace ++ es) s' := by
  cases op with
  | elapse ms =>
    obtain ⟨rfl, rfl⟩ := Prod.mk.inj (Option.some.inj htaken)
    rw [List.append_nil]
    exact hi.elapsed ms
  | data id onOwnPipe | ping id onOwnPipe =>
    simp only [revocationStep, receive] at htaken
    split at htaken
    case isFalse => cases htaken
    case isTrue =>
      obtain ⟨rfl, rfl⟩ := Prod.mk.inj (Option.some.inj htaken)
      exact hi.received id rfl
  | withdraw id =>
    obtain ⟨rfl, rfl⟩ := Prod.mk.inj (Option.some.inj htaken)
    exact hi.withdrew id
  | mark id confirmed =>
    obtain ⟨rfl, rfl⟩ := Prod.mk.inj (Option.some.inj htaken)
    rw [List.append_nil]
    exact hi.policy rfl rfl rfl rfl rfl (fun h => h) rfl rfl
  | grace id readyAfter =>
    obtain ⟨rfl, rfl⟩ := Prod.mk.inj (Option.some.inj htaken)
    rw [List.append_nil]
    have hgraced := hi.graced (update (fun id' => (s.slots id').testAllReadyAfterMs) id readyAfter)
    refine hgraced.policy rfl rfl rfl (funext fun id' => ?_) rfl (fun h => h) rfl rfl
    by_cases heq : id' = id
    · simp [RevocationState.withSlot, heq]
    · simp [RevocationState.withSlot, update_of_ne heq]
  | addPair addr written => exact hi.afterAddPair hok htaken
  | popPair written => exact hi.afterPopPair hok htaken
  | clear written => exact hi.afterClear hok htaken
  | layout members => exact hi.afterLayout htaken
  | reconcile => exact hi.afterReconcile htaken
  | request c =>
    simp only [revocationStep, request] at htaken
    split at htaken
    case isTrue =>
      obtain ⟨rfl, rfl⟩ := Prod.mk.inj (Option.some.inj htaken)
      rwa [List.append_nil]
    case isFalse =>
      obtain ⟨rfl, rfl⟩ := Prod.mk.inj (Option.some.inj htaken)
      exact hi.asked c hok.started
  | call k => exact hi.afterProceed hok htaken

theorem revocationInvariant {roster : TrackerRoster}
    (h : (revocationSystem roster).RunWhere ResetsUnheld trace s) : RevocationInvariant trace s :=
  h.history_invariant (P := RevocationInvariant) (.boot roster) fun _ _ _ _ _ hi hok htaken =>
    hi.afterStep hok htaken

/-- After a reset nothing is pending for as long as nothing is published. -/
theorem pendingCommand_of_reset {id : ℕ} {earlier later : List RevocationEvent}
    (h : ∀ caller value, .published caller id value ∉ later) :
    pendingCommand id (earlier ++ .reset id :: later) = pongFlagNormal := by
  rw [pendingCommand, List.foldl_append, List.foldl_cons]
  have hreset : follow id (earlier.foldl (follow id) pongFlagNormal) (.reset id) = pongFlagNormal := if_pos rfl
  rw [hreset]
  refine foldl_eq_of_fixed fun e he => ?_
  cases e with
  | reset id' | withdrawn id' => exact ite_self _
  | published caller id' value =>
    refine if_neg ?_
    rintro rfl
    exact h caller value he
  | requested | selected | packet => rfl

/-- **Slot resets revoke commands.** In every run in which no slot is reset under a call that is bound to it, the
command of a slot stays `NORMAL` after a reset until one is published there, and every published command was
requested since the last reset of its slot or selected it after a packet of its occupant. -/
theorem slot_reset_revokes (roster : TrackerRoster) (trace : List RevocationEvent) (s : RevocationState)
    (h : (revocationSystem roster).RunWhere ResetsUnheld trace s) : RevocationLaw trace s := by
  have hi := revocationInvariant h
  refine ⟨fun id earlier later htrace hlater => ?_, hi.justified⟩
  rw [hi.command, htrace]
  exact pendingCommand_of_reset hlater

end Law

/-- A roster with one tracker. -/
def oneTracker : TrackerRoster := ⟨1, update (fun _ => 0) 0 0xA1, true, one_le_maxTrackers⟩

/-- Another tracker is paired into the slot and then sends during the scan. -/
def scannedAfterwards : List RevocationOp :=
  [.elapse 5, .data 0 true, .popPair true, .layout 0, .addPair 0xB2 true, .request (.flagAll pongFlagShutdown),
    .elapse 500, .data 0 true, .elapse 600, .call 0, .call 0]

theorem slot_reset_revokes_scanned : ∃ trace s,
    (revocationSystem oneTracker).RunWhere ResetsUnheld trace s ∧ RevocationLaw trace s ∧
      .reset 0 ∈ trace ∧ .published (some 0) 0 pongFlagShutdown ∈ trace := by
  obtain ⟨trace, s, hrun, htest⟩ :=
    ((revocationSystem oneTracker).restrict fun s op => decide (ResetsUnheld s op)).exists_run_of_replay
      scannedAfterwards
      (fun trace _ => decide (.reset 0 ∈ trace ∧ .published (some 0) 0 pongFlagShutdown ∈ trace))
      (by decide +kernel)
  have hwhere : (revocationSystem oneTracker).RunWhere ResetsUnheld trace s :=
    EventSystem.runWhere_of_restrict (fun s op hallowed => of_decide_eq_true hallowed) hrun
  exact ⟨trace, s, hwhere, slot_reset_revokes oneTracker trace s hwhere, of_decide_eq_true htest⟩

/-- The tracker that was selected is replaced before the mask is published. -/
def replacedAfterScan : List RevocationOp :=
  [.elapse 5, .request (.flagAll pongFlagShutdown), .elapse 500, .data 0 true, .elapse 600, .call 0,
    .popPair true, .layout 0, .addPair 0xB2 true, .call 0]

/-- The new tracker is shut down in the place of the old one. -/
theorem slot_reset_revokes_replaced : ∃ trace s,
    (revocationSystem oneTracker).Run trace s ∧ ¬RevocationLaw trace s := by
  obtain ⟨trace, s, hrun, htest⟩ := (revocationSystem oneTracker).exists_run_of_replay replacedAfterScan
    (fun trace _ => decide (trace = [.requested 0, .packet 0, .selected (some 0) 0, .reset 0, .reset 0,
      .published (some 0) 0 pongFlagShutdown])) (by decide +kernel)
  rw [of_decide_eq_true htest] at hrun
  refine ⟨_, s, hrun, fun hlaw => ?_⟩
  have hchosen : Justified [.requested 0, .packet 0, .selected (some 0) 0, .reset 0, .reset 0]
      (.published (some 0) 0 pongFlagShutdown) := hlaw.justified _ _ [] rfl
  have hfresh : occupancy 0 [.requested 0, .packet 0, .selected (some 0) 0, .reset 0, .reset 0] = [] := by decide
  simp [Justified, Chosen, hfresh] at hchosen

end Revocation

end SlimeReceiver
