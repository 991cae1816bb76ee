import SlimeReceiver.Ota.SessionLaw

/-! # An abort and a later BEGIN

An abort acts twice: under the lock it sets the tombstone of a tracker, and later it writes `OTA_ABORT` to
the command slot. A BEGIN in between takes back the first half only.

* **`cleared`** — the last word about a tracker is an accepted BEGIN.
* **`AbortUnderway`** — a call between its two halves.
* **`begin_clears_abort`** — what a BEGIN takes back stays taken back when no abort is underway at it. -/

namespace SlimeReceiver.Ota

open Function (update)
open OtaWorld

/-! ## The history of a tracker -/

/-- One more event for a tracker. -/
def cleared.note (id : ℕ) (known : Bool) : OtaEvent → Bool
  | .begun _ other _ => if other = id then true else known
  | .abortRequested other => if other = id then false else known
  | _ => known

/-- A BEGIN has been accepted for a tracker and no abort has been requested since. -/
def cleared (id : ℕ) (trace : List OtaEvent) : Bool := trace.foldl (cleared.note id) false

theorem cleared_append {id : ℕ} (trace : List OtaEvent) {es : List OtaEvent}
    (hbegun : ∀ t first, .begun t id first ∉ es) (hrequested : .abortRequested id ∉ es) :
    cleared id (trace ++ es) = cleared id trace := by
  rw [cleared, List.foldl_append]
  refine foldl_eq_self (fun e he known => ?_) _
  cases e with
  | begun t other first =>
    exact if_neg fun hsame : other = id => hbegun t first (hsame ▸ he)
  | abortRequested other => exact if_neg fun hsame : other = id => hrequested (hsame ▸ he)
  | _ => rfl

/-- After an abort it takes a BEGIN. -/
theorem cleared_of_requested {id : ℕ} (trace : List OtaEvent) {es : List OtaEvent}
    (hbegun : ∀ t first, .begun t id first ∉ es) (hrequested : .abortRequested id ∈ es) :
    cleared id (trace ++ es) = false := by
  obtain ⟨before, after, rfl⟩ := List.append_of_mem hrequested
  rw [cleared, List.foldl_append, List.foldl_append, List.foldl_cons]
  have hfalse : ∀ known, cleared.note id known (.abortRequested id) = false := fun _ => if_pos rfl
  rw [hfalse]
  refine foldl_eq_of_fixed fun e he => ?_
  cases e with
  | begun t other first =>
    exact if_neg fun hsame : other = id =>
      hbegun t first (List.mem_append_right _ (List.mem_cons_of_mem _ (hsame ▸ he)))
  | abortRequested other =>
    by_cases hsame : other = id
    · exact if_pos hsame
    · exact if_neg hsame
  | _ => rfl

/-! ## Tombstones -/

section Sections

variable {r : Relay} {id : ℕ} {now : BitVec 32}

/-- What is not set is not pending. -/
theorem abortPending_of_not (h : r.abortValid id = false) : r.abortPending id now = false := by
  rw [Relay.abortPending, h]
  rfl

theorem expireAbort_abortValid (now : BitVec 32) (other : ℕ) (h : r.abortValid id = false) :
    (r.expireAbort other now).abortValid id = false := by
  show update r.abortValid other _ id = false
  by_cases hsame : id = other
  · subst hsame
    rw [Function.update_self]
    exact abortPending_of_not h
  · rw [Function.update_of_ne hsame]
    exact h

theorem removeTarget_abortValid (id : ℕ) (r : Relay) : (r.removeTarget id).1.abortValid = r.abortValid := by
  unfold Relay.removeTarget
  split
  case isTrue => rfl
  case isFalse => rfl

theorem cancelTarget_abortValid (other : ℕ) (hne : id ≠ other) :
    (r.cancelTarget other now).1.abortValid id = r.abortValid id := by
  rw [Relay.cancelTarget, removeTarget_abortValid]
  exact Function.update_of_ne hne _ _

theorem cancelEach_abortValid (ids : List ℕ) (ended : Bool) (hout : id ∉ ids) :
    (Relay.cancelEach now ids (r, ended)).1.abortValid id = r.abortValid id := by
  induction ids generalizing r ended with
  | nil => rfl
  | cons other ids ih =>
    rw [List.mem_cons, not_or] at hout
    calc (Relay.cancelEach now ids (r.cancelTarget other now)).1.abortValid id
        = (r.cancelTarget other now).1.abortValid id := ih _ hout.2
      _ = r.abortValid id := cancelTarget_abortValid other hout.1

theorem noteStatus_abortValid (packet : List (BitVec 8)) (uptime : ℤ) :
    (r.noteStatus packet uptime).1.abortValid = r.abortValid := by
  simp only [Relay.noteStatus]
  split
  case isTrue => rw [removeTarget_abortValid]
  case isFalse => rfl

theorem fillAck_abortValid (other : ℕ) (stamp : BitVec 32) (rx : Option (List (BitVec 8)))
    (h : r.abortValid id = false) : (r.fillAck other now stamp rx).1.abortValid id = false := by
  have hdata : ∀ (r : Relay) seq, (r.fillData other seq).1.abortValid = r.abortValid := by
    intro r seq
    cases seq with
    | none => rfl
    | some seq => rfl
  have htarget : ∀ (r : Relay) seq, (r.fillTarget other now seq).1.abortValid = r.abortValid := by
    intro r seq
    simp only [Relay.fillTarget]
    split
    case isTrue => exact hdata r seq
    split
    case isTrue => rfl
    split
    case isTrue => exact hdata r seq
    case isFalse => rfl
  simp only [Relay.fillAck]
  split
  case isTrue => exact h
  split
  case isTrue => exact h
  split
  case isTrue =>
    rw [htarget]
    exact expireAbort_abortValid now other h
  case isFalse => exact expireAbort_abortValid now other h

/-- An ACK that aborts answers a pending abort. -/
theorem fillAck_abort {other : ℕ} {stamp : BitVec 32} {rx : Option (List (BitVec 8))}
    {bytes : List (BitVec 8)} (h : (r.fillAck other now stamp rx).2 = some (.abort bytes)) :
    r.abortValid other = true := by
  have hdata : ∀ (r : Relay) seq, (r.fillData other seq).2 ≠ some (.abort bytes) := by
    intro r seq heq
    cases seq with
    | none => cases heq
    | some seq =>
      simp only [Relay.fillData] at heq
      split at heq
      case isTrue => cases heq
      case isFalse => cases heq
  have htarget : ∀ (r : Relay) seq, (r.fillTarget other now seq).2 ≠ some (.abort bytes) := by
    intro r seq heq
    simp only [Relay.fillTarget] at heq
    split at heq
    case isTrue => exact hdata r seq heq
    split at heq
    case isTrue => cases heq
    split at heq
    case isTrue => exact hdata r seq heq
    case isFalse => cases heq
  simp only [Relay.fillAck] at h
  split at h
  case isTrue => cases h
  split at h
  case isTrue hpending =>
    rw [Relay.abortPending, Bool.and_eq_true] at hpending
    exact hpending.1
  split at h
  case isTrue => exact absurd h (htarget _ _)
  case isFalse => cases h

end Sections

/-! ## One step -/

/-- Nothing is left of an abort of a tracker. -/
structure AbortGone (id : ℕ) (s : OtaWorld) : Prop where
  tombstone : s.relay.abortValid id = false
  slot : s.command id ≠ pongFlagOtaAbort
  calls : ∀ t, .send id pongFlagOtaAbort ∉ s.threads t

/-- The tracker has neither half of an abort, as far as the relay and its slot show. -/
def Unmarked (id : ℕ) (s : OtaWorld) : Prop :=
  s.relay.abortValid id = false ∧ s.command id ≠ pongFlagOtaAbort

section Entries

variable {s : OtaWorld} {thread id : ℕ} {env : MicroEnvironment} {micro : Micro}

theorem clearAbort_ne {command : ℕ → BitVec 8} (other : ℕ) (h : command id ≠ pongFlagOtaAbort) :
    clearAbort other command id ≠ pongFlagOtaAbort := by
  unfold clearAbort
  split
  case isTrue =>
    by_cases hsame : id = other
    · rw [hsame, Function.update_self]
      decide
    · rw [Function.update_of_ne hsame]
      exact h
  case isFalse => exact h

theorem clearAbort_self (command : ℕ → BitVec 8) : clearAbort id command id ≠ pongFlagOtaAbort := by
  unfold clearAbort
  split
  case isTrue =>
    rw [Function.update_self]
    decide
  case isFalse hother => exact hother

/-- The session a BEGIN opens has the tombstones it found. -/
theorem openSession_abortValid (r : Relay) (report : HidReport) :
    (r.openSession report).abortValid = r.abortValid := by
  unfold Relay.openSession
  split
  case isTrue => rfl
  case isFalse => rfl

/-- An accepted BEGIN takes back an abort. -/
theorem runMicro_begun {first : Bool}
    (h : .begun thread id first ∈ (s.runMicro thread env micro).2.2) :
    Unmarked id (s.runMicro thread env micro).1 ∧
      ∃ report acquired, micro = .lock report acquired ∧ report.trackerId = id ∧
        s.relay.admitTarget report env.now acquired =
          .admitted first ((s.relay.openSession report).enlist report env.now) := by
  cases runMicro_events h with
  | begun report acquired first hadmission =>
    refine ⟨?_, report, acquired, rfl, rfl, hadmission⟩
    simp only [runMicro, runLock, hadmission]
    refine ⟨?_, clearAbort_self _⟩
    show update (s.relay.openSession report).abortValid report.trackerId false report.trackerId = false
    rw [Function.update_self]

variable (thread env) in
/-- An entry that does not request an abort, and is not the second half of one, leaves a tracker unmarked,
and leads to none. -/
theorem runMicro_unmarked (h : Unmarked id s) (hsend : micro ≠ .send id pongFlagOtaAbort)
    (hrequested : .abortRequested id ∉ (s.runMicro thread env micro).2.2) :
    Unmarked id (s.runMicro thread env micro).1 := by
  obtain ⟨htombstone, hslot⟩ := h
  have hprelude : ∀ {report}, Prelude report micro → Unmarked id (s.runMicro thread env micro).1 := by
    intro report hprelude
    obtain ⟨⟨i, now, hrelay⟩, hcommand, -⟩ :=
      runMicro_prelude s thread env hprelude
    rw [Unmarked, hcommand]
    rcases hrelay with hsame | hexpired
    · rw [hsame]
      exact ⟨htombstone, hslot⟩
    · rw [hexpired]
      exact ⟨expireAbort_abortValid now i htombstone, hslot⟩
  have hlooked : ∀ now others, (s.expire now others).relay.abortValid id = false := by
    intro now others
    show (if s.looksAt others id then s.relay.abortPending id now else s.relay.abortValid id) = false
    split
    case isTrue => exact abortPending_of_not htombstone
    case isFalse => exact htombstone
  cases micro with
  | admission report => exact hprelude .admission
  | claim report => exact hprelude .claim
  | checkActive report => exact hprelude .checkActive
  | checkAbort report i => exact hprelude (.checkAbort i)
  | lock report acquired =>
    rcases runLock_cases s thread report acquired env.now
      with hrun | ⟨-, hrun⟩ | ⟨first, -, hrun⟩
    · rw [runMicro, hrun]
      exact ⟨htombstone, hslot⟩
    · rw [runMicro, hrun]
      exact ⟨htombstone, hslot⟩
    · rw [runMicro, hrun]
      refine ⟨?_, clearAbort_ne _ hslot⟩
      show update (s.relay.openSession report).abortValid report.trackerId false id = false
      rw [openSession_abortValid]
      by_cases hsame : id = report.trackerId
      · rw [hsame, Function.update_self]
      · rw [Function.update_of_ne hsame]
        exact htombstone
  | suppress => exact ⟨hlooked _ _, hslot⟩
  | unsuppress => exact ⟨hlooked _ _, hslot⟩
  | release => exact ⟨htombstone, hslot⟩
  | send other flag =>
    refine ⟨htombstone, ?_⟩
    show update s.command other flag id ≠ _
    by_cases hsame : id = other
    · subst hsame
      rw [Function.update_self]
      exact fun habort => hsend (habort ▸ rfl)
    · rw [Function.update_of_ne hsame]
      exact hslot
  | data report =>
    refine ⟨?_, hslot⟩
    show (s.relay.acceptData report).abortValid id = false
    unfold Relay.acceptData
    split
    case isTrue => exact htombstone
    case isFalse => exact htombstone
  | queue verify report =>
    refine ⟨?_, hslot⟩
    show (s.relay.queueCommand verify report env.now).abortValid id = false
    simp only [Relay.queueCommand]
    split
    case isTrue => exact htombstone
    case isFalse => exact htombstone
  | cancel other =>
    refine ⟨?_, hslot⟩
    have hne : id ≠ other := fun hsame => hrequested (hsame ▸ List.mem_cons_self)
    exact (cancelTarget_abortValid other hne).trans htombstone
  | cancelAll =>
    refine ⟨?_, hslot⟩
    have hout : id ∉ s.relay.targets := fun hmem =>
      hrequested (List.mem_append_left _ (List.mem_map_of_mem hmem))
    exact (cancelEach_abortValid s.relay.targets false hout).trans htombstone
  | forget other =>
    refine ⟨?_, hslot⟩
    show update (s.relay.removeTarget other).1.abortValid other false id = false
    rw [removeTarget_abortValid]
    by_cases hsame : id = other
    · rw [hsame, Function.update_self]
    · rw [Function.update_of_ne hsame]
      exact htombstone
  | status packet =>
    refine ⟨?_, hslot⟩
    exact (congrFun (noteStatus_abortValid packet env.uptime) id).trans htombstone

/-- An entry leads to the second half of an abort only when it has requested it. -/
theorem runMicro_leads (h : .send id pongFlagOtaAbort ∈ (s.runMicro thread env micro).2.1) :
    .abortRequested id ∈ (s.runMicro thread env micro).2.2 := by
  have hsends : ∀ (ids : List ℕ) (flag : BitVec 8), flag ≠ pongFlagOtaAbort →
      Micro.send id pongFlagOtaAbort ∉ ids.map fun id => Micro.send id flag := by
    intro ids flag hflag hmem
    obtain ⟨other, -, heq⟩ := List.mem_map.mp hmem
    exact hflag (Micro.send.inj heq).2
  have hend : ∀ ended, Micro.send id pongFlagOtaAbort ∉ endMicros ended := by
    intro ended hmem
    cases ended with
    | false => cases hmem
    | true => cases List.mem_singleton.mp hmem
  have hprelude : ∀ {report}, Prelude report micro →
      Micro.send id pongFlagOtaAbort ∉ (s.runMicro thread env micro).2.1 := by
    intro report hprelude hmem
    have hstep := (runMicro_prelude s thread env hprelude).2.2
    generalize (s.runMicro thread env micro).2 = next at hstep hmem
    cases hstep with
    | ended => cases hmem
    | goesOn next _ hnext =>
      rw [← List.mem_singleton.mp hmem] at hnext
      cases hnext
    | locks acquired => cases List.mem_singleton.mp hmem
  cases micro with
  | admission report => exact absurd h (hprelude .admission)
  | claim report => exact absurd h (hprelude .claim)
  | checkActive report => exact absurd h (hprelude .checkActive)
  | checkAbort report i => exact absurd h (hprelude (.checkAbort i))
  | lock report acquired =>
    rcases runLock_cases s thread report acquired env.now
      with hrun | ⟨-, hrun⟩ | ⟨first, -, hrun⟩
    · rw [runMicro, hrun] at h
      cases acquired <;> simp at h
    · rw [runMicro, hrun] at h
      simp at h
    · rw [runMicro, hrun] at h
      cases acquired <;> cases first <;> simp at h
  | suppress => exact absurd h (hsends _ _ (by decide))
  | unsuppress => exact absurd h (hsends _ _ (by decide))
  | release | send _ _ | data _ | queue _ _ => cases h
  | cancel other =>
    rcases List.mem_cons.mp h with heq | hmem
    · obtain ⟨rfl, -⟩ := Micro.send.inj heq
      exact List.mem_cons_self
    · exact absurd hmem (hend _)
  | cancelAll =>
    simp only [runMicro, List.mem_append, List.mem_singleton] at h
    rcases h with (hsend | hmem) | heq
    · obtain ⟨other, htarget, heq⟩ := List.mem_map.mp hsend
      obtain ⟨rfl, -⟩ := Micro.send.inj heq
      exact List.mem_append_left _ (List.mem_map_of_mem htarget)
    · exact absurd hmem (hend _)
    · cases heq
  | forget other => exact absurd h (hend _)
  | status packet => exact absurd h (hend _)

/-- No call starts with the second half of an abort. -/
theorem start_leads (call : Call) : .send id pongFlagOtaAbort ∉ call.start := by
  have habort : ∀ other, Micro.send id pongFlagOtaAbort ∉ abortMicros other := by
    intro other
    unfold abortMicros
    split_ifs <;> simp
  cases call with
  | hid report =>
    simp only [Call.start, hidMicros]
    split_ifs
    all_goals first | exact habort _ | simp [pongFlagOtaQueryInfo, pongFlagOtaAbort]
  | consoleAbort other => exact habort other
  | consoleInfo other =>
    simp only [Call.start]
    split_ifs <;> simp [pongFlagOtaQueryInfo, pongFlagOtaAbort]
  | forget other =>
    simp only [Call.start]
    split_ifs <;> simp
  | status packet =>
    simp only [Call.start]
    split_ifs <;> simp

/-- A PONG leaves a tracker unmarked. -/
theorem pong_unmarked (ping : PingContext) (h : Unmarked id s) : Unmarked id (s.pong ping).1 := by
  obtain ⟨htombstone, hslot⟩ := h
  have hexpired := expireAbort_abortValid ping.now ping.id htombstone
  refine ⟨?_, ?_⟩
  · simp only [OtaWorld.pong]
    split_ifs
    · exact htombstone
    · exact htombstone
    · exact hexpired
    · exact fillAck_abortValid ping.id ping.stamp none hexpired
    · exact hexpired
  · simp only [OtaWorld.pong]
    split_ifs <;> exact hslot

/-- There is one answer to a PING at most. -/
theorem pong_events (ping : PingContext) (s : OtaWorld) :
    (s.pong ping).2 = [] ∨ ∃ e, (s.pong ping).2 = [e] := by
  simp only [OtaWorld.pong]
  split
  case isTrue => exact .inl rfl
  split
  case isTrue => exact .inr ⟨_, rfl⟩
  split
  case isTrue => exact .inr ⟨_, rfl⟩
  split
  case isFalse => exact .inr ⟨_, rfl⟩
  case isTrue =>
    split
    · exact .inr ⟨_, rfl⟩
    · exact .inr ⟨_, rfl⟩

/-- A PONG or an ACK of the radio interrupt aborts only a tracker that is marked. -/
theorem pong_abort {ping : PingContext} {e : OtaEvent} (he : e ∈ (s.pong ping).2) :
    (∃ command, e = .ponged ping.id command ∧
      (command = pongFlagOtaAbort → ¬ Unmarked ping.id s)) ∨
    ∃ ack, e = .acked ping.id ack ∧ ∀ bytes, ack = .abort bytes → ¬ Unmarked ping.id s := by
  have hselected : ∀ e ∈ [OtaEvent.ponged ping.id (overridePong (s.command ping.id)
      (s.pongEnvironment ping) ping.womAdvertised ping.ackFlag)], ∃ command, e = .ponged ping.id command ∧
        (command = pongFlagOtaAbort → ¬ Unmarked ping.id s) := by
    intro e he
    refine ⟨_, List.mem_singleton.mp he, fun habort hunmarked => ?_⟩
    rcases overridePong_eq_abort habort with haborting | hpending
    · have hnot : (s.pongEnvironment ping).otaAborting = false := abortPending_of_not hunmarked.1
      exact Bool.false_ne_true (hnot.symm.trans haborting)
    · exact hunmarked.2 hpending
  simp only [OtaWorld.pong] at he
  split at he
  case isTrue => cases he
  split at he
  case isTrue =>
    refine .inl ⟨_, List.mem_singleton.mp he, fun habort => ?_⟩
    exact absurd habort (by decide)
  split at he
  case isTrue => exact .inl (hselected e he)
  split at he
  case isFalse => exact .inl (hselected e he)
  case isTrue =>
    split at he
    case h_2 => exact .inl (hselected e he)
    case h_1 ack hack =>
      refine .inr ⟨ack, List.mem_singleton.mp he, fun bytes hbytes hunmarked => ?_⟩
      have htombstone := fillAck_abort (hack.trans (congrArg _ hbytes))
      exact Bool.false_ne_true ((expireAbort_abortValid ping.now ping.id hunmarked.1).symm.trans htombstone)

end Entries

/-! ## Runs -/

/-- A BEGIN that is accepted in this step finds no call between the two halves of an abort of its
tracker. -/
def NoAbortUnderway (s : OtaWorld) (op : OtaOp) : Prop :=
  ∀ t env report acquired rest, op = .run t env → s.threads t = .lock report acquired :: rest →
    (∃ first relay, s.relay.admitTarget report env.now acquired = .admitted first relay) →
      ∀ other, .send report.trackerId pongFlagOtaAbort ∉ s.threads other

/-- No answer to a tracker aborts after a BEGIN, until another abort is requested. -/
def ClearedLaw (earlier : List OtaEvent) : OtaEvent → Prop
  | .ponged id command => cleared id earlier = true → command ≠ pongFlagOtaAbort
  | .acked id ack => cleared id earlier = true → ∀ bytes, ack ≠ .abort bytes
  | _ => True

section Runs

variable {trace es : List OtaEvent} {s s' : OtaWorld} {op : OtaOp} {id : ℕ}

theorem AbortGone.unmarked (h : AbortGone id s) : Unmarked id s := ⟨h.tombstone, h.slot⟩

/-- The end of a call says nothing about aborts. -/
theorem cleared_finish (t : ℕ) (rest : List Micro) :
    cleared id (trace ++ finishEvents t rest) = cleared id trace := by
  refine cleared_append trace (fun other first hmem => ?_) fun hmem => ?_
  · unfold finishEvents at hmem
    split at hmem
    case isTrue => cases List.mem_singleton.mp hmem
    case isFalse => cases hmem
  · unfold finishEvents at hmem
    split at hmem
    case isTrue => cases List.mem_singleton.mp hmem
    case isFalse => cases hmem

/-- An entry of a call, with a BEGIN only where no abort is underway. -/
theorem abortGone_run {t : ℕ} {env : MicroEnvironment} {micro : Micro} {rest : List Micro}
    (h : cleared id trace = true → AbortGone id s) (hthread : s.threads t = micro :: rest)
    (hok : NoAbortUnderway s (.run t env))
    (hcleared : cleared id (trace ++ (s.runMicro t env micro).2.2) = true) :
    AbortGone id { (s.runMicro t env micro).1 with
      threads := update s.threads t ((s.runMicro t env micro).2.1 ++ rest) } := by
  have hquiet : .abortRequested id ∉ (s.runMicro t env micro).2.2 := by
    intro hmem
    have hbegun : ∀ other first, .begun other id first ∉ (s.runMicro t env micro).2.2 := by
      intro other first hbegun
      cases runMicro_events hbegun with
      | begun => cases runMicro_events hmem
    rw [cleared_of_requested trace hbegun hmem] at hcleared
    cases hcleared
  have hcalls : (∀ other, .send id pongFlagOtaAbort ∉ s.threads other) → ∀ other,
      .send id pongFlagOtaAbort ∉ update s.threads t ((s.runMicro t env micro).2.1 ++ rest) other := by
    intro hnone other hmem
    by_cases hsame : other = t
    · rw [hsame, Function.update_self] at hmem
      rcases List.mem_append.mp hmem with hnew | hrest
      · exact hquiet (runMicro_leads hnew)
      · exact hnone t (hthread ▸ List.mem_cons_of_mem _ hrest)
    · rw [Function.update_of_ne hsame] at hmem
      exact hnone other hmem
  by_cases hbegun : ∃ other first, .begun other id first ∈ (s.runMicro t env micro).2.2
  · obtain ⟨other, first, hmem⟩ := hbegun
    obtain rfl : other = t := by
      cases runMicro_events hmem
      rfl
    obtain ⟨hunmarked, report, acquired, rfl, rfl, hadmission⟩ := runMicro_begun hmem
    exact ⟨hunmarked.1, hunmarked.2, hcalls (hok other env report acquired rest rfl hthread ⟨_, _, hadmission⟩)⟩
  · rw [cleared_append trace (fun other first hmem => hbegun ⟨other, first, hmem⟩) hquiet] at hcleared
    have hgone := h hcleared
    have hsend : micro ≠ .send id pongFlagOtaAbort := fun hsame =>
      hgone.calls t (hthread ▸ hsame ▸ List.mem_cons_self)
    have hunmarked := runMicro_unmarked t env hgone.unmarked hsend hquiet
    exact ⟨hunmarked.1, hunmarked.2, hcalls hgone.calls⟩

/-- What an accepted BEGIN takes back stays taken back, step by step. -/
theorem abortGone_step (h : ∀ id, cleared id trace = true → AbortGone id s) (hok : NoAbortUnderway s op)
    (htaken : otaStep s op = some (s', es)) (hcleared : cleared id (trace ++ es) = true) :
    AbortGone id s' := by
  cases op with
  | call t call =>
    simp only [otaStep] at htaken
    split at htaken
    case isFalse => cases htaken
    case isTrue =>
      obtain ⟨rfl, rfl⟩ := Prod.mk.inj (Option.some.inj htaken)
      rw [← List.singleton_append, ← List.append_assoc, cleared_finish,
        cleared_append trace (by simp) (by simp)] at hcleared
      have hgone := h id hcleared
      refine ⟨hgone.tombstone, hgone.slot, fun other hmem => ?_⟩
      replace hmem : Micro.send id pongFlagOtaAbort ∈ update s.threads t call.start other := hmem
      by_cases hsame : other = t
      · rw [hsame, Function.update_self] at hmem
        exact start_leads call hmem
      · rw [Function.update_of_ne hsame] at hmem
        exact hgone.calls other hmem
  | run t env =>
    simp only [otaStep] at htaken
    cases hthread : s.threads t with
    | nil =>
      rw [hthread] at htaken
      cases htaken
    | cons micro rest =>
      rw [hthread] at htaken
      obtain ⟨rfl, rfl⟩ := Prod.mk.inj (Option.some.inj htaken)
      rw [← List.append_assoc, cleared_finish] at hcleared
      exact abortGone_run (h id) hthread hok hcleared
  | ack other now stamp packet =>
    obtain ⟨rfl, rfl⟩ := Prod.mk.inj (Option.some.inj htaken)
    rw [cleared_append trace (by simp) (by simp)] at hcleared
    have hgone := h id hcleared
    exact ⟨fillAck_abortValid other stamp (some packet) hgone.tombstone, hgone.slot, hgone.calls⟩
  | pong ping =>
    have hpong : s.pong ping = (s', es) := Option.some.inj htaken
    obtain ⟨⟨tracker, abortValid, hframe⟩, -, hevents⟩ := pong_frame hpong
    have hbefore : cleared id trace = true := by
      rw [← hcleared]
      refine (cleared_append trace (fun t first hmem => ?_) fun hmem => ?_).symm
      · rcases hevents _ hmem with ⟨other, ack, heq⟩ | ⟨other, command, heq⟩ <;> cases heq
      · rcases hevents _ hmem with ⟨other, ack, heq⟩ | ⟨other, command, heq⟩ <;> cases heq
    have hgone := h id hbefore
    have hunmarked := pong_unmarked ping hgone.unmarked
    rw [hpong] at hunmarked
    exact ⟨hunmarked.1, hunmarked.2, fun t => by rw [hframe]; exact hgone.calls t⟩
  | remote other flag =>
    obtain ⟨rfl, rfl⟩ := Prod.mk.inj (Option.some.inj htaken)
    by_cases habort : flag = pongFlagOtaAbort
    · rw [if_pos habort] at hcleared
      by_cases hsame : other = id
      · rw [cleared_of_requested trace (by simp) (List.mem_singleton.mpr (congrArg _ hsame.symm))] at hcleared
        cases hcleared
      · rw [cleared_append trace (by simp) (by simpa using fun heq => hsame heq.symm)] at hcleared
        have hgone := h id hcleared
        refine ⟨hgone.tombstone, ?_, hgone.calls⟩
        show update s.command other flag id ≠ _
        rw [Function.update_of_ne (Ne.symm hsame)]
        exact hgone.slot
    · rw [if_neg habort, List.append_nil] at hcleared
      have hgone := h id hcleared
      refine ⟨hgone.tombstone, ?_, hgone.calls⟩
      show update s.command other flag id ≠ _
      by_cases hsame : id = other
      · rw [hsame, Function.update_self]
        exact habort
      · rw [Function.update_of_ne hsame]
        exact hgone.slot
  | stored count | radio busy | fault =>
    obtain ⟨rfl, rfl⟩ := Prod.mk.inj (Option.some.inj htaken)
    rw [List.append_nil] at hcleared
    exact ⟨(h id hcleared).tombstone, (h id hcleared).slot, (h id hcleared).calls⟩

/-- The answers of a step obey the law. -/
theorem clearedLaw_step (h : ∀ id, cleared id trace = true → AbortGone id s)
    (hlaw : EachAfter ClearedLaw trace) (htaken : otaStep s op = some (s', es)) :
    EachAfter ClearedLaw (trace ++ es) := by
  have hquiet : ((∀ id now stamp packet, op ≠ .ack id now stamp packet) ∧ ∀ ping, op ≠ .pong ping) →
      EachAfter ClearedLaw (trace ++ es) := by
    rintro ⟨hack, hpong⟩
    refine hlaw.append fun earlier e he => ?_
    cases e with
    | ponged id command =>
      rcases otaStep_answer htaken he (.inr ⟨_, _, rfl⟩) with ⟨_, _, _, _, heq⟩ | ⟨_, heq⟩
      · exact absurd heq (hack _ _ _ _)
      · exact absurd heq (hpong _)
    | acked id ack =>
      rcases otaStep_answer htaken he (.inl ⟨_, _, rfl⟩) with ⟨_, _, _, _, heq⟩ | ⟨_, heq⟩
      · exact absurd heq (hack _ _ _ _)
      · exact absurd heq (hpong _)
    | _ => exact trivial
  cases op with
  | ack id now stamp packet =>
    obtain ⟨rfl, rfl⟩ := Prod.mk.inj (Option.some.inj htaken)
    cases hack : (s.answer id now stamp (some packet)).2 with
    | none =>
      rw [Option.map_none, Option.toList_none, List.append_nil]
      exact hlaw
    | some ack =>
      rw [Option.map_some, Option.toList_some]
      refine eachAfter_snoc.mpr ⟨hlaw, fun hcleared bytes hbytes => ?_⟩
      have htombstone := fillAck_abort (hack.trans (congrArg _ hbytes))
      exact Bool.false_ne_true ((h id hcleared).tombstone.symm.trans htombstone)
  | pong ping =>
    have hpong : s.pong ping = (s', es) := Option.some.inj htaken
    have hes : es = (s.pong ping).2 := by rw [hpong]
    rcases pong_events ping s with hnone | ⟨e, hone⟩
    · rw [hes, hnone, List.append_nil]
      exact hlaw
    · rw [hes, hone]
      refine eachAfter_snoc.mpr ⟨hlaw, ?_⟩
      rcases pong_abort (hone ▸ List.mem_singleton_self e) with ⟨command, rfl, habort⟩ | ⟨ack, rfl, habort⟩
      · exact fun hcleared heq => habort heq (h ping.id hcleared).unmarked
      · exact fun hcleared bytes heq => habort bytes heq (h ping.id hcleared).unmarked
  | _ => exact hquiet ⟨fun _ _ _ _ => OtaOp.noConfusion, fun _ => OtaOp.noConfusion⟩

theorem abortGone_init : AbortGone id .init := ⟨rfl, by show pongFlagNormal ≠ _; decide, fun t hmem => by cases hmem⟩

end Runs

/-- In every run whose accepted BEGINs find no abort of their tracker underway, a tracker has no
`OTA_ABORT` in its slot, and is sent none, from such a BEGIN on until another abort is requested. -/
theorem begin_clears_abort {trace : List OtaEvent} {s : OtaWorld}
    (h : otaSystem.RunWhere NoAbortUnderway trace s) :
    (∀ id, cleared id trace = true → s.command id ≠ pongFlagOtaAbort) ∧ EachAfter ClearedLaw trace := by
  have hrun := h.history_invariant
    (P := fun trace s => (∀ id, cleared id trace = true → AbortGone id s) ∧ EachAfter ClearedLaw trace)
    ⟨fun _ _ => abortGone_init, eachAfter_nil⟩ fun trace s op s' es ⟨hgone, hlaw⟩ hok htaken =>
      ⟨fun id => abortGone_step hgone hok htaken, clearedLaw_step hgone hlaw htaken⟩
  exact ⟨fun id hcleared => (hrun.1 id hcleared).slot, hrun.2⟩

/-! ## Aborts on two threads -/

/-- The second half of an abort of a tracker. -/
def Micro.sendsAbort (id : ℕ) : Micro → Bool
  | .send other flag => other == id && flag == pongFlagOtaAbort
  | _ => false

/-- A step of the first two threads, which accepts a BEGIN only while none of them aborts its tracker. -/
def twoThreads (s : OtaWorld) : OtaOp → Bool
  | .call t _ => decide (t < 2)
  | .run t _ => decide (t < 2) && match s.threads t with
    | .lock report _ :: _ => !(s.threads 0 ++ s.threads 1).any (Micro.sendsAbort report.trackerId)
    | _ => true
  | _ => true

/-- The other threads make no calls. -/
theorem idle_step {s s' : OtaWorld} {op : OtaOp} {es : List OtaEvent}
    (h : ∀ t, 2 ≤ t → s.threads t = []) (hok : twoThreads s op = true)
    (htaken : otaStep s op = some (s', es)) : ∀ t, 2 ≤ t → s'.threads t = [] := by
  intro other hother
  rcases otaStep_cases htaken with ⟨t, call, rfl, -, rfl, -⟩ | ⟨t, env, micro, rest, rfl, -, rfl, -⟩ |
    ⟨-, -, hthreads, -⟩
  · have ht : t < 2 := of_decide_eq_true hok
    exact (Function.update_of_ne (by omega) _ _).trans (h other hother)
  · have ht : t < 2 := of_decide_eq_true (Bool.and_eq_true_iff.mp hok).1
    exact (Function.update_of_ne (by omega) _ _).trans (h other hother)
  · rw [hthreads]
    exact h other hother

theorem noAbortUnderway_of_twoThreads {s : OtaWorld} {op : OtaOp} (h : ∀ t, 2 ≤ t → s.threads t = [])
    (hok : twoThreads s op = true) : NoAbortUnderway s op := by
  rintro t env report acquired rest rfl hthread - other hmem
  have hnone : (s.threads 0 ++ s.threads 1).any (Micro.sendsAbort report.trackerId) = false := by
    simpa [twoThreads, hthread] using (Bool.and_eq_true_iff.mp hok).2
  have hin : Micro.send report.trackerId pongFlagOtaAbort ∈ s.threads 0 ++ s.threads 1 := by
    rcases Nat.lt_or_ge other 2 with hlt | hge
    · obtain rfl | rfl : other = 0 ∨ other = 1 := by omega
      · exact List.mem_append_left _ hmem
      · exact List.mem_append_right _ hmem
    · rw [h other hge] at hmem
      cases hmem
  rw [List.any_eq_false] at hnone
  exact hnone _ hin (by simp [Micro.sendsAbort])

/-- A quiet moment, some ticks after reset. -/
def momentAt (now : BitVec 32) : MicroEnvironment := ⟨now, 0, false⟩

/-- A PING of tracker 0 while nothing else goes on. -/
def pingAt (now : BitVec 32) : PingContext where
  id := 0
  env := ⟨.none, false, false, false, false, false, false⟩
  womAdvertised := false
  ackFlag := 0
  probe := false
  now := now
  later := now
  stamp := now

/-- An update of tracker 0 is aborted on the console and begun again when the tombstone has expired. -/
def abortedThenBegun : List OtaOp :=
  [OtaOp.stored 1, .call 0 (.hid beginReport)] ++ List.replicate 22 (OtaOp.run 0 (momentAt 0)) ++
    [OtaOp.call 1 (.consoleAbort 0)] ++ List.replicate 3 (OtaOp.run 1 (momentAt 0)) ++
    [OtaOp.call 0 (.hid beginReport)] ++ List.replicate 22 (OtaOp.run 0 (momentAt 400000)) ++
    [OtaOp.pong (pingAt 400000)]

theorem begin_clears_abort_expired : ∃ trace s, otaSystem.RunWhere NoAbortUnderway trace s ∧
    (.abortRequested 0 ∈ trace ∧ cleared 0 trace = true ∧ .sent 1 0 pongFlagOtaAbort ∈ trace) ∧
    (∀ id, cleared id trace = true → s.command id ≠ pongFlagOtaAbort) ∧ EachAfter ClearedLaw trace := by
  obtain ⟨trace, s, hrun, htest⟩ := (otaSystem.restrict twoThreads).exists_run_of_replay abortedThenBegun
    (fun trace _ => decide (.abortRequested 0 ∈ trace ∧ cleared 0 trace = true ∧
      .sent 1 0 pongFlagOtaAbort ∈ trace)) (by decide +kernel)
  have hwhere := (EventSystem.runWhere_of_restrict (fun s op hok => hok) hrun).of_invariant
    (P := fun s => ∀ t, 2 ≤ t → s.threads t = []) (fun _ _ => rfl)
    (fun s op s' es h hok htaken => idle_step h hok htaken) fun s op => noAbortUnderway_of_twoThreads
  exact ⟨trace, s, hwhere, of_decide_eq_true htest, begin_clears_abort hwhere⟩

/-- A BEGIN for tracker 1. -/
def secondReport : HidReport where
  data := fun k => if k = 0 then 0xF2 else if k = 1 then 1 else 0
  len := 64

/-- Two trackers are updated. The console sets the tombstone of tracker 0, a BEGIN for it is accepted, and
then the console writes its command slot. -/
def begunWithinAbort : List OtaOp :=
  [OtaOp.stored 2, .call 0 (.hid beginReport)] ++ List.replicate 23 (OtaOp.run 0 (momentAt 0)) ++
    [OtaOp.call 0 (.hid secondReport)] ++ List.replicate 2 (OtaOp.run 0 (momentAt 0)) ++
    [OtaOp.call 1 (.consoleAbort 0), .run 1 (momentAt 0)] ++
    [OtaOp.call 0 (.hid beginReport)] ++ List.replicate 2 (OtaOp.run 0 (momentAt 0)) ++ [OtaOp.run 1 (momentAt 0)] ++
    [.call 2 (.status [0x21, 0, 0x01]), .run 2 (momentAt 0), .pong (pingAt 0)]

/-- The new update of tracker 0 is aborted. -/
theorem begin_leaves_abort : ∃ earlier s, otaSystem.Run (earlier ++ [.ponged 0 pongFlagOtaAbort]) s ∧
    cleared 0 earlier = true ∧ s.command 0 = pongFlagOtaAbort ∧
    ¬ EachAfter ClearedLaw (earlier ++ [.ponged 0 pongFlagOtaAbort]) := by
  obtain ⟨trace, s, hrun, htest⟩ := otaSystem.exists_run_of_replay begunWithinAbort
    (fun trace s => decide (trace.getLast? = some (.ponged 0 pongFlagOtaAbort) ∧
      cleared 0 trace.dropLast = true ∧ s.command 0 = pongFlagOtaAbort)) (by decide +kernel)
  obtain ⟨hlast, hcleared, hslot⟩ := of_decide_eq_true htest
  obtain ⟨earlier, rfl⟩ := List.getLast?_eq_some_iff.mp hlast
  rw [List.dropLast_concat] at hcleared
  exact ⟨earlier, s, hrun, hcleared, hslot, fun hlaw => (eachAfter_snoc.mp hlaw).2 hcleared rfl⟩

end SlimeReceiver.Ota
