import Mathlib.Algebra.Ring.Nat
import SlimeReceiver.Ota.Machine
import SlimeReceiver.Ota.Session

/-! # What a thread does next

* **`Prelude`** — a BEGIN before its critical section; **`runMicro_prelude`**, **`runLock_cases`**, how it
  goes on.
* **`EntryEvent`** — what an entry of a call reports, and when.
* **`runMicro_session`**, **`runMicro_radio`**, **`runMicro_work`** — the session, the account of the radio
  operation and the remaining work. -/

namespace SlimeReceiver.Ota

open Function (update)

/-! ## Entries -/

namespace Micro

/-- It may still acquire the radio operation. -/
def acquires : Micro → Bool
  | admission _ | claim _ | checkActive _ | checkAbort _ _ | lock _ false => true
  | _ => false

/-- It stands for an acquired radio operation. -/
def releases : Micro → Bool
  | lock _ true | release => true
  | _ => false

@[simp] theorem acquires_lock (report : HidReport) (acquired : Bool) :
    (lock report acquired).acquires = !acquired := by
  cases acquired <;> rfl

@[simp] theorem releases_lock (report : HidReport) (acquired : Bool) :
    (lock report acquired).releases = acquired := by
  cases acquired <;> rfl

/-- The first check of BEGIN was that of the id. -/
def Admissible : Micro → Prop
  | admission report | claim report | checkActive report | checkAbort report _ | lock report _ =>
    report.trackerId < maxTrackers
  | _ => True

/-- How many steps it leads to at most. -/
def work : Micro → ℕ
  | admission _ => 41
  | lock _ false => 40
  | claim _ => 39
  | checkActive _ => 38
  | checkAbort _ i => 21 + (maxTrackers - i)
  | lock _ true => 19
  | suppress | unsuppress => maxTrackers + 1
  | release | send _ _ | data _ | queue _ _ => 1
  | cancel _ => maxTrackers + 3
  | cancelAll => 2 * maxTrackers + otaMaxParallel + 3
  | forget _ | status _ => maxTrackers + 2

end Micro

/-- What is left of a call. -/
def callWork (call : List Micro) : ℕ := (call.map Micro.work).sum

@[simp] theorem callWork_nil : callWork [] = 0 := rfl

@[simp] theorem callWork_cons (micro : Micro) (call : List Micro) :
    callWork (micro :: call) = micro.work + callWork call := List.sum_cons

@[simp] theorem callWork_append (call rest : List Micro) :
    callWork (call ++ rest) = callWork call + callWork rest := by
  rw [callWork, List.map_append, List.sum_append]
  rfl

/-- Commands are sent one by one. -/
theorem callWork_sends (ids : List ℕ) (flag : BitVec 8) :
    callWork (ids.map fun id => .send id flag) = ids.length := by
  induction ids with
  | nil => rfl
  | cons id ids ih =>
    rw [List.map_cons, callWork_cons, ih, List.length_cons, Nat.add_comm]
    rfl

section Entries

variable {s : OtaWorld} {thread : ℕ} {env : MicroEnvironment} {micro : Micro}

open OtaWorld

theorem collected_length (now : BitVec 32) (others : Bool) :
    (s.collected now others).length ≤ maxTrackers := by
  refine (List.length_filter_le _ _).trans ?_
  rw [List.length_range]
  exact Nat.min_le_right _ _

theorem callWork_endMicros (ended : Bool) : callWork (endMicros ended) ≤ maxTrackers + 1 := by
  cases ended with
  | false => exact Nat.zero_le _
  | true => exact le_rfl

variable (s thread) in
/-- The critical section of BEGIN, case by case. -/
theorem runLock_cases (report : HidReport) (acquired : Bool) (now : BitVec 32) :
    s.runLock thread report acquired now = (s, if acquired then [.release] else [], []) ∨
      (acquired = false ∧ s.runLock thread report acquired now = (s, [.claim report], [])) ∨
      ∃ first, s.relay.admitTarget report now acquired =
          .admitted first ((s.relay.openSession report).enlist report now) ∧
        s.runLock thread report acquired now =
          ({ s with
            relay := (s.relay.openSession report).enlist report now
            command := clearAbort report.trackerId s.command },
            (if first then [Micro.suppress] else []) ++ (if acquired then [.release] else []),
            [.begun thread report.trackerId first]) := by
  unfold OtaWorld.runLock
  cases hadmission : s.relay.admitTarget report now acquired with
  | full => exact .inl rfl
  | needsRadio =>
    refine .inr (.inl ⟨?_, rfl⟩)
    simp only [Relay.admitTarget] at hadmission
    split at hadmission
    case isTrue => cases hadmission
    case isFalse =>
      split at hadmission
      case isTrue hradio => exact hradio.2
      case isFalse => cases hadmission
  | admitted first relay =>
    obtain ⟨-, -, -, rfl⟩ := admitTarget_admitted hadmission
    exact .inr (.inr ⟨first, rfl, rfl⟩)

/-- The entries of a BEGIN before its critical section. -/
inductive Prelude (report : HidReport) : Micro → Prop
  | admission : Prelude report (.admission report)
  | claim : Prelude report (.claim report)
  | checkActive : Prelude report (.checkActive report)
  | checkAbort (i : ℕ) : Prelude report (.checkAbort report i)

/-- What such an entry leads to: nothing, or the next one, or the critical section. -/
inductive PreludeNext (thread : ℕ) (report : HidReport) (micro : Micro) :
    List Micro × List OtaEvent → Prop
  | ended : PreludeNext thread report micro ([], [])
  | goesOn (next : Micro) : next.work < micro.work → Prelude report next →
      PreludeNext thread report micro ([next], [])
  | locks (acquired : Bool) : (Micro.lock report acquired).work < micro.work →
      PreludeNext thread report micro
        ([.lock report acquired], if acquired then [.radioAcquired thread] else [])

theorem Prelude.acquires {report : HidReport} (h : Prelude report micro) :
    micro.acquires = true ∧ micro.releases = false := by
  cases h <;> exact ⟨rfl, rfl⟩

variable (s thread env) in
/-- Such an entry drops an expired tombstone at most, and the BEGIN ends or comes closer to its critical
section. -/
theorem runMicro_prelude {report : HidReport} (h : Prelude report micro) :
    (∃ i now, (s.runMicro thread env micro).1.relay = s.relay ∨
        (s.runMicro thread env micro).1.relay = s.relay.expireAbort i now) ∧
      (s.runMicro thread env micro).1.command = s.command ∧
      PreludeNext thread report micro (s.runMicro thread env micro).2 := by
  cases h with
  | admission =>
    simp only [runMicro]
    split
    case isTrue => exact ⟨⟨0, 0, .inl rfl⟩, rfl, .ended⟩
    case isFalse =>
      refine ⟨⟨0, 0, .inl rfl⟩, rfl, ?_⟩
      cases s.relay.active with
      | false => exact .goesOn _ (by simp [Micro.work]) .claim
      | true => exact .locks false (by simp [Micro.work])
  | claim =>
    simp only [runMicro]
    split
    case isTrue => exact ⟨⟨0, 0, .inl rfl⟩, rfl, .ended⟩
    case isFalse => exact ⟨⟨0, 0, .inl rfl⟩, rfl, .goesOn _ (by simp [Micro.work]) .checkActive⟩
  | checkActive =>
    simp only [runMicro]
    split
    case isTrue => exact ⟨⟨0, 0, .inl rfl⟩, rfl, .ended⟩
    case isFalse =>
      exact ⟨⟨0, 0, .inl rfl⟩, rfl, .goesOn _ (by simp [Micro.work, maxTrackers]) (.checkAbort 0)⟩
  | checkAbort i =>
    simp only [runMicro]
    split
    case isTrue => exact ⟨⟨i, env.now, .inr rfl⟩, rfl, .ended⟩
    case isFalse =>
      split
      case isTrue hmore =>
        refine ⟨⟨i, env.now, .inr rfl⟩, rfl, .goesOn _ ?_ (.checkAbort (i + 1))⟩
        simp only [Micro.work]
        omega
      case isFalse =>
        refine ⟨⟨i, env.now, .inr rfl⟩, rfl, .locks true ?_⟩
        simp only [Micro.work]
        omega

/-- Every entry keeps the session, and reports its end. -/
theorem runMicro_session (h : SessionInvariant s.relay) (hadmissible : micro.Admissible) :
    SessionInvariant (s.runMicro thread env micro).1.relay ∧
      (s.relay.targets ≠ [] → (s.runMicro thread env micro).1.relay.targets = [] →
        .lastLeft thread ∈ (s.runMicro thread env micro).2.2) := by
  have hstays : s.relay.targets ≠ [] → s.relay.targets = [] →
      OtaEvent.lastLeft thread ∈ (s.runMicro thread env micro).2.2 := fun hsome hnone => absurd hnone hsome
  have hended : ∀ {ended : Bool} {r : Relay}, ended = r.targets.isEmpty → r.targets = [] →
      OtaEvent.lastLeft thread ∈ endEvents thread ended := by
    intro ended r hended hnone
    rw [hended, hnone]
    exact List.mem_singleton_self _
  have hprelude : ∀ {report}, Prelude report micro →
      SessionInvariant (s.runMicro thread env micro).1.relay ∧
        (s.relay.targets ≠ [] → (s.runMicro thread env micro).1.relay.targets = [] →
          .lastLeft thread ∈ (s.runMicro thread env micro).2.2) := by
    intro report hprelude
    obtain ⟨⟨i, now, hsame | hexpired⟩, -, -⟩ := runMicro_prelude s thread env hprelude
    · rw [hsame]
      exact ⟨h, hstays⟩
    · rw [hexpired]
      exact ⟨h.expireAbort i now, hstays⟩
  cases micro with
  | admission report => exact hprelude .admission
  | claim report => exact hprelude .claim
  | checkActive report => exact hprelude .checkActive
  | checkAbort report i => exact hprelude (.checkAbort i)
  | lock report acquired =>
    rcases runLock_cases s thread report acquired env.now
      with hrun | ⟨-, hrun⟩ | ⟨first, hadmission, hrun⟩
    · rw [runMicro, hrun]
      exact ⟨h, fun hsome hnone => absurd hnone hsome⟩
    · rw [runMicro, hrun]
      exact ⟨h, fun hsome hnone => absurd hnone hsome⟩
    · rw [runMicro, hrun]
      have hroom := openSession_room report (admitTarget_admitted hadmission).1
      have henlisted := (h.openSession report).enlist env.now hadmissible hroom
      exact ⟨henlisted, fun _ hnone => absurd hnone (henlisted.active.mp rfl)⟩
  | suppress => exact ⟨h.frame rfl rfl fun _ => rfl, hstays⟩
  | release => exact ⟨h, hstays⟩
  | unsuppress => exact ⟨h.frame rfl rfl fun _ => rfl, fun hsome hnone => absurd hnone hsome⟩
  | send id flag => exact ⟨h, fun hsome hnone => absurd hnone hsome⟩
  | data report =>
    have haccepted := h.acceptData report
    refine ⟨haccepted, fun hsome hnone => absurd hnone (haccepted.active.mp ?_)⟩
    show (s.relay.acceptData report).active = true
    unfold Relay.acceptData
    split
    case isTrue => exact h.active.mpr hsome
    case isFalse => exact h.active.mpr hsome
  | queue verify report =>
    have hqueued := h.queueCommand verify report env.now
    refine ⟨hqueued, fun hsome hnone => absurd hnone (hqueued.active.mp ?_)⟩
    show (s.relay.queueCommand verify report env.now).active = true
    simp only [Relay.queueCommand]
    split
    case isTrue => exact h.active.mpr hsome
    case isFalse => exact h.active.mpr hsome
  | cancel id =>
    refine ⟨h.cancelTarget id env.now, fun hsome hnone => List.mem_cons_of_mem _ (hended ?_ hnone)⟩
    exact removeTarget_ended (h.queueAbort id env.now) id hsome
  | cancelAll =>
    refine ⟨SessionInvariant.cancelAll h env.now, fun hsome _ => List.mem_append_right _ ?_⟩
    rw [show (s.relay.cancelAllTargets env.now).2 = true from cancelEach_targets h env.now false hsome]
    exact List.mem_singleton_self _
  | forget id =>
    refine ⟨h.forgetTracker id, fun hsome hnone => hended ?_ hnone⟩
    exact removeTarget_ended h id hsome
  | status packet =>
    obtain ⟨hnoted, hleft⟩ := noteStatus_session h packet env.uptime
    exact ⟨hnoted, fun hsome hnone => List.mem_append_right _ (hended (hleft hsome) hnone)⟩

/-- What an entry reports, and when. -/
inductive EntryEvent (thread : ℕ) (env : MicroEnvironment) (s : OtaWorld) : Micro → OtaEvent → Prop
  | radioAcquired {report : HidReport} {micro : Micro} : Prelude report micro →
      EntryEvent thread env s micro (.radioAcquired thread)
  | radioReleased : EntryEvent thread env s .release (.radioReleased thread)
  | begun (report : HidReport) (acquired first : Bool) :
    s.relay.admitTarget report env.now acquired =
        .admitted first ((s.relay.openSession report).enlist report env.now) →
      EntryEvent thread env s (.lock report acquired) (.begun thread report.trackerId first)
  | dataAccepted (report : HidReport) : s.relay.accepts report = true →
      EntryEvent thread env s (.data report) (.dataAccepted report.seq report.payload)
  | cancelled (id : ℕ) : EntryEvent thread env s (.cancel id) (.abortRequested id)
  | cancelledAll (id : ℕ) : id ∈ s.relay.targets →
      EntryEvent thread env s .cancelAll (.abortRequested id)
  | lastLeft (micro : Micro) : .unsuppress ∈ (s.runMicro thread env micro).2.1 →
      micro.releases = false → EntryEvent thread env s micro (.lastLeft thread)
  | unsuppressing :
    EntryEvent thread env s .unsuppress (.unsuppressing thread (s.collected env.now false))
  | sent (id : ℕ) (flag : BitVec 8) : EntryEvent thread env s (.send id flag) (.sent thread id flag)
  | forwarded (packet report : List (BitVec 8)) :
    EntryEvent thread env s (.status packet) (.forwarded report)

/-- The end of a session leads to the end of the suppression. -/
theorem mem_endEvents {ended : Bool} {e : OtaEvent} (h : e ∈ endEvents thread ended) :
    e = .lastLeft thread ∧ .unsuppress ∈ endMicros ended := by
  cases ended with
  | false => cases h
  | true => exact ⟨List.mem_singleton.mp h, List.mem_singleton_self _⟩

theorem runMicro_events {e : OtaEvent} (he : e ∈ (s.runMicro thread env micro).2.2) :
    EntryEvent thread env s micro e := by
  have hprelude : ∀ {report}, Prelude report micro → e = .radioAcquired thread := by
    intro report hprelude
    cases hnext : (s.runMicro thread env micro).2
    have hstep := (runMicro_prelude s thread env hprelude).2.2
    rw [hnext] at he hstep
    cases hstep with
    | ended => cases he
    | goesOn => cases he
    | locks acquired =>
      cases acquired with
      | false => cases he
      | true => exact List.mem_singleton.mp he
  cases micro with
  | admission report => exact hprelude .admission ▸ .radioAcquired .admission
  | claim report => exact hprelude .claim ▸ .radioAcquired .claim
  | checkActive report => exact hprelude .checkActive ▸ .radioAcquired .checkActive
  | checkAbort report i => exact hprelude (.checkAbort i) ▸ .radioAcquired (.checkAbort i)
  | lock report acquired =>
    rcases runLock_cases s thread report acquired env.now
      with hrun | ⟨-, hrun⟩ | ⟨first, hadmission, hrun⟩
    · rw [runMicro, hrun] at he
      cases he
    · rw [runMicro, hrun] at he
      cases he
    · rw [runMicro, hrun] at he
      rw [List.mem_singleton.mp he]
      exact .begun report acquired first hadmission
  | suppress => cases he
  | release =>
    rw [List.mem_singleton.mp he]
    exact .radioReleased
  | unsuppress =>
    rw [List.mem_singleton.mp he]
    exact .unsuppressing
  | send id flag =>
    rw [List.mem_singleton.mp he]
    exact .sent id flag
  | data report =>
    simp only [runMicro] at he
    split at he
    case isTrue haccepts =>
      rw [List.mem_singleton.mp he]
      exact .dataAccepted report haccepts
    case isFalse => cases he
  | queue verify report => cases he
  | cancel id =>
    rcases List.mem_cons.mp he with rfl | hend
    · exact .cancelled id
    · obtain ⟨rfl, hmicro⟩ := mem_endEvents hend
      exact .lastLeft _ (List.mem_cons_of_mem _ hmicro) rfl
  | cancelAll =>
    rcases List.mem_append.mp he with hid | hend
    · obtain ⟨id, htarget, rfl⟩ := List.mem_map.mp hid
      exact .cancelledAll id htarget
    · obtain ⟨rfl, -⟩ := mem_endEvents hend
      exact .lastLeft _ (List.mem_append_right _ (List.mem_singleton_self _)) rfl
  | forget id =>
    obtain ⟨rfl, hmicro⟩ := mem_endEvents he
    exact .lastLeft _ hmicro rfl
  | status packet =>
    rcases List.mem_append.mp he with hreport | hend
    · obtain ⟨report, -, rfl⟩ := List.mem_map.mp hreport
      exact .forwarded packet report
    · obtain ⟨rfl, hmicro⟩ := mem_endEvents hend
      exact .lastLeft _ hmicro rfl

/-- What an entry does to the account of the radio operation: what it acquires and what is left of it. -/
def RadioStep (thread : ℕ) (micro : Micro) (new : List Micro) (es : List OtaEvent) : Prop :=
  es.count (.radioAcquired thread) + new.countP Micro.acquires ≤ [micro].countP Micro.acquires ∧
    es.count (.radioAcquired thread) + [micro].countP Micro.releases =
      es.count (.radioReleased thread) + new.countP Micro.releases

/-- An entry that has nothing to do with the radio operation. -/
theorem radioStep_of_quiet (hmicro : micro.acquires = false ∧ micro.releases = false)
    (hnew : ∀ m ∈ (s.runMicro thread env micro).2.1, m.acquires = false ∧ m.releases = false) :
    RadioStep thread micro (s.runMicro thread env micro).2.1 (s.runMicro thread env micro).2.2 := by
  have hnone : (s.runMicro thread env micro).2.1.countP Micro.acquires = 0 ∧
      (s.runMicro thread env micro).2.1.countP Micro.releases = 0 := by
    refine ⟨List.countP_eq_zero.mpr fun m hm => ?_, List.countP_eq_zero.mpr fun m hm => ?_⟩
    · rw [(hnew m hm).1]
      exact Bool.false_ne_true
    · rw [(hnew m hm).2]
      exact Bool.false_ne_true
  have hacquired : .radioAcquired thread ∉ (s.runMicro thread env micro).2.2 := by
    intro hmem
    cases runMicro_events hmem with
    | radioAcquired hprelude => exact Bool.false_ne_true (hmicro.1.symm.trans hprelude.acquires.1)
  have hreleased : .radioReleased thread ∉ (s.runMicro thread env micro).2.2 := by
    intro hmem
    cases runMicro_events hmem with
    | radioReleased => cases hmicro.2
  refine ⟨?_, ?_⟩
  · rw [List.count_eq_zero.mpr hacquired, hnone.1]
    exact Nat.zero_le _
  · rw [List.count_eq_zero.mpr hacquired, List.count_eq_zero.mpr hreleased, hnone.2,
      List.countP_singleton, hmicro.2]
    rfl

theorem quiet_sends {ids : List ℕ} {flag : BitVec 8} :
    ∀ m ∈ ids.map fun id => Micro.send id flag, m.acquires = false ∧ m.releases = false := by
  intro m hm
  obtain ⟨id, -, rfl⟩ := List.mem_map.mp hm
  exact ⟨rfl, rfl⟩

theorem quiet_endMicros {ended : Bool} :
    ∀ m ∈ endMicros ended, m.acquires = false ∧ m.releases = false := by
  cases ended with
  | false => exact fun m hm => by cases hm
  | true =>
    intro m hm
    rw [List.mem_singleton.mp hm]
    exact ⟨rfl, rfl⟩

variable (s thread env micro) in
/-- Every entry keeps the account of the radio operation. -/
theorem runMicro_radio :
    RadioStep thread micro (s.runMicro thread env micro).2.1 (s.runMicro thread env micro).2.2 := by
  have hprelude : ∀ {report}, Prelude report micro →
      RadioStep thread micro (s.runMicro thread env micro).2.1 (s.runMicro thread env micro).2.2 := by
    intro report hprelude
    obtain ⟨hacquires, hreleases⟩ := hprelude.acquires
    have hstep := (runMicro_prelude s thread env hprelude).2.2
    generalize (s.runMicro thread env micro).2 = next at hstep ⊢
    cases hstep with
    | ended => simp [RadioStep, hreleases]
    | goesOn next _ hnext => simp [RadioStep, hacquires, hreleases, hnext.acquires]
    | locks acquired => cases acquired <;> simp [RadioStep, hacquires, hreleases]
  cases micro with
  | admission report => exact hprelude .admission
  | claim report => exact hprelude .claim
  | checkActive report => exact hprelude .checkActive
  | checkAbort report i => exact hprelude (.checkAbort i)
  | lock report acquired =>
    rcases runLock_cases s thread report acquired env.now
      with hrun | ⟨rfl, hrun⟩ | ⟨first, -, hrun⟩
    · rw [runMicro, hrun]
      cases acquired with
      | false => exact ⟨Nat.zero_le _, rfl⟩
      | true => exact ⟨le_rfl, rfl⟩
    · rw [runMicro, hrun]
      exact ⟨le_rfl, rfl⟩
    · rw [runMicro, hrun]
      cases acquired <;> cases first <;> simp [RadioStep, Micro.acquires, Micro.releases]
  | release => simp [RadioStep, Micro.acquires, Micro.releases, runMicro]
  | suppress => exact radioStep_of_quiet ⟨rfl, rfl⟩ quiet_sends
  | unsuppress => exact radioStep_of_quiet ⟨rfl, rfl⟩ quiet_sends
  | send id flag => exact radioStep_of_quiet ⟨rfl, rfl⟩ fun m hm => by cases hm
  | data report => exact radioStep_of_quiet ⟨rfl, rfl⟩ fun m hm => by cases hm
  | queue verify report => exact radioStep_of_quiet ⟨rfl, rfl⟩ fun m hm => by cases hm
  | cancel id =>
    exact radioStep_of_quiet ⟨rfl, rfl⟩ (List.forall_mem_cons.mpr ⟨⟨rfl, rfl⟩, quiet_endMicros⟩)
  | cancelAll =>
    refine radioStep_of_quiet ⟨rfl, rfl⟩ fun m hm => ?_
    simp only [runMicro, List.mem_append, List.mem_singleton] at hm
    rcases hm with (hsend | hend) | rfl
    · exact quiet_sends m hsend
    · exact quiet_endMicros m hend
    · exact ⟨rfl, rfl⟩
  | forget id => exact radioStep_of_quiet ⟨rfl, rfl⟩ quiet_endMicros
  | status packet => exact radioStep_of_quiet ⟨rfl, rfl⟩ quiet_endMicros

/-- Every entry leads to less than it stands for. -/
theorem runMicro_work (h : SessionInvariant s.relay) :
    callWork (s.runMicro thread env micro).2.1 < micro.work := by
  have hprelude : ∀ {report}, Prelude report micro →
      callWork (s.runMicro thread env micro).2.1 < micro.work := by
    intro report hprelude
    have hsome : 0 < micro.work := by cases hprelude <;> simp only [Micro.work] <;> omega
    have hstep := (runMicro_prelude s thread env hprelude).2.2
    generalize (s.runMicro thread env micro).2 = next at hstep ⊢
    cases hstep with
    | ended => exact hsome
    | goesOn next hless => simpa using hless
    | locks acquired hless => simpa using hless
  cases micro with
  | admission report => exact hprelude .admission
  | claim report => exact hprelude .claim
  | checkActive report => exact hprelude .checkActive
  | checkAbort report i => exact hprelude (.checkAbort i)
  | lock report acquired =>
    rcases runLock_cases s thread report acquired env.now
      with hrun | ⟨rfl, hrun⟩ | ⟨first, -, hrun⟩
    · rw [runMicro, hrun]
      cases acquired <;> simp [Micro.work]
    · rw [runMicro, hrun]
      simp [Micro.work]
    · rw [runMicro, hrun]
      cases acquired <;> cases first <;> simp [Micro.work, maxTrackers]
  | suppress =>
    show callWork (List.map _ _) < _
    rw [callWork_sends]
    exact Nat.lt_succ_of_le (collected_length _ _)
  | unsuppress =>
    show callWork (List.map _ _) < _
    rw [callWork_sends]
    exact Nat.lt_succ_of_le (collected_length _ _)
  | release | send _ _ | data _ | queue _ _ => exact Nat.zero_lt_one
  | cancel id =>
    have hend := callWork_endMicros (s.relay.cancelTarget id env.now).2
    simp only [runMicro, callWork_cons, Micro.work]
    omega
  | cancelAll =>
    have hend := callWork_endMicros (s.relay.cancelAllTargets env.now).2
    have hfew := h.few
    simp only [runMicro, callWork_append, callWork_cons, callWork_nil, callWork_sends, Micro.work]
    omega
  | forget id =>
    have hend := callWork_endMicros (s.relay.forgetTracker id).2
    simp only [runMicro, Micro.work]
    omega
  | status packet =>
    have hend := callWork_endMicros (s.relay.noteStatus packet env.uptime).2.2
    simp only [runMicro, Micro.work]
    omega

/-- The id of a BEGIN stays checked. -/
theorem runMicro_admissible (h : micro.Admissible) :
    ∀ m ∈ (s.runMicro thread env micro).2.1, m.Admissible := by
  have hend : ∀ ended, ∀ m ∈ endMicros ended, m.Admissible := by
    intro ended m hm
    cases ended with
    | false => cases hm
    | true =>
      rw [List.mem_singleton.mp hm]
      exact trivial
  have hsends : ∀ (ids : List ℕ) (flag : BitVec 8), ∀ m ∈ ids.map fun id => Micro.send id flag,
      m.Admissible := by
    intro ids flag m hm
    obtain ⟨id, -, rfl⟩ := List.mem_map.mp hm
    exact trivial
  have hprelude : ∀ {report}, Prelude report micro → report.trackerId < maxTrackers →
      ∀ m ∈ (s.runMicro thread env micro).2.1, m.Admissible := by
    intro report hprelude hid
    have hstep := (runMicro_prelude s thread env hprelude).2.2
    generalize (s.runMicro thread env micro).2 = next at hstep ⊢
    cases hstep with
    | ended => exact fun m hm => by cases hm
    | goesOn next _ hnext =>
      refine List.forall_mem_singleton.mpr ?_
      cases hnext <;> exact hid
    | locks acquired => exact List.forall_mem_singleton.mpr hid
  cases micro with
  | admission report => exact hprelude .admission h
  | claim report => exact hprelude .claim h
  | checkActive report => exact hprelude .checkActive h
  | checkAbort report i => exact hprelude (.checkAbort i) h
  | lock report acquired =>
    rcases runLock_cases s thread report acquired env.now
      with hrun | ⟨-, hrun⟩ | ⟨first, -, hrun⟩
    · rw [runMicro, hrun]
      cases acquired <;> simp [Micro.Admissible]
    · rw [runMicro, hrun]
      exact List.forall_mem_singleton.mpr h
    · rw [runMicro, hrun]
      cases acquired <;> cases first <;> simp [Micro.Admissible]
  | suppress | unsuppress => exact hsends _ _
  | release | send _ _ | data _ | queue _ _ => exact fun m hm => by cases hm
  | cancel id => exact List.forall_mem_cons.mpr ⟨trivial, hend _⟩
  | cancelAll =>
    intro m hm
    simp only [runMicro, List.mem_append, List.mem_singleton] at hm
    rcases hm with (hsend | hend') | rfl
    · exact hsends _ _ m hsend
    · exact hend _ m hend'
    · exact trivial
  | forget id => exact hend _
  | status packet => exact hend _

end Entries

end SlimeReceiver.Ota
