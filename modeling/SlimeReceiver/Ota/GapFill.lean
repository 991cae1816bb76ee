import SlimeReceiver.Ota.UpdateOutcome

/-! # Gap-fill

Gap-fill is to send the missing packets again once the trackers stall with an empty ring. It takes the ring to be
empty when `in_flight` is zero, but the cursor is at the end of the image by then: as long as a packet is missing,
`in_flight` is not zero.

* **`Stalled`** — the state gap-fill is for; **`Refilled`** — what it is to do.
* **`Streamed`** — the streaming phase is over, which nothing changes. -/

namespace SlimeReceiver.Ota

variable {u : UpdateArgs} {es : List HostEvent} {p : Procedure} {t : Turn}

/-- In five polls of gap-fill in a row `min_consumed` has stayed at `minSeq`. -/
def Point.stalledAt (minSeq : ℕ) : Point → Bool
  | .gapFill stallCount prevMinSeq _ => prevMinSeq = minSeq ∧ 5 ≤ stallCount
  | _ => false

/-- Gap-fill has stalled: all packets are sent, but the smallest `next_seq` stays at `minSeq`. -/
structure Stalled (u : UpdateArgs) (p : Procedure) (minSeq : ℕ) : Prop where
  polled : p.point.stalledAt minSeq = true
  sent : p.nextSeqToSend = u.totalPackets
  reported : p.minConsumed = some minSeq
  missing : minSeq < u.totalPackets
  attempts : p.attempt < maxAttempts
  inTime : p.now < p.overallTimeout

/-- All packets from `minSeq` on are sent before a verification is requested. -/
def Refilled (u : UpdateArgs) (minSeq : ℕ) (later : List HostEvent) : Prop :=
  ∃ before after, later = before ++ after ∧ (∀ id, .sentVerify id ∉ before) ∧
    ∀ seq, minSeq ≤ seq → seq < u.totalPackets → ∃ id, .sentData id seq ∈ before

/-- The streaming phase is over for good. -/
def Streamed (u : UpdateArgs) (p : Procedure) : Prop :=
  match p.point with
  | .gapFill _ _ _ => p.nextSeqToSend = u.totalPackets
  | .waiting .verified _ | .waiting .activated _ | .returned _ | .raised _ => True
  | _ => False

namespace Procedure

/-- Nothing that is sent is DATA. -/
def NoData (es : List HostEvent) : Prop := ∀ id seq, .sentData id seq ∉ es

theorem finishTransfer_streamed (t : Turn) (p : Procedure) :
    Streamed u (p.finishTransfer t).1 ∧ NoData (p.finishTransfer t).2 := by
  unfold finishTransfer
  split
  case isTrue => exact ⟨trivial, fun id seq hmem => by cases hmem⟩
  case isFalse =>
    refine ⟨trivial, fun id seq hmem => ?_⟩
    obtain ⟨_, _, hcommand⟩ := List.mem_map.mp hmem
    cases hcommand

/-- With the cursor at the end and a packet missing `in_flight` is not zero. -/
theorem checkStall_streamed {stallCount gapTimeout : ℕ} {prevMinSeq : ℤ} (hsent : p.nextSeqToSend = u.totalPackets) :
    Streamed u (p.checkStall u stallCount prevMinSeq gapTimeout t).1 ∧
      NoData (p.checkStall u stallCount prevMinSeq gapTimeout t).2 := by
  have hnone : NoData [] := fun id seq hmem => by cases hmem
  unfold checkStall
  split
  case h_1 => exact ⟨trivial, hnone⟩
  case h_2 minConsumed _ =>
    split
    case isTrue => exact finishTransfer_streamed t p
    case isFalse hmissing =>
      split
      case isTrue =>
        split
        case isTrue hempty =>
          have hflight := hempty.2
          omega
        case isFalse => exact ⟨hsent, hnone⟩
      case isFalse => exact ⟨hsent, hnone⟩

theorem gapTurn_streamed {stallCount gapTimeout : ℕ} {prevMinSeq : ℤ} (hsent : p.nextSeqToSend = u.totalPackets) :
    Streamed u (p.gapTurn u stallCount prevMinSeq gapTimeout t).1 ∧
      NoData (p.gapTurn u stallCount prevMinSeq gapTimeout t).2 := by
  unfold gapTurn
  split
  case isTrue =>
    split
    case h_1 => exact ⟨trivial, fun id seq hmem => by cases hmem⟩
    case h_2 =>
      split
      case isTrue => exact finishTransfer_streamed t _
      case isFalse =>
        have hsame := noteGapFills_same t.statuses (p.pass (t.early + 200 + t.late))
        refine ⟨(checkStall_streamed (hsame.nextSeqToSend.trans hsent)).1, fun id seq hmem => ?_⟩
        rcases List.mem_append.mp hmem with hread | hnext
        · obtain ⟨_, _, hread⟩ := List.mem_map.mp hread
          cases hread
        · exact (checkStall_streamed (hsame.nextSeqToSend.trans hsent)).2 id seq hnext
  case isFalse => exact finishTransfer_streamed t _

/-- After step 2 there is no DATA. -/
theorem waitTurn_streamed (u : UpdateArgs) (w : StatusWait) (t : Turn) {awaited : Awaited} (hawaited : awaited ≠ .ready) :
    Streamed u (p.waitTurn u awaited w t).1 ∧ NoData (p.waitTurn u awaited w t).2 := by
  simp only [waitTurn]
  split
  case isTrue =>
    refine ⟨?_, fun id seq hmem => ?_⟩
    · cases awaited with
      | ready => exact absurd rfl hawaited
      | verified => trivial
      | activated => trivial
    · rcases List.mem_append.mp hmem with hresend | hread
      · split at hresend
        case isTrue =>
          obtain ⟨_, _, hcommand⟩ := List.mem_map.mp hresend
          cases awaited <;> cases hcommand
        case isFalse => cases hresend
      · split at hread
        case isTrue =>
          obtain ⟨_, _, hread⟩ := List.mem_map.mp hread
          cases hread
        case isFalse => cases hread
  case isFalse =>
    have habort : NoData [HostEvent.sentAbort] := fun id seq hmem => by cases List.mem_singleton.mp hmem
    cases awaited with
    | ready => exact absurd rfl hawaited
    | verified =>
      simp only [afterWait]
      split
      case isTrue => exact ⟨trivial, habort⟩
      case isFalse =>
        refine ⟨trivial, fun id seq hmem => ?_⟩
        obtain ⟨_, _, hcommand⟩ := List.mem_map.mp hmem
        cases hcommand
    | activated => exact ⟨trivial, habort⟩

theorem turn_streamed {p' : Procedure} (h : Streamed u p) (hturn : p.turn u t = some (p', es)) :
    Streamed u p' ∧ NoData es := by
  unfold turn at hturn
  split at hturn
  case h_1 hpoint => simp only [Streamed, hpoint] at h
  case h_2 awaited w hpoint =>
    obtain ⟨rfl, rfl⟩ := Prod.mk.inj (Option.some.inj hturn)
    refine waitTurn_streamed u w t ?_
    rintro rfl
    simp only [Streamed, hpoint] at h
  case h_3 hpoint => simp only [Streamed, hpoint] at h
  case h_4 stallCount prevMinSeq gapTimeout hpoint =>
    obtain ⟨rfl, rfl⟩ := Prod.mk.inj (Option.some.inj hturn)
    simp only [Streamed, hpoint] at h
    exact gapTurn_streamed h
  case h_5 => cases hturn
  case h_6 => cases hturn

end Procedure

/-- Once gap-fill has begun with all packets sent, no DATA is sent any more. -/
theorem exec_noData {turns : List Turn} {p' : Procedure} (h : Streamed u p)
    (hexec : (doUpdate u).exec p turns = some (p', es)) : Procedure.NoData es := by
  have hboth : Procedure.NoData es ∧ Streamed u p' := by
    refine EventSystem.exec_invariant (P := fun es p => Procedure.NoData es ∧ Streamed u p) ?_ ⟨?_, h⟩ hexec
    · rintro trace p t p' es ⟨htrace, hstreamed⟩ hturn
      obtain ⟨hnext, hes⟩ := Procedure.turn_streamed hstreamed hturn
      refine ⟨fun id seq hmem => ?_, hnext⟩
      exact (List.mem_append.mp hmem).elim (htrace id seq) (hes id seq)
    · intro id seq hmem
      cases hmem
  exact hboth.1

theorem Stalled.streamed {minSeq : ℕ} (h : Stalled u p minSeq) : Streamed u p := by
  have hpolled := h.polled
  cases hpoint : p.point with
  | gapFill stallCount prevMinSeq gapTimeout =>
    simp only [Streamed, hpoint]
    exact h.sent
  | called => rw [hpoint] at hpolled; cases hpolled
  | waiting awaited w => rw [hpoint] at hpolled; cases hpolled
  | streaming => rw [hpoint] at hpolled; cases hpolled
  | returned success => rw [hpoint] at hpolled; cases hpolled
  | raised error => rw [hpoint] at hpolled; cases hpolled

/-- Gap-fill never fills a gap: whatever follows a stall, the missing packets are not sent again. -/
theorem gap_never_refilled {turns : List Turn} {p' : Procedure} {later : List HostEvent} {minSeq : ℕ}
    (hstalled : Stalled u p minSeq) (hexec : (doUpdate u).exec p turns = some (p', later)) :
    ¬ Refilled u minSeq later := by
  rintro ⟨before, after, rfl, _, hsent⟩
  obtain ⟨id, hdata⟩ := hsent minSeq (Nat.le_refl _) hstalled.missing
  exact exec_noData hstalled.streamed hexec id minSeq (List.mem_append_left _ hdata)

instance (u : UpdateArgs) (p : Procedure) (minSeq : ℕ) : Decidable (Stalled u p minSeq) :=
  decidable_of_iff (p.point.stalledAt minSeq = true ∧ p.nextSeqToSend = u.totalPackets ∧
      p.minConsumed = some minSeq ∧ minSeq < u.totalPackets ∧ p.attempt < maxAttempts ∧ p.now < p.overallTimeout)
    ⟨fun ⟨hpolled, hsent, hreported, hmissing, hattempts, hinTime⟩ =>
        ⟨hpolled, hsent, hreported, hmissing, hattempts, hinTime⟩,
      fun h => ⟨h.polled, h.sent, h.reported, h.missing, h.attempts, h.inTime⟩⟩

/-- Tracker 3 receives the first packet but not the second. -/
def stalling : List Turn :=
  [turnWith [], turnWith [statusFrom 3 0x01 0], turnWith [], turnWith [statusFrom 3 0x02 1]] ++
    List.replicate 7 (turnWith [])

/-- Gap-fill waits for the second packet until its time is up, and the verification is requested. -/
theorem exists_stall : ∃ trace p p' later, (doUpdate twoPackets).Run trace p ∧ Stalled twoPackets p 1 ∧
    (doUpdate twoPackets).exec p (List.replicate 70 (turnWith [])) = some (p', later) ∧ .sentVerify 3 ∈ later := by
  have hreplay : ((doUpdate twoPackets).exec .init stalling).any (fun r => decide (Stalled twoPackets r.1 1) &&
      ((doUpdate twoPackets).exec r.1 (List.replicate 70 (turnWith []))).any fun q =>
        decide (.sentVerify 3 ∈ q.2)) = true := by decide +kernel
  obtain ⟨⟨p, trace⟩, hexec, htest⟩ := (Option.any_eq_true _ _).mp hreplay
  obtain ⟨hstalled, hmore⟩ := Bool.and_eq_true_iff.mp htest
  obtain ⟨⟨p', later⟩, hlater, hverify⟩ := (Option.any_eq_true _ _).mp hmore
  exact ⟨trace, p, p', later, EventSystem.run_of_exec hexec, of_decide_eq_true hstalled, hlater,
    of_decide_eq_true hverify⟩

/-- The missing packet is not sent again there. -/
theorem gap_never_refilled_two : ∃ p p' later, Stalled twoPackets p 1 ∧
    (doUpdate twoPackets).exec p (List.replicate 70 (turnWith [])) = some (p', later) ∧ .sentVerify 3 ∈ later ∧
      ¬ Refilled twoPackets 1 later := by
  obtain ⟨_, p, p', later, _, hstalled, hexec, hverify⟩ := exists_stall
  exact ⟨p, p', later, hstalled, hexec, hverify, gap_never_refilled hstalled hexec⟩

/-- Not every gap is filled before the verification is requested. -/
theorem stall_not_refilled : ¬ ∀ u trace p minSeq turns p' later, (doUpdate u).Run trace p → Stalled u p minSeq →
    (doUpdate u).exec p turns = some (p', later) → (∃ id, .sentVerify id ∈ later) → Refilled u minSeq later := by
  intro hall
  obtain ⟨trace, p, p', later, hrun, hstalled, hexec, hverify⟩ := exists_stall
  obtain ⟨before, after, rfl, _, hsent⟩ := hall _ _ _ _ _ _ _ hrun hstalled hexec ⟨3, hverify⟩
  obtain ⟨id, hdata⟩ := hsent 1 (Nat.le_refl _) hstalled.missing
  exact exec_noData hstalled.streamed hexec id 1 (List.mem_append_left _ hdata)

end SlimeReceiver.Ota
