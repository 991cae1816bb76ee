import Mathlib.Data.Int.ConditionallyCompleteOrder
import Mathlib.Data.List.MinMax
import Mathlib.Order.ConditionallyCompleteLattice.Basic
import SlimeReceiver.AutoChannel.Policy
import SlimeReceiver.Library.EventSystem

/-! # The table of peers

`ac_observe` over any sequence of frames at times that do not decrease, beside everything that was
accepted so far.

* **`slotOf_cases`** — the entry a beacon goes into.
* **`peerTable`** — the calls as a system; **`heard`**, **`consecutive`** — what was accepted of a peer.
* **`PeerInvariant`** — the table holds the last word of every peer it has not given up.
* **`foldl_better_eq_argmax`** — the loop of `ac_choose` looks for the first best channel.
* **`peer_table`** — the table and the choice of a channel. -/

namespace SlimeReceiver.AutoChannel

open Function (update update_self update_of_ne)

/-- The identity of an entry that was never used; no beacon has it. -/
def zeroId : List (BitVec 8) := [0, 0, 0, 0, 0, 0]

/-! ## Slots -/

namespace AcPolicy

section Slots

variable {id : List (BitVec 8)} {now : ℤ} {peers : ℕ → AcPeer} {slot : Option ℕ} {l : List ℕ}
  {p : AcPolicy}

/-- An entry of the peer is found wherever it is. -/
theorem slotFrom_of_mem (now : ℤ) (slot : Option ℕ) (h : ∃ i ∈ l, (peers i).id = id) :
    ∃ i ∈ l, slotFrom id now peers slot l = some i ∧ (peers i).id = id := by
  induction l generalizing slot with
  | nil =>
    obtain ⟨i, hi, -⟩ := h
    cases hi
  | cons i l ih =>
    by_cases hown : (peers i).id = id
    · exact ⟨i, List.mem_cons_self, if_pos hown, hown⟩
    · obtain ⟨j, hj, hid⟩ := h
      have hrest : j ∈ l := by
        rcases List.mem_cons.mp hj with rfl | hj
        · exact absurd hid hown
        · exact hj
      obtain ⟨k, hk, hslot, hkid⟩ := ih _ ⟨j, hrest, hid⟩
      exact ⟨k, List.mem_cons_of_mem _ hk, (if_neg hown).trans hslot, hkid⟩

/-- Without one it is the first entry that is not fresh. -/
theorem slotFrom_of_forall_ne (h : ∀ i ∈ l, (peers i).id ≠ id) :
    slotFrom id now peers slot l = slot.or (l.find? fun i => !(peers i).fresh now) := by
  induction l generalizing slot with
  | nil => exact Option.or_none.symm
  | cons i l ih =>
    rw [slotFrom, if_neg (h i List.mem_cons_self), ih fun j hj => h j (List.mem_cons_of_mem _ hj),
      List.find?_cons]
    cases slot with
    | none => cases (peers i).fresh now <;> rfl
    | some _ => cases (peers i).fresh now <;> rfl

/-- A beacon goes into the entry of its peer, else into one that is not fresh, else nowhere. -/
theorem slotOf_cases (id : List (BitVec 8)) (now : ℤ) (p : AcPolicy) :
    (∃ i < acPeers, p.slotOf id now = some i ∧ (p.peers i).id = id) ∨
    ((∀ i < acPeers, (p.peers i).id ≠ id) ∧
      ∃ i < acPeers, p.slotOf id now = some i ∧ (p.peers i).fresh now = false) ∨
    ((∀ i < acPeers, (p.peers i).id ≠ id ∧ (p.peers i).fresh now = true) ∧ p.slotOf id now = none) := by
  by_cases hknown : ∃ i ∈ List.range acPeers, (p.peers i).id = id
  · obtain ⟨i, hi, hslot, hid⟩ := slotFrom_of_mem now none hknown
    exact .inl ⟨i, List.mem_range.mp hi, hslot, hid⟩
  · have hnone : ∀ i ∈ List.range acPeers, (p.peers i).id ≠ id := fun i hi hid => hknown ⟨i, hi, hid⟩
    have hslot : p.slotOf id now = (List.range acPeers).find? fun i => !(p.peers i).fresh now :=
      (slotFrom_of_forall_ne hnone).trans Option.none_or
    right
    cases hfind : (List.range acPeers).find? fun i => !(p.peers i).fresh now with
    | some i =>
      have hstale := List.find?_some hfind
      refine .inl ⟨fun i hi => hnone i (List.mem_range.mpr hi), i,
        List.mem_range.mp (List.mem_of_find?_eq_some hfind), hslot.trans hfind, ?_⟩
      rw [Bool.not_eq_true'] at hstale
      exact hstale
    | none =>
      refine .inr ⟨fun i hi => ⟨hnone i (List.mem_range.mpr hi), ?_⟩, hslot.trans hfind⟩
      have hfresh := List.find?_eq_none.mp hfind i (List.mem_range.mpr hi)
      rw [Bool.not_eq_true', Bool.not_eq_false] at hfresh
      exact hfresh

/-- A beacon of another receiver for which there is no entry. -/
def lacksRoom (frame : List (BitVec 8)) (now : ℤ) (p : AcPolicy) : Bool :=
  !p.refuses frame && (p.slotOf (frameId frame) now).isNone

/-- What an accepted beacon makes of its entry. -/
def recorded (frame : List (BitVec 8)) (now : ℤ) (peer : AcPeer) : AcPeer where
  id := frameId frame
  channel := (frameAt frame 10).toNat
  observations :=
    let same := (peer.fresh now && peer.id == frameId frame) && peer.channel == (frameAt frame 10).toNat
    let count := if same then peer.observations else 0
    if count < 3 then count + 1 else 3
  sequence := frameSequence frame
  seen := now

theorem acObserve_false {frame : List (BitVec 8)} (h : (p.acObserve frame now).2 = false) :
    (p.acObserve frame now).1 = p := by
  revert h
  unfold acObserve
  split
  case isTrue => exact fun _ => rfl
  case isFalse =>
    split
    case h_1 => exact fun _ => rfl
    case h_2 =>
      dsimp only
      split
      case isTrue => exact fun _ => rfl
      case isFalse =>
        intro h
        cases h

/-- What is accepted is a beacon, newer than the last one of a fresh peer, and replaces one entry. -/
theorem acObserve_true {frame : List (BitVec 8)} (h : (p.acObserve frame now).2 = true) :
    p.refuses frame = false ∧ ∃ i, p.slotOf (frameId frame) now = some i ∧
      ((p.peers i).fresh now = true → (p.peers i).id = frameId frame →
        0 < (frameSequence frame - (p.peers i).sequence).toInt) ∧
      (p.acObserve frame now).1 = { p with peers := update p.peers i (recorded frame now (p.peers i)) } := by
  revert h
  unfold acObserve
  split
  case isTrue =>
    intro h
    cases h
  case isFalse hbeacon =>
    split
    case h_1 =>
      intro h
      cases h
    case h_2 i hslot =>
      dsimp only
      split
      case isTrue =>
        intro h
        cases h
      case isFalse hnew =>
        refine fun _ => ⟨Bool.eq_false_iff.mpr hbeacon, i, hslot, fun hfresh hid => ?_, rfl⟩
        rw [hfresh, hid, beq_self_eq_true, Bool.and_self, Bool.true_and, decide_eq_true_eq, not_le] at hnew
        exact hnew

end Slots

end AcPolicy

/-! ## What was accepted -/

/-- A beacon the table has accepted. -/
structure Beacon where
  id : List (BitVec 8)
  channel : ℕ
  sequence : BitVec 16
  now : ℤ
  deriving DecidableEq

/-- The beacon of a frame. -/
def Beacon.ofFrame (frame : List (BitVec 8)) (now : ℤ) : Beacon :=
  ⟨frameId frame, (frameAt frame 10).toNat, frameSequence frame, now⟩

/-- Calls of `ac_observe` on an empty table, with the time of the last one. -/
def peerTable (identity : List (BitVec 8)) (start : ℤ) :
    EventSystem (ℤ × AcPolicy) (List (BitVec 8) × ℤ) Beacon where
  init := (start, ⟨identity, fun _ => .zero, 0⟩)
  step s call :=
    if s.1 ≤ call.2 then
      let observed := s.2.acObserve call.1 call.2
      some ((call.2, observed.1), if observed.2 then [.ofFrame call.1 call.2] else [])
    else none

/-- The accepted beacons of a peer, the latest first. -/
def heard (id : List (BitVec 8)) (trace : List Beacon) : List Beacon :=
  (trace.filter fun b => b.id == id).reverse

/-- How many beacons in a row, the latest first, were on a channel, each accepted while its peer was still
fresh from the one before. -/
def consecutive (channel : ℕ) : List Beacon → ℕ
  | [] => 0
  | b :: earlier =>
    if b.channel = channel then
      (if earlier.head?.any fun b' => decide (b'.now ≤ b.now) && decide (b.now - b'.now < acExpiryMs) then
        consecutive channel earlier else 0) + 1
    else 0

/-- What holds of the table after every call. -/
structure PeerInvariant (trace : List Beacon) (clock : ℤ) (p : AcPolicy) : Prop where
  unique : ∀ i < acPeers, ∀ j < acPeers, (p.peers i).id = (p.peers j).id → (p.peers i).id ≠ zeroId → i = j
  latest : ∀ i < acPeers, (p.peers i).id ≠ zeroId → ∃ b earlier, heard (p.peers i).id trace = b :: earlier ∧
    b.channel = (p.peers i).channel ∧ b.now = (p.peers i).seen
  counted : ∀ i < acPeers,
    (p.peers i).observations = min 3 (consecutive (p.peers i).channel (heard (p.peers i).id trace))
  seen_le : ∀ i < acPeers, (p.peers i).id ≠ zeroId → (p.peers i).seen ≤ clock
  /-- A peer without an entry has expired. -/
  gone : ∀ id, (∀ i < acPeers, (p.peers i).id ≠ id) → ∀ b ∈ (heard id trace).head?, acExpiryMs ≤ clock - b.now
  nobody : heard zeroId trace = []

section Table

variable {trace : List Beacon} {clock now : ℤ} {p : AcPolicy} {frame : List (BitVec 8)} {b : Beacon}
  {earlier : List Beacon} {i : ℕ}

theorem heard_concat_self (trace : List Beacon) (b : Beacon) : heard b.id (trace ++ [b]) = b :: heard b.id trace := by
  simp [heard]

theorem heard_concat_of_ne {id : List (BitVec 8)} (trace : List Beacon) (h : b.id ≠ id) :
    heard id (trace ++ [b]) = heard id trace := by
  simp [heard, h]

theorem consecutive_other {channel : ℕ} (h : b.channel ≠ channel) : consecutive channel (b :: earlier) = 0 :=
  if_neg h

theorem consecutive_start (h : ∀ b' ∈ earlier.head?, acExpiryMs ≤ b.now - b'.now) :
    consecutive b.channel (b :: earlier) = 1 := by
  have hgap : (earlier.head?.any fun b' => decide (b'.now ≤ b.now) && decide (b.now - b'.now < acExpiryMs)) =
      false := by
    rw [Option.any_eq_false]
    intro b' hb'
    rw [Bool.and_eq_false_iff]
    exact .inr (decide_eq_false (not_lt.mpr (h b' hb')))
  rw [consecutive, if_pos rfl, hgap]
  rfl

theorem consecutive_next {b' : Beacon} (hle : b'.now ≤ b.now) (hlt : b.now - b'.now < acExpiryMs) :
    consecutive b.channel (b :: b' :: earlier) = consecutive b.channel (b' :: earlier) + 1 := by
  rw [consecutive, if_pos rfl, if_pos]
  rw [List.head?_cons, Option.any_some, decide_eq_true hle, decide_eq_true hlt]
  rfl

/-- An entry never used is not fresh. -/
theorem PeerInvariant.unused (h : PeerInvariant trace clock p) (hi : i < acPeers) (hzero : (p.peers i).id = zeroId)
    (now : ℤ) : (p.peers i).fresh now = false := by
  have hcount := h.counted i hi
  rw [hzero, h.nobody] at hcount
  rw [AcPeer.fresh, hcount]
  rfl

/-- An entry that is not fresh any more has expired. -/
theorem PeerInvariant.expired (h : PeerInvariant trace clock p) (hi : i < acPeers) (hid : (p.peers i).id ≠ zeroId)
    (hclock : clock ≤ now) (hstale : (p.peers i).fresh now = false) : acExpiryMs ≤ now - (p.peers i).seen := by
  obtain ⟨b, earlier, hheard, hchannel, -⟩ := h.latest i hi hid
  have hcount := h.counted i hi
  have hpositive : 0 < consecutive (p.peers i).channel (b :: earlier) := by
    rw [consecutive, if_pos hchannel]
    exact Nat.succ_pos _
  rw [hheard] at hcount
  have hobserved : ((p.peers i).observations != 0) = true := by
    rw [bne_iff_ne, hcount]
    omega
  have hseen : (p.peers i).seen ≤ now := (h.seen_le i hi hid).trans hclock
  rw [AcPeer.fresh, hobserved, decide_eq_true hseen, Bool.true_and, Bool.true_and, decide_eq_false_iff_not,
    not_lt] at hstale
  exact hstale

theorem PeerInvariant.fresh_seen (h : (p.peers i).fresh now = true) :
    (p.peers i).seen ≤ now ∧ now - (p.peers i).seen < acExpiryMs := by
  rw [AcPeer.fresh, Bool.and_eq_true, Bool.and_eq_true, decide_eq_true_eq, decide_eq_true_eq] at h
  exact ⟨h.1.2, h.2⟩

/-- Time alone keeps the invariant. -/
theorem PeerInvariant.later (h : PeerInvariant trace clock p) (hclock : clock ≤ now) :
    PeerInvariant trace now p :=
  { h with
    seen_le := fun i hi hid => (h.seen_le i hi hid).trans hclock
    gone := fun id hout b hb => (h.gone id hout b hb).trans (Int.sub_le_sub_right hclock _) }

/-- What an accepted beacon counts. -/
theorem PeerInvariant.recorded_observations (h : PeerInvariant trace clock p) (hclock : clock ≤ now) (hi : i < acPeers)
    (hpeer : frameId frame ≠ zeroId) (honly : ∀ j < acPeers, (p.peers j).id = frameId frame → j = i) :
    (AcPolicy.recorded frame now (p.peers i)).observations = min 3 (consecutive (frameAt frame 10).toNat
      (Beacon.ofFrame frame now :: heard (frameId frame) trace)) := by
  by_cases hknown : (p.peers i).fresh now = true ∧ (p.peers i).id = frameId frame
  · obtain ⟨hfresh, hid⟩ := hknown
    obtain ⟨b, earlier, hheard, hchannel, hseen⟩ := h.latest i hi (by rw [hid]; exact hpeer)
    obtain ⟨hle, hlt⟩ := PeerInvariant.fresh_seen hfresh
    rw [← hseen] at hle hlt
    have hcount := h.counted i hi
    rw [hid] at hheard hcount
    have hnext : consecutive (frameAt frame 10).toNat (Beacon.ofFrame frame now :: b :: earlier) =
        consecutive (frameAt frame 10).toNat (b :: earlier) + 1 :=
      consecutive_next (b := Beacon.ofFrame frame now) hle hlt
    rw [hheard] at hcount ⊢
    rw [hnext]
    simp only [AcPolicy.recorded, hfresh, hid, beq_self_eq_true, Bool.and_self, Bool.true_and]
    by_cases hsame : (p.peers i).channel = (frameAt frame 10).toNat
    · rw [hsame] at hcount ⊢
      rw [beq_self_eq_true, if_pos rfl, hcount]
      split <;> omega
    · rw [consecutive_other (fun heq => hsame (hchannel.symm.trans heq)), beq_eq_false_iff_ne.mpr hsame]
      rfl
  · have hstart : consecutive (frameAt frame 10).toNat
        (Beacon.ofFrame frame now :: heard (frameId frame) trace) = 1 := by
      refine consecutive_start (b := Beacon.ofFrame frame now) fun b' hb' => ?_
      by_cases hid : (p.peers i).id = frameId frame
      · obtain ⟨b, earlier, hheard, -, hseen⟩ := h.latest i hi (by rw [hid]; exact hpeer)
        rw [hid] at hheard
        rw [hheard] at hb'
        obtain rfl := Option.some.inj hb'
        rw [hseen]
        exact h.expired hi (by rw [hid]; exact hpeer) hclock (Bool.eq_false_iff.mpr fun hfresh => hknown ⟨hfresh, hid⟩)
      · refine (h.gone (frameId frame) (fun j hj hj' => ?_) b' hb').trans (Int.sub_le_sub_right hclock _)
        obtain rfl := honly j hj hj'
        exact hid hj'
    have hnew : ((p.peers i).fresh now && (p.peers i).id == frameId frame) = false := by
      rw [Bool.eq_false_iff, ne_eq, Bool.and_eq_true, beq_iff_eq]
      exact hknown
    rw [hstart]
    simp only [AcPolicy.recorded, hnew, Bool.false_and]
    rfl

/-- An accepted beacon keeps the invariant. -/
theorem PeerInvariant.accept (h : PeerInvariant trace clock p) (hclock : clock ≤ now)
    (hpeer : frameId frame ≠ zeroId) (hslot : p.slotOf (frameId frame) now = some i) :
    PeerInvariant (trace ++ [Beacon.ofFrame frame now]) now
      { p with peers := update p.peers i (AcPolicy.recorded frame now (p.peers i)) } := by
  obtain ⟨hi, honly, hdropped⟩ : i < acPeers ∧ (∀ j < acPeers, (p.peers j).id = frameId frame → j = i) ∧
      ((p.peers i).id = frameId frame ∨ (p.peers i).fresh now = false) := by
    rcases AcPolicy.slotOf_cases (frameId frame) now p with
      ⟨k, hk, hfound, hid⟩ | ⟨hnone, k, hk, hfound, hstale⟩ | ⟨-, hfull⟩
    · obtain rfl := Option.some.inj (hfound.symm.trans hslot)
      refine ⟨hk, fun j hj hj' => h.unique j hj k hk (hj'.trans hid.symm) ?_, .inl hid⟩
      rw [hj']
      exact hpeer
    · obtain rfl := Option.some.inj (hfound.symm.trans hslot)
      exact ⟨hk, fun j hj hj' => absurd hj' (hnone j hj), .inr hstale⟩
    · cases hfull.symm.trans hslot
  have hself : (update p.peers i (AcPolicy.recorded frame now (p.peers i))) i =
      AcPolicy.recorded frame now (p.peers i) := update_self _ _ _
  have hother : ∀ j, j ≠ i → (update p.peers i (AcPolicy.recorded frame now (p.peers i))) j = p.peers j :=
    fun j hj => update_of_ne hj _ _
  have hheard : heard (frameId frame) (trace ++ [Beacon.ofFrame frame now]) =
      .ofFrame frame now :: heard (frameId frame) trace := heard_concat_self trace (.ofFrame frame now)
  have hkept : ∀ id, id ≠ frameId frame → heard id (trace ++ [Beacon.ofFrame frame now]) = heard id trace :=
    fun id hid => heard_concat_of_ne trace hid.symm
  constructor
  · intro j hj k hk heq hne
    dsimp only at heq hne
    by_cases hji : j = i <;> by_cases hki : k = i
    · rw [hji, hki]
    · rw [hji, hself, hother k hki] at heq
      exact absurd (honly k hk heq.symm) hki
    · rw [hki, hself, hother j hji] at heq
      exact absurd (honly j hj heq) hji
    · rw [hother j hji] at heq hne
      rw [hother k hki] at heq
      exact h.unique j hj k hk heq hne
  · intro j hj hne
    dsimp only at hne ⊢
    by_cases hji : j = i
    · rw [hji, hself]
      exact ⟨_, _, hheard, rfl, rfl⟩
    · rw [hother j hji] at hne ⊢
      rw [hkept _ fun heq => hji (honly j hj heq)]
      exact h.latest j hj hne
  · intro j hj
    dsimp only
    by_cases hji : j = i
    · rw [hji, hself]
      refine (h.recorded_observations hclock hi hpeer honly).trans ?_
      rw [← hheard]
      rfl
    · rw [hother j hji, hkept _ fun heq => hji (honly j hj heq)]
      exact h.counted j hj
  · intro j hj hne
    dsimp only at hne ⊢
    by_cases hji : j = i
    · rw [hji, hself]
      exact le_rfl
    · rw [hother j hji] at hne ⊢
      exact (h.seen_le j hj hne).trans hclock
  · intro id hout b hb
    dsimp only at hout
    have hid : id ≠ frameId frame := by
      rintro rfl
      refine hout i hi ?_
      rw [hself]
      rfl
    rw [hkept id hid] at hb
    by_cases hheld : (p.peers i).id = id
    · -- the entry of this peer was given to the new one
      have hused : id ≠ zeroId := by
        rintro rfl
        rw [h.nobody] at hb
        cases hb
      obtain ⟨b', earlier, hlast, -, hseen⟩ := h.latest i hi (by rw [hheld]; exact hused)
      rw [hheld] at hlast
      rw [hlast] at hb
      obtain rfl := Option.some.inj hb
      rw [hseen]
      refine h.expired hi (by rw [hheld]; exact hused) hclock (hdropped.resolve_left fun heq => ?_)
      exact hid (hheld.symm.trans heq)
    · refine (h.gone id (fun j hj => ?_) b hb).trans (Int.sub_le_sub_right hclock _)
      by_cases hji : j = i
      · rw [hji]
        exact hheld
      · have hnot := hout j hj
        rw [hother j hji] at hnot
        exact hnot
  · rw [hkept zeroId hpeer.symm]
    exact h.nobody

end Table

theorem peer_invariant {identity : List (BitVec 8)} {start : ℤ} {trace : List Beacon} {s : ℤ × AcPolicy}
    (h : (peerTable identity start).Run trace s) : PeerInvariant trace s.1 s.2 := by
  induction h with
  | start =>
    refine ⟨fun i _ j _ _ hne => absurd rfl hne, fun i _ hne => absurd rfl hne, fun i _ => rfl,
      fun i _ hne => absurd rfl hne, fun id _ b hb => ?_, rfl⟩
    cases hb
  | @snoc trace s call s' es _ _ htaken ih =>
    simp only [peerTable] at htaken
    split at htaken
    case isFalse => cases htaken
    case isTrue hclock =>
      obtain ⟨rfl, rfl⟩ := Prod.mk.inj (Option.some.inj htaken)
      dsimp only
      split
      case isTrue haccepted =>
        obtain ⟨hbeacon, i, hslot, -, htable⟩ := AcPolicy.acObserve_true haccepted
        rw [htable]
        refine ih.accept hclock ?_ hslot
        rintro hzero
        simp only [AcPolicy.refuses, Bool.or_eq_false_iff] at hbeacon
        exact beq_eq_false_iff_ne.mp hbeacon.1.2 hzero
      case isFalse hrefused =>
        rw [AcPolicy.acObserve_false (Bool.eq_false_iff.mpr hrefused), List.append_nil]
        exact ih.later hclock

/-! ## The choice -/

namespace AcPolicy

/-- A channel may be chosen: home has a score, and the channel is a destination with a better one that no
fresh peer is next to. -/
def Eligible (home : ℕ) (score : ℕ → ℤ) (now : ℤ) (p : AcPolicy) (ch : ℕ) : Prop :=
  home ≤ 100 ∧ 0 ≤ score home ∧ ch ≤ 88 ∧ ch % 2 = 0 ∧ ch ≠ home ∧ 0 ≤ score ch ∧
    p.acOccupied ch now = false ∧ score home < score ch

/-- The lowest of the eligible channels with the highest score. -/
def IsBest (home : ℕ) (score : ℕ → ℤ) (now : ℤ) (p : AcPolicy) (target : ℕ) : Prop :=
  p.Eligible home score now target ∧ ∀ ch, p.Eligible home score now ch →
    score ch ≤ score target ∧ (score ch = score target → target ≤ ch)

section Choice

variable {home target : ℕ} {score : ℕ → ℤ} {now : ℤ} {p : AcPolicy}

/-- The channels the loop of `ac_choose` considers. -/
def candidates (home : ℕ) (score : ℕ → ℤ) (now : ℤ) (p : AcPolicy) : List ℕ :=
  evenChannels.filter fun ch => !p.excluded home score now ch

theorem mem_candidates (hhome : ¬ (100 < home ∨ score home < 0)) {ch : ℕ} :
    ch ∈ p.candidates home score now ↔ p.Eligible home score now ch := by
  rw [not_or, not_lt, not_lt] at hhome
  simp only [candidates, List.mem_filter, mem_evenChannels, Bool.not_eq_true', excluded, Bool.or_eq_false_iff,
    beq_eq_false_iff_ne, decide_eq_false_iff_not, not_lt, not_le, Eligible]
  tauto

/-- The loop of `ac_choose` looks for the first candidate with the highest score. -/
theorem foldl_better_eq_argmax (home : ℕ) (score : ℕ → ℤ) (now : ℤ) (p : AcPolicy) :
    evenChannels.foldl (p.better home score now) none = (p.candidates home score now).argmax score := by
  rw [List.argmax, candidates, List.foldl_filter]
  refine congrArg (fun step => evenChannels.foldl step none) ?_
  funext best ch
  unfold better
  cases p.excluded home score now ch with
  | true => rfl
  | false => cases best <;> rfl

/-- The candidates ascend. -/
theorem candidates_pairwise : (p.candidates home score now).Pairwise (· < ·) := by
  refine List.Pairwise.filter _ ?_
  rw [evenChannels, List.pairwise_map]
  exact List.pairwise_lt_range.imp fun hlt => Nat.mul_lt_mul_of_pos_left hlt (by decide)

/-- In an ascending list the first is the lowest. -/
theorem le_of_idxOf_le {l : List ℕ} (h : l.Pairwise (· < ·)) {a b : ℕ} (ha : a ∈ l) (hb : b ∈ l)
    (hle : l.idxOf a ≤ l.idxOf b) : a ≤ b := by
  induction l with
  | nil => cases ha
  | cons c l ih =>
    rw [List.pairwise_cons] at h
    rcases List.mem_cons.mp ha with rfl | ha
    · rcases List.mem_cons.mp hb with rfl | hb
      · exact le_rfl
      · exact (h.1 b hb).le
    · have hac : c ≠ a := (h.1 a ha).ne
      rw [List.idxOf_cons_ne _ hac] at hle
      rcases List.mem_cons.mp hb with rfl | hb
      · rw [List.idxOf_cons_self] at hle
        exact absurd hle (Nat.not_succ_le_zero _)
      · rw [List.idxOf_cons_ne _ (h.1 b hb).ne] at hle
        exact ih h.2 ha hb (Nat.succ_le_succ_iff.mp hle)

/-- In an ascending list the lowest is the first. -/
theorem idxOf_le_of_le {l : List ℕ} (h : l.Pairwise (· < ·)) {a b : ℕ} (ha : a ∈ l) (hb : b ∈ l)
    (hle : a ≤ b) : l.idxOf a ≤ l.idxOf b := by
  by_contra hnot
  have hba := le_of_idxOf_le h hb ha (not_le.mp hnot).le
  obtain rfl := le_antisymm hle hba
  exact hnot le_rfl

/-- `ac_choose` finds the best channel, and none exactly when there is none or the table is full. -/
theorem acChoose_best (home : ℕ) (score : ℕ → ℤ) (now : ℤ) (p : AcPolicy) :
    (∀ target, p.acChoose home score now = some target ↔
      p.saturated now = false ∧ p.IsBest home score now target) ∧
    (p.acChoose home score now = none ↔
      p.saturated now = true ∨ ∀ ch, ¬ p.Eligible home score now ch) := by
  unfold acChoose
  split
  case isTrue hhome =>
    have hnone : ∀ ch, ¬ p.Eligible home score now ch := fun ch hch =>
      hhome.elim (not_lt.mpr hch.1) (not_lt.mpr hch.2.1)
    refine ⟨fun target => ⟨fun h => (by cases h), fun h => absurd h.2.1 (hnone target)⟩,
      ⟨fun _ => .inr hnone, fun _ => rfl⟩⟩
  case isFalse hhome =>
    split
    case isTrue hfull =>
      refine ⟨fun target => ⟨fun h => (by cases h), fun h => absurd (h.1.symm.trans hfull) (by decide)⟩,
        ⟨fun _ => .inl hfull, fun _ => rfl⟩⟩
    case isFalse hroom =>
      have hroom' : p.saturated now = false := Bool.eq_false_iff.mpr hroom
      rw [foldl_better_eq_argmax]
      constructor
      · intro target
        rw [← Option.mem_def, List.mem_argmax_iff]
        constructor
        · rintro ⟨hmem, hmax, hfirst⟩
          refine ⟨hroom', (mem_candidates hhome).mp hmem, fun ch hch => ?_⟩
          have hch' := (mem_candidates hhome).mpr hch
          exact ⟨hmax ch hch', fun heq => le_of_idxOf_le candidates_pairwise hmem hch' (hfirst ch hch' heq.ge)⟩
        · rintro ⟨-, hbest, hleast⟩
          have hmem := (mem_candidates hhome).mpr hbest
          refine ⟨hmem, fun ch hch => (hleast ch ((mem_candidates hhome).mp hch)).1, fun ch hch hle => ?_⟩
          obtain ⟨hhigh, hlow⟩ := hleast ch ((mem_candidates hhome).mp hch)
          exact idxOf_le_of_le candidates_pairwise hmem hch (hlow (le_antisymm hhigh hle))
      · rw [List.argmax_eq_none, List.eq_nil_iff_forall_not_mem]
        constructor
        · exact fun h => .inr fun ch hch => h ch ((mem_candidates hhome).mpr hch)
        · rintro (hfull | hnone) ch hch
          · exact absurd (hroom'.symm.trans hfull) (by decide)
          · exact hnone ch ((mem_candidates hhome).mp hch)

end Choice

end AcPolicy

/-! ## The table and the choice -/

/-- No two entries are of one peer; an accepted beacon of a fresh peer is newer than the last one; a beacon finds no
room only among fresh entries of other peers; an entry counts the beacons in a row on its channel, up to three;
and the choice is the lowest of the best channels, or none when there is none or the table is full. -/
theorem peer_table {identity : List (BitVec 8)} {start clock : ℤ} {trace : List Beacon} {p : AcPolicy}
    (h : (peerTable identity start).Run trace (clock, p)) :
    (∀ i < acPeers, ∀ j < acPeers, i ≠ j → (p.peers i).id = (p.peers j).id → (p.peers i).id = zeroId) ∧
    (∀ frame now, clock ≤ now → (p.acObserve frame now).2 = true → ∀ i < acPeers,
      (p.peers i).id = frameId frame → (p.peers i).fresh now = true →
        0 < (frameSequence frame - (p.peers i).sequence).toInt) ∧
    (∀ frame now, clock ≤ now → p.lacksRoom frame now = true → ∀ i < acPeers,
      (p.peers i).fresh now = true ∧ (p.peers i).id ≠ frameId frame) ∧
    (∀ i < acPeers, (p.peers i).observations =
      min 3 (consecutive (p.peers i).channel (heard (p.peers i).id trace))) ∧
    ∀ home score now,
      (∀ target, p.acChoose home score now = some target ↔
        p.saturated now = false ∧ p.IsBest home score now target) ∧
      (p.acChoose home score now = none ↔
        p.saturated now = true ∨ ∀ ch, ¬ p.Eligible home score now ch) := by
  have hinv := peer_invariant h
  refine ⟨fun i hi j hj hne heq => ?_, fun frame now _ haccepted i hi hid hfresh => ?_,
    fun frame now _ hfull i hi => ?_, hinv.counted, fun home score now => p.acChoose_best home score now⟩
  · by_contra hused
    exact hne (hinv.unique i hi j hj heq hused)
  · obtain ⟨hbeacon, k, hslot, hnewer, -⟩ := AcPolicy.acObserve_true haccepted
    have hpeer : frameId frame ≠ zeroId := by
      rintro hzero
      simp only [AcPolicy.refuses, Bool.or_eq_false_iff] at hbeacon
      exact beq_eq_false_iff_ne.mp hbeacon.1.2 hzero
    rcases AcPolicy.slotOf_cases (frameId frame) now p with
      ⟨l, hl, hfound, hown⟩ | ⟨hnone, -⟩ | ⟨hnone, -⟩
    · obtain rfl := Option.some.inj (hfound.symm.trans hslot)
      obtain rfl := hinv.unique i hi l hl (hid.trans hown.symm) (by rw [hid]; exact hpeer)
      exact hnewer hfresh hid
    · exact absurd hid (hnone i hi)
    · exact absurd hid (hnone i hi).1
  · rw [AcPolicy.lacksRoom, Bool.and_eq_true, Option.isNone_iff_eq_none] at hfull
    rcases AcPolicy.slotOf_cases (frameId frame) now p with
      ⟨l, -, hfound, -⟩ | ⟨-, l, -, hfound, -⟩ | ⟨hother, -⟩
    · cases hfound.symm.trans hfull.2
    · cases hfound.symm.trans hfull.2
    · exact ⟨(hother i hi).2, (hother i hi).1⟩

/-- A beacon of the peer 01:02:03:04:05:06 on channel 10. -/
def sampleFrame (sequence : BitVec 8) : List (BitVec 8) :=
  [0x53, 0x41, 0x43, 0x01, 1, 2, 3, 4, 5, 6, 10, sequence, 0, 0, 0, 0]

/-- Of four beacons two minutes after the first one, the third is old and the last is of a peer that has expired. -/
theorem peer_table_four : ∃ trace clock p, (peerTable [9, 9, 9, 9, 9, 9] 0).Run trace (clock, p) ∧
    trace.length = 3 ∧ (p.peers 0).observations = 1 ∧
      consecutive (p.peers 0).channel (heard (p.peers 0).id trace) = 1 := by
  obtain ⟨trace, ⟨clock, p⟩, hrun, htest⟩ := (peerTable [9, 9, 9, 9, 9, 9] 0).exists_run_of_replay
    [(sampleFrame 5, 0), (sampleFrame 6, 1000), (sampleFrame 6, 2000), (sampleFrame 5, 121000)]
    (fun trace s => decide (trace.length = 3 ∧ (s.2.peers 0).observations = 1)) (by decide +kernel)
  obtain ⟨hlength, hcount⟩ := of_decide_eq_true htest
  obtain ⟨-, -, -, hcounted, -⟩ := peer_table hrun
  have hone : 1 = min 3 (consecutive (p.peers 0).channel (heard (p.peers 0).id trace)) :=
    hcount.symm.trans (hcounted 0 (by decide))
  refine ⟨trace, clock, p, hrun, hlength, hcount, ?_⟩
  omega

end SlimeReceiver.AutoChannel
