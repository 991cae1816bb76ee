import Mathlib.Algebra.Order.Group.Int
import Mathlib.Data.Int.Basic
import Mathlib.Data.List.Nodup
import Mathlib.Logic.Function.Basic
import Mathlib.Tactic.Common

/-! # The channel policy

`auto_channel_policy.c`: what is known of other receivers and which channel is better than home.
Channels are natural numbers, times are `int64_t` milliseconds.

* **`AcPeer.fresh`**, **`acObserve`** — the table of peers.
* **`acOccupied`**, **`acChoose`** — the best channel that no fresh peer disturbs, and
  `acChoose_spec`. -/

namespace SlimeReceiver.AutoChannel

open Function (update)

/-! ## Peers -/

/-- `AC_FRAME_SIZE`. -/
def acFrameSize : ℕ := 16

/-- `AC_PEERS`. -/
def acPeers : ℕ := 16

/-- `AC_EXPIRY_MS`. -/
def acExpiryMs : ℤ := 120000

/-- `AC_COOLDOWN_MS`. -/
def acCooldownMs : ℤ := 120000

/-- `struct ac_peer`. -/
structure AcPeer where
  id : List (BitVec 8)
  channel : ℕ
  observations : ℕ
  sequence : BitVec 16
  seen : ℤ

/-- `struct ac_policy`. -/
structure AcPolicy where
  identity : List (BitVec 8)
  peers : ℕ → AcPeer
  cooldown : ℤ

/-- A peer entry of zeros. -/
def AcPeer.zero : AcPeer := ⟨[0, 0, 0, 0, 0, 0], 0, 0, 0, 0⟩

/-- `fresh`. -/
def AcPeer.fresh (now : ℤ) (peer : AcPeer) : Bool :=
  peer.observations != 0 && decide (peer.seen ≤ now) && decide (now - peer.seen < acExpiryMs)

/-- `frame[i]`. -/
def frameAt (frame : List (BitVec 8)) (i : ℕ) : BitVec 8 := frame.getD i 0

/-- `frame + 4`, the identity of the sender. -/
def frameId (frame : List (BitVec 8)) : List (BitVec 8) := (frame.drop 4).take 6

/-- The sequence number of a frame. -/
def frameSequence (frame : List (BitVec 8)) : BitVec 16 :=
  (frameAt frame 11).setWidth 16 ||| (frameAt frame 12).setWidth 16 <<< 8

namespace AcPolicy

/-- The frame is no beacon of another receiver. -/
def refuses (frame : List (BitVec 8)) (p : AcPolicy) : Bool :=
  frame.take 4 != [0x53, 0x41, 0x43, 0x01] || decide (100 < (frameAt frame 10).toNat) ||
    frameAt frame 13 != 0 || frameAt frame 14 != 0 || frameAt frame 15 != 0 ||
    frameId frame == [0, 0, 0, 0, 0, 0] || frameId frame == p.identity

/-- The loop of `ac_observe` over the remaining entries: the entry of the peer, else the first that is
not fresh. -/
def slotFrom (id : List (BitVec 8)) (now : ℤ) (peers : ℕ → AcPeer) : Option ℕ → List ℕ → Option ℕ
  | slot, [] => slot
  | slot, i :: rest =>
    if (peers i).id = id then some i
    else slotFrom id now peers (if !(peers i).fresh now && slot.isNone then some i else slot) rest

/-- The entry a beacon goes into. -/
def slotOf (id : List (BitVec 8)) (now : ℤ) (p : AcPolicy) : Option ℕ :=
  slotFrom id now p.peers none (List.range acPeers)

/-- `ac_observe`. -/
def acObserve (frame : List (BitVec 8)) (now : ℤ) (p : AcPolicy) : AcPolicy × Bool :=
  if p.refuses frame then (p, false)
  else
    match p.slotOf (frameId frame) now with
    | none => (p, false)
    | some i =>
      let peer := p.peers i
      let known := peer.fresh now && peer.id == frameId frame
      if known && decide ((frameSequence frame - peer.sequence).toInt ≤ 0) then (p, false)
      else
        let same := known && peer.channel == (frameAt frame 10).toNat
        let count := if same then peer.observations else 0
        ({ p with
          peers := update p.peers i
            { id := frameId frame
              channel := (frameAt frame 10).toNat
              observations := if count < 3 then count + 1 else 3
              sequence := frameSequence frame
              seen := now } }, true)

/-- `ac_occupied`: a fresh peer is on the channel or next to it. -/
def acOccupied (channel : ℕ) (now : ℤ) (p : AcPolicy) : Bool :=
  (List.range acPeers).any fun i => (p.peers i).fresh now &&
    decide (-1 ≤ ((p.peers i).channel : ℤ) - channel) &&
    decide (((p.peers i).channel : ℤ) - channel ≤ 1)

/-- All entries are fresh: there may be peers that are not recorded. -/
def saturated (now : ℤ) (p : AcPolicy) : Bool :=
  (List.range acPeers).all fun i => (p.peers i).fresh now

end AcPolicy

/-! ## Destinations -/

/-- The destinations of a migration, `for (ch = 0; ch <= 88; ch += 2)`. -/
def evenChannels : List ℕ := (List.range 45).map fun k => 2 * k

theorem mem_evenChannels {ch : ℕ} : ch ∈ evenChannels ↔ ch ≤ 88 ∧ ch % 2 = 0 := by
  simp only [evenChannels, List.mem_map, List.mem_range]
  constructor
  · rintro ⟨k, hk, rfl⟩
    omega
  · rintro ⟨hle, heven⟩
    exact ⟨ch / 2, by omega, by omega⟩

theorem nodup_evenChannels : evenChannels.Nodup := by
  have hinjective : Function.Injective fun k : ℕ => 2 * k := fun a b hab => by
    have hdouble : 2 * a = 2 * b := hab
    omega
  exact List.Nodup.map hinjective List.nodup_range

namespace AcPolicy

/-- The channel cannot be chosen. -/
def excluded (home : ℕ) (score : ℕ → ℤ) (now : ℤ) (p : AcPolicy) (ch : ℕ) : Bool :=
  ch == home || decide (score ch < 0) || p.acOccupied ch now || decide (score ch ≤ score home)

/-- One iteration of the loop of `ac_choose`. -/
def better (home : ℕ) (score : ℕ → ℤ) (now : ℤ) (p : AcPolicy) (best : Option ℕ) (ch : ℕ) :
    Option ℕ :=
  if p.excluded home score now ch then best
  else
    match best with
    | none => some ch
    | some b => if score b < score ch then some ch else best

/-- `ac_choose`; no channel is a negative result. -/
def acChoose (home : ℕ) (score : ℕ → ℤ) (now : ℤ) (p : AcPolicy) : Option ℕ :=
  if 100 < home ∨ score home < 0 then none
  else if p.saturated now then none
  else evenChannels.foldl (p.better home score now) none

section Choice

variable {home target : ℕ} {score : ℕ → ℤ} {now : ℤ} {p : AcPolicy}

/-- What the loop has found so far is one of the channels it has seen that are not excluded. -/
theorem foldl_better {best : Option ℕ} {channels : List ℕ}
    (h : channels.foldl (p.better home score now) best = some target) :
    best = some target ∨ target ∈ channels ∧ p.excluded home score now target = false := by
  induction channels generalizing best with
  | nil => exact .inl h
  | cons ch channels ih =>
    rw [List.foldl_cons] at h
    rcases ih h with hbest | ⟨hmem, hexcluded⟩
    · unfold better at hbest
      split at hbest
      · exact .inl hbest
      · rename_i hincluded
        have hself : some ch = some target →
            target ∈ ch :: channels ∧ p.excluded home score now target = false := by
          intro heq
          obtain rfl := Option.some.inj heq
          exact ⟨List.mem_cons_self, Bool.eq_false_iff.mpr hincluded⟩
        split at hbest
        · exact .inr (hself hbest)
        · split at hbest
          · exact .inr (hself hbest)
          · exact .inl hbest
    · exact .inr ⟨List.mem_cons_of_mem _ hmem, hexcluded⟩

/-- A channel that is chosen is strictly better than home, no fresh peer is next to it, and the table
of peers has room. -/
theorem acChoose_spec (h : p.acChoose home score now = some target) :
    target ∈ evenChannels ∧ target ≠ home ∧ 0 ≤ score home ∧ score home < score target ∧
      p.acOccupied target now = false ∧ p.saturated now = false := by
  unfold acChoose at h
  split at h
  case isTrue => cases h
  case isFalse hhome =>
    split at h
    case isTrue => cases h
    case isFalse hroom =>
      rcases foldl_better h with hnone | ⟨hmem, hexcluded⟩
      · cases hnone
      · simp only [excluded, Bool.or_eq_false_iff, beq_eq_false_iff_ne, decide_eq_false_iff_not,
          not_lt, not_le] at hexcluded
        obtain ⟨⟨⟨hne, -⟩, hfree⟩, hbetter⟩ := hexcluded
        exact ⟨hmem, hne, not_lt.mp (not_or.mp hhome).2, hbetter, hfree,
          Bool.eq_false_iff.mpr hroom⟩

end Choice

end AcPolicy

end SlimeReceiver.AutoChannel
