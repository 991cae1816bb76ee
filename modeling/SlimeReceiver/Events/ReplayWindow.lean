import SlimeReceiver.Library.ReplayWindow
import SlimeReceiver.Events.CacheSystem

/-! # The replay window of a session

The calls of `unseen` within one session, with the expanded order of the window head kept as an
unbounded integer beside the cache.

* **`windowSystem`** — the calls, and whatever happens to the rest of the cache between them.
* **`reference`** — the numbers accepted since the window was last anchored, with their places in
  the expanded order.
* **`Tracks`** — the window agrees with the reference set, and `Tracks.call`, that a call keeps
  this.
* **`replay_window`** — what follows for the numbers that are accepted. -/

namespace SlimeReceiver.Events

open TrackerCache

/-! ## The calls of a session -/

/-- A cache and the place of its window head. -/
structure WindowState where
  cache : TrackerCache
  head : ℤ

inductive WindowOp
  | call (seq : BitVec 16) (now : BitVec 32)
  /-- The rest of the cache changes between two calls. -/
  | between (c : TrackerCache)

/-- What a call did, with the place of the number. -/
inductive WindowEvent
  | anchored (seq : BitVec 16) (place : ℤ)
  | advanced (seq : BitVec 16) (place : ℤ)
  | filled (seq : BitVec 16) (place : ℤ)
  | refused (seq : BitVec 16)
  deriving DecidableEq, Repr

namespace WindowState

/-- The place of the head after a call. -/
def headAfter (seq : BitVec 16) (now : BitVec 32) (s : WindowState) : ℤ :=
  if s.cache.window.quiet now then s.head + 65536
  else if newer seq s.cache.window.high then s.head + (seq - s.cache.window.high).toNat
  else s.head

/-- What a call reports. -/
def callEvent (seq : BitVec 16) (now : BitVec 32) (s : WindowState) : WindowEvent :=
  if s.cache.window.quiet now then .anchored seq (s.headAfter seq now)
  else if newer seq s.cache.window.high then .advanced seq (s.headAfter seq now)
  else if s.cache.window.covers seq then .refused seq
  else .filled seq (s.head - s.cache.window.age seq)

end WindowState

/-- The calls of a session that starts with cache `c₀`. -/
def windowSystem (c₀ : TrackerCache) : EventSystem WindowState WindowOp WindowEvent where
  init := ⟨c₀, c₀.window.order.toNat⟩
  step s
    | .call seq now => some (⟨(s.cache.unseen seq now).1, s.headAfter seq now⟩, [s.callEvent seq now])
    | .between c => if c.window = s.cache.window then some ({ s with cache := c }, []) else none

/-- What an event does to the accepted numbers. -/
def followReference (accepted : List (BitVec 16 × ℤ)) : WindowEvent → List (BitVec 16 × ℤ)
  | .anchored seq place => [(seq, place)]
  | .advanced seq place | .filled seq place => (seq, place) :: accepted
  | .refused _ => accepted

/-- The numbers accepted since the window was last anchored, with their places. -/
def reference (trace : List WindowEvent) : List (BitVec 16 × ℤ) := trace.foldl followReference []

@[simp] theorem reference_concat (trace : List WindowEvent) (e : WindowEvent) :
    reference (trace ++ [e]) = followReference (reference trace) e := by
  rw [reference, List.foldl_append]
  rfl

/-! ## The window agrees with the reference set -/

/-- The places of a list of accepted numbers. -/
def places (accepted : List (BitVec 16 × ℤ)) : Set ℤ := {p | ∃ seq, (seq, p) ∈ accepted}

@[simp] theorem places_cons (x : BitVec 16 × ℤ) (accepted : List (BitVec 16 × ℤ)) :
    places (x :: accepted) = insert x.2 (places accepted) := by
  ext p
  simp only [places, List.mem_cons, Set.mem_ofPred_eq, Set.mem_insert_iff, exists_or]
  constructor
  · rintro (⟨seq, rfl⟩ | h)
    · exact .inl rfl
    · exact .inr h
  · rintro (rfl | h)
    · exact .inl ⟨x.1, rfl⟩
    · exact .inr h

/-- A window in use agrees with the numbers accepted since it was anchored: at place `p` stands the
number `serial 16 (p + offset)`. -/
structure Agrees (w : Window) (head : ℤ) (accepted : List (BitVec 16 × ℤ)) (offset : ℤ) : Prop where
  high_eq : w.high = serial 16 (head + offset)
  numbers : ∀ x ∈ accepted, x.1 = serial 16 (x.2 + offset)
  head_mem : (w.high, head) ∈ accepted
  le_head : ∀ x ∈ accepted, x.2 ≤ head
  bitmap : Represents w.seen head (places accepted)

/-- The window agrees with the reference set, once there is one. -/
structure Tracks (s : WindowState) (accepted : List (BitVec 16 × ℤ)) : Prop where
  order_eq : s.cache.window.order = serial 32 s.head
  agrees : s.cache.window.initialized = true → ∃ offset, Agrees s.cache.window s.head accepted offset
  none_accepted : s.cache.window.initialized = false → accepted = []

namespace Agrees

variable {w : Window} {head offset : ℤ} {accepted : List (BitVec 16 × ℤ)} {seq : BitVec 16}

/-- Every number has a place at or below the head, at its age. -/
theorem place_of_age (h : Agrees w head accepted offset) :
    seq = serial 16 (head - w.age seq + offset) := by
  have hage : BitVec.ofInt 16 (w.age seq) = w.high - seq := by
    rw [Window.age, BitVec.ofInt_natCast, BitVec.ofNat_toNat, BitVec.setWidth_eq]
  have hplace : head - w.age seq + offset = head + offset - w.age seq := by omega
  rw [hplace, serial_sub, ← h.high_eq, serial, hage]
  exact (sub_sub_self _ _).symm

/-- A number at place `p`, at most half the range behind the head, is not newer, and `head - p` is
its age. -/
theorem of_place_le (h : Agrees w head accepted offset) {p : ℤ} (hp : p ≤ head)
    (hrange : head - p ≤ 32768) (hseq : seq = serial 16 (p + offset)) :
    newer seq w.high = false ∧ (w.age seq : ℤ) = head - p := by
  have hdiff : (seq - w.high).toInt = p - head := by
    rw [hseq, h.high_eq, serial_sub_toInt] <;> omega
  refine ⟨decide_eq_false (by omega), ?_⟩
  have hage := serial_sub_toNat (w := 16) (head + offset) (p + offset)
  rw [← h.high_eq, ← hseq] at hage
  rw [Window.age, hage]
  omega

/-- Within the bitmap, a number is covered exactly if its place is taken. -/
theorem covers_iff (h : Agrees w head accepted offset) (hage : w.age seq < 64) :
    w.covers seq = true ↔ head - w.age seq ∈ places accepted := by
  rw [Window.covers, decide_eq_false (not_le.mpr hage), Bool.false_or]
  exact h.bitmap _ hage

/-- Moving the head forward adds the new number at the new head. -/
theorem advance (h : Agrees w head accepted offset) (hnewer : newer seq w.high = true)
    (now : BitVec 32) : Agrees (w.advance seq now) (head + (seq - w.high).toNat)
      ((seq, head + (seq - w.high).toNat) :: accepted) offset := by
  have hpos : 0 < (seq - w.high).toNat := by
    have hsigned : 0 < (seq - w.high).toInt := of_decide_eq_true hnewer
    by_contra hzero
    have hsame : seq - w.high = 0 := BitVec.eq_of_toNat_eq (by simpa using hzero)
    rw [hsame] at hsigned
    exact absurd hsigned (by decide)
  have hseq : seq = serial 16 (head + (seq - w.high).toNat + offset) := by
    have hmove : head + (seq - w.high).toNat + offset = head + offset + (seq - w.high).toNat := by
      omega
    rw [hmove, serial_add, ← h.high_eq, serial, BitVec.ofInt_natCast, BitVec.ofNat_toNat,
      BitVec.setWidth_eq]
    exact (add_sub_cancel _ _).symm
  refine ⟨hseq, ?_, List.mem_cons_self, ?_, ?_⟩
  · intro x hx
    rcases List.mem_cons.mp hx with rfl | hx
    · exact hseq
    · exact h.numbers x hx
  · intro x hx
    rcases List.mem_cons.mp hx with rfl | hx
    · exact le_rfl
    · have := h.le_head x hx
      omega
  · rw [places_cons]
    have hmax : ∀ a ∈ places accepted, a ≤ head := by
      rintro a ⟨b, hb⟩
      exact h.le_head _ hb
    exact h.bitmap.advance hmax hpos

/-- Marking a number adds it at its age behind the head. -/
theorem mark (h : Agrees w head accepted offset) (hage : w.age seq < 64) :
    Agrees (w.mark seq) head ((seq, head - w.age seq) :: accepted) offset := by
  refine ⟨h.high_eq, ?_, List.mem_cons_of_mem _ h.head_mem, ?_, ?_⟩
  · intro x hx
    rcases List.mem_cons.mp hx with rfl | hx
    · exact h.place_of_age
    · exact h.numbers x hx
  · intro x hx
    rcases List.mem_cons.mp hx with rfl | hx
    · show head - w.age seq ≤ head
      omega
    · exact h.le_head x hx
  · rw [places_cons]
    exact h.bitmap.mark hage

/-- A restarted window agrees with the number it was restarted at. -/
theorem anchor (w : Window) (seq : BitVec 16) (now : BitVec 32) (head : ℤ) :
    ∃ offset, Agrees (w.reanchor seq now) head [(seq, head)] offset := by
  have hseq : seq = serial 16 (head + (seq.toNat - head)) := by
    have hplace : head + (seq.toNat - head) = seq.toNat := by omega
    rw [hplace, serial, BitVec.ofInt_natCast, BitVec.ofNat_toNat, BitVec.setWidth_eq]
  refine ⟨seq.toNat - head, hseq, ?_, List.mem_cons_self, ?_, ?_⟩
  · intro x hx
    rw [List.mem_singleton.mp hx]
    exact hseq
  · intro x hx
    rw [List.mem_singleton.mp hx]
  · have hplaces : places [(seq, head)] = {head} := by
      rw [places_cons]
      ext p
      simp [places]
    rw [hplaces]
    exact Represents.anchor head

end Agrees

/-! ## Calls -/

/-- What a call of `unseen` does to the window, and its verdict. -/
theorem unseen_cases (seq : BitVec 16) (now : BitVec 32) (c : TrackerCache) :
    (c.window.quiet now = true ∧ (c.unseen seq now).1.window = c.window.reanchor seq now ∧
      (c.unseen seq now).2 = true) ∨
    (c.window.quiet now = false ∧ newer seq c.window.high = true ∧
      (c.unseen seq now).1.window = c.window.advance seq now ∧ (c.unseen seq now).2 = true) ∨
    (c.window.quiet now = false ∧ newer seq c.window.high = false ∧ c.window.covers seq = true ∧
      (c.unseen seq now).1.window = c.window ∧ (c.unseen seq now).2 = false) ∨
    (c.window.quiet now = false ∧ newer seq c.window.high = false ∧ c.window.covers seq = false ∧
      (c.unseen seq now).1.window = c.window.mark seq ∧ (c.unseen seq now).2 = true) := by
  unfold unseen
  cases hquiet : c.window.quiet now with
  | true => exact .inl ⟨rfl, rfl, rfl⟩
  | false =>
    rw [if_neg Bool.false_ne_true]
    cases hnewer : newer seq c.window.high with
    | true => exact .inr (.inl ⟨rfl, rfl, rfl, rfl⟩)
    | false =>
      rw [if_neg Bool.false_ne_true]
      cases hcovers : c.window.covers seq with
      | true => exact .inr (.inr (.inl ⟨rfl, rfl, rfl, rfl, rfl⟩))
      | false => exact .inr (.inr (.inr ⟨rfl, rfl, rfl, rfl, rfl⟩))

/-- A quiet window is one that has not started, or whose head is old. -/
theorem initialized_of_not_quiet {w : Window} {now : BitVec 32} (h : w.quiet now = false) :
    w.initialized = true := by
  rw [Window.quiet, Bool.or_eq_false_iff] at h
  simpa using h.1

namespace Tracks

variable {s : WindowState} {accepted : List (BitVec 16 × ℤ)}

/-- A call keeps the agreement. -/
theorem call (h : Tracks s accepted) (seq : BitVec 16) (now : BitVec 32) :
    Tracks ⟨(s.cache.unseen seq now).1, s.headAfter seq now⟩
      (followReference accepted (s.callEvent seq now)) := by
  rcases unseen_cases seq now s.cache with ⟨hquiet, hwindow, -⟩ | ⟨hquiet, hnewer, hwindow, -⟩ |
    ⟨hquiet, hnewer, hcovers, hwindow, -⟩ | ⟨hquiet, hnewer, hcovers, hwindow, -⟩
  · have hhead : s.headAfter seq now = s.head + 65536 := by rw [WindowState.headAfter, if_pos hquiet]
    have hevent : s.callEvent seq now = .anchored seq (s.headAfter seq now) := by
      rw [WindowState.callEvent, if_pos hquiet]
    rw [hevent, hhead]
    refine ⟨?_, fun _ => ?_, fun hfalse => ?_⟩
    · rw [hwindow]
      show s.cache.window.order + 65536 = serial 32 (s.head + 65536)
      rw [h.order_eq, serial_add]
      rfl
    · rw [hwindow]
      exact Agrees.anchor _ _ _ _
    · rw [hwindow] at hfalse
      cases hfalse
  · obtain ⟨offset, hagrees⟩ := h.agrees (initialized_of_not_quiet hquiet)
    have hhead : s.headAfter seq now = s.head + (seq - s.cache.window.high).toNat := by
      rw [WindowState.headAfter, if_neg (by rw [hquiet]; decide), if_pos hnewer]
    have hevent : s.callEvent seq now = .advanced seq (s.headAfter seq now) := by
      rw [WindowState.callEvent, if_neg (by rw [hquiet]; decide), if_pos hnewer]
    rw [hevent, hhead]
    refine ⟨?_, fun _ => ⟨offset, ?_⟩, fun hfalse => ?_⟩
    · rw [hwindow]
      show s.cache.window.order + (seq - s.cache.window.high).setWidth 32 = _
      rw [h.order_eq, serial_add, serial, serial, BitVec.ofInt_natCast, BitVec.ofNat_toNat]
    · rw [hwindow]
      exact hagrees.advance hnewer now
    · rw [hwindow] at hfalse
      have hstart : s.cache.window.initialized = false := hfalse
      exact absurd (hstart.symm.trans (initialized_of_not_quiet hquiet)) Bool.false_ne_true
  · have hhead : s.headAfter seq now = s.head := by
      rw [WindowState.headAfter, if_neg (by rw [hquiet]; decide), if_neg (by rw [hnewer]; decide)]
    have hevent : s.callEvent seq now = .refused seq := by
      rw [WindowState.callEvent, if_neg (by rw [hquiet]; decide), if_neg (by rw [hnewer]; decide),
        if_pos hcovers]
    rw [hevent, hhead]
    refine ⟨?_, fun hinit => ?_, fun hfalse => ?_⟩
    · rw [hwindow]
      exact h.order_eq
    · rw [hwindow] at hinit ⊢
      exact h.agrees hinit
    · rw [hwindow] at hfalse
      exact h.none_accepted hfalse
  · obtain ⟨offset, hagrees⟩ := h.agrees (initialized_of_not_quiet hquiet)
    have hhead : s.headAfter seq now = s.head := by
      rw [WindowState.headAfter, if_neg (by rw [hquiet]; decide), if_neg (by rw [hnewer]; decide)]
    have hevent : s.callEvent seq now = .filled seq (s.head - s.cache.window.age seq) := by
      rw [WindowState.callEvent, if_neg (by rw [hquiet]; decide), if_neg (by rw [hnewer]; decide),
        if_neg (by rw [hcovers]; decide)]
    have hage : s.cache.window.age seq < 64 := by
      rw [Window.covers, Bool.or_eq_false_iff] at hcovers
      exact not_le.mp (of_decide_eq_false hcovers.1)
    rw [hevent, hhead]
    refine ⟨?_, fun _ => ⟨offset, ?_⟩, fun hfalse => ?_⟩
    · rw [hwindow]
      exact h.order_eq
    · rw [hwindow]
      exact hagrees.mark hage
    · rw [hwindow] at hfalse
      have hstart : s.cache.window.initialized = false := hfalse
      exact absurd (hstart.symm.trans (initialized_of_not_quiet hquiet)) Bool.false_ne_true

end Tracks

/-- At the end of every run the window agrees with the reference set. -/
theorem tracks_of_run {c₀ : TrackerCache} (hsession : c₀.window.initialized = false)
    {trace : List WindowEvent} {s : WindowState} (h : (windowSystem c₀).Run trace s) :
    Tracks s (reference trace) := by
  refine h.history_invariant (P := fun trace s => Tracks s (reference trace)) ?_ ?_
  · refine ⟨?_, fun hinit => ?_, fun _ => rfl⟩
    · show c₀.window.order = serial 32 (c₀.window.order.toNat : ℤ)
      rw [serial, BitVec.ofInt_natCast, BitVec.ofNat_toNat, BitVec.setWidth_eq]
    · exact absurd (hsession.symm.trans hinit) Bool.false_ne_true
  · intro trace s op s' es hs _ hstep
    cases op with
    | call seq now =>
      obtain ⟨rfl, rfl⟩ := Prod.mk.inj (Option.some.inj hstep)
      rw [reference_concat]
      exact hs.call seq now
    | between c =>
      have htaken : (if c.window = s.cache.window then some (({ s with cache := c } : WindowState),
        ([] : List WindowEvent)) else none) = some (s', es) := hstep
      split at htaken
      case isTrue hwindow =>
        obtain ⟨rfl, rfl⟩ := Prod.mk.inj (Option.some.inj htaken)
        rw [List.append_nil]
        refine ⟨?_, fun hinit => ?_, fun hinit => ?_⟩
        · rw [hwindow]
          exact hs.order_eq
        · rw [hwindow] at hinit ⊢
          exact hs.agrees hinit
        · rw [hwindow] at hinit
          exact hs.none_accepted hinit
      case isFalse => cases htaken

/-! ## What is accepted -/

section Verdicts

variable {s : WindowState} {accepted : List (BitVec 16 × ℤ)}

/-- A number accepted since the last anchor is refused while its place is at most half the range
behind the head. -/
theorem Tracks.refused (h : Tracks s accepted) {x : BitVec 16 × ℤ} (hx : x ∈ accepted)
    {now : BitVec 32} (hquiet : s.cache.window.quiet now = false) (hrange : s.head - x.2 ≤ 32768) :
    (s.cache.unseen x.1 now).2 = false := by
  obtain ⟨offset, hagrees⟩ := h.agrees (initialized_of_not_quiet hquiet)
  obtain ⟨hnewer, hage⟩ := hagrees.of_place_le (hagrees.le_head x hx) hrange (hagrees.numbers x hx)
  have hcovers : s.cache.window.covers x.1 = true := by
    by_cases hfar : 64 ≤ s.cache.window.age x.1
    · rw [Window.covers, decide_eq_true hfar, Bool.true_or]
    · rw [hagrees.covers_iff (not_le.mp hfar), hage]
      exact ⟨x.1, by simpa using hx⟩
  rcases unseen_cases x.1 now s.cache with ⟨hother, -⟩ | ⟨-, hother, -⟩ | ⟨-, -, -, -, hverdict⟩ |
    ⟨-, -, hother, -⟩
  · exact absurd (hquiet.symm.trans hother) Bool.false_ne_true
  · exact absurd (hnewer.symm.trans hother) Bool.false_ne_true
  · exact hverdict
  · exact absurd (hother.symm.trans hcovers) Bool.false_ne_true

/-- Within the bitmap a number is accepted exactly if its place is free. -/
theorem Tracks.accepted_iff (h : Tracks s accepted) {seq : BitVec 16} {now : BitVec 32}
    (hquiet : s.cache.window.quiet now = false) (hnewer : newer seq s.cache.window.high = false)
    (hage : s.cache.window.age seq < 64) :
    (s.cache.unseen seq now).2 = true ↔ s.head - s.cache.window.age seq ∉ places accepted := by
  obtain ⟨offset, hagrees⟩ := h.agrees (initialized_of_not_quiet hquiet)
  rw [← hagrees.covers_iff hage]
  rcases unseen_cases seq now s.cache with ⟨hother, -⟩ | ⟨-, hother, -⟩ |
    ⟨-, -, hcovers, -, hverdict⟩ | ⟨-, -, hcovers, -, hverdict⟩
  · exact absurd (hquiet.symm.trans hother) Bool.false_ne_true
  · exact absurd (hnewer.symm.trans hother) Bool.false_ne_true
  · rw [hverdict, hcovers]
    decide
  · rw [hverdict, hcovers]
    decide

/-- A newer number is accepted. -/
theorem unseen_of_newer {seq : BitVec 16} {now : BitVec 32} {c : TrackerCache}
    (h : newer seq c.window.high = true) : (c.unseen seq now).2 = true := by
  rcases unseen_cases seq now c with ⟨-, -, hverdict⟩ | ⟨-, -, -, hverdict⟩ | ⟨-, hother, -⟩ |
    ⟨-, -, -, -, hverdict⟩
  · exact hverdict
  · exact hverdict
  · exact absurd (hother.symm.trans h) Bool.false_ne_true
  · exact hverdict

/-- Of two accepted numbers within half the range, the newer one has the greater place. -/
theorem Tracks.newer_iff (h : Tracks s accepted) {x y : BitVec 16 × ℤ} (hx : x ∈ accepted)
    (hy : y ∈ accepted) (hlow : -32768 ≤ x.2 - y.2) (hhigh : x.2 - y.2 ≤ 32767) :
    newer x.1 y.1 = true ↔ y.2 < x.2 := by
  cases hinit : s.cache.window.initialized with
  | false =>
    rw [h.none_accepted hinit] at hx
    cases hx
  | true =>
    obtain ⟨offset, hagrees⟩ := h.agrees hinit
    have hdiff : (x.1 - y.1).toInt = x.2 - y.2 := by
      rw [hagrees.numbers x hx, hagrees.numbers y hy, serial_sub_toInt] <;> omega
    rw [newer, decide_eq_true_eq, hdiff]
    omega

/-- The order the code computes for an accepted number is its place. -/
theorem Tracks.orderOf_eq (h : Tracks s accepted) {x : BitVec 16 × ℤ} (hx : x ∈ accepted)
    (hrange : s.head - x.2 ≤ 32768) : s.cache.window.orderOf x.1 = serial 32 x.2 := by
  cases hinit : s.cache.window.initialized with
  | false =>
    rw [h.none_accepted hinit] at hx
    cases hx
  | true =>
    obtain ⟨offset, hagrees⟩ := h.agrees hinit
    obtain ⟨-, hage⟩ := hagrees.of_place_le (hagrees.le_head x hx) hrange (hagrees.numbers x hx)
    have hback : (s.cache.window.high - x.1).setWidth 32 = serial 32 (s.cache.window.age x.1 : ℤ) := by
      rw [serial, BitVec.ofInt_natCast, Window.age, BitVec.ofNat_toNat]
    rw [Window.orderOf, h.order_eq, hback, ← serial_sub, hage]
    congr 1
    omega

/-- A number the head moves to gets a place beyond all accepted ones. -/
theorem Tracks.lt_headAfter (h : Tracks s accepted) {seq : BitVec 16} {now : BitVec 32}
    (hmoves : s.cache.window.quiet now = true ∨ newer seq s.cache.window.high = true)
    {x : BitVec 16 × ℤ} (hx : x ∈ accepted) : x.2 < s.headAfter seq now := by
  cases hinit : s.cache.window.initialized with
  | false =>
    rw [h.none_accepted hinit] at hx
    cases hx
  | true =>
    obtain ⟨offset, hagrees⟩ := h.agrees hinit
    have hle := hagrees.le_head x hx
    unfold WindowState.headAfter
    split
    case isTrue => omega
    case isFalse hquiet =>
      have hnewer := hmoves.resolve_left hquiet
      have hsigned : 0 < (seq - s.cache.window.high).toInt := of_decide_eq_true hnewer
      rw [if_pos hnewer]
      have hpos : 0 < (seq - s.cache.window.high).toNat := by
        rw [BitVec.toInt_eq_toNat_cond] at hsigned
        split at hsigned <;> omega
      omega

end Verdicts

/-- **The replay window.** In every sequence of calls within a session: a number is refused while its
place, taken since the window was last anchored, is at most half the range behind the head; newer
numbers are accepted; a number at most 63 behind the head is accepted exactly if its place was not
taken since the window was last anchored; places grow in the modular order of the numbers, and are
what the code computes as the expanded order; and the bitmap agrees with the places taken. -/
theorem replay_window {c₀ : TrackerCache} (hsession : c₀.window.initialized = false)
    {trace : List WindowEvent} {s : WindowState} (h : (windowSystem c₀).Run trace s) :
    (∀ x ∈ reference trace, ∀ now, s.cache.window.quiet now = false → s.head - x.2 ≤ 32768 →
      (s.cache.unseen x.1 now).2 = false) ∧
    (∀ seq now, newer seq s.cache.window.high = true → (s.cache.unseen seq now).2 = true) ∧
    (∀ seq now, s.cache.window.quiet now = false → newer seq s.cache.window.high = false →
      s.cache.window.age seq ≤ 63 → ((s.cache.unseen seq now).2 = true ↔
        ∀ x ∈ reference trace, x.2 ≠ s.head - s.cache.window.age seq)) ∧
    (∀ x ∈ reference trace, ∀ y ∈ reference trace, |x.2 - y.2| ≤ 32767 →
      (newer x.1 y.1 = true ↔ y.2 < x.2)) ∧
    (∀ x ∈ reference trace, s.head - x.2 ≤ 32768 →
      s.cache.window.orderOf x.1 = serial 32 x.2) ∧
    (∀ seq now, (s.cache.window.quiet now = true ∨ newer seq s.cache.window.high = true) →
      ∀ x ∈ reference trace, x.2 < s.headAfter seq now) ∧
    (s.cache.window.initialized = true →
      Represents s.cache.window.seen s.head (places (reference trace))) := by
  have htracks := tracks_of_run hsession h
  refine ⟨fun x hx now => htracks.refused hx, fun seq now => unseen_of_newer, ?_, ?_,
    fun x hx => htracks.orderOf_eq hx, fun seq now hmoves x hx => htracks.lt_headAfter hmoves hx, ?_⟩
  · intro seq now hquiet hnewer hage
    rw [htracks.accepted_iff hquiet hnewer (by omega)]
    constructor
    · intro hfree x hx hplace
      exact hfree (hplace ▸ ⟨x.1, hx⟩)
    · rintro hfree ⟨q, hq⟩
      exact hfree _ hq rfl
  · intro x hx y hy hnear
    obtain ⟨hlow, hhigh⟩ := abs_le.mp hnear
    exact htracks.newer_iff hx hy (by omega) hhigh
  · intro hinit
    obtain ⟨offset, hagrees⟩ := htracks.agrees hinit
    exact hagrees.bitmap

/-- The cache a session of the runs below starts with. -/
def replayInit : TrackerCache := .zero

/-- After numbers 10, 8 and 20, number 10 is refused. -/
theorem replay_window_anchored : ∃ trace s, (windowSystem replayInit).Run trace s ∧
    (10, 65536) ∈ reference trace ∧ (s.cache.unseen 10 1).2 = false := by
  obtain ⟨trace, s, hrun, htest⟩ := (windowSystem replayInit).exists_run_of_replay
    [.call 10 0, .call 8 0, .call 20 0]
    (fun trace s => decide ((10, 65536) ∈ reference trace ∧ s.head - 65536 ≤ 32768 ∧
      s.cache.window.quiet 1 = false)) (by decide +kernel)
  obtain ⟨hmem, hrange, hquiet⟩ := of_decide_eq_true htest
  exact ⟨trace, s, hrun, hmem, (replay_window rfl hrun).1 _ hmem 1 hquiet hrange⟩

/-- **Two ways a number is accepted again.** Number 8, accepted two places behind head 10, is taken
for a newer one once the head has advanced by 32767; and number 0 is accepted again three places
behind the head, one lap of the numbers after its first acceptance. -/
theorem replay_window_accepts_twice :
    (∃ trace s place, (windowSystem replayInit).Run
        (.anchored 10 65536 :: .filled 8 place :: trace) s ∧
      (∀ seq p, WindowEvent.anchored seq p ∉ trace) ∧ s.head - 65536 ≤ 32767 ∧
      s.cache.window.quiet 0 = false ∧ (s.cache.unseen 8 0).2 = true) ∧
    ∃ trace s place, (windowSystem replayInit).Run (.anchored 0 place :: trace) s ∧
      (∀ seq p, WindowEvent.anchored seq p ∉ trace) ∧ s.cache.window.quiet 0 = false ∧
      newer 0 s.cache.window.high = false ∧ s.cache.window.age 0 ≤ 63 ∧
      (s.cache.unseen 0 0).2 = true := by
  constructor
  · obtain ⟨trace, s, hrun, htest⟩ := (windowSystem replayInit).exists_run_of_replay
      [.call 10 0, .call 8 0, .call 32777 0]
      (fun trace s => decide (trace = [.anchored 10 65536, .filled 8 65534, .advanced 32777 98303] ∧
        s.head - 65536 ≤ 32767 ∧ s.cache.window.quiet 0 = false ∧ (s.cache.unseen 8 0).2 = true))
      (by decide +kernel)
    obtain ⟨rfl, hhead, hquiet, hagain⟩ := of_decide_eq_true htest
    exact ⟨[.advanced 32777 98303], s, 65534, hrun, by simp, hhead, hquiet, hagain⟩
  · obtain ⟨trace, s, hrun, htest⟩ := (windowSystem replayInit).exists_run_of_replay
      [.call 0 0, .call 32767 0, .call 65534 0, .call 3 0]
      (fun trace s => decide (trace = [.anchored 0 65536, .advanced 32767 98303,
          .advanced 65534 131070, .advanced 3 131075] ∧ s.cache.window.quiet 0 = false ∧
        newer 0 s.cache.window.high = false ∧ s.cache.window.age 0 ≤ 63 ∧
        (s.cache.unseen 0 0).2 = true)) (by decide +kernel)
    obtain ⟨rfl, hquiet, hnewer, hage, hagain⟩ := of_decide_eq_true htest
    exact ⟨_, s, 65536, hrun, by simp, hquiet, hnewer, hage, hagain⟩

/-! ## The calls of the cache system -/

/-- Within its session an event leaves the window alone or is one call. -/
theorem SessionRel.window {rx : RxEvent} {c c' : TrackerCache} {out : List Delivery}
    {log : List CacheEvent} (h : SessionRel rx c c' out log) :
    c'.window = c.window ∨ c'.window = (c.unseen rx.event.eventSeq rx.stamp).1.window := by
  cases h with
  | heartbeat slot =>
    left
    unfold refresh
    simp only []
    split <;> rw [withEntry_window] <;> split <;> rfl
  | duplicate => exact .inl rfl
  | outdated => exact .inr rfl
  | passed current order _ hcurrent =>
    rw [hcurrent, withNotice_window]
    exact .inr rfl
  | stored current order _ hcurrent _ _ hstores =>
    have hwindow : current.window = (c.unseen rx.event.eventSeq rx.stamp).1.window := by
      rw [hcurrent, withNotice_window]
    right
    rw [store, if_pos hstores, ← hwindow]
    simp only []
    rw [withEntry_window]
    split <;> rfl

/-- The window of a cache comes from calls of `unseen` in its session. -/
def HasCalls (c : TrackerCache) : Prop :=
  ∃ c₀ trace s, c₀.window.initialized = false ∧ (windowSystem c₀).Run trace s ∧ s.cache = c

namespace HasCalls

variable {c c' : TrackerCache}

theorem start (h : c.window.initialized = false) : HasCalls c := ⟨c, [], _, h, .start, rfl⟩

theorem between (h : HasCalls c) (hwindow : c'.window = c.window) : HasCalls c' := by
  obtain ⟨c₀, trace, s, hstart, hrun, rfl⟩ := h
  have hstep : (windowSystem c₀).step s (.between c') = some (⟨c', s.head⟩, []) := if_pos hwindow
  exact ⟨c₀, _, _, hstart, hrun.snoc trivial hstep, rfl⟩

theorem call (h : HasCalls c) (seq : BitVec 16) (now : BitVec 32) :
    HasCalls (c.unseen seq now).1 := by
  obtain ⟨c₀, trace, s, hstart, hrun, rfl⟩ := h
  exact ⟨c₀, _, _, hstart, hrun.snoc trivial (i := .call seq now) rfl, rfl⟩

theorem session {rx : RxEvent} {out : List Delivery} {log : List CacheEvent} (h : HasCalls c)
    (hrel : SessionRel rx c c' out log) : HasCalls c' := by
  rcases hrel.window with hkept | hcalled
  · exact h.between hkept
  · exact (h.call rx.event.eventSeq rx.stamp).between hcalled

theorem resetPairing (h : HasCalls c) (generation : BitVec 32) :
    HasCalls (c.resetPairing generation) := by
  unfold TrackerCache.resetPairing
  split
  · exact h
  · exact .start rfl

end HasCalls

/-- **The window of every reachable cache is the one of its session's calls**, so `replay_window`
applies to it. -/
theorem hasCalls_of_reachable {c : TrackerCache} (h : cacheSystem.Reachable c) : HasCalls c := by
  refine h.invariant (P := HasCalls) (.start rfl) fun c op c' log hc hstep => ?_
  cases op with
  | receive sub generation rx =>
    obtain ⟨-, out, hrel⟩ := cacheStep_receive hstep
    cases hrel with
    | unpaired => exact hc
    | retired => exact hc.resetPairing generation
    | session _ _ hsession => exact (hc.resetPairing generation).session hsession
    | change _ _ _ hsession => exact (HasCalls.start rfl).session hsession
  | cleanup generation =>
    obtain ⟨rfl, rfl⟩ := Prod.mk.inj (Option.some.inj hstep)
    exact hc.resetPairing generation
  | silence sub generation tracker now slot =>
    obtain ⟨rfl, rfl⟩ := Prod.mk.inj (Option.some.inj hstep)
    refine hc.between ?_
    unfold silenceStep
    split
    · rfl
    · split
      · cases slot <;> rfl
      · split <;> rfl
  | commit sub out =>
    obtain ⟨rfl, rfl⟩ := Prod.mk.inj (Option.some.inj hstep)
    refine hc.between ?_
    unfold commitRest
    simp only []
    split <;> rfl

end SlimeReceiver.Events
