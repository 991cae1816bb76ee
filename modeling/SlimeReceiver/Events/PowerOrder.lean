import SlimeReceiver.Events.ReplayWindow
import SlimeReceiver.Events.Entries
import SlimeReceiver.Events.Sessions

/-! # Power notices in the order of the tracker

The cache in a session, beside the places of its events in the order of the tracker. An event carries
the low 16 bits of its place; the cache works with a 32-bit order that starts anew, in another
coordinate, whenever the window is anchored.

* **`PlacedCache`** — a cache and the places of what it remembers; **`PlacedCache.receive`**, a
  reception with the place of the event, and `receive_cache`, that the cache in it is the real one.
* **`powerSystem`** — a session, from its start.
* **`InRange`** — the places a receiver can tell from 16 bits.
* **`InOrder`** — the orders in the cache stand for the places: the invariant.
* **`power_intent_order`** — what follows for notices, for the intent and for silence. -/

namespace SlimeReceiver.Events

open TrackerCache
open Function (update)

/-! ## Decisions about the intent -/

namespace PowerIntent

/-- A notice is later than the watermark. -/
def applies (order : BitVec 32) (p : PowerIntent) : Bool :=
  !(p.ordered && decide ((order - p.watermarkOrder).toInt ≤ 0))

/-- A notice that is applied announces something new. -/
def arms (phase : BitVec 8) (now : BitVec 32) (p : PowerIntent) : Bool :=
  announces phase && (p.dropExpired now).phase != phase

end PowerIntent

/-! ## Caches with places -/

/-- A cache in a session and the places of what it remembers. -/
structure PlacedCache where
  cache : TrackerCache
  /-- The place of the window head. -/
  head : ℤ
  /-- The expanded order of a place is that many ahead of it, since the window was last anchored. -/
  offset : ℤ
  /-- The place of the latest notice that was applied. -/
  mark : ℤ
  /-- The place the watermark stands for. -/
  bound : ℤ
  /-- The place of the notice that armed the intent, its receipt, and the offset then. -/
  armed : ℤ
  armedAt : ℕ
  armedOffset : ℤ
  /-- The place of the first event of an entry, and the offset then. -/
  first : CacheSlot → ℤ
  firstOffset : CacheSlot → ℤ

namespace PlacedCache

/-- A session starts. -/
def start (c₀ : TrackerCache) : PlacedCache where
  cache := c₀
  head := 0
  offset := c₀.window.order.toNat
  mark := 0
  bound := 0
  armed := 0
  armedAt := 0
  armedOffset := 0
  first := fun _ => 0
  firstOffset := fun _ => 0

/-- The window takes the event at place `p`. -/
def move (rx : RxEvent) (p : ℤ) (s : PlacedCache) : PlacedCache :=
  let checked := (s.cache.unseen rx.event.eventSeq rx.stamp).1
  if s.cache.window.quiet rx.stamp then
    { s with
      cache := checked
      head := p
      offset := s.head + s.offset + 65536 - p
      bound := p + (s.cache.power.sequence - rx.event.eventSeq).toInt }
  else if newer rx.event.eventSeq s.cache.window.high then
    { s with
      cache := checked
      head := p }
  else { s with cache := checked }

/-- The expanded order of an event that was taken. -/
def orderOf (rx : RxEvent) (s : PlacedCache) : BitVec 32 :=
  s.cache.window.orderOf rx.event.eventSeq

/-- The event is a notice that is applied. -/
def appliesNotice (rx : RxEvent) (s : PlacedCache) : Bool :=
  rx.event.kind == kindPower && s.cache.power.applies (s.orderOf rx)

/-- The notice part of a reception. -/
def notice (rx : RxEvent) (p : ℤ) (s : PlacedCache) : PlacedCache :=
  let noticed := s.cache.withNotice rx.event (s.orderOf rx) rx.stamp
  if s.appliesNotice rx then
    if s.cache.power.arms rx.event.phase rx.stamp then
      { s with
        cache := noticed
        mark := p
        bound := p
        armed := p
        armedAt := rx.receivedAt
        armedOffset := s.offset }
    else
      { s with
        cache := noticed
        mark := p
        bound := p }
  else { s with cache := noticed }

/-- The storing part of a reception. -/
def store (rx : RxEvent) (p : ℤ) (found : Option CacheSlot) (s : PlacedCache) : PlacedCache :=
  let stored := (s.cache.store rx found (s.orderOf rx)).1
  if s.cache.stores rx found (s.orderOf rx) && s.cache.startsEntry rx found then
    { s with
      cache := stored
      first := update s.first (s.cache.targetOf rx found) p
      firstOffset := update s.firstOffset (s.cache.targetOf rx found) s.offset }
  else { s with cache := stored }

/-- The reception of the event at place `p`. -/
def receive (rx : RxEvent) (p : ℤ) (s : PlacedCache) : PlacedCache :=
  let found := s.cache.lookup rx.event
  if s.cache.isHeartbeat rx.event found then { s with cache := (s.cache.processSession rx).1 }
  else if (s.cache.unseen rx.event.eventSeq rx.stamp).2 then
    let moved := s.move rx p
    if moved.cache.outdated rx.event found (moved.orderOf rx) then moved
    else (moved.notice rx p).store rx p found
  else s

@[simp] theorem move_cache (rx : RxEvent) (p : ℤ) (s : PlacedCache) :
    (s.move rx p).cache = (s.cache.unseen rx.event.eventSeq rx.stamp).1 := by
  unfold move
  simp only []
  split
  · rfl
  · split <;> rfl

@[simp] theorem notice_cache (rx : RxEvent) (p : ℤ) (s : PlacedCache) :
    (s.notice rx p).cache = s.cache.withNotice rx.event (s.orderOf rx) rx.stamp := by
  unfold notice
  simp only []
  split
  · split <;> rfl
  · rfl

@[simp] theorem notice_orderOf (rx : RxEvent) (p : ℤ) (s : PlacedCache) :
    (s.notice rx p).orderOf rx = s.orderOf rx := by
  rw [orderOf, notice_cache, withNotice_window]
  rfl

@[simp] theorem store_cache (rx : RxEvent) (p : ℤ) (found : Option CacheSlot) (s : PlacedCache) :
    (s.store rx p found).cache = (s.cache.store rx found (s.orderOf rx)).1 := by
  unfold store
  simp only []
  split <;> rfl

/-- The cache in a reception with places is the real one. -/
theorem receive_cache (rx : RxEvent) (p : ℤ) (s : PlacedCache) :
    (s.receive rx p).cache = (s.cache.processSession rx).1 := by
  unfold receive processSession accept
  simp only []
  by_cases hheart : s.cache.isHeartbeat rx.event (s.cache.lookup rx.event) = true
  · rw [if_pos hheart]
  · rw [if_neg hheart, if_neg hheart]
    cases hfresh : (s.cache.unseen rx.event.eventSeq rx.stamp).2 with
    | false =>
      rw [if_neg Bool.false_ne_true, if_neg Bool.false_ne_true]
      exact (unseen_of_seen hfresh).symm
    | true =>
      rw [if_pos rfl, if_pos rfl]
      have horder : (s.move rx p).orderOf rx =
          (s.cache.unseen rx.event.eventSeq rx.stamp).1.window.orderOf rx.event.eventSeq := by
        rw [orderOf, move_cache]
      rw [move_cache, horder]
      split
      · rw [move_cache]
      · rw [store_cache, notice_cache, notice_orderOf, horder, move_cache]

end PlacedCache

/-! ## A session -/

/-- The step stays in the session of the cache. -/
def inSession (c : TrackerCache) : CacheOp → Bool
  | .receive _ generation rx => decide (rx.pairingGeneration = generation ∧
      c.pairingGeneration = generation ∧ c.nonce = rx.event.nonce)
  | .cleanup generation => decide (c.pairingGeneration = generation)
  | .silence .. | .commit .. => true

/-- The places after a step; a received event is at place `p`. -/
def PlacedCache.follow (op : CacheOp) (p : ℤ) (c : TrackerCache) (s : PlacedCache) : PlacedCache :=
  match op with
  | .receive _ _ rx => { s.receive rx p with cache := c }
  | _ => { s with cache := c }

/-- A session that starts with cache `c₀`. -/
def powerSystem (c₀ : TrackerCache) : EventSystem PlacedCache (CacheOp × ℤ) CacheEvent where
  init := .start c₀
  step s i :=
    if inSession s.cache i.1 then
      (cacheStep s.cache i.1).map fun r => (s.follow i.1 i.2 r.1, r.2)
    else none

/-- The places a receiver can tell: an event that is not a heartbeat carries the low bits of its place;
it is within half the range of the window head, or, when the window is anchored anew, not half the range
or more before the latest notice. -/
def InRange (s : PlacedCache) (i : CacheOp × ℤ) : Prop :=
  match i.1 with
  | .receive _ _ rx =>
    s.cache.isHeartbeat rx.event (s.cache.lookup rx.event) = false →
      rx.event.eventSeq = serial 16 i.2 ∧
      (s.cache.window.quiet rx.stamp = true → s.cache.power.ordered = true →
        s.mark - i.2 ≤ 32767) ∧
      (s.cache.window.quiet rx.stamp = false →
        -32768 ≤ i.2 - s.head ∧ i.2 - s.head ≤ 32767)
  | _ => True

instance (s : PlacedCache) (i : CacheOp × ℤ) : Decidable (InRange s i) :=
  match i with
  | (.receive _ _ rx, p) => inferInstanceAs (Decidable
      (s.cache.isHeartbeat rx.event (s.cache.lookup rx.event) = false →
        rx.event.eventSeq = serial 16 p ∧
        (s.cache.window.quiet rx.stamp = true → s.cache.power.ordered = true → s.mark - p ≤ 32767) ∧
        (s.cache.window.quiet rx.stamp = false → -32768 ≤ p - s.head ∧ p - s.head ≤ 32767)))
  | (.cleanup _, _) => isTrue trivial
  | (.silence .., _) => isTrue trivial
  | (.commit .., _) => isTrue trivial

/-! ## The orders in the cache stand for the places -/

/-- A session has not started: no window, no intent and no entries. -/
structure SessionStart (c : TrackerCache) : Prop where
  window : c.window.initialized = false
  power : c.power = .zero
  entries : ∀ slot, (c.entry slot).used = false

/-- The orders in the cache stand for the places. -/
structure InOrder (s : PlacedCache) : Prop where
  order_eq : s.cache.window.order = serial 32 (s.head + s.offset)
  high_eq : s.cache.window.initialized = true → s.cache.window.high = serial 16 s.head
  /-- The watermark stands for a place no earlier than that of the latest notice. -/
  watermark : s.cache.power.ordered = true → s.cache.window.initialized = true ∧
    s.cache.power.sequence = serial 16 s.mark ∧
    s.cache.power.watermarkOrder = serial 32 (s.bound + s.offset) ∧
    s.mark ≤ s.bound ∧ s.bound ≤ s.head + 32767
  armed : s.cache.power.phase ≠ 0 → s.cache.power.order = serial 32 (s.armed + s.armedOffset) ∧
    s.cache.power.receivedAt = stamp s.armedAt
  first : ∀ slot, (s.cache.entry slot).used = true →
    (s.cache.entry slot).firstOrder = serial 32 (s.first slot + s.firstOffset slot)

/-- The window and the event at place `p` it has just taken. -/
structure Taken (rx : RxEvent) (p : ℤ) (s : PlacedCache) : Prop where
  initialized : s.cache.window.initialized = true
  number : rx.event.eventSeq = serial 16 p
  order : s.orderOf rx = serial 32 (p + s.offset)
  place_le : p ≤ s.head
  le_place : s.head ≤ p + 32768

namespace InOrder

variable {s : PlacedCache} {rx : RxEvent} {p : ℤ}

theorem start {c₀ : TrackerCache} (h : SessionStart c₀) : InOrder (.start c₀) where
  order_eq := by
    show c₀.window.order = serial 32 (0 + (c₀.window.order.toNat : ℤ))
    rw [zero_add, serial, BitVec.ofInt_natCast, BitVec.ofNat_toNat, BitVec.setWidth_eq]
  high_eq hinit := absurd (h.window.symm.trans hinit) Bool.false_ne_true
  watermark hordered := by
    have hzero : (PlacedCache.start c₀).cache.power = .zero := h.power
    rw [hzero] at hordered
    cases hordered
  armed hphase := by
    have hzero : (PlacedCache.start c₀).cache.power = .zero := h.power
    rw [hzero] at hphase
    exact absurd rfl hphase
  first slot hused := absurd ((h.entries slot).symm.trans hused) Bool.false_ne_true

/-- The order of an event the window has taken. -/
theorem orderOf_eq (horder : s.cache.window.order = serial 32 (s.head + s.offset))
    (hhigh : s.cache.window.high = serial 16 s.head) (hseq : rx.event.eventSeq = serial 16 p)
    (hle : p ≤ s.head) (hrange : s.head ≤ p + 32768) :
    s.orderOf rx = serial 32 (p + s.offset) := by
  have hback : ((s.cache.window.high - rx.event.eventSeq).toNat : ℤ) = s.head - p := by
    rw [hhigh, hseq, serial_sub_toNat]
    omega
  have hwide : (s.cache.window.high - rx.event.eventSeq).setWidth 32 = serial 32 (s.head - p) := by
    rw [serial, ← hback, BitVec.ofInt_natCast, BitVec.ofNat_toNat]
  have hplace : p + s.offset = s.head + s.offset - (s.head - p) := by omega
  rw [PlacedCache.orderOf, Window.orderOf, horder, hwide, hplace]
  exact (serial_sub _ _).symm

/-- Rebasing a watermark moves it to a place no earlier than before, less than half the range ahead of
the new head. -/
theorem rebase (hrange : s.mark - p ≤ 32767) (hseq : rx.event.eventSeq = serial 16 p)
    (hsequence : s.cache.power.sequence = serial 16 s.mark) :
    s.mark ≤ p + (s.cache.power.sequence - rx.event.eventSeq).toInt ∧
      p + (s.cache.power.sequence - rx.event.eventSeq).toInt ≤ p + 32767 := by
  have hfold : (s.cache.power.sequence - rx.event.eventSeq).toInt = (s.mark - p).bmod (2 ^ 16) := by
    rw [hsequence, hseq, serial_sub_toInt_eq_bmod]
  rw [hfold, Int.bmod_def]
  split <;> omega

theorem unseen_power (seq : BitVec 16) (now : BitVec 32) (c : TrackerCache) :
    (c.unseen seq now).1.power = if c.window.quiet now then
      c.power.rebase (c.window.reanchor seq now).order seq else c.power := by
  unfold unseen
  split
  · rfl
  · split
    · rfl
    · split <;> rfl

/-- Taking an event leaves the intent alone, up to the coordinate of the watermark. -/
theorem unseen_intent (seq : BitVec 16) (now : BitVec 32) (c : TrackerCache) :
    (c.unseen seq now).1.power.phase = c.power.phase ∧
    (c.unseen seq now).1.power.order = c.power.order ∧
    (c.unseen seq now).1.power.receivedAt = c.power.receivedAt ∧
    (c.unseen seq now).1.power.sequence = c.power.sequence ∧
    (c.unseen seq now).1.power.ordered = c.power.ordered := by
  rw [unseen_power, PowerIntent.rebase]
  split
  · split <;> exact ⟨rfl, rfl, rfl, rfl, rfl⟩
  · exact ⟨rfl, rfl, rfl, rfl, rfl⟩

/-- What there is to show when the window takes an event. -/
theorem of_window (h : InOrder s) {t : PlacedCache}
    (hcache : t.cache = (s.cache.unseen rx.event.eventSeq rx.stamp).1)
    (hplaces : t.mark = s.mark ∧ t.armed = s.armed ∧ t.armedAt = s.armedAt ∧
      t.armedOffset = s.armedOffset ∧ t.first = s.first ∧ t.firstOffset = s.firstOffset)
    (hinit : t.cache.window.initialized = true)
    (horder : t.cache.window.order = serial 32 (t.head + t.offset))
    (hhigh : t.cache.window.high = serial 16 t.head)
    (hwatermark : s.cache.power.ordered = true →
      t.cache.power.watermarkOrder = serial 32 (t.bound + t.offset) ∧
        s.mark ≤ t.bound ∧ t.bound ≤ t.head + 32767) : InOrder t := by
  obtain ⟨hmark, harmed, hat, harmedOffset, hfirst, hfirstOffset⟩ := hplaces
  obtain ⟨hphase, hintent, hreceived, hsequence, hordered⟩ :=
    unseen_intent rx.event.eventSeq rx.stamp s.cache
  rw [← hcache] at hphase hintent hreceived hsequence hordered
  refine ⟨horder, fun _ => hhigh, fun h' => ?_, fun h' => ?_, fun slot hused => ?_⟩
  · rw [hordered] at h'
    obtain ⟨-, hseq, -⟩ := h.watermark h'
    obtain ⟨hmarkOrder, hle, hlt⟩ := hwatermark h'
    rw [hsequence, hmark]
    exact ⟨hinit, hseq, hmarkOrder, hle, hlt⟩
  · rw [hphase] at h'
    rw [hintent, hreceived, harmed, harmedOffset, hat]
    exact h.armed h'
  · rw [hcache, unseen_entry] at hused ⊢
    rw [hfirst, hfirstOffset]
    exact h.first slot hused

/-- A window anchored at `p` has a new coordinate. -/
theorem reanchor_order {w : Window} {head offset : ℤ} (horder : w.order = serial 32 (head + offset))
    (seq : BitVec 16) (now : BitVec 32) (p : ℤ) :
    (w.reanchor seq now).order = serial 32 (p + (head + offset + 65536 - p)) := by
  have hplace : p + (head + offset + 65536 - p) = head + offset + 65536 := by omega
  rw [hplace, serial_add, ← horder]
  rfl

/-- The watermark in that coordinate. -/
theorem rebase_order {power : PowerIntent} (hordered : power.ordered = true) {order : BitVec 32}
    {seq : BitVec 16} {p offset : ℤ} (horder : order = serial 32 (p + offset)) :
    (power.rebase order seq).watermarkOrder =
      serial 32 (p + (power.sequence - seq).toInt + offset) := by
  have hplace : p + (power.sequence - seq).toInt + offset =
      p + offset + (power.sequence - seq).toInt := by omega
  rw [PowerIntent.rebase, if_pos hordered, hplace, serial_add, ← horder]
  rfl

/-- A window that moves forward to `p` keeps its coordinate. -/
theorem advance_order {w : Window} {head offset p : ℤ} {seq : BitVec 16} (now : BitVec 32)
    (horder : w.order = serial 32 (head + offset)) (hhigh : w.high = serial 16 head)
    (hseq : seq = serial 16 p) (hforward : 0 < p - head) (hrange : p - head ≤ 32767) :
    (w.advance seq now).order = serial 32 (p + offset) := by
  have hshift : ((seq - w.high).toNat : ℤ) = p - head := by
    rw [hseq, hhigh, serial_sub_toNat]
    omega
  have hwide : (seq - w.high).setWidth 32 = serial 32 (p - head) := by
    rw [serial, ← hshift, BitVec.ofInt_natCast, BitVec.ofNat_toNat]
  have hplace : p + offset = head + offset + (p - head) := by omega
  show w.order + (seq - w.high).setWidth 32 = _
  rw [horder, hwide, hplace]
  exact (serial_add _ _).symm

section Move

variable (h : InOrder s) (hseq : rx.event.eventSeq = serial 16 p)

include h hseq

/-- The window is anchored at `p`, in a new coordinate. -/
theorem move_anchor (hquiet : s.cache.window.quiet rx.stamp = true)
    (hwindow : (s.cache.unseen rx.event.eventSeq rx.stamp).1.window =
      s.cache.window.reanchor rx.event.eventSeq rx.stamp)
    (hanchor : s.cache.power.ordered = true → s.mark - p ≤ 32767) :
    InOrder (s.move rx p) ∧ Taken rx p (s.move rx p) := by
  have hmoved : s.move rx p = { s with
      cache := (s.cache.unseen rx.event.eventSeq rx.stamp).1
      head := p
      offset := s.head + s.offset + 65536 - p
      bound := p + (s.cache.power.sequence - rx.event.eventSeq).toInt } := by
    rw [PlacedCache.move, if_pos hquiet]
  have hpower := unseen_power rx.event.eventSeq rx.stamp s.cache
  rw [if_pos hquiet] at hpower
  have horder := reanchor_order h.order_eq rx.event.eventSeq rx.stamp p
  have hinit : (s.move rx p).cache.window.initialized = true := by
    rw [PlacedCache.move_cache, hwindow]
    rfl
  have hhigh : (s.move rx p).cache.window.high = serial 16 p := by
    rw [PlacedCache.move_cache, hwindow]
    exact hseq
  have hhead : (s.move rx p).cache.window.order = serial 32 (p + (s.head + s.offset + 65536 - p)) := by
    rw [PlacedCache.move_cache, hwindow]
    exact horder
  rw [hmoved] at hinit hhigh hhead ⊢
  refine ⟨h.of_window rfl ⟨rfl, rfl, rfl, rfl, rfl, rfl⟩ hinit hhead hhigh fun hordered => ?_,
    hinit, hseq, orderOf_eq hhead hhigh hseq (le_refl p) (by simp), le_refl p, by simp⟩
  obtain ⟨-, hsequence, -⟩ := h.watermark hordered
  obtain ⟨hle, hlt⟩ := rebase (hanchor hordered) hseq hsequence
  refine ⟨?_, hle, hlt⟩
  show (s.cache.unseen rx.event.eventSeq rx.stamp).1.power.watermarkOrder = _
  rw [hpower]
  exact rebase_order hordered horder

/-- The head moves forward to `p`. -/
theorem move_forward (hquiet : s.cache.window.quiet rx.stamp = false)
    (hnewer : newer rx.event.eventSeq s.cache.window.high = true)
    (hwindow : (s.cache.unseen rx.event.eventSeq rx.stamp).1.window =
      s.cache.window.advance rx.event.eventSeq rx.stamp)
    (hrange : -32768 ≤ p - s.head ∧ p - s.head ≤ 32767) :
    InOrder (s.move rx p) ∧ Taken rx p (s.move rx p) := by
  have hmoved : s.move rx p = { s with
      cache := (s.cache.unseen rx.event.eventSeq rx.stamp).1
      head := p } := by
    rw [PlacedCache.move, hquiet, if_neg Bool.false_ne_true, if_pos hnewer]
  have hpower := unseen_power rx.event.eventSeq rx.stamp s.cache
  rw [hquiet, if_neg Bool.false_ne_true] at hpower
  have hhigh := h.high_eq (initialized_of_not_quiet hquiet)
  have hdiff : (rx.event.eventSeq - s.cache.window.high).toInt = p - s.head := by
    rw [hseq, hhigh, serial_sub_toInt] <;> omega
  have hforward : 0 < p - s.head := by
    rw [← hdiff]
    exact of_decide_eq_true hnewer
  have hinit : (s.move rx p).cache.window.initialized = true := by
    have hbefore : s.cache.window.initialized = true := initialized_of_not_quiet hquiet
    rw [PlacedCache.move_cache, hwindow]
    exact hbefore
  have hhigh' : (s.move rx p).cache.window.high = serial 16 p := by
    rw [PlacedCache.move_cache, hwindow]
    exact hseq
  have hhead : (s.move rx p).cache.window.order = serial 32 (p + s.offset) := by
    rw [PlacedCache.move_cache, hwindow]
    exact advance_order rx.stamp h.order_eq hhigh hseq hforward hrange.2
  rw [hmoved] at hinit hhigh' hhead ⊢
  refine ⟨h.of_window rfl ⟨rfl, rfl, rfl, rfl, rfl, rfl⟩ hinit hhead hhigh' fun hordered => ?_,
    hinit, hseq, orderOf_eq hhead hhigh' hseq (le_refl p) (by simp), le_refl p, by simp⟩
  obtain ⟨-, -, hmarkOrder, hle, hlt⟩ := h.watermark hordered
  refine ⟨?_, hle, by show s.bound ≤ p + 32767; omega⟩
  show (s.cache.unseen rx.event.eventSeq rx.stamp).1.power.watermarkOrder = _
  rw [hpower]
  exact hmarkOrder

/-- The event is behind the head. -/
theorem move_behind (hquiet : s.cache.window.quiet rx.stamp = false)
    (hnewer : newer rx.event.eventSeq s.cache.window.high = false)
    (hwindow : (s.cache.unseen rx.event.eventSeq rx.stamp).1.window =
      s.cache.window.mark rx.event.eventSeq)
    (hrange : -32768 ≤ p - s.head ∧ p - s.head ≤ 32767) :
    InOrder (s.move rx p) ∧ Taken rx p (s.move rx p) := by
  have hmoved : s.move rx p = { s with
      cache := (s.cache.unseen rx.event.eventSeq rx.stamp).1 } := by
    rw [PlacedCache.move, hquiet, if_neg Bool.false_ne_true, hnewer, if_neg Bool.false_ne_true]
  have hpower := unseen_power rx.event.eventSeq rx.stamp s.cache
  rw [hquiet, if_neg Bool.false_ne_true] at hpower
  have hhigh := h.high_eq (initialized_of_not_quiet hquiet)
  have hdiff : (rx.event.eventSeq - s.cache.window.high).toInt = p - s.head := by
    rw [hseq, hhigh, serial_sub_toInt] <;> omega
  have hback : p - s.head ≤ 0 := by
    rw [← hdiff]
    exact not_lt.mp (of_decide_eq_false hnewer)
  have hinit : (s.move rx p).cache.window.initialized = true := by
    have hbefore : s.cache.window.initialized = true := initialized_of_not_quiet hquiet
    rw [PlacedCache.move_cache, hwindow]
    exact hbefore
  have hhigh' : (s.move rx p).cache.window.high = serial 16 s.head := by
    rw [PlacedCache.move_cache, hwindow]
    exact hhigh
  have hhead : (s.move rx p).cache.window.order = serial 32 (s.head + s.offset) := by
    rw [PlacedCache.move_cache, hwindow]
    exact h.order_eq
  have hle : p ≤ s.head := by omega
  have hfar : s.head ≤ p + 32768 := by omega
  rw [hmoved] at hinit hhigh' hhead ⊢
  refine ⟨h.of_window rfl ⟨rfl, rfl, rfl, rfl, rfl, rfl⟩ hinit hhead hhigh' fun hordered => ?_,
    hinit, hseq, orderOf_eq hhead hhigh' hseq hle hfar, hle, hfar⟩
  obtain ⟨-, -, hmarkOrder, hbound, hlt⟩ := h.watermark hordered
  refine ⟨?_, hbound, hlt⟩
  show (s.cache.unseen rx.event.eventSeq rx.stamp).1.power.watermarkOrder = _
  rw [hpower]
  exact hmarkOrder

/-- The window takes an event. -/
theorem move (hfresh : (s.cache.unseen rx.event.eventSeq rx.stamp).2 = true)
    (hanchor : s.cache.window.quiet rx.stamp = true → s.cache.power.ordered = true →
      s.mark - p ≤ 32767)
    (hrange : s.cache.window.quiet rx.stamp = false → -32768 ≤ p - s.head ∧ p - s.head ≤ 32767) :
    InOrder (s.move rx p) ∧ Taken rx p (s.move rx p) := by
  rcases unseen_cases rx.event.eventSeq rx.stamp s.cache with ⟨hquiet, hwindow, -⟩ |
    ⟨hquiet, hnewer, hwindow, -⟩ | ⟨-, -, -, -, hseen⟩ | ⟨hquiet, hnewer, -, hwindow, -⟩
  · exact h.move_anchor hseq hquiet hwindow (hanchor hquiet)
  · exact h.move_forward hseq hquiet hnewer hwindow (hrange hquiet)
  · exact absurd (hseen.symm.trans hfresh) Bool.false_ne_true
  · exact h.move_behind hseq hquiet hnewer hwindow (hrange hquiet)

end Move

end InOrder

/-! ## What leaves the orders alone -/

/-- The intent is as before, or has been dropped. -/
structure SameIntent (p q : PowerIntent) : Prop where
  ordered_eq : q.ordered = p.ordered
  sequence_eq : q.sequence = p.sequence
  watermarkOrder_eq : q.watermarkOrder = p.watermarkOrder
  order_eq : q.order = p.order
  receivedAt_eq : q.receivedAt = p.receivedAt
  phase_eq : q.phase ≠ 0 → q.phase = p.phase

namespace SameIntent

variable {p q r : PowerIntent}

theorem refl (p : PowerIntent) : SameIntent p p := ⟨rfl, rfl, rfl, rfl, rfl, fun _ => rfl⟩

theorem dropped (p : PowerIntent) : SameIntent p { p with phase := 0 } :=
  ⟨rfl, rfl, rfl, rfl, rfl, fun h => absurd rfl h⟩

theorem dropExpired (now : BitVec 32) (p : PowerIntent) : SameIntent p (p.dropExpired now) := by
  unfold PowerIntent.dropExpired
  split
  · exact dropped p
  · exact refl p

theorem evidence (e : TrackerEvent) (order now : BitVec 32) (p : PowerIntent) :
    SameIntent p (p.powerOperationEvidence e order now) := by
  unfold PowerIntent.powerOperationEvidence
  split
  · exact refl p
  · split
    · exact dropped p
    · exact refl p

theorem phase_ne (h : SameIntent p q) (hphase : q.phase ≠ 0) : p.phase ≠ 0 := by
  rw [← h.phase_eq hphase]
  exact hphase

end SameIntent

/-- The window is as before, the intent as well or dropped, and no entry starts. -/
structure SameOrders (c c' : TrackerCache) : Prop where
  window_eq : c'.window = c.window
  power : SameIntent c.power c'.power
  first_eq : ∀ slot, (c'.entry slot).used = true →
    (c.entry slot).used = true ∧ (c'.entry slot).firstOrder = (c.entry slot).firstOrder

namespace SameOrders

variable {c : TrackerCache}

theorem refl (c : TrackerCache) : SameOrders c c :=
  ⟨rfl, .refl _, fun _ hused => ⟨hused, rfl⟩⟩

/-- An entry is written that was in use, and keeps its first order. -/
theorem withEntry {c' : TrackerCache} (h : SameOrders c c') {slot : CacheSlot} {cache : EventCache}
    (hcache : cache.used = true → (c.entry slot).used = true ∧
      cache.firstOrder = (c.entry slot).firstOrder) : SameOrders c (c'.withEntry slot cache) where
  window_eq := (withEntry_window c' slot cache).trans h.window_eq
  power := by
    rw [withEntry_power]
    exact h.power
  first_eq other hused := by
    by_cases hother : other = slot
    · subst hother
      rw [withEntry_entry_self] at hused ⊢
      exact hcache hused
    · rw [withEntry_entry_of_ne _ hother] at hused ⊢
      exact h.first_eq other hused

/-- The intent changes. -/
theorem withPower {c' : TrackerCache} (h : SameOrders c c') {q : PowerIntent}
    (hq : SameIntent c.power q) : SameOrders c { c' with power := q } where
  window_eq := h.window_eq
  power := hq
  first_eq slot hused := by
    rw [entry_power] at hused ⊢
    exact h.first_eq slot hused

theorem refresh (rx : RxEvent) (slot : CacheSlot) (c : TrackerCache) :
    SameOrders c (c.refresh rx slot).1 := by
  have hnoted : SameOrders c (if trackerEventIsCalibration rx.event.kind = true then
      c.withEvidence rx.event (c.entry slot).order rx.stamp else c) := by
    split
    · exact (refl c).withPower (.evidence _ _ _ _)
    · exact refl c
  unfold TrackerCache.refresh
  simp only []
  split
  · exact hnoted.withEntry fun hused => ⟨hused, rfl⟩
  · exact hnoted.withEntry fun hused => ⟨hused, rfl⟩

theorem silence (sub : Subscription) (generation : BitVec 32) (tracker : BitVec 8) (now : BitVec 32)
    (slot : CacheSlot) (c : TrackerCache) :
    SameOrders c (c.silenceStep sub generation tracker now slot).1 := by
  rcases silenceStep_cases sub generation tracker now slot c with ⟨-, -, hstate, -⟩ | ⟨hstate, -⟩
  · rw [hstate]
    have hpower : SameIntent c.power (c.reasonFor now slot).2 := by
      cases slot with
      | operation => exact .dropExpired now c.power
      | rest => exact .refl _
    exact ((refl c).withPower hpower).withEntry fun hused => ⟨hused, rfl⟩
  · rw [hstate]
    exact refl c

theorem commit (sub : Subscription) (out : Delivery) (c : TrackerCache) :
    SameOrders c (c.commitRest sub out) := by
  unfold commitRest
  simp only []
  split
  · exact (refl c).withEntry fun hused => ⟨hused, rfl⟩
  · exact refl c

end SameOrders

/-- What leaves the orders alone keeps them in order. -/
theorem InOrder.same {s t : PlacedCache} (h : InOrder s) {c : TrackerCache}
    (hsame : SameOrders s.cache c) (ht : t = { s with cache := c }) : InOrder t := by
  subst ht
  obtain ⟨hwindow, ⟨hordered, hsequence, hwatermark, horder, hreceived, hphase⟩, hfirst⟩ := hsame
  refine ⟨?_, fun hinit => ?_, fun h' => ?_, fun h' => ?_, fun slot hused => ?_⟩
  · exact (congrArg Window.order hwindow).trans h.order_eq
  · exact (congrArg Window.high hwindow).trans (h.high_eq (hwindow ▸ hinit))
  · obtain ⟨hinit, hseq, hmark, hle⟩ := h.watermark (hordered ▸ h')
    exact ⟨(congrArg Window.initialized hwindow).trans hinit, hsequence.trans hseq,
      hwatermark.trans hmark, hle⟩
  · have hbefore : s.cache.power.phase ≠ 0 := by
      rw [← hphase h']
      exact h'
    obtain ⟨harmed, hat⟩ := h.armed hbefore
    exact ⟨horder.trans harmed, hreceived.trans hat⟩
  · obtain ⟨hbefore, hkept⟩ := hfirst slot hused
    exact hkept.trans (h.first slot hbefore)

/-! ## Notices -/

section Notice

variable {s : PlacedCache} {rx : RxEvent} {p : ℤ}

/-- The `switch` of a notice, after the expiry: it arms the intent, or keeps it or drops it. -/
theorem noticePhase_cases (phase : BitVec 8) (order now : BitVec 32) (q : PowerIntent) :
    (announces phase = true ∧ q.phase ≠ phase ∧ q.noticePhase phase order now = { q with
      receivedAt := now
      order := order
      phase := phase }) ∨
    (¬(announces phase = true ∧ q.phase ≠ phase) ∧ SameIntent q (q.noticePhase phase order now)) := by
  unfold PowerIntent.noticePhase
  by_cases hannounces : announces phase = true
  · rw [if_pos hannounces]
    by_cases hphase : q.phase = phase
    · rw [if_neg (not_not.mpr hphase)]
      exact .inr ⟨fun h => h.2 hphase, .refl q⟩
    · rw [if_pos hphase]
      exact .inl ⟨hannounces, hphase, rfl⟩
  · rw [if_neg hannounces]
    refine .inr ⟨fun h => hannounces h.1, ?_⟩
    split
    · split
      · exact .dropped q
      · exact .refl q
    · split
      · exact .dropped q
      · exact .refl q

/-- What a notice that is applied does to the intent. -/
theorem powerNotice_applied (e : TrackerEvent) {order : BitVec 32} (now : BitVec 32) {q : PowerIntent}
    (h : q.applies order = true) : (q.powerNotice e order now).ordered = true ∧
      (q.powerNotice e order now).sequence = e.eventSeq ∧
      (q.powerNotice e order now).watermarkOrder = order ∧
      (q.arms e.phase now = true → (q.powerNotice e order now).order = order ∧
        (q.powerNotice e order now).receivedAt = now) ∧
      (q.arms e.phase now = false → (q.powerNotice e order now).order = q.order ∧
        (q.powerNotice e order now).receivedAt = q.receivedAt ∧
        ((q.powerNotice e order now).phase ≠ 0 → q.phase ≠ 0)) := by
  have hlater : ¬(q.ordered = true ∧ (order - q.watermarkOrder).toInt ≤ 0) := by
    intro ⟨hordered, hle⟩
    rw [PowerIntent.applies, hordered, decide_eq_true hle] at h
    cases h
  rw [PowerIntent.powerNotice, if_neg hlater]
  -- the expiry does not look at what the notice has just set
  set marked : PowerIntent := { q with
    ordered := true
    sequence := e.eventSeq
    watermarkOrder := order } with hmarked
  have hexpired : SameIntent marked (marked.dropExpired now) := .dropExpired now marked
  have hphase : (marked.dropExpired now).phase = (q.dropExpired now).phase := by
    unfold PowerIntent.dropExpired
    rw [show marked.expired now = q.expired now from rfl]
    split <;> rfl
  have harms : q.arms e.phase now = true ↔
      announces e.phase = true ∧ (marked.dropExpired now).phase ≠ e.phase := by
    rw [hphase, PowerIntent.arms, Bool.and_eq_true, bne_iff_ne]
  rcases noticePhase_cases e.phase order now (marked.dropExpired now) with
    ⟨hannounces, hother, hnotice⟩ | ⟨hnot, hnotice⟩
  · rw [hnotice]
    refine ⟨hexpired.ordered_eq, hexpired.sequence_eq, hexpired.watermarkOrder_eq,
      fun _ => ⟨rfl, rfl⟩, fun hkept => ?_⟩
    exact absurd (harms.mpr ⟨hannounces, hother⟩) (Bool.eq_false_iff.mp hkept)
  · refine ⟨hnotice.ordered_eq.trans hexpired.ordered_eq,
      hnotice.sequence_eq.trans hexpired.sequence_eq,
      hnotice.watermarkOrder_eq.trans hexpired.watermarkOrder_eq,
      fun hyes => absurd (harms.mp hyes) hnot, fun _ => ⟨hnotice.order_eq.trans hexpired.order_eq,
        hnotice.receivedAt_eq.trans hexpired.receivedAt_eq,
        fun hphase => hexpired.phase_ne (hnotice.phase_ne hphase)⟩⟩

/-- A notice that is not applied, or an event that is none, changes nothing. -/
theorem withNotice_of_not_applies (h : s.appliesNotice rx = false) :
    s.cache.withNotice rx.event (s.orderOf rx) rx.stamp = s.cache := by
  unfold withNotice
  split
  case isFalse => rfl
  case isTrue hkind =>
    have hearlier : s.cache.power.ordered = true ∧
        (s.orderOf rx - s.cache.power.watermarkOrder).toInt ≤ 0 := by
      rw [PlacedCache.appliesNotice, hkind, beq_self_eq_true, Bool.true_and, PowerIntent.applies,
        Bool.not_eq_false', Bool.and_eq_true, decide_eq_true_eq] at h
      exact h
    rw [PowerIntent.powerNotice, if_pos hearlier]

/-- What there is to show when only the intent changes. -/
theorem InOrder.with_power (h : InOrder s) {t : PlacedCache}
    (hwindow : t.cache.window = s.cache.window)
    (hentries : ∀ slot, t.cache.entry slot = s.cache.entry slot)
    (hplaces : t.head = s.head ∧ t.offset = s.offset ∧ t.first = s.first ∧
      t.firstOffset = s.firstOffset)
    (hwatermark : s.cache.window.initialized = true ∧ t.cache.power.sequence = serial 16 t.mark ∧
      t.cache.power.watermarkOrder = serial 32 (t.bound + t.offset) ∧ t.mark ≤ t.bound ∧
      t.bound ≤ t.head + 32767)
    (harmed : t.cache.power.phase ≠ 0 → t.cache.power.order = serial 32 (t.armed + t.armedOffset) ∧
      t.cache.power.receivedAt = stamp t.armedAt) : InOrder t := by
  obtain ⟨hhead, hoffset, hfirst, hfirstOffset⟩ := hplaces
  refine ⟨?_, fun hinit => ?_, fun _ => ?_, harmed, fun slot hused => ?_⟩
  · rw [hwindow, hhead, hoffset]
    exact h.order_eq
  · rw [hwindow] at hinit ⊢
    rw [hhead]
    exact h.high_eq hinit
  · rw [hwindow]
    exact hwatermark
  · rw [hentries] at hused ⊢
    rw [hfirst, hfirstOffset]
    exact h.first slot hused

/-- A notice that is applied moves the watermark to its place. -/
theorem InOrder.notice (h : InOrder s) (htaken : Taken rx p s) : InOrder (s.notice rx p) := by
  unfold PlacedCache.notice
  simp only []
  cases happlies : s.appliesNotice rx with
  | false =>
    rw [if_neg Bool.false_ne_true, withNotice_of_not_applies happlies]
    exact h
  | true =>
    rw [PlacedCache.appliesNotice, Bool.and_eq_true, beq_iff_eq] at happlies
    obtain ⟨hkind, hlater⟩ := happlies
    obtain ⟨-, hsequence, hwatermark, harmed, hkept⟩ :=
      powerNotice_applied rx.event rx.stamp hlater
    have hpower : (s.cache.withNotice rx.event (s.orderOf rx) rx.stamp).power =
        s.cache.power.powerNotice rx.event (s.orderOf rx) rx.stamp := by
      rw [withNotice, if_pos hkind]
    rw [← hpower] at hsequence hwatermark harmed hkept
    have hwindow := withNotice_window s.cache rx.event (s.orderOf rx) rx.stamp
    have hentries := withNotice_entry s.cache rx.event (s.orderOf rx) rx.stamp
    have hle := htaken.place_le
    have hmark : s.cache.window.initialized = true ∧
        (s.cache.withNotice rx.event (s.orderOf rx) rx.stamp).power.sequence = serial 16 p ∧
        (s.cache.withNotice rx.event (s.orderOf rx) rx.stamp).power.watermarkOrder =
          serial 32 (p + s.offset) ∧ p ≤ p ∧ p ≤ s.head + 32767 :=
      ⟨htaken.initialized, hsequence.trans htaken.number, hwatermark.trans htaken.order, le_refl p,
        by omega⟩
    rw [if_pos rfl]
    cases harms : s.cache.power.arms rx.event.phase rx.stamp with
    | true =>
      rw [if_pos rfl]
      obtain ⟨horder, hreceived⟩ := harmed harms
      exact h.with_power hwindow hentries ⟨rfl, rfl, rfl, rfl⟩ hmark
        fun _ => ⟨horder.trans htaken.order, hreceived⟩
    | false =>
      rw [if_neg Bool.false_ne_true]
      obtain ⟨horder, hreceived, hphase⟩ := hkept harms
      refine h.with_power hwindow hentries ⟨rfl, rfl, rfl, rfl⟩ hmark fun hnow => ?_
      obtain ⟨hold, hat⟩ := h.armed (hphase hnow)
      exact ⟨horder.trans hold, hreceived.trans hat⟩

theorem notice_places (rx : RxEvent) (p : ℤ) (s : PlacedCache) :
    (s.notice rx p).head = s.head ∧ (s.notice rx p).offset = s.offset := by
  unfold PlacedCache.notice
  simp only []
  split
  · split <;> exact ⟨rfl, rfl⟩
  · exact ⟨rfl, rfl⟩

theorem Taken.notice (h : Taken rx p s) : Taken rx p (s.notice rx p) := by
  obtain ⟨hhead, hoffset⟩ := notice_places rx p s
  refine ⟨?_, h.number, ?_, ?_, ?_⟩
  · rw [PlacedCache.notice_cache, withNotice_window]
    exact h.initialized
  · rw [PlacedCache.notice_orderOf, hoffset]
    exact h.order
  · rw [hhead]
    exact h.place_le
  · rw [hhead]
    exact h.le_place

end Notice

/-! ## Receptions -/

section Receive

variable {s : PlacedCache} {rx : RxEvent} {p : ℤ}

/-- An entry starts at a place. -/
theorem InOrder.start_entry (h : InOrder s) {slot : CacheSlot} {cache : EventCache}
    (hcache : cache.firstOrder = serial 32 (p + s.offset)) :
    InOrder { s with
      cache := s.cache.withEntry slot cache
      first := update s.first slot p
      firstOffset := update s.firstOffset slot s.offset } := by
  refine ⟨?_, fun hinit => ?_, fun hordered => ?_, fun hphase => ?_, fun other hused => ?_⟩
  · exact (congrArg Window.order (withEntry_window _ _ _)).trans h.order_eq
  · rw [withEntry_window] at hinit ⊢
    exact h.high_eq hinit
  · rw [withEntry_power] at hordered ⊢
    rw [withEntry_window]
    exact h.watermark hordered
  · rw [withEntry_power] at hphase ⊢
    exact h.armed hphase
  · by_cases hother : other = slot
    · subst hother
      rw [withEntry_entry_self]
      simp only [Function.update_self]
      exact hcache
    · rw [withEntry_entry_of_ne _ hother] at hused ⊢
      simp only [Function.update_of_ne hother]
      exact h.first other hused

/-- A stored event starts an entry at its place, or leaves the orders alone. -/
theorem InOrder.store (h : InOrder s) (htaken : Taken rx p s) (found : Option CacheSlot) :
    InOrder (s.store rx p found) := by
  unfold PlacedCache.store
  simp only []
  cases hstores : s.cache.stores rx found (s.orderOf rx) with
  | false =>
    rw [Bool.false_and, if_neg Bool.false_ne_true, TrackerCache.store, hstores,
      if_neg Bool.false_ne_true]
    exact h
  | true =>
    have hnoted : SameOrders s.cache (if rx.event.isState = true then s.cache
        else s.cache.withEvidence rx.event (s.orderOf rx) rx.stamp) := by
      split
      · exact .refl s.cache
      · exact (SameOrders.refl s.cache).withPower (.evidence _ _ _ _)
    rw [Bool.true_and, TrackerCache.store, hstores, if_pos rfl]
    simp only []
    cases hstarts : s.cache.startsEntry rx found with
    | false =>
      rw [if_neg Bool.false_ne_true, if_neg Bool.false_ne_true]
      have hused : (s.cache.entry (s.cache.targetOf rx found)).used = true := by
        rw [startsEntry, Bool.or_eq_false_iff] at hstarts
        exact (Bool.not_eq_false' _).mp hstarts.2
      have hsame : SameOrders s.cache ((if rx.event.isState = true then s.cache
          else s.cache.withEvidence rx.event (s.orderOf rx) rx.stamp).withEntry
          (s.cache.targetOf rx found) (freshEntry rx (s.orderOf rx)
            (s.cache.entry (s.cache.targetOf rx found)).firstOrder
            (nextGeneration (s.cache.entry (s.cache.targetOf rx found)).version))) :=
        hnoted.withEntry fun _ => ⟨hused, rfl⟩
      exact h.same hsame rfl
    | true =>
      rw [if_pos rfl, if_pos rfl]
      -- apart from the entry, which has just started, nothing has happened to the orders
      exact (h.same hnoted rfl).start_entry htaken.order

/-- A received event. -/
theorem InOrder.receive (h : InOrder s)
    (hrange : s.cache.isHeartbeat rx.event (s.cache.lookup rx.event) = false →
      rx.event.eventSeq = serial 16 p ∧
      (s.cache.window.quiet rx.stamp = true → s.cache.power.ordered = true → s.mark - p ≤ 32767) ∧
      (s.cache.window.quiet rx.stamp = false → -32768 ≤ p - s.head ∧ p - s.head ≤ 32767)) :
    InOrder (s.receive rx p) := by
  unfold PlacedCache.receive
  simp only []
  cases hheart : s.cache.isHeartbeat rx.event (s.cache.lookup rx.event) with
  | true =>
    rw [if_pos rfl]
    unfold processSession
    simp only []
    rw [hheart, if_pos rfl]
    cases hslot : s.cache.lookup rx.event with
    | none => exact h
    | some slot => exact h.same (.refresh rx slot s.cache) rfl
  | false =>
    obtain ⟨hseq, hanchor, hnear⟩ := hrange hheart
    rw [if_neg Bool.false_ne_true]
    cases hfresh : (s.cache.unseen rx.event.eventSeq rx.stamp).2 with
    | false => exact h
    | true =>
      obtain ⟨hmoved, htaken⟩ := h.move hseq hfresh hanchor hnear
      rw [if_pos rfl]
      split
      · exact hmoved
      · exact (hmoved.notice htaken).store htaken.notice _

end Receive

section Session

variable {c₀ : TrackerCache} {trace : List CacheEvent} {s : PlacedCache}

/-- Within its session an event is processed for the session. -/
theorem processRx_inSession {sub : Subscription} {generation : BitVec 32} {rx : RxEvent}
    {c : TrackerCache} (h : inSession c (.receive sub generation rx) = true) :
    (c.processRx sub generation rx).1 = (c.processSession rx).1 := by
  obtain ⟨hpaired, hcurrent, hnonce⟩ := of_decide_eq_true h
  have hreset : c.resetPairing generation = c := if_pos hcurrent
  unfold processRx
  rw [if_neg (not_not.mpr hpaired)]
  simp only [hreset]
  rw [if_pos hnonce]

/-- A step of a session, with the state it leads to. -/
theorem powerSystem_step {i : CacheOp × ℤ} {s' : PlacedCache} {log : List CacheEvent}
    (h : (powerSystem c₀).step s i = some (s', log)) : inSession s.cache i.1 = true ∧
      ∃ c', cacheStep s.cache i.1 = some (c', log) ∧ s' = s.follow i.1 i.2 c' := by
  have htaken : (if inSession s.cache i.1 = true then
      (cacheStep s.cache i.1).map fun r => (s.follow i.1 i.2 r.1, r.2) else none) = some (s', log) := h
  split at htaken
  case isFalse => cases htaken
  case isTrue hin =>
    obtain ⟨⟨c', log'⟩, hstep, heq⟩ := Option.map_eq_some_iff.mp htaken
    obtain ⟨rfl, rfl⟩ := Prod.mk.inj heq
    exact ⟨hin, c', hstep, rfl⟩

/-- A reception in a session. -/
theorem powerSystem_receive {sub : Subscription} {generation : BitVec 32} {rx : RxEvent} {p : ℤ}
    {s' : PlacedCache} {log : List CacheEvent}
    (h : (powerSystem c₀).step s (.receive sub generation rx, p) = some (s', log)) :
    s' = s.receive rx p := by
  obtain ⟨hin, c', hstep, hs'⟩ := powerSystem_step h
  have hcache : c' = (s.receive rx p).cache := by
    have htaken : (if trackerEventValid rx.event = true then
        some ((s.cache.processRx sub generation rx).1, s.cache.rxEvents generation rx) else none) =
        some (c', log) := hstep
    split at htaken
    case isFalse => cases htaken
    case isTrue =>
      have hfirst := (Prod.mk.inj (Option.some.inj htaken)).1
      rw [PlacedCache.receive_cache, ← hfirst]
      exact processRx_inSession hin
  rw [hs', PlacedCache.follow, hcache]

/-- At the end of every run of a session the orders stand for the places. -/
theorem inOrder_of_run (hstart : SessionStart c₀) (h : (powerSystem c₀).RunWhere InRange trace s) :
    InOrder s := by
  refine h.invariant (P := InOrder) (.start hstart) fun s i s' log hs hrange hstep => ?_
  obtain ⟨op, p⟩ := i
  obtain ⟨hin, c', htaken, hs'⟩ := powerSystem_step hstep
  cases op with
  | receive sub generation rx =>
    rw [powerSystem_receive hstep]
    exact hs.receive hrange
  | cleanup generation =>
    obtain ⟨rfl, rfl⟩ := Prod.mk.inj (Option.some.inj htaken)
    have hreset : s.cache.resetPairing generation = s.cache := if_pos (of_decide_eq_true hin)
    rw [hs', hreset]
    exact hs
  | silence sub generation tracker now slot =>
    obtain ⟨rfl, rfl⟩ := Prod.mk.inj (Option.some.inj htaken)
    exact hs.same (.silence sub generation tracker now slot s.cache) hs'
  | commit sub out =>
    obtain ⟨rfl, rfl⟩ := Prod.mk.inj (Option.some.inj htaken)
    exact hs.same (.commit sub out s.cache) hs'

end Session

/-! ## Notices that have no effect -/

/-- The intent and what the watermark stands for are as before. -/
structure KeepsIntent (p q : PowerIntent) : Prop where
  phase_eq : q.phase = p.phase
  order_eq : q.order = p.order
  receivedAt_eq : q.receivedAt = p.receivedAt
  sequence_eq : q.sequence = p.sequence
  ordered_eq : q.ordered = p.ordered

theorem KeepsIntent.refl (p : PowerIntent) : KeepsIntent p p := ⟨rfl, rfl, rfl, rfl, rfl⟩

section Effect

variable {s : PlacedCache} {rx : RxEvent} {p : ℤ}

theorem unseen_keepsIntent (seq : BitVec 16) (now : BitVec 32) (c : TrackerCache) :
    KeepsIntent c.power (c.unseen seq now).1.power := by
  obtain ⟨hphase, horder, hreceived, hsequence, hordered⟩ := InOrder.unseen_intent seq now c
  exact ⟨hphase, horder, hreceived, hsequence, hordered⟩

theorem move_places (rx : RxEvent) (p : ℤ) (s : PlacedCache) : (s.move rx p).mark = s.mark ∧
    (s.move rx p).armed = s.armed ∧ (s.move rx p).armedAt = s.armedAt := by
  unfold PlacedCache.move
  simp only []
  split
  · exact ⟨rfl, rfl, rfl⟩
  · split <;> exact ⟨rfl, rfl, rfl⟩

theorem store_places (rx : RxEvent) (p : ℤ) (found : Option CacheSlot) (s : PlacedCache) :
    (s.store rx p found).mark = s.mark ∧ (s.store rx p found).armed = s.armed ∧
      (s.store rx p found).armedAt = s.armedAt := by
  unfold PlacedCache.store
  simp only []
  split <;> exact ⟨rfl, rfl, rfl⟩

/-- A power notice is no event of a calibration. -/
theorem not_calibration_power : trackerEventIsCalibration kindPower = false := by decide

/-- Storing a power notice, if it is stored at all, leaves the intent alone. -/
theorem store_power (hkind : rx.event.kind = kindPower) (found : Option CacheSlot)
    (order : BitVec 32) (c : TrackerCache) : (c.store rx found order).1.power = c.power := by
  unfold TrackerCache.store
  split
  case isFalse => rfl
  case isTrue hstores =>
    have hstate : rx.event.isState = true := by
      rw [stores, TrackerEvent.isCached, hkind, not_calibration_power, Bool.false_and,
        Bool.or_false, Bool.and_eq_true] at hstores
      exact hstores.1
    simp only []
    rw [withEntry_power, if_pos hstate]

/-- So does a heartbeat of one. -/
theorem processSession_power (hkind : rx.event.kind = kindPower) {c : TrackerCache}
    (hheart : c.isHeartbeat rx.event (c.lookup rx.event) = true) :
    (c.processSession rx).1.power = c.power := by
  unfold processSession
  simp only []
  rw [hheart, if_pos rfl]
  cases c.lookup rx.event with
  | none => rfl
  | some slot =>
    simp only []
    unfold TrackerCache.refresh
    simp only []
    rw [hkind, not_calibration_power, if_neg Bool.false_ne_true]
    split <;> rw [withEntry_power]

/-- The stages of the reception of a power notice: it is refused, or taken and perhaps applied. -/
theorem receive_power (hkind : rx.event.kind = kindPower) (s : PlacedCache) :
    ((s.receive rx p).cache.power = s.cache.power ∧ (s.receive rx p).mark = s.mark ∧
      (s.receive rx p).armed = s.armed ∧ (s.receive rx p).armedAt = s.armedAt) ∨
    ((s.cache.isHeartbeat rx.event (s.cache.lookup rx.event) = false ∧
      (s.cache.unseen rx.event.eventSeq rx.stamp).2 = true) ∧
      (((s.receive rx p).cache.power = (s.move rx p).cache.power ∧ (s.receive rx p).mark = s.mark ∧
        (s.receive rx p).armed = s.armed ∧ (s.receive rx p).armedAt = s.armedAt) ∨
      ((s.receive rx p).cache.power = ((s.move rx p).notice rx p).cache.power ∧
        (s.receive rx p).mark = ((s.move rx p).notice rx p).mark ∧
        (s.receive rx p).armed = ((s.move rx p).notice rx p).armed ∧
        (s.receive rx p).armedAt = ((s.move rx p).notice rx p).armedAt))) := by
  unfold PlacedCache.receive
  simp only []
  cases hheart : s.cache.isHeartbeat rx.event (s.cache.lookup rx.event) with
  | true =>
    rw [if_pos rfl]
    exact .inl ⟨processSession_power hkind hheart, rfl, rfl, rfl⟩
  | false =>
    rw [if_neg Bool.false_ne_true]
    cases hfresh : (s.cache.unseen rx.event.eventSeq rx.stamp).2 with
    | false => exact .inl ⟨rfl, rfl, rfl, rfl⟩
    | true =>
      rw [if_pos rfl]
      refine .inr ⟨⟨rfl, rfl⟩, ?_⟩
      split
      · exact .inl ⟨rfl, move_places rx p s⟩
      · refine .inr ⟨?_, store_places rx p _ _⟩
        rw [PlacedCache.store_cache]
        exact store_power hkind _ _ _

/-- A notice no later than the watermark is not applied. -/
theorem not_applies_of_le {t : PlacedCache} (h : InOrder t) (htaken : Taken rx p t)
    (hordered : t.cache.power.ordered = true) (hle : p ≤ t.mark) : t.appliesNotice rx = false := by
  obtain ⟨-, -, hwatermark, hbound, hhead⟩ := h.watermark hordered
  have hnear := htaken.le_place
  -- both orders are in one coordinate, less than half the range apart
  have hdiff : (t.orderOf rx - t.cache.power.watermarkOrder).toInt = p - t.bound := by
    rw [htaken.order, hwatermark, serial_sub_toInt] <;> omega
  have hearlier : (t.orderOf rx - t.cache.power.watermarkOrder).toInt ≤ 0 := by omega
  rw [PlacedCache.appliesNotice, PowerIntent.applies, hordered, decide_eq_true hearlier,
    Bool.and_self, Bool.not_true, Bool.and_false]

/-- A notice that is not applied. -/
theorem notice_of_not_applies {t : PlacedCache} (h : t.appliesNotice rx = false) :
    t.notice rx p = t := by
  unfold PlacedCache.notice
  simp only []
  rw [h, if_neg Bool.false_ne_true, withNotice_of_not_applies h]

/-- A notice no later than the latest one that was applied has no effect. -/
theorem InOrder.stale_notice (h : InOrder s) (hkind : rx.event.kind = kindPower)
    (hordered : s.cache.power.ordered = true) (hle : p ≤ s.mark)
    (hrange : s.cache.isHeartbeat rx.event (s.cache.lookup rx.event) = false →
      rx.event.eventSeq = serial 16 p ∧
      (s.cache.window.quiet rx.stamp = true → s.cache.power.ordered = true → s.mark - p ≤ 32767) ∧
      (s.cache.window.quiet rx.stamp = false → -32768 ≤ p - s.head ∧ p - s.head ≤ 32767)) :
    (s.receive rx p).mark = s.mark ∧ KeepsIntent s.cache.power (s.receive rx p).cache.power := by
  have hkept : KeepsIntent s.cache.power (s.move rx p).cache.power := by
    rw [PlacedCache.move_cache]
    exact unseen_keepsIntent _ _ _
  rcases receive_power (p := p) hkind s with ⟨hpower, hmark, -⟩ |
    ⟨⟨hheart, hfresh⟩, ⟨hpower, hmark, -⟩ | ⟨hpower, hmark, -⟩⟩
  · rw [hpower]
    exact ⟨hmark, .refl _⟩
  · rw [hpower]
    exact ⟨hmark, hkept⟩
  · obtain ⟨hseq, hanchor, hnear⟩ := hrange hheart
    obtain ⟨hmoved, htaken⟩ := h.move hseq hfresh hanchor hnear
    obtain ⟨hsame, -⟩ := move_places rx p s
    have hnot := not_applies_of_le hmoved htaken (hkept.ordered_eq.trans hordered) (hsame ▸ hle)
    rw [hpower, hmark, notice_of_not_applies hnot]
    exact ⟨hsame, hkept⟩

/-- Repeating the notice that armed the intent does not extend it. -/
theorem repeated_notice (hkind : rx.event.kind = kindPower)
    (hphase : rx.event.phase = s.cache.power.phase)
    (hcurrent : s.cache.power.expired rx.stamp = false) :
    (s.receive rx p).armed = s.armed ∧ (s.receive rx p).armedAt = s.armedAt ∧
      (s.receive rx p).cache.power.receivedAt = s.cache.power.receivedAt := by
  have hkept : KeepsIntent s.cache.power (s.move rx p).cache.power := by
    rw [PlacedCache.move_cache]
    exact unseen_keepsIntent _ _ _
  obtain ⟨-, harmed, hat⟩ := move_places rx p s
  rcases receive_power (p := p) hkind s with ⟨hpower, -, harmed', hat'⟩ |
    ⟨-, ⟨hpower, -, harmed', hat'⟩ | ⟨hpower, -, harmed', hat'⟩⟩
  · rw [hpower]
    exact ⟨harmed', hat', rfl⟩
  · rw [hpower]
    exact ⟨harmed', hat', hkept.receivedAt_eq⟩
  · rw [hpower, harmed', hat']
    cases happlies : (s.move rx p).appliesNotice rx with
    | false =>
      rw [notice_of_not_applies happlies]
      exact ⟨harmed, hat, hkept.receivedAt_eq⟩
    | true =>
      -- the intent has not expired and has the phase of the notice already
      have hexpired : (s.move rx p).cache.power.expired rx.stamp = false := by
        rw [PowerIntent.expired, hkept.phase_eq, hkept.receivedAt_eq]
        exact hcurrent
      have hnot : (s.move rx p).cache.power.arms rx.event.phase rx.stamp = false := by
        rw [PowerIntent.arms, PowerIntent.dropExpired, hexpired, if_neg Bool.false_ne_true,
          hkept.phase_eq, ← hphase, bne_self_eq_false, Bool.and_false]
      have hlater : (s.move rx p).cache.power.applies ((s.move rx p).orderOf rx) = true := by
        rw [PlacedCache.appliesNotice, Bool.and_eq_true] at happlies
        exact happlies.2
      obtain ⟨-, -, -, -, hnotice⟩ := powerNotice_applied rx.event rx.stamp hlater
      have hreceived : ((s.move rx p).cache.withNotice rx.event ((s.move rx p).orderOf rx)
          rx.stamp).power.receivedAt = s.cache.power.receivedAt := by
        rw [withNotice, if_pos hkind]
        exact (hnotice hnot).2.1.trans hkept.receivedAt_eq
      unfold PlacedCache.notice
      simp only []
      rw [happlies, if_pos rfl, hnot, if_neg Bool.false_ne_true]
      exact ⟨harmed, hat, hreceived⟩

end Effect

/-! ## The intent and silence -/

section Silence

variable {s : PlacedCache}

/-- Only an intent that has not expired explains silence, and only that of an operation whose first
event is not later than the notice. -/
theorem silenceReason_of_ne {cache : EventCache} {now : BitVec 32} {q : PowerIntent}
    (h : q.silenceReason cache now ≠ calReasonTransportSilence) :
    q.phase ≠ 0 ∧ elapsed now q.receivedAt < powerIntentRelevanceMs ∧
      (cache.firstOrder - q.order).toInt ≤ 0 := by
  unfold PowerIntent.silenceReason PowerIntent.dropExpired at h
  simp only [] at h
  cases hexpired : q.expired now with
  | true =>
    rw [hexpired, if_pos rfl] at h
    exact absurd (if_pos (.inl rfl)) h
  | false =>
    rw [hexpired, if_neg Bool.false_ne_true] at h
    by_cases hnone : q.phase = 0 ∨ 0 < (cache.firstOrder - q.order).toInt
    · exact absurd (if_pos hnone) h
    obtain ⟨hphase, hle⟩ := not_or.mp hnone
    refine ⟨hphase, ?_, not_lt.mp hle⟩
    rw [PowerIntent.expired, bne_iff_ne.mpr hphase, Bool.true_and] at hexpired
    exact not_le.mp (of_decide_eq_false hexpired)

/-- An intent explains nothing once its time has passed. -/
theorem InOrder.expired_reason (h : InOrder s) (slot : CacheSlot) {now : ℕ}
    (hexpired : s.armedAt + powerIntentRelevanceMs ≤ now) (hrange : now < s.armedAt + 2 ^ 32) :
    (s.cache.reasonFor (stamp now) slot).1 = calReasonTransportSilence := by
  cases slot with
  | rest => rfl
  | operation i =>
    by_contra hreason
    obtain ⟨hphase, hcurrent, -⟩ := silenceReason_of_ne hreason
    obtain ⟨-, hreceived⟩ := h.armed hphase
    rw [hreceived, elapsed_stamp_eq (by omega) (by omega)] at hcurrent
    omega

/-- An intent explains the silence of an operation whose first event is not later. -/
theorem InOrder.reason (h : InOrder s) {i now : ℕ}
    (hreason : (s.cache.reasonFor (stamp now) (.operation i)).1 ≠ calReasonTransportSilence) :
    s.cache.power.phase ≠ 0 ∧ s.cache.power.receivedAt = stamp s.armedAt ∧
      elapsed (stamp now) (stamp s.armedAt) < powerIntentRelevanceMs ∧
      ((s.cache.operations i).used = true → s.firstOffset (.operation i) = s.armedOffset →
        s.first (.operation i) - s.armed < 2 ^ 31 → s.first (.operation i) ≤ s.armed) := by
  obtain ⟨hphase, hcurrent, hle⟩ := silenceReason_of_ne hreason
  obtain ⟨horder, hreceived⟩ := h.armed hphase
  refine ⟨hphase, hreceived, hreceived ▸ hcurrent, fun hused hsame hrange => ?_⟩
  by_contra hlater
  -- both orders are in one coordinate, so their difference is that of the places
  have hfirst : (s.cache.operations i).firstOrder = serial 32 (s.first (.operation i) + s.armedOffset) := by
    rw [← hsame]
    exact h.first (.operation i) hused
  rw [hfirst, horder, serial_sub_toInt (by omega) (by omega)] at hle
  omega

end Silence

section Result

variable {c₀ : TrackerCache} {trace : List CacheEvent} {s : PlacedCache}

/-- **Power notices take effect in the order of the tracker.** In a session whose events are in range,
across quiet intervals and however the 16-bit numbers wrap: a notice no later than the latest one that
was applied does not touch the intent; repeating a notice does not extend the intent; the intent
explains no silence from 20000 ms after its first notice; and it explains only the silence of an
operation that appeared no later, unless the window was anchored anew between the two. -/
theorem power_intent_order (hstart : SessionStart c₀)
    (h : (powerSystem c₀).RunWhere InRange trace s) :
    (∀ sub generation rx p s' log,
      (powerSystem c₀).step s (.receive sub generation rx, p) = some (s', log) →
      InRange s (.receive sub generation rx, p) → rx.event.kind = kindPower →
      s.cache.power.ordered = true → p ≤ s.mark →
        s'.mark = s.mark ∧ KeepsIntent s.cache.power s'.cache.power) ∧
    (∀ sub generation rx p s' log,
      (powerSystem c₀).step s (.receive sub generation rx, p) = some (s', log) →
      rx.event.kind = kindPower → rx.event.phase = s.cache.power.phase →
      s.cache.power.expired rx.stamp = false →
        s'.armed = s.armed ∧ s'.armedAt = s.armedAt ∧
          s'.cache.power.receivedAt = s.cache.power.receivedAt) ∧
    (∀ slot now, s.armedAt + powerIntentRelevanceMs ≤ now → now < s.armedAt + 2 ^ 32 →
      (s.cache.reasonFor (stamp now) slot).1 = calReasonTransportSilence) ∧
    ∀ i now, (s.cache.reasonFor (stamp now) (.operation i)).1 ≠ calReasonTransportSilence →
      s.cache.power.phase ≠ 0 ∧ s.cache.power.receivedAt = stamp s.armedAt ∧
        elapsed (stamp now) (stamp s.armedAt) < powerIntentRelevanceMs ∧
        ((s.cache.operations i).used = true → s.firstOffset (.operation i) = s.armedOffset →
          s.first (.operation i) - s.armed < 2 ^ 31 → s.first (.operation i) ≤ s.armed) := by
  have horder := inOrder_of_run hstart h
  refine ⟨fun sub generation rx p s' log hstep hrange hkind hordered hle => ?_,
    fun sub generation rx p s' log hstep hkind hphase hcurrent => ?_,
    fun slot now => horder.expired_reason slot, fun i now => horder.reason⟩
  · rw [powerSystem_receive hstep]
    exact horder.stale_notice hkind hordered hle hrange
  · rw [powerSystem_receive hstep]
    exact repeated_notice hkind hphase hcurrent

end Result

/-- The cache of tracker 0 in its first session. -/
def firstSession : TrackerCache := { TrackerCache.zero with nonce := 1 }

theorem sessionStart_firstSession : SessionStart firstSession where
  window := rfl
  power := rfl
  entries slot := by cases slot <;> rfl

/-- A power notice at place `p`. -/
def noticeAt (phase : BitVec 8) (p : ℤ) : TrackerEvent where
  nonce := 1
  eventSeq := serial 16 p
  operationId := 0
  trackerId := 0
  kind := kindPower
  event := calEventNotice
  outcome := 0
  phase := phase
  detail := 0

/-- The begin of operation 1 at place `p`. -/
def beginAt (p : ℤ) : TrackerEvent where
  nonce := 1
  eventSeq := serial 16 p
  operationId := 1
  trackerId := 0
  kind := 1
  event := calEventBegin
  outcome := 0
  phase := 1
  detail := 0

/-- The reception of the event at place `p`. -/
def receiveAt (e : TrackerEvent) (p : ℤ) (time : ℕ) : CacheOp × ℤ :=
  (.receive .init 0 (e.received time), p)

/-- A delayed announcement at place 4 is not applied after its cancellation at place 5, though the
window was anchored anew in between. -/
theorem power_intent_order_cancelled : ∃ trace s s' log,
    (powerSystem firstSession).RunWhere InRange trace s ∧
    (powerSystem firstSession).step s (receiveAt (noticeAt powerWillWom 4) 4 15000) = some (s', log) ∧
      s'.mark = 5 ∧ s'.cache.power.phase = 0 := by
  obtain ⟨s, s', log, ⟨trace, hrun⟩, hstep, htest⟩ :=
    ((powerSystem firstSession).restrict fun s i => decide (InRange s i)).exists_step_of_replay
      [receiveAt (noticeAt powerWomCancelled 5) 5 0]
      (receiveAt (noticeAt powerWillWom 4) 4 15000)
      (fun s _ _ => decide (InRange s (receiveAt (noticeAt powerWillWom 4) 4 15000) ∧
        s.cache.power.ordered = true ∧ s.mark = 5 ∧ s.cache.power.phase = 0)) (by decide +kernel)
  obtain ⟨hrange, hordered, hmark, hphase⟩ := of_decide_eq_true htest
  have hwhere := EventSystem.runWhere_of_restrict (fun s i => of_decide_eq_true) hrun
  have hfree : (powerSystem firstSession).step s (receiveAt (noticeAt powerWillWom 4) 4 15000) =
      some (s', log) := by
    have hallowed : (if decide (InRange s (receiveAt (noticeAt powerWillWom 4) 4 15000)) = true then
        (powerSystem firstSession).step s (receiveAt (noticeAt powerWillWom 4) 4 15000) else none) =
        some (s', log) := hstep
    rwa [if_pos (decide_eq_true hrange)] at hallowed
  obtain ⟨hmark', hkept⟩ := (power_intent_order sessionStart_firstSession hwhere).1 _ _ _ _ _ _ hfree
    hrange rfl hordered (by rw [hmark]; decide)
  exact ⟨trace, s, s', log, hwhere, hfree, hmark'.trans hmark, hkept.phase_eq.trans hphase⟩

/-- **Two ways the order of the tracker is lost.** A notice 39900 places before a cancellation that was
applied is applied after a quiet interval: 16 bits do not tell that it is older. And an operation that
appeared at place 11, before the window was anchored anew, is reported as ended by the announcement at
place 10. -/
theorem power_intent_order_lost :
    (∃ s s' log, (powerSystem firstSession).Reachable s ∧
      (powerSystem firstSession).step s (receiveAt (noticeAt powerWillWom 100) 100 15000) =
        some (s', log) ∧
      s.mark = 40000 ∧ s.cache.power.phase = 0 ∧ s'.cache.power.phase = powerWillWom) ∧
    ∃ trace s, (powerSystem firstSession).RunWhere InRange trace s ∧
      (s.cache.reasonFor (stamp 20000) (.operation 0)).1 = calReasonPowerDown ∧
      s.armed = 10 ∧ s.first (.operation 0) = 11 := by
  constructor
  · obtain ⟨s, s', log, hreach, hstep, htest⟩ := (powerSystem firstSession).exists_step_of_replay
      [receiveAt (noticeAt powerWomCancelled 40000) 40000 0]
      (receiveAt (noticeAt powerWillWom 100) 100 15000)
      (fun s s' _ => decide (s.mark = 40000 ∧ s.cache.power.phase = 0 ∧
        s'.cache.power.phase = powerWillWom)) (by decide +kernel)
    exact ⟨s, s', log, hreach, hstep, of_decide_eq_true htest⟩
  · obtain ⟨trace, s, hrun, htest⟩ :=
      ((powerSystem firstSession).restrict fun s i => decide (InRange s i)).exists_run_of_replay
        [receiveAt (beginAt 11) 11 0, receiveAt (beginAt 11) 11 5000,
          receiveAt (beginAt 11) 11 10000, receiveAt (noticeAt powerWillWom 10) 10 15000]
        (fun _ s => decide ((s.cache.reasonFor (stamp 20000) (.operation 0)).1 = calReasonPowerDown ∧
          s.armed = 10 ∧ s.first (.operation 0) = 11)) (by decide +kernel)
    exact ⟨trace, s, EventSystem.runWhere_of_restrict (fun s i => of_decide_eq_true) hrun,
      of_decide_eq_true htest⟩

end SlimeReceiver.Events
