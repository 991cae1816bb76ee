import SlimeReceiver.Collect.CdcStream

/-! # Discarding the capture ring

`data_collect.c` again, with one step for every read and every write of an index that another context may move. The
head is moved by `data_collect_write` alone; the tail is moved by the transmit callback and by the discards of three
contexts, of which only `data_collect_forget_tracker` holds the interrupts off.

* **`CdcRing`**, **`ringStep`**, **`ringSystem`** — the ring with the place of every context.
* **`RingBooks`**, **`ringBooks`** — what became of the bytes, told from the history.
* **`DiscardFinal`** — the used region, and what the driver is offered.
* **`TailUndisturbed`** — no step moves the tail past an index that another context has read and not yet used.
* **`discard_final`** — while no step does, a discard is final.
* **`refineStep`** — the steps of `cdcStep` are made of these. -/

namespace SlimeReceiver

open Function (update update_self update_of_ne)

namespace Collect

/-! ## The code -/

/-- `buf_used` of two indices. -/
def usedBetween (head tail : ℕ) : ℕ :=
  let diff : ℤ := head - tail
  (if diff < 0 then diff + dataCollectBufSize else diff).toNat

/-- Where `dc_uart_irq_callback` is in a pass of its loop. -/
inductive TxPass
  | idle
  /-- In `dc_discard_buffer`, with the head it read. -/
  | discarding (head : ℕ)
  /-- In `dc_contiguous_len`, with the head it read. -/
  | loaded (head : ℕ)
  /-- `dc_contiguous_len` has returned a length other than 0. -/
  | measured (len : ℕ)
  /-- In `uart_fifo_fill`, called for the bytes from a slot on. -/
  | filling (slot len : ℕ)
  /-- `uart_fifo_fill` has returned. -/
  | filled (sent : ℕ)
  /-- The tail is read and not yet written. -/
  | moving (tail sent : ℕ)
  deriving DecidableEq

/-- The static variables, with the places of the three contexts that can be interrupted. -/
structure CdcRing where
  cdcReady : Bool
  dcBuf : ℕ → BitVec 8
  head : ℕ
  tail : ℕ
  /-- The bytes of its frame that `data_collect_write` has still to put. -/
  writing : List (BitVec 8)
  pass : TxPass
  /-- The head that the kick has read to discard. -/
  kick : Option ℕ

/-- The two contexts that can be interrupted in a discard. -/
inductive Discarder
  | callback | kick
  deriving DecidableEq

/-- The steps. -/
inductive RingOp
  /-- `data_collect_init`. -/
  | init
  /-- `data_collect_write` up to its reading of the tail in `buf_free`. -/
  | write (data : List (BitVec 8)) (rssi : BitVec 8) (rxTicks : BitVec 32)
  /-- `buf_put`. -/
  | put
  /-- The callback is called, or loops, finds the port open or closed, and reads the head. -/
  | enter (hostOpen : Bool)
  | discard
  /-- `dc_contiguous_len` reads the tail. -/
  | measure
  /-- The tail is read for the address, and `uart_fifo_fill` is called. -/
  | startFill
  /-- `uart_fifo_fill` returns; 0 stands for what is not positive. -/
  | endFill (sent : ℕ)
  | readTail
  | moveTail
  | kick (hostOpen : Bool)
  | kickDiscard
  /-- `data_collect_forget_tracker`, for a valid tracker. -/
  | forgetTracker
  deriving DecidableEq

/-- The visible events. -/
inductive RingEvent
  | put (slot : ℕ) (byte : BitVec 8)
  | dropped
  /-- A discard has read the head. -/
  | discardBegun (who : Discarder)
  | discarded (who : Discarder)
  | forgotten
  /-- `uart_fifo_fill` is called for so many bytes from a slot on. -/
  | offered (slot len : ℕ)
  /-- It took these. -/
  | taken (slot : ℕ) (bytes : List (BitVec 8))
  deriving DecidableEq

/-- One step. -/
def ringStep (s : CdcRing) : RingOp → Option (CdcRing × List RingEvent)
  | .init => some ({ s with cdcReady := true }, [])
  | .write data rssi rxTicks =>
    match s.writing with
    | [] =>
      if s.cdcReady then
        let frameSize := 2 + 1 + data.length + 1 + 4 + 1
        if dataCollectBufSize - 1 - usedBetween s.head s.tail < frameSize then some (s, [.dropped])
        else some ({ s with writing := CdcPacket.frame ⟨data, rssi, rxTicks⟩ }, [])
      else some (s, [])
    | _ :: _ => none
  | .put =>
    match s.writing with
    | [] => none
    | byte :: rest =>
      some ({ s with dcBuf := update s.dcBuf s.head byte, head := (s.head + 1) % dataCollectBufSize, writing := rest },
        [.put s.head byte])
  | .enter hostOpen =>
    match s.pass with
    | .idle =>
      if hostOpen then some ({ s with pass := .loaded s.head }, [])
      else some ({ s with pass := .discarding s.head }, [.discardBegun .callback])
    | _ => none
  | .discard =>
    match s.pass with
    | .discarding head => some ({ s with tail := head, pass := .idle }, [.discarded .callback])
    | _ => none
  | .measure =>
    match s.pass with
    | .loaded head =>
      let len := dcContiguousLen head s.tail
      if len = 0 then some ({ s with pass := .idle }, []) else some ({ s with pass := .measured len }, [])
    | _ => none
  | .startFill =>
    match s.pass with
    | .measured len => some ({ s with pass := .filling s.tail len }, [.offered s.tail len])
    | _ => none
  | .endFill sent =>
    match s.pass with
    | .filling slot len =>
      -- the driver takes no more than it is offered
      if len < sent then none
      else if sent = 0 then some ({ s with pass := .idle }, [])
      else some ({ s with pass := .filled sent }, [.taken slot ((List.range sent).map fun i => s.dcBuf (slot + i))])
    | _ => none
  | .readTail =>
    match s.pass with
    | .filled sent => some ({ s with pass := .moving s.tail sent }, [])
    | _ => none
  | .moveTail =>
    match s.pass with
    | .moving tail sent => some ({ s with tail := (tail + sent) % dataCollectBufSize, pass := .idle }, [])
    | _ => none
  | .kick hostOpen =>
    match s.kick with
    | none => if hostOpen then some (s, []) else some ({ s with kick := some s.head }, [.discardBegun .kick])
    | some _ => none
  | .kickDiscard =>
    match s.kick with
    | some head => some ({ s with tail := head, kick := none }, [.discarded .kick])
    | none => none
  | .forgetTracker => some ({ s with tail := s.head }, [.forgotten])

/-- The module before its initialization. -/
def ringSystem : EventSystem CdcRing RingOp RingEvent where
  init := ⟨false, fun _ => 0, 0, 0, [], .idle, none⟩
  step := ringStep

/-! ## What became of the bytes -/

/-- The bytes put into the ring, numbered in their order. -/
structure RingBooks where
  written : ℕ
  /-- The number of the byte in a slot. -/
  number : ℕ → Option ℕ
  /-- The numbers of the bytes that the driver took. -/
  sent : List ℕ
  /-- The bytes before this number were queued before a discard that is done. -/
  discarded : ℕ
  /-- The bytes before this number were queued before the discard that a context is in. -/
  begun : Discarder → ℕ

/-- An event. -/
def RingBooks.record (b : RingBooks) : RingEvent → RingBooks
  | .put slot _ => { b with written := b.written + 1, number := update b.number slot (some b.written) }
  | .dropped | .offered _ _ => b
  | .discardBegun who => { b with begun := update b.begun who b.written }
  | .discarded who => { b with discarded := max b.discarded (b.begun who) }
  | .forgotten => { b with discarded := max b.discarded b.written }
  | .taken slot bytes =>
    { b with sent := b.sent ++ (List.range bytes.length).filterMap fun i => b.number (slot + i) }

/-- The books of a history. -/
def ringBooks (trace : List RingEvent) : RingBooks :=
  trace.foldl RingBooks.record ⟨0, fun _ => none, [], 0, fun _ => 0⟩

/-- The bytes that the driver took, with the tail not yet moved. -/
def CdcRing.inFlight (s : CdcRing) : ℕ :=
  match s.pass with
  | .filled sent | .moving _ sent => sent
  | _ => 0

/-- A call of `uart_fifo_fill` offers no byte that was queued before a discard. -/
def OffersQueued (earlier : List RingEvent) (e : RingEvent) : Prop :=
  ∀ slot len, e = .offered slot len → ∀ i < len, ∀ n,
    (ringBooks earlier).number (slot + i) = some n → (ringBooks earlier).discarded ≤ n

/-- A discard is final. -/
structure DiscardFinal (trace : List RingEvent) (s : CdcRing) : Prop where
  /-- Behind the bytes in flight, the used region has only bytes that were written, and neither sent nor discarded. -/
  used : ∀ i, s.inFlight ≤ i → i < usedBetween s.head s.tail →
    ∃ n, (ringBooks trace).number ((s.tail + i) % dataCollectBufSize) = some n ∧ n ∉ (ringBooks trace).sent ∧
      (ringBooks trace).discarded ≤ n
  offered : EachAfter OffersQueued trace

/-! ## Steps that keep clear of each other -/

/-- The tail, moved to an index, does not pass a head that was read. -/
def NotPast (s : CdcRing) (target head : ℕ) : Prop := usedBetween target s.tail ≤ usedBetween head s.tail

/-- The head that the callback has read and not yet used. -/
def TxPass.headRead : TxPass → Option ℕ
  | .discarding head | .loaded head => some head
  | _ => none

/-- The callback has measured from the tail, and goes by what it measured. -/
def TxPass.Measured : TxPass → Bool
  | .measured _ | .filling _ _ | .filled _ | .moving _ _ => true
  | .idle | .discarding _ | .loaded _ => false

/-- The tail may be moved to an index as far as the kick goes. -/
def KickUndisturbed (s : CdcRing) (target : ℕ) : Prop := ∀ head ∈ s.kick, NotPast s target head

/-- The tail may be moved to an index as far as the callback goes. -/
def PassUndisturbed (s : CdcRing) (target : ℕ) : Prop :=
  (∀ head ∈ s.pass.headRead, NotPast s target head) ∧ (s.pass.Measured → target = s.tail)

/-- The index that the step moves the tail to. -/
def CdcRing.tailTarget (s : CdcRing) : RingOp → Option ℕ
  | .discard =>
    match s.pass with
    | .discarding head => some head
    | _ => none
  | .moveTail =>
    match s.pass with
    | .moving tail sent => some ((tail + sent) % dataCollectBufSize)
    | _ => none
  | .kickDiscard => s.kick
  | .forgetTracker => some s.head
  | _ => none

/-- A step that moves the tail passes no head that another context has read and not yet used, and a discard of another
context does not move the tail between the callback's measuring from it and its writing it. -/
def TailUndisturbed (s : CdcRing) (op : RingOp) : Prop :=
  ∀ target ∈ s.tailTarget op,
    (op ≠ .kickDiscard → KickUndisturbed s target) ∧ (op ≠ .discard → op ≠ .moveTail → PassUndisturbed s target)

instance (s : CdcRing) (target head : ℕ) : Decidable (NotPast s target head) :=
  inferInstanceAs (Decidable (_ ≤ _))

instance (s : CdcRing) (target : ℕ) : Decidable (KickUndisturbed s target) :=
  inferInstanceAs (Decidable (∀ head ∈ s.kick, NotPast s target head))

instance (s : CdcRing) (target : ℕ) : Decidable (PassUndisturbed s target) :=
  inferInstanceAs (Decidable (_ ∧ _))

instance (s : CdcRing) (op : RingOp) : Decidable (TailUndisturbed s op) :=
  inferInstanceAs (Decidable (∀ target ∈ s.tailTarget op, _))

/-! ## The invariant -/

section Invariant

variable {b : RingBooks} {s s' : CdcRing} {es : List RingEvent} {op : RingOp} {first m count head target : ℕ}

/-- A head that was read when so many bytes were written, none of which is behind the tail. -/
structure HeadRead (b : RingBooks) (first head count : ℕ) : Prop where
  eq : head = count % dataCollectBufSize
  first_le : first ≤ count
  le : count ≤ b.written

/-- What the callback knows when the first byte in the ring has this number. -/
def PassKnows (b : RingBooks) (first : ℕ) : TxPass → Prop
  | .idle => True
  | .discarding head => HeadRead b first head (b.begun .callback)
  | .loaded head => ∃ count, HeadRead b first head count
  | .measured len => first + len ≤ b.written ∧ first % dataCollectBufSize + len ≤ dataCollectBufSize
  | .filling slot len => slot = first % dataCollectBufSize ∧ first + len ≤ b.written ∧
      first % dataCollectBufSize + len ≤ dataCollectBufSize
  | .filled sent => first + sent ≤ b.written
  | .moving tail sent => tail = first % dataCollectBufSize ∧ first + sent ≤ b.written

/-- The used region has the bytes from one number on, none of them sent or discarded. -/
structure RingInvariant (b : RingBooks) (s : CdcRing) (first : ℕ) : Prop where
  tail_eq : s.tail = first % dataCollectBufSize
  head_eq : s.head = b.written % dataCollectBufSize
  first_le : first ≤ b.written
  room : b.written + s.writing.length < first + dataCollectBufSize
  numbered : ∀ n, first ≤ n → n < b.written → b.number (n % dataCollectBufSize) = some n
  sent : ∀ n ∈ b.sent, n < first + s.inFlight
  discarded : b.discarded ≤ first
  pass : PassKnows b first s.pass
  kick : ∀ head ∈ s.kick, HeadRead b first head (b.begun .kick)

/-- Less than a lap apart, the indices tell the bytes between them. -/
theorem usedBetween_mod (hle : first ≤ count) (hlap : count < first + dataCollectBufSize) :
    usedBetween (count % dataCollectBufSize) (first % dataCollectBufSize) = count - first := by
  unfold usedBetween dataCollectBufSize at *
  dsimp only
  split
  case isTrue => omega
  case isFalse => omega

theorem RingInvariant.lap (h : RingInvariant b s first) : b.written < first + dataCollectBufSize :=
  Nat.lt_of_le_of_lt (Nat.le_add_right _ _) h.room

/-- Indices within the used region tell which is ahead. -/
theorem RingInvariant.le_of_notPast (h : RingInvariant b s first) (hfirst : first ≤ m) (hm : m ≤ b.written)
    (hread : HeadRead b first head count) (hclear : NotPast s (m % dataCollectBufSize) head) : m ≤ count := by
  have hlap := h.lap
  have hcount := hread.le
  have hcount' := hread.first_le
  unfold NotPast at hclear
  rw [h.tail_eq, hread.eq, usedBetween_mod hfirst (by omega), usedBetween_mod hcount' (by omega)] at hclear
  omega

/-- What the callback knows stays true of a tail that was moved clear of it. -/
theorem RingInvariant.pass_retire (h : RingInvariant b s first) (hfirst : first ≤ m) (hm : m ≤ b.written)
    (hclear : PassUndisturbed s (m % dataCollectBufSize)) : PassKnows b m s.pass := by
  have hknows := h.pass
  have hlap := h.lap
  obtain ⟨hheads, hmeasured⟩ := hclear
  -- what was measured from the tail is only good as long as the tail stays
  have hstays : s.pass.Measured = true → m = first := by
    intro hplace
    have hsame := hmeasured hplace
    rw [h.tail_eq] at hsame
    by_contra hne
    refine mod_ne_mod_sub (d := m - first) (n := dataCollectBufSize) (by omega) (by omega) (Nat.sub_le m first) ?_
    rw [Nat.sub_sub_self hfirst]
    exact hsame.symm
  revert hknows hheads hstays
  cases s.pass with
  | idle => exact fun _ _ _ => trivial
  | discarding head =>
    intro hknows hheads _
    exact ⟨hknows.eq, h.le_of_notPast hfirst hm hknows (hheads head rfl), hknows.le⟩
  | loaded head =>
    intro hknows hheads _
    obtain ⟨count, hread⟩ := hknows
    exact ⟨count, hread.eq, h.le_of_notPast hfirst hm hread (hheads head rfl), hread.le⟩
  | measured len | filling slot len | filled sent | moving tail sent =>
    intro hknows _ hstays
    rw [hstays rfl]
    exact hknows

theorem RingInvariant.kick_retire (h : RingInvariant b s first) (hfirst : first ≤ m) (hm : m ≤ b.written)
    (hclear : KickUndisturbed s (m % dataCollectBufSize)) :
    ∀ head ∈ s.kick, HeadRead b m head (b.begun .kick) := by
  intro head hhead
  have hread := h.kick head hhead
  exact ⟨hread.eq, h.le_of_notPast hfirst hm hread (hclear head hhead), hread.le⟩

/-- The tail is moved over bytes that were sent, or are now discarded. -/
theorem RingInvariant.retire (h : RingInvariant b s first) (discarded : ℕ) (pass : TxPass) (kick : Option ℕ)
    (hfirst : first ≤ m) (hm : m ≤ b.written) (hdiscarded : discarded ≤ m)
    (hsent : first + s.inFlight ≤ m + ({ s with pass := pass } : CdcRing).inFlight)
    (hpass : PassKnows b m pass) (hkick : ∀ head ∈ kick, HeadRead b m head (b.begun .kick)) :
    RingInvariant { b with discarded := discarded }
      { s with tail := m % dataCollectBufSize, pass := pass, kick := kick } m where
  tail_eq := rfl
  head_eq := h.head_eq
  first_le := hm
  room := Nat.lt_of_lt_of_le h.room (Nat.add_le_add_right hfirst _)
  numbered n hn hn' := h.numbered n (Nat.le_trans hfirst hn) hn'
  sent n hn := Nat.lt_of_lt_of_le (h.sent n hn) hsent
  discarded := hdiscarded
  pass := by
    cases pass with
    | idle | measured _ | filling _ _ | filled _ | moving _ _ => exact hpass
    | discarding head => exact ⟨hpass.eq, hpass.first_le, hpass.le⟩
    | loaded head =>
      obtain ⟨count, hread⟩ := hpass
      exact ⟨count, hread.eq, hread.first_le, hread.le⟩
  kick head hhead := ⟨(hkick head hhead).eq, (hkick head hhead).first_le, (hkick head hhead).le⟩

/-- The callback goes on without the tail. -/
theorem RingInvariant.place (h : RingInvariant b s first) {pass : TxPass} (hpass : PassKnows b first pass)
    (hflight : ({ s with pass := pass } : CdcRing).inFlight = s.inFlight) :
    RingInvariant b { s with pass := pass } first :=
  { h with sent := fun n hn => hflight.symm ▸ h.sent n hn, pass := hpass }

theorem HeadRead.mono {b' : RingBooks} (h : HeadRead b first head count) (hwritten : b.written ≤ b'.written) :
    HeadRead b' first head count :=
  ⟨h.eq, h.first_le, Nat.le_trans h.le hwritten⟩

/-- More bytes, and discards begun by others, take nothing from what the callback knows. -/
theorem PassKnows.mono {b' : RingBooks} {pass : TxPass} (h : PassKnows b first pass)
    (hwritten : b.written ≤ b'.written) (hbegun : b'.begun .callback = b.begun .callback) :
    PassKnows b' first pass := by
  cases pass with
  | idle => trivial
  | discarding head =>
    show HeadRead b' first head (b'.begun .callback)
    rw [hbegun]
    exact HeadRead.mono h hwritten
  | loaded head =>
    obtain ⟨count, hread⟩ := h
    exact ⟨count, hread.mono hwritten⟩
  | measured len => exact ⟨Nat.le_trans h.1 hwritten, h.2⟩
  | filling slot len => exact ⟨h.1, Nat.le_trans h.2.1 hwritten, h.2.2⟩
  | filled sent => exact Nat.le_trans h hwritten
  | moving tail sent => exact ⟨h.1, Nat.le_trans h.2 hwritten⟩

/-- A byte is put. -/
theorem RingInvariant.put (h : RingInvariant b s first) {byte : BitVec 8} {rest : List (BitVec 8)}
    (hwriting : s.writing = byte :: rest) :
    RingInvariant (b.record (.put s.head byte))
      { s with
        dcBuf := update s.dcBuf s.head byte
        head := (s.head + 1) % dataCollectBufSize
        writing := rest } first := by
  have hroom := h.room
  have hfirst := h.first_le
  rw [hwriting, List.length_cons] at hroom
  refine { h with head_eq := ?_, first_le := ?_, room := ?_, numbered := ?_, pass := ?_, kick := ?_ }
  · show (s.head + 1) % dataCollectBufSize = (b.written + 1) % dataCollectBufSize
    rw [h.head_eq, Nat.mod_add_mod]
  · exact Nat.le_succ_of_le hfirst
  · show b.written + 1 + rest.length < first + dataCollectBufSize
    omega
  · intro n hn hn'
    have hle : n ≤ b.written := Nat.lt_succ_iff.mp hn'
    show update b.number s.head (some b.written) (n % dataCollectBufSize) = some n
    rw [h.head_eq]
    rcases Nat.eq_or_lt_of_le hle with rfl | hlt
    · rw [update_self]
    · have hother : n % dataCollectBufSize ≠ b.written % dataCollectBufSize := by
        have hne := mod_ne_mod_sub (m := b.written) (d := b.written - n) (n := dataCollectBufSize) (by omega) (by omega)
          (Nat.sub_le _ _)
        rw [Nat.sub_sub_self hle] at hne
        exact hne
      rw [update_of_ne hother]
      exact h.numbered n hn hlt
  · exact h.pass.mono (Nat.le_succ _) rfl
  · exact fun head hhead => (h.kick head hhead).mono (Nat.le_succ _)

/-- A head that is read now. -/
theorem RingInvariant.headRead (h : RingInvariant b s first) : HeadRead b first s.head b.written :=
  ⟨h.head_eq, h.first_le, le_rfl⟩

/-- A context reads the head to discard. -/
theorem RingInvariant.begun (h : RingInvariant b s first) {who : Discarder} {pass : TxPass} {kick : Option ℕ}
    (hidle : s.inFlight = 0)
    (hpass : PassKnows (b.record (.discardBegun who)) first pass)
    (hkick : ∀ head ∈ kick, HeadRead (b.record (.discardBegun who)) first head
      ((b.record (.discardBegun who)).begun .kick)) :
    RingInvariant (b.record (.discardBegun who)) { s with pass := pass, kick := kick } first := by
  refine { h with sent := ?_, pass := hpass, kick := hkick }
  intro n hn
  have hlt := h.sent n hn
  rw [hidle] at hlt
  exact Nat.lt_of_lt_of_le hlt (Nat.le_add_right _ _)

/-- What `dc_contiguous_len` returns is in the ring, and does not wrap. -/
theorem RingInvariant.contiguous (h : RingInvariant b s first) (hread : HeadRead b first head count) :
    first + dcContiguousLen head s.tail ≤ b.written ∧
      first % dataCollectBufSize + dcContiguousLen head s.tail ≤ dataCollectBufSize := by
  have hlap := h.lap
  have hcount := hread.le
  have hfirst := hread.first_le
  rw [hread.eq, h.tail_eq]
  unfold dcContiguousLen dataCollectBufSize at *
  split
  case isTrue => omega
  case isFalse =>
    split
    case isTrue => omega
    case isFalse => omega

/-- The driver takes the first bytes of the ring. -/
theorem RingInvariant.taken (h : RingInvariant b s first) {slot len sent : ℕ} {bytes : List (BitVec 8)}
    (hplace : s.pass = .filling slot len) (hsent : sent ≤ len) (hbytes : bytes.length = sent) :
    RingInvariant (b.record (.taken slot bytes)) { s with pass := .filled sent } first := by
  have hknows := h.pass
  rw [hplace] at hknows
  obtain ⟨rfl, hlen, hend⟩ := hknows
  have hidle : s.inFlight = 0 := by rw [CdcRing.inFlight, hplace]
  refine { h with sent := ?_, pass := ?_, kick := fun head hhead => (h.kick head hhead).mono le_rfl }
  · intro n hn
    rcases List.mem_append.mp hn with hold | hnew
    · have hlt := h.sent n hold
      rw [hidle] at hlt
      exact Nat.lt_of_lt_of_le hlt (Nat.le_add_right _ _)
    · obtain ⟨i, hi, hnumber⟩ := List.mem_filterMap.mp hnew
      rw [List.mem_range, hbytes] at hi
      have hslot : first % dataCollectBufSize + i = (first + i) % dataCollectBufSize := by
        unfold dataCollectBufSize at *
        omega
      rw [hslot, h.numbered (first + i) (Nat.le_add_right _ _) (by omega)] at hnumber
      obtain rfl := Option.some.inj hnumber
      exact Nat.add_lt_add_left hi first
  · exact Nat.le_trans (Nat.add_le_add_left hsent first) hlen

/-- Every step that keeps clear of the other contexts keeps the books in order. -/
theorem RingInvariant.step (h : RingInvariant b s first) (hclear : TailUndisturbed s op)
    (hstep : ringStep s op = some (s', es)) : ∃ first', RingInvariant (es.foldl RingBooks.record b) s' first' := by
  cases op with
  | init =>
    obtain ⟨rfl, rfl⟩ := Prod.mk.inj (Option.some.inj hstep)
    exact ⟨first, { h with }⟩
  | write data rssi rxTicks =>
    simp only [ringStep] at hstep
    split at hstep
    case h_1 hwriting =>
      split at hstep
      case isTrue =>
        split at hstep
        case isTrue =>
          obtain ⟨rfl, rfl⟩ := Prod.mk.inj (Option.some.inj hstep)
          exact ⟨first, h⟩
        case isFalse hfits =>
          obtain ⟨rfl, rfl⟩ := Prod.mk.inj (Option.some.inj hstep)
          refine ⟨first, { h with room := ?_ }⟩
          have hframe : (CdcPacket.frame ⟨data, rssi, rxTicks⟩).length = data.length + 9 := CdcPacket.frame_length _
          have hfirst := h.first_le
          rw [h.head_eq, h.tail_eq, usedBetween_mod hfirst h.lap] at hfits
          show b.written + _ < first + dataCollectBufSize
          rw [hframe]
          unfold dataCollectBufSize at *
          omega
      case isFalse =>
        obtain ⟨rfl, rfl⟩ := Prod.mk.inj (Option.some.inj hstep)
        exact ⟨first, h⟩
    case h_2 => cases hstep
  | put =>
    simp only [ringStep] at hstep
    split at hstep
    case h_1 => cases hstep
    case h_2 byte rest hwriting =>
      obtain ⟨rfl, rfl⟩ := Prod.mk.inj (Option.some.inj hstep)
      exact ⟨first, h.put hwriting⟩
  | enter hostOpen =>
    simp only [ringStep] at hstep
    split at hstep
    case h_1 hplace =>
      have hidle : s.inFlight = 0 := by rw [CdcRing.inFlight, hplace]
      split at hstep
      case isTrue =>
        obtain ⟨rfl, rfl⟩ := Prod.mk.inj (Option.some.inj hstep)
        exact ⟨first, h.place ⟨_, h.headRead⟩ hidle.symm⟩
      case isFalse =>
        obtain ⟨rfl, rfl⟩ := Prod.mk.inj (Option.some.inj hstep)
        exact ⟨first, h.begun hidle (h.headRead.mono le_rfl) fun head hhead => (h.kick head hhead).mono le_rfl⟩
    case h_2 => cases hstep
  | discard =>
    simp only [ringStep] at hstep
    split at hstep
    case h_1 head hplace =>
      obtain ⟨rfl, rfl⟩ := Prod.mk.inj (Option.some.inj hstep)
      have hread := h.pass
      rw [hplace] at hread
      have htarget : head ∈ s.tailTarget .discard := by
        simp only [CdcRing.tailTarget, hplace]
        rfl
      obtain ⟨hkick, -⟩ := hclear head htarget
      have hkick' := hkick (by decide)
      rw [hread.eq] at hkick'
      refine ⟨b.begun .callback, ?_⟩
      have hidle : s.inFlight = 0 := by rw [CdcRing.inFlight, hplace]
      have hretired := h.retire (max b.discarded (b.begun .callback)) .idle s.kick hread.first_le hread.le
        (Nat.max_le.mpr ⟨Nat.le_trans h.discarded hread.first_le, le_rfl⟩)
        (by rw [hidle]; exact hread.first_le) trivial (h.kick_retire hread.first_le hread.le hkick')
      rw [← hread.eq] at hretired
      exact hretired
    case h_2 => cases hstep
  | measure =>
    simp only [ringStep] at hstep
    split at hstep
    case h_1 head hplace =>
      have hidle : s.inFlight = 0 := by rw [CdcRing.inFlight, hplace]
      have hknows := h.pass
      rw [hplace] at hknows
      obtain ⟨count, hread⟩ := hknows
      split at hstep
      case isTrue =>
        obtain ⟨rfl, rfl⟩ := Prod.mk.inj (Option.some.inj hstep)
        exact ⟨first, h.place trivial hidle.symm⟩
      case isFalse =>
        obtain ⟨rfl, rfl⟩ := Prod.mk.inj (Option.some.inj hstep)
        exact ⟨first, h.place (h.contiguous hread) hidle.symm⟩
    case h_2 => cases hstep
  | startFill =>
    simp only [ringStep] at hstep
    split at hstep
    case h_1 len hplace =>
      have hidle : s.inFlight = 0 := by rw [CdcRing.inFlight, hplace]
      have hknows := h.pass
      rw [hplace] at hknows
      obtain ⟨rfl, rfl⟩ := Prod.mk.inj (Option.some.inj hstep)
      exact ⟨first, h.place ⟨h.tail_eq, hknows⟩ hidle.symm⟩
    case h_2 => cases hstep
  | endFill sent =>
    simp only [ringStep] at hstep
    split at hstep
    case h_1 slot len hplace =>
      have hidle : s.inFlight = 0 := by rw [CdcRing.inFlight, hplace]
      split at hstep
      case isTrue => cases hstep
      case isFalse hsent =>
        split at hstep
        case isTrue =>
          obtain ⟨rfl, rfl⟩ := Prod.mk.inj (Option.some.inj hstep)
          exact ⟨first, h.place trivial hidle.symm⟩
        case isFalse =>
          obtain ⟨rfl, rfl⟩ := Prod.mk.inj (Option.some.inj hstep)
          exact ⟨first, h.taken hplace (by omega) (by rw [List.length_map, List.length_range])⟩
    case h_2 => cases hstep
  | readTail =>
    simp only [ringStep] at hstep
    split at hstep
    case h_1 sent hplace =>
      have hknows := h.pass
      rw [hplace] at hknows
      have hflight : s.inFlight = sent := by rw [CdcRing.inFlight, hplace]
      obtain ⟨rfl, rfl⟩ := Prod.mk.inj (Option.some.inj hstep)
      exact ⟨first, h.place ⟨h.tail_eq, hknows⟩ hflight.symm⟩
    case h_2 => cases hstep
  | moveTail =>
    simp only [ringStep] at hstep
    split at hstep
    case h_1 tail sent hplace =>
      obtain ⟨rfl, rfl⟩ := Prod.mk.inj (Option.some.inj hstep)
      have hknows := h.pass
      rw [hplace] at hknows
      obtain ⟨rfl, hsent⟩ := hknows
      have hflight : s.inFlight = sent := by rw [CdcRing.inFlight, hplace]
      have htarget : (first % dataCollectBufSize + sent) % dataCollectBufSize ∈ s.tailTarget .moveTail := by
        simp only [CdcRing.tailTarget, hplace]
        rfl
      obtain ⟨hkick, -⟩ := hclear _ htarget
      have hkick' := hkick (by decide)
      rw [Nat.mod_add_mod] at hkick'
      have hretired := h.retire b.discarded .idle s.kick (Nat.le_add_right first sent) hsent
        (Nat.le_trans h.discarded (Nat.le_add_right _ _)) (by rw [hflight]; exact le_rfl) trivial
        (h.kick_retire (Nat.le_add_right _ _) hsent hkick')
      rw [← Nat.mod_add_mod] at hretired
      exact ⟨first + sent, hretired⟩
    case h_2 => cases hstep
  | kick hostOpen =>
    simp only [ringStep] at hstep
    split at hstep
    case h_1 =>
      split at hstep
      case isTrue =>
        obtain ⟨rfl, rfl⟩ := Prod.mk.inj (Option.some.inj hstep)
        exact ⟨first, h⟩
      case isFalse =>
        obtain ⟨rfl, rfl⟩ := Prod.mk.inj (Option.some.inj hstep)
        refine ⟨first, { h with pass := h.pass.mono le_rfl rfl, kick := ?_ }⟩
        intro head hhead
        obtain rfl := Option.some.inj hhead
        exact h.headRead.mono le_rfl
    case h_2 => cases hstep
  | kickDiscard =>
    simp only [ringStep] at hstep
    split at hstep
    case h_1 head hkick =>
      obtain ⟨rfl, rfl⟩ := Prod.mk.inj (Option.some.inj hstep)
      have hread := h.kick head hkick
      obtain ⟨-, hpass⟩ := hclear head hkick
      have hpass' := hpass (by decide) (by decide)
      rw [hread.eq] at hpass'
      refine ⟨b.begun .kick, ?_⟩
      have hretired := h.retire (max b.discarded (b.begun .kick)) s.pass none
        hread.first_le hread.le (Nat.max_le.mpr ⟨Nat.le_trans h.discarded hread.first_le, le_rfl⟩)
        (Nat.add_le_add_right hread.first_le _) (h.pass_retire hread.first_le hread.le hpass')
        (fun head hhead => (by cases hhead))
      rw [← hread.eq] at hretired
      exact hretired
    case h_2 => cases hstep
  | forgetTracker =>
    obtain ⟨rfl, rfl⟩ := Prod.mk.inj (Option.some.inj hstep)
    obtain ⟨hkick, hpass⟩ := hclear s.head rfl
    have hkick' := hkick (by decide)
    have hpass' := hpass (by decide) (by decide)
    rw [h.head_eq] at hkick' hpass'
    refine ⟨b.written, ?_⟩
    have hretired := h.retire (max b.discarded b.written) s.pass s.kick h.first_le le_rfl
      (Nat.max_le.mpr ⟨Nat.le_trans h.discarded h.first_le, le_rfl⟩) (Nat.add_le_add_right h.first_le _)
      (h.pass_retire h.first_le le_rfl hpass') (h.kick_retire h.first_le le_rfl hkick')
    rw [← h.head_eq] at hretired
    exact hretired

/-- Only `startFill` offers bytes, from the tail on. -/
theorem ringStep_offered {slot len : ℕ} (hstep : ringStep s op = some (s', es)) (he : .offered slot len ∈ es) :
    s.pass = .measured len ∧ es = [.offered slot len] ∧ slot = s.tail := by
  cases op with
  | startFill =>
    simp only [ringStep] at hstep
    split at hstep
    case h_1 len' hplace =>
      obtain ⟨rfl, rfl⟩ := Prod.mk.inj (Option.some.inj hstep)
      obtain ⟨rfl, rfl⟩ : slot = s.tail ∧ len = len' := by simpa using he
      exact ⟨hplace, rfl, rfl⟩
    case h_2 => cases hstep
  | init | write data rssi rxTicks | put | enter hostOpen | discard | measure | endFill sent | readTail | moveTail
  | kick hostOpen | kickDiscard | forgetTracker => grind [ringStep]

end Invariant

variable {trace : List RingEvent} {s : CdcRing} {first : ℕ}

theorem ringBooks_append (trace es : List RingEvent) :
    ringBooks (trace ++ es) = es.foldl RingBooks.record (ringBooks trace) := List.foldl_append

/-- What the driver is offered is in the ring. -/
theorem RingInvariant.offers (h : RingInvariant (ringBooks trace) s first) {len : ℕ} (hplace : s.pass = .measured len) :
    OffersQueued trace (.offered s.tail len) := by
  rintro slot len' ⟨⟩ i hi n hn
  have hknows := h.pass
  rw [hplace] at hknows
  obtain ⟨hlen, hend⟩ := hknows
  have hslot : s.tail + i = (first + i) % dataCollectBufSize := by
    rw [h.tail_eq]
    unfold dataCollectBufSize at *
    omega
  rw [hslot, h.numbered (first + i) (Nat.le_add_right _ _) (by omega)] at hn
  obtain rfl := Option.some.inj hn
  exact Nat.le_trans h.discarded (Nat.le_add_right _ _)

theorem ring_invariant (h : ringSystem.RunWhere TailUndisturbed trace s) :
    (∃ first, RingInvariant (ringBooks trace) s first) ∧ EachAfter OffersQueued trace := by
  induction h with
  | start =>
    refine ⟨⟨0, ?_⟩, eachAfter_nil⟩
    constructor
    · rfl
    · rfl
    · exact le_rfl
    · decide
    · exact fun n _ hn => absurd hn (Nat.not_lt_zero n)
    · exact fun n hn => absurd hn List.not_mem_nil
    · exact le_rfl
    · trivial
    · exact fun head hhead => (by cases hhead)
  | @snoc trace s op s' es _ hclear htaken ih =>
    obtain ⟨⟨first, hinv⟩, hoffers⟩ := ih
    rw [ringBooks_append]
    refine ⟨hinv.step hclear htaken, ?_⟩
    by_cases hoffer : ∃ slot len, RingEvent.offered slot len ∈ es
    · obtain ⟨slot, len, he⟩ := hoffer
      obtain ⟨hplace, rfl, rfl⟩ := ringStep_offered htaken he
      exact eachAfter_snoc.mpr ⟨hoffers, hinv.offers hplace⟩
    · refine hoffers.append fun earlier e he slot len hslot => ?_
      exact absurd ⟨slot, len, hslot ▸ he⟩ hoffer

/-- While no step moves the tail past what another context has read, the used region has only bytes that were written
and neither sent nor discarded, and the driver is never offered a byte that was queued before a discard. -/
theorem discard_final (h : ringSystem.RunWhere TailUndisturbed trace s) : DiscardFinal trace s := by
  obtain ⟨⟨first, hinv⟩, hoffers⟩ := ring_invariant h
  refine ⟨fun i hflight hi => ?_, hoffers⟩
  rw [hinv.head_eq, hinv.tail_eq, usedBetween_mod hinv.first_le hinv.lap] at hi
  refine ⟨first + i, ?_, fun hsent => ?_, Nat.le_trans hinv.discarded (Nat.le_add_right _ _)⟩
  · rw [hinv.tail_eq, Nat.mod_add_mod]
    exact hinv.numbered _ (Nat.le_add_right _ _) (by omega)
  · have hlt := hinv.sent _ hsent
    omega

/-- A tracker is forgotten while the kick is in a discard and the callback has the same head, and a frame written
meanwhile stays. -/
theorem discard_final_forgotten : ∃ trace s, ringSystem.RunWhere TailUndisturbed trace s ∧
    DiscardFinal trace s ∧ RingEvent.forgotten ∈ trace ∧ usedBetween s.head s.tail = 11 := by
  obtain ⟨trace, s, hrun, htest⟩ :=
    (ringSystem.restrict fun s op => decide (TailUndisturbed s op)).exists_run_of_replay
      ([RingOp.init, .write [1, 2] 3 4] ++ List.replicate 11 RingOp.put ++
        [RingOp.kick false, .enter true, .forgetTracker, .measure, .write [5, 6] 7 8] ++
        List.replicate 11 RingOp.put ++ [RingOp.kickDiscard])
      (fun trace s => decide (RingEvent.forgotten ∈ trace ∧ usedBetween s.head s.tail = 11)) (by decide +kernel)
  have hclear : ringSystem.RunWhere TailUndisturbed trace s :=
    EventSystem.runWhere_of_restrict (fun s op hallowed => of_decide_eq_true hallowed) hrun
  exact ⟨trace, s, hclear, discard_final hclear, of_decide_eq_true htest⟩

/-- A tracker is forgotten between the callback's reading of the tail and its writing it: bytes that were discarded are
in the used region again. -/
theorem discard_undone : ¬ ∀ trace s, ringSystem.Run trace s → DiscardFinal trace s := by
  intro hfinal
  obtain ⟨trace, s, hrun, htest⟩ :=
    ringSystem.exists_run_of_replay
      ([RingOp.init, .write [1, 2] 3 4] ++ List.replicate 11 RingOp.put ++
        [RingOp.enter true, .measure, .startFill, .endFill 5, .readTail, .forgetTracker, .moveTail])
      (fun trace s => decide (s.inFlight = 0 ∧ 0 < usedBetween s.head s.tail ∧
        (ringBooks trace).number ((s.tail + 0) % dataCollectBufSize) = some 5 ∧ (ringBooks trace).discarded = 11))
      (by decide +kernel)
  obtain ⟨hflight, hused, hnumber, hdiscarded⟩ := of_decide_eq_true htest
  obtain ⟨n, hn, -, hle⟩ := (hfinal trace s hrun).used 0 (Nat.le_of_eq hflight) hused
  rw [hnumber] at hn
  obtain rfl := Option.some.inj hn
  rw [hdiscarded] at hle
  exact absurd hle (by decide)

/-! ## The coarser steps -/

/-- The place of the callback, between two steps of `cdcStep`. -/
def refinePass : TxCallback → TxPass
  | .idle => .idle
  | .discarding head => .discarding head
  | .loaded head => .loaded head
  | .filled sent => .filled sent

/-- A state of `cdcStep`. -/
def refineRing (s : CdcCollect) : CdcRing :=
  ⟨s.cdcReady, s.dcBuf, s.head, s.tail, [], refinePass s.callback, s.kick⟩

/-- The bytes the driver took, in order. -/
def takenBytes (trace : List RingEvent) : List (BitVec 8) :=
  trace.flatMap fun e => match e with
    | .taken _ bytes => bytes
    | _ => []

/-- A frame is put byte by byte. -/
theorem exec_put (s : CdcCollect) (bytes : List (BitVec 8)) :
    ∃ es, ringSystem.exec { refineRing s with writing := bytes } (List.replicate bytes.length RingOp.put) =
      some (refineRing (bytes.foldl bufPut s), es) ∧ takenBytes es = [] := by
  induction bytes generalizing s with
  | nil => exact ⟨[], rfl, rfl⟩
  | cons byte rest ih =>
    obtain ⟨es, hrest, hes⟩ := ih (bufPut s byte)
    have hput : ringSystem.step { refineRing s with writing := byte :: rest } RingOp.put =
        some ({ refineRing (bufPut s byte) with writing := rest }, [RingEvent.put s.head byte]) := rfl
    exact ⟨_, EventSystem.exec_cons hput hrest, hes⟩

/-- A step of `cdcStep` is made of these steps, and the driver takes the same bytes, where a kick does not come while
the last one discards. -/
theorem refineStep {s s' : CdcCollect} {op : CdcOp} {es : List CdcEvent} (hstep : cdcStep s op = some (s', es))
    (hkick : s.kick = none ∨ ∀ hostOpen, op ≠ .kick hostOpen) :
    ∃ ops es', ringSystem.exec (refineRing s) ops = some (refineRing s', es') ∧ takenBytes es' = handedBytes es := by
  cases op with
  | init =>
    obtain ⟨rfl, rfl⟩ := Prod.mk.inj (Option.some.inj hstep)
    exact ⟨[.init], [], rfl, rfl⟩
  | write data rssi rxTicks =>
    have hwrite : dataCollectWrite s ⟨data, rssi, rxTicks⟩ = (s', es) := Option.some.inj hstep
    have hfirst : ringSystem.step (refineRing s) (.write data rssi rxTicks) =
        if s.cdcReady then
          if bufFree s < 2 + 1 + data.length + 1 + 4 + 1 then some (refineRing s, [RingEvent.dropped])
          else some ({ refineRing s with writing := CdcPacket.frame ⟨data, rssi, rxTicks⟩ }, [])
        else some (refineRing s, []) := rfl
    unfold dataCollectWrite at hwrite
    split at hwrite
    case isTrue hready =>
      rw [if_pos hready] at hfirst
      dsimp only at hwrite
      split at hwrite
      case isTrue hfull =>
        obtain ⟨rfl, rfl⟩ := Prod.mk.inj hwrite
        rw [if_pos hfull] at hfirst
        exact ⟨[.write data rssi rxTicks], _, EventSystem.exec_cons hfirst rfl, rfl⟩
      case isFalse hfits =>
        obtain ⟨rfl, rfl⟩ := Prod.mk.inj hwrite
        rw [if_neg hfits] at hfirst
        obtain ⟨es', hputs, htaken⟩ := exec_put s (CdcPacket.frame ⟨data, rssi, rxTicks⟩)
        exact ⟨_, _, EventSystem.exec_cons hfirst hputs, htaken⟩
    case isFalse hready =>
      obtain ⟨rfl, rfl⟩ := Prod.mk.inj hwrite
      rw [if_neg hready] at hfirst
      exact ⟨[.write data rssi rxTicks], _, EventSystem.exec_cons hfirst rfl, rfl⟩
  | enter hostOpen =>
    simp only [cdcStep] at hstep
    split at hstep
    case h_1 hplace =>
      refine ⟨[.enter hostOpen], ?_⟩
      split at hstep
      case isTrue hopen =>
        obtain ⟨rfl, rfl⟩ := Prod.mk.inj (Option.some.inj hstep)
        subst hopen
        exact ⟨[], by simp [EventSystem.exec, ringSystem, ringStep, refineRing, refinePass, hplace], rfl⟩
      case isFalse hclosed =>
        obtain ⟨rfl, rfl⟩ := Prod.mk.inj (Option.some.inj hstep)
        obtain rfl := Bool.eq_false_of_not_eq_true hclosed
        exact ⟨[.discardBegun .callback],
          by simp [EventSystem.exec, ringSystem, ringStep, refineRing, refinePass, hplace], rfl⟩
    case h_2 => cases hstep
  | discard =>
    simp only [cdcStep] at hstep
    split at hstep
    case h_1 head hplace =>
      obtain ⟨rfl, rfl⟩ := Prod.mk.inj (Option.some.inj hstep)
      exact ⟨[.discard], [.discarded .callback],
        by simp [EventSystem.exec, ringSystem, ringStep, refineRing, refinePass, hplace], rfl⟩
    case h_2 => cases hstep
  | fill sent =>
    simp only [cdcStep] at hstep
    split at hstep
    case h_1 head hplace =>
      split at hstep
      case isTrue hempty =>
        obtain ⟨rfl, rfl⟩ := Prod.mk.inj (Option.some.inj hstep)
        exact ⟨[.measure], [],
          by simp [EventSystem.exec, ringSystem, ringStep, refineRing, refinePass, hplace, hempty], rfl⟩
      case isFalse hsome =>
        split at hstep
        case isTrue => cases hstep
        case isFalse hsent =>
          split at hstep
          case isTrue hzero =>
            obtain ⟨rfl, rfl⟩ := Prod.mk.inj (Option.some.inj hstep)
            exact ⟨[.measure, .startFill, .endFill sent], [.offered s.tail (dcContiguousLen head s.tail)],
              by simp [EventSystem.exec, ringSystem, ringStep, refineRing, refinePass, hplace, hsome, hzero], rfl⟩
          case isFalse hpos =>
            obtain ⟨rfl, rfl⟩ := Prod.mk.inj (Option.some.inj hstep)
            exact ⟨[.measure, .startFill, .endFill sent], [.offered s.tail (dcContiguousLen head s.tail),
                .taken s.tail ((List.range sent).map fun i => s.dcBuf (s.tail + i))],
              by simp [EventSystem.exec, ringSystem, ringStep, refineRing, refinePass, hplace, hsome, hsent, hpos], rfl⟩
    case h_2 => cases hstep
  | advance =>
    simp only [cdcStep] at hstep
    split at hstep
    case h_1 sent hplace =>
      obtain ⟨rfl, rfl⟩ := Prod.mk.inj (Option.some.inj hstep)
      exact ⟨[.readTail, .moveTail], [],
        by simp [EventSystem.exec, ringSystem, ringStep, refineRing, refinePass, hplace], rfl⟩
    case h_2 => cases hstep
  | kick hostOpen =>
    have hfree : s.kick = none := hkick.resolve_right fun hother => hother hostOpen rfl
    simp only [cdcStep] at hstep
    refine ⟨[.kick hostOpen], ?_⟩
    split at hstep
    case isTrue hopen =>
      obtain ⟨rfl, rfl⟩ := Prod.mk.inj (Option.some.inj hstep)
      subst hopen
      exact ⟨[], by simp [EventSystem.exec, ringSystem, ringStep, refineRing, hfree], rfl⟩
    case isFalse hclosed =>
      obtain ⟨rfl, rfl⟩ := Prod.mk.inj (Option.some.inj hstep)
      obtain rfl := Bool.eq_false_of_not_eq_true hclosed
      exact ⟨[.discardBegun .kick], by simp [EventSystem.exec, ringSystem, ringStep, refineRing, hfree], rfl⟩
  | kickDiscard =>
    simp only [cdcStep] at hstep
    split at hstep
    case h_1 head hhead =>
      obtain ⟨rfl, rfl⟩ := Prod.mk.inj (Option.some.inj hstep)
      exact ⟨[.kickDiscard], [.discarded .kick],
        by simp [EventSystem.exec, ringSystem, ringStep, refineRing, hhead], rfl⟩
    case h_2 => cases hstep
  | forgetTracker =>
    obtain ⟨rfl, rfl⟩ := Prod.mk.inj (Option.some.inj hstep)
    exact ⟨[.forgetTracker], [.forgotten], rfl, rfl⟩

end Collect

end SlimeReceiver
