import SlimeReceiver.Collect.CdcFrames
import SlimeReceiver.Library.EventSystem
import SlimeReceiver.Library.RingQueue

/-! # The capture stream

`data_collect.c`: frames are put into a ring by the radio interrupt and handed to the USB driver by its transmit
callback. A write is one step; the callback and the kick take one step for every access to an index that another
context may move.

* **`CdcCollect`**, **`cdcStep`**, **`cdcSystem`** — the ring and where its users are.
* **`CaptureStep`** — the host keeps the port open and no tracker is forgotten.
* **`cdc_stream`** — what is handed over and what the host makes of it. -/

namespace SlimeReceiver

open Function (update)

namespace Collect

/-! ## The code -/

/-- `DATA_COLLECT_BUF_SIZE`. -/
def dataCollectBufSize : ℕ := 16384

/-- Where `dc_uart_irq_callback` is in a pass of its loop. -/
inductive TxCallback
  | idle
  /-- In `dc_discard_buffer`, with the head it read. -/
  | discarding (head : ℕ)
  /-- In `dc_contiguous_len`, with the head it read. -/
  | loaded (head : ℕ)
  /-- `uart_fifo_fill` accepted so many bytes; the tail is not yet moved. -/
  | filled (sent : ℕ)
  deriving DecidableEq

/-- The static variables, with the places of the callback and of the kick, which has read a head to discard. -/
structure CdcCollect where
  cdcReady : Bool
  dcBuf : ℕ → BitVec 8
  head : ℕ
  tail : ℕ
  callback : TxCallback
  kick : Option ℕ

/-- `buf_used`. -/
def bufUsed (s : CdcCollect) : ℕ :=
  let diff : ℤ := s.head - s.tail
  (if diff < 0 then diff + dataCollectBufSize else diff).toNat

/-- `buf_free`. -/
def bufFree (s : CdcCollect) : ℕ := dataCollectBufSize - 1 - bufUsed s

/-- `buf_put`. -/
def bufPut (s : CdcCollect) (byte : BitVec 8) : CdcCollect :=
  { s with dcBuf := update s.dcBuf s.head byte, head := (s.head + 1) % dataCollectBufSize }

/-- `dc_contiguous_len`. -/
def dcContiguousLen (head tail : ℕ) : ℕ :=
  if tail = head then 0
  else if tail < head then head - tail
  else dataCollectBufSize - tail

/-- The steps. -/
inductive CdcOp
  /-- `data_collect_init`. -/
  | init
  | write (data : List (BitVec 8)) (rssi : BitVec 8) (rxTicks : BitVec 32)
  /-- The callback is called, or loops, and finds the port open or closed. -/
  | enter (hostOpen : Bool)
  | discard
  | fill (sent : ℕ)
  | advance
  | kick (hostOpen : Bool)
  | kickDiscard
  | forgetTracker

/-- The visible events. -/
inductive CdcEvent
  | accepted (packet : CdcPacket)
  | dropped
  /-- The driver took these bytes. -/
  | handed (bytes : List (BitVec 8))
  | discarded
  deriving DecidableEq

/-- `data_collect_write`. -/
def dataCollectWrite (s : CdcCollect) (packet : CdcPacket) : CdcCollect × List CdcEvent :=
  if s.cdcReady then
    let frameSize := 2 + 1 + packet.payload.length + 1 + 4 + 1
    if bufFree s < frameSize then (s, [.dropped])
    else (packet.frame.foldl bufPut s, [.accepted packet])
  else (s, [])

/-- One step. -/
def cdcStep (s : CdcCollect) : CdcOp → Option (CdcCollect × List CdcEvent)
  | .init => some ({ s with cdcReady := true }, [])
  | .write data rssi rxTicks => some (dataCollectWrite s ⟨data, rssi, rxTicks⟩)
  | .enter hostOpen =>
    match s.callback with
    | .idle =>
      if hostOpen then some ({ s with callback := .loaded s.head }, [])
      else some ({ s with callback := .discarding s.head }, [])
    | _ => none
  | .discard =>
    match s.callback with
    | .discarding head => some ({ s with tail := head, callback := .idle }, [.discarded])
    | _ => none
  | .fill sent =>
    match s.callback with
    | .loaded head =>
      let len := dcContiguousLen head s.tail
      if len = 0 then some ({ s with callback := .idle }, [])
      -- the driver takes no more than it is offered
      else if len < sent then none
      else if sent = 0 then some ({ s with callback := .idle }, [])
      else some ({ s with callback := .filled sent },
        [.handed ((List.range sent).map fun i => s.dcBuf (s.tail + i))])
    | _ => none
  | .advance =>
    match s.callback with
    | .filled sent => some ({ s with tail := (s.tail + sent) % dataCollectBufSize, callback := .idle }, [])
    | _ => none
  | .kick hostOpen => if hostOpen then some (s, []) else some ({ s with kick := some s.head }, [])
  | .kickDiscard =>
    match s.kick with
    | some head => some ({ s with tail := head, kick := none }, [.discarded])
    | none => none
  | .forgetTracker => some ({ s with tail := s.head }, [.discarded])

/-- The module before its initialization. -/
def cdcSystem : EventSystem CdcCollect CdcOp CdcEvent where
  init := ⟨false, fun _ => 0, 0, 0, .idle, none⟩
  step := cdcStep

/-! ## Histories -/

/-- The packets whose frames were accepted, in order. -/
def acceptedPackets (trace : List CdcEvent) : List CdcPacket :=
  trace.filterMap fun e => match e with
    | .accepted packet => some packet
    | _ => none

/-- The bytes the driver took, in order. -/
def handedBytes (trace : List CdcEvent) : List (BitVec 8) :=
  trace.flatMap fun e => match e with
    | .handed bytes => bytes
    | _ => []

/-- The ring is empty and nobody is in the middle of something. -/
structure Quiescent (s : CdcCollect) : Prop where
  empty : s.tail = s.head
  inside : s.head < dataCollectBufSize
  callback : s.callback = .idle
  kick : s.kick = none

/-- A payload has 2 to 250 bytes, the port is found open, and no tracker is forgotten. -/
def CaptureStep (_ : CdcCollect) : CdcOp → Prop
  | .write data _ _ => 2 ≤ data.length ∧ data.length ≤ 250
  | .enter hostOpen | .kick hostOpen => hostOpen = true
  | .forgetTracker => False
  | _ => True

instance (s : CdcCollect) (op : CdcOp) : Decidable (CaptureStep s op) := by
  unfold CaptureStep
  split <;> infer_instance

/-- The bytes in the ring, oldest first. -/
def CdcCollect.contents (s : CdcCollect) : List (BitVec 8) :=
  (List.range (bufUsed s)).map fun i => s.dcBuf ((s.tail + i) % dataCollectBufSize)

/-- The bytes the driver took from the ring, with the tail not yet moved. -/
def CdcCollect.inFlight (s : CdcCollect) : ℕ :=
  match s.callback with
  | .filled sent => sent
  | _ => 0

/-- The bytes accepted that the driver has not taken. -/
def CdcCollect.unsent (s : CdcCollect) : List (BitVec 8) := s.contents.drop s.inFlight

/-! ## The ring -/

section Ring

variable {s s' : CdcCollect} {items bytes : List (BitVec 8)} {head k : ℕ}

/-- The ring holds these bytes. -/
abbrev Holds (s : CdcCollect) (items : List (BitVec 8)) : Prop :=
  Queued dataCollectBufSize s.dcBuf s.tail s.head items

theorem Holds.used (h : Holds s items) : bufUsed s = items.length := by
  have hroom := h.room
  have htail := h.read_lt
  have hhead := h.write_eq
  unfold bufUsed dataCollectBufSize at *
  dsimp only
  split
  case isTrue => omega
  case isFalse => omega

theorem Holds.contents_eq (h : Holds s items) : s.contents = items := by
  refine List.ext_getElem (by rw [CdcCollect.contents, List.length_map, List.length_range, h.used]) fun i hi hi' => ?_
  have hslot := h.slot_eq i hi'
  rw [List.get_eq_getElem] at hslot
  show ((List.range (bufUsed s)).map fun i => s.dcBuf ((s.tail + i) % dataCollectBufSize)).get ⟨i, hi⟩ = _
  rw [List.get_eq_getElem, List.getElem_map, List.getElem_range, hslot]

/-- A byte is put. -/
theorem Holds.put (h : Holds s items) (hroom : items.length + 1 < dataCollectBufSize) (byte : BitVec 8) :
    Holds (bufPut s byte) (items ++ [byte]) := by
  have hpush := h.push (h.next_ne_read hroom) byte
  rw [ringNext_eq_mod h.write_lt] at hpush
  exact hpush

/-- The bytes of a frame are put one after the other. -/
theorem Holds.putAll (h : Holds s items) (hroom : items.length + bytes.length < dataCollectBufSize) :
    Holds (bytes.foldl bufPut s) (items ++ bytes) := by
  induction bytes generalizing s items with
  | nil => simpa using h
  | cons byte bytes ih =>
    rw [List.length_cons] at hroom
    have hrest := ih (h.put (by omega) byte) (by rw [List.length_append, List.length_singleton]; omega)
    rw [List.append_assoc] at hrest
    exact hrest

/-- Putting bytes moves nothing but the head. -/
theorem foldl_bufPut_frame (s : CdcCollect) (bytes : List (BitVec 8)) :
    (bytes.foldl bufPut s).tail = s.tail ∧ (bytes.foldl bufPut s).callback = s.callback ∧
      (bytes.foldl bufPut s).kick = s.kick := by
  induction bytes generalizing s with
  | nil => exact ⟨rfl, rfl, rfl⟩
  | cons byte bytes ih => exact ih (bufPut s byte)

/-- Up to a head that was read some time ago, the bytes that are offered are in the ring and do not wrap. -/
theorem dcContiguousLen_le (htail : s.tail < dataCollectBufSize) (hk : k < dataCollectBufSize)
    (hhead : head = (s.tail + k) % dataCollectBufSize) :
    dcContiguousLen head s.tail ≤ k ∧ s.tail + dcContiguousLen head s.tail ≤ dataCollectBufSize := by
  unfold dcContiguousLen dataCollectBufSize at *
  split
  case isTrue => omega
  case isFalse =>
    split
    case isTrue => omega
    case isFalse => omega

end Ring

/-! ## The invariant -/

/-- What the callback knows of the bytes in the ring. -/
def CallbackOk (tail : ℕ) (items : List (BitVec 8)) : TxCallback → Prop
  | .idle => True
  | .discarding _ => False
  | .loaded head => ∃ k, k ≤ items.length ∧ head = (tail + k) % dataCollectBufSize
  | .filled sent => sent ≤ items.length

/-- What was taken and what is in the ring are the frames accepted. -/
structure StreamInvariant (trace : List CdcEvent) (s : CdcCollect) (items : List (BitVec 8)) : Prop where
  holds : Holds s items
  stream : handedBytes trace ++ items.drop s.inFlight = (acceptedPackets trace).flatMap CdcPacket.frame
  callback : CallbackOk s.tail items s.callback
  kick : s.kick = none
  sized : ∀ p ∈ acceptedPackets trace, p.Sized

section Steps

variable {trace : List CdcEvent} {s s' : CdcCollect} {items : List (BitVec 8)} {es : List CdcEvent} {packet : CdcPacket}

theorem acceptedPackets_append (trace es : List CdcEvent) :
    acceptedPackets (trace ++ es) = acceptedPackets trace ++ acceptedPackets es := List.filterMap_append

theorem handedBytes_append (trace es : List CdcEvent) :
    handedBytes (trace ++ es) = handedBytes trace ++ handedBytes es := List.flatMap_append

theorem Quiescent.invariant (h : Quiescent s) : StreamInvariant [] s [] where
  holds := by
    show Queued _ _ s.tail s.head []
    rw [h.empty]
    exact .nil h.inside
  stream := by rw [List.drop_nil]; rfl
  callback := by rw [h.callback]; trivial
  kick := h.kick
  sized := fun _ hp => (by cases hp)

/-- A write whose frame fits puts all of it, any other puts nothing. -/
theorem dataCollectWrite_cases (h : Holds s items) (packet : CdcPacket) :
    (s.cdcReady = true ∧ items.length + packet.frame.length < dataCollectBufSize ∧
      dataCollectWrite s packet = (packet.frame.foldl bufPut s, [.accepted packet])) ∨
    ((s.cdcReady = false ∨ dataCollectBufSize ≤ items.length + packet.frame.length) ∧
      ∃ es, dataCollectWrite s packet = (s, es) ∧ acceptedPackets es = [] ∧ handedBytes es = []) := by
  have hlength := packet.frame_length
  have hroom := h.room
  unfold dataCollectWrite
  cases s.cdcReady with
  | false => exact .inr ⟨.inl rfl, [], rfl, rfl, rfl⟩
  | true =>
    rw [if_pos rfl, bufFree, h.used]
    dsimp only
    split
    case isTrue hfull => exact .inr ⟨.inr (by omega), [.dropped], rfl, rfl, rfl⟩
    case isFalse hfits => exact .inl ⟨rfl, by omega, rfl⟩

/-- The frame of a write joins the stream. -/
theorem StreamInvariant.write (h : StreamInvariant trace s items) (hsized : packet.Sized)
    (hfits : items.length + packet.frame.length < dataCollectBufSize) :
    StreamInvariant (trace ++ [CdcEvent.accepted packet]) (packet.frame.foldl bufPut s) (items ++ packet.frame) := by
  obtain ⟨htail, hcallback, hkick⟩ := foldl_bufPut_frame s packet.frame
  have hok := h.callback
  have hinFlight : (packet.frame.foldl bufPut s).inFlight = s.inFlight := by
    rw [CdcCollect.inFlight, hcallback]
    rfl
  have htaken : s.inFlight ≤ items.length := by
    unfold CdcCollect.inFlight
    cases hplace : s.callback with
    | filled sent =>
      rw [hplace] at hok
      exact hok
    | idle | discarding _ | loaded _ => exact Nat.zero_le _
  have haccepted : acceptedPackets (trace ++ [CdcEvent.accepted packet]) = acceptedPackets trace ++ [packet] :=
    acceptedPackets_append _ _
  constructor
  · exact h.holds.putAll hfits
  · have hhanded : handedBytes (trace ++ [CdcEvent.accepted packet]) = handedBytes trace :=
      (handedBytes_append _ _).trans (List.append_nil _)
    rw [hinFlight, haccepted, hhanded, List.drop_append_of_le_length htaken, ← List.append_assoc, h.stream,
      List.flatMap_append, List.flatMap_singleton]
  · have hlonger : items.length ≤ (items ++ packet.frame).length := (List.prefix_append _ _).length_le
    rw [htail, hcallback]
    cases hplace : s.callback with
    | idle => trivial
    | discarding head =>
      rw [hplace] at hok
      exact hok
    | loaded head =>
      rw [hplace] at hok
      obtain ⟨k, hk, hhead⟩ := hok
      exact ⟨k, hk.trans hlonger, hhead⟩
    | filled sent =>
      rw [hplace] at hok
      exact Nat.le_trans hok hlonger
  · exact hkick.trans h.kick
  · rw [haccepted]
    intro p hp
    rcases List.mem_append.mp hp with hold | hnew
    · exact h.sized p hold
    · rw [List.mem_singleton.mp hnew]
      exact hsized

/-- Events that neither accept nor hand over anything. -/
theorem StreamInvariant.silent (h : StreamInvariant trace s items)
    (hes : acceptedPackets es = [] ∧ handedBytes es = []) : StreamInvariant (trace ++ es) s items := by
  have haccepted : acceptedPackets (trace ++ es) = acceptedPackets trace := by
    rw [acceptedPackets_append, hes.1, List.append_nil]
  have hhanded : handedBytes (trace ++ es) = handedBytes trace := by
    rw [handedBytes_append, hes.2, List.append_nil]
  exact ⟨h.holds, by rw [haccepted, hhanded]; exact h.stream, h.callback, h.kick, by rw [haccepted]; exact h.sized⟩

/-- The callback moves without bytes. -/
theorem StreamInvariant.move (h : StreamInvariant trace s items) {place : TxCallback} (hidle : s.inFlight = 0)
    (hplace : ({ s with callback := place } : CdcCollect).inFlight = 0) (hok : CallbackOk s.tail items place) :
    StreamInvariant (trace ++ []) { s with callback := place } items := by
  have hstream := h.stream
  rw [hidle] at hstream
  rw [List.append_nil]
  exact ⟨h.holds, by rw [hplace]; exact hstream, hok, h.kick, h.sized⟩

/-- The driver takes the oldest bytes. -/
theorem StreamInvariant.fill (h : StreamInvariant trace s items) {head sent : ℕ} (hplace : s.callback = .loaded head)
    (hsent : sent ≤ dcContiguousLen head s.tail) :
    StreamInvariant (trace ++ [CdcEvent.handed ((List.range sent).map fun i => s.dcBuf (s.tail + i))])
      { s with callback := .filled sent } items := by
  have hok := h.callback
  rw [hplace] at hok
  obtain ⟨k, hk, hhead⟩ := hok
  obtain ⟨hlen, hend⟩ := dcContiguousLen_le h.holds.read_lt (Nat.lt_of_le_of_lt hk h.holds.room) hhead
  have hin : sent ≤ items.length := by omega
  have hbytes := h.holds.contiguous hin (by omega)
  have haccepted : acceptedPackets (trace ++ [CdcEvent.handed ((List.range sent).map fun i => s.dcBuf (s.tail + i))]) =
      acceptedPackets trace := (acceptedPackets_append _ _).trans (List.append_nil _)
  have hstream := h.stream
  rw [show s.inFlight = 0 by rw [CdcCollect.inFlight, hplace], List.drop_zero] at hstream
  constructor
  · exact h.holds
  · rw [haccepted, handedBytes_append, ← hstream, List.append_assoc]
    refine congrArg (handedBytes trace ++ ·) ?_
    show ((List.range sent).map fun i => s.dcBuf (s.tail + i)) ++ [] ++ items.drop sent = items
    rw [List.append_nil, hbytes, List.take_append_drop]
  · exact hin
  · exact h.kick
  · rw [haccepted]
    exact h.sized

/-- The tail is moved past the bytes taken. -/
theorem StreamInvariant.advance (h : StreamInvariant trace s items) {sent : ℕ} (hplace : s.callback = .filled sent) :
    StreamInvariant (trace ++ []) { s with tail := (s.tail + sent) % dataCollectBufSize, callback := .idle }
      (items.drop sent) := by
  have hok := h.callback
  rw [hplace] at hok
  have hstream := h.stream
  rw [show s.inFlight = sent by rw [CdcCollect.inFlight, hplace]] at hstream
  rw [List.append_nil]
  exact ⟨h.holds.drop hok, hstream, trivial, h.kick, h.sized⟩

/-- Every step of the capture keeps the stream. -/
theorem StreamInvariant.step (h : StreamInvariant trace s items) {op : CdcOp} (hop : CaptureStep s op)
    (hstep : cdcStep s op = some (s', es)) : ∃ items', StreamInvariant (trace ++ es) s' items' := by
  cases op with
  | init =>
    obtain ⟨rfl, rfl⟩ := Prod.mk.inj (Option.some.inj hstep)
    rw [List.append_nil]
    exact ⟨items, h.holds, h.stream, h.callback, h.kick, h.sized⟩
  | write data rssi rxTicks =>
    have hwrite : dataCollectWrite s ⟨data, rssi, rxTicks⟩ = (s', es) := Option.some.inj hstep
    rcases dataCollectWrite_cases h.holds ⟨data, rssi, rxTicks⟩ with ⟨-, hfits, heq⟩ | ⟨-, es', heq, hes⟩
    · obtain ⟨rfl, rfl⟩ := Prod.mk.inj (heq.symm.trans hwrite)
      exact ⟨_, h.write hop hfits⟩
    · obtain ⟨rfl, rfl⟩ := Prod.mk.inj (heq.symm.trans hwrite)
      exact ⟨items, h.silent hes⟩
  | enter hostOpen =>
    obtain rfl : hostOpen = true := hop
    simp only [cdcStep] at hstep
    split at hstep
    case h_1 hplace =>
      obtain ⟨rfl, rfl⟩ := Prod.mk.inj (Option.some.inj hstep)
      refine ⟨items, h.move (by rw [CdcCollect.inFlight, hplace]) rfl ?_⟩
      exact ⟨items.length, le_rfl, h.holds.write_eq⟩
    case h_2 => cases hstep
  | discard =>
    simp only [cdcStep] at hstep
    split at hstep
    case h_1 head hplace =>
      have hok := h.callback
      rw [hplace] at hok
      exact hok.elim
    case h_2 => cases hstep
  | fill sent =>
    simp only [cdcStep] at hstep
    split at hstep
    case h_1 head hplace =>
      have hidle : s.inFlight = 0 := by rw [CdcCollect.inFlight, hplace]
      split at hstep
      case isTrue =>
        obtain ⟨rfl, rfl⟩ := Prod.mk.inj (Option.some.inj hstep)
        exact ⟨items, h.move hidle rfl trivial⟩
      case isFalse =>
        split at hstep
        case isTrue => cases hstep
        case isFalse hsent =>
          split at hstep
          case isTrue =>
            obtain ⟨rfl, rfl⟩ := Prod.mk.inj (Option.some.inj hstep)
            exact ⟨items, h.move hidle rfl trivial⟩
          case isFalse =>
            obtain ⟨rfl, rfl⟩ := Prod.mk.inj (Option.some.inj hstep)
            exact ⟨items, h.fill hplace (by omega)⟩
    case h_2 => cases hstep
  | advance =>
    simp only [cdcStep] at hstep
    split at hstep
    case h_1 sent hplace =>
      obtain ⟨rfl, rfl⟩ := Prod.mk.inj (Option.some.inj hstep)
      exact ⟨_, h.advance hplace⟩
    case h_2 => cases hstep
  | kick hostOpen =>
    obtain rfl : hostOpen = true := hop
    obtain ⟨rfl, rfl⟩ := Prod.mk.inj (Option.some.inj hstep)
    rw [List.append_nil]
    exact ⟨items, h⟩
  | kickDiscard =>
    simp only [cdcStep] at hstep
    split at hstep
    case h_1 head hkick =>
      rw [h.kick] at hkick
      cases hkick
    case h_2 => cases hstep
  | forgetTracker => exact hop.elim

end Steps

variable {s₀ s : CdcCollect} {trace : List CdcEvent}

theorem stream_invariant (hquiet : Quiescent s₀) (h : (cdcSystem.startingAt s₀).RunWhere CaptureStep trace s) :
    ∃ items, StreamInvariant trace s items := by
  induction h with
  | start => exact ⟨[], hquiet.invariant⟩
  | snoc _ hop htaken ih =>
    obtain ⟨items, hinv⟩ := ih
    exact hinv.step hop htaken

/-- While the host keeps the port open, a write puts its whole frame into the ring or nothing, the driver takes the
frames accepted in their order, and however the host cuts what it reads, it finds the packets whose frames lie within
it. -/
theorem cdc_stream (hquiet : Quiescent s₀) (h : (cdcSystem.startingAt s₀).RunWhere CaptureStep trace s) :
    (∀ packet : CdcPacket,
      (s.cdcReady = true ∧ s.contents.length + packet.frame.length < dataCollectBufSize ∧
        (dataCollectWrite s packet).1.contents = s.contents ++ packet.frame ∧
        acceptedPackets (dataCollectWrite s packet).2 = [packet]) ∨
      ((s.cdcReady = false ∨ dataCollectBufSize ≤ s.contents.length + packet.frame.length) ∧
        (dataCollectWrite s packet).1 = s ∧ acceptedPackets (dataCollectWrite s packet).2 = [])) ∧
    handedBytes trace ++ s.unsent = (acceptedPackets trace).flatMap CdcPacket.frame ∧
    ∀ (yieldIdle : Bool) (reads : List (List (BitVec 8))), reads.flatten <+: handedBytes trace →
      (readFrames yieldIdle [] reads).filterMap id =
        wholeIn CdcPacket.frame (acceptedPackets trace) reads.flatten.length ∧
      (reads.flatten = handedBytes trace → s.unsent = [] →
        (readFrames yieldIdle [] reads).filterMap id = acceptedPackets trace) := by
  obtain ⟨items, hinv⟩ := stream_invariant hquiet h
  have hcontents := hinv.holds.contents_eq
  have hstream : handedBytes trace ++ s.unsent = (acceptedPackets trace).flatMap CdcPacket.frame := by
    rw [CdcCollect.unsent, hcontents]
    exact hinv.stream
  refine ⟨fun packet => ?_, hstream, fun yieldIdle reads hreads => ?_⟩
  · rw [hcontents]
    rcases dataCollectWrite_cases hinv.holds packet with ⟨hready, hfits, heq⟩ | ⟨hfull, es, heq, hes, -⟩
    · rw [heq]
      exact .inl ⟨hready, hfits, (hinv.holds.putAll hfits).contents_eq, rfl⟩
    · rw [heq]
      exact .inr ⟨hfull, rfl, hes⟩
  · have hfound := readFrames_eq hinv.sized (hreads.trans (hstream ▸ List.prefix_append _ _)) yieldIdle
    refine ⟨hfound, fun hall hdrained => hfound.trans (wholeIn_of_length_le ?_)⟩
    rw [hall, ← hstream, hdrained, List.append_nil]

/-- Two frames, the second of which holds the sync bytes, are taken in two pieces and read byte by byte. -/
theorem cdc_stream_two : ∃ trace s, (cdcSystem.startingAt cdcSystem.init).RunWhere CaptureStep trace s ∧
    acceptedPackets trace = [⟨[1, 2], 3, 4⟩, ⟨[0xAA, 0x55, 7], 8, 9⟩] ∧
      (readFrames true [] ((handedBytes trace).map fun byte => [byte])).filterMap id = acceptedPackets trace := by
  obtain ⟨trace, s, hrun, htest⟩ :=
    ((cdcSystem.startingAt cdcSystem.init).restrict fun s op => decide (CaptureStep s op)).exists_run_of_replay
      [.init, .write [1, 2] 3 4, .enter true, .fill 5, .write [0xAA, 0x55, 7] 8 9, .advance, .enter true, .fill 18,
        .advance]
      (fun trace s => decide (acceptedPackets trace = [⟨[1, 2], 3, 4⟩, ⟨[0xAA, 0x55, 7], 8, 9⟩] ∧ s.unsent = []))
      (by decide +kernel)
  have hcapture : (cdcSystem.startingAt cdcSystem.init).RunWhere CaptureStep trace s :=
    EventSystem.runWhere_of_restrict (fun s op hallowed => of_decide_eq_true hallowed) hrun
  have htwo := of_decide_eq_true htest
  have hbytes : ((handedBytes trace).map fun byte => [byte]).flatten = handedBytes trace := by
    rw [← List.flatMap_def, List.flatMap_singleton']
  obtain ⟨-, -, hread⟩ := cdc_stream (show Quiescent cdcSystem.init from ⟨rfl, by decide, rfl, rfl⟩) hcapture
  exact ⟨trace, s, hcapture, htwo.1, (hread true _ ⟨[], (List.append_nil _).trans hbytes⟩).2 hbytes htwo.2⟩

end Collect

end SlimeReceiver
