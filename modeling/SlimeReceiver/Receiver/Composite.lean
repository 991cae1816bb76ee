import SlimeReceiver.Receiver.DataPath

/-! # Composite packets

What `esb_receive_composite` makes of the bytes between the header and the sequence byte. The code
walks over them twice by index; here they are read as a list, once.

* **`PoseRecord`** — a known record other than an event.
* **`Reads`** — the bytes are such records up to an ending; **`Faulty`** — they are not.
* **`Rebuilds`** — a packet handed to `hid_write_packet_n` is made from a record.
* **`composite_parsing`** — every index read is below the length, a faulty packet has no effect, and
  any other is forwarded as its records say. -/

namespace SlimeReceiver

open Events (compositeBodyLength CompositeScan slice trackerEventEsbType trackerEventBodyLen
  trackerEventDecodeBody esbCompositeType)

/-! ## The format -/

/-- A record of a known type that is not an event. -/
structure PoseRecord where
  subType : BitVec 8
  body : List (BitVec 8)
  known : compositeBodyLength subType = some body.length
  pose : subType ≠ trackerEventEsbType

/-- How the records of a packet end. -/
inductive CompositeEnding
  /-- With the last pose record. -/
  | exact
  /-- With an event. -/
  | event (body : List (BitVec 8))
  /-- With a record of an unknown type, which hides everything behind it. -/
  | unknown

/-- The frames an ending hands to `tracker_events_receive`. -/
def CompositeEnding.frames (tracker : BitVec 8) : CompositeEnding → List (List (BitVec 8))
  | event body => [trackerEventEsbType :: tracker :: body]
  | exact | unknown => []

/-- The bytes read as `records` and `ending` when the header announces so many records. -/
inductive Reads (tracker : BitVec 8) :
    ℕ → List (BitVec 8) → List PoseRecord → CompositeEnding → Prop
  | exact : Reads tracker 0 [] [] .exact
  | event {body : List (BitVec 8)} (hvalid : (trackerEventDecodeBody tracker body).isSome = true) :
      Reads tracker 1 (trackerEventEsbType :: body) [] (.event body)
  | unknown {count : ℕ} {type : BitVec 8} {rest : List (BitVec 8)}
      (hunknown : compositeBodyLength type = none) :
      Reads tracker (count + 1) (type :: rest) [] .unknown
  | record {count : ℕ} {rest : List (BitVec 8)} {records : List PoseRecord}
      {ending : CompositeEnding} (record : PoseRecord)
      (hrest : Reads tracker count rest records ending) :
      Reads tracker (count + 1) (record.subType :: (record.body ++ rest)) (record :: records) ending

/-- The bytes do not hold the records the header announces. -/
inductive Faulty (tracker : BitVec 8) : ℕ → List (BitVec 8) → Prop
  /-- The known records end before the sequence byte. -/
  | leftover (byte : BitVec 8) (rest : List (BitVec 8)) : Faulty tracker 0 (byte :: rest)
  /-- A record is missing altogether. -/
  | missing (count : ℕ) : Faulty tracker (count + 1) []
  /-- A known record is truncated. -/
  | truncated {count len : ℕ} {type : BitVec 8} {rest : List (BitVec 8)}
      (hknown : compositeBodyLength type = some len) (hshort : rest.length < len) :
      Faulty tracker (count + 1) (type :: rest)
  /-- An event is not the last record. -/
  | eventNotLast {count : ℕ} {rest : List (BitVec 8)} (hcount : count ≠ 0) :
      Faulty tracker (count + 1) (trackerEventEsbType :: rest)
  /-- An event is invalid. -/
  | eventInvalid {count : ℕ} {body rest : List (BitVec 8)} (hlen : body.length = trackerEventBodyLen)
      (hinvalid : trackerEventDecodeBody tracker body = none) :
      Faulty tracker (count + 1) (trackerEventEsbType :: (body ++ rest))
  /-- An event ends before the sequence byte. -/
  | eventLeftover {count : ℕ} {body : List (BitVec 8)} {byte : BitVec 8} {rest : List (BitVec 8)}
      (hlen : body.length = trackerEventBodyLen) :
      Faulty tracker (count + 1) (trackerEventEsbType :: (body ++ byte :: rest))
  | record {count : ℕ} {rest : List (BitVec 8)} (record : PoseRecord)
      (hrest : Faulty tracker count rest) :
      Faulty tracker (count + 1) (record.subType :: (record.body ++ rest))

/-- **Every packet either reads as records or is faulty.** -/
theorem reads_or_faulty (tracker : BitVec 8) (count : ℕ) (bytes : List (BitVec 8)) :
    (∃ records ending, Reads tracker count bytes records ending) ∨ Faulty tracker count bytes := by
  induction count generalizing bytes with
  | zero =>
    cases bytes with
    | nil => exact .inl ⟨_, _, .exact⟩
    | cons byte rest => exact .inr (.leftover byte rest)
  | succ count ih =>
    cases bytes with
    | nil => exact .inr (.missing count)
    | cons type rest =>
      cases hknown : compositeBodyLength type with
      | none => exact .inl ⟨_, _, .unknown hknown⟩
      | some len =>
        by_cases hshort : rest.length < len
        · exact .inr (.truncated hknown hshort)
        have hlen : (rest.take len).length = len := by
          rw [List.length_take]
          omega
        have hsplit : rest = rest.take len ++ rest.drop len := (List.take_append_drop len rest).symm
        by_cases hevent : type = trackerEventEsbType
        · subst hevent
          obtain rfl : trackerEventBodyLen = len := Option.some.inj hknown
          by_cases hcount : count = 0
          · cases hbody : trackerEventDecodeBody tracker (rest.take trackerEventBodyLen) with
            | none =>
              rw [hsplit]
              exact .inr (.eventInvalid hlen hbody)
            | some e =>
              cases htail : rest.drop trackerEventBodyLen with
              | nil =>
                rw [hsplit, htail, List.append_nil, hcount]
                exact .inl ⟨_, _, .event (by rw [hbody]; rfl)⟩
              | cons byte tail =>
                rw [hsplit, htail]
                exact .inr (.eventLeftover hlen)
          · exact .inr (.eventNotLast hcount)
        · have hrecord : compositeBodyLength type = some (rest.take len).length := by rw [hknown, hlen]
          rw [hsplit]
          rcases ih (rest.drop len) with ⟨records, ending, hrest⟩ | hrest
          · exact .inl ⟨_, _, .record ⟨type, rest.take len, hrecord, hevent⟩ hrest⟩
          · exact .inr (.record ⟨type, rest.take len, hrecord, hevent⟩ hrest)

/-! ## Every index read is below the length -/

section Reading

variable {data : List (BitVec 8)} {pos len : ℕ}

theorem readBytes_of_le (h : pos + len ≤ data.length) :
    readBytes data pos len = some (slice data pos len) := if_pos h

/-- The checked scan never fails, and finds what the unchecked one finds. -/
theorem scanRecords_eq (tracker : BitVec 8) {frameEnd : ℕ} (hend : frameEnd < data.length)
    (remaining : ℕ) (s : CompositeScan) : scanRecords tracker data frameEnd remaining s =
      some (Events.compositeScanRecords tracker data frameEnd remaining s) := by
  induction remaining generalizing s with
  | zero => rfl
  | succ remaining ih =>
    rw [scanRecords, Events.compositeScanRecords]
    split
    case isTrue => rfl
    case isFalse hscan =>
      have hread : data[s.scan]? = some (Events.byteAt data s.scan) := by
        have hlt : s.scan < data.length := by omega
        rw [Events.byteAt, List.getD_eq_getElem?_getD, List.getElem?_eq_getElem hlt, Option.getD_some]
      rw [hread, Option.bind_some]
      simp only []
      cases compositeBodyLength (Events.byteAt data s.scan) with
      | none => rfl
      | some bodyLen =>
        simp only []
        split
        case isTrue => rfl
        case isFalse hfits =>
          split
          case isTrue =>
            rw [readBytes_of_le (by omega), Option.bind_some]
            by_cases hlast : remaining = 0
            · simp only [hlast, true_and, if_true]
              split <;> rfl
            · simp only [hlast, false_and, if_false]
          case isFalse => exact ih _

/-- An event found by the scan lies before the sequence byte. -/
theorem eventPos_of_scanRecords (tracker : BitVec 8) {frameEnd : ℕ} (remaining : ℕ)
    {s s' : CompositeScan} (hstart : s.eventPos = 0)
    (h : Events.compositeScanRecords tracker data frameEnd remaining s = some s') :
    s'.eventPos = 0 ∨ s'.eventPos + trackerEventBodyLen ≤ frameEnd := by
  induction remaining generalizing s with
  | zero =>
    obtain rfl := Option.some.inj h
    exact .inl hstart
  | succ remaining ih =>
    rw [Events.compositeScanRecords] at h
    split at h
    case isTrue => cases h
    case isFalse =>
      simp only [] at h
      split at h
      · obtain rfl := Option.some.inj h
        exact .inl hstart
      case h_2 bodyLen hlen =>
        split at h
        case isTrue => cases h
        case isFalse hfits =>
          split at h
          case isTrue htype =>
            rw [htype] at hlen
            obtain rfl : trackerEventBodyLen = bodyLen := Option.some.inj hlen
            split at h
            case isTrue =>
              obtain rfl := Option.some.inj h
              exact .inr (not_lt.mp hfits)
            case isFalse => cases h
          case isFalse => exact ih (s := { s with scan := s.scan + 1 + bodyLen }) hstart h

theorem validateComposite_isSome (tracker subCount : BitVec 8) (h : 0 < data.length) :
    (validateComposite tracker subCount data).isSome = true := by
  unfold validateComposite
  split
  case isTrue => rfl
  case isFalse =>
    have hend : data.length - 1 < data.length := by omega
    rw [scanRecords_eq tracker hend, Option.bind_some]
    split
    case h_1 => rfl
    case h_2 s hscan =>
      split
      case isTrue => rfl
      case isFalse =>
        split
        case isTrue hevent =>
          have hpos := (eventPos_of_scanRecords tracker _ rfl hscan).resolve_left hevent
          rw [readBytes_of_le (by omega)]
          rfl
        case isFalse => rfl

theorem forwardRecords_isSome (tracker : BitVec 8) (payload : RxPayload) (remaining pos : ℕ)
    (r : Receiver) : (forwardRecords tracker payload remaining pos r).isSome = true := by
  induction remaining generalizing pos r with
  | zero => rfl
  | succ remaining ih =>
    rw [forwardRecords]
    split
    case isTrue => rfl
    case isFalse hpos =>
      rw [List.getElem?_eq_getElem (show pos < payload.data.length by omega), Option.bind_some]
      split
      case h_1 => rfl
      case h_2 subLen _ =>
        split
        case isTrue => rfl
        case isFalse hfits =>
          rw [readBytes_of_le (by omega), Option.bind_some, Option.isSome_map]
          exact ih _ _

/-- **No read of a composite packet passes its length**, whatever the bytes. -/
theorem receiveComposite_isSome (payload : RxPayload) (r : Receiver) :
    (receiveComposite payload r).isSome = true := by
  unfold receiveComposite
  split
  case isTrue => rfl
  case isFalse hlen =>
    have hread : ∀ i, i < 5 → ∃ byte, payload.data[i]? = some byte := fun i hi =>
      ⟨_, List.getElem?_eq_getElem (show i < payload.data.length by omega)⟩
    obtain ⟨type, htype⟩ := hread 0 (by decide)
    obtain ⟨tracker, htracker⟩ := hread 1 (by decide)
    obtain ⟨subCount, hsubCount⟩ := hread 2 (by decide)
    rw [htype, htracker, hsubCount]
    simp only [Option.bind_some]
    split
    case isTrue => rfl
    case isFalse =>
      split
      case isTrue => rfl
      case isFalse =>
        obtain ⟨validated, hvalidated⟩ := Option.isSome_iff_exists.mp
          (show (validateComposite tracker subCount payload.data).isSome = true from
            validateComposite_isSome tracker subCount (by omega))
        rw [hvalidated, Option.bind_some]
        split
        case h_1 => rfl
        case h_2 =>
          split
          case isTrue => rfl
          case isFalse =>
            rw [receiveRecords, List.getElem?_eq_getElem
              (show payload.data.length - 1 < payload.data.length by omega), Option.bind_some]
            simp only []
            split
            · rfl
            · rw [Option.isSome_map]
              exact forwardRecords_isSome ..

end Reading

/-! ## The records the two passes see -/

section Walking

variable {tracker seq type : BitVec 8} {data front tail : List (BitVec 8)} {count len : ℕ}

/-- The byte behind what was read. -/
theorem getElem?_of_front (hdata : data = front ++ type :: tail ++ [seq]) :
    data[front.length]? = some type := by
  rw [hdata, List.append_assoc, List.getElem?_append_right le_rfl, Nat.sub_self]
  rfl

/-- The bytes behind the next type byte. -/
theorem slice_of_front (hdata : data = front ++ type :: tail ++ [seq]) (hlen : len ≤ tail.length) :
    slice data (front.length + 1) len = tail.take len := by
  have hsplit : data = (front ++ [type]) ++ (tail ++ [seq]) := by
    rw [hdata]
    simp
  rw [slice, hsplit, List.drop_append_of_le_length (by simp), List.drop_of_length_le (by simp),
    List.nil_append, List.take_append_of_le_length hlen]

/-- One record of the validating loop, in terms of the bytes that are left. -/
theorem scanRecords_cons (hdata : data = front ++ type :: tail ++ [seq]) :
    scanRecords tracker data (data.length - 1) (count + 1) ⟨front.length, 0, false⟩ =
      match compositeBodyLength type with
      | none => some (some ⟨front.length + 1, 0, true⟩)
      | some len =>
        if tail.length < len then some none
        else if type = trackerEventEsbType then
          if count = 0 then
            if (trackerEventDecodeBody tracker (tail.take len)).isSome then
              some (some ⟨front.length + 1 + len, front.length + 1, false⟩)
            else some none
          else some none
        else scanRecords tracker data (data.length - 1) count ⟨front.length + 1 + len, 0, false⟩ := by
  have hlength : data.length = front.length + tail.length + 2 := by
    rw [hdata]
    simp
    omega
  rw [scanRecords, if_neg (by simp only []; omega), getElem?_of_front hdata, Option.bind_some]
  cases compositeBodyLength type with
  | none => rfl
  | some len =>
    simp only []
    by_cases hshort : tail.length < len
    · rw [if_pos (by omega), if_pos hshort]
    · rw [if_neg (by omega), if_neg hshort, readBytes_of_le (by omega),
        slice_of_front hdata (not_lt.mp hshort), Option.bind_some]

/-- One record of the forwarding loop. -/
theorem forwardRecords_cons {payload : RxPayload} (hdata : payload.data = front ++ type :: tail ++ [seq])
    (r : Receiver) : forwardRecords tracker payload (count + 1) front.length r =
      match compositeBodyLength type with
      | none => some (r, [])
      | some len =>
        if tail.length < len then some (r, [])
        else
          let filled := r.fillStatus tracker.toNat (standardPacket type tracker (tail.take (min len 14)))
          (forwardRecords tracker payload count (front.length + 1 + len) filled.1).map fun rest =>
            (rest.1, ⟨filled.2, payload.rssi⟩ :: rest.2) := by
  have hlength : payload.data.length = front.length + tail.length + 2 := by
    rw [hdata]
    simp
    omega
  rw [forwardRecords, if_neg (by omega), getElem?_of_front hdata, Option.bind_some]
  cases compositeBodyLength type with
  | none => rfl
  | some len =>
    simp only []
    by_cases hshort : tail.length < len
    · rw [if_pos (by omega), if_pos hshort]
    · rw [if_neg (by omega), if_neg hshort, readBytes_of_le (by omega),
        slice_of_front hdata (by omega), Option.bind_some]

/-- What the validating loop leaves behind at an ending. -/
def CompositeEnding.Found (bytes : List (BitVec 8)) (s : CompositeScan) : CompositeEnding → Prop
  | exact => s = ⟨bytes.length, 0, false⟩
  | event body => ∃ front, bytes = front ++ trackerEventEsbType :: body ∧
      body.length = trackerEventBodyLen ∧ s = ⟨bytes.length, front.length + 1, false⟩
  | unknown => s.eventPos = 0 ∧ s.unknownTail = true

variable {rest : List (BitVec 8)} {records : List PoseRecord} {ending : CompositeEnding}

/-- A valid body has the length of a body. -/
theorem length_of_decodeBody {body : List (BitVec 8)}
    (h : (trackerEventDecodeBody tracker body).isSome = true) : body.length = trackerEventBodyLen := by
  by_contra hlen
  rw [trackerEventDecodeBody, if_pos hlen] at h
  cases h

/-- What is read once a pose record is passed. -/
theorem PoseRecord.next (record : PoseRecord)
    (hdata : data = front ++ (record.subType :: (record.body ++ rest)) ++ [seq]) :
    data = (front ++ record.subType :: record.body) ++ rest ++ [seq] ∧
      (front ++ record.subType :: record.body).length = front.length + 1 + record.body.length := by
  constructor
  · rw [hdata]
    simp
  · simp
    omega

theorem scanRecords_record (record : PoseRecord)
    (hdata : data = front ++ (record.subType :: (record.body ++ rest)) ++ [seq]) :
    scanRecords tracker data (data.length - 1) (count + 1) ⟨front.length, 0, false⟩ =
      scanRecords tracker data (data.length - 1) count
        ⟨(front ++ record.subType :: record.body).length, 0, false⟩ := by
  rw [scanRecords_cons hdata, record.known]
  simp only []
  rw [if_neg (by simp), if_neg record.pose, (record.next hdata).2]

/-- An event record in the validating loop. -/
theorem scanRecords_event (hdata : data = front ++ trackerEventEsbType :: tail ++ [seq]) :
    scanRecords tracker data (data.length - 1) (count + 1) ⟨front.length, 0, false⟩ =
      if tail.length < trackerEventBodyLen then some none
      else if count = 0 then
        if (trackerEventDecodeBody tracker (tail.take trackerEventBodyLen)).isSome then
          some (some ⟨front.length + 1 + trackerEventBodyLen, front.length + 1, false⟩)
        else some none
      else some none := by
  rw [scanRecords_cons hdata]
  rfl

/-- The validating loop on a packet that reads as records. -/
theorem Reads.scan (h : Reads tracker count rest records ending)
    (hdata : data = front ++ rest ++ [seq]) :
    ∃ s, scanRecords tracker data (data.length - 1) count ⟨front.length, 0, false⟩ = some (some s) ∧
      ending.Found (front ++ rest) s := by
  induction h generalizing front with
  | exact => exact ⟨_, rfl, by simp [CompositeEnding.Found]⟩
  | event hvalid =>
    have hlen := length_of_decodeBody hvalid
    rw [scanRecords_event hdata, if_neg (by omega), if_pos rfl, ← hlen, List.take_length,
      if_pos hvalid]
    refine ⟨_, rfl, front, rfl, hlen, ?_⟩
    rw [List.length_append, List.length_cons, Nat.add_assoc, Nat.add_comm 1]
  | unknown hunknown =>
    rw [scanRecords_cons hdata, hunknown]
    exact ⟨_, rfl, rfl, rfl⟩
  | record record _ ih =>
    obtain ⟨s, hscan, hfound⟩ := ih (record.next hdata).1
    rw [scanRecords_record record hdata]
    refine ⟨s, hscan, ?_⟩
    simpa using hfound

/-- The validating loop on a faulty packet: it gives up, or it ends before the sequence byte. -/
theorem Faulty.scan (h : Faulty tracker count rest) (hdata : data = front ++ rest ++ [seq]) :
    scanRecords tracker data (data.length - 1) count ⟨front.length, 0, false⟩ = some none ∨
      ∃ s, scanRecords tracker data (data.length - 1) count ⟨front.length, 0, false⟩ =
        some (some s) ∧ s.unknownTail = false ∧ s.scan ≠ data.length - 1 := by
  induction h generalizing front with
  | leftover byte rest =>
    refine .inr ⟨_, rfl, rfl, ?_⟩
    rw [hdata]
    simp
  | missing count =>
    refine .inl ?_
    rw [scanRecords, if_pos]
    rw [hdata]
    simp
  | truncated hknown hshort =>
    rw [scanRecords_cons hdata, hknown]
    exact .inl (if_pos hshort)
  | eventNotLast hcount =>
    rw [scanRecords_event hdata, if_neg hcount]
    exact .inl (ite_self _)
  | eventInvalid hlen hinvalid =>
    rw [scanRecords_event hdata, ← hlen, List.take_left, hinvalid]
    refine .inl ?_
    simp
  | @eventLeftover count body byte rest hlen =>
    rw [scanRecords_event hdata, ← hlen, List.take_left, if_neg (by simp)]
    split
    case isFalse => exact .inl rfl
    case isTrue =>
      split
      case isFalse => exact .inl rfl
      case isTrue =>
        refine .inr ⟨_, rfl, rfl, ?_⟩
        rw [hdata]
        simp
        omega
  | record record _ ih =>
    rw [scanRecords_record record hdata]
    exact ih (record.next hdata).1

/-! ## Forwarding -/

/-- The body of a pose record fits a standard packet. -/
theorem PoseRecord.length_le (record : PoseRecord) : record.body.length ≤ 14 := by
  have hknown := record.known
  have hpose := record.pose
  unfold compositeBodyLength at hknown
  repeat' split at hknown
  all_goals first
    | contradiction
    | (have hlength := Option.some.inj hknown; omega)

/-- Packets of tracker `id` forwarded in order. -/
def forwardPackets (id : ℕ) (rssi : BitVec 8) :
    List (List (BitVec 8)) → Receiver → Receiver × List HidPacket
  | [], r => (r, [])
  | pkt :: pkts, r =>
    let filled := r.fillStatus id pkt
    let rest := forwardPackets id rssi pkts filled.1
    (rest.1, ⟨filled.2, rssi⟩ :: rest.2)

/-- A pose record as a standard packet. -/
def PoseRecord.packet (tracker : BitVec 8) (record : PoseRecord) : List (BitVec 8) :=
  standardPacket record.subType tracker record.body

/-- Pose records forwarded in order. -/
def forwardPoses (tracker rssi : BitVec 8) (records : List PoseRecord) (r : Receiver) :
    Receiver × List HidPacket :=
  forwardPackets tracker.toNat rssi (records.map (·.packet tracker)) r

/-- Pose records are forwarded one after the other. -/
theorem forwardRecords_record {payload : RxPayload} (record : PoseRecord)
    (hdata : payload.data = front ++ (record.subType :: (record.body ++ rest)) ++ [seq])
    (r : Receiver) : forwardRecords tracker payload (count + 1) front.length r =
      let filled := r.fillStatus tracker.toNat (standardPacket record.subType tracker record.body)
      (forwardRecords tracker payload count (front ++ record.subType :: record.body).length
        filled.1).map fun rest => (rest.1, ⟨filled.2, payload.rssi⟩ :: rest.2) := by
  rw [forwardRecords_cons hdata, record.known, (record.next hdata).2]
  simp only []
  rw [if_neg (by simp), Nat.min_eq_left record.length_le, List.take_left]

/-- An event is one of the records the header announces. -/
theorem Reads.frames_le (h : Reads tracker count rest records ending) :
    (ending.frames tracker).length ≤ count := by
  induction h with
  | exact | event | unknown => simp [CompositeEnding.frames]
  | record _ _ ih => exact ih.trans (Nat.le_succ _)

/-- No bytes hold no records. -/
theorem Reads.count_of_nil (h : Reads tracker count [] records ending) : count = 0 := by
  cases h
  rfl

/-- A packet that ends with an event announces its pose records and the event. -/
theorem Reads.count_of_event (h : Reads tracker count rest records ending)
    (hevent : ending.frames tracker ≠ []) :
    count - (ending.frames tracker).length = records.length := by
  induction h with
  | exact | unknown => exact absurd rfl hevent
  | event => rfl
  | record record hrest ih =>
    rw [Nat.succ_sub hrest.frames_le, ih hevent]
    rfl

/-- The forwarding loop on a packet that reads as records: it takes the pose records and stops. -/
theorem Reads.forward {payload : RxPayload} (h : Reads tracker count rest records ending)
    (hdata : payload.data = front ++ rest ++ [seq]) (r : Receiver) :
    forwardRecords tracker payload (count - (ending.frames tracker).length) front.length r =
      some (forwardPoses tracker payload.rssi records r) := by
  induction h generalizing front r with
  | exact | event => rfl
  | unknown hunknown =>
    rw [CompositeEnding.frames, List.length_nil, Nat.sub_zero, forwardRecords_cons hdata, hunknown]
    rfl
  | record record hrest ih =>
    rw [Nat.succ_sub hrest.frames_le, forwardRecords_record record hdata]
    simp only []
    rw [ih (record.next hdata).1]
    rfl

/-- The validating pass on a packet that reads as records. -/
theorem Reads.validate {subCount type id : BitVec 8} (h : Reads tracker subCount.toNat rest records ending)
    (hcount : subCount ≠ 0) (hdata : data = [type, id, subCount] ++ rest ++ [seq]) :
    validateComposite tracker subCount data = some (some
      (ending.frames tracker, subCount.toNat - (ending.frames tracker).length)) := by
  obtain ⟨s, hscan, hfound⟩ := h.scan hdata
  have hstart : scanRecords tracker data (data.length - 1) subCount.toNat ⟨3, 0, false⟩ =
      some (some s) := hscan
  rw [validateComposite, if_neg hcount, hstart, Option.bind_some]
  have hlength : data.length - 1 = ([type, id, subCount] ++ rest).length := by
    rw [hdata, List.length_append]
    rfl
  cases ending with
  | exact =>
    obtain rfl := hfound
    simp only []
    rw [if_neg (by simp [hlength]), if_neg (by simp)]
    rfl
  | event body =>
    obtain ⟨front, hbytes, hlen, rfl⟩ := hfound
    simp only []
    rw [if_neg (by simp [hlength]), if_pos (Nat.succ_ne_zero _)]
    rw [hbytes] at hdata
    rw [readBytes_of_le, slice_of_front hdata hlen.ge, ← hlen, List.take_length]
    · rfl
    · rw [hdata]
      simp [hlen]
      omega
  | unknown =>
    obtain ⟨hpos, htail⟩ := hfound
    simp only []
    rw [if_neg (by simp [htail]), if_neg (by simp [hpos])]
    rfl

/-- The validating pass on a faulty packet. -/
theorem Faulty.validate {subCount type id : BitVec 8} (h : Faulty tracker subCount.toNat rest)
    (hdata : data = [type, id, subCount] ++ rest ++ [seq]) :
    validateComposite tracker subCount data = some none := by
  rw [validateComposite]
  split
  case isTrue => rfl
  case isFalse =>
    have hscanned : scanRecords tracker data (data.length - 1) subCount.toNat ⟨3, 0, false⟩ =
          some none ∨ ∃ s, scanRecords tracker data (data.length - 1) subCount.toNat ⟨3, 0, false⟩ =
            some (some s) ∧ s.unknownTail = false ∧ s.scan ≠ data.length - 1 := h.scan hdata
    rcases hscanned with hgiveup | ⟨s, hscan, htail, hend⟩
    · rw [hgiveup]
      rfl
    · rw [hscan]
      exact if_pos ⟨htail, hend⟩

/-- What reads as records is not faulty. -/
theorem Reads.not_faulty (h : Reads tracker count rest records ending) :
    ¬Faulty tracker count rest := by
  intro hfaulty
  have hdata : [] ++ rest ++ [0] = [] ++ rest ++ [(0 : BitVec 8)] := rfl
  obtain ⟨s, hscan, hfound⟩ := h.scan hdata
  rcases hfaulty.scan hdata with hgiveup | ⟨s', hscan', htail, hend⟩
  · rw [hscan] at hgiveup
    cases hgiveup
  · rw [hscan] at hscan'
    obtain rfl := Option.some.inj (Option.some.inj hscan')
    cases ending with
    | exact =>
      obtain rfl := hfound
      exact hend (by simp)
    | event body =>
      obtain ⟨front, -, -, rfl⟩ := hfound
      exact hend (by simp)
    | unknown =>
      rw [hfound.2] at htail
      cases htail

end Walking

/-! ## The whole packet -/

section Packet

variable {payload : RxPayload} {r : Receiver} {tracker subCount seq : BitVec 8}
  {bytes : List (BitVec 8)} {records : List PoseRecord} {ending : CompositeEnding}

/-- A composite packet of a stored tracker, up to the validating pass. -/
theorem receiveComposite_eq
    (hdata : payload.data = [esbCompositeType, tracker, subCount] ++ bytes ++ [seq])
    (hbytes : bytes ≠ []) (hstored : r.stores tracker.toNat = true) :
    receiveComposite payload r = (validateComposite tracker subCount payload.data).bind fun
      | none => some (.nothing r)
      | some (events, subCount) =>
        if events ≠ [] ∧ subCount = 0 then some ⟨r, none, [], events⟩
        else receiveRecords tracker subCount events payload r := by
  have hlength : 0 < bytes.length := List.length_pos_iff.mpr hbytes
  have hread : payload.data[0]? = some esbCompositeType ∧ payload.data[1]? = some tracker ∧
      payload.data[2]? = some subCount := by
    rw [hdata]
    exact ⟨rfl, rfl, rfl⟩
  rw [receiveComposite, if_neg (by rw [hdata]; simp; omega), hread.1, hread.2.1, hread.2.2]
  simp only [Option.bind_some]
  exact (if_neg (by simp)).trans (if_neg (by simp [hstored]))

/-- A packet too short for a record has no effect. -/
theorem receiveComposite_of_short (h : payload.data.length < 5) :
    receiveComposite payload r = some (.nothing r) := if_pos h

/-- A faulty packet has no effect. -/
theorem Faulty.receive (h : Faulty tracker subCount.toNat bytes)
    (hdata : payload.data = [esbCompositeType, tracker, subCount] ++ bytes ++ [seq])
    (hstored : r.stores tracker.toNat = true) : receiveComposite payload r = some (.nothing r) := by
  by_cases hbytes : bytes = []
  · exact receiveComposite_of_short (by simp [hdata, hbytes])
  · rw [receiveComposite_eq hdata hbytes hstored, h.validate hdata]
    rfl

/-- The receiver once a packet is classified, before its records are forwarded. -/
def Receiver.classified (payload : RxPayload) (tracker seq : BitVec 8) (r : Receiver) : Receiver :=
  (r.checkPacketSequence tracker.toNat seq).1.observe (payload.onOwnPipe tracker.toNat)
    tracker.toNat .data

/-- The pose part of a packet that reads as records. -/
theorem Reads.receiveRecords (h : Reads tracker subCount.toNat bytes records ending)
    (hdata : payload.data = [esbCompositeType, tracker, subCount] ++ bytes ++ [seq])
    (events : List (List (BitVec 8))) :
    ∃ out, receiveRecords tracker (subCount.toNat - (ending.frames tracker).length) events payload r =
        some out ∧ out.call = some ⟨tracker.toNat, seq⟩ ∧ out.events = events ∧
      (out.receiver, out.hid) =
        if (r.checkPacketSequence tracker.toNat seq).2.dropped then
          (r.classified payload tracker seq, [])
        else forwardPoses tracker payload.rssi records
          ((r.classified payload tracker seq).noteRestart tracker.toNat
            (r.checkPacketSequence tracker.toNat seq).2) := by
  have hlast : payload.data[payload.data.length - 1]? = some seq := by
    rw [← List.getLast?_eq_getElem?, hdata, List.getLast?_concat]
  rw [SlimeReceiver.receiveRecords, hlast, Option.bind_some]
  simp only []
  split
  case isTrue => exact ⟨_, rfl, rfl, rfl, rfl⟩
  case isFalse =>
    have hforward := h.forward hdata ((r.classified payload tracker seq).noteRestart tracker.toNat
      (r.checkPacketSequence tracker.toNat seq).2)
    exact ⟨_, congrArg (Option.map _) hforward, rfl, rfl, rfl⟩

end Packet

/-! ## The packets handed on -/

/-- `pkt` is `record` as a 16-byte packet: the record's bytes after the tracker id, zeros behind
them; in a status packet the loss statistics follow the body. -/
structure Rebuilds (tracker rssi : BitVec 8) (record : PoseRecord) (pkt : HidPacket) : Prop where
  length : pkt.bytes.length = 16
  rssi : pkt.rssi = rssi
  pose : record.subType ≠ 3 → pkt.bytes =
    record.subType :: tracker :: record.body ++ List.replicate (14 - record.body.length) 0
  status : record.subType = 3 → ∃ stats : PacketStats, pkt.bytes =
    record.subType :: tracker :: record.body ++ stats.statusBytes ++ List.replicate 8 0

/-- The bytes of a standard packet. -/
theorem standardPacket_eq (subType tracker : BitVec 8) (body : List (BitVec 8)) :
    standardPacket subType tracker body =
      subType :: tracker :: body ++ List.replicate (14 - body.length) 0 := by
  rw [standardPacket, List.rightpad]
  simp

/-- A record handed on with the statistics filled in. -/
theorem rebuilds_fillStatus (tracker rssi : BitVec 8) (record : PoseRecord) (r : Receiver) :
    Rebuilds tracker rssi record
      ⟨(r.fillStatus tracker.toNat (standardPacket record.subType tracker record.body)).2, rssi⟩ := by
  have hle := record.length_le
  have hhead : (standardPacket record.subType tracker record.body).head? = some record.subType := rfl
  by_cases hstatus : record.subType = 3
  · have hlen : record.body.length = 2 := by
      have hknown := record.known
      rw [hstatus] at hknown
      exact (Option.some.inj hknown).symm
    obtain ⟨a, b, hbody⟩ := List.length_eq_two.mp hlen
    rw [Receiver.fillStatus, if_pos (by rw [hhead, hstatus]), standardPacket_eq, hbody]
    exact ⟨rfl, rfl, absurd hstatus, fun _ => ⟨(r.sequence tracker.toNat).stats, by rw [hbody]; rfl⟩⟩
  · rw [Receiver.fillStatus, if_neg (by rw [hhead]; simpa using hstatus), standardPacket_eq]
    refine ⟨?_, rfl, fun _ => rfl, fun h => absurd h hstatus⟩
    simp
    omega

/-- Forwarding hands on the records in order. -/
theorem forwardPoses_rebuilds (tracker rssi : BitVec 8) (records : List PoseRecord) (r : Receiver) :
    List.Forall₂ (Rebuilds tracker rssi) records (forwardPoses tracker rssi records r).2 := by
  induction records generalizing r with
  | nil => exact .nil
  | cons record records ih => exact .cons (rebuilds_fillStatus tracker rssi record r) (ih _)

/-- **Composite packet parsing.** Whatever the bytes, no read passes the length, and a packet too
short for a record has no effect. Otherwise the bytes between the header and the sequence byte
either read as the records the header announces or are faulty, and never both. A faulty packet has
no effect at all. A packet that reads as records hands on its event exactly once and its pose
records in order, none of them when the sequence byte is a duplicate or out of order. -/
theorem composite_parsing (payload : RxPayload) (r : Receiver) :
    (∃ out, receiveComposite payload r = some out) ∧
    (payload.data.length < 5 → receiveComposite payload r = some (.nothing r)) ∧
    ∀ tracker subCount seq bytes,
      payload.data = [esbCompositeType, tracker, subCount] ++ bytes ++ [seq] →
      r.stores tracker.toNat = true →
      (Faulty tracker subCount.toNat bytes ↔
        ¬∃ records ending, Reads tracker subCount.toNat bytes records ending) ∧
      (Faulty tracker subCount.toNat bytes → receiveComposite payload r = some (.nothing r)) ∧
      ∀ records ending, Reads tracker subCount.toNat bytes records ending →
        ∃ out, receiveComposite payload r = some out ∧ out.events = ending.frames tracker ∧
          List.Forall₂ (Rebuilds tracker payload.rssi)
            (if (r.checkPacketSequence tracker.toNat seq).2.dropped then [] else records) out.hid := by
  refine ⟨Option.isSome_iff_exists.mp (receiveComposite_isSome payload r),
    fun hshort => receiveComposite_of_short hshort,
    fun tracker subCount seq bytes hdata hstored => ⟨⟨?_, ?_⟩, fun hfaulty => hfaulty.receive hdata hstored,
      fun records ending hreads => ?_⟩⟩
  · rintro hfaulty ⟨records, ending, hreads⟩
    exact hreads.not_faulty hfaulty
  · intro hnone
    exact (reads_or_faulty tracker subCount.toNat bytes).resolve_left hnone
  · by_cases hcount : subCount = 0
    · rw [hcount] at hreads
      cases hreads
      refine ⟨_, receiveComposite_of_short (by simp [hdata]), rfl, ?_⟩
      rw [ite_self]
      exact .nil
    · have hbytes : bytes ≠ [] := by
        rintro rfl
        exact hcount (BitVec.eq_of_toNat_eq hreads.count_of_nil)
      rw [receiveComposite_eq hdata hbytes hstored, hreads.validate hcount hdata, Option.bind_some]
      simp only []
      split
      case isTrue hlone =>
        -- An event alone: the sequence byte is not looked at.
        have hrecords : records = [] := List.eq_nil_of_length_eq_zero (by
          have hcounted := hreads.count_of_event hlone.1
          omega)
        refine ⟨_, rfl, rfl, ?_⟩
        rw [hrecords, ite_self]
        exact .nil
      case isFalse =>
        obtain ⟨out, hout, -, hevents, heffect⟩ :=
          hreads.receiveRecords (r := r) hdata (ending.frames tracker)
        refine ⟨out, hout, hevents, ?_⟩
        have hhid := congrArg Prod.snd heffect
        simp only [] at hhid
        rw [hhid]
        split
        case isTrue => exact .nil
        case isFalse => exact forwardPoses_rebuilds ..

/-- A packet with a status record and an unknown one behind it, as the first packet of a tracker. -/
theorem composite_parsing_status : ∃ r out,
    receiveComposite ⟨[0xFE, 0, 2, 3, 7, 8, 0x99, 1, 40], 1, 60⟩ r = some out ∧ out.events = [] ∧
      List.Forall₂ (Rebuilds 0 60) [⟨3, [7, 8], rfl, nofun⟩] out.hid := by
  let r : Receiver := { Receiver.init with tdma := { Tdma.init with
    roster := { Tdma.init.roster with
      storedTrackers := 1
      stored_le := by decide } } }
  obtain ⟨-, -, hreads⟩ := (composite_parsing ⟨[0xFE, 0, 2, 3, 7, 8, 0x99, 1, 40], 1, 60⟩ r).2.2
    0 2 40 [3, 7, 8, 0x99, 1] rfl rfl
  exact ⟨r, hreads [⟨3, [7, 8], rfl, nofun⟩] .unknown (.record ⟨3, [7, 8], rfl, nofun⟩ (.unknown rfl))⟩

/-! ## The receiver machine and the event protocol -/

section Machine

variable {payload : RxPayload} {r : Receiver} {tracker subCount seq : BitVec 8}
  {bytes : List (BitVec 8)} {records : List PoseRecord} {ending : CompositeEnding}

/-- Clearing the counters again changes nothing. -/
theorem forwardStatus_forwardStatus (id : ℕ) (r : Receiver) :
    (r.forwardStatus id).forwardStatus id = r.forwardStatus id := by
  simp only [Receiver.forwardStatus, Receiver.withSequence, Function.update_self,
    Function.update_idem]

/-- A packet holds a status record. -/
def holdsStatus (records : List PoseRecord) : Bool := records.any (·.subType == 3)

theorem fillStatus_standardPacket (id : ℕ) (subType tracker : BitVec 8) (body : List (BitVec 8))
    (r : Receiver) : (r.fillStatus id (standardPacket subType tracker body)).1 =
      if subType = 3 then r.forwardStatus id else r := by
  have hhead : (standardPacket subType tracker body).head? = some subType := rfl
  rw [Receiver.fillStatus, hhead]
  by_cases hstatus : subType = 3
  · rw [if_pos (congrArg some hstatus), if_pos hstatus]
  · rw [if_neg (fun h => hstatus (Option.some.inj h)), if_neg hstatus]

/-- Forwarding touches the receiver only where a status record takes the counters along. -/
theorem forwardPoses_receiver (tracker rssi : BitVec 8) (records : List PoseRecord) (r : Receiver) :
    (forwardPoses tracker rssi records r).1 =
      if holdsStatus records then r.forwardStatus tracker.toNat else r := by
  induction records generalizing r with
  | nil => rfl
  | cons record records ih =>
    have hholds : holdsStatus (record :: records) = (record.subType == 3 || holdsStatus records) := rfl
    have hcons : (forwardPoses tracker rssi (record :: records) r).1 =
        (forwardPoses tracker rssi records
          (r.fillStatus tracker.toNat (record.packet tracker)).1).1 := rfl
    rw [hcons, ih, PoseRecord.packet, fillStatus_standardPacket, hholds]
    by_cases hstatus : record.subType = 3
    · rw [if_pos hstatus, forwardStatus_forwardStatus, ite_self, beq_iff_eq.mpr hstatus]
      rfl
    · rw [if_neg hstatus, beq_eq_false_iff_ne.mpr hstatus, Bool.false_or]

/-- What the machine does with a classified packet. -/
theorem forwardData_eq (id : ℕ) (result : Receiver.SequenceResult) (isStatus : Bool) (r : Receiver) :
    r.forwardData id result isStatus =
      if result.dropped then r
      else if isStatus then (r.noteRestart id result).forwardStatus id
      else r.noteRestart id result := by
  unfold Receiver.forwardData Receiver.SequenceResult.dropped Receiver.noteRestart
  simp only [decide_eq_true_eq]

/-- **A composite packet is the data step of the receiver machine**, with its sequence byte. -/
theorem Reads.receiver (h : Reads tracker subCount.toNat bytes records ending)
    (hdata : payload.data = [esbCompositeType, tracker, subCount] ++ bytes ++ [seq])
    (hpose : records ≠ [] ∨ ending = .unknown) (hstored : r.stores tracker.toNat = true) :
    (receiveComposite payload r).map (·.receiver) = some (r.receiveData tracker.toNat seq
      (payload.onOwnPipe tracker.toNat) (holdsStatus records)).1 := by
  have hcount : subCount ≠ 0 := by
    rintro rfl
    cases h
    exact hpose.elim (absurd rfl) nofun
  have hbytes : bytes ≠ [] := by
    rintro rfl
    exact hcount (BitVec.eq_of_toNat_eq h.count_of_nil)
  rw [receiveComposite_eq hdata hbytes hstored, h.validate hcount hdata, Option.bind_some]
  simp only []
  split
  case isTrue hlone =>
    have hcounted := h.count_of_event hlone.1
    rcases hpose with hrecords | rfl
    · exact absurd (List.eq_nil_of_length_eq_zero (by omega)) hrecords
    · exact absurd rfl hlone.1
  case isFalse =>
    have hknown : tracker.toNat < r.tdma.roster.storedTrackers := (of_decide_eq_true hstored).1
    obtain ⟨out, hout, -, -, heffect⟩ := h.receiveRecords (r := r) hdata (ending.frames tracker)
    have hreceiver := congrArg Prod.fst heffect
    simp only [] at hreceiver
    rw [hout, Option.map_some, hreceiver, Receiver.receiveData, if_pos hknown]
    simp only [forwardData_eq]
    split
    case isTrue => rfl
    case isFalse =>
      rw [forwardPoses_receiver]
      rfl

/-- The event the validating pass finds. -/
theorem validateComposite_events {data : List (BitVec 8)} (hlen : 0 < data.length)
    {validated : Option (List (List (BitVec 8)) × ℕ)}
    (h : validateComposite tracker subCount data = some validated) :
    validated.elim [] (·.1) =
      (if subCount.toNat = 0 then none
        else (Events.compositeScanRecords tracker data (data.length - 1) subCount.toNat
          ⟨3, 0, false⟩).bind fun s =>
            if s.unknownTail = false ∧ s.scan ≠ data.length - 1 then none
            else if s.eventPos = 0 then none
            else some (trackerEventEsbType :: tracker ::
              slice data s.eventPos trackerEventBodyLen)).toList := by
  unfold validateComposite at h
  split at h
  case isTrue hzero =>
    obtain rfl := Option.some.inj h
    rw [if_pos (by rw [hzero]; rfl)]
    rfl
  case isFalse hzero =>
    have hcount : subCount.toNat ≠ 0 := fun hcount => hzero (BitVec.eq_of_toNat_eq hcount)
    rw [scanRecords_eq tracker (by omega), Option.bind_some] at h
    rw [if_neg hcount]
    cases hscan : Events.compositeScanRecords tracker data (data.length - 1) subCount.toNat
        ⟨3, 0, false⟩ with
    | none =>
      rw [hscan] at h
      obtain rfl := Option.some.inj h
      rfl
    | some s =>
      rw [hscan] at h
      simp only [Option.bind_some] at h ⊢
      split at h
      case isTrue hend =>
        obtain rfl := Option.some.inj h
        rw [if_pos hend]
        rfl
      case isFalse hend =>
        rw [if_neg hend]
        split at h
        case isTrue hevent =>
          have hpos := (eventPos_of_scanRecords tracker _ rfl hscan).resolve_left hevent
          rw [readBytes_of_le (by omega)] at h
          obtain rfl := Option.some.inj h
          rw [if_neg hevent]
          rfl
        case isFalse hevent =>
          obtain rfl := Option.some.inj h
          rw [if_pos (not_not.mp hevent)]
          rfl

/-- **The event a composite packet hands on** is the one the event protocol takes out of it. -/
theorem receiveComposite_events {out : Received} (h : receiveComposite payload r = some out) :
    out.events = (Events.compositeEventPacket r.tdma.roster.storedTrackers payload.data).toList := by
  unfold receiveComposite at h
  unfold Events.compositeEventPacket
  simp only []
  split at h
  case isTrue hshort =>
    obtain rfl := Option.some.inj h
    rw [if_pos (.inl hshort)]
    rfl
  case isFalse hlen =>
    have hread : ∀ i, i < 5 → payload.data[i]? = some (Events.byteAt payload.data i) := by
      intro i hi
      have hlt : i < payload.data.length := by omega
      rw [Events.byteAt, List.getD_eq_getElem?_getD, List.getElem?_eq_getElem hlt, Option.getD_some]
    rw [hread 0 (by decide), hread 1 (by decide), hread 2 (by decide)] at h
    simp only [Option.bind_some] at h
    split at h
    case isTrue htype =>
      obtain rfl := Option.some.inj h
      rw [if_pos (.inr htype)]
      rfl
    case isFalse htype =>
      rw [if_neg (fun hbad => hbad.elim hlen htype)]
      have hlimit : Events.maxEventTrackers = maxTrackers := rfl
      have hstores : r.stores (Events.byteAt payload.data 1).toNat = true ↔
          ¬((Events.byteAt payload.data 1).toNat ≥ r.tdma.roster.storedTrackers ∨
            (Events.byteAt payload.data 1).toNat ≥ Events.maxEventTrackers) := by
        rw [Receiver.stores, decide_eq_true_iff, hlimit]
        omega
      split at h
      case isTrue hforeign =>
        obtain rfl := Option.some.inj h
        rw [if_pos (not_not.mp fun hknown => by simp [hstores.mpr hknown] at hforeign)]
        rfl
      case isFalse hstored =>
        rw [if_neg (hstores.mp (by simpa using hstored))]
        obtain ⟨validated, hvalidated, hout⟩ := Option.bind_eq_some_iff.mp h
        rw [← validateComposite_events (by omega) hvalidated]
        cases validated with
        | none =>
          obtain rfl := Option.some.inj hout
          rfl
        | some validated =>
          simp only [] at hout
          split at hout
          · obtain rfl := Option.some.inj hout
            rfl
          · obtain ⟨receivedSequence, -, hout⟩ := Option.bind_eq_some_iff.mp hout
            simp only [] at hout
            split at hout
            · obtain rfl := Option.some.inj hout
              rfl
            · obtain ⟨q, -, rfl⟩ := Option.map_eq_some_iff.mp hout
              rfl

end Machine

end SlimeReceiver
