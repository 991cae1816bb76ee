import Mathlib.Data.List.Sort
import Mathlib.Data.List.Nodup
import SlimeReceiver.Library.Binary32
import SlimeReceiver.Library.Bytes
import SlimeReceiver.Library.EventSystem

/-! # Calibration data of a tracker

`CalibrationData` of `data_collect_hid.py`: the temperature calibration arrives as a STATE packet and as chunks of two
points, each of which carries the number of points.

* **`CalibrationData.parse`** — a calibration packet.
* **`metadataComplete`**, **`missingMetadataRequest`** — what the collector asks for.
* **`IsState`**, **`IsChunk`**, **`Malformed`** — the packets of a table.
* **`normalize_perm`**, **`normalize_sorted`** — the table by temperature.
* **`Holds`**, **`Holds.parse`** — what the packets so far leave.
* **`calibration_reassembled`** — every delivery. -/

namespace SlimeReceiver

open Function (update update_self update_of_ne)
open Binary32 (isFinite isZero value twoDecimals decimalValue)

namespace Calibration

/-! ## The code -/

/-- A temperature and three biases, as they are received. -/
structure TcalPoint where
  temp : BitVec 32
  biasX : BitVec 32
  biasY : BitVec 32
  biasZ : BitVec 32
  deriving DecidableEq

/-- The floats of a point. -/
def TcalPoint.floats (point : TcalPoint) : List (BitVec 32) := [point.temp, point.biasX, point.biasY, point.biasZ]

/-- `_is_valid_tcal_point`. -/
def isValidTcalPoint (point : TcalPoint) : Bool := point.floats.all isFinite && !point.floats.all isZero

/-- The key of a point: its temperature with two decimals. -/
def TcalPoint.key (point : TcalPoint) : Bool × ℕ := twoDecimals point.temp

/-- An assignment to a dictionary, which keeps the order of its keys. -/
def assign {κ ν : Type} [DecidableEq κ] (key : κ) (value : ν) : List (κ × ν) → List (κ × ν)
  | [] => [(key, value)]
  | item :: rest => if item.1 = key then (key, value) :: rest else item :: assign key value rest

/-- The order of the keys: `float` of a key is the nearest number to its value. -/
def keyLe (a b : (Bool × ℕ) × TcalPoint) : Prop := decimalValue a.1 ≤ decimalValue b.1

instance : DecidableRel keyLe := fun _ _ => inferInstanceAs (Decidable (_ ≤ _))

/-- `_normalize_tcal_points`. -/
def normalizeTcalPoints (points : List TcalPoint) : List TcalPoint :=
  let deduped := points.foldl
    (fun deduped point => if isValidTcalPoint point then assign point.key point deduped else deduped) []
  (deduped.insertionSort keyLe).map Prod.snd

/-- A byte of a packet. -/
def byteAt (payload : List (BitVec 8)) (i : ℕ) : ℕ := (payload.getD i 0).toNat

/-- `struct.unpack_from("<H", …)`. -/
def u16At (payload : List (BitVec 8)) (i : ℕ) : ℕ := byteAt payload i + 256 * byteAt payload (i + 1)

/-- A float of a packet. -/
def floatAt (payload : List (BitVec 8)) (i : ℕ) : BitVec 32 :=
  le32 (payload.getD i 0) (payload.getD (i + 1) 0) (payload.getD (i + 2) 0) (payload.getD (i + 3) 0)

/-- A number of floats of a packet. -/
def floatsAt (payload : List (BitVec 8)) (n i : ℕ) : List (BitVec 32) :=
  (List.range n).map fun k => floatAt payload (i + 4 * k)

/-- `struct.unpack_from("<4f", payload, 7 + j * 16)`. -/
def pointAt (payload : List (BitVec 8)) (j : ℕ) : TcalPoint :=
  let i := 7 + 16 * j
  ⟨floatAt payload i, floatAt payload (i + 4), floatAt payload (i + 8), floatAt payload (i + 12)⟩

/-- The fields of a `CalibrationData`; the dictionary `_tcal_chunks` is a function. -/
structure CalibrationData where
  accelBAinv : Option (List (BitVec 32))
  magBAinv : Option (List (BitVec 32))
  gyroBias : Option (List (BitVec 32))
  gyroSensScale : Option (List (BitVec 32))
  tcalEnabled : Bool
  tcalNumPoints : ℕ
  tcalTempMin : BitVec 32
  tcalTempMax : BitVec 32
  tcalCorrectionOffset : Option (List (BitVec 32))
  tcalStateReceived : Bool
  tcalPoints : List TcalPoint
  tcalComplete : Bool
  tcalChunks : ℕ → Option (List TcalPoint)

namespace CalibrationData

/-- `__init__`. -/
def init : CalibrationData where
  accelBAinv := none
  magBAinv := none
  gyroBias := none
  gyroSensScale := none
  tcalEnabled := false
  tcalNumPoints := 0
  tcalTempMin := 0
  tcalTempMax := 0
  tcalCorrectionOffset := none
  tcalStateReceived := false
  tcalPoints := []
  tcalComplete := false
  tcalChunks _ := none

variable (c : CalibrationData)

/-- `_complete_tcal`. -/
def completeTcal : CalibrationData :=
  let expected := (c.tcalNumPoints + 1) / 2
  if c.tcalStateReceived && (List.range expected).all fun i => (c.tcalChunks i).isSome then
    let points := normalizeTcalPoints ((List.range expected).flatMap fun i => (c.tcalChunks i).getD [])
    if points.length = c.tcalNumPoints then { c with tcalPoints := points, tcalComplete := true }
    else { c with tcalPoints := [], tcalComplete := false }
  else { c with tcalPoints := [], tcalComplete := false }

/-- The branch of `parse` for the STATE packet. -/
def parseState (payload : List (BitVec 8)) : CalibrationData :=
  let totalCount := u16At payload 4
  completeTcal { c with
    tcalStateReceived := true
    tcalEnabled := byteAt payload 3 != 0
    tcalChunks := if totalCount ≠ c.tcalNumPoints then fun _ => none else c.tcalChunks
    tcalNumPoints := totalCount
    tcalTempMin := floatAt payload 6
    tcalTempMax := floatAt payload 10
    tcalCorrectionOffset := some (floatsAt payload 3 14) }

/-- The branch of `parse` for a chunk. -/
def parseChunk (payload : List (BitVec 8)) : CalibrationData :=
  let chunkIdx := byteAt payload 3
  let totalCount := u16At payload 4
  let count := byteAt payload 6
  if c.tcalStateReceived = true ∧ totalCount ≠ c.tcalNumPoints then c
  else
    let c := if totalCount ≠ c.tcalNumPoints then { c with tcalChunks := fun _ => none } else c
    if totalCount = 0 then completeTcal { c with tcalNumPoints := 0 }
    else
      let expectedCount : ℤ := min 2 ((totalCount : ℤ) - 2 * chunkIdx)
      if expectedCount ≤ 0 ∨ (count : ℤ) ≠ expectedCount ∨ payload.length < 7 + 16 * count then c
      else
        let points := (List.range count).map (pointAt payload)
        if !points.all isValidTcalPoint then c
        else
          completeTcal { c with
            tcalNumPoints := totalCount, tcalChunks := update c.tcalChunks chunkIdx (some points) }

/-- `parse`. -/
def parse (payload : List (BitVec 8)) : CalibrationData :=
  if payload.length < 4 then c
  else
    let subType := byteAt payload 2
    if subType = 0x01 ∧ 51 ≤ payload.length then { c with accelBAinv := some (floatsAt payload 12 3) }
    else if subType = 0x02 ∧ 51 ≤ payload.length then { c with magBAinv := some (floatsAt payload 12 3) }
    else if subType = 0x03 ∧ 27 ≤ payload.length then
      { c with gyroBias := some (floatsAt payload 3 3), gyroSensScale := some (floatsAt payload 3 15) }
    else if subType = 0x04 ∧ 26 ≤ payload.length then c.parseState payload
    else if subType = 0x05 ∧ 7 ≤ payload.length then c.parseChunk payload
    else c

end CalibrationData

/-! ## What the collector asks for -/

/-- The fields of a `SensorMetadata` that decide what is missing. -/
structure SensorMetadata where
  received : Bool
  magId : ℕ

/-- `SensorMetadata.parse`. -/
def SensorMetadata.parse (metadata : SensorMetadata) (payload : List (BitVec 8)) : SensorMetadata :=
  if payload.length < 24 then metadata else ⟨true, byteAt payload 23⟩

/-- The metadata of a `_CollectorState`. -/
structure CollectorMetadata where
  metadata : SensorMetadata
  cal : CalibrationData

/-- `META_MASK_BASIC` to `META_MASK_TCAL_POINTS`. -/
def metaMaskBasic : ℕ := 1
def metaMaskAccel : ℕ := 2
def metaMaskMag : ℕ := 4
def metaMaskGyro : ℕ := 8
def metaMaskTcalState : ℕ := 16
def metaMaskTcalPoints : ℕ := 32

namespace CollectorMetadata

def init : CollectorMetadata := ⟨⟨false, 0⟩, .init⟩

variable (s : CollectorMetadata)

/-- `metadata_complete`. -/
def metadataComplete : Bool :=
  if !s.metadata.received || s.cal.accelBAinv.isNone || s.cal.gyroBias.isNone then false
  else if s.metadata.magId != 0 && s.cal.magBAinv.isNone then false
  else s.cal.tcalStateReceived && s.cal.tcalComplete

/-- The bits of the mask but those of the temperature calibration. -/
def missingMask : ℕ :=
  (if s.cal.accelBAinv.isNone then metaMaskAccel else 0) |||
  (if s.metadata.magId != 0 && s.cal.magBAinv.isNone then metaMaskMag else 0) |||
  (if s.cal.gyroBias.isNone then metaMaskGyro else 0)

/-- The request of `missing_metadata_request` while the temperature calibration is not complete: the mask, and the first
chunk that is missing. -/
def tcalRequest (mask : ℕ) : ℕ × ℕ :=
  let mask := if !s.cal.tcalStateReceived then mask ||| metaMaskTcalState else mask
  let mask := mask ||| metaMaskTcalPoints
  if s.cal.tcalNumPoints ≠ 0 then
    match (List.range ((s.cal.tcalNumPoints + 1) / 2)).find? fun chunk => (s.cal.tcalChunks chunk).isNone with
    | some chunk => (mask, chunk)
    | none => (mask, 255)
  else (mask, 255)

/-- `missing_metadata_request`. -/
def missingMetadataRequest : Option (ℕ × ℕ) :=
  if !s.metadata.received then some (metaMaskBasic, 255)
  else
    let mask := s.missingMask
    if !s.cal.tcalComplete || !s.cal.tcalStateReceived then some (s.tcalRequest mask)
    else if mask ≠ 0 then some (mask, 255) else none

/-- `parse_metadata` and `parse_calibration`. -/
def receive : CollectorMetadata → Bool × List (BitVec 8) → CollectorMetadata
  | s, (true, payload) => { s with metadata := s.metadata.parse payload }
  | s, (false, payload) => { s with cal := s.cal.parse payload }

end CollectorMetadata

/-! ## The table by temperature -/

section Normalize

variable {table : List TcalPoint}

/-- A key that is not in the dictionary is added at its end. -/
theorem assign_of_not_mem {κ ν : Type} [DecidableEq κ] {key : κ} {value : ν} {items : List (κ × ν)}
    (h : key ∉ items.map Prod.fst) : assign key value items = items ++ [(key, value)] := by
  induction items with
  | nil => rfl
  | cons item rest ih =>
    rw [List.map_cons, List.mem_cons, not_or] at h
    rw [assign, if_neg (Ne.symm h.1), ih h.2]
    rfl

/-- The dictionary of points whose keys differ. -/
theorem foldl_assign (points before : List TcalPoint) (hvalid : ∀ p ∈ points, isValidTcalPoint p = true)
    (hkeys : ((before ++ points).map TcalPoint.key).Nodup) :
    points.foldl (fun deduped point => if isValidTcalPoint point then assign point.key point deduped else deduped)
      (before.map fun p => (p.key, p)) = (before ++ points).map fun p => (p.key, p) := by
  induction points generalizing before with
  | nil => rw [List.append_nil, List.foldl_nil]
  | cons point points ih =>
    have hsplit : before ++ point :: points = before ++ [point] ++ points := by
      rw [List.append_assoc, List.singleton_append]
    have hfresh : point.key ∉ (before.map fun p => (p.key, p)).map Prod.fst := by
      rw [List.map_map]
      intro hmem
      rw [List.map_append, List.nodup_append] at hkeys
      exact hkeys.2.2 _ hmem _ (List.mem_map_of_mem List.mem_cons_self) rfl
    have hnext := ih (before ++ [point]) (fun p hp => hvalid p (List.mem_cons_of_mem _ hp)) (hsplit ▸ hkeys)
    rw [List.foldl_cons, if_pos (hvalid point List.mem_cons_self), assign_of_not_mem hfresh, hsplit]
    rw [List.map_append] at hnext
    exact hnext

theorem normalize_eq (hvalid : ∀ p ∈ table, isValidTcalPoint p = true) (hkeys : (table.map TcalPoint.key).Nodup) :
    normalizeTcalPoints table = ((table.map fun p => (p.key, p)).insertionSort keyLe).map Prod.snd := by
  have hdict := foldl_assign table [] hvalid hkeys
  rw [List.map_nil, List.nil_append] at hdict
  rw [normalizeTcalPoints, hdict]

theorem normalize_perm (hvalid : ∀ p ∈ table, isValidTcalPoint p = true) (hkeys : (table.map TcalPoint.key).Nodup) :
    (normalizeTcalPoints table).Perm table := by
  have hperm := (List.perm_insertionSort keyLe (table.map fun p => (p.key, p))).map Prod.snd
  rw [List.map_map] at hperm
  rw [normalize_eq hvalid hkeys]
  exact hperm.trans (List.Perm.of_eq (List.map_id table))

/-- A temperature that is written as a negative zero comes before one that is written as zero. -/
def ZerosOrdered (table : List TcalPoint) : Prop :=
  ∀ p q, [p, q].Sublist table → p.key = (false, 0) → q.key = (true, 0) → value p.temp ≤ value q.temp

instance : IsTrans _ keyLe := ⟨fun _ _ _ hab hbc => Int.le_trans hab hbc⟩

instance : Std.Total keyLe := ⟨fun _ _ => Int.le_total _ _⟩

/-- Two elements of a list stand in it in one order at least. -/
theorem pair_sublist_or {l : List TcalPoint} {a b : TcalPoint} (ha : a ∈ l) (hb : b ∈ l) (hne : a ≠ b) :
    [a, b].Sublist l ∨ [b, a].Sublist l := by
  induction l with
  | nil => exact absurd ha List.not_mem_nil
  | cons x xs ih =>
    rcases List.mem_cons.mp ha with rfl | ha'
    · have hb' := (List.mem_cons.mp hb).resolve_left (Ne.symm hne)
      exact Or.inl ((List.singleton_sublist.mpr hb').cons_cons a)
    · rcases List.mem_cons.mp hb with rfl | hb'
      · exact Or.inr ((List.singleton_sublist.mpr ha').cons_cons b)
      · exact (ih ha' hb').imp (List.Sublist.cons x) (List.Sublist.cons x)

/-- And without repetitions in one order at most. -/
theorem not_pair_sublist {α : Type} {l : List α} {a b : α} (hnodup : l.Nodup) (hab : [a, b].Sublist l) :
    ¬[b, a].Sublist l := by
  induction l with
  | nil => exact fun h => nomatch h
  | cons x xs ih =>
    obtain ⟨hfresh, hrest⟩ := List.nodup_cons.mp hnodup
    intro hba
    cases hab with
    | cons _ hab =>
      cases hba with
      | cons _ hba => exact ih hrest hab hba
      | cons_cons _ hba => exact hfresh (hab.subset (List.mem_cons_of_mem _ List.mem_cons_self))
    | cons_cons _ hab =>
      cases hba with
      | cons _ hba => exact hfresh (hba.subset (List.mem_cons_of_mem _ List.mem_cons_self))
      | cons_cons _ hba => exact hfresh (hba.subset List.mem_cons_self)

/-- The points in the order of their temperatures. -/
theorem normalize_sorted (hvalid : ∀ p ∈ table, isValidTcalPoint p = true)
    (hkeys : (table.map TcalPoint.key).Nodup) (hzeros : ZerosOrdered table) :
    (normalizeTcalPoints table).Pairwise fun p q => value p.temp ≤ value q.temp := by
  have hinj : ∀ p ∈ table, ∀ q ∈ table, p.key = q.key → p = q := fun p hp q hq hkey =>
    List.inj_on_of_nodup_map hkeys hp hq hkey
  set items := table.map fun p => (p.key, p) with hitems
  have hnodup : (items.insertionSort keyLe).Nodup := by
    refine (List.perm_insertionSort keyLe items).nodup_iff.mpr ?_
    exact (List.Nodup.of_map _ hkeys).map fun p q hsame => congrArg Prod.snd hsame
  rw [normalize_eq hvalid hkeys, List.pairwise_map]
  refine List.pairwise_iff_forall_sublist.mpr fun {a b} hab => ?_
  have hle : keyLe a b := List.pairwise_iff_forall_sublist.mp (List.pairwise_insertionSort keyLe items) hab
  have hmem : ∀ x, x ∈ [a, b] → ∃ p ∈ table, (p.key, p) = x := fun x hx =>
    List.mem_map.mp ((List.mem_insertionSort keyLe).mp (hab.subset hx))
  obtain ⟨p, hp, rfl⟩ := hmem a List.mem_cons_self
  obtain ⟨q, hq, rfl⟩ := hmem b (List.mem_cons_of_mem _ List.mem_cons_self)
  by_contra hnot
  have hback : value q.temp ≤ value p.temp := (Int.lt_of_not_ge hnot).le
  -- a later temperature is lower only if both are written as zeros
  have heq : decimalValue p.key = decimalValue q.key := Int.le_antisymm hle (Binary32.decimalValue_mono hback)
  have hne : p ≠ q := by
    rintro rfl
    exact hnot (Int.le_refl _)
  rcases Binary32.zero_of_decimalValue_eq (fun hkey => hne (hinj p hp q hq hkey)) heq with ⟨hpk, hqk⟩ | ⟨hpk, hqk⟩
  · rcases pair_sublist_or hp hq hne with hpq | hqp
    · exact hnot (hzeros p q hpq hpk hqk)
    · have hqle : keyLe (q.key, q) (p.key, p) := Int.le_of_eq heq.symm
      exact not_pair_sublist hnodup hab (List.pair_sublist_insertionSort hqle (hqp.map fun p : TcalPoint => (p.key, p)))
  · have hpsign : p.temp.msb = true := congrArg Prod.fst hpk
    have hqsign : q.temp.msb = false := congrArg Prod.fst hqk
    refine hnot ?_
    rw [value, value, hpsign, hqsign]
    exact (Int.neg_nonpos_of_nonneg (Int.natCast_nonneg _)).trans (Int.natCast_nonneg _)

end Normalize

/-! ## The packets of a table -/

/-- The points of a chunk. -/
def chunkOf (table : List TcalPoint) (i : ℕ) : List TcalPoint := (table.drop (2 * i)).take 2

/-- The index, the number of points of the table and the points of a chunk packet that is well formed. -/
def chunkFields (payload : List (BitVec 8)) : Option (ℕ × ℕ × List TcalPoint) :=
  let chunkIdx := byteAt payload 3
  let totalCount := u16At payload 4
  let count := byteAt payload 6
  let points := (List.range count).map (pointAt payload)
  if byteAt payload 2 = 0x05 ∧ 7 + 16 * count ≤ payload.length ∧ 0 < count ∧
      (count : ℤ) = min 2 ((totalCount : ℤ) - 2 * chunkIdx) ∧ points.all isValidTcalPoint = true then
    some (chunkIdx, totalCount, points)
  else none

/-- The STATE packet of a table of so many points. -/
def IsState (n : ℕ) (payload : List (BitVec 8)) : Prop :=
  byteAt payload 2 = 0x04 ∧ 26 ≤ payload.length ∧ u16At payload 4 = n

/-- A chunk packet of a table. -/
def IsChunk (table : List TcalPoint) (i : ℕ) (payload : List (BitVec 8)) : Prop :=
  chunkFields payload = some (i, table.length, chunkOf table i)

/-- A chunk packet that is not well formed. -/
def Malformed (payload : List (BitVec 8)) : Prop := byteAt payload 2 = 0x05 ∧ chunkFields payload = none

/-- The STATE packet was delivered. -/
def StateDelivered (n : ℕ) (payloads : List (List (BitVec 8))) : Prop := ∃ p ∈ payloads, IsState n p

/-- A chunk was delivered. -/
def ChunkDelivered (table : List TcalPoint) (i : ℕ) (payloads : List (List (BitVec 8))) : Prop :=
  ∃ p ∈ payloads, IsChunk table i p

/-- A packet of a delivery: of the table, or a chunk packet that is not well formed. -/
def Delivers (table : List TcalPoint) (p : List (BitVec 8)) : Prop :=
  IsState table.length p ∨ (∃ i, IsChunk table i p) ∨ Malformed p

/-- After a first chunk and before the STATE packet, a chunk packet that is not well formed tells the number of points
of the table. -/
def KeepsChunks (table : List TcalPoint) (before : List (List (BitVec 8))) (p : List (BitVec 8)) : Prop :=
  Malformed p → 7 ≤ p.length → u16At p 4 ≠ table.length →
    StateDelivered table.length before ∨ ∀ i, ¬ChunkDelivered table i before

section Packets

variable {table : List TcalPoint} {payload : List (BitVec 8)} {c : CalibrationData}
  {before : List (List (BitVec 8))}

theorem stateDelivered_snoc {n : ℕ} :
    StateDelivered n (before ++ [payload]) ↔ StateDelivered n before ∨ IsState n payload := by
  simp only [StateDelivered, List.mem_append, List.mem_singleton, or_and_right, exists_or, exists_eq_left]

theorem chunkDelivered_snoc {i : ℕ} :
    ChunkDelivered table i (before ++ [payload]) ↔ ChunkDelivered table i before ∨ IsChunk table i payload := by
  simp only [ChunkDelivered, List.mem_append, List.mem_singleton, or_and_right, exists_or, exists_eq_left]

theorem chunkFields_subType {fields : ℕ × ℕ × List TcalPoint} (h : chunkFields payload = some fields) :
    byteAt payload 2 = 0x05 := by
  unfold chunkFields at h
  dsimp only at h
  split at h
  case isTrue hwell => exact hwell.1
  case isFalse => exact nomatch h

theorem parse_state {n : ℕ} (h : IsState n payload) : c.parse payload = c.parseState payload := by
  obtain ⟨htype, hlength, -⟩ := h
  unfold CalibrationData.parse
  dsimp only
  rw [htype, if_neg (by omega), if_neg (by omega), if_neg (by omega), if_neg (by omega), if_pos ⟨rfl, hlength⟩]

theorem parse_chunk (htype : byteAt payload 2 = 0x05) (hlength : 7 ≤ payload.length) :
    c.parse payload = c.parseChunk payload := by
  unfold CalibrationData.parse
  dsimp only
  rw [htype, if_neg (by omega), if_neg (by omega), if_neg (by omega), if_neg (by omega), if_neg (by omega),
    if_pos ⟨rfl, hlength⟩]

theorem parse_short (htype : byteAt payload 2 = 0x05) (hlength : ¬7 ≤ payload.length) : c.parse payload = c := by
  unfold CalibrationData.parse
  dsimp only
  split
  case isTrue => rfl
  case isFalse =>
    rw [htype, if_neg (by omega), if_neg (by omega), if_neg (by omega), if_neg (by omega), if_neg (by omega)]

/-- The chunks that are kept when a packet tells a number of points. -/
def keptChunks (c : CalibrationData) (n : ℕ) : ℕ → Option (List TcalPoint) :=
  if n ≠ c.tcalNumPoints then fun _ => none else c.tcalChunks

theorem parseChunk_wellFormed {i n : ℕ} {points : List TcalPoint} (h : chunkFields payload = some (i, n, points))
    (hcount : c.tcalStateReceived = true → n = c.tcalNumPoints) :
    c.parse payload = CalibrationData.completeTcal { c with
      tcalNumPoints := n, tcalChunks := update (keptChunks c n) i (some points) } := by
  have htype := chunkFields_subType h
  unfold chunkFields at h
  dsimp only at h
  split at h
  case isFalse => exact nomatch h
  case isTrue hwell =>
    obtain ⟨-, hlength, hpos, hexpected, hvalid⟩ := hwell
    obtain ⟨rfl, hrest⟩ := Prod.mk.inj (Option.some.inj h)
    obtain ⟨rfl, rfl⟩ := Prod.mk.inj hrest
    have hnonzero : u16At payload 4 ≠ 0 := by
      intro hzero
      rw [hzero] at hexpected
      omega
    rw [parse_chunk htype (by omega)]
    unfold CalibrationData.parseChunk keptChunks
    dsimp only
    rw [if_neg (fun hbad => hbad.2 (hcount hbad.1)), if_neg hnonzero, if_neg (by omega), hvalid, if_neg (by decide)]
    split <;> rfl

theorem parseChunk_malformed (h : Malformed payload) (hlength : 7 ≤ payload.length)
    (hcount : c.tcalStateReceived = true → u16At payload 4 = c.tcalNumPoints) :
    c.parse payload =
      let kept := { c with tcalChunks := keptChunks c (u16At payload 4) }
      if u16At payload 4 = 0 then CalibrationData.completeTcal { kept with tcalNumPoints := 0 } else kept := by
  obtain ⟨htype, hfields⟩ := h
  unfold chunkFields at hfields
  dsimp only at hfields
  split at hfields
  case isTrue => exact nomatch hfields
  case isFalse hbad =>
    have hkept : (if u16At payload 4 ≠ c.tcalNumPoints then { c with tcalChunks := fun _ => none } else c) =
        { c with tcalChunks := keptChunks c (u16At payload 4) } := by
      unfold keptChunks
      split <;> rfl
    rw [parse_chunk htype hlength]
    unfold CalibrationData.parseChunk
    dsimp only
    rw [if_neg (fun hbad => hbad.2 (hcount hbad.1)), hkept]
    split
    case isTrue => rfl
    case isFalse =>
    split
    case isTrue => rfl
    case isFalse hfits =>
    split
    case isTrue => rfl
    case isFalse hvalid =>
      rw [not_or, not_or, Classical.not_not] at hfits
      refine absurd ⟨htype, by omega, by omega, hfits.2.1, ?_⟩ hbad
      rwa [Bool.not_eq_true', Bool.not_eq_false] at hvalid

end Packets

/-! ## Every delivery -/

section Delivery

variable {table : List TcalPoint} {payload : List (BitVec 8)} {c : CalibrationData}
  {before : List (List (BitVec 8))}

/-- Only the result is computed. -/
theorem completeTcal_fields (c : CalibrationData) :
    c.completeTcal = { c with
      tcalPoints := c.completeTcal.tcalPoints, tcalComplete := c.completeTcal.tcalComplete } := by
  unfold CalibrationData.completeTcal
  dsimp only
  split
  · split <;> rfl
  · rfl

/-- The old result does not matter. -/
theorem completeTcal_congr (c : CalibrationData) (points : List TcalPoint) (complete : Bool) :
    CalibrationData.completeTcal { c with tcalPoints := points, tcalComplete := complete } = c.completeTcal := rfl

theorem completeTcal_idem (c : CalibrationData) : c.completeTcal.completeTcal = c.completeTcal := by
  rw [completeTcal_fields c, completeTcal_congr, completeTcal_fields c, completeTcal_congr]

/-- What the packets so far leave. -/
structure Holds (table : List TcalPoint) (before : List (List (BitVec 8))) (c : CalibrationData) : Prop where
  state : c.tcalStateReceived = true ↔ StateDelivered table.length before
  started : (StateDelivered table.length before ∨ ∃ i, ChunkDelivered table i before) →
    c.tcalNumPoints = table.length
  fresh : ¬(StateDelivered table.length before ∨ ∃ i, ChunkDelivered table i before) → c.tcalNumPoints = 0
  held : ∀ i, ChunkDelivered table i before → c.tcalChunks i = some (chunkOf table i)
  absent : ∀ i, ¬ChunkDelivered table i before → c.tcalChunks i = none
  settled : c.completeTcal = c

theorem Holds.init : Holds table [] .init where
  state := ⟨fun h => (nomatch h), fun ⟨_, hp, _⟩ => absurd hp List.not_mem_nil⟩
  started := by
    rintro (⟨p, hp, -⟩ | ⟨i, p, hp, -⟩)
    · exact absurd hp List.not_mem_nil
    · exact absurd hp List.not_mem_nil
  fresh _ := rfl
  held i := fun ⟨_, hp, _⟩ => absurd hp List.not_mem_nil
  absent _ _ := rfl
  settled := rfl

/-- A packet of the table keeps the chunks. -/
theorem Holds.keptChunks_eq (h : Holds table before c) : keptChunks c table.length = c.tcalChunks := by
  unfold keptChunks
  split
  case isFalse => rfl
  case isTrue hne =>
    have hnone : ∀ i, ¬ChunkDelivered table i before := fun i hi => hne (h.started (Or.inr ⟨i, hi⟩)).symm
    exact funext fun i => (h.absent i (hnone i)).symm

/-- The state of the packets after a result was computed. -/
theorem Holds.completed {c' : CalibrationData}
    (state : c'.tcalStateReceived = true ↔ StateDelivered table.length (before ++ [payload]))
    (num : c'.tcalNumPoints = table.length)
    (started : StateDelivered table.length (before ++ [payload]) ∨ ∃ i, ChunkDelivered table i (before ++ [payload]))
    (held : ∀ i, ChunkDelivered table i (before ++ [payload]) → c'.tcalChunks i = some (chunkOf table i))
    (absent : ∀ i, ¬ChunkDelivered table i (before ++ [payload]) → c'.tcalChunks i = none) :
    Holds table (before ++ [payload]) c'.completeTcal := by
  have hidem := completeTcal_idem c'
  have hfields := completeTcal_fields c'
  refine ⟨?_, fun _ => ?_, fun hnot => absurd started hnot, fun i hi => ?_, fun i hi => ?_, hidem⟩
  · rw [hfields]; exact state
  · rw [hfields]; exact num
  · rw [hfields]; exact held i hi
  · rw [hfields]; exact absent i hi

theorem Holds.parse_state (h : Holds table before c) (hp : IsState table.length payload) :
    Holds table (before ++ [payload]) (c.parse payload) := by
  have hnew : StateDelivered table.length (before ++ [payload]) := stateDelivered_snoc.mpr (Or.inr hp)
  have hnot : ∀ i, ¬IsChunk table i payload := fun i hi => by
    have htype := (chunkFields_subType hi).symm.trans hp.1
    exact absurd htype (by decide)
  have hsame : ∀ i, ChunkDelivered table i (before ++ [payload]) ↔ ChunkDelivered table i before := fun i =>
    chunkDelivered_snoc.trans (or_iff_left (hnot i))
  have hchunks := h.keptChunks_eq
  rw [Calibration.parse_state hp, CalibrationData.parseState, hp.2.2]
  have hreceived : true = true ↔ StateDelivered table.length (before ++ [payload]) := ⟨fun _ => hnew, fun _ => rfl⟩
  refine Holds.completed hreceived rfl (Or.inl hnew) (fun i hi => ?_) fun i hi => ?_
  · show keptChunks c table.length i = _
    rw [hchunks]
    exact h.held i ((hsame i).mp hi)
  · show keptChunks c table.length i = _
    rw [hchunks]
    exact h.absent i (mt (hsame i).mpr hi)

theorem Holds.parse_chunk (h : Holds table before c) {i : ℕ} (hp : IsChunk table i payload) :
    Holds table (before ++ [payload]) (c.parse payload) := by
  have hnot : ¬IsState table.length payload := fun hstate => by
    have htype := (chunkFields_subType hp).symm.trans hstate.1
    exact absurd htype (by decide)
  have hstate : StateDelivered table.length (before ++ [payload]) ↔ StateDelivered table.length before :=
    stateDelivered_snoc.trans (or_iff_left hnot)
  have hnew : ChunkDelivered table i (before ++ [payload]) := chunkDelivered_snoc.mpr (Or.inr hp)
  have hcount : c.tcalStateReceived = true → table.length = c.tcalNumPoints := fun hreceived =>
    (h.started (Or.inl (h.state.mp hreceived))).symm
  rw [parseChunk_wellFormed hp hcount, h.keptChunks_eq]
  have hother : ∀ j, j ≠ i → (ChunkDelivered table j (before ++ [payload]) ↔ ChunkDelivered table j before) := by
    intro j hj
    refine chunkDelivered_snoc.trans (or_iff_left fun hpj => hj ?_)
    exact (Prod.mk.inj (Option.some.inj (hpj.symm.trans hp))).1
  refine Holds.completed (h.state.trans hstate.symm) rfl (Or.inr ⟨i, hnew⟩) (fun j hj => ?_) fun j hj => ?_
  · show update c.tcalChunks i (some (chunkOf table i)) j = _
    by_cases hji : j = i
    · subst hji
      rw [update_self]
    · rw [update_of_ne hji]
      exact h.held j ((hother j hji).mp hj)
  · show update c.tcalChunks i (some (chunkOf table i)) j = _
    have hji : j ≠ i := by
      rintro rfl
      exact hj hnew
    rw [update_of_ne hji]
    exact h.absent j (mt (hother j hji).mpr hj)

/-- A chunk packet that is not well formed changes nothing. -/
theorem Holds.parse_malformed (h : Holds table before c) (hp : Malformed payload)
    (hkeeps : KeepsChunks table before payload) : c.parse payload = c := by
  by_cases hlength : 7 ≤ payload.length
  case neg => exact parse_short hp.1 hlength
  case pos =>
  by_cases hother : c.tcalStateReceived = true ∧ u16At payload 4 ≠ c.tcalNumPoints
  case pos =>
    rw [Calibration.parse_chunk hp.1 hlength]
    unfold CalibrationData.parseChunk
    dsimp only
    rw [if_pos hother]
  case neg =>
    have hcount : c.tcalStateReceived = true → u16At payload 4 = c.tcalNumPoints := fun hreceived => by
      by_contra hne
      exact hother ⟨hreceived, hne⟩
    have hkept : keptChunks c (u16At payload 4) = c.tcalChunks := by
      by_cases htable : u16At payload 4 = table.length
      · rw [htable, h.keptChunks_eq]
      · rcases hkeeps hp hlength htable with hstate | hnone
        · unfold keptChunks
          rw [if_neg (not_not.mpr (hcount (h.state.mpr hstate)))]
        · unfold keptChunks
          split
          case isTrue => exact funext fun i => (h.absent i (hnone i)).symm
          case isFalse => rfl
    rw [parseChunk_malformed hp hlength hcount, hkept]
    dsimp only
    split
    case isFalse => rfl
    case isTrue hzero =>
      have hnum : c.tcalNumPoints = 0 := by
        by_cases hdelivered : StateDelivered table.length before ∨ ∃ i, ChunkDelivered table i before
        · rw [h.started hdelivered]
          by_contra hsome
          rcases hkeeps hp hlength (by rw [hzero]; exact Ne.symm hsome) with hstate | hnone
          · have hsame := hcount (h.state.mpr hstate)
            rw [hzero, h.started hdelivered] at hsame
            exact hsome hsame.symm
          · have hstate := hdelivered.resolve_right fun ⟨i, hi⟩ => hnone i hi
            have hsame := hcount (h.state.mpr hstate)
            rw [hzero, h.started hdelivered] at hsame
            exact hsome hsame.symm
        · exact h.fresh hdelivered
      have hunchanged : { c with tcalNumPoints := 0 } = c := by rw [← hnum]
      rw [hunchanged]
      exact h.settled

theorem Holds.parse (h : Holds table before c) (hdelivers : Delivers table payload)
    (hkeeps : KeepsChunks table before payload) : Holds table (before ++ [payload]) (c.parse payload) := by
  rcases hdelivers with hstate | ⟨i, hchunk⟩ | hmalformed
  · exact h.parse_state hstate
  · exact h.parse_chunk hchunk
  · have hnotState : ¬IsState table.length payload := fun hstate => by
      have htype := hmalformed.1.symm.trans hstate.1
      exact absurd htype (by decide)
    have hnotChunk : ∀ i, ¬IsChunk table i payload := fun i hi => by
      exact nomatch hmalformed.2.symm.trans hi
    have hstate : StateDelivered table.length (before ++ [payload]) ↔ StateDelivered table.length before :=
      stateDelivered_snoc.trans (or_iff_left hnotState)
    have hchunk : ∀ i, ChunkDelivered table i (before ++ [payload]) ↔ ChunkDelivered table i before := fun i =>
      chunkDelivered_snoc.trans (or_iff_left (hnotChunk i))
    rw [h.parse_malformed hmalformed hkeeps]
    have hany : (StateDelivered table.length (before ++ [payload]) ∨
          ∃ i, ChunkDelivered table i (before ++ [payload])) ↔
        (StateDelivered table.length before ∨ ∃ i, ChunkDelivered table i before) :=
      or_congr hstate (exists_congr hchunk)
    exact ⟨h.state.trans hstate.symm, fun hd => h.started (hany.mp hd), fun hd => h.fresh (mt hany.mpr hd),
      fun i hi => h.held i ((hchunk i).mp hi), fun i hi => h.absent i (mt (hchunk i).mpr hi), h.settled⟩

/-- The chunks are the table. -/
theorem flatMap_chunkOf (table : List TcalPoint) (n : ℕ) :
    (List.range n).flatMap (chunkOf table) = table.take (2 * n) := by
  induction n with
  | zero => rfl
  | succ n ih =>
    rw [List.range_succ, List.flatMap_append, ih, List.flatMap_cons, List.flatMap_nil, List.append_nil, chunkOf,
      Nat.mul_succ, List.take_add]

/-- The result is there once the STATE packet and every chunk were delivered, and it is the table. -/
theorem Holds.complete_iff (h : Holds table before c) (hvalid : ∀ p ∈ table, isValidTcalPoint p = true)
    (hkeys : (table.map TcalPoint.key).Nodup) :
    (c.tcalComplete = true ↔ StateDelivered table.length before ∧
      ∀ i < (table.length + 1) / 2, ChunkDelivered table i before) ∧
    (c.tcalComplete = true → c.tcalPoints = normalizeTcalPoints table) := by
  have hlength : (normalizeTcalPoints table).length = table.length := (normalize_perm hvalid hkeys).length_eq
  by_cases hstate : StateDelivered table.length before
  case neg =>
    have hreceived : c.tcalStateReceived = false := Bool.eq_false_iff.mpr (mt h.state.mp hstate)
    have hresult : c.completeTcal = { c with tcalPoints := [], tcalComplete := false } := by
      rw [CalibrationData.completeTcal, hreceived]
      rfl
    have hcomplete : c.tcalComplete = false := by
      rw [← h.settled, hresult]
    rw [hcomplete]
    exact ⟨⟨fun hfalse => (nomatch hfalse), fun hall => absurd hall.1 hstate⟩, fun hfalse => nomatch hfalse⟩
  case pos =>
    have hnum := h.started (Or.inl hstate)
    by_cases hall : ∀ i < (table.length + 1) / 2, ChunkDelivered table i before
    case pos =>
      have hready : (c.tcalStateReceived &&
          (List.range ((c.tcalNumPoints + 1) / 2)).all fun i => (c.tcalChunks i).isSome) = true := by
        rw [h.state.mpr hstate, Bool.true_and, List.all_eq_true]
        intro i hi
        rw [h.held i (hall i (by rw [← hnum]; exact List.mem_range.mp hi))]
        rfl
      have hpoints : ((List.range ((c.tcalNumPoints + 1) / 2)).flatMap fun i => (c.tcalChunks i).getD []) = table := by
        have hchunks : ((List.range ((c.tcalNumPoints + 1) / 2)).flatMap fun i => (c.tcalChunks i).getD []) =
            (List.range ((c.tcalNumPoints + 1) / 2)).flatMap (chunkOf table) := by
          refine List.flatMap_congr fun i hi => ?_
          rw [h.held i (hall i (by rw [← hnum]; exact List.mem_range.mp hi)), Option.getD_some]
        rw [hchunks, flatMap_chunkOf, hnum, List.take_of_length_le (by omega)]
      have hresult : c.completeTcal =
          { c with tcalPoints := normalizeTcalPoints table, tcalComplete := true } := by
        unfold CalibrationData.completeTcal
        dsimp only
        rw [if_pos hready, hpoints, if_pos (hlength.trans hnum.symm)]
      have hcomplete : c.tcalComplete = true := by rw [← h.settled, hresult]
      have htable : c.tcalPoints = normalizeTcalPoints table := by rw [← h.settled, hresult]
      exact ⟨⟨fun _ => ⟨hstate, hall⟩, fun _ => hcomplete⟩, fun _ => htable⟩
    case neg =>
      have hmissing : ¬(c.tcalStateReceived &&
          (List.range ((c.tcalNumPoints + 1) / 2)).all fun i => (c.tcalChunks i).isSome) = true := by
        intro hready
        rw [h.state.mpr hstate, Bool.true_and, List.all_eq_true] at hready
        refine hall fun i hi => ?_
        by_contra hnot
        have hsome := hready i (List.mem_range.mpr (by rw [hnum]; exact hi))
        rw [h.absent i hnot] at hsome
        exact nomatch hsome
      have hresult : c.completeTcal = { c with tcalPoints := [], tcalComplete := false } := by
        unfold CalibrationData.completeTcal
        dsimp only
        rw [if_neg hmissing]
      have hcomplete : c.tcalComplete = false := by rw [← h.settled, hresult]
      rw [hcomplete]
      exact ⟨⟨fun hfalse => (nomatch hfalse), fun hboth => absurd hboth.2 hall⟩, fun hfalse => nomatch hfalse⟩

/-- A delivery of packets of a table, with chunk packets that are not well formed between them. -/
theorem Holds.foldl (h : Holds table before c) (payloads : List (List (BitVec 8)))
    (hdelivers : ∀ p ∈ payloads, Delivers table p)
    (hkeeps : ∀ earlier p later, payloads = earlier ++ p :: later → KeepsChunks table (before ++ earlier) p) :
    Holds table (before ++ payloads) (payloads.foldl CalibrationData.parse c) := by
  induction payloads generalizing before c with
  | nil => rwa [List.append_nil]
  | cons payload payloads ih =>
    have hfirst : KeepsChunks table before payload := by
      have hnone := hkeeps [] payload payloads rfl
      rwa [List.append_nil] at hnone
    have hnext := ih (h.parse (hdelivers payload List.mem_cons_self) hfirst)
      (fun p hp => hdelivers p (List.mem_cons_of_mem _ hp)) fun earlier p later hsplit => by
        have hlater := hkeeps (payload :: earlier) p later (by rw [hsplit]; rfl)
        rwa [List.append_cons] at hlater
    rwa [List.append_cons]

end Delivery

/-! ## What is asked for -/

namespace CollectorMetadata

theorem missingMask_eq_zero (s : CollectorMetadata) : s.missingMask = 0 ↔
    s.cal.accelBAinv.isNone = false ∧ (s.metadata.magId != 0 && s.cal.magBAinv.isNone) = false ∧
      s.cal.gyroBias.isNone = false := by
  unfold missingMask
  cases s.cal.accelBAinv.isNone <;> cases (s.metadata.magId != 0 && s.cal.magBAinv.isNone) <;>
    cases s.cal.gyroBias.isNone <;> decide

/-- The temperature calibration has a bit of its own. -/
theorem missingMask_points (s : CollectorMetadata) : s.missingMask &&& metaMaskTcalPoints = 0 := by
  unfold missingMask
  cases s.cal.accelBAinv.isNone <;> cases (s.metadata.magId != 0 && s.cal.magBAinv.isNone) <;>
    cases s.cal.gyroBias.isNone <;> decide

/-- Nothing is asked for exactly when the metadata is complete. -/
theorem metadataComplete_iff (s : CollectorMetadata) :
    s.metadataComplete = true ↔ s.missingMetadataRequest = none := by
  have hmask := s.missingMask_eq_zero
  unfold metadataComplete missingMetadataRequest
  dsimp only
  cases s.metadata.received with
  | false => exact ⟨fun h => (nomatch h), fun h => (nomatch h)⟩
  | true =>
    cases s.cal.tcalComplete <;> cases s.cal.tcalStateReceived
    case true.true =>
      by_cases hzero : s.missingMask = 0
      case pos =>
        obtain ⟨haccel, hmag, hgyro⟩ := hmask.mp hzero
        rw [haccel, hgyro, hmag, hzero]
        exact ⟨fun _ => rfl, fun _ => rfl⟩
      case neg =>
        -- something is missing, and the mask names it
        refine ⟨fun h => absurd (hmask.mpr ?_) hzero, fun h => ?_⟩
        · split at h
          case isTrue => exact nomatch h
          case isFalse hboth =>
          split at h
          case isTrue => exact nomatch h
          case isFalse hmag =>
            rw [Bool.not_true, Bool.false_or, Bool.or_eq_true, not_or] at hboth
            exact ⟨Bool.eq_false_iff.mpr hboth.1, Bool.eq_false_iff.mpr hmag, Bool.eq_false_iff.mpr hboth.2⟩
        · change (if s.missingMask ≠ 0 then some (s.missingMask, 255) else none) = none at h
          rw [if_pos hzero] at h
          exact nomatch h
    all_goals
      refine ⟨fun h => ?_, fun h => (nomatch h)⟩
      split at h
      · exact nomatch h
      · split at h
        · exact nomatch h
        · exact nomatch h

/-- A request for a chunk is for the lowest one that is missing. -/
theorem missing_chunk (s : CollectorMetadata) {mask chunk : ℕ}
    (h : s.missingMetadataRequest = some (mask, chunk)) (hpoints : s.cal.tcalNumPoints ≠ 0)
    (htcal : mask &&& metaMaskTcalPoints ≠ 0) :
    if ∃ i < (s.cal.tcalNumPoints + 1) / 2, s.cal.tcalChunks i = none then
      chunk < (s.cal.tcalNumPoints + 1) / 2 ∧ s.cal.tcalChunks chunk = none ∧
        ∀ i < chunk, s.cal.tcalChunks i ≠ none
    else chunk = 255 := by
  unfold missingMetadataRequest at h
  dsimp only at h
  split at h
  case isTrue =>
    obtain ⟨rfl, -⟩ := Prod.mk.inj (Option.some.inj h)
    exact absurd rfl htcal
  case isFalse =>
  split at h
  case isFalse =>
    split at h
    case isTrue =>
      obtain ⟨rfl, -⟩ := Prod.mk.inj (Option.some.inj h)
      exact absurd s.missingMask_points htcal
    case isFalse => exact nomatch h
  case isTrue =>
    have hrequest := Option.some.inj h
    unfold tcalRequest at hrequest
    dsimp only at hrequest
    rw [if_pos hpoints] at hrequest
    split at hrequest
    case h_1 first hfirst =>
      obtain ⟨-, rfl⟩ := Prod.mk.inj hrequest
      obtain ⟨hnone, hrange, hbefore⟩ := List.find?_range_eq_some.mp hfirst
      have hmissing : s.cal.tcalChunks first = none := Option.isNone_iff_eq_none.mp hnone
      have hlt : first < (s.cal.tcalNumPoints + 1) / 2 := List.mem_range.mp hrange
      rw [if_pos ⟨first, hlt, hmissing⟩]
      refine ⟨hlt, hmissing, fun i hi hnot => ?_⟩
      have hheld := hbefore i hi
      rw [hnot] at hheld
      exact nomatch hheld
    case h_2 hall =>
      obtain ⟨-, rfl⟩ := Prod.mk.inj hrequest
      rw [if_neg]
      rintro ⟨i, hi, hnone⟩
      have hheld := List.find?_range_eq_none.mp hall i hi
      rw [hnone] at hheld
      exact nomatch hheld

end CollectorMetadata

/-! ## The theorem -/

/-- **Reassembly.** When the STATE packet and the chunks of a table of valid points with different keys are delivered,
in any order and any number of times, with chunk packets that are not well formed between them, the table is complete
once all of them were delivered, and it is sorted by temperature, unless a chunk packet that is not well formed tells
another number of points after the first chunk and before the STATE packet, or a negative temperature that is written as
zero comes after a positive one. At any time nothing is asked for exactly when the metadata is complete, and the chunk
that is asked for is the lowest one that is missing. -/
theorem calibration_reassembled (table : List TcalPoint) (payloads : List (List (BitVec 8)))
    (packets : List (Bool × List (BitVec 8))) :
    ((∀ p ∈ table, isValidTcalPoint p = true) → (table.map TcalPoint.key).Nodup → ZerosOrdered table →
      (∀ p ∈ payloads, Delivers table p) →
      (∀ earlier p later, payloads = earlier ++ p :: later → KeepsChunks table earlier p) →
      let c := payloads.foldl CalibrationData.parse .init
      (c.tcalComplete = true ↔ StateDelivered table.length payloads ∧
        ∀ i < (table.length + 1) / 2, ChunkDelivered table i payloads) ∧
      (c.tcalComplete = true →
        c.tcalPoints.Perm table ∧ c.tcalPoints.Pairwise fun p q => value p.temp ≤ value q.temp)) ∧
    let s := packets.foldl CollectorMetadata.receive .init
    (s.metadataComplete = true ↔ s.missingMetadataRequest = none) ∧
    ∀ mask chunk, s.missingMetadataRequest = some (mask, chunk) → s.cal.tcalNumPoints ≠ 0 →
      mask &&& metaMaskTcalPoints ≠ 0 →
      if ∃ i < (s.cal.tcalNumPoints + 1) / 2, s.cal.tcalChunks i = none then
        chunk < (s.cal.tcalNumPoints + 1) / 2 ∧ s.cal.tcalChunks chunk = none ∧
          ∀ i < chunk, s.cal.tcalChunks i ≠ none
      else chunk = 255 := by
  refine ⟨fun hvalid hkeys hzeros hdelivers hkeeps => ?_, ?_, ?_⟩
  · obtain ⟨hcomplete, hpoints⟩ := (Holds.init.foldl payloads hdelivers hkeeps).complete_iff hvalid hkeys
    refine ⟨hcomplete, fun htrue => ?_⟩
    rw [hpoints htrue]
    exact ⟨normalize_perm hvalid hkeys, normalize_sorted hvalid hkeys hzeros⟩
  · exact CollectorMetadata.metadataComplete_iff _
  · exact fun mask chunk => CollectorMetadata.missing_chunk _

/-- Three points, at 21, 20 and 22 degrees. -/
def sampleTable : List TcalPoint := [⟨0x41a80000, 0, 0, 0⟩, ⟨0x41a00000, 0, 0, 0⟩, ⟨0x41b00000, 0, 0, 0⟩]

/-- A chunk packet with points. -/
def chunkPacket (chunkIdx totalCount count : BitVec 8) (points : List TcalPoint) : List (BitVec 8) :=
  [0x14, 0x00, 0x05, chunkIdx, totalCount, 0x00, count] ++ points.flatMap fun p => p.floats.flatMap le32Bytes

/-- A STATE packet. -/
def statePacket (totalCount : BitVec 8) : List (BitVec 8) :=
  [0x14, 0x00, 0x04, 0x01, totalCount, 0x00] ++ List.replicate 20 0x00

/-- The chunks and the STATE packet, the last chunk first. -/
def sampleDelivery : List (List (BitVec 8)) :=
  [chunkPacket 1 3 1 (sampleTable.drop 2), statePacket 3, chunkPacket 0 3 2 (sampleTable.take 2)]

theorem sample_reassembled :
    (sampleDelivery.foldl CalibrationData.parse .init).tcalPoints.Perm sampleTable := by
  have hnone : ∀ p ∈ sampleDelivery, byteAt p 2 = 0x05 → chunkFields p ≠ none := by decide +kernel
  have hzero : ∀ p ∈ sampleTable, p.key ≠ (false, 0) := by decide +kernel
  have hdelivers : ∀ p ∈ sampleDelivery, Delivers sampleTable p := by
    intro p hp
    obtain rfl | rfl | rfl : p = chunkPacket 1 3 1 (sampleTable.drop 2) ∨ p = statePacket 3 ∨
        p = chunkPacket 0 3 2 (sampleTable.take 2) := by
      simpa only [sampleDelivery, List.mem_cons, List.not_mem_nil, or_false] using hp
    · exact Or.inr (Or.inl ⟨1, by unfold IsChunk; decide +kernel⟩)
    · exact Or.inl (by unfold IsState; decide +kernel)
    · exact Or.inr (Or.inl ⟨0, by unfold IsChunk; decide +kernel⟩)
  refine (((calibration_reassembled sampleTable sampleDelivery []).1 (by decide +kernel) (by decide +kernel)
    (fun p q hpq hp => absurd hp (hzero p (hpq.subset List.mem_cons_self))) hdelivers
    fun earlier p later hsplit hbad => absurd hbad.2 (hnone p (by rw [hsplit]; simp) hbad.1)).2 ?_).1
  decide +kernel

/-- After the first chunk comes a packet of five points with a wrong count, then the STATE packet and the other
chunk. -/
theorem chunk_lost : ¬∀ (table : List TcalPoint) (payloads : List (List (BitVec 8))), table.length ≤ 512 →
    (∀ p ∈ table, isValidTcalPoint p = true) → (table.map TcalPoint.key).Nodup →
    (∀ p ∈ payloads, Delivers table p) →
    ((payloads.foldl CalibrationData.parse .init).tcalComplete = true ↔ StateDelivered table.length payloads ∧
      ∀ i < (table.length + 1) / 2, ChunkDelivered table i payloads) := by
  intro hclaim
  set payloads := [chunkPacket 0 3 2 (sampleTable.take 2), chunkPacket 0 5 1 [], statePacket 3,
    chunkPacket 1 3 1 (sampleTable.drop 2)] with hpayloads
  have hfirst : IsChunk sampleTable 0 (chunkPacket 0 3 2 (sampleTable.take 2)) := by unfold IsChunk; decide +kernel
  have hlast : IsChunk sampleTable 1 (chunkPacket 1 3 1 (sampleTable.drop 2)) := by unfold IsChunk; decide +kernel
  have hstate : IsState sampleTable.length (statePacket 3) := by unfold IsState; decide +kernel
  have hbad : Malformed (chunkPacket 0 5 1 []) := by unfold Malformed; decide +kernel
  have hdelivers : ∀ p ∈ payloads, Delivers sampleTable p := by
    intro p hp
    rw [hpayloads] at hp
    simp only [List.mem_cons, List.not_mem_nil, or_false] at hp
    rcases hp with rfl | rfl | rfl | rfl
    · exact Or.inr (Or.inl ⟨0, hfirst⟩)
    · exact Or.inr (Or.inr hbad)
    · exact Or.inl hstate
    · exact Or.inr (Or.inl ⟨1, hlast⟩)
  have hcomplete := (hclaim sampleTable payloads (by decide) (by decide +kernel) (by decide +kernel) hdelivers).mpr
    ⟨⟨_, by simp [hpayloads], hstate⟩, fun i hi => by
      obtain rfl | rfl : i = 0 ∨ i = 1 := by
        have hlength : sampleTable.length = 3 := rfl
        omega
      · exact ⟨_, by simp [hpayloads], hfirst⟩
      · exact ⟨_, by simp [hpayloads], hlast⟩⟩
  have hincomplete : (payloads.foldl CalibrationData.parse .init).tcalComplete = false := by decide +kernel
  rw [hincomplete] at hcomplete
  exact nomatch hcomplete

end Calibration

end SlimeReceiver
