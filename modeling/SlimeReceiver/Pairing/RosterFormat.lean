import SlimeReceiver.Library.Bytes
import SlimeReceiver.Tdma.Roster

/-! # The roster in flash

`connection/tracker_roster.c`: the record of the roster, and the keys it replaces.

* **`Flash`**, **`sysReadChecked`** — the non-volatile store and one read of it.
* **`rosterRecord`** — the record `tracker_roster_save` writes.
* **`trackerRosterLoad`** — `tracker_roster_load`, the migration of the old keys included.
* **`roster_format`** — what is saved, loaded and migrated. -/

namespace SlimeReceiver

open Function (update update_self update_of_ne)

/-! ## Storage -/

/-- The records of the non-volatile store. -/
abbrev Flash := ℕ → Option (List (BitVec 8))

/-- The key `STORED_TRACKERS`. -/
def storedTrackersKey : ℕ := 1
/-- The key `STORED_ADDR_0`. -/
def storedAddr0Key : ℕ := 3
/-- The key `TRACKER_ROSTER`. -/
def trackerRosterKey : ℕ := 260

/-- What a read finds. -/
inductive ReadResult
  /-- `-ENOENT`. -/
  | missing
  /-- Another error. -/
  | failed
  | record (bytes : List (BitVec 8))

/-- `sys_read_checked`, where `fault` tells the keys whose reads fail. -/
def sysReadChecked (fault : ℕ → Bool) (flash : Flash) (key : ℕ) : ReadResult :=
  if fault key then .failed
  else match flash key with
    | none => .missing
    | some bytes => .record bytes

/-! ## Addresses -/

/-- The `n` little-endian bytes of a number. -/
def leBytes (n value : ℕ) : List (BitVec 8) :=
  (List.range n).map fun j => BitVec.ofNat 8 (value >>> (8 * j))

/-- The number of `n` little-endian bytes from a place on. -/
def leNumber (n : ℕ) (bytes : List (BitVec 8)) (start : ℕ) : ℕ :=
  (List.range n).foldl (fun value j => value ||| (bytes.getD (start + j) 0).toNat <<< (8 * j)) 0

/-! ## The record -/

/-- `ROSTER_VERSION`. -/
def rosterVersion : BitVec 8 := 1
/-- `ROSTER_ADDRESS_BYTES`. -/
def rosterAddressBytes : ℕ := 6
/-- `ROSTER_RECORD_BYTES`. -/
def rosterRecordBytes : ℕ := 2 + maxTrackers * rosterAddressBytes

/-- The record of a roster; slots from `count` on are zero. -/
def rosterRecord (count : ℕ) (addresses : ℕ → ℕ) : List (BitVec 8) :=
  [rosterVersion, BitVec.ofNat 8 count] ++ (List.range maxTrackers).flatMap fun i =>
    leBytes rosterAddressBytes (if i < count then addresses i else 0)

/-- `tracker_roster_save`: what it returns, and the storage after it. -/
def rosterSave (count : ℕ) (addresses : ℕ → ℕ) (written : Bool) (flash : Flash) :
    Except StoreError Unit × Flash :=
  match trackerRosterSave count addresses written with
  | .error err => (.error err, flash)
  | .ok () => (.ok (), update flash trackerRosterKey (some (rosterRecord count addresses)))

/-- The address of a slot of a record. -/
def recordAddress (bytes : List (BitVec 8)) (i : ℕ) : ℕ :=
  if i < maxTrackers then leNumber rosterAddressBytes bytes (2 + i * rosterAddressBytes) else 0

/-- Why a roster cannot be loaded. -/
inductive LoadError
  /-- `-EINVAL`. -/
  | invalid
  /-- The error of a read. -/
  | read
  /-- The error of the save that ends a migration. -/
  | save (err : StoreError)
  deriving DecidableEq, Repr

/-- A record that is there. -/
def parseRosterRecord (bytes : List (BitVec 8)) : Except LoadError (ℕ × (ℕ → ℕ)) :=
  if bytes.length ≠ rosterRecordBytes ∨ bytes.getD 0 0 ≠ rosterVersion ∨
      maxTrackers < (bytes.getD 1 0).toNat then .error .invalid
  else
    let loadedCount := (bytes.getD 1 0).toNat
    let loaded := recordAddress bytes
    if (List.range maxTrackers).any fun i => decide (loadedCount ≤ i) && loaded i != 0 then .error .invalid
    else if !rosterValid loadedCount loaded then .error .invalid
    else .ok (loadedCount, loaded)

/-! ## The old keys -/

/-- The count of the old keys. -/
def legacyCount (read : ℕ → ReadResult) : Except LoadError ℕ :=
  match read storedTrackersKey with
  | .missing => .ok 0
  | .failed => .error .read
  | .record bytes =>
    if bytes.length ≠ 1 ∨ maxTrackers < (bytes.getD 0 0).toNat then .error .invalid
    else .ok (bytes.getD 0 0).toNat

/-- An address of the old keys. -/
def legacyAddress (read : ℕ → ReadResult) (i : ℕ) : Except LoadError ℕ :=
  match read (storedAddr0Key + i) with
  | .missing => .error .invalid
  | .failed => .error .read
  | .record bytes => if bytes.length ≠ 8 then .error .invalid else .ok (leNumber 8 bytes 0)

/-- The loop over the addresses of the old keys: `i` read so far, `n` to come. -/
def legacyAddresses (read : ℕ → ReadResult) : ℕ → ℕ → (ℕ → ℕ) → Except LoadError (ℕ → ℕ)
  | _, 0, loaded => .ok loaded
  | i, n + 1, loaded =>
    match legacyAddress read i with
    | .error err => .error err
    | .ok address => legacyAddresses read (i + 1) n (update loaded i address)

/-- The roster of the old keys. -/
def legacyRoster (read : ℕ → ReadResult) : Except LoadError (ℕ × (ℕ → ℕ)) :=
  match legacyCount read with
  | .error err => .error err
  | .ok loadedCount =>
    match legacyAddresses read 0 loadedCount fun _ => 0 with
    | .error err => .error err
    | .ok loaded => if !rosterValid loadedCount loaded then .error .invalid else .ok (loadedCount, loaded)

/-- What `tracker_roster_load` fills in for its caller. -/
structure RosterOut where
  count : ℕ
  addresses : ℕ → ℕ

/-- `tracker_roster_load`: what it returns, what it leaves with its caller, and the storage after it. -/
def trackerRosterLoad (fault : ℕ → Bool) (written : Bool) (flash : Flash) (out : RosterOut) :
    Except LoadError Unit × RosterOut × Flash :=
  match sysReadChecked fault flash trackerRosterKey with
  | .record bytes =>
    match parseRosterRecord bytes with
    | .error err => (.error err, out, flash)
    | .ok (loadedCount, loaded) => (.ok (), ⟨loadedCount, loaded⟩, flash)
  | .failed => (.error .read, out, flash)
  | .missing =>
    match legacyRoster (sysReadChecked fault flash) with
    | .error err => (.error err, out, flash)
    | .ok (loadedCount, loaded) =>
      -- the migration is committed before anything is returned
      match rosterSave loadedCount loaded written flash with
      | (.error err, flash') => (.error (.save err), out, flash')
      | (.ok (), flash') => (.ok (), ⟨loadedCount, loaded⟩, flash')

/-! ## Numbers and their bytes -/

section Numbers

variable {n value start i j : ℕ} {bytes : List (BitVec 8)}

theorem leBytes_length (n value : ℕ) : (leBytes n value).length = n := by
  rw [leBytes, List.length_map, List.length_range]

theorem leBytes_getD (h : j < n) (d : BitVec 8) :
    (leBytes n value).getD j d = BitVec.ofNat 8 (value >>> (8 * j)) := by
  have hj : j < (leBytes n value).length := by rwa [leBytes_length]
  rw [List.getD_eq_getElem _ _ hj]
  simp only [leBytes, List.getElem_map, List.getElem_range]

/-- A number has the bits of its bytes. -/
theorem testBit_leNumber (n : ℕ) (bytes : List (BitVec 8)) (start i : ℕ) :
    (leNumber n bytes start).testBit i =
      (decide (i < 8 * n) && (bytes.getD (start + i / 8) 0).getLsbD (i % 8)) := by
  induction n with
  | zero => simp [leNumber]
  | succ n ih =>
    have hstep : leNumber (n + 1) bytes start =
        leNumber n bytes start ||| (bytes.getD (start + n) 0).toNat <<< (8 * n) := by
      rw [leNumber, List.range_succ, List.foldl_append]
      rfl
    rw [hstep, Nat.testBit_or, ih, Nat.testBit_shiftLeft, BitVec.testBit_toNat]
    rcases Nat.lt_trichotomy (i / 8) n with hlt | rfl | hgt
    · have hi : i < 8 * n := by omega
      have hnot : ¬ i ≥ 8 * n := by omega
      have hi' : i < 8 * (n + 1) := by omega
      simp [hi, hnot, hi']
    · have hnot : ¬ i < 8 * (i / 8) := by omega
      have hi : i ≥ 8 * (i / 8) := by omega
      have hi' : i < 8 * (i / 8 + 1) := by omega
      have hmod : i - 8 * (i / 8) = i % 8 := by omega
      simp only [hnot, hi, hi', hmod, decide_false, decide_true, Bool.false_and, Bool.true_and,
        Bool.false_or]
    · have hnot : ¬ i < 8 * n := by omega
      have hi : i ≥ 8 * n := by omega
      have hi' : ¬ i < 8 * (n + 1) := by omega
      have hbyte : (bytes.getD (start + n) 0).getLsbD (i - 8 * n) = false :=
        BitVec.getLsbD_of_ge _ _ (by omega)
      simp only [hnot, hi', hbyte, decide_false, Bool.false_and, Bool.and_false, Bool.or_false]

/-- The bytes of a number read back. -/
theorem leNumber_of_bytes (hvalue : value < 2 ^ (8 * n))
    (hbytes : ∀ j < n, bytes.getD (start + j) 0 = BitVec.ofNat 8 (value >>> (8 * j))) :
    leNumber n bytes start = value := by
  apply Nat.eq_of_testBit_eq
  intro i
  rw [testBit_leNumber]
  by_cases hi : i < 8 * n
  · have hdiv : 8 * (i / 8) + i % 8 = i := Nat.div_add_mod i 8
    rw [hbytes (i / 8) (by omega), BitVec.getLsbD_ofNat, Nat.testBit_shiftRight, hdiv]
    have hmod : i % 8 < 8 := Nat.mod_lt _ (by decide)
    simp [hi, hmod]
  · have hpow : value < 2 ^ i := lt_of_lt_of_le hvalue (Nat.pow_le_pow_right (by decide) (by omega))
    rw [Nat.testBit_lt_two_pow hpow]
    simp [hi]

/-- A number has the bytes it was read from. -/
theorem byte_leNumber (h : j < n) :
    BitVec.ofNat 8 (leNumber n bytes start >>> (8 * j)) = bytes.getD (start + j) 0 := by
  apply BitVec.eq_of_getLsbD_eq
  intro i hi
  have hdiv : (8 * j + i) / 8 = j := by omega
  have hmod : (8 * j + i) % 8 = i := by omega
  have hlt : 8 * j + i < 8 * n := by omega
  rw [BitVec.getLsbD_ofNat, Nat.testBit_shiftRight, testBit_leNumber, hdiv, hmod]
  simp [hi, hlt]

/-- An entry of lists of one length put together. -/
theorem getD_flatMap_range {α : Type*} {f : ℕ → List α} {k m : ℕ} (hf : ∀ i, (f i).length = k) (hi : i < m)
    (hj : j < k) (d : α) : ((List.range m).flatMap f).getD (i * k + j) d = (f i).getD j d := by
  have hlength : ∀ m, ((List.range m).flatMap f).length = m * k := by
    intro m
    simp [List.length_flatMap, hf]
  induction m with
  | zero => exact absurd hi (Nat.not_lt_zero _)
  | succ m ih =>
    rw [List.range_succ, List.flatMap_append, List.flatMap_singleton]
    rcases Nat.lt_succ_iff_lt_or_eq.mp hi with hlt | rfl
    · have hin : i * k + j < ((List.range m).flatMap f).length := by
        rw [hlength]
        calc i * k + j < i * k + k := Nat.add_lt_add_left hj _
          _ = (i + 1) * k := (Nat.succ_mul i k).symm
          _ ≤ m * k := Nat.mul_le_mul_right k hlt
      rw [List.getD_append _ _ _ _ hin]
      exact ih hlt
    · rw [List.getD_append_right _ _ _ _ (by rw [hlength]; omega), hlength, Nat.add_sub_cancel_left]

end Numbers

/-! ## Records -/

section Records

variable {count : ℕ} {addresses : ℕ → ℕ} {bytes : List (BitVec 8)} {i j : ℕ}

theorem rosterValid_iff : rosterValid count addresses = true ↔ count ≤ maxTrackers ∧
    (∀ i < count, trackerRosterAddressValid (addresses i) = true) ∧
      ∀ i < count, ∀ j < i, addresses i ≠ addresses j := by
  simp only [rosterValid, Bool.and_eq_true, decide_eq_true_eq, List.all_eq_true, List.mem_range, bne_iff_ne]
  exact ⟨fun ⟨hcount, hall⟩ => ⟨hcount, fun i hi => (hall i hi).1, fun i hi => (hall i hi).2⟩,
    fun ⟨hcount, hvalid, hdistinct⟩ => ⟨hcount, fun i hi => ⟨hvalid i hi, hdistinct i hi⟩⟩⟩

/-- Validity is a matter of the first entries. -/
theorem rosterValid_congr {addresses' : ℕ → ℕ} (h : ∀ i < count, addresses i = addresses' i) :
    rosterValid count addresses = rosterValid count addresses' := by
  rw [Bool.eq_iff_iff, rosterValid_iff, rosterValid_iff]
  refine and_congr_right fun _ => and_congr ?_ ?_
  · exact forall₂_congr fun i hi => by rw [h i hi]
  · exact forall₂_congr fun i hi => forall₂_congr fun j hj => by rw [h i hi, h j (hj.trans hi)]

theorem valid_lt {address : ℕ} (h : trackerRosterAddressValid address = true) : address < 2 ^ 48 := by
  simp only [trackerRosterAddressValid, Bool.and_eq_true, decide_eq_true_eq] at h
  omega

theorem rosterRecord_length (count : ℕ) (addresses : ℕ → ℕ) :
    (rosterRecord count addresses).length = rosterRecordBytes := by
  simp [rosterRecord, rosterRecordBytes, List.length_flatMap, leBytes_length]
  omega

theorem rosterRecord_getD (hi : i < maxTrackers) (hj : j < rosterAddressBytes) :
    (rosterRecord count addresses).getD (2 + i * rosterAddressBytes + j) 0 =
      BitVec.ofNat 8 ((if i < count then addresses i else 0) >>> (8 * j)) := by
  rw [rosterRecord, List.getD_append_right _ _ _ _ (by simp; omega)]
  have hoffset : 2 + i * rosterAddressBytes + j - [rosterVersion, BitVec.ofNat 8 count].length =
      i * rosterAddressBytes + j := by
    simp only [List.length_cons, List.length_nil]
    omega
  rw [hoffset, getD_flatMap_range (fun i => leBytes_length _ _) hi hj, leBytes_getD hj]

theorem rosterRecord_head (count : ℕ) (addresses : ℕ → ℕ) :
    (rosterRecord count addresses).getD 0 0 = rosterVersion ∧
      (rosterRecord count addresses).getD 1 0 = BitVec.ofNat 8 count := ⟨rfl, rfl⟩

/-- The addresses of a saved record. -/
theorem recordAddress_rosterRecord (h : rosterValid count addresses = true) (i : ℕ) :
    recordAddress (rosterRecord count addresses) i = if i < count then addresses i else 0 := by
  obtain ⟨hcount, hvalid, -⟩ := rosterValid_iff.mp h
  unfold recordAddress
  split
  case isTrue hi =>
    refine leNumber_of_bytes ?_ fun j hj => rosterRecord_getD hi hj
    split
    case isTrue hin => exact valid_lt (hvalid i hin)
    case isFalse => exact Nat.two_pow_pos _
  case isFalse hout => rw [if_neg fun hin => hout (hin.trans_le hcount)]

/-- A record with the right head whose tail is zero is the record of its roster. -/
theorem eq_rosterRecord (hlength : bytes.length = rosterRecordBytes) (hversion : bytes.getD 0 0 = rosterVersion)
    (htail : ∀ i, i < maxTrackers → (bytes.getD 1 0).toNat ≤ i → recordAddress bytes i = 0) :
    bytes = rosterRecord (bytes.getD 1 0).toNat (recordAddress bytes) := by
  refine List.ext_getElem (hlength.trans (rosterRecord_length _ _).symm) fun k hk hk' => ?_
  rw [← List.getD_eq_getElem bytes 0 hk, ← List.getD_eq_getElem _ 0 hk']
  match k, hk with
  | 0, _ => exact hversion
  | 1, _ =>
    rw [(rosterRecord_head _ _).2, BitVec.ofNat_toNat, BitVec.setWidth_eq]
  | k + 2, hk =>
    rw [hlength, rosterRecordBytes] at hk
    have hdiv : k + 2 = 2 + k / rosterAddressBytes * rosterAddressBytes + k % rosterAddressBytes := by
      have hmod := Nat.div_add_mod' k rosterAddressBytes
      omega
    have hslot : k / rosterAddressBytes < maxTrackers := by
      unfold rosterAddressBytes at hk ⊢
      omega
    have hbyte : k % rosterAddressBytes < rosterAddressBytes := Nat.mod_lt _ (by decide)
    have haddress : (if k / rosterAddressBytes < (bytes.getD 1 0).toNat then
        recordAddress bytes (k / rosterAddressBytes) else 0) = recordAddress bytes (k / rosterAddressBytes) := by
      split
      case isTrue => rfl
      case isFalse hout => exact (htail _ hslot (not_lt.mp hout)).symm
    rw [hdiv, rosterRecord_getD hslot hbyte, haddress, recordAddress, if_pos hslot, byte_leNumber hbyte]

/-- Which records are accepted, and as what. -/
theorem parseRosterRecord_eq_ok {count : ℕ} {loaded : ℕ → ℕ} :
    parseRosterRecord bytes = .ok (count, loaded) ↔
      bytes = rosterRecord count loaded ∧ rosterValid count loaded = true ∧ ∀ i, count ≤ i → loaded i = 0 := by
  unfold parseRosterRecord
  constructor
  · intro h
    split at h
    · cases h
    rename_i hhead
    simp only [not_or, not_not, not_lt] at hhead
    obtain ⟨hlength, hversion, hcount⟩ := hhead
    dsimp only at h
    split at h
    · cases h
    rename_i htail
    split at h
    · cases h
    rename_i hvalid
    obtain ⟨rfl, rfl⟩ := Prod.mk.inj (Except.ok.inj h)
    have hzero : ∀ i, i < maxTrackers → (bytes.getD 1 0).toNat ≤ i → recordAddress bytes i = 0 := by
      intro i hi hle
      by_contra hne
      refine htail (List.any_eq_true.mpr ⟨i, List.mem_range.mpr hi, ?_⟩)
      rw [Bool.and_eq_true, decide_eq_true_eq, bne_iff_ne]
      exact ⟨hle, hne⟩
    refine ⟨eq_rosterRecord hlength hversion hzero, by simpa using hvalid, fun i hi => ?_⟩
    by_cases hin : i < maxTrackers
    · exact hzero i hin hi
    · rw [recordAddress, if_neg hin]
  · rintro ⟨rfl, hvalid, hzero⟩
    obtain ⟨hcount, -, -⟩ := rosterValid_iff.mp hvalid
    have hbyte : ((rosterRecord count loaded).getD 1 0).toNat = count := by
      rw [(rosterRecord_head _ _).2, BitVec.toNat_ofNat, Nat.mod_eq_of_lt]
      exact lt_of_le_of_lt hcount (by decide)
    have haddress : recordAddress (rosterRecord count loaded) = loaded := by
      funext i
      rw [recordAddress_rosterRecord hvalid]
      split
      case isTrue => rfl
      case isFalse hout => exact (hzero i (not_lt.mp hout)).symm
    have htail : ¬ ((List.range maxTrackers).any fun i => decide (count ≤ i) && loaded i != 0) = true := by
      simp only [List.any_eq_true, not_exists, Bool.and_eq_true, decide_eq_true_eq, bne_iff_ne]
      rintro i ⟨-, hi, hne⟩
      exact hne (hzero i hi)
    rw [rosterRecord_length, (rosterRecord_head _ _).1, hbyte, haddress,
      if_neg (by simpa using hcount), if_neg htail, hvalid]
    rfl

end Records

/-! ## Loading -/

section Loading

variable {read : ℕ → ReadResult} {fault : ℕ → Bool} {written : Bool} {flash flash' : Flash}
  {out out' : RosterOut} {count : ℕ} {addresses loaded : ℕ → ℕ}

/-- The old keys describe a roster. -/
def LegacyDescribes (read : ℕ → ReadResult) (roster : RosterOut) : Prop :=
  (read storedTrackersKey = .missing ∧ roster.count = 0 ∨
      ∃ byte, read storedTrackersKey = .record [byte] ∧ roster.count = byte.toNat) ∧
    (∀ i < roster.count, ∃ bytes, read (storedAddr0Key + i) = .record bytes ∧ bytes.length = 8 ∧
      roster.addresses i = leNumber 8 bytes 0) ∧
    (∀ i, roster.count ≤ i → roster.addresses i = 0) ∧ rosterValid roster.count roster.addresses = true

theorem legacyCount_eq_ok : legacyCount read = .ok count ↔ count ≤ maxTrackers ∧
    (read storedTrackersKey = .missing ∧ count = 0 ∨
      ∃ byte, read storedTrackersKey = .record [byte] ∧ count = byte.toNat) := by
  unfold legacyCount
  cases hread : read storedTrackersKey with
  | missing =>
    constructor
    · intro h
      obtain rfl := Except.ok.inj h
      exact ⟨Nat.zero_le _, .inl ⟨rfl, rfl⟩⟩
    · rintro ⟨-, ⟨-, rfl⟩ | ⟨byte, hbyte, -⟩⟩
      · rfl
      · cases hbyte
  | failed => simp
  | record bytes =>
    constructor
    · intro h
      dsimp only at h
      split at h
      · cases h
      rename_i hhead
      simp only [not_or, not_not, not_lt] at hhead
      obtain ⟨byte, rfl⟩ := List.length_eq_one_iff.mp hhead.1
      obtain rfl := Except.ok.inj h
      exact ⟨hhead.2, .inr ⟨byte, rfl, rfl⟩⟩
    · rintro ⟨hcount, ⟨hmissing, -⟩ | ⟨byte, hbyte, rfl⟩⟩
      · cases hmissing
      · obtain rfl := ReadResult.record.inj hbyte
        dsimp only
        rw [if_neg]
        · rfl
        · rw [not_or, not_not, not_lt]
          exact ⟨rfl, hcount⟩

theorem legacyAddress_eq_ok {i address : ℕ} : legacyAddress read i = .ok address ↔
    ∃ bytes, read (storedAddr0Key + i) = .record bytes ∧ bytes.length = 8 ∧ address = leNumber 8 bytes 0 := by
  unfold legacyAddress
  cases hread : read (storedAddr0Key + i) with
  | missing => simp
  | failed => simp
  | record bytes =>
    constructor
    · intro h
      dsimp only at h
      split at h
      · cases h
      rename_i hlength
      obtain rfl := Except.ok.inj h
      exact ⟨bytes, rfl, not_not.mp hlength, rfl⟩
    · rintro ⟨bytes', hbytes, hlength, rfl⟩
      obtain rfl := ReadResult.record.inj hbytes
      dsimp only
      rw [if_neg (not_not.mpr hlength)]

/-- The loop reads the addresses one after the other and leaves the rest alone. -/
theorem legacyAddresses_eq_ok {i n : ℕ} : legacyAddresses read i n addresses = .ok loaded ↔
    (∀ k, i ≤ k → k < i + n → legacyAddress read k = .ok (loaded k)) ∧
      ∀ k, ¬ (i ≤ k ∧ k < i + n) → loaded k = addresses k := by
  induction n generalizing i addresses with
  | zero =>
    rw [legacyAddresses]
    constructor
    · intro h
      obtain rfl := Except.ok.inj h
      exact ⟨fun k hk hk' => absurd hk' (by omega), fun k _ => rfl⟩
    · rintro ⟨-, hrest⟩
      exact congrArg Except.ok (funext fun k => (hrest k (by omega)).symm)
  | succ n ih =>
    rw [legacyAddresses]
    cases haddress : legacyAddress read i with
    | error err =>
      constructor
      · intro h
        cases h
      · rintro ⟨hread, -⟩
        rw [hread i le_rfl (by omega)] at haddress
        cases haddress
    | ok address =>
      dsimp only
      rw [ih]
      constructor
      · rintro ⟨hread, hrest⟩
        have hfirst : loaded i = address := by
          rw [hrest i (by omega), update_self]
        refine ⟨fun k hk hk' => ?_, fun k hk => ?_⟩
        · rcases hk.eq_or_lt with rfl | hlt
          · rw [haddress, hfirst]
          · exact hread k hlt (by omega)
        · rw [hrest k (by omega), update_of_ne]
          rintro rfl
          exact hk ⟨le_rfl, by omega⟩
      · rintro ⟨hread, hrest⟩
        have hfirst : address = loaded i := by
          have hsame := hread i le_rfl (by omega)
          rw [haddress] at hsame
          exact Except.ok.inj hsame
        refine ⟨fun k hk hk' => hread k (by omega) (by omega), fun k hk => ?_⟩
        by_cases hki : k = i
        · rw [hki, update_self, hfirst]
        · rw [update_of_ne hki]
          exact hrest k (by omega)

theorem legacyRoster_eq_ok : legacyRoster read = .ok (count, loaded) ↔ LegacyDescribes read ⟨count, loaded⟩ := by
  unfold legacyRoster
  constructor
  · intro h
    cases hcount : legacyCount read with
    | error err =>
      rw [hcount] at h
      cases h
    | ok loadedCount =>
      rw [hcount] at h
      dsimp only at h
      cases haddresses : legacyAddresses read 0 loadedCount fun _ => 0 with
      | error err =>
        rw [haddresses] at h
        cases h
      | ok addresses =>
        rw [haddresses] at h
        dsimp only at h
        split at h
        · cases h
        rename_i hvalid
        obtain ⟨rfl, rfl⟩ := Prod.mk.inj (Except.ok.inj h)
        obtain ⟨hread, hrest⟩ := legacyAddresses_eq_ok.mp haddresses
        exact ⟨(legacyCount_eq_ok.mp hcount).2,
          fun i hi => legacyAddress_eq_ok.mp (hread i (Nat.zero_le _) (by rwa [Nat.zero_add])),
          fun i hi => hrest i fun hin => absurd hin.2 (not_lt.mpr (by rwa [Nat.zero_add])), by simpa using hvalid⟩
  · rintro ⟨hkey, hread, hrest, hvalid⟩
    have hcount : legacyCount read = .ok count :=
      legacyCount_eq_ok.mpr ⟨(rosterValid_iff.mp hvalid).1, hkey⟩
    have haddresses : legacyAddresses read 0 count (fun _ => 0) = .ok loaded := by
      refine legacyAddresses_eq_ok.mpr ⟨fun k _ hk => ?_, fun k hk => ?_⟩
      · exact legacyAddress_eq_ok.mpr (hread k (by rwa [Nat.zero_add] at hk))
      · exact hrest k (by show count ≤ k; omega)
    rw [hcount]
    dsimp only
    rw [haddresses]
    dsimp only
    rw [hvalid]
    rfl

theorem rosterSave_eq_ok : rosterSave count addresses written flash = (.ok (), flash') ↔
    rosterValid count addresses = true ∧ written = true ∧
      flash' = update flash trackerRosterKey (some (rosterRecord count addresses)) := by
  unfold rosterSave trackerRosterSave
  cases rosterValid count addresses <;> cases written <;> simp [eq_comm]

/-- A failed save leaves the storage alone. -/
theorem rosterSave_error {err : StoreError} (h : rosterSave count addresses written flash = (.error err, flash')) :
    flash' = flash := by
  unfold rosterSave at h
  split at h
  · exact (Prod.mk.inj h).2.symm
  · cases h

/-- A load that finds a record. -/
theorem load_of_record {bytes : List (BitVec 8)}
    (hread : sysReadChecked fault flash trackerRosterKey = .record bytes) :
    trackerRosterLoad fault written flash out = (.ok (), out', flash') ↔
      bytes = rosterRecord out'.count out'.addresses ∧ rosterValid out'.count out'.addresses = true ∧
        (∀ i, out'.count ≤ i → out'.addresses i = 0) ∧ flash' = flash := by
  unfold trackerRosterLoad
  rw [hread]
  dsimp only
  constructor
  · intro h
    split at h
    · cases h
    rename_i loadedCount loaded hparse
    obtain ⟨-, hrest⟩ := Prod.mk.inj h
    obtain ⟨rfl, rfl⟩ := Prod.mk.inj hrest
    obtain ⟨hbytes, hvalid, hzero⟩ := parseRosterRecord_eq_ok.mp hparse
    exact ⟨hbytes, hvalid, hzero, rfl⟩
  · rintro ⟨hbytes, hvalid, hzero, rfl⟩
    rw [parseRosterRecord_eq_ok.mpr ⟨hbytes, hvalid, hzero⟩]

/-- A load that finds no record. -/
theorem load_of_missing (hread : sysReadChecked fault flash trackerRosterKey = .missing) :
    trackerRosterLoad fault written flash out = (.ok (), out', flash') ↔
      LegacyDescribes (sysReadChecked fault flash) out' ∧ written = true ∧
        flash' = update flash trackerRosterKey (some (rosterRecord out'.count out'.addresses)) := by
  unfold trackerRosterLoad
  rw [hread]
  dsimp only
  constructor
  · intro h
    split at h
    · cases h
    rename_i loadedCount loaded hlegacy
    split at h
    · cases h
    rename_i saved hsave
    obtain ⟨-, hrest⟩ := Prod.mk.inj h
    obtain ⟨rfl, rfl⟩ := Prod.mk.inj hrest
    obtain ⟨-, hwritten, hflash⟩ := rosterSave_eq_ok.mp hsave
    exact ⟨legacyRoster_eq_ok.mp hlegacy, hwritten, hflash⟩
  · rintro ⟨hlegacy, hwritten, hflash⟩
    rw [legacyRoster_eq_ok.mpr hlegacy]
    dsimp only
    rw [rosterSave_eq_ok.mpr ⟨hlegacy.2.2.2, hwritten, hflash⟩]

/-- A failed load leaves its caller's roster and the storage alone. -/
theorem load_error {err : LoadError} (h : trackerRosterLoad fault written flash out = (.error err, out', flash')) :
    out' = out ∧ flash' = flash := by
  unfold trackerRosterLoad at h
  split at h
  · split at h
    · obtain ⟨-, hrest⟩ := Prod.mk.inj h
      obtain ⟨rfl, rfl⟩ := Prod.mk.inj hrest
      exact ⟨rfl, rfl⟩
    · cases h
  · obtain ⟨-, hrest⟩ := Prod.mk.inj h
    obtain ⟨rfl, rfl⟩ := Prod.mk.inj hrest
    exact ⟨rfl, rfl⟩
  · split at h
    · obtain ⟨-, hrest⟩ := Prod.mk.inj h
      obtain ⟨rfl, rfl⟩ := Prod.mk.inj hrest
      exact ⟨rfl, rfl⟩
    · split at h
      · rename_i hsave
        obtain ⟨-, hrest⟩ := Prod.mk.inj h
        obtain ⟨rfl, rfl⟩ := Prod.mk.inj hrest
        exact ⟨rfl, rosterSave_error hsave⟩
      · cases h

/-- What is read after a save. -/
theorem sysReadChecked_saved {record : List (BitVec 8)} (hfault : fault trackerRosterKey = false) :
    sysReadChecked fault (update flash trackerRosterKey (some record)) trackerRosterKey = .record record := by
  rw [sysReadChecked, hfault, if_neg (by decide), update_self]

end Loading

/-- The roster in flash: a saved roster is loaded as it was saved, a record is accepted only if it is the record of
the roster it is loaded as, a failed load changes nothing, and without a record the roster of the old keys is loaded
exactly when its record could be committed. -/
theorem roster_format (fault : ℕ → Bool) (written : Bool) (flash : Flash) (out : RosterOut) :
    (∀ count addresses saved, rosterSave count addresses true flash = (.ok (), saved) →
      fault trackerRosterKey = false → trackerRosterLoad fault written saved out =
        (.ok (), ⟨count, fun i => if i < count then addresses i else 0⟩, saved)) ∧
    (∀ count addresses, rosterValid count addresses = true → ∃ saved,
      rosterSave count addresses true flash = (.ok (), saved)) ∧
    (∀ bytes out' flash', sysReadChecked fault flash trackerRosterKey = .record bytes →
      trackerRosterLoad fault written flash out = (.ok (), out', flash') →
        rosterSave out'.count out'.addresses true flash =
          (.ok (), update flash trackerRosterKey (some bytes)) ∧
        (∀ i, out'.count ≤ i → out'.addresses i = 0) ∧ flash' = flash) ∧
    (∀ err out' flash', trackerRosterLoad fault written flash out = (.error err, out', flash') →
      out' = out ∧ flash' = flash) ∧
    (sysReadChecked fault flash trackerRosterKey = .missing → ∀ out' flash',
      trackerRosterLoad fault written flash out = (.ok (), out', flash') ↔
        LegacyDescribes (sysReadChecked fault flash) out' ∧
          rosterSave out'.count out'.addresses written flash = (.ok (), flash')) := by
  refine ⟨?_, ?_, ?_, fun err out' flash' => load_error, ?_⟩
  · intro count addresses saved hsave hfault
    obtain ⟨hvalid, -, rfl⟩ := rosterSave_eq_ok.mp hsave
    have hsame : rosterValid count (fun i => if i < count then addresses i else 0) =
        rosterValid count addresses := rosterValid_congr fun i hi => if_pos hi
    rw [load_of_record (sysReadChecked_saved hfault)]
    refine ⟨?_, hsame.trans hvalid, fun i hi => if_neg (not_lt.mpr hi), rfl⟩
    have hrecord : ∀ i, (if i < count then (if i < count then addresses i else 0) else 0) =
        if i < count then addresses i else 0 := by
      intro i
      split <;> rfl
    simp only [rosterRecord, hrecord]
  · intro count addresses hvalid
    exact ⟨_, rosterSave_eq_ok.mpr ⟨hvalid, rfl, rfl⟩⟩
  · intro bytes out' flash' hread hload
    obtain ⟨rfl, hvalid, hzero, hflash⟩ := (load_of_record hread).mp hload
    exact ⟨rosterSave_eq_ok.mpr ⟨hvalid, rfl, rfl⟩, hzero, hflash⟩
  · intro hread out' flash'
    rw [load_of_missing hread]
    refine and_congr_right fun hlegacy => ?_
    rw [rosterSave_eq_ok]
    exact ⟨fun h => ⟨hlegacy.2.2.2, h⟩, fun h => h.2⟩

/-- A store with the old keys of one tracker. -/
def oneLegacyTracker : Flash := fun key =>
  if key = storedTrackersKey then some [1]
  else if key = storedAddr0Key then some [0x56, 0x34, 0x12, 0, 0, 0, 0, 0]
  else none

/-- It is migrated when the write succeeds. -/
theorem roster_format_migration : ∃ flash',
    trackerRosterLoad (fun _ => false) true oneLegacyTracker ⟨0, fun _ => 0⟩ =
      (.ok (), ⟨1, update (fun _ => 0) 0 0x123456⟩, flash') ∧
    trackerRosterLoad (fun _ => false) true flash' ⟨0, fun _ => 0⟩ =
      (.ok (), ⟨1, fun i => if i < 1 then update (fun _ => 0) 0 0x123456 i else 0⟩, flash') := by
  have hvalid : rosterValid 1 (update (fun _ => 0) 0 0x123456) = true := by decide
  obtain ⟨-, hsaved, -, -, hlegacy⟩ := roster_format (fun _ => false) true oneLegacyTracker ⟨0, fun _ => 0⟩
  obtain ⟨flash', hsave⟩ := hsaved 1 _ hvalid
  refine ⟨flash', (hlegacy rfl ⟨1, _⟩ flash').mpr ⟨⟨.inr ⟨1, rfl, rfl⟩, ?_, ?_, hvalid⟩, hsave⟩,
    (roster_format (fun _ => false) true oneLegacyTracker ⟨0, fun _ => 0⟩).1 1 _ flash' hsave rfl⟩
  · intro i hi
    obtain rfl := Nat.lt_one_iff.mp hi
    exact ⟨_, rfl, rfl, by decide⟩
  · intro i hi
    show update (fun _ => 0) 0 0x123456 i = 0
    rw [update_of_ne (Nat.one_le_iff_ne_zero.mp hi)]

end SlimeReceiver
