import SlimeReceiver.Ota.HostUpdate
import SlimeReceiver.Ota.SessionLaw
import SlimeReceiver.SelfUpdate.Machine

/-! # What is read of a report

The HID layer passes reports of any length on. The code is run again on a report whose bytes end at its length: a
read at or beyond it stops.

* **`HidReport.byte?`**, **`read?`**, **`strncpy?`**, **`string?`** — reads of a report.
* **`OtaWorld.checkedMicro`**, **`checkedSelf`** — the relay's and the receiver's own handlers with their reads.
* **`RelayInert`**, **`SelfInert`** — no read stops, and a report that is too short changes nothing.
* **`reports_inert_iff`** — which reports are inert. -/

namespace SlimeReceiver.Ota

open OtaWorld SelfUpdate

/-! ## Reads -/

namespace HidReport

/-- A byte of the report. -/
def byte? (report : HidReport) (i : ℕ) : Option (BitVec 8) := if i < report.len then some (report.data i) else none

/-- `n` bytes of it. -/
def read? (report : HidReport) (start : ℕ) : ℕ → Option (List (BitVec 8))
  | 0 => some []
  | n + 1 => (report.byte? start).bind fun b => (report.read? (start + 1) n).map (b :: ·)

/-- `strncpy` of at most `n` bytes. -/
def strncpy? (report : HidReport) (start : ℕ) : ℕ → Option (List (BitVec 8))
  | 0 => some []
  | n + 1 => (report.byte? start).bind fun b => if b = 0 then some [] else (report.strncpy? (start + 1) n).map (b :: ·)

/-- `%s` of a log message; the last byte it may read is the one at the length. -/
def string? (report : HidReport) (start : ℕ) : Option (List (BitVec 8)) :=
  report.strncpy? start (report.len - start + 1)

/-- The reads for `begin_pkt`. -/
def beginFields? (report : HidReport) : Option (List (BitVec 8)) :=
  (report.read? 2 11).bind fun head =>
    (report.strncpy? 13 47).bind fun name =>
      (if 63 ≤ report.len then report.read? 61 2 else some [0, 0]).map fun flash =>
        let at_ := fun k => head.getD k 0
        [esbOtaBeginType, report.data 1] ++ le32Bytes (le32 (at_ 0) (at_ 1) (at_ 2) (at_ 3)) ++
          le32Bytes (le32 (at_ 4) (at_ 5) (at_ 6) (at_ 7)) ++ be16Bytes (be16 (at_ 8) (at_ 9)) ++ [at_ 10] ++
          (name ++ List.replicate (48 - name.length) 0) ++ flash

section Reads

variable {report : HidReport} {start n i : ℕ} {bytes : List (BitVec 8)}

theorem byte?_of_lt (h : i < report.len) : report.byte? i = some (report.data i) := if_pos h

theorem byte?_eq_some {b : BitVec 8} (h : report.byte? i = some b) : i < report.len ∧ b = report.data i := by
  unfold byte? at h
  split at h
  case isTrue hlt => exact ⟨hlt, (Option.some.inj h).symm⟩
  case isFalse => cases h

/-- The bytes from a place on are its own and those from the next place on. -/
theorem map_range_succ (f : ℕ → BitVec 8) (start n : ℕ) : ((List.range (n + 1)).map fun k => f (start + k)) =
    f start :: (List.range n).map fun k => f (start + 1 + k) := by
  rw [List.range_succ_eq_map, List.map_cons, List.map_map, Nat.add_zero]
  refine congrArg (f start :: ·) (List.map_congr_left fun k _ => ?_)
  show f (start + (k + 1)) = f (start + 1 + k)
  rw [Nat.add_assoc, Nat.add_comm 1 k]

theorem read?_of_le (h : start + n ≤ report.len) :
    report.read? start n = some ((List.range n).map fun k => report.data (start + k)) := by
  induction n generalizing start with
  | zero => rfl
  | succ n ih =>
    rw [read?, byte?_of_lt (by omega), Option.bind_some, ih (by omega), Option.map_some, map_range_succ]

/-- A string that ends within the report is copied. -/
theorem strncpy?_of_zero (hle : start ≤ i) (hi : i < report.len) (hzero : report.data i = 0) (n : ℕ) :
    report.strncpy? start n =
      some (((List.range n).map fun k => report.data (start + k)).takeWhile fun b => b != 0) := by
  induction n generalizing start with
  | zero => rfl
  | succ n ih =>
    rw [strncpy?, byte?_of_lt (by omega), Option.bind_some, map_range_succ, List.takeWhile_cons]
    split
    case isTrue hnul =>
      rw [hnul]
      rfl
    case isFalse hnul =>
      have hlt : start < i := by
        refine Nat.lt_of_le_of_ne hle ?_
        rintro rfl
        exact hnul hzero
      rw [if_pos (by simpa using hnul), ih hlt, Option.map_some]

/-- A copy that goes up to the end of the report has found the end of the string. -/
theorem zero_of_strncpy? (h : (report.strncpy? start n).isSome) (hstart : start ≤ report.len)
    (hn : report.len < start + n) : ∃ k, start ≤ k ∧ k < report.len ∧ report.data k = 0 := by
  induction n generalizing start with
  | zero => exact absurd hn (Nat.not_lt.mpr hstart)
  | succ n ih =>
    rw [strncpy?] at h
    cases hbyte : report.byte? start with
    | none =>
      rw [hbyte] at h
      cases h
    | some b =>
      obtain ⟨hlt, rfl⟩ := byte?_eq_some hbyte
      rw [hbyte, Option.bind_some] at h
      split at h
      case isTrue hzero => exact ⟨start, le_rfl, hlt, hzero⟩
      case isFalse =>
        rw [Option.isSome_map] at h
        obtain ⟨k, hk, hrest⟩ := ih h hlt (by omega)
        exact ⟨k, by omega, hrest⟩

/-- What is read for `begin_pkt` is what it is made of. -/
theorem beginFields?_of_zero (hlen : 61 ≤ report.len) (hle : 13 ≤ i) (hi : i < report.len) (hzero : report.data i = 0) :
    report.beginFields? = some report.beginFields := by
  rw [beginFields?, read?_of_le (by omega), Option.bind_some, strncpy?_of_zero hle hi hzero, Option.bind_some]
  unfold beginFields
  split
  case isTrue hflash =>
    rw [read?_of_le (by omega)]
    rfl
  case isFalse => rfl

end Reads

/-- The length of the fields the relay needs of a report: the board name of a BEGIN ends at 61, a DATA has one byte of
firmware. -/
def relayFields (report : HidReport) : ℕ :=
  if report.data 0 = 0xF2 then 61 else if report.data 0 = 0xF3 then 5 else 2

/-- The length of those the receiver needs for its own update. -/
def selfFields (report : HidReport) : ℕ :=
  if report.data 0 = 0xF2 then 64 else if report.data 0 = 0xF3 then 4 else 2

/-- The bytes of the report. -/
def bytes (report : HidReport) : List (BitVec 8) := (List.range report.len).map report.data

/-- A BEGIN for a tracker there can be. -/
def BeginsRelay (report : HidReport) : Prop :=
  2 ≤ report.len ∧ report.data 0 = 0xF2 ∧ report.trackerId < maxTrackers

/-- The report has all fields of a BEGIN, and its board name ends within it. -/
def BeginComplete (report : HidReport) : Prop :=
  61 ≤ report.len ∧ ∃ k, 13 ≤ k ∧ k < report.len ∧ report.data k = 0

/-- `handle_output_report` and the switch of `esb_ota_relay_process_hid`. -/
def dispatched? (report : HidReport) : Option (List Micro) :=
  if report.len = 0 then some []
  else (report.byte? 0).bind fun _ =>
    if report.len < 2 then some [] else (report.byte? 1).map fun _ => relayMicros report

end HidReport

/-! ## The relay -/

/-- The report an entry is about. -/
def Micro.report? : Micro → Option HidReport
  | .admission report | .claim report | .checkActive report | .checkAbort report _ | .lock report _ | .data report
  | .queue _ report => some report
  | _ => none

/-- The type of that report. -/
def Micro.reportType : Micro → BitVec 8
  | .data _ => 0xF3
  | .queue verify _ => if verify then 0xF5 else 0xF6
  | _ => 0xF2

/-- An entry with its reads of the report. -/
def OtaWorld.checkedMicro (thread : ℕ) (env : MicroEnvironment) (s : OtaWorld) (micro : Micro) :
    Option (OtaWorld × List Micro × List OtaEvent) :=
  let done := s.runMicro thread env micro
  match micro with
  | .lock report acquired =>
    report.beginFields?.bind fun _ =>
      match s.relay.admitTarget report env.now acquired with
      | .admitted _ _ => (report.string? 13).map fun _ => done
      | _ => some done
  | .data report =>
    if s.relay.active = false ∨ report.len < 5 then some done
    else (report.read? 2 2).bind fun _ =>
      if otaTxRingSize ≤ s.relay.ringCount then some done
      else (report.read? 4 report.payloadLen).map fun _ => done
  | .queue _ report => (report.byte? 1).map fun _ => done
  | _ => some done

/-- Nothing of the session has changed; expired tombstones may be dropped. -/
structure Untouched (r r' : Relay) : Prop where
  active : r'.active = r.active
  targets : r'.targets = r.targets
  ring : r'.ring = r.ring
  ringHead : r'.ringHead = r.ringHead
  tracker : r'.tracker = r.tracker

/-- In no run a read of the report for the relay stops, and if it is too short it changes nothing. -/
def RelayInert (report : HidReport) : Prop :=
  report.dispatched?.isSome ∧
  ∀ trace s, otaSystem.Run trace s → ∀ thread micro rest, s.threads thread = micro :: rest →
    micro.report? = some report → ∀ env, (s.checkedMicro thread env micro).isSome ∧
      (report.len < report.relayFields → Untouched s.relay (s.runMicro thread env micro).1.relay)

/-- An entry comes from a report of two bytes or more with its type, and with the id of a tracker for a BEGIN. -/
def FromReport (micro : Micro) : Prop :=
  ∀ report, micro.report? = some report → 2 ≤ report.len ∧ report.data 0 = micro.reportType ∧
    (report.data 0 = 0xF2 → report.trackerId < maxTrackers)

section Relay

variable {s : OtaWorld} {thread : ℕ} {env : MicroEnvironment} {micro : Micro} {report : HidReport}

theorem fromReport_of_none (h : micro.report? = none) : FromReport micro := by
  intro report hreport
  rw [h] at hreport
  cases hreport

theorem fromReport_hidMicros (report : HidReport) : ∀ m ∈ hidMicros report, FromReport m := by
  intro m hm
  unfold hidMicros at hm
  split at hm
  case isTrue => cases hm
  case isFalse hlen =>
    split at hm
    case isTrue =>
      split at hm
      case isTrue => cases hm
      case isFalse => exact List.mem_singleton.mp hm ▸ fromReport_of_none rfl
    case isFalse =>
      split at hm
      case isTrue htype =>
        split at hm
        case isTrue => cases hm
        case isFalse hid =>
          obtain rfl := List.mem_singleton.mp hm
          rintro _ ⟨⟩
          exact ⟨not_lt.mp hlen, htype, fun _ => not_le.mp hid⟩
      case isFalse hnot =>
        split at hm
        case isTrue htype =>
          obtain rfl := List.mem_singleton.mp hm
          rintro _ ⟨⟩
          exact ⟨not_lt.mp hlen, htype, fun hbegin => absurd hbegin hnot⟩
        case isFalse =>
          split at hm
          case isTrue htype =>
            obtain rfl := List.mem_singleton.mp hm
            rintro _ ⟨⟩
            exact ⟨not_lt.mp hlen, htype, fun hbegin => absurd hbegin hnot⟩
          case isFalse =>
            split at hm
            case isTrue htype =>
              obtain rfl := List.mem_singleton.mp hm
              rintro _ ⟨⟩
              exact ⟨not_lt.mp hlen, htype, fun hbegin => absurd hbegin hnot⟩
            case isFalse =>
              split at hm
              case isTrue =>
                unfold abortMicros at hm
                split at hm
                case isTrue => exact List.mem_singleton.mp hm ▸ fromReport_of_none rfl
                case isFalse =>
                  split at hm
                  case isTrue => exact List.mem_singleton.mp hm ▸ fromReport_of_none rfl
                  case isFalse => cases hm
              case isFalse => cases hm

theorem fromReport_start (call : Call) : ∀ m ∈ call.start, FromReport m := by
  cases call with
  | hid report => exact fromReport_hidMicros report
  | consoleAbort id =>
    intro m hm
    simp only [Call.start, abortMicros] at hm
    split at hm
    case isTrue => exact List.mem_singleton.mp hm ▸ fromReport_of_none rfl
    case isFalse =>
      split at hm
      case isTrue => exact List.mem_singleton.mp hm ▸ fromReport_of_none rfl
      case isFalse => cases hm
  | consoleInfo id | forget id | status packet =>
    intro m hm
    simp only [Call.start] at hm
    split at hm
    case isTrue => first | exact List.mem_singleton.mp hm ▸ fromReport_of_none rfl | cases hm
    case isFalse => first | exact List.mem_singleton.mp hm ▸ fromReport_of_none rfl | cases hm

/-- What an entry of a BEGIN leads to is about the same report. -/
theorem fromReport_prelude (hprelude : Prelude report micro) (h : FromReport micro) :
    ∀ m ∈ (s.runMicro thread env micro).2.1, FromReport m := by
  have hfacts : 2 ≤ report.len ∧ report.data 0 = 0xF2 ∧ (report.data 0 = 0xF2 → report.trackerId < maxTrackers) := by
    cases hprelude <;> exact h report rfl
  have hstep := (runMicro_prelude s thread env hprelude).2.2
  generalize (s.runMicro thread env micro).2 = next at hstep ⊢
  cases hstep with
  | ended => exact fun m hm => by cases hm
  | goesOn next _ hnext =>
    refine List.forall_mem_singleton.mpr ?_
    cases hnext <;> (rintro _ ⟨⟩; exact hfacts)
  | locks acquired =>
    refine List.forall_mem_singleton.mpr ?_
    rintro _ ⟨⟩
    exact hfacts

/-- What an entry leads to is about the same report, or about none. -/
theorem runMicro_fromReport (h : FromReport micro) : ∀ m ∈ (s.runMicro thread env micro).2.1, FromReport m := by
  have hend : ∀ ended, ∀ m ∈ endMicros ended, FromReport m := by
    intro ended m hm
    cases ended with
    | false => cases hm
    | true => exact List.mem_singleton.mp hm ▸ fromReport_of_none rfl
  have hsends : ∀ (ids : List ℕ) (flag : BitVec 8), ∀ m ∈ ids.map fun id => Micro.send id flag, FromReport m := by
    intro ids flag m hm
    obtain ⟨id, -, rfl⟩ := List.mem_map.mp hm
    exact fromReport_of_none rfl
  cases micro with
  | admission report => exact fromReport_prelude .admission h
  | claim report => exact fromReport_prelude .claim h
  | checkActive report => exact fromReport_prelude .checkActive h
  | checkAbort report i => exact fromReport_prelude (.checkAbort i) h
  | lock report acquired =>
    have hclaim : FromReport (.claim report) := by
      rintro _ ⟨⟩
      exact h report rfl
    rcases runLock_cases s thread report acquired env.now with hrun | ⟨-, hrun⟩ | ⟨first, -, hrun⟩
    · rw [runMicro, hrun]
      intro m hm
      cases acquired with
      | false => cases hm
      | true => exact List.mem_singleton.mp hm ▸ fromReport_of_none rfl
    · rw [runMicro, hrun]
      exact List.forall_mem_singleton.mpr hclaim
    · rw [runMicro, hrun]
      intro m hm
      rcases List.mem_append.mp hm with hm | hm
      · cases first with
        | false => cases hm
        | true => exact List.mem_singleton.mp hm ▸ fromReport_of_none rfl
      · cases acquired with
        | false => cases hm
        | true => exact List.mem_singleton.mp hm ▸ fromReport_of_none rfl
  | suppress | unsuppress => exact hsends _ _
  | release | send _ _ | data _ | queue _ _ => exact fun m hm => by cases hm
  | cancel id => exact List.forall_mem_cons.mpr ⟨fromReport_of_none rfl, hend _⟩
  | cancelAll =>
    intro m hm
    simp only [runMicro, List.mem_append, List.mem_singleton] at hm
    rcases hm with (hsend | hend') | rfl
    · exact hsends _ _ m hsend
    · exact hend _ m hend'
    · exact fromReport_of_none rfl
  | forget id => exact hend _
  | status packet => exact hend _

/-- What the threads still have to do comes from reports. -/
theorem reachable_fromReport (hreach : otaSystem.Reachable s) : ∀ t, ∀ m ∈ s.threads t, FromReport m := by
  refine hreach.invariant (P := fun s => ∀ t, ∀ m ∈ s.threads t, FromReport m) (fun t m hm => by cases hm)
    fun s op s' es hbound htaken t m hm => ?_
  rcases otaStep_cases htaken with ⟨t', call, -, -, rfl, -⟩ | ⟨t', env, micro, rest, -, hthread, rfl, -⟩ |
    ⟨-, -, hthreads, -⟩
  · by_cases hsame : t = t'
    · subst hsame
      simp only [Function.update_self] at hm
      exact fromReport_start call m hm
    · simp only [Function.update_of_ne hsame] at hm
      exact hbound t m hm
  · by_cases hsame : t = t'
    · subst hsame
      simp only [Function.update_self] at hm
      rcases List.mem_append.mp hm with hnew | hrest
      · exact runMicro_fromReport (hbound t micro (hthread ▸ List.mem_cons_self)) m hnew
      · exact hbound t m (hthread ▸ List.mem_cons_of_mem _ hrest)
    · simp only [Function.update_of_ne hsame] at hm
      exact hbound t m hm
  · rw [hthreads] at hm
    exact hbound t m hm

theorem dispatched?_isSome (report : HidReport) : report.dispatched?.isSome := by
  unfold HidReport.dispatched?
  split
  case isTrue => rfl
  case isFalse hlen =>
    rw [HidReport.byte?_of_lt (Nat.pos_of_ne_zero hlen), Option.bind_some]
    split
    case isTrue => rfl
    case isFalse htwo =>
      rw [HidReport.byte?_of_lt (by omega)]
      rfl

/-- Nothing has changed, or a tombstone is dropped. -/
theorem untouched_prelude (hprelude : Prelude report micro) :
    Untouched s.relay (s.runMicro thread env micro).1.relay := by
  obtain ⟨⟨i, now, hsame | hexpired⟩, -, -⟩ := runMicro_prelude s thread env hprelude
  · rw [hsame]
    exact ⟨rfl, rfl, rfl, rfl, rfl⟩
  · rw [hexpired]
    exact ⟨rfl, rfl, rfl, rfl, rfl⟩

/-- A complete BEGIN is read to its end at most. -/
theorem checkedMicro_lock (hcomplete : report.BeginComplete) (acquired : Bool) :
    (s.checkedMicro thread env (.lock report acquired)).isSome := by
  obtain ⟨hlen, k, hk, hlt, hzero⟩ := hcomplete
  have hstring : report.string? 13 = some _ := HidReport.strncpy?_of_zero hk hlt hzero _
  unfold OtaWorld.checkedMicro
  dsimp only
  rw [HidReport.beginFields?_of_zero hlen hk hlt hzero, Option.bind_some, hstring]
  split <;> rfl

variable (s thread env) in
/-- The bytes of a DATA are read up to its length, and one without firmware changes nothing. -/
theorem checkedMicro_data (report : HidReport) : (s.checkedMicro thread env (.data report)).isSome ∧
    (report.len < 5 → Untouched s.relay (s.runMicro thread env (.data report)).1.relay) := by
  constructor
  · unfold OtaWorld.checkedMicro
    dsimp only
    split
    case isTrue => rfl
    case isFalse hlong =>
      rw [not_or, Nat.not_lt] at hlong
      have hpayload : 4 + report.payloadLen ≤ report.len := by
        have hle : report.payloadLen ≤ report.len - otaDataHeaderSize := Nat.min_le_left _ _
        have hheader : otaDataHeaderSize = 4 := rfl
        omega
      rw [HidReport.read?_of_le (by omega), Option.bind_some]
      split
      case isTrue => rfl
      case isFalse =>
        rw [HidReport.read?_of_le hpayload]
        rfl
  · intro hshort
    have hrefused : s.relay.accepts report = false := by
      unfold Relay.accepts
      rw [decide_eq_false (Nat.not_le.mpr hshort), Bool.and_false, Bool.false_and]
    have hsame : s.relay.acceptData report = s.relay := if_neg (by rw [hrefused]; exact Bool.false_ne_true)
    show Untouched s.relay (s.relay.acceptData report)
    rw [hsame]
    exact ⟨rfl, rfl, rfl, rfl, rfl⟩

/-- Reports for the relay are inert unless they are a BEGIN that is not complete. -/
theorem relayInert_of_complete (h : report.BeginsRelay → report.BeginComplete) : RelayInert report := by
  refine ⟨dispatched?_isSome report, fun trace s hrun thread micro rest hthread hreport env => ?_⟩
  obtain ⟨hlen, htype, hid⟩ :=
    reachable_fromReport ⟨trace, hrun⟩ thread micro (hthread ▸ List.mem_cons_self) report hreport
  have hprelude : Prelude report micro → (s.checkedMicro thread env micro) = some (s.runMicro thread env micro) →
      (s.checkedMicro thread env micro).isSome ∧
        (report.len < report.relayFields → Untouched s.relay (s.runMicro thread env micro).1.relay) :=
    fun hprelude hdone => ⟨by rw [hdone]; rfl, fun _ => untouched_prelude hprelude⟩
  cases micro with
  | admission r =>
    obtain rfl : report = r := (Option.some.inj hreport).symm
    exact hprelude .admission rfl
  | claim r =>
    obtain rfl : report = r := (Option.some.inj hreport).symm
    exact hprelude .claim rfl
  | checkActive r =>
    obtain rfl : report = r := (Option.some.inj hreport).symm
    exact hprelude .checkActive rfl
  | checkAbort r i =>
    obtain rfl : report = r := (Option.some.inj hreport).symm
    exact hprelude (.checkAbort i) rfl
  | lock r acquired =>
    obtain rfl : report = r := (Option.some.inj hreport).symm
    have hcomplete := h ⟨hlen, htype, hid htype⟩
    refine ⟨checkedMicro_lock hcomplete acquired, fun hshort => ?_⟩
    have hfields : report.relayFields = 61 := if_pos htype
    have hlong := hcomplete.1
    omega
  | data r =>
    obtain rfl : report = r := (Option.some.inj hreport).symm
    obtain ⟨hreads, hsame⟩ := checkedMicro_data s thread env report
    refine ⟨hreads, fun hshort => hsame ?_⟩
    have hdata : report.data 0 = 0xF3 := htype
    have hfields : report.relayFields = 5 := by
      unfold HidReport.relayFields
      rw [hdata]
      rfl
    exact hfields ▸ hshort
  | queue verify r =>
    obtain rfl : report = r := (Option.some.inj hreport).symm
    refine ⟨?_, fun hshort => ?_⟩
    · unfold OtaWorld.checkedMicro
      dsimp only
      rw [HidReport.byte?_of_lt (by omega)]
      rfl
    · have hfields : report.relayFields = 2 := by
        unfold HidReport.relayFields
        rw [htype]
        cases verify <;> rfl
      omega
  | suppress | release | unsuppress | send _ _ | cancel _ | cancelAll | forget _ | status _ => cases hreport

/-- No session, no tombstone, and one entry left of the call of thread 0. -/
structure AtEntry (micro : Micro) (s : OtaWorld) : Prop where
  reachable : otaSystem.Reachable s
  thread : s.threads 0 = [micro]
  idle : s.relay.active = false
  free : ∀ id, (s.relay.tracker id).participating = false
  targets : s.relay.targets = []
  noAbort : ∀ id, s.relay.abortValid id = false

/-- The loop of a BEGIN over the tombstones gets to every tracker. -/
theorem atEntry_checkAbort {i : ℕ} (hi : i < maxTrackers) (h : ∃ s, AtEntry (.checkAbort report 0) s) :
    ∃ s, AtEntry (.checkAbort report i) s := by
  induction i with
  | zero => exact h
  | succ i ih =>
    obtain ⟨s, hat⟩ := ih (by omega)
    have hpending : s.relay.abortPending i 0 = false := by
      rw [Relay.abortPending, hat.noAbort, Bool.false_and]
    have hrun : s.runMicro 0 ⟨0, 0, false⟩ (.checkAbort report i) =
        ({ s with relay := s.relay.expireAbort i 0 }, [.checkAbort report (i + 1)], []) := by
      simp only [runMicro]
      rw [if_neg (by rw [hpending]; exact Bool.false_ne_true), if_pos hi]
    have hstep : otaSystem.step s (.run 0 ⟨0, 0, false⟩) = some ({ s with
        relay := s.relay.expireAbort i 0
        threads := Function.update s.threads 0 [.checkAbort report (i + 1)] }, []) := by
      show otaStep s (.run 0 ⟨0, 0, false⟩) = _
      simp only [otaStep, hat.thread, hrun]
      rfl
    have hthread : Function.update s.threads 0 [.checkAbort report (i + 1)] 0 = [.checkAbort report (i + 1)] :=
      Function.update_self _ _ _
    refine ⟨_, hat.reachable.step hstep, hthread, hat.idle, hat.free, hat.targets, fun id => ?_⟩
    show Function.update s.relay.abortValid i (s.relay.abortPending i 0) id = false
    by_cases hsame : id = i
    · rw [hsame, Function.update_self, hpending]
    · rw [Function.update_of_ne hsame]
      exact hat.noAbort id

/-- A BEGIN that finds no session gets to its critical section. -/
theorem exists_lock (h : report.BeginsRelay) : ∃ s, AtEntry (.lock report true) s := by
  obtain ⟨hlen, htype, hid⟩ := h
  have hmicros : hidMicros report = [.admission report] := by
    unfold hidMicros
    rw [if_neg (by omega), htype, if_neg (by decide), if_pos rfl, if_neg (by omega)]
  have hcall : otaSystem.Run ([] ++ (.started 0 :: finishEvents 0 (hidMicros report)))
      { OtaWorld.init with threads := Function.update OtaWorld.init.threads 0 (hidMicros report) } :=
    EventSystem.RunWhere.snoc (i := .call 0 (.hid report)) .start trivial rfl
  rw [hmicros] at hcall
  have hprelude : otaSystem.exec
      { OtaWorld.init with threads := Function.update OtaWorld.init.threads 0 [.admission report] }
      (List.replicate 3 (OtaOp.run 0 ⟨0, 0, false⟩)) = some _ := rfl
  obtain ⟨s, hat⟩ := atEntry_checkAbort (i := 15) (by decide) ⟨_, ⟨_, hcall.exec hprelude⟩, rfl, rfl, fun _ => rfl,
    rfl, fun _ => rfl⟩
  have hpending : s.relay.abortPending 15 0 = false := by
    rw [Relay.abortPending, hat.noAbort, Bool.false_and]
  have hrun : s.runMicro 0 ⟨0, 0, false⟩ (.checkAbort report 15) =
      ({ s with relay := s.relay.expireAbort 15 0 }, [.lock report true], [.radioAcquired 0]) := by
    simp only [runMicro]
    rw [if_neg (by rw [hpending]; exact Bool.false_ne_true)]
    rfl
  have hstep : otaSystem.step s (.run 0 ⟨0, 0, false⟩) = some ({ s with
      relay := s.relay.expireAbort 15 0
      threads := Function.update s.threads 0 [.lock report true] }, [.radioAcquired 0]) := by
    show otaStep s (.run 0 ⟨0, 0, false⟩) = _
    simp only [otaStep, hat.thread, hrun]
    rfl
  have hthread : Function.update s.threads 0 [.lock report true] 0 = [.lock report true] := Function.update_self _ _ _
  refine ⟨_, hat.reachable.step hstep, hthread, hat.idle, hat.free, hat.targets, fun id => ?_⟩
  show Function.update s.relay.abortValid 15 (s.relay.abortPending 15 0) id = false
  by_cases hsame : id = 15
  · rw [hsame, Function.update_self, hpending]
  · rw [Function.update_of_ne hsame]
    exact hat.noAbort id

/-- Inert reports are no BEGIN or a complete one. -/
theorem complete_of_relayInert (h : RelayInert report) (hbegin : report.BeginsRelay) : report.BeginComplete := by
  obtain ⟨s, ⟨trace, hrun⟩, hthread, hidle, hfree, hnone, -⟩ := exists_lock hbegin
  obtain ⟨hreads, huntouched⟩ := h.2 trace s hrun 0 _ [] hthread rfl ⟨0, 0, false⟩
  have hadmitted : s.relay.admitTarget report 0 true =
      .admitted true ((s.relay.openSession report).enlist report 0) := by
    unfold Relay.admitTarget
    rw [if_neg (by rw [hnone]; exact fun hfull => absurd hfull.2 (by decide)),
      if_neg (fun hradio => Bool.false_ne_true hradio.2.symm), hidle]
    rfl
  constructor
  · by_contra hshort
    have hfields : report.relayFields = 61 := if_pos hbegin.2.1
    have hactive := (huntouched (by omega)).active
    rw [runMicro, runLock, hadmitted, hidle] at hactive
    cases hactive
  · unfold OtaWorld.checkedMicro at hreads
    dsimp only at hreads
    cases hfields : report.beginFields? with
    | none =>
      rw [hfields] at hreads
      cases hreads
    | some fields =>
      rw [hfields, Option.bind_some, hadmitted] at hreads
      dsimp only at hreads
      rw [Option.isSome_map] at hreads
      by_cases hlong : 13 ≤ report.len
      · exact HidReport.zero_of_strncpy? hreads hlong (by omega)
      · -- a shorter one already stops at its first field
        rw [HidReport.string?, show report.len - 13 + 1 = 1 by omega, HidReport.strncpy?] at hreads
        rw [show report.byte? 13 = none from if_neg (by omega)] at hreads
        cases hreads

end Relay

/-! ## The receiver's own update -/

/-- The reads of `rcv_ota_handle_begin`, and what it comes to. -/
def checkedBegin (answers : BeginAnswers) (report : HidReport) (s done : RcvOta) : Option RcvOta :=
  if s.state = .idle ∧ answers.radioBusy then some done
  else if report.len < 64 then some done
  else if s.state ≠ .idle ∧ s.state ≠ .error ∧ s.state ≠ .complete ∧ ¬ s.writerStopRequested then some done
  else (report.read? 2 11).bind fun _ => (report.read? 13 47).bind fun _ => (report.read? 61 2).map fun _ => done

/-- The reads of `rcv_ota_handle_data`, and what it comes to. -/
def checkedData (report : HidReport) (s done : RcvOta) : Option RcvOta :=
  if s.writerStopRequested ∨ (s.state ≠ .ready ∧ s.state ≠ .receiving) ∨ s.writerError then some done
  else if report.len < 4 then some done
  else (report.read? 2 2).bind fun number =>
    let seq := be16 (number.getD 0 0) (number.getD 1 0)
    if s.imageSize ≤ seq.toNat * SelfUpdate.dataMaxPayload ∨ seq ≠ s.nextExpectedSeq then some done
    else if report.len - 4 < s.payloadLen seq then some done
    else (report.read? 4 (s.payloadLen seq)).map fun _ => done

/-- `receiver_ota_process_hid` with its reads of the report. -/
def checkedSelf (cfg : FlashConfig) (answers : BeginAnswers) (report : HidReport) (s : RcvOta) : Option RcvOta :=
  let done := s.processHid cfg answers report.bytes
  if report.len < 2 then some done
  else (report.byte? 0).bind fun type =>
    if type = 0xF2 then checkedBegin answers report s done
    else if type = 0xF3 then checkedData report s done
    else some done

/-- No read of the report for the receiver itself stops, and if it is too short at most a status or the error of the
writer is due. -/
def SelfInert (report : HidReport) : Prop :=
  report.dispatched?.isSome ∧ ∀ cfg answers s, (checkedSelf cfg answers report s).isSome ∧
    (report.len < report.selfFields → ∃ handler, (handler = s.handler ∨ handler = .status ∨
      handler = .fail .flashError) ∧ s.processHid cfg answers report.bytes = { s with handler := handler })

section Own

variable {cfg : FlashConfig} {answers : BeginAnswers} {report : HidReport} {s : RcvOta}

theorem bytes_length (report : HidReport) : report.bytes.length = report.len := by
  rw [HidReport.bytes, List.length_map, List.length_range]

theorem bytes_getD {i : ℕ} (h : i < report.len) : report.bytes.getD i 0 = report.data i := by
  rw [HidReport.bytes, List.getD_eq_getElem?_getD, List.getElem?_map, List.getElem?_range h]
  rfl

theorem checkedBegin_isSome (answers : BeginAnswers) (report : HidReport) (s done : RcvOta) :
    (checkedBegin answers report s done).isSome := by
  unfold checkedBegin
  split
  case isTrue => rfl
  case isFalse =>
    split
    case isTrue => rfl
    case isFalse hlong =>
      split
      case isTrue => rfl
      case isFalse =>
        rw [HidReport.read?_of_le (by omega), HidReport.read?_of_le (by omega), HidReport.read?_of_le (by omega)]
        rfl

theorem checkedData_isSome (report : HidReport) (s done : RcvOta) : (checkedData report s done).isSome := by
  unfold checkedData
  split
  case isTrue => rfl
  case isFalse =>
    split
    case isTrue => rfl
    case isFalse hlong =>
      rw [HidReport.read?_of_le (by omega), Option.bind_some]
      dsimp only
      split
      case isTrue => rfl
      case isFalse =>
        split
        case isTrue => rfl
        case isFalse hpayload =>
          rw [HidReport.read?_of_le (by omega)]
          rfl

/-- The reads of a report are within it. -/
theorem checkedSelf_isSome (cfg : FlashConfig) (answers : BeginAnswers) (report : HidReport) (s : RcvOta) :
    (checkedSelf cfg answers report s).isSome := by
  unfold checkedSelf
  dsimp only
  generalize s.processHid cfg answers report.bytes = done
  by_cases htwo : report.len < 2
  · rw [if_pos htwo]
    rfl
  · rw [if_neg htwo, HidReport.byte?_of_lt (by omega), Option.bind_some]
    split
    case isTrue => exact checkedBegin_isSome answers report s done
    case isFalse =>
      split
      case isTrue => exact checkedData_isSome report s done
      case isFalse => rfl

/-- Without its fields a DATA leads at most to the error of the writer. -/
theorem handleData_none (cfg : FlashConfig) (s : RcvOta) : ∃ handler, (handler = s.handler ∨ handler = .status ∨
    handler = .fail .flashError) ∧ s.handleData cfg none = { s with handler := handler } := by
  unfold RcvOta.handleData
  split
  case isTrue => exact ⟨s.handler, .inl rfl, rfl⟩
  case isFalse =>
    split
    case isTrue => exact ⟨_, .inr (.inr rfl), rfl⟩
    case isFalse => exact ⟨s.handler, .inl rfl, rfl⟩

/-- Reports for the receiver itself are inert. -/
theorem selfInert (report : HidReport) : SelfInert report := by
  refine ⟨dispatched?_isSome report, fun cfg answers s => ⟨checkedSelf_isSome cfg answers report s, fun hshort => ?_⟩⟩
  unfold RcvOta.processHid
  rw [bytes_length]
  split
  case isTrue => exact ⟨s.handler, .inl rfl, rfl⟩
  case isFalse htwo =>
    have htype : report.bytes.getD 0 0 = report.data 0 := bytes_getD (by omega)
    by_cases hbegin : report.data 0 = 0xF2
    · have hfields : report.selfFields = 64 := if_pos hbegin
      have hparse : parseReport report.bytes = .start none := by
        have hother : report.bytes.getD 0 0 ≠ 0xF0 := by
          rw [htype, hbegin]
          decide
        rw [parseReport, if_neg hother, if_pos (htype.trans hbegin), bytes_length, if_pos (by omega)]
      rw [hparse]
      dsimp only
      split
      case isTrue => exact ⟨_, .inr (.inl rfl), rfl⟩
      case isFalse => exact ⟨s.handler, .inl rfl, rfl⟩
    · by_cases hdata : report.data 0 = 0xF3
      · have hfields : report.selfFields = 4 := by
          rw [HidReport.selfFields, if_neg hbegin, if_pos hdata]
        have hparse : parseReport report.bytes = .data none := by
          have hother : report.bytes.getD 0 0 ≠ 0xF0 ∧ report.bytes.getD 0 0 ≠ 0xF2 := by
            rw [htype, hdata]
            decide
          rw [parseReport, if_neg hother.1, if_neg hother.2, if_pos (htype.trans hdata), bytes_length,
            if_pos (by omega)]
        rw [hparse]
        dsimp only
        split
        case isTrue => exact ⟨_, .inr (.inl rfl), rfl⟩
        case isFalse => exact handleData_none cfg s
      · have hfields : report.selfFields = 2 := by
          rw [HidReport.selfFields, if_neg hbegin, if_neg hdata]
        omega

end Own

/-- No read of the report is at its length or beyond it, and if fields are missing it changes nothing. -/
def HidReport.Inert (report : HidReport) : Prop :=
  if 2 ≤ report.len ∧ report.trackerId = receiverOtaId then SelfInert report else RelayInert report

/-- A report is inert exactly unless it is a BEGIN for a tracker that lacks fields or does not end its board name. -/
theorem reports_inert_iff (report : HidReport) : report.Inert ↔ (report.BeginsRelay → report.BeginComplete) := by
  unfold HidReport.Inert
  split
  case isTrue hself =>
    refine ⟨fun _ hbegin => ?_, fun _ => selfInert report⟩
    have hlt := hbegin.2.2
    rw [hself.2] at hlt
    exact absurd hlt (by decide)
  case isFalse => exact ⟨complete_of_relayInert, relayInert_of_complete⟩

/-- A BEGIN of two bytes, whatever is behind them. -/
def shortBegin : HidReport := ⟨fun k => if k = 0 then 0xF2 else 0, 2⟩

/-- A BEGIN of two bytes is read beyond its end and starts a session. -/
theorem short_begin_not_inert : ¬ ∀ report : HidReport, 1 ≤ report.len → report.len ≤ 64 → 0xF0 ≤ report.data 0 →
    report.data 0 ≤ 0xF7 → report.Inert := by
  intro hinert
  have hrelay : RelayInert shortBegin := by
    have hshort := hinert shortBegin (by decide) (by decide) (by decide) (by decide)
    rwa [HidReport.Inert, if_neg (by decide)] at hshort
  have hcomplete := complete_of_relayInert hrelay ⟨by decide, by decide, by decide⟩
  exact absurd hcomplete.1 (by decide)

end SlimeReceiver.Ota
