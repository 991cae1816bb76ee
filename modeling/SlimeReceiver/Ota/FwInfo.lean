import Mathlib.Logic.Function.Basic
import SlimeReceiver.Library.EventSystem
import SlimeReceiver.Library.History

/-! # Forwarding firmware information

The event interrupt copies a FW_INFO packet into a buffer and submits a work item. The handler sends it to
the host in six chunks, and sleeps in between; it reads the buffer byte by byte, clears the pending flag
when it is done, and takes no lock.

* **`FwInfoWorld`**, **`fwInfoSystem`** — the buffer, the work item, and the steps of the handler.
* **`packetChunks`** — the chunks of a packet; **`Forwarded`**, a handler run has sent them.
* **`fw_info_forwarded`** — packets that are received one at a time are forwarded. -/

namespace SlimeReceiver.Ota

open Function (update)

/-! ## The system -/

/-- Where the handler is. -/
inductive FwInfoHandler
  | idle
  /-- It has found a pending packet. -/
  | checked
  /-- It has read the length. -/
  | measured (len : ℕ)
  /-- It copies the bytes of a chunk. -/
  | copying (len : ℕ) (trackerId : BitVec 8) (chunk : ℕ) (copied : List (BitVec 8))
  /-- The last chunk is sent. -/
  | sent
  deriving DecidableEq

/-- `fw_info_pending` and `fw_info_send_work`. -/
structure FwInfoWorld where
  data : ℕ → BitVec 8
  len : ℕ
  trackerId : BitVec 8
  pending : Bool
  /-- The work item is queued. -/
  queued : Bool
  handler : FwInfoHandler

/-- The zeros after reset. -/
def FwInfoWorld.init : FwInfoWorld where
  data := fun _ => 0
  len := 0
  trackerId := 0
  pending := false
  queued := false
  handler := .idle

/-- The steps. -/
inductive FwInfoOp
  /-- `esb_ota_relay_process_tracker_packet`. -/
  | receive (packet : List (BitVec 8))
  /-- The next step of `fw_info_send_work_handler`. -/
  | work
  /-- `esb_ota_forget_tracker`. -/
  | forget (trackerId : BitVec 8)

/-- The visible events. -/
inductive FwInfoEvent
  | received (packet : List (BitVec 8))
  /-- A handler run has found a pending packet. -/
  | started
  /-- A report to the host. -/
  | chunk (report : List (BitVec 8))
  /-- A handler run is over. -/
  | ended
  | forgotten (trackerId : BitVec 8)
  deriving DecidableEq

/-- `ESB_OTA_FW_INFO_TYPE`. -/
def esbOtaFwInfoType : BitVec 8 := 0x22

/-- `HID_OTA_FW_INFO`. -/
def hidOtaFwInfo : BitVec 8 := 0xF1

/-- `sizeof(fw_info_pending.data)`. -/
def fwInfoSize : ℕ := 66

/-- The chunks of a packet, and the bytes of a chunk. -/
def fwInfoChunks : ℕ := 6

/-- `offset`. -/
def chunkOffset (chunk : ℕ) : ℕ := 2 + chunk * 13

/-- `copy_len`, or nothing behind the end of the packet. -/
def copyLen (len chunk : ℕ) : ℕ := min (len - chunkOffset chunk) 13

/-- `hid_report`. -/
def chunkReport (trackerId : BitVec 8) (chunk : ℕ) (copied : List (BitVec 8)) : List (BitVec 8) :=
  [hidOtaFwInfo, trackerId, BitVec.ofNat 8 chunk] ++ copied ++ List.replicate (13 - copied.length) 0

namespace FwInfoWorld

/-- A FW_INFO packet. -/
def receive (packet : List (BitVec 8)) (s : FwInfoWorld) : FwInfoWorld :=
  { s with
    data := fun k => if k < min packet.length fwInfoSize then packet.getD k 0 else s.data k
    len := min packet.length fwInfoSize
    trackerId := packet.getD 1 0
    pending := true
    queued := true }

/-- The next step of the handler, if there is one. -/
def work (s : FwInfoWorld) : Option (FwInfoWorld × List FwInfoEvent) :=
  match s.handler with
  | .idle =>
    if s.queued = false then none
    else if s.pending then some ({ s with queued := false, handler := .checked }, [.started])
    else some ({ s with queued := false }, [])
  | .checked => some ({ s with handler := .measured s.len }, [])
  | .measured len => some ({ s with handler := .copying len s.trackerId 0 [] }, [])
  | .copying len trackerId chunk copied =>
    if copied.length < copyLen len chunk then
      let byte := s.data (chunkOffset chunk + copied.length)
      some ({ s with handler := .copying len trackerId chunk (copied ++ [byte]) }, [])
    else
      let next := if chunk + 1 < fwInfoChunks then .copying len trackerId (chunk + 1) [] else .sent
      some ({ s with handler := next }, [.chunk (chunkReport trackerId chunk copied)])
  | .sent => some ({ s with pending := false, handler := .idle }, [.ended])

/-- The part of `esb_ota_forget_tracker` that concerns the packet. -/
def forget (trackerId : BitVec 8) (s : FwInfoWorld) : FwInfoWorld :=
  { s with pending := s.pending && s.trackerId != trackerId }

end FwInfoWorld

/-- One step. -/
def fwInfoStep (s : FwInfoWorld) : FwInfoOp → Option (FwInfoWorld × List FwInfoEvent)
  | .receive packet =>
    if 2 ≤ packet.length ∧ packet.getD 0 0 = esbOtaFwInfoType then
      some (s.receive packet, [.received packet])
    else some (s, [])
  | .work => s.work
  | .forget trackerId => some (s.forget trackerId, [.forgotten trackerId])

/-- The forwarding, from its reset. -/
def fwInfoSystem : EventSystem FwInfoWorld FwInfoOp FwInfoEvent where
  init := .init
  step := fwInfoStep

/-! ## Packets -/

/-- The bytes of a chunk of a packet. -/
def packetBytes (packet : List (BitVec 8)) (chunk : ℕ) : List (BitVec 8) :=
  (List.range (copyLen (min packet.length fwInfoSize) chunk)).map fun k => packet.getD (chunkOffset chunk + k) 0

/-- The chunks of a packet. -/
def packetChunks (packet : List (BitVec 8)) : List (List (BitVec 8)) :=
  (List.range fwInfoChunks).map fun chunk => chunkReport (packet.getD 1 0) chunk (packetBytes packet chunk)

/-- A report of a chunk. -/
def FwInfoEvent.report : FwInfoEvent → Option (List (BitVec 8))
  | .chunk report => some report
  | _ => none

/-- The reports of a stretch of the history. -/
def chunkReports (trace : List FwInfoEvent) : List (List (BitVec 8)) := trace.filterMap FwInfoEvent.report

/-- After a packet a handler run starts that sends its chunks. -/
def Forwarded (packet : List (BitVec 8)) (after : List FwInfoEvent) : Prop :=
  ∃ wait run, after = wait ++ FwInfoEvent.started :: run ∧ (chunkReports run).take fwInfoChunks = packetChunks packet

/-- A packet is forwarded, or its tracker forgotten. -/
def Settled (packet : List (BitVec 8)) (after : List FwInfoEvent) : Prop :=
  Forwarded packet after ∨ .forgotten (packet.getD 1 0) ∈ after

/-- Every packet is. -/
def AllSettled (trace : List FwInfoEvent) : Prop :=
  ∀ before packet after, trace = before ++ FwInfoEvent.received packet :: after → Settled packet after

/-- When a handler run is over, it has sent the chunks of one packet. -/
def RunLaw (earlier : List FwInfoEvent) : FwInfoEvent → Prop
  | .ended => ∃ before packet wait run,
      earlier = before ++ FwInfoEvent.received packet :: wait ++ FwInfoEvent.started :: run ∧
      (∀ e ∈ run, e ≠ .started) ∧ chunkReports run = packetChunks packet
  | _ => True

section Packets

variable {packet : List (BitVec 8)} {after es trace : List FwInfoEvent}

theorem Forwarded.append (h : Forwarded packet after) (es : List FwInfoEvent) :
    Forwarded packet (after ++ es) := by
  obtain ⟨wait, run, rfl, hchunks⟩ := h
  refine ⟨wait, run ++ es, by rw [List.append_assoc, List.cons_append], ?_⟩
  have hall : fwInfoChunks ≤ (chunkReports run).length := by
    have hlength := congrArg List.length hchunks
    rw [List.length_take, packetChunks, List.length_map, List.length_range] at hlength
    omega
  have hreports : chunkReports (run ++ es) = chunkReports run ++ chunkReports es := List.filterMap_append
  rw [hreports, List.take_append_of_le_length hall]
  exact hchunks

theorem Settled.append (h : Settled packet after) (es : List FwInfoEvent) : Settled packet (after ++ es) :=
  h.imp (fun hforwarded => hforwarded.append es) (List.mem_append_left _)

/-- Events that receive nothing leave every packet settled. -/
theorem AllSettled.append (h : AllSettled trace) (hes : ∀ packet, .received packet ∉ es) :
    AllSettled (trace ++ es) := by
  intro before packet after heq
  rcases List.append_eq_append_iff.mp heq with ⟨c, -, hes'⟩ | ⟨c, htrace, hafter⟩
  · exact absurd (hes' ▸ List.mem_append_right _ List.mem_cons_self) (hes packet)
  · cases c with
    | nil => exact absurd (List.nil_append es ▸ hafter ▸ List.mem_cons_self) (hes packet)
    | cons e c =>
      obtain ⟨rfl, rfl⟩ := List.cons.inj hafter
      exact (h before packet c htrace).append es

/-- One more packet that is settled. -/
theorem AllSettled.received (h : AllSettled trace) (hafter : ∀ packet, .received packet ∉ after)
    (hpacket : Settled packet after) : AllSettled (trace ++ .received packet :: after) := by
  intro before other later heq
  rcases split_cases heq with ⟨-, hsame, rfl⟩ | ⟨c, -, rfl⟩ | ⟨c, rfl, rfl⟩
  · obtain rfl := FwInfoEvent.received.inj hsame
    exact hpacket
  · exact absurd (List.mem_append_right _ List.mem_cons_self) (hafter other)
  · exact (h before other c rfl).append _

theorem allSettled_nil : AllSettled [] := by
  intro before packet after heq
  simp at heq

theorem packetChunks_length (packet : List (BitVec 8)) : (packetChunks packet).length = fwInfoChunks := by
  rw [packetChunks, List.length_map, List.length_range]

theorem packetBytes_length (packet : List (BitVec 8)) (chunk : ℕ) :
    (packetBytes packet chunk).length = copyLen (min packet.length fwInfoSize) chunk := by
  rw [packetBytes, List.length_map, List.length_range]

end Packets

/-! ## One packet at a time -/

/-- The buffer has a packet. -/
structure Buffered (packet : List (BitVec 8)) (s : FwInfoWorld) : Prop where
  len : s.len = min packet.length fwInfoSize
  trackerId : s.trackerId = packet.getD 1 0
  data : ∀ k < s.len, s.data k = packet.getD k 0

/-- The handler sends a packet and has sent some of its chunks. -/
inductive Sending (packet : List (BitVec 8)) : FwInfoHandler → List (List (BitVec 8)) → Prop
  | checked : Sending packet .checked []
  | measured : Sending packet (.measured (min packet.length fwInfoSize)) []
  | copying (chunk n : ℕ) : chunk < fwInfoChunks → n ≤ copyLen (min packet.length fwInfoSize) chunk →
      Sending packet (.copying (min packet.length fwInfoSize) (packet.getD 1 0) chunk
        ((packetBytes packet chunk).take n)) ((packetChunks packet).take chunk)
  | sent : Sending packet .sent (packetChunks packet)

/-- What becomes of the newest packet. -/
inductive FwInfoState (trace : List FwInfoEvent) (s : FwInfoWorld) : Prop
  | settled : s.handler = .idle → s.pending = false → AllSettled trace → FwInfoState trace s
  | waiting (before : List FwInfoEvent) (packet : List (BitVec 8)) (wait : List FwInfoEvent) :
      s.handler = .idle → s.pending = true → s.queued = true →
      trace = before ++ .received packet :: wait → AllSettled before →
      (∀ other, .received other ∉ wait) → Buffered packet s → FwInfoState trace s
  | running (before : List FwInfoEvent) (packet : List (BitVec 8)) (wait run : List FwInfoEvent) :
      s.handler ≠ .idle → trace = before ++ .received packet :: (wait ++ .started :: run) → AllSettled before →
      (∀ other, .received other ∉ wait ++ .started :: run) → .started ∉ run → Buffered packet s →
      Sending packet s.handler (chunkReports run) → FwInfoState trace s

/-- A FW_INFO packet is received in this step only when no other is pending or being sent. -/
def ReceivedAlone (s : FwInfoWorld) (op : FwInfoOp) : Prop :=
  ∀ packet, op = .receive packet → 2 ≤ packet.length ∧ packet.getD 0 0 = esbOtaFwInfoType →
    s.pending = false ∧ s.handler = .idle

section Steps

variable {packet : List (BitVec 8)} {trace es : List FwInfoEvent} {s s' : FwInfoWorld}

theorem buffered_receive (packet : List (BitVec 8)) (s : FwInfoWorld) : Buffered packet (s.receive packet) :=
  ⟨rfl, rfl, fun _ hk => if_pos hk⟩

theorem Buffered.of_data (h : Buffered packet s) (hdata : s'.data = s.data) (hlen : s'.len = s.len)
    (hid : s'.trackerId = s.trackerId) : Buffered packet s' :=
  ⟨hlen.trans h.len, hid.trans h.trackerId, by rw [hdata, hlen]; exact h.data⟩

/-- A byte of a chunk read from the buffer is a byte of the packet. -/
theorem Buffered.byte (h : Buffered packet s) {chunk n : ℕ}
    (hn : n < copyLen (min packet.length fwInfoSize) chunk) :
    (packetBytes packet chunk).take n ++ [s.data (chunkOffset chunk + n)] =
      (packetBytes packet chunk).take (n + 1) := by
  have hbyte : (packetBytes packet chunk)[n]? = some (s.data (chunkOffset chunk + n)) := by
    rw [packetBytes, List.getElem?_map, List.getElem?_range hn, Option.map_some, h.data]
    rw [h.len]
    rw [copyLen] at hn
    omega
  rw [List.take_add_one, hbyte]
  rfl

/-- The handler of a packet goes on with it. -/
theorem Sending.work {reports : List (List (BitVec 8))} (h : Sending packet s.handler reports)
    (hbuffered : Buffered packet s) (hwork : s.work = some (s', es)) :
    Sending packet s'.handler (reports ++ chunkReports es) ∧ s'.pending = s.pending ∧
        Buffered packet s' ∧ (∀ e ∈ es, ∃ report, e = .chunk report) ∨
      reports = packetChunks packet ∧ s'.handler = .idle ∧ s'.pending = false ∧ es = [.ended] := by
  unfold FwInfoWorld.work at hwork
  generalize hhandler : s.handler = handler at h hwork
  cases h with
  | checked =>
    obtain ⟨rfl, rfl⟩ := Prod.mk.inj (Option.some.inj hwork)
    refine .inl ⟨?_, rfl, hbuffered.of_data rfl rfl rfl, fun e he => by cases he⟩
    show Sending packet (.measured s.len) []
    rw [hbuffered.len]
    exact .measured
  | measured =>
    obtain ⟨rfl, rfl⟩ := Prod.mk.inj (Option.some.inj hwork)
    refine .inl ⟨?_, rfl, hbuffered.of_data rfl rfl rfl, fun e he => by cases he⟩
    show Sending packet (.copying _ s.trackerId 0 []) []
    rw [hbuffered.trackerId]
    exact .copying 0 0 (by decide) (Nat.zero_le _)
  | copying chunk n hchunk hn =>
    have hlength : ((packetBytes packet chunk).take n).length = n := by
      rw [List.length_take, packetBytes_length]
      exact Nat.min_eq_left hn
    simp only [hlength] at hwork
    split at hwork
    case isTrue hless =>
      obtain ⟨rfl, rfl⟩ := Prod.mk.inj (Option.some.inj hwork)
      refine .inl ⟨?_, rfl, hbuffered.of_data rfl rfl rfl, fun e he => by cases he⟩
      show Sending packet (.copying _ _ chunk (_ ++ [_])) (_ ++ [])
      rw [hbuffered.byte hless, List.append_nil]
      exact .copying chunk (n + 1) hchunk hless
    case isFalse hall =>
      obtain ⟨rfl, rfl⟩ := Prod.mk.inj (Option.some.inj hwork)
      -- the chunk is complete
      have hcopied : (packetBytes packet chunk).take n = packetBytes packet chunk :=
        List.take_of_length_le (by rw [packetBytes_length]; omega)
      have hreports : (packetChunks packet).take chunk ++
          chunkReports [.chunk (chunkReport (packet.getD 1 0) chunk ((packetBytes packet chunk).take n))] =
            (packetChunks packet).take (chunk + 1) := by
        rw [hcopied, List.take_add_one, packetChunks, List.getElem?_map, List.getElem?_range hchunk]
        rfl
      refine .inl ⟨?_, rfl, hbuffered.of_data rfl rfl rfl, fun e he => ⟨_, List.mem_singleton.mp he⟩⟩
      rw [hreports]
      show Sending packet (if chunk + 1 < fwInfoChunks then _ else _) _
      split
      case isTrue hmore => exact .copying (chunk + 1) 0 hmore (Nat.zero_le _)
      case isFalse hlast =>
        rw [List.take_of_length_le (by rw [packetChunks_length]; omega)]
        exact .sent
  | sent =>
    obtain ⟨rfl, rfl⟩ := Prod.mk.inj (Option.some.inj hwork)
    exact .inr ⟨rfl, rfl, rfl, rfl⟩

theorem chunkReports_append (trace es : List FwInfoEvent) :
    chunkReports (trace ++ es) = chunkReports trace ++ chunkReports es := List.filterMap_append

/-- The run of a packet has forwarded it. -/
theorem forwarded_run {wait run : List FwInfoEvent} (h : chunkReports run = packetChunks packet) :
    Forwarded packet (wait ++ .started :: run) :=
  ⟨wait, run, rfl, by rw [h, List.take_of_length_le (packetChunks_length packet).le]⟩

/-- A packet that is received alone waits for the handler. -/
theorem FwInfoState.receive (h : FwInfoState trace s) (hpending : s.pending = false)
    (hidle : s.handler = .idle) (packet : List (BitVec 8)) :
    FwInfoState (trace ++ [FwInfoEvent.received packet]) (s.receive packet) := by
  have hsettled : AllSettled trace := by
    cases h with
    | settled _ _ hsettled => exact hsettled
    | waiting _ _ _ _ htrue => exact absurd (hpending.symm.trans htrue) Bool.false_ne_true
    | running _ _ _ _ hbusy => exact absurd hidle hbusy
  exact .waiting trace packet [] hidle rfl rfl rfl hsettled (fun _ hmem => by cases hmem)
    (buffered_receive packet s)

/-- A tracker is forgotten. -/
theorem FwInfoState.forget (h : FwInfoState trace s) (trackerId : BitVec 8) :
    FwInfoState (trace ++ [FwInfoEvent.forgotten trackerId]) (s.forget trackerId) := by
  have hquiet : ∀ packet, FwInfoEvent.received packet ∉ [.forgotten trackerId] := by simp
  cases h with
  | settled hidle hpending hsettled =>
    refine .settled hidle ?_ (hsettled.append hquiet)
    show (s.pending && _) = false
    rw [hpending, Bool.false_and]
  | waiting before packet wait hidle hpending hqueued htrace hsettled hwait hbuffered =>
    have hlater : ∀ other, FwInfoEvent.received other ∉ wait ++ [FwInfoEvent.forgotten trackerId] := fun other hmem =>
      (List.mem_append.mp hmem).elim (hwait other) (hquiet other)
    have htrace' : trace ++ [FwInfoEvent.forgotten trackerId] =
        before ++ .received packet :: (wait ++ [FwInfoEvent.forgotten trackerId]) := by
      rw [htrace, List.append_assoc, List.cons_append]
    by_cases hsame : s.trackerId = trackerId
    · refine .settled hidle ?_ ?_
      · show (s.pending && s.trackerId != trackerId) = false
        rw [hsame, bne_self_eq_false, Bool.and_false]
      · rw [htrace']
        refine hsettled.received hlater (.inr (List.mem_append_right _ ?_))
        rw [← hbuffered.trackerId, hsame]
        exact List.mem_singleton_self _
    · refine .waiting before packet _ hidle ?_ hqueued htrace' hsettled hlater
        (hbuffered.of_data rfl rfl rfl)
      show (s.pending && s.trackerId != trackerId) = true
      rw [hpending, bne_iff_ne.mpr hsame]
      rfl
  | running before packet wait run hbusy htrace hsettled hlater hstarted hbuffered hsending =>
    refine .running before packet wait (run ++ [FwInfoEvent.forgotten trackerId]) hbusy ?_ hsettled
      (fun other hmem => ?_)
      (fun hmem => ?_) (hbuffered.of_data rfl rfl rfl) ?_
    · rw [htrace, List.append_assoc, List.cons_append, List.append_assoc, List.cons_append]
    · rw [← List.cons_append, ← List.append_assoc] at hmem
      exact (List.mem_append.mp hmem).elim (hlater other) (hquiet other)
    · exact (List.mem_append.mp hmem).elim hstarted (by simp)
    · rw [chunkReports_append]
      show Sending packet s.handler (chunkReports run ++ [])
      rw [List.append_nil]
      exact hsending

/-- A step of the handler. -/
theorem FwInfoState.work (h : FwInfoState trace s) (hlaw : EachAfter RunLaw trace)
    (hwork : s.work = some (s', es)) : FwInfoState (trace ++ es) s' ∧ EachAfter RunLaw (trace ++ es) := by
  cases h with
  | settled hidle hpending hsettled =>
    simp only [FwInfoWorld.work, hidle, hpending, Bool.false_eq_true, if_false] at hwork
    split at hwork
    case isTrue => cases hwork
    case isFalse =>
      obtain ⟨rfl, rfl⟩ := Prod.mk.inj (Option.some.inj hwork)
      rw [List.append_nil]
      exact ⟨.settled rfl rfl hsettled, hlaw⟩
  | waiting before packet wait hidle hpending hqueued htrace hsettled hwait hbuffered =>
    simp only [FwInfoWorld.work, hidle, hpending, hqueued, Bool.true_eq_false, if_false, if_true] at hwork
    obtain ⟨rfl, rfl⟩ := Prod.mk.inj (Option.some.inj hwork)
    refine ⟨.running before packet wait [] FwInfoHandler.noConfusion ?_ hsettled (fun other hmem => ?_)
      List.not_mem_nil (hbuffered.of_data rfl rfl rfl) .checked, eachAfter_snoc.mpr ⟨hlaw, trivial⟩⟩
    · rw [htrace, List.append_assoc, List.cons_append]
    · exact (List.mem_append.mp hmem).elim (hwait other) (by simp)
  | running before packet wait run hbusy htrace hsettled hlater hstarted hbuffered hsending =>
    rcases hsending.work hbuffered hwork with ⟨hsending', -, hbuffered', hchunks⟩ | ⟨hall, hidle, hpending, rfl⟩
    · have hquiet : ∀ e ∈ es, (∀ other, e ≠ .received other) ∧ e ≠ .started := by
        intro e he
        obtain ⟨report, rfl⟩ := hchunks e he
        exact ⟨fun _ => FwInfoEvent.noConfusion, FwInfoEvent.noConfusion⟩
      refine ⟨.running before packet wait (run ++ es) ?_ ?_ hsettled (fun other hmem => ?_) (fun hmem => ?_)
        hbuffered' ?_, hlaw.append fun earlier e he => ?_⟩
      · intro hidle
        rw [hidle] at hsending'
        cases hsending'
      · rw [htrace, List.append_assoc, List.cons_append, List.append_assoc, List.cons_append]
      · rw [← List.cons_append, ← List.append_assoc] at hmem
        exact (List.mem_append.mp hmem).elim (hlater other) fun he => (hquiet _ he).1 other rfl
      · exact (List.mem_append.mp hmem).elim hstarted fun he => (hquiet _ he).2 rfl
      · rw [chunkReports_append]
        exact hsending'
      · obtain ⟨report, rfl⟩ := hchunks e he
        exact trivial
    · refine ⟨.settled hidle hpending ?_, eachAfter_snoc.mpr ⟨hlaw, before, packet, wait, run, ?_, ?_, hall⟩⟩
      · rw [htrace]
        exact (hsettled.received hlater (.inl (forwarded_run hall))).append (by simp)
      · rw [htrace, List.append_assoc, List.cons_append]
      · exact fun e he hsame => hstarted (hsame ▸ he)

end Steps

/-! ## Runs -/

/-- Packets that are received alone are settled or on their way. -/
theorem fwInfoState_run {trace : List FwInfoEvent} {s : FwInfoWorld}
    (h : fwInfoSystem.RunWhere ReceivedAlone trace s) : FwInfoState trace s ∧ EachAfter RunLaw trace := by
  induction h with
  | start => exact ⟨.settled rfl rfl allSettled_nil, eachAfter_nil⟩
  | @snoc trace s op s' es _ hok htaken ih =>
    obtain ⟨hstate, hlaw⟩ := ih
    cases op with
    | receive packet =>
      replace htaken : fwInfoStep s (.receive packet) = some (s', es) := htaken
      simp only [fwInfoStep] at htaken
      split at htaken
      case isTrue hvalid =>
        obtain ⟨rfl, rfl⟩ := Prod.mk.inj (Option.some.inj htaken)
        obtain ⟨hpending, hidle⟩ := hok packet rfl hvalid
        exact ⟨hstate.receive hpending hidle packet, eachAfter_snoc.mpr ⟨hlaw, trivial⟩⟩
      case isFalse =>
        obtain ⟨rfl, rfl⟩ := Prod.mk.inj (Option.some.inj htaken)
        rw [List.append_nil]
        exact ⟨hstate, hlaw⟩
    | work => exact hstate.work hlaw htaken
    | forget trackerId =>
      obtain ⟨rfl, rfl⟩ := Prod.mk.inj (Option.some.inj htaken)
      exact ⟨hstate.forget trackerId, eachAfter_snoc.mpr ⟨hlaw, trivial⟩⟩

/-- What is left to the handler. -/
def FwInfoHandler.work : FwInfoHandler → ℕ
  | .idle => 0
  | .checked => 108
  | .measured _ => 107
  | .copying _ _ chunk copied => (fwInfoChunks - chunk) * 15 + (13 - copied.length) + 2
  | .sent => 1

/-- And with the work item. -/
def FwInfoWorld.remaining (s : FwInfoWorld) : ℕ := s.handler.work + if s.queued then 109 else 0

section Progress

variable {s s' : FwInfoWorld} {es : List FwInfoEvent}

/-- Every step of the handler leaves less to be done. -/
theorem work_remaining (h : s.work = some (s', es)) : s'.remaining < s.remaining := by
  unfold FwInfoWorld.work at h
  unfold FwInfoWorld.remaining
  cases hhandler : s.handler with
  | idle =>
    rw [hhandler] at h
    simp only at h
    split at h
    case isTrue => cases h
    case isFalse hqueued =>
      rw [Bool.not_eq_false] at hqueued
      split at h
      case isTrue =>
        obtain ⟨rfl, -⟩ := Prod.mk.inj (Option.some.inj h)
        simp [FwInfoHandler.work, hqueued]
      case isFalse =>
        obtain ⟨rfl, -⟩ := Prod.mk.inj (Option.some.inj h)
        simp [FwInfoHandler.work, hqueued]
  | checked =>
    rw [hhandler] at h
    obtain ⟨rfl, -⟩ := Prod.mk.inj (Option.some.inj h)
    simp [FwInfoHandler.work]
  | measured len =>
    rw [hhandler] at h
    obtain ⟨rfl, -⟩ := Prod.mk.inj (Option.some.inj h)
    simp [FwInfoHandler.work, fwInfoChunks]
  | copying len trackerId chunk copied =>
    rw [hhandler] at h
    simp only at h
    split at h
    case isTrue hmore =>
      obtain ⟨rfl, -⟩ := Prod.mk.inj (Option.some.inj h)
      have hbound : copied.length < 13 := hmore.trans_le (Nat.min_le_right _ _)
      simp only [FwInfoHandler.work, List.length_append, List.length_singleton]
      omega
    case isFalse =>
      obtain ⟨rfl, -⟩ := Prod.mk.inj (Option.some.inj h)
      by_cases hnext : chunk + 1 < fwInfoChunks
      · simp only [if_pos hnext, FwInfoHandler.work, List.length_nil]
        omega
      · simp only [if_neg hnext, FwInfoHandler.work]
        omega
  | sent =>
    rw [hhandler] at h
    obtain ⟨rfl, -⟩ := Prod.mk.inj (Option.some.inj h)
    simp [FwInfoHandler.work]

/-- The handler stops only when it is idle and the work item is not queued. -/
theorem work_none (h : s.work = none) : s.handler = .idle ∧ s.queued = false := by
  unfold FwInfoWorld.work at h
  split at h
  case h_1 hidle =>
    split at h
    case isTrue hqueued => exact ⟨hidle, hqueued⟩
    case isFalse => split at h <;> cases h
  case h_2 => cases h
  case h_3 => cases h
  case h_4 => split at h <;> cases h
  case h_5 => cases h

theorem work_events (h : s.work = some (s', es)) : ∀ trackerId, .forgotten trackerId ∉ es := by
  unfold FwInfoWorld.work at h
  split at h
  case h_1 =>
    split at h
    case isTrue => cases h
    case isFalse =>
      split at h <;>
      · obtain ⟨-, rfl⟩ := Prod.mk.inj (Option.some.inj h)
        simp
  case h_4 =>
    split at h <;>
    · obtain ⟨-, rfl⟩ := Prod.mk.inj (Option.some.inj h)
      simp
  all_goals
    obtain ⟨-, rfl⟩ := Prod.mk.inj (Option.some.inj h)
    simp

/-- When only the handler runs, it comes to its end, and nothing is forgotten. -/
theorem exists_work_run (trace : List FwInfoEvent) (h : fwInfoSystem.RunWhere ReceivedAlone trace s) :
    ∃ n s' es, fwInfoSystem.exec s (List.replicate n FwInfoOp.work) = some (s', es) ∧
      fwInfoSystem.RunWhere ReceivedAlone (trace ++ es) s' ∧ s'.work = none ∧
      ∀ trackerId, .forgotten trackerId ∉ es := by
  induction hn : s.remaining using Nat.strong_induction_on generalizing s trace with
  | h n ih =>
    cases hwork : s.work with
    | none => exact ⟨0, s, [], rfl, by rw [List.append_nil]; exact h, hwork, fun _ => List.not_mem_nil⟩
    | some next =>
      obtain ⟨s₁, es₁⟩ := next
      have htaken : fwInfoSystem.step s .work = some (s₁, es₁) := hwork
      have hrun : fwInfoSystem.RunWhere ReceivedAlone (trace ++ es₁) s₁ :=
        .snoc h (fun packet heq => by cases heq) htaken
      obtain ⟨n', s', es, hexec, hrun', hstop, hforgotten⟩ := ih _ (hn ▸ work_remaining hwork) _ hrun rfl
      refine ⟨n' + 1, s', es₁ ++ es, EventSystem.exec_cons htaken hexec, ?_, hstop, fun trackerId hmem => ?_⟩
      · rw [← List.append_assoc]
        exact hrun'
      · exact (List.mem_append.mp hmem).elim (work_events hwork trackerId) (hforgotten trackerId)

end Progress

/-- In every run whose packets are received one at a time, the chunks of a handler run are those of one
packet, and a packet whose tracker is not forgotten is forwarded as soon as the handler is let to run. -/
theorem fw_info_forwarded {trace : List FwInfoEvent} {s : FwInfoWorld}
    (h : fwInfoSystem.RunWhere ReceivedAlone trace s) :
    EachAfter RunLaw trace ∧
      ∀ before packet after, trace = before ++ .received packet :: after →
        .forgotten (packet.getD 1 0) ∉ after →
          ∃ n s' es, fwInfoSystem.exec s (List.replicate n .work) = some (s', es) ∧
            Forwarded packet (after ++ es) := by
  refine ⟨(fwInfoState_run h).2, fun before packet after htrace hknown => ?_⟩
  obtain ⟨n, s', es, hexec, hrun, hstop, hforgotten⟩ := exists_work_run trace h
  refine ⟨n, s', es, hexec, ?_⟩
  obtain ⟨hidle, hqueued⟩ := work_none hstop
  have hsettled : AllSettled (trace ++ es) := by
    cases (fwInfoState_run hrun).1 with
    | settled _ _ hsettled => exact hsettled
    | waiting _ _ _ _ _ htrue => exact absurd (hqueued.symm.trans htrue) Bool.false_ne_true
    | running _ _ _ _ hbusy => exact absurd hidle hbusy
  have hpacket := hsettled before packet (after ++ es) (by rw [htrace, List.append_assoc, List.cons_append])
  refine hpacket.resolve_right fun hmem => ?_
  exact (List.mem_append.mp hmem).elim hknown (hforgotten _)

/-- The firmware information of a tracker. -/
def fwInfoPacket (trackerId byte : BitVec 8) : List (BitVec 8) := [0x22, trackerId, byte, byte, byte]

/-- A packet is received only when no other is pending or being sent, as a test. -/
def receivedAlone (s : FwInfoWorld) : FwInfoOp → Bool
  | .receive _ => !s.pending && s.handler == .idle
  | _ => true

theorem receivedAlone_of_test (s : FwInfoWorld) (op : FwInfoOp) (h : receivedAlone s op = true) :
    ReceivedAlone s op := by
  rintro packet rfl -
  rw [receivedAlone, Bool.and_eq_true, beq_iff_eq, Bool.not_eq_true'] at h
  exact h

/-- Two trackers, one after the other: the second packet is still to be sent, and will be. -/
theorem fw_info_forwarded_two : ∃ trace s, fwInfoSystem.RunWhere ReceivedAlone trace s ∧
    (∃ before, trace = before ++ [.received (fwInfoPacket 1 8)] ∧
      .received (fwInfoPacket 0 7) ∈ before ∧ .ended ∈ before) ∧ EachAfter RunLaw trace ∧
    ∃ n s' es, fwInfoSystem.exec s (List.replicate n .work) = some (s', es) ∧
      Forwarded (fwInfoPacket 1 8) es := by
  obtain ⟨trace, s, hrun, htest⟩ := (fwInfoSystem.restrict receivedAlone).exists_run_of_replay
    ([FwInfoOp.receive (fwInfoPacket 0 7)] ++ List.replicate 13 FwInfoOp.work ++ [FwInfoOp.receive (fwInfoPacket 1 8)])
    (fun trace _ => decide (trace.getLast? = some (.received (fwInfoPacket 1 8)) ∧
      .received (fwInfoPacket 0 7) ∈ trace.dropLast ∧ .ended ∈ trace.dropLast)) (by decide +kernel)
  have hwhere := EventSystem.runWhere_of_restrict receivedAlone_of_test hrun
  obtain ⟨hlast, hfirst, hended⟩ := of_decide_eq_true htest
  obtain ⟨before, rfl⟩ := List.getLast?_eq_some_iff.mp hlast
  rw [List.dropLast_concat] at hfirst hended
  obtain ⟨hlaw, hforwarded⟩ := fw_info_forwarded hwhere
  exact ⟨_, s, hwhere, ⟨before, rfl, hfirst, hended⟩, hlaw, hforwarded before _ [] rfl List.not_mem_nil⟩

/-- The packet of tracker 1 comes while the handler copies the first chunk of that of tracker 0. -/
def secondWhileSending : List FwInfoOp :=
  [FwInfoOp.receive (fwInfoPacket 0 7)] ++ List.replicate 4 FwInfoOp.work ++ [FwInfoOp.receive (fwInfoPacket 1 8)] ++
    List.replicate 10 FwInfoOp.work

/-- The first chunk sent for tracker 0 has bytes of tracker 1, and when the handler has nothing left to do
the packet of tracker 1 has not been forwarded. -/
theorem fw_info_mixed : ∃ trace s, fwInfoSystem.Run trace s ∧ s.work = none ∧
    (chunkReports trace).head? = some ([0xF1, 0, 0, 7, 8, 8] ++ List.replicate 10 0) ∧
    (∀ id, chunkReports trace ≠ packetChunks (fwInfoPacket id 7) ∧
      chunkReports trace ≠ packetChunks (fwInfoPacket id 8)) ∧
    ∃ before after, trace = before ++ .received (fwInfoPacket 1 8) :: after ∧
      ¬ Settled (fwInfoPacket 1 8) after := by
  obtain ⟨trace, s, hrun, htest⟩ := fwInfoSystem.exists_run_of_replay secondWhileSending
    (fun trace s => s.work.isNone && decide (
      (chunkReports trace).head? = some ([0xF1, 0, 0, 7, 8, 8] ++ List.replicate 10 0) ∧
      (trace.drop 2).head? = some (.received (fwInfoPacket 1 8)) ∧ .started ∉ (trace.drop 2).tail ∧
      .forgotten 1 ∉ (trace.drop 2).tail)) (by decide +kernel)
  rw [Bool.and_eq_true, Option.isNone_iff_eq_none, decide_eq_true_eq] at htest
  obtain ⟨hstop, hhead, hreceived, hstarted, hforgotten⟩ := htest
  have hother : ∀ id byte, (packetChunks (fwInfoPacket id byte)).head? =
      some ([0xF1, id, 0, byte, byte, byte] ++ List.replicate 10 0) := fun _ _ => rfl
  refine ⟨trace, s, hrun, hstop, hhead, fun id => ⟨fun hsame => ?_, fun hsame => ?_⟩, trace.take 2,
    (trace.drop 2).tail, ?_, ?_⟩
  · rw [hsame, hother] at hhead
    simp at hhead
  · rw [hsame, hother] at hhead
    simp at hhead
  · rw [List.cons_head?_tail hreceived, List.take_append_drop]
  · rintro (⟨wait, run, heq, -⟩ | hmem)
    · exact hstarted (heq ▸ List.mem_append_right _ List.mem_cons_self)
    · exact hforgotten hmem

end SlimeReceiver.Ota
