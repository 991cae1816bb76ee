import SlimeReceiver.Ota.HostSteps

/-! # The window of the host and that of the relay

The host counts `MAX_IN_FLIGHT` from the slowest tracker it still updates, the relay `OTA_TX_RING_SIZE` from
the slowest target of its session. The windows fit as long as the host knows of every target.

* **`Fits`** — when a step keeps the two windows together.
* **`WindowInvariant`** — what a run of such steps keeps.
* **`fitting_data_accepted`** — no DATA report is refused then. -/

namespace SlimeReceiver.Ota

open Function (update)

/-! ## Steps that fit -/

/-- `ota_relay.tracker[id].next_seq`. -/
def UpdateWorld.nextSeq (s : UpdateWorld) (id : ℕ) : ℕ := (s.receiver.relay.tracker id).nextSeq.toNat

/-- No STATUS on its way to the host removes a tracker from the update or asks for more than `seq`. -/
def StatusAtMost (s : UpdateWorld) (id seq : ℕ) : Prop :=
  ∀ report ∈ s.inbox, ∀ status ∈ parseStatus report, status.trackerId = id →
    isTerminal status.status = false ∧ status.nextSeq ≤ seq

/-- The BEGIN is accepted. -/
def Admission.accepts : Admission → Bool
  | .admitted _ _ => true
  | _ => false

/-- The host starts to stream to the targets of a new session: they are the trackers it takes for ready. -/
def StartFits (u : UpdateArgs) (s : UpdateWorld) : Prop :=
  s.host.readyIds u ≠ [] → s.receiver.relay.ringHead = 0 ∧
    (otaTxRingSize < u.totalPackets → ∀ id ∈ s.receiver.relay.targets,
      id ∈ s.host.readyIds u ∧ StatusAtMost s id (s.nextSeq id))

/-- A late BEGIN opens no second session for an image that is being sent, and is that of a tracker the host
takes to be at the start; a STATUS is reported with a number that is stored. -/
def EntryFits (u : UpdateArgs) (s : UpdateWorld) (env : MicroEnvironment) : Micro → Prop
  | .lock report acquired =>
    (s.receiver.relay.admitTarget report env.now acquired).accepts = true →
      (s.receiver.relay.active = true ∨ s.host.nextSeqToSend = 0) ∧
        (otaTxRingSize < u.totalPackets → report.trackerId ∈ s.host.activeIds ∧
          s.host.trackerNextSeq report.trackerId = 0 ∧
          s.host.nextSeqToSend + s.host.phase.burst ≤ otaTxRingSize ∧ StatusAtMost s report.trackerId 0)
  | .status packet =>
    otaTxRingSize < u.totalPackets → (s.receiver.relay.noteStatus packet env.uptime).2.1.isSome = true →
      (packetStatus packet).trackerId ∈ s.receiver.relay.targets →
      isTerminal (packetStatus packet).status = false →
      (packetStatus packet).nextSeq ≤ s.nextSeq (packetStatus packet).trackerId
  | _ => True

/-- What happens in the receiver while the host streams. -/
def ReceiverFits (u : UpdateArgs) (s : UpdateWorld) : OtaOp → Prop
  | .run thread env => ∀ micro ∈ (s.receiver.threads thread).head?, EntryFits u s env micro
  -- no target goes back
  | .ack id now stamp packet => otaTxRingSize < u.totalPackets → id ∈ s.receiver.relay.targets →
      s.nextSeq id ≤ ((s.receiver.relay.fillAck id now stamp (some packet)).1.tracker id).nextSeq.toNat
  | _ => True

/-- A step keeps the window of the host within that of the relay. An image of `OTA_TX_RING_SIZE` packets fits
into the ring, so that it needs one session only. -/
def Fits (u : UpdateArgs) (s : UpdateWorld) : UpdateOp → Prop
  | .host .start => StartFits u s
  | .receiver op => s.host.phase.streamed = true → ReceiverFits u s op
  | _ => True

/-! ## What fitting steps keep -/

/-- The window the relay has for a target contains that of the host. -/
structure InStep (s : UpdateWorld) (id : ℕ) : Prop where
  active : id ∈ s.host.activeIds
  view : s.host.trackerNextSeq id ≤ s.nextSeq id
  inbox : StatusAtMost s id (s.nextSeq id)
  room : s.host.nextSeqToSend + s.host.phase.burst ≤ s.nextSeq id + otaTxRingSize

structure WindowInvariant (u : UpdateArgs) (trace : List UpdateEvent) (s : UpdateWorld) : Prop where
  reachable : otaSystem.Reachable s.receiver
  own : ∀ t, t ≠ hidThread → pendingData (s.receiver.threads t) = []
  inbox : ∀ report ∈ s.inbox, ∀ status ∈ parseStatus report, status.trackerId < maxTrackers
  ready : ∀ id, s.host.readyStatuses id ≠ none → id < maxTrackers
  active : ∀ id ∈ s.host.activeIds, id < maxTrackers
  length : ∀ report ∈ underWay s, report.len = reportSize
  /-- DATA is sent in order, and comes in order. -/
  order : (seqsUnderWay s ++ [s.host.nextSeqToSend]).Pairwise (· < ·)
  before : s.host.phase.streamed = false → s.host.nextSeqToSend = 0
  head : s.host.phase.streamed = true →
    ∀ seq ∈ seqsUnderWay s ++ [s.host.nextSeqToSend], s.receiver.relay.ringHead ≤ seq
  below : s.host.nextSeqToSend ≤ u.totalPackets
  window : s.host.phase.streamed = true → otaTxRingSize < u.totalPackets →
    ∀ id ∈ s.receiver.relay.targets, InStep s id
  sent : ∀ seq, .sent seq ∈ trace → seq < s.host.nextSeqToSend ∧
    (seq ∈ seqsUnderWay s ∨
      (∀ other ∈ seqsUnderWay s, seq < other) ∧ (.accepted seq ∈ trace ∨ .noSession seq ∈ trace))
  never : ∀ seq, .refused seq ∉ trace
  /-- The latest packets that have come are in the ring. -/
  held : s.receiver.relay.targets ≠ [] → ∀ seq, .sent seq ∈ trace → seq ∉ seqsUnderWay s →
    s.host.nextSeqToSend ≤ seq + otaTxRingSize → s.receiver.relay.Holds (.ofNat 16 seq)

section Steps

variable {u : UpdateArgs} {trace : List UpdateEvent} {s : UpdateWorld}

/-- The reports of the host, DATA apart, are not under way. -/
theorem underWay_quiet {reports : List HidReport} (htype : ∀ report ∈ reports, report.data 0 ≠ 0xF3)
    (host : Host) : underWay { s with host, outbox := s.outbox ++ reports } = underWay s ∧
      reports.filterMap HidReport.dataSeq = [] := by
  have hnone : pendingData (reports.flatMap relayMicros) = [] := by
    induction reports with
    | nil => rfl
    | cons report reports ih =>
      rw [List.flatMap_cons, pendingData_append, (quiet_of_type (htype report List.mem_cons_self)).2,
        ih fun other hother => htype other (List.mem_cons_of_mem _ hother)]
      rfl
  refine ⟨?_, List.filterMap_eq_nil_iff.mpr fun report hreport => (quiet_of_type (htype report hreport)).1⟩
  unfold underWay
  rw [List.flatMap_append, ← List.append_assoc, pendingData_append, hnone, List.append_nil]

/-- A step that leaves the host's window alone. -/
theorem WindowInvariant.quiet (h : WindowInvariant u trace s) {host : Host} {reports : List HidReport}
    (hquiet : Quiet s.host host reports) :
    WindowInvariant u (trace ++ (reports.filterMap HidReport.dataSeq).map .sent)
      { s with host, outbox := s.outbox ++ reports } := by
  obtain ⟨hunder, hsent⟩ := underWay_quiet (s := s) hquiet.type host
  have hseqs : seqsUnderWay { s with host, outbox := s.outbox ++ reports } = seqsUnderWay s :=
    congrArg (List.map fun report : HidReport => report.seq.toNat) hunder
  rw [hsent, List.map_nil, List.append_nil]
  refine ⟨h.reachable, h.own, h.inbox, ?_, ?_, ?_, ?_, ?_, ?_, ?_, ?_, ?_, h.never, ?_⟩
  · exact fun id => hquiet.ready ▸ h.ready id
  · exact fun id => hquiet.active ▸ h.active id
  · rw [hunder]
    exact h.length
  · rw [hseqs, hquiet.next]
    exact h.order
  · intro hnot
    rw [hquiet.next]
    exact h.before (hquiet.streamed ▸ hnot)
  · intro hstreamed
    rw [hseqs, hquiet.next]
    exact h.head (hquiet.streamed ▸ hstreamed)
  · rw [hquiet.next]
    exact h.below
  · intro hstreamed hlarge id hid
    obtain ⟨hactive, hview, hinbox, hroom⟩ := h.window (hquiet.streamed ▸ hstreamed) hlarge id hid
    refine ⟨hquiet.active ▸ hactive, hquiet.view ▸ hview, hinbox, le_trans ?_ hroom⟩
    exact Nat.add_le_add hquiet.next.le hquiet.burst
  · rw [hseqs, hquiet.next]
    exact h.sent
  · rw [hseqs, hquiet.next]
    exact h.held

/-- Before the host streams nothing is under way. -/
theorem WindowInvariant.seqs_nil (h : WindowInvariant u trace s) (hnot : s.host.phase.streamed = false) :
    seqsUnderWay s = [] := by
  refine List.eq_nil_iff_forall_not_mem.mpr fun seq hseq => ?_
  have hless := (List.pairwise_append.mp h.order).2.2 seq hseq _ (List.mem_singleton_self _)
  rw [h.before hnot] at hless
  exact absurd hless (Nat.not_lt_zero _)

/-- And nothing has been sent. -/
theorem WindowInvariant.not_sent (h : WindowInvariant u trace s) (hnone : s.host.nextSeqToSend = 0) (seq : ℕ) :
    .sent seq ∉ trace := fun hsent => Nat.not_lt_zero seq (hnone ▸ (h.sent seq hsent).1)

/-- The host starts to stream. -/
theorem WindowInvariant.starts (h : WindowInvariant u trace s) (hfits : StartFits u s) {host : Host}
    (hstarts : Starts u s.host host) : WindowInvariant u trace { s with host } := by
  have hnone : seqsUnderWay { s with host } = [] := h.seqs_nil hstarts.notYet
  obtain ⟨hhead, hwindow⟩ := hfits hstarts.some
  have hunsent := h.not_sent (h.before hstarts.notYet)
  refine ⟨h.reachable, h.own, h.inbox, ?_, ?_, h.length, ?_, ?_, ?_, ?_, ?_,
    fun seq hsent => absurd hsent (hunsent seq), h.never, fun _ seq hsent => absurd hsent (hunsent seq)⟩
  · exact fun id => hstarts.ready ▸ h.ready id
  · intro id hid
    rw [hstarts.active] at hid
    refine h.ready id fun hnever => ?_
    obtain ⟨-, hready⟩ := List.mem_filter.mp hid
    rw [hnever] at hready
    simp at hready
  · rw [hnone]
    exact List.pairwise_singleton _ _
  · exact fun _ => hstarts.next
  · rw [hnone]
    exact fun _ seq _ => hhead ▸ Nat.zero_le seq
  · rw [hstarts.next]
    exact Nat.zero_le _
  · intro _ hlarge id hid
    obtain ⟨hready, hinbox⟩ := hwindow hlarge id hid
    refine ⟨hstarts.active ▸ hready, ?_, hinbox, ?_⟩
    · rw [hstarts.view]
      exact Nat.zero_le _
    · rw [hstarts.next, hstarts.phase]
      exact Nat.zero_le _

/-- A burst begins. -/
theorem WindowInvariant.bursts (h : WindowInvariant u trace s) (hphase : s.host.phase = .streaming 0)
    (hroom : s.host.inFlight < maxInFlight) :
    WindowInvariant u trace { s with host := { s.host with phase := .streaming s.host.burstCount } } := by
  have hstreamed : s.host.phase.streamed = true := hphase ▸ rfl
  refine { h with before := fun hnot => (by cases hnot), head := fun _ => h.head hstreamed, window := ?_ }
  intro _ hlarge id hid
  obtain ⟨hactive, hview, hinbox, -⟩ := h.window hstreamed hlarge id hid
  refine ⟨hactive, hview, hinbox, ?_⟩
  calc s.host.nextSeqToSend + s.host.burstCount
      ≤ s.host.trackerNextSeq id + maxInFlight := burst_le hactive hroom
    _ ≤ s.nextSeq id + otaTxRingSize := Nat.add_le_add hview (by decide)

/-- The host sends DATA. -/
theorem WindowInvariant.sends (h : WindowInvariant u trace s) {left : ℕ} {report : HidReport}
    (hphase : s.host.phase = .streaming (left + 1)) (hless : s.host.nextSeqToSend < u.totalPackets)
    {chunk : List (BitVec 8)}
    (hreport : sendData (s.host.activeIds.headD 0) s.host.nextSeqToSend chunk = some report) :
    WindowInvariant u (trace ++ (([report] : List HidReport).filterMap HidReport.dataSeq).map .sent)
      { s with
        host := { s.host with
          phase := .streaming left
          nextSeqToSend := s.host.nextSeqToSend + 1 }
        outbox := s.outbox ++ [report] } := by
  have hstreamed : s.host.phase.streamed = true := hphase ▸ rfl
  have hid : s.host.activeIds.headD 0 < maxTrackers := by
    cases hactive : s.host.activeIds with
    | nil => exact (by decide : 0 < maxTrackers)
    | cons id rest => exact h.active id (hactive ▸ List.mem_cons_self)
  obtain ⟨hdata, hmicros, hseq, hlen⟩ := sendData_spec hreport hid
  generalize hnew : ({ s with
    host := { s.host with
      phase := .streaming left
      nextSeqToSend := s.host.nextSeqToSend + 1 }
    outbox := s.outbox ++ [report] } : UpdateWorld) = new
  have hunder : underWay new = underWay s ++ [report] := by
    subst hnew
    unfold underWay
    rw [List.flatMap_append, List.flatMap_singleton, hmicros, ← List.append_assoc, pendingData_append]
    rfl
  have hseqs : seqsUnderWay new = seqsUnderWay s ++ [s.host.nextSeqToSend] := by
    rw [seqsUnderWay, hunder, List.map_append, List.map_singleton, hseq]
    rfl
  have hsent : (([report] : List HidReport).filterMap HidReport.dataSeq) = [s.host.nextSeqToSend] := by
    rw [List.filterMap_cons, hdata]
    rfl
  have hnext : new.host.nextSeqToSend = s.host.nextSeqToSend + 1 := hnew ▸ rfl
  have hlast : ∀ seq ∈ seqsUnderWay s ++ [s.host.nextSeqToSend], seq ≤ s.host.nextSeqToSend := by
    intro seq hmem
    rcases List.mem_append.mp hmem with hold | hself
    · exact ((List.pairwise_append.mp h.order).2.2 seq hold _ (List.mem_singleton_self _)).le
    · exact (List.mem_singleton.mp hself).le
  rw [hsent]
  refine ⟨hnew ▸ h.reachable, hnew ▸ h.own, hnew ▸ h.inbox, hnew ▸ h.ready, hnew ▸ h.active, ?_, ?_, ?_, ?_, ?_,
    ?_, ?_, ?_, ?_⟩
  · rw [hunder]
    exact List.forall_mem_append.mpr ⟨h.length, List.forall_mem_singleton.mpr hlen⟩
  · rw [hseqs, hnext]
    refine List.pairwise_append.mpr ⟨h.order, List.pairwise_singleton _ _, fun seq hseq other hother => ?_⟩
    rw [List.mem_singleton.mp hother]
    exact Nat.lt_succ_of_le (hlast seq hseq)
  · subst hnew
    exact fun hnot => by cases hnot
  · rw [hseqs, hnext]
    subst hnew
    intro _ seq hmem
    rcases List.mem_append.mp hmem with hold | hself
    · exact h.head hstreamed seq hold
    · rw [List.mem_singleton.mp hself]
      exact (h.head hstreamed _ (List.mem_append_right _ (List.mem_singleton_self _))).trans (Nat.le_succ _)
  · rw [hnext]
    exact hless
  · subst hnew
    intro _ hlarge id htarget
    obtain ⟨hactive, hview, hinbox, hroom⟩ := h.window hstreamed hlarge id htarget
    refine ⟨hactive, hview, hinbox, ?_⟩
    rw [hphase] at hroom
    show s.host.nextSeqToSend + 1 + left ≤ _
    calc s.host.nextSeqToSend + 1 + left = s.host.nextSeqToSend + (left + 1) := by omega
      _ ≤ _ := hroom
  · intro seq hmem
    rw [hseqs, hnext]
    rcases List.mem_append.mp hmem with hold | hself
    · obtain ⟨hbelow, hwhere⟩ := h.sent seq hold
      refine ⟨hbelow.trans (Nat.lt_succ_self _), ?_⟩
      rcases hwhere with hunder | ⟨hbefore, hcome⟩
      · exact .inl (List.mem_append_left _ hunder)
      · exact .inr ⟨List.forall_mem_append.mpr ⟨hbefore, List.forall_mem_singleton.mpr hbelow⟩,
          hcome.imp (List.mem_append_left _) (List.mem_append_left _)⟩
    · obtain rfl := UpdateEvent.sent.inj (List.mem_singleton.mp hself)
      exact ⟨Nat.lt_succ_self _, .inl (List.mem_append_right _ (List.mem_singleton_self _))⟩
  · intro seq hmem
    rcases List.mem_append.mp hmem with hold | hself
    · exact h.never seq hold
    · cases List.mem_singleton.mp hself
  · rw [hseqs, hnext]
    subst hnew
    intro hsome seq hmem hcome hrecent
    rcases List.mem_append.mp hmem with hold | hself
    · exact h.held hsome seq hold (fun hunder => hcome (List.mem_append_left _ hunder)) (by omega)
    · obtain rfl := UpdateEvent.sent.inj (List.mem_singleton.mp hself)
      exact absurd (List.mem_append_right _ (List.mem_singleton_self _)) hcome

/-- The host reads a report. -/
theorem WindowInvariant.reads (h : WindowInvariant u trace s) {report : List (BitVec 8)}
    {rest : List (List (BitVec 8))} (hinbox : s.inbox = report :: rest) {host : Host}
    (hreads : Reads report s.host host) : WindowInvariant u trace { s with host, inbox := rest } := by
  have hkept : ∀ other ∈ rest, other ∈ s.inbox := fun other hother => hinbox ▸ List.mem_cons_of_mem _ hother
  have hfirst : report ∈ s.inbox := hinbox ▸ List.mem_cons_self
  refine ⟨h.reachable, h.own, fun other hother => h.inbox other (hkept other hother), ?_,
    fun id hid => h.active id (hreads.active id hid), h.length, ?_, ?_, ?_, ?_, ?_, ?_, h.never, ?_⟩
  · intro id hready
    rcases hreads.ready id with hsame | ⟨status, hparse, rfl⟩
    · exact h.ready id (hsame ▸ hready)
    · exact h.inbox report hfirst status hparse
  · rw [hreads.next]
    exact h.order
  · intro hnot
    rw [hreads.next]
    exact h.before (hreads.streamed ▸ hnot)
  · intro hstreamed
    rw [hreads.next]
    exact h.head (hreads.streamed ▸ hstreamed)
  · rw [hreads.next]
    exact h.below
  · intro hstreamed hlarge id hid
    obtain ⟨hactive, hview, hstatus, hroom⟩ := h.window (hreads.streamed ▸ hstreamed) hlarge id hid
    refine ⟨?_, ?_, fun other hother => hstatus other (hkept other hother), ?_⟩
    · -- no report on its way takes a target out of the update
      refine (hreads.left id hactive).resolve_right fun hleft => ?_
      obtain ⟨status, hparse, hself, hterminal⟩ := hleft
      exact Bool.false_ne_true ((hstatus report hfirst status hparse hself).1.symm.trans hterminal)
    · rcases hreads.view id with hsame | ⟨status, hparse, hself, hnew⟩
      · exact hsame.le.trans hview
      · exact hnew.le.trans (hstatus report hfirst status hparse hself).2
    · show host.nextSeqToSend + host.phase.burst ≤ _
      rw [hreads.next, hreads.burst]
      exact hroom
  · rw [hreads.next]
    exact h.sent
  · rw [hreads.next]
    exact h.held

/-- The HID thread takes a report. -/
theorem WindowInvariant.delivers (h : WindowInvariant u trace s) {report : HidReport} {rest : List HidReport}
    (houtbox : s.outbox = report :: rest) (hidle : s.receiver.threads hidThread = []) :
    WindowInvariant u trace { s with
      outbox := rest
      receiver := { s.receiver with threads := update s.receiver.threads hidThread (relayMicros report) } } := by
  generalize hnew : ({ s with
    outbox := rest
    receiver := { s.receiver with
      threads := update s.receiver.threads hidThread (relayMicros report) } } : UpdateWorld) = new
  have hunder : underWay new = underWay s := by
    subst hnew
    unfold underWay
    simp only [Function.update_self, houtbox, hidle]
    rfl
  have hseqs : seqsUnderWay new = seqsUnderWay s :=
    congrArg (List.map fun report : HidReport => report.seq.toNat) hunder
  refine ⟨?_, ?_, hnew ▸ h.inbox, hnew ▸ h.ready, hnew ▸ h.active, hunder ▸ h.length, ?_, hnew ▸ h.before, ?_,
    hnew ▸ h.below, ?_, ?_, h.never, ?_⟩
  · subst hnew
    by_cases hself : report.trackerId = receiverOtaId
    · have hsame : update s.receiver.threads hidThread (relayMicros report) = s.receiver.threads := by
        rw [relayMicros, if_pos hself, ← hidle]
        exact Function.update_eq_self ..
      simp only [hsame]
      exact h.reachable
    · have htaken : otaStep s.receiver (.call hidThread (.hid report)) = some ({ s.receiver with
          threads := update s.receiver.threads hidThread (relayMicros report) },
          .started hidThread :: OtaWorld.finishEvents hidThread (hidMicros report)) := by
        simp only [otaStep, hidle, List.isEmpty_nil, if_true, relayMicros, if_neg hself]
        rfl
      exact h.reachable.step (show otaSystem.step s.receiver (.call hidThread (.hid report)) = _ from htaken)
  · subst hnew
    intro t ht
    simp only [Function.update_of_ne ht]
    exact h.own t ht
  · rw [hseqs]
    subst hnew
    exact h.order
  · rw [hseqs]
    subst hnew
    exact h.head
  · subst hnew
    intro hstreamed hlarge id hid
    obtain ⟨hactive, hview, hinbox, hroom⟩ := h.window hstreamed hlarge id hid
    exact ⟨hactive, hview, hinbox, hroom⟩
  · rw [hseqs]
    subst hnew
    exact h.sent
  · rw [hseqs]
    subst hnew
    exact h.held

/-- A step of the receiver that fits keeps its targets in step. -/
theorem inStep_receiver {op : OtaOp} {receiver : OtaWorld} {es : List OtaEvent}
    (hsession : SessionInvariant s.receiver.relay) (h : ∀ id ∈ s.receiver.relay.targets, InStep s id)
    (hlarge : otaTxRingSize < u.totalPackets)
    (hfits : ReceiverFits u s op) (htaken : otaStep s.receiver op = some (receiver, es)) :
    ∀ id ∈ receiver.relay.targets,
      InStep { s with receiver, inbox := s.inbox ++ es.filterMap OtaEvent.report } id := by
  intro id hid
  rcases otaStep_targets hsession htaken id hid with
    ⟨t, env, report, acquired, rest, first, relay, rfl, hthread, rfl, hadmission, hzero⟩ | ⟨hold, hnext⟩
  · -- its BEGIN is accepted, and nothing is reported
    have hentry : EntryFits u s env (.lock report acquired) :=
      hfits (.lock report acquired) (by rw [hthread]; rfl)
    obtain ⟨hactive, hview, hroom, hinbox⟩ := (hentry (by rw [hadmission]; rfl)).2 hlarge
    refine ⟨hactive, hview.le.trans (Nat.zero_le _), ?_, hroom.trans (Nat.le_add_left _ _)⟩
    intro other hother status hparse hself
    rcases List.mem_append.mp hother with hearlier | hreport
    · exact (hinbox other hearlier status hparse hself).imp_right fun hle => hle.trans (Nat.zero_le _)
    · obtain ⟨t', env', packet, rest', hop, hthread', -⟩ := otaStep_forwarded hsession htaken hreport
      obtain ⟨rfl, rfl⟩ := OtaOp.run.inj hop
      rw [hthread] at hthread'
      cases hthread'
  · obtain ⟨hactive, hview, hinbox, hroom⟩ := h id hold
    have hle : s.nextSeq id ≤ (receiver.relay.tracker id).nextSeq.toNat := by
      rcases hnext with hsame | ⟨now, stamp, packet, rfl, hrelay⟩
      · exact (congrArg BitVec.toNat hsame).ge
      · rw [hrelay]
        exact hfits hlarge hold
    refine ⟨hactive, hview.trans hle, ?_, hroom.trans (Nat.add_le_add_right hle _)⟩
    intro other hother status hparse hself
    rcases List.mem_append.mp hother with hearlier | hreport
    · exact (hinbox other hearlier status hparse hself).imp_right fun hless => hless.trans hle
    · obtain ⟨t, env, packet, rest, rfl, hthread, hread, hnoted, hleft⟩ :=
        otaStep_forwarded hsession htaken hreport
      obtain rfl := Option.some.inj (hparse.symm.trans hread)
      have hgoes : isTerminal (packetStatus packet).status = false :=
        Bool.eq_false_iff.mpr fun hterminal => hleft hterminal (hself ▸ hid)
      have hentry : EntryFits u s env (.status packet) := hfits (.status packet) (by rw [hthread]; rfl)
      have hstored := hentry hlarge (by rw [hnoted]; rfl) (hself ▸ hold) hgoes
      rw [hself] at hstored
      exact ⟨hgoes, hstored.trans hle⟩

/-- The relay accepts the DATA the HID thread brings. -/
theorem WindowInvariant.accepts (h : WindowInvariant u trace s) {report : HidReport} {rest : List Micro}
    (hthread : s.receiver.threads hidThread = .data report :: rest) (hactive : s.receiver.relay.active = true) :
    s.receiver.relay.accepts report = true := by
  have hmem : report ∈ underWay s := by
    rw [underWay, hthread]
    exact List.mem_cons_self
  have hseq : report.seq.toNat ∈ seqsUnderWay s := List.mem_map_of_mem hmem
  have hstreamed : s.host.phase.streamed = true := by
    by_contra hnot
    rw [h.seqs_nil (Bool.eq_false_iff.mpr hnot)] at hseq
    cases hseq
  have hhead := h.head hstreamed _ (List.mem_append_left _ hseq)
  have hless := (List.pairwise_append.mp h.order).2.2 _ hseq _ (List.mem_singleton_self _)
  have hcount : s.receiver.relay.ringCount < otaTxRingSize := by
    have hsize : 0 < otaTxRingSize := by decide
    unfold Relay.ringCount
    by_cases hlarge : otaTxRingSize < u.totalPackets
    · rcases ringSeqMin_cases s.receiver.relay with hall | ⟨id, hid, hmin⟩
      · rwa [hall, Nat.sub_self]
      · have hroom := (h.window hstreamed hlarge id hid).room
        rw [UpdateWorld.nextSeq, ← hmin] at hroom
        omega
    · have hbelow := h.below
      omega
  have hlen : 5 ≤ report.len := by
    rw [h.length report hmem]
    decide
  simp only [Relay.accepts, hactive, hlen, hcount, decide_true, Bool.and_self]

/-- What the relay makes of a DATA report. -/
theorem WindowInvariant.dataEvents (h : WindowInvariant u trace s) (env : MicroEnvironment) {report : HidReport}
    {rest : List Micro} (hthread : s.receiver.threads hidThread = .data report :: rest) :
    s.receiver.dataEvents (.run hidThread env) = [.accepted report.seq.toNat] ∨
      s.receiver.dataEvents (.run hidThread env) = [.noSession report.seq.toNat] := by
  simp only [OtaWorld.dataEvents, hthread, Relay.dataEvent]
  by_cases hactive : s.receiver.relay.active = true
  · rw [if_neg (by rw [hactive]; exact Bool.noConfusion), if_pos (h.accepts hthread hactive)]
    exact .inl rfl
  · rw [if_pos (Bool.eq_false_iff.mpr hactive)]
    exact .inr rfl

/-- The relay deals with a DATA report. -/
theorem WindowInvariant.data (h : WindowInvariant u trace s) {env : MicroEnvironment} {report : HidReport}
    {rest : List Micro} {receiver : OtaWorld} {inbox : List (List (BitVec 8))}
    (hthread : s.receiver.threads hidThread = .data report :: rest)
    (hrelay : receiver.relay = s.receiver.relay.acceptData report)
    (hthreads : receiver.threads = update s.receiver.threads hidThread rest)
    (hreach : otaSystem.Reachable receiver)
    (hinbox : ∀ report ∈ inbox, ∀ status ∈ parseStatus report, status.trackerId < maxTrackers)
    (hwindow : s.host.phase.streamed = true → otaTxRingSize < u.totalPackets →
      ∀ id ∈ receiver.relay.targets, InStep { s with receiver, inbox } id) :
    WindowInvariant u (trace ++ s.receiver.dataEvents (.run hidThread env)) { s with receiver, inbox } := by
  have hunder : underWay s = report :: underWay { s with receiver, inbox } := by
    unfold underWay
    simp only [hthread, hthreads, Function.update_self]
    rfl
  have hseqs : seqsUnderWay s = report.seq.toNat :: seqsUnderWay { s with receiver, inbox } :=
    congrArg (List.map fun report : HidReport => report.seq.toNat) hunder
  have horder := h.order
  rw [hseqs, List.cons_append, List.pairwise_cons] at horder
  have hsent : ∀ seq, .sent seq ∈ trace ++ s.receiver.dataEvents (.run hidThread env) → .sent seq ∈ trace := by
    intro seq hmem
    refine (List.mem_append.mp hmem).resolve_right fun hnow => ?_
    rcases h.dataEvents env hthread with hevents | hevents
    · rw [hevents] at hnow
      cases List.mem_singleton.mp hnow
    · rw [hevents] at hnow
      cases List.mem_singleton.mp hnow
  refine ⟨hreach, fun t hother => ?_, hinbox, h.ready, h.active,
    fun other hother => h.length other (hunder ▸ List.mem_cons_of_mem _ hother), horder.2, h.before, ?_, h.below,
    hwindow, fun seq hmem => ⟨(h.sent seq (hsent seq hmem)).1, ?_⟩, ?_, ?_⟩
  · show pendingData (receiver.threads t) = []
    rw [hthreads, Function.update_of_ne hother]
    exact h.own t hother
  · intro hstreamed seq hseq
    have hhead := h.head hstreamed seq (by
      rw [hseqs]
      exact List.mem_cons_of_mem _ hseq)
    show receiver.relay.ringHead ≤ seq
    rw [hrelay]
    unfold Relay.acceptData
    split
    case isFalse => exact hhead
    case isTrue =>
      show (if _ then _ else _) ≤ _
      split
      case isTrue => exact horder.1 seq hseq
      case isFalse => exact hhead
  · rcases (h.sent seq (hsent seq hmem)).2 with hold | ⟨hbefore, hcome⟩
    · rw [hseqs] at hold
      rcases List.mem_cons.mp hold with rfl | hstill
      · refine .inr ⟨fun other hother => horder.1 other (List.mem_append_left _ hother), ?_⟩
        rcases h.dataEvents env hthread with hevents | hevents
        · rw [hevents]
          exact .inl (List.mem_append_right _ (List.mem_singleton_self _))
        · rw [hevents]
          exact .inr (List.mem_append_right _ (List.mem_singleton_self _))
      · exact .inl hstill
    · refine .inr ⟨fun other hother => hbefore other ?_, hcome.imp (List.mem_append_left _) (List.mem_append_left _)⟩
      rw [hseqs]
      exact List.mem_cons_of_mem _ hother
  · intro seq hmem
    rcases List.mem_append.mp hmem with hearlier | hnow
    · exact h.never seq hearlier
    · rcases h.dataEvents env hthread with hevents | hevents
      · rw [hevents] at hnow
        cases List.mem_singleton.mp hnow
      · rw [hevents] at hnow
        cases List.mem_singleton.mp hnow
  · intro hsome seq hmem hcome hrecent
    -- there is a session, so the packet has been accepted; it has not the slot of one of the latest
    have htargets : s.receiver.relay.targets ≠ [] := by
      have hkept : (s.receiver.relay.acceptData report).targets = s.receiver.relay.targets := by
        unfold Relay.acceptData
        split <;> rfl
      intro hnone
      exact hsome (show receiver.relay.targets = [] by rw [hrelay, hkept, hnone])
    obtain ⟨history, hrun⟩ := h.reachable
    have haccepts := h.accepts hthread ((calls_invariant hrun).session.active.mpr htargets)
    show receiver.relay.Holds (.ofNat 16 seq)
    rw [hrelay, holds_acceptData haccepts]
    by_cases hself : seq = report.seq.toNat
    · rw [hself, BitVec.ofNat_toNat, BitVec.setWidth_eq, if_pos rfl]
    · have hnot : seq ∉ seqsUnderWay s := by
        rw [hseqs]
        exact fun hold => (List.mem_cons.mp hold).elim hself hcome
      have hless : seq < report.seq.toNat := by
        refine ((h.sent seq (hsent seq hmem)).2.resolve_left hnot).1 _ ?_
        rw [hseqs]
        exact List.mem_cons_self
      have hnext := horder.1 _ (List.mem_append_right _ (List.mem_singleton_self _))
      have hslot : ringIndex (.ofNat 16 seq) ≠ ringIndex report.seq := by
        simp only [ringIndex, otaTxRingSize, BitVec.toNat_ofNat] at hrecent ⊢
        omega
      rw [if_neg hslot]
      exact h.held htargets seq (hsent seq hmem) hnot hrecent

/-- A step of the receiver. -/
theorem WindowInvariant.receives (h : WindowInvariant u trace s) {op : OtaOp} {receiver : OtaWorld}
    {es : List OtaEvent} (hown : op.byHost = false)
    (hfits : s.host.phase.streamed = true → ReceiverFits u s op)
    (htaken : otaStep s.receiver op = some (receiver, es)) :
    WindowInvariant u (trace ++ s.receiver.dataEvents op)
      { s with receiver, inbox := s.inbox ++ es.filterMap OtaEvent.report } := by
  have hreach : otaSystem.Reachable receiver :=
    h.reachable.step (show otaSystem.step s.receiver op = some (receiver, es) from htaken)
  obtain ⟨history, hrun⟩ := h.reachable
  have hsession := (calls_invariant hrun).session
  have hinbox : ∀ report ∈ s.inbox ++ es.filterMap OtaEvent.report, ∀ status ∈ parseStatus report,
      status.trackerId < maxTrackers := by
    intro report hreport status hparse
    rcases List.mem_append.mp hreport with hearlier | hnow
    · exact h.inbox report hearlier status hparse
    · obtain ⟨t, env, packet, rest, -, hthread, hread, -⟩ := otaStep_forwarded hsession htaken hnow
      obtain rfl := Option.some.inj (hparse.symm.trans hread)
      exact reachable_status h.reachable t packet (hthread ▸ List.mem_cons_self)
  have hwindow := fun hstreamed hlarge =>
    inStep_receiver hsession (h.window hstreamed hlarge) hlarge (hfits hstreamed) htaken
  rcases otaStep_data hown htaken with ⟨t, env, report, rest, rfl, hthread, hrelay, hthreads⟩ |
    ⟨hquiet, ⟨hhead, hring⟩, hpending⟩
  · obtain rfl : t = hidThread := by
      by_contra hother
      have hnone := h.own t hother
      rw [hthread] at hnone
      cases hnone
    exact h.data hthread hrelay hthreads hreach hinbox hwindow
  · have hunder : underWay { s with receiver, inbox := s.inbox ++ es.filterMap OtaEvent.report } =
        underWay s := by
      simp only [underWay, pendingData_append, hpending]
    have hseqs : seqsUnderWay { s with receiver, inbox := s.inbox ++ es.filterMap OtaEvent.report } =
        seqsUnderWay s := congrArg (List.map fun report : HidReport => report.seq.toNat) hunder
    rw [hquiet, List.append_nil]
    refine ⟨hreach, fun t hother => (hpending t).trans (h.own t hother), hinbox, h.ready,
      h.active, hunder ▸ h.length, ?_, h.before, ?_, h.below, hwindow, ?_, h.never, ?_⟩
    · rw [hseqs]
      exact h.order
    · rw [hseqs]
      exact fun hstreamed seq hseq => hhead.trans (h.head hstreamed seq hseq)
    · rw [hseqs]
      exact h.sent
    · rw [hseqs]
      intro hsome seq hsent hcome hrecent
      show (receiver.relay.ring _).seq = _
      rw [hring]
      refine h.held (fun hnone => ?_) seq hsent hcome hrecent
      -- a session is opened only before anything has been sent
      obtain ⟨id, hid⟩ := List.exists_mem_of_ne_nil _ hsome
      rcases otaStep_targets hsession htaken id hid with
        ⟨t, env, report, acquired, rest, first, relay, rfl, hthread, -, hadmission, -⟩ | ⟨hold, -⟩
      · have hunsent : s.host.nextSeqToSend = 0 := by
          by_cases hstreamed : s.host.phase.streamed = true
          · have hentry : EntryFits u s env (.lock report acquired) :=
              hfits hstreamed (.lock report acquired) (by rw [hthread]; rfl)
            exact (hentry (by rw [hadmission]; rfl)).1.resolve_left fun hactive => hsession.active.mp hactive hnone
          · exact h.before (Bool.eq_false_iff.mpr hstreamed)
        exact h.not_sent hunsent seq hsent
      · rw [hnone] at hold
        cases hold

/-- The start of a run. -/
theorem windowInvariant_init (u : UpdateArgs) {receiver : OtaWorld} (hreach : otaSystem.Reachable receiver)
    (hidle : ∀ t report, .data report ∉ receiver.threads t) :
    WindowInvariant u [] ⟨.init u, [], [], receiver⟩ := by
  have hnone : underWay ⟨.init u, [], [], receiver⟩ = [] := by
    unfold underWay
    rw [pendingData_append, pendingData_eq_nil (hidle hidThread)]
    rfl
  have hseqs : seqsUnderWay ⟨.init u, [], [], receiver⟩ = [] := by rw [seqsUnderWay, hnone, List.map_nil]
  refine ⟨hreach, fun t _ => pendingData_eq_nil (hidle t), fun report hmem => (by cases hmem),
    fun id hsome => absurd rfl hsome, fun id hid => (by cases hid), ?_, ?_, fun _ => rfl, fun hnot => (by cases hnot),
    Nat.zero_le _, fun hnot => (by cases hnot), fun seq hmem => (by cases hmem), fun seq hmem => (by cases hmem),
    fun _ seq hmem => (by cases hmem)⟩
  · rw [hnone]
    exact fun report hmem => by cases hmem
  · rw [hseqs]
    exact List.pairwise_singleton _ _

/-- Every step that fits keeps the invariant. -/
theorem WindowInvariant.step (h : WindowInvariant u trace s) {op : UpdateOp} {s' : UpdateWorld}
    {es : List UpdateEvent} (hfits : Fits u s op) (htaken : updateStep u s op = some (s', es)) :
    WindowInvariant u (trace ++ es) s' := by
  cases op with
  | host act =>
    obtain ⟨⟨host, reports⟩, hacted, heq⟩ := Option.map_eq_some_iff.mp htaken
    obtain ⟨rfl, rfl⟩ := Prod.mk.inj heq
    rcases act_cases hacted with hquiet | ⟨rfl, hstarts, rfl⟩ | ⟨hphase, -, hroom, rfl, rfl⟩ |
      ⟨left, report, hphase, hless, rfl, hreport, rfl⟩
    · exact h.quiet hquiet
    · simpa using h.starts hfits hstarts
    · simpa using h.bursts hphase hroom
    · exact h.sends hphase hless hreport
  | read =>
    simp only [updateStep] at htaken
    cases hinbox : s.inbox with
    | nil =>
      rw [hinbox] at htaken
      cases htaken
    | cons report rest =>
      rw [hinbox] at htaken
      obtain ⟨host, hread, heq⟩ := Option.map_eq_some_iff.mp htaken
      obtain ⟨rfl, rfl⟩ := Prod.mk.inj heq
      rw [List.append_nil]
      exact h.reads hinbox (read_reads hread)
  | deliver =>
    simp only [updateStep] at htaken
    cases houtbox : s.outbox with
    | nil =>
      rw [houtbox] at htaken
      cases htaken
    | cons report rest =>
      simp only [houtbox] at htaken
      split at htaken
      case isFalse => cases htaken
      case isTrue hidle =>
        obtain ⟨rfl, rfl⟩ := Prod.mk.inj (Option.some.inj htaken)
        rw [List.append_nil]
        exact h.delivers houtbox hidle
  | receiver op =>
    simp only [updateStep] at htaken
    split at htaken
    case isTrue => cases htaken
    case isFalse hown =>
      obtain ⟨⟨receiver, events⟩, hstep, heq⟩ := Option.map_eq_some_iff.mp htaken
      obtain ⟨rfl, rfl⟩ := Prod.mk.inj heq
      exact h.receives (Bool.eq_false_iff.mpr hown) hfits hstep

end Steps

/-! ## Every run -/

/-- In every run of `do_update` whose steps keep the window of the host within that of the relay, whatever the
targets answer, no DATA report is dropped for a full ring: each one that is sent is under way, accepted by the
relay, or has come when there was no session; and what has come is in the ring as long as a target needs it. -/
theorem fitting_data_accepted {u : UpdateArgs} {receiver : OtaWorld} (hreach : otaSystem.Reachable receiver)
    (hidle : ∀ t report, .data report ∉ receiver.threads t) {trace : List UpdateEvent} {s : UpdateWorld}
    (h : (updateSystem u receiver).RunWhere (Fits u) trace s) :
    (∀ seq, .refused seq ∉ trace) ∧
      (∀ seq, .sent seq ∈ trace → seq ∈ seqsUnderWay s ∨ .accepted seq ∈ trace ∨ .noSession seq ∈ trace) ∧
      ∀ id ∈ s.receiver.relay.targets, ∀ seq, .sent seq ∈ trace → seq ∉ seqsUnderWay s →
        s.nextSeq id ≤ seq → s.receiver.relay.Holds (.ofNat 16 seq) := by
  have hinvariant : WindowInvariant u trace s :=
    h.history_invariant (P := WindowInvariant u) (windowInvariant_init u hreach hidle)
      fun trace s op s' es hinvariant hfits htaken => hinvariant.step hfits htaken
  refine ⟨hinvariant.never, fun seq hsent => (hinvariant.sent seq hsent).2.imp_right fun hcome => hcome.2, ?_⟩
  intro id hid seq hsent hcome hneeded
  refine hinvariant.held (List.ne_nil_of_mem hid) seq hsent hcome ?_
  by_cases hlarge : otaTxRingSize < u.totalPackets
  · have hstreamed : s.host.phase.streamed = true := by
      by_contra hnot
      exact hinvariant.not_sent (hinvariant.before (Bool.eq_false_iff.mpr hnot)) seq hsent
    have hroom := (hinvariant.window hstreamed hlarge id hid).room
    omega
  · have hbelow := hinvariant.below
    omega

/-! ## Two updates -/

instance (s : UpdateWorld) (id seq : ℕ) : Decidable (StatusAtMost s id seq) :=
  inferInstanceAs (Decidable (∀ report ∈ s.inbox, ∀ status ∈ parseStatus report, status.trackerId = id →
    isTerminal status.status = false ∧ status.nextSeq ≤ seq))

instance (u : UpdateArgs) (s : UpdateWorld) : Decidable (StartFits u s) :=
  inferInstanceAs (Decidable (_ ≠ _ → _ ∧ (_ → ∀ id ∈ s.receiver.relay.targets, _ ∧ _)))

instance (u : UpdateArgs) (s : UpdateWorld) (env : MicroEnvironment) :
    DecidablePred (EntryFits u s env) := fun micro =>
  match micro with
  | .lock _ _ => inferInstanceAs (Decidable (_ → _ ∧ (_ → _)))
  | .status _ => inferInstanceAs (Decidable (_ → _ → _ → _ → _))
  | .admission _ | .claim _ | .checkActive _ | .checkAbort _ _ | .suppress | .release | .unsuppress | .send _ _
  | .data _ | .queue _ _ | .cancel _ | .cancelAll | .forget _ => isTrue trivial

instance (u : UpdateArgs) (s : UpdateWorld) (op : OtaOp) : Decidable (ReceiverFits u s op) :=
  match op with
  | .run thread env =>
    inferInstanceAs (Decidable (∀ micro ∈ (s.receiver.threads thread).head?, EntryFits u s env micro))
  | .ack _ _ _ _ => inferInstanceAs (Decidable (_ → _ → _))
  | .call _ _ | .pong _ | .remote _ _ | .stored _ | .radio _ | .fault => isTrue trivial

instance (u : UpdateArgs) (s : UpdateWorld) (op : UpdateOp) : Decidable (Fits u s op) :=
  match op with
  | .host act =>
    match act with
    | .start => inferInstanceAs (Decidable (StartFits u s))
    | .sendBegin | .resend | .timeOut | .burst | .sendData | .gapFill | .restream | .close | .command _ _
    | .abort => isTrue trivial
  | .receiver op => inferInstanceAs (Decidable (_ → ReceiverFits u s op))
  | .read | .deliver => isTrue trivial

/-- An image of 129 packets. -/
def longImage (trackerIds : List ℕ) : UpdateArgs where
  trackerIds := trackerIds
  firmware := ⟨List.replicate 7740 0, 0x1000, 0⟩
  boardTarget := []

/-- The HID thread goes on. -/
def hidSteps (count : ℕ) : List UpdateOp := List.replicate count (UpdateOp.receiver (.run hidThread quietMoment))

/-- Tracker 1 has a status and asks for a packet. -/
def trackerStatus (status : BitVec 8) (seq : ℕ) : List (BitVec 8) :=
  [esbOtaStatusType, 1, status] ++ be16Bytes (.ofNat 16 seq)

/-- A STATUS of tracker 1 reaches the host. -/
def statusSteps (status : BitVec 8) (seq : ℕ) (uptime : ℤ) : List UpdateOp :=
  [.receiver (.ack 1 0 0 (trackerStatus status seq)), .receiver (.call 1 (.status (trackerStatus status seq))),
    .receiver (.run 1 ⟨0, uptime, false⟩), .read]

/-- A burst of packets that reach the relay. -/
def burstSteps (count : ℕ) : List UpdateOp :=
  .host .burst :: (List.replicate count ([UpdateOp.host .sendData, .deliver] ++ hidSteps 1)).flatten

/-- Tracker 1 is ready, and consumes eight packets. -/
def answeredUpdate : List UpdateOp :=
  List.replicate 2 (UpdateOp.host .sendBegin) ++ [UpdateOp.deliver] ++ hidSteps 22 ++ statusSteps 0x01 0 0 ++
    [UpdateOp.host .start] ++ burstSteps 8 ++ statusSteps 0x02 8 100 ++ burstSteps 1

/-- Its update goes on, and the packet the tracker needs is in the ring. -/
theorem fitting_data_accepted_answered : ∃ trace s,
    (updateSystem (longImage [1]) .init).RunWhere (Fits (longImage [1])) trace s ∧
    (.accepted 8 ∈ trace ∧ s.nextSeq 1 = 8 ∧ 1 ∈ s.receiver.relay.targets) ∧
    (∀ seq, .refused seq ∉ trace) ∧
      (∀ seq, .sent seq ∈ trace → seq ∈ seqsUnderWay s ∨ .accepted seq ∈ trace ∨ .noSession seq ∈ trace) ∧
      ∀ id ∈ s.receiver.relay.targets, ∀ seq, .sent seq ∈ trace → seq ∉ seqsUnderWay s →
        s.nextSeq id ≤ seq → s.receiver.relay.Holds (.ofNat 16 seq) := by
  obtain ⟨trace, s, hrun, htest⟩ :=
    ((updateSystem (longImage [1]) .init).restrict fun s op =>
      decide (Fits (longImage [1]) s op)).exists_run_of_replay answeredUpdate
      (fun trace s => decide (.accepted 8 ∈ trace ∧ s.nextSeq 1 = 8 ∧ 1 ∈ s.receiver.relay.targets))
      (by decide +kernel)
  have hfits := EventSystem.runWhere_of_restrict (fun s op => of_decide_eq_true) hrun
  exact ⟨trace, s, hfits, of_decide_eq_true htest,
    fitting_data_accepted ⟨[], .start⟩ (fun t report hmem => by cases hmem) hfits⟩

/-- Tracker 2 never answers its BEGIN, so that the host goes on with tracker 1 alone. -/
def silentUpdate : List UpdateOp :=
  List.replicate 3 (UpdateOp.host .sendBegin) ++ [UpdateOp.deliver] ++ hidSteps 22 ++ [UpdateOp.deliver] ++
    hidSteps 2 ++
    statusSteps 0x01 0 0 ++ [UpdateOp.host .start] ++
    burstSteps 8 ++ statusSteps 0x02 8 100 ++
    burstSteps 48 ++ statusSteps 0x02 56 200 ++
    burstSteps 48 ++ statusSteps 0x02 104 300 ++
    burstSteps 25

/-- The relay still keeps everything for tracker 2, and drops the 129th packet. -/
theorem silent_tracker_refuses : ∃ trace s, (updateSystem (longImage [1, 2]) .init).Run trace s ∧
    s.host.activeIds = [1] ∧ s.receiver.relay.targets = [1, 2] ∧ .refused 128 ∈ trace := by
  obtain ⟨trace, s, hrun, htest⟩ :=
    (updateSystem (longImage [1, 2]) .init).exists_run_of_replay silentUpdate
      (fun trace s => decide (s.host.activeIds = [1] ∧ s.receiver.relay.targets = [1, 2] ∧ .refused 128 ∈ trace))
      (by decide +kernel)
  exact ⟨trace, s, hrun, of_decide_eq_true htest⟩

end SlimeReceiver.Ota
