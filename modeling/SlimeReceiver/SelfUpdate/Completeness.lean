import SlimeReceiver.SelfUpdate.TransferSafety

/-! # Which transfers end with VERIFY_OK

* **`OnTrack`** — where a transfer is that meets the conditions.
* **`OnTrack.step`** — the two threads keep it there.
* **`OnTrack.complete`** — nothing is left to do only when VERIFY_OK was answered.
* **`update_completes`** — every transfer comes to an end, with VERIFY_OK exactly if it meets the conditions. -/

namespace SlimeReceiver.SelfUpdate

open Function (update update_self update_of_ne)

/-! ## A transfer that meets the conditions -/

/-- The writer has met an error. -/
def Writer.failing : Writer → Bool
  | .setError _ | .verifyFail _ | .verifyFailCode _ => true
  | _ => false

section Phases

variable (payloads : List (List (BitVec 8))) (h : UpdateHistory) (t : Transfer) (answered : Prop)

/-- Between two packets. -/
structure Between : Prop where
  opened : t.ota.state.opened = true
  reports : Carries h.packets (payloads.drop h.packets) t.reports
  bytes : h.bytes = (payloads.take h.packets).flatten

/-- A packet is being copied. -/
structure InPacket (payload : List (BitVec 8)) : Prop where
  opened : t.ota.state.opened = true
  next : payloads[h.packets]? = some payload
  reports : Carries (h.packets + 1) (payloads.drop (h.packets + 1)) t.reports
  bytes : h.bytes = (payloads.take h.packets).flatten

/-- VERIFY has come in. -/
structure AllSent : Prop where
  state : t.ota.state = .verifying
  reports : t.reports = []
  bytes : h.bytes = payloads.flatten

/-- The check is queued or under way, or VERIFY_OK is on its way or answered. -/
def Answering : Prop :=
  WriterCmd.verify ∈ t.ota.pageWriteMsgq ∨ t.ota.writer.checking = true ∨
    (t.ota.errorCode = some .verifyOk ∧ (t.ota.writer = .status .loop ∨ t.ota.writer = .statusSend .verifyOk .loop)) ∨
      answered

/-- How far the HID command thread is. -/
def Phase : Handler → Prop
  | .idle => Between payloads h t ∨ (AllSent payloads h t ∧ Answering t answered)
  | .status | .statusSend _ => Between payloads h t
  | .filling _ payload _ | .copying _ payload _ | .flushCheck (.data _ payload _) | .flushFill (.data _ payload _)
  | .flushPut (.data _ payload _) => InPacket payloads h t payload
  | .flushCheck .verify | .flushFill .verify | .flushPut .verify | .verifyPut => AllSent payloads h t
  | _ => False

/-- Where a transfer is that meets the conditions. -/
structure OnTrack (cfg : FlashConfig) : Prop extends TransferSafe cfg payloads h t where
  well : WellSent cfg payloads h.size h.base
  crc : crc32Ieee payloads.flatten = h.crc
  fine : t.ota.writerError = false
  writer : t.ota.writer.failing = false
  lens : ∀ slot ∈ h.outstanding, (t.ota.pageWriteReqs slot).len % writeBlockSize = 0
  sems : ∀ slot, t.ota.slotSems slot = false → slot ∈ h.outstanding ∨ t.ota.Owns slot
  phase : Phase payloads h t answered t.ota.handler

end Phases

section Track

variable {cfg : FlashConfig} {answers : BeginAnswers} {payloads : List (List (BitVec 8))} {h h' : UpdateHistory}
  {t t' : Transfer} {s' : RcvOta} {es : List UpdateEvent} {op : TransferOp} {answered answered' : Prop}

/-- The writer's steps leave the HID command thread where it is. -/
theorem Phase.congr {place : Handler} (hphase : Phase payloads h t answered place)
    (hstate : t'.ota.state = t.ota.state) (hreports : t'.reports = t.reports) (hpackets : h'.packets = h.packets)
    (hbytes : h'.bytes = h.bytes)
    (hanswering : AllSent payloads h t → Answering t answered → Answering t' answered') :
    Phase payloads h' t' answered' place := by
  have hbetween : Between payloads h t → Between payloads h' t' := by
    rintro ⟨hopen, hcarries, hsofar⟩
    refine ⟨?_, ?_, ?_⟩
    · rwa [hstate]
    · rwa [hpackets, hreports]
    · rwa [hpackets, hbytes]
  have hin : ∀ payload, InPacket payloads h t payload → InPacket payloads h' t' payload := by
    rintro payload ⟨hopen, hnext, hcarries, hsofar⟩
    refine ⟨?_, ?_, ?_, ?_⟩
    · rwa [hstate]
    · rwa [hpackets]
    · rwa [hpackets, hreports]
    · rwa [hpackets, hbytes]
  have hall : AllSent payloads h t → AllSent payloads h' t' := by
    rintro ⟨hverifying, hnone, hsofar⟩
    exact ⟨hstate.trans hverifying, hreports.trans hnone, hbytes.trans hsofar⟩
  cases place with
  | idle => exact hphase.imp hbetween fun hdone => ⟨hall hdone.1, hanswering hdone.1 hdone.2⟩
  | status | statusSend => exact hbetween hphase
  | filling | copying => exact hin _ hphase
  | flushCheck k | flushFill k | flushPut k =>
    cases k with
    | data => exact hin _ hphase
    | verify => exact hall hphase
  | verifyPut => exact hall hphase
  | fail | failCode | activatePut | stopFlag | stopWake | stopJoin | stopped => exact hphase

/-- Before VERIFY the writer only stores pages. -/
theorem OnTrack.bytes_of_not_storing (hon : OnTrack payloads h t answered cfg)
    (hwriter : t.ota.writer.storing = false) : h.bytes = payloads.flatten := by
  have hclosed : ¬ t.ota.state.opened = true := by
    intro hopen
    exact absurd (hwriter.symm.trans (hon.verify.early (.inl hopen)).writer) (by decide)
  have hphase := hon.phase
  cases hplace : t.ota.handler with
  | idle =>
    rw [hplace] at hphase
    exact hphase.elim (fun hbetween => absurd hbetween.opened hclosed) fun hdone => hdone.1.bytes
  | status | statusSend =>
    rw [hplace] at hphase
    exact absurd hphase.opened hclosed
  | filling | copying =>
    rw [hplace] at hphase
    exact absurd hphase.opened hclosed
  | flushCheck k | flushFill k | flushPut k =>
    rw [hplace] at hphase
    cases k with
    | data => exact absurd hphase.opened hclosed
    | verify => exact hphase.bytes
  | verifyPut =>
    rw [hplace] at hphase
    exact hphase.bytes
  | fail | failCode | activatePut | stopFlag | stopWake | stopJoin | stopped =>
    rw [hplace] at hphase
    exact hphase.elim

/-- A page is taken by the driver. -/
theorem OnTrack.taken (hon : OnTrack payloads h t answered cfg) {slot : Bool} (hplace : t.ota.writer = .program slot) :
    (t.ota.pageWriteReqs slot).addr % writeBlockSize = 0 ∧ (t.ota.pageWriteReqs slot).len % writeBlockSize = 0 := by
  obtain ⟨haddr, -, hmem⟩ := hon.toTransferSafe.page hplace
  have hbase := hon.well.base
  refine ⟨?_, hon.lens slot hmem⟩
  rw [haddr]
  unfold flashPageSize writeBlockSize at *
  omega

/-- The checksum is the image's. -/
theorem OnTrack.crc_eq (hon : OnTrack payloads h t answered cfg) {pos : ℕ} {crc : BitVec 32}
    (hplace : t.ota.writer = .reading pos crc) (hread : t.ota.imageSize ≤ pos) : crc = t.ota.imageCrc32 := by
  have hbytes := hon.bytes_of_not_storing (by rw [hplace]; rfl)
  cases hon.verify.stage with
  | storing hs =>
    have hwriter := hs.writer
    rw [hplace] at hwriter
    cases hwriter
  | settled hs =>
    have hwriter := hs.writer
    rw [hplace] at hwriter
    cases hwriter
  | checking hs =>
    rcases hs.pending with ⟨hstoring, -⟩ | ⟨-, hgiven, -, hknown⟩
    · rw [hplace] at hstoring
      cases hstoring
    · rw [hplace] at hknown
      obtain ⟨-, hpos, hcrc⟩ := hknown
      have hwhole : pos = t.ota.stream.length := by
        rw [hs.copied, hs.whole]
        rw [hon.verify.counted.size] at hread
        exact Nat.le_antisymm hpos hread
      have hstaged := hon.verify.staged
      rw [hon.fine] at hstaged
      have hpages := hs.pages
      rw [hgiven, List.length_nil, Nat.add_zero] at hpages
      rw [hcrc, hwhole, hstaged.read (by rw [hplace]; rfl) hpages, hs.copied, hbytes, hon.crc, hon.verify.counted.crc]

/-- While the writer answers, no check is queued. -/
theorem OnTrack.no_check (hon : OnTrack payloads h t answered cfg) (hsettled : t.ota.writer.settled = true)
    (hstoring : t.ota.writer.storing = false) : WriterCmd.verify ∉ t.ota.pageWriteMsgq := by
  intro hmem
  cases hon.verify.stage with
  | storing hs => exact absurd (hstoring.symm.trans hs.writer) (by decide)
  | checking hs =>
    rcases hs.pending with ⟨hstores, -⟩ | ⟨-, -, hqueue, -⟩
    · exact absurd (hstoring.symm.trans hstores) (by decide)
    · cases hqueue _ hmem
  | settled hs => exact (hs.queue _ hmem).elim nofun nofun

/-- The writer's step brings the answer on. -/
theorem OnTrack.answering (hon : OnTrack payloads h t answered cfg) (hmove : WriterMove cfg t.ota s' es)
    (hall : AllSent payloads h t) (hbefore : Answering t answered) :
    Answering ⟨s', t.reports⟩ (answered ∨ .status .verifyOk ∈ es) := by
  -- a check that is queued stays queued, and an answer stays given
  have hkeep : ∀ {s₁ : RcvOta}, (∀ cmd ∈ t.ota.pageWriteMsgq, cmd ∈ s₁.pageWriteMsgq) →
      t.ota.writer.checking = false → (∀ code next, t.ota.writer ≠ .statusSend code next) →
      (∀ next, t.ota.writer ≠ .status next) → Answering ⟨s₁, t.reports⟩ (answered ∨ .status .verifyOk ∈ es) := by
    intro s₁ hqueue hchecking hsend hstatus
    rcases hbefore with hmem | hnow | ⟨-, hplace | hplace⟩ | hgiven
    · exact .inl (hqueue _ hmem)
    · exact absurd (hchecking.symm.trans hnow) (by decide)
    · exact absurd hplace (hstatus _)
    · exact absurd hplace (hsend _ _)
    · exact .inr (.inr (.inr (.inl hgiven)))
  cases hmove with
  | loop hplace | page hplace | erase hplace | program hplace | give hplace =>
    exact hkeep (fun _ => id) (by rw [hplace]; rfl) (by rw [hplace]; nofun) (by rw [hplace]; nofun)
  | @get cmd rest hplace hqueue =>
    rcases hbefore with hmem | hnow | ⟨-, hother | hother⟩ | hgiven
    · rw [hqueue] at hmem
      rcases List.mem_cons.mp hmem with rfl | hlater
      · exact .inr (.inl rfl)
      · exact .inl hlater
    · rw [hplace] at hnow
      cases hnow
    · cases hplace.symm.trans hother
    · cases hplace.symm.trans hother
    · exact .inr (.inr (.inr (.inl hgiven)))
  | check | verify | read | matched => exact .inr (.inl rfl)
  | verifyOk => exact .inr (.inr (.inl ⟨rfl, .inl rfl⟩))
  | refuse hplace hrefused => exact absurd (hon.taken hplace) hrefused
  | setError hplace | verifyFail hplace | verifyFailCode hplace =>
    have hwriter := hon.writer
    rw [hplace] at hwriter
    cases hwriter
  | verifyError _ herror => cases hon.fine.symm.trans herror
  | mismatch hplace hread hdiffer => exact absurd (hon.crc_eq hplace hread) hdiffer
  | status hplace =>
    rcases hbefore with hmem | hnow | ⟨hcode, -⟩ | hgiven
    · exact absurd hmem (hon.no_check (by rw [hplace]; rfl) (by rw [hplace]; rfl))
    · rw [hplace] at hnow
      cases hnow
    · have hstatus : t.ota.statusCode = .verifyOk := by
        rw [RcvOta.statusCode, hall.state, hcode]
        rfl
      exact .inr (.inr (.inl ⟨hcode, .inr (by rw [hstatus])⟩))
    · exact .inr (.inr (.inr (.inl hgiven)))
  | @statusSend code hplace =>
    rcases hbefore with hmem | hnow | ⟨-, hother | hother⟩ | hgiven
    · exact absurd hmem (hon.no_check (by rw [hplace]; rfl) (by rw [hplace]; rfl))
    · rw [hplace] at hnow
      cases hnow
    · cases hplace.symm.trans hother
    · have hcode : code = .verifyOk := by
        cases hplace.symm.trans hother
        rfl
      have hsent : t.ota.sentCode code = .verifyOk := by
        rw [RcvOta.sentCode, hon.place.running, hcode]
        rfl
      exact .inr (.inr (.inr (.inr (by rw [hsent]; exact List.mem_singleton_self _))))
    · exact .inr (.inr (.inr (.inl hgiven)))

theorem OnTrack.writerMove (hon : OnTrack payloads h t answered cfg) (hmove : WriterMove cfg t.ota s' es)
    (hnew : TransferSafe cfg payloads (es.foldl UpdateHistory.follow h) ⟨s', t.reports⟩) :
    OnTrack payloads (es.foldl UpdateHistory.follow h) ⟨s', t.reports⟩ (answered ∨ .status .verifyOk ∈ es) cfg := by
  have hanswering := hon.answering hmove
  have hwriter := hon.writer
  cases hmove with
  | loop | check | erase | program | verify | read | matched | verifyOk | status | statusSend =>
    exact { hnew, hon with writer := rfl, phase := hon.phase.congr rfl rfl rfl rfl hanswering }
  | get => exact { hnew, hon with writer := rfl, phase := hon.phase.congr rfl rfl rfl rfl hanswering }
  | page =>
    refine { hnew, hon with writer := ?_, phase := hon.phase.congr rfl rfl rfl rfl hanswering }
    simp only [RcvOta.startCommand]
    split <;> rfl
  | @give slot hplace =>
    refine { hnew, hon with writer := rfl, lens := fun slot' hslot => hon.lens slot' (List.mem_of_mem_erase hslot),
                            sems := fun slot' hfalse => ?_, phase := hon.phase.congr rfl rfl rfl rfl hanswering }
    have hother : slot' ≠ slot := by
      rintro rfl
      exact absurd ((update_self slot' true t.ota.slotSems).symm.trans hfalse) (by decide)
    change update t.ota.slotSems slot true slot' = false at hfalse
    rw [update_of_ne hother] at hfalse
    exact (hon.sems slot' hfalse).imp_left fun hmem => (List.mem_erase_of_ne hother).mpr hmem
  | refuse hplace hrefused => exact absurd (hon.taken hplace) hrefused
  | setError hplace | verifyFail hplace | verifyFailCode hplace =>
    rw [hplace] at hwriter
    cases hwriter
  | verifyError _ herror => cases hon.fine.symm.trans herror
  | mismatch hplace hread hdiffer => exact absurd (hon.crc_eq hplace hread) hdiffer

/-- The producer writes its own page only. -/
theorem OnTrack.lens_update (hon : OnTrack payloads h t answered cfg) (hown : t.ota.Owns t.ota.nextWriteSlot)
    (req : PageWriteReq) : ∀ slot ∈ h.outstanding,
      (update t.ota.pageWriteReqs t.ota.nextWriteSlot req slot).len % writeBlockSize = 0 := by
  intro slot hslot
  have hother : slot ≠ t.ota.nextWriteSlot := by
    rintro rfl
    exact (hon.own.owned _ hown).1 hslot
  rw [update_of_ne hother]
  exact hon.lens slot hslot

/-- The page that is submitted is of whole words. -/
theorem OnTrack.submit_len (hon : OnTrack payloads h t answered cfg) {k : Flush} (hplace : t.ota.handler = .flushPut k) :
    (t.ota.pageWriteReqs t.ota.nextWriteSlot).len % writeBlockSize = 0 := by
  have hknows := hon.verify.place
  rw [hplace] at hknows
  obtain ⟨hflush, hlen⟩ := hknows
  rw [hlen]
  cases k with
  | data seq payload copied =>
    rw [hflush.2.2]
    rfl
  | verify =>
    obtain ⟨hcomplete, hfilled, -⟩ := hflush
    have hlength := hfilled.length
    have hsize := hon.well.size
    rw [hcomplete.stream, hcomplete.whole] at hlength
    unfold flashPageSize writeBlockSize at *
    omega

/-- Unless it is about to copy, the producer has a slot only for what is in it. -/
theorem RcvOta.Owns.offset_pos {slot : Bool} (hown : t.ota.Owns slot)
    (hplace : ∀ seq payload copied, t.ota.handler ≠ .copying seq payload copied) : 0 < t.ota.pageBufOffset :=
  hown.2.resolve_right fun ⟨seq, payload, copied, hcopying⟩ => hplace seq payload copied hcopying

theorem OnTrack.handlerMove (hon : OnTrack payloads h t answered cfg) (hmove : HandlerMove t.ota s' es)
    (hnew : TransferSafe cfg payloads (es.foldl UpdateHistory.follow h) ⟨s', t.reports⟩) :
    OnTrack payloads (es.foldl UpdateHistory.follow h) ⟨s', t.reports⟩ (answered ∨ .status .verifyOk ∈ es) cfg := by
  have hphase := hon.phase
  -- a slot that is taken is the writer's or the producer's, wherever the producer is
  have hsems : ∀ {s₁ : RcvOta}, s₁.slotSems = t.ota.slotSems → s₁.nextWriteSlot = t.ota.nextWriteSlot →
      (t.ota.Owns t.ota.nextWriteSlot → s₁.Owns t.ota.nextWriteSlot) →
        ∀ slot, s₁.slotSems slot = false → slot ∈ h.outstanding ∨ s₁.Owns slot := by
    intro s₁ hsame hslot howns slot hfalse
    rw [hsame] at hfalse
    refine (hon.sems slot hfalse).imp_right fun hown => ?_
    obtain rfl := hown.1
    exact howns hown
  cases hmove with
  | status hplace =>
    rw [hplace] at hphase
    refine { hnew, hon with sems := hsems rfl rfl fun hown => ?_, phase := ⟨hphase.opened, hphase.reports, hphase.bytes⟩ }
    exact ⟨rfl, .inl (hown.offset_pos (by rw [hplace]; nofun))⟩
  | statusSend hplace =>
    rw [hplace] at hphase
    refine { hnew, hon with sems := hsems rfl rfl fun hown => ?_,
                            phase := .inl ⟨hphase.opened, hphase.reports, hphase.bytes⟩ }
    exact ⟨rfl, .inl (hown.offset_pos (by rw [hplace]; nofun))⟩
  | fail hplace | failCode hplace =>
    rw [hplace] at hphase
    exact hphase.elim
  | take hplace _ hfree =>
    rw [hplace] at hphase
    refine { hnew, hon with sems := fun slot hfalse => ?_,
                            phase := ⟨hphase.opened, hphase.next, hphase.reports, hphase.bytes⟩ }
    by_cases hslot : slot = t.ota.nextWriteSlot
    · exact .inr ⟨hslot, .inr ⟨_, _, _, rfl⟩⟩
    · change update t.ota.slotSems t.ota.nextWriteSlot false slot = false at hfalse
      rw [update_of_ne hslot] at hfalse
      exact (hon.sems slot hfalse).imp_right fun hown => absurd hown.1 hslot
  | resume hplace =>
    rw [hplace] at hphase
    exact { hnew, hon with sems := hsems rfl rfl fun _ => ⟨rfl, .inr ⟨_, _, _, rfl⟩⟩,
                           phase := ⟨hphase.opened, hphase.next, hphase.reports, hphase.bytes⟩ }
  | @accept seq payload copied place hplace _ hnext =>
    rw [hplace] at hphase
    have hbytes : h.bytes ++ payload = (payloads.take (h.packets + 1)).flatten := by
      rw [hphase.bytes, List.take_add_one, hphase.next, List.flatten_append]
      exact congrArg (_ ++ ·) (List.append_nil payload).symm
    have hbetween : ∀ {s₁ : RcvOta}, s₁.state = t.ota.state →
        Between payloads (h.follow (.accepted seq payload)) ⟨s₁, t.reports⟩ :=
      fun hsame => ⟨hsame ▸ hphase.opened, hphase.reports, hbytes⟩
    have howns : ∀ {s₁ : RcvOta}, s₁.pageBufOffset = t.ota.pageBufOffset → s₁.nextWriteSlot = t.ota.nextWriteSlot →
        t.ota.Owns t.ota.nextWriteSlot → s₁.Owns t.ota.nextWriteSlot := by
      intro s₁ hoffset hslot hown
      refine ⟨hslot.symm, .inl ?_⟩
      rw [hoffset]
      exact hown.offset_pos (by rw [hplace]; nofun)
    rcases hnext with rfl | rfl
    · exact { hnew, hon with sems := hsems rfl rfl (howns rfl rfl), phase := hbetween rfl }
    · exact { hnew, hon with sems := hsems rfl rfl (howns rfl rfl), phase := .inl (hbetween rfl) }
  | @copy seq payload copied hplace =>
    rw [hplace] at hphase
    have hown : t.ota.Owns t.ota.nextWriteSlot := ⟨rfl, .inr ⟨_, _, _, hplace⟩⟩
    have hknows := hon.verify.place
    rw [hplace] at hknows
    obtain ⟨hpos, -⟩ := t.ota.chunk_pos hknows.2.2 (hon.place.copying seq payload copied hplace)
    have hin : ∀ {s₁ : RcvOta}, s₁.state = t.ota.state → InPacket payloads h ⟨s₁, t.reports⟩ payload :=
      fun hsame => ⟨hsame ▸ hphase.opened, hphase.next, hphase.reports, hphase.bytes⟩
    refine { hnew, hon with lens := hon.lens_update hown _,
                            sems := hsems rfl rfl fun _ => ⟨rfl, .inl (Nat.add_pos_right _ hpos)⟩, phase := ?_ }
    dsimp only
    split
    · exact hin rfl
    · exact hin rfl
  | flushFail _ herror => cases hon.fine.symm.trans herror
  | @flushCheck k hplace =>
    rw [hplace] at hphase
    have howns : t.ota.Owns t.ota.nextWriteSlot → RcvOta.Owns { t.ota with handler := .flushFill k }
        t.ota.nextWriteSlot := fun hown =>
      ⟨rfl, .inl (hown.offset_pos (by rw [hplace]; nofun))⟩
    cases k with
    | data =>
      exact { hnew, hon with sems := hsems rfl rfl howns,
                             phase := ⟨hphase.opened, hphase.next, hphase.reports, hphase.bytes⟩ }
    | verify =>
      exact { hnew, hon with sems := hsems rfl rfl howns, phase := ⟨hphase.state, hphase.reports, hphase.bytes⟩ }
  | @flushFill k hplace =>
    rw [hplace] at hphase
    have hpage := hon.own.page
    rw [hplace] at hpage
    have hown : t.ota.Owns t.ota.nextWriteSlot := ⟨rfl, .inl hpage⟩
    cases k with
    | data =>
      exact { hnew, hon with lens := hon.lens_update hown _, sems := hsems rfl rfl fun _ => ⟨rfl, .inl hpage⟩,
                             phase := ⟨hphase.opened, hphase.next, hphase.reports, hphase.bytes⟩ }
    | verify =>
      exact { hnew, hon with lens := hon.lens_update hown _, sems := hsems rfl rfl fun _ => ⟨rfl, .inl hpage⟩,
                             phase := ⟨hphase.state, hphase.reports, hphase.bytes⟩ }
  | @flushPut k hplace =>
    have hlen := hon.submit_len hplace
    rw [hplace] at hphase
    have hlens : ∀ slot ∈ h.outstanding ++ [t.ota.nextWriteSlot],
        (t.ota.pageWriteReqs slot).len % writeBlockSize = 0 := by
      intro slot hslot
      rcases List.mem_append.mp hslot with hold | hlast
      · exact hon.lens slot hold
      · rw [List.mem_singleton.mp hlast]
        exact hlen
    have hgiven : ∀ slot, t.ota.slotSems slot = false → slot ∈ h.outstanding ++ [t.ota.nextWriteSlot] := by
      intro slot hfalse
      rcases hon.sems slot hfalse with hold | hown
      · exact List.mem_append_left _ hold
      · exact List.mem_append_right _ (List.mem_singleton.mpr hown.1)
    cases k with
    | data =>
      exact { hnew, hon with lens := hlens, sems := fun slot hfalse => .inl (hgiven slot hfalse),
                             phase := ⟨hphase.opened, hphase.next, hphase.reports, hphase.bytes⟩ }
    | verify =>
      exact { hnew, hon with lens := hlens, sems := fun slot hfalse => .inl (hgiven slot hfalse),
                             phase := ⟨hphase.state, hphase.reports, hphase.bytes⟩ }
  | verifyPut hplace =>
    rw [hplace] at hphase
    refine { hnew, hon with sems := hsems rfl rfl fun hown => ?_,
                            phase := .inr ⟨⟨hphase.state, hphase.reports, hphase.bytes⟩, .inl ?_⟩ }
    · exact ⟨rfl, .inl (hown.offset_pos (by rw [hplace]; nofun))⟩
    · exact List.mem_append_right _ (List.mem_singleton_self _)

theorem OnTrack.reportMove {data : List (BitVec 8)} {rest : List (List (BitVec 8))}
    (hon : OnTrack payloads h t answered cfg) (hreports : t.reports = data :: rest) (hidle : t.ota.handler = .idle)
    (hmove : ReportMove cfg t.ota (parseReport data) s') (hnew : TransferSafe cfg payloads h ⟨s', rest⟩) :
    OnTrack payloads h ⟨s', rest⟩ answered cfg := by
  have hbetween : Between payloads h t := by
    have hphase := hon.phase
    rw [hidle] at hphase
    exact hphase.resolve_right fun hdone => by cases hdone.1.reports.symm.trans hreports
  have hsems : ∀ {s₁ : RcvOta}, s₁.slotSems = t.ota.slotSems → s₁.nextWriteSlot = t.ota.nextWriteSlot →
      s₁.pageBufOffset = t.ota.pageBufOffset → ∀ slot, s₁.slotSems slot = false → slot ∈ h.outstanding ∨ s₁.Owns slot := by
    intro s₁ hsame hslot hoffset slot hfalse
    rw [hsame] at hfalse
    refine (hon.sems slot hfalse).imp_right fun hown => ⟨hown.1.trans hslot.symm, .inl ?_⟩
    rw [hoffset]
    exact hown.offset_pos (by rw [hidle]; nofun)
  have hcounted := hon.verify.counted
  have hcarries := hbetween.reports
  rw [hreports] at hcarries
  generalize hdrop : payloads.drop h.packets = left at hcarries
  cases hcarries with
  | verify _ hparse =>
    have hbytes : h.bytes = payloads.flatten := by
      rw [hbetween.bytes, ← congrArg List.flatten (List.take_append_drop h.packets payloads), hdrop, List.append_nil]
    have hwritten : t.ota.bytesWritten = t.ota.imageSize := by
      rw [hcounted.written, hbytes, hon.flatten, hcounted.size]
    rw [hparse] at hmove
    cases hmove with
    | verify hverify =>
      cases hverify with
      | late hclosed => cases hclosed.symm.trans hbetween.opened
      | incomplete _ hpart => exact absurd hwritten hpart
      | flush => exact { hnew, hon with sems := hsems rfl rfl rfl, phase := ⟨rfl, rfl, hbytes⟩ }
      | put => exact { hnew, hon with sems := hsems rfl rfl rfl, phase := ⟨rfl, rfl, hbytes⟩ }
  | @data _ _ payload payloads' _ _ hparse hk hpos hsmall hrest =>
    have hat : payloads[h.packets]? = some payload := by
      rw [← List.head?_drop, hdrop]
      rfl
    have hlater : payloads.drop (h.packets + 1) = payloads' := by
      rw [← List.tail_drop, hdrop]
      rfl
    have hlen := hon.well.packets _ _ hat
    have hmore : h.packets * dataMaxPayload < h.size := by
      rw [packetLen] at hlen
      omega
    have hseq : BitVec.ofNat 16 h.packets = t.ota.nextExpectedSeq := by
      refine BitVec.eq_of_toNat_eq ?_
      rw [BitVec.toNat_ofNat, Nat.mod_eq_of_lt hk, hcounted.seq]
    have hwanted : t.ota.payloadLen (BitVec.ofNat 16 h.packets) = payload.length := by
      rw [RcvOta.payloadLen, hlen, packetLen, BitVec.toNat_ofNat, Nat.mod_eq_of_lt hk, hcounted.size]
    rw [hparse] at hmove
    cases hmove with
    | data hdata =>
      cases hdata with
      | ignored hwhy =>
        refine absurd hwhy ?_
        rw [hbetween.opened, hwanted, BitVec.toNat_ofNat, Nat.mod_eq_of_lt hk, hcounted.size, hseq]
        rintro (hclosed | hbeyond | hbefore | hshort)
        · cases hclosed
        · exact absurd hmore (Nat.not_lt_of_le hbeyond)
        · exact absurd hbefore (BitVec.lt_irrefl _)
        · exact absurd hshort (Nat.lt_irrefl _)
      | refused hwhy =>
        refine absurd hwhy ?_
        rw [hon.fine, hseq]
        rintro (herror | hgap | ⟨-, -, hwrong⟩)
        · cases herror
        · exact absurd hgap (BitVec.lt_irrefl _)
        · rw [← hseq, hwanted] at hwrong
          -- the header is looked at in the first packet only
          by_cases hfirst : h.packets = 0
          · rw [hfirst] at hat hlen
            have hsize := hon.well.size
            have hsize_pos := hon.size_pos
            have hfour : 4 ≤ payload.length := by
              rw [hlen, packetLen, dataMaxPayload]
              unfold writeBlockSize at hsize
              omega
            have hnone : t.ota.bytesWritten = 0 := by
              rw [hcounted.written, hcounted.bytes, hfirst, Nat.zero_mul, Nat.zero_min]
            exact absurd (hwrong.symm.trans ((headerFits_of_payload hat hfour le_rfl hnone).mpr hon.well.header)) (by decide)
          · have hsome : ¬ t.ota.bytesWritten = 0 := by
              rw [hcounted.written, hcounted.bytes, dataMaxPayload]
              have hsize_pos := hon.size_pos
              omega
            rw [RcvOta.wrongHeader, decide_eq_false fun hboth => hsome hboth.1] at hwrong
            cases hwrong
      | taken =>
        have hfull : payload.take (t.ota.payloadLen (BitVec.ofNat 16 h.packets)) = payload := by
          rw [hwanted, List.take_length]
        refine { hnew, hon with sems := hsems rfl rfl rfl, phase := ⟨rfl, ?_, ?_, hbetween.bytes⟩ }
        · rw [hfull]
          exact hat
        · rw [hlater]
          exact hrest

theorem OnTrack.step (hon : OnTrack payloads h t answered cfg) (hstep : transferStep cfg answers t op = some (t', es)) :
    OnTrack payloads (es.foldl UpdateHistory.follow h) t' (answered ∨ .status .verifyOk ∈ es) cfg := by
  have hnew := hon.toTransferSafe.step hstep
  cases transferMove_of_step hon.place hstep with
  | report hreports hidle hmove =>
    have hkeep := hon.reportMove hreports hidle hmove hnew
    refine { hkeep with phase := hkeep.phase.congr rfl rfl rfl rfl fun _ hbefore => ?_ }
    exact hbefore.imp_right fun hlater => hlater.imp_right fun hlast => hlast.imp_right .inl
  | handler hmove => exact hon.handlerMove hmove hnew
  | writer hmove => exact hon.writerMove hmove hnew

/-- The writer waits only for a command. -/
theorem TransferPlace.writer_waits (hplace : TransferPlace t)
    (hstuck : ∀ garbage, transferStep cfg answers t (.writer garbage) = none) :
    t.ota.writer = .get ∧ t.ota.pageWriteMsgq = [] := by
  have hnone := hstuck fun _ => 0
  simp only [transferStep, updateStep, Option.map_eq_none_iff] at hnone
  cases hwriter : t.ota.writer with
  | get =>
    simp only [RcvOta.writerStep, hwriter] at hnone
    split at hnone
    case h_1 hqueue => exact ⟨rfl, hqueue⟩
    case h_2 => cases hnone
  | program | reading =>
    simp only [RcvOta.writerStep, RcvOta.driverAccepts, hwriter] at hnone
    split at hnone <;> cases hnone
  | got =>
    simp only [RcvOta.writerStep, hwriter] at hnone
    split at hnone <;> cases hnone
  | loop | erase | setError | give | verify | verifyFail | verifyFailCode | verifyOk | status | statusSend =>
    simp [RcvOta.writerStep, RcvOta.driverAccepts, hwriter] at hnone
  | none | exited | activate | activateRun | activateFail | activateFailCode | completed | gone =>
    have hplaces := hplace.writer
    rw [hwriter] at hplaces
    cases hplaces

/-- With an empty queue, the HID command thread waits only for a report or a slot. -/
theorem TransferPlace.handler_waits (hplace : TransferPlace t) (hqueue : t.ota.pageWriteMsgq = [])
    (hstuck : ∀ due, transferStep cfg answers t (.handler due) = none) :
    t.ota.handler = .idle ∨ ((∀ seq payload copied, t.ota.handler ≠ .copying seq payload copied) ∧
      t.ota.pageBufOffset = 0 ∧ t.ota.slotSems t.ota.nextWriteSlot = false) := by
  have hnone := hstuck true
  simp only [transferStep, updateStep, Option.map_eq_none_iff, Bool.or_true] at hnone
  cases hhandler : t.ota.handler with
  | idle => exact .inl rfl
  | filling seq payload copied =>
    simp only [RcvOta.handlerStep, hhandler] at hnone
    split at hnone
    case isTrue =>
      split at hnone
      case isTrue hempty =>
        split at hnone
        case isTrue => cases hnone
        case isFalse htaken => exact .inr ⟨(by simp), hempty, Bool.eq_false_of_not_eq_true htaken⟩
      case isFalse => cases hnone
    case isFalse => cases hnone
  | flushPut | verifyPut =>
    simp [RcvOta.handlerStep, hhandler, RcvOta.put, hqueue, writerQueueSize] at hnone
  | status | statusSend | fail | failCode | copying | flushCheck | flushFill =>
    simp [RcvOta.handlerStep, hhandler] at hnone
  | activatePut | stopFlag | stopWake | stopJoin | stopped =>
    have hplaces := hplace.handler
    rw [hhandler] at hplaces
    cases hplaces

theorem Carries.ne_nil {k : ℕ} {reports : List (List (BitVec 8))} (hcarries : Carries k payloads reports) :
    reports ≠ [] := by
  cases hcarries <;> exact List.cons_ne_nil _ _

/-- Nothing is left to do only when VERIFY_OK was answered. -/
theorem OnTrack.complete (hon : OnTrack payloads h t answered cfg)
    (hstuck : ∀ op, transferStep cfg answers t op = none) : answered := by
  obtain ⟨hwriter, hqueue⟩ := hon.place.writer_waits fun garbage => hstuck (.writer garbage)
  have hpipeline := hon.own.pipeline (by rw [hwriter]; rfl)
  rw [hwriter, hqueue] at hpipeline
  have hidle : t.ota.handler = .idle := by
    refine (hon.place.handler_waits hqueue fun due => hstuck (.handler due)).resolve_right ?_
    rintro ⟨hcopying, hempty, htaken⟩
    rcases hon.sems _ htaken with hmem | hown
    · rw [← hpipeline] at hmem
      cases hmem
    · exact absurd (hown.offset_pos hcopying) (by rw [hempty]; decide)
  have hphase := hon.phase
  rw [hidle] at hphase
  rcases hphase with hbetween | ⟨-, hmem | hchecking | ⟨-, hother | hother⟩ | hgiven⟩
  · -- the next report can come in
    have hreport := hstuck .report
    have hsome := hbetween.reports.ne_nil
    simp only [transferStep] at hreport
    split at hreport
    case h_1 hnone => exact absurd hnone hsome
    case h_2 => simp [updateStep, hidle] at hreport
  · rw [hqueue] at hmem
    cases hmem
  · rw [hwriter] at hchecking
    cases hchecking
  · cases hwriter.symm.trans hother
  · cases hwriter.symm.trans hother
  · exact hgiven

theorem OnTrack.mono (hon : OnTrack payloads h t answered cfg) (himp : answered → answered') :
    OnTrack payloads h t answered' cfg :=
  { hon with
    phase := hon.phase.congr rfl rfl rfl rfl fun _ hbefore =>
      hbefore.imp_right fun hlater => hlater.imp_right fun hlast => hlast.imp_right himp }

/-- The image stays at its place. -/
theorem TransferMove.base (hmove : TransferMove cfg t t' es) : (es.foldl UpdateHistory.follow h).base = h.base := by
  cases hmove with
  | report => rfl
  | handler hmove => cases hmove <;> rfl
  | writer hmove => cases hmove <;> rfl

end Track

/-! ## Transfers from BEGIN on -/

section Start

variable {cfg : FlashConfig} {answers : BeginAnswers} {payloads reports : List (List (BitVec 8))}
  {s s₁ : RcvOta} {es₁ : List UpdateEvent} {uop : UpdateOp} {size base : ℕ} {crc : BitVec 32}

/-- What BEGIN leaves behind. -/
theorem startSession_of_began (hstep : updateStep cfg s uop = some (s₁, es₁)) (hbegan : .began size crc base ∈ es₁) :
    ∃ r beginAnswers, es₁ = [.began size crc base] ∧ s₁ = s.startSession cfg r base ∧ r.imageSize = size ∧
      r.imageCrc32 = crc ∧ beginCheck cfg beginAnswers r = .ok base := by
  cases uop with
  | hid data answers =>
    refine absurd hbegan ?_
    simp only [updateStep] at hstep
    split at hstep
    all_goals cases hstep <;> simp
  | writer ok garbage =>
    refine absurd hbegan ?_
    simp only [updateStep] at hstep
    unfold RcvOta.writerStep at hstep
    repeat' split at hstep
    all_goals cases hstep <;> simp
  | handler ok =>
    simp only [updateStep] at hstep
    cases hplace : s.handler with
    | stopped k =>
      simp only [RcvOta.handlerStep, hplace] at hstep
      cases k with
      | abort =>
        cases hstep
        simp at hbegan
      | start r beginAnswers =>
        simp only [RcvOta.afterStop] at hstep
        split at hstep
        case h_1 =>
          cases hstep
          cases hbegan
        case h_2 base' hcheck =>
          split at hstep
          · cases hstep
            cases hbegan
          · obtain ⟨rfl, rfl⟩ := Prod.mk.inj (Option.some.inj hstep)
            obtain ⟨rfl, rfl, rfl⟩ : size = r.imageSize ∧ crc = r.imageCrc32 ∧ base = base' := by simpa using hbegan
            exact ⟨r, beginAnswers, rfl, rfl, rfl, rfl, hcheck⟩
    | idle | status | statusSend | fail | failCode | filling | copying | flushCheck | flushFill | flushPut | verifyPut
    | activatePut | stopFlag | stopWake | stopJoin =>
      refine absurd hbegan ?_
      simp only [RcvOta.handlerStep, hplace, RcvOta.put] at hstep
      repeat' split at hstep
      all_goals cases hstep <;> simp

/-- An image that is taken in has a byte. -/
theorem beginCheck_pos {r : BeginRequest} (hcheck : beginCheck cfg answers r = .ok base) : 0 < r.imageSize := by
  refine Nat.pos_of_ne_zero fun hzero => ?_
  unfold beginCheck at hcheck
  rw [if_pos (show r.imageSize = 0 ∨ cfg.maxImageSize < r.imageSize from .inl hzero)] at hcheck
  split at hcheck
  · cases hcheck
  split at hcheck
  · cases hcheck
  split at hcheck <;> cases hcheck

theorem Carries.small {k : ℕ} (hcarries : Carries k payloads reports) :
    ∀ payload ∈ payloads, 0 < payload.length ∧ payload.length ≤ dataMaxPayload := by
  induction hcarries with
  | verify => exact fun payload hmem => (by cases hmem)
  | data _ _ _ hpos hle _ ih =>
    intro payload hmem
    rcases List.mem_cons.mp hmem with rfl | hrest
    · exact ⟨hpos, hle⟩
    · exact ih payload hrest

/-- The history of a session that has just begun. -/
def UpdateHistory.begun (size : ℕ) (crc : BitVec 32) (base : ℕ) : UpdateHistory :=
  ⟨size, crc, base, [], 0, [], 0, 0, false, false⟩

variable {flash : ℕ → BitVec 8} {trace : List UpdateEvent}

/-- A transfer begins. -/
theorem transferSafe_start (hrun : (selfUpdateSystem cfg flash).Run trace s)
    (hbegin : updateStep cfg s uop = some (s₁, es₁))
    (haccepted : .began payloads.flatten.length (crc32Ieee payloads.flatten) base ∈ es₁)
    (hcarries : Carries 0 payloads reports) :
    TransferSafe cfg payloads (.begun payloads.flatten.length (crc32Ieee payloads.flatten) base) ⟨s₁, reports⟩ := by
  have hown := (update_invariant hrun).1
  have hver := (session_invariant hrun).1
  obtain ⟨r, beginAnswers, hes, hs, hsize, -, hcheck⟩ := startSession_of_began hbegin haccepted
  have hnewOwn := (updateStep_own hown hbegin).1
  have hnewVer := (updateStep_verify hown hver hbegin).1
  subst hs hes
  have hpos := beginCheck_pos hcheck
  rw [hsize] at hpos
  refine { own := hnewOwn.own nofun, verify := hnewVer.session nofun, place := ?_, size_pos := hpos, flatten := rfl,
           small := hcarries.small, remaining := .inr ⟨0, hcarries⟩, sent := ⟨?_, ?_⟩, words := nofun, broken := nofun,
           verified := nofun }
  · exact ⟨rfl, nofun, rfl, fun cmd hcmd => (by cases hcmd), rfl, .inr ⟨0, payloads, hcarries⟩⟩
  · exact fun j hj => absurd hj (Nat.not_lt_zero j)
  · exact fun hnone => absurd hnone (Nat.lt_irrefl 0)

/-- A transfer that meets the conditions begins. -/
theorem onTrack_start (hrun : (selfUpdateSystem cfg flash).Run trace s)
    (hbegin : updateStep cfg s uop = some (s₁, es₁))
    (haccepted : .began payloads.flatten.length (crc32Ieee payloads.flatten) base ∈ es₁)
    (hcarries : Carries 0 payloads reports) (hwell : WellSent cfg payloads payloads.flatten.length base) :
    OnTrack payloads (.begun payloads.flatten.length (crc32Ieee payloads.flatten) base) ⟨s₁, reports⟩ False cfg := by
  have hsafe := transferSafe_start hrun hbegin haccepted hcarries
  obtain ⟨r, beginAnswers, -, hs, -⟩ := startSession_of_began hbegin haccepted
  subst hs
  exact { hsafe with well := hwell, crc := rfl, fine := rfl, writer := rfl, lens := fun slot hslot => (by cases hslot),
                     sems := fun slot hfalse => (by cases hfalse), phase := ⟨rfl, hcarries, rfl⟩ }

/-- Every transfer comes to an end, and when nothing is left to do, VERIFY_OK was answered exactly if every report had
the bytes of its packet, the image begins as the build's images do, and its size and its place in the flash are multiples
of the write block. -/
theorem update_completes (hrun : (selfUpdateSystem cfg flash).Run trace s)
    (hbegin : updateStep cfg s uop = some (s₁, es₁))
    (haccepted : .began payloads.flatten.length (crc32Ieee payloads.flatten) base ∈ es₁)
    (hcarries : Carries 0 payloads reports) (answers : BeginAnswers) :
    ∃ bound, ∀ ops t es, (transferSystem cfg answers s₁ reports).exec ⟨s₁, reports⟩ ops = some (t, es) →
      ops.length ≤ bound ∧ ((∀ op, transferStep cfg answers t op = none) →
        (.status .verifyOk ∈ es ↔ WellSent cfg payloads payloads.flatten.length base)) := by
  have hstart := transferSafe_start hrun hbegin haccepted hcarries
  let h₁ := UpdateHistory.begun payloads.flatten.length (crc32Ieee payloads.flatten) base
  refine ⟨(⟨s₁, reports⟩ : Transfer).work, fun ops t es hexec =>
    ⟨?_, fun hstuck => ⟨fun hgood => ?_, fun hwell => ?_⟩⟩⟩
  · refine Nat.le_trans (Nat.le_add_right _ _) (EventSystem.exec_length_le
      (P := fun es t => TransferSafe cfg payloads (es.foldl UpdateHistory.follow h₁) t) ?_ ?_ hstart hexec)
    · intro trace t op t' es hsafe hstep
      rw [List.foldl_append]
      exact hsafe.step hstep
    · exact fun trace t op t' es hsafe hstep => hsafe.toTransferring.work_lt hstep
  · -- VERIFY_OK is answered only to an image that was verified
    have hsafe := EventSystem.exec_invariant
      (P := fun es t => TransferSafe cfg payloads (es.foldl UpdateHistory.follow h₁) t ∧
        (es.foldl UpdateHistory.follow h₁).base = base ∧
        (UpdateEvent.status .verifyOk ∈ es → WellSent cfg payloads payloads.flatten.length base))
      ?_ ⟨hstart, rfl, fun hmem => (by cases hmem)⟩ hexec
    · exact hsafe.2.2 hgood
    · rintro trace t op t' es ⟨hsafe, hbase, hsound⟩ hstep
      rw [List.foldl_append]
      refine ⟨hsafe.step hstep, (transferMove_of_step hsafe.place hstep).base.trans hbase, fun hmem => ?_⟩
      rcases List.mem_append.mp hmem with hold | hnew
      · exact hsound hold
      · obtain ⟨uop', htaken⟩ := updateStep_of_transferStep hstep
        have hmanned := hsafe.place.manned
        have hverified := (updateStep_verify ⟨fun hnone => absurd hnone hmanned, fun _ => hsafe.own⟩
          ⟨fun hnone => absurd hnone hmanned, fun _ => hsafe.verify⟩ htaken).2 _ hnew rfl
        have hwell := hsafe.verified hverified
        rwa [hbase, ← hsafe.flatten] at hwell
  · have hon := EventSystem.exec_invariant
      (P := fun es t => OnTrack payloads (es.foldl UpdateHistory.follow h₁) t (UpdateEvent.status .verifyOk ∈ es) cfg)
      ?_ ((onTrack_start hrun hbegin haccepted hcarries hwell).mono False.elim) hexec
    · exact hon.complete hstuck
    · intro trace t op t' es hon hstep
      rw [List.foldl_append]
      exact (hon.step hstep).mono List.mem_append.mpr

/-- Nothing is left to do. -/
def Transfer.waiting (t : Transfer) : Bool :=
  match t.ota.handler, t.ota.writer, t.ota.pageWriteMsgq, t.reports with
  | .idle, .get, [], [] => true
  | _, _, _, _ => false

theorem transferStep_waiting {t : Transfer} (hwaiting : t.waiting = true) (op : TransferOp) :
    transferStep cfg answers t op = none := by
  unfold Transfer.waiting at hwaiting
  split at hwaiting
  case h_1 hidle hget hqueue hreports =>
    cases op with
    | report => simp [transferStep, hreports]
    | handler => simp [transferStep, updateStep, RcvOta.handlerStep, hidle]
    | writer => simp [transferStep, updateStep, RcvOta.writerStep, hget, hqueue]
  case h_2 => cases hwaiting

/-- What BEGIN finds on a board without MCUboot. -/
def plainAnswers : BeginAnswers := ⟨false, true, true, true, fun _ => 0⟩

/-- A transfer of one packet, in which the writer waits for the HID command thread. -/
def onePacket : List TransferOp :=
  List.replicate 2 (TransferOp.handler true) ++ [TransferOp.report] ++ List.replicate 2 (TransferOp.handler true) ++
    [TransferOp.handler false, .report] ++ List.replicate 4 (TransferOp.handler true) ++
      List.replicate 16 (TransferOp.writer fun _ => 0)

/-- An image of one word, with its checksum. -/
theorem update_completes_word : ∃ trace s s₁ es₁ base ops t es,
    (selfUpdateSystem fourPages fun _ => 0xFF).Run trace s ∧
    updateStep fourPages s (.handler true) = some (s₁, es₁) ∧
    .began 4 (crc32Ieee [1, 2, 3, 4]) base ∈ es₁ ∧
    (transferSystem fourPages plainAnswers s₁ [[0xF3, 0, 0, 0, 1, 2, 3, 4], [0xF5, 0]]).exec
      ⟨s₁, [[0xF3, 0, 0, 0, 1, 2, 3, 4], [0xF5, 0]]⟩ ops = some (t, es) ∧ .status .verifyOk ∈ es := by
  obtain ⟨trace, s, hrun, htest⟩ := (selfUpdateSystem fourPages fun _ => 0xFF).exists_run_of_replay
    [.hid ([0xF2, 0, 4, 0, 0, 0, 0xCD, 0xFB, 0x3C, 0xB6, 0, 0, 1] ++ List.replicate 51 0) plainAnswers]
    (fun _ s => match updateStep fourPages s (.handler true) with
      | some (s₁, es₁) => decide (UpdateEvent.began 4 (crc32Ieee [1, 2, 3, 4]) 12288 ∈ es₁) &&
        ((transferSystem fourPages plainAnswers s₁ [[0xF3, 0, 0, 0, 1, 2, 3, 4], [0xF5, 0]]).exec
          ⟨s₁, [[0xF3, 0, 0, 0, 1, 2, 3, 4], [0xF5, 0]]⟩ onePacket).any fun r => r.1.waiting
      | none => false) (by decide +kernel)
  have hcarries : Carries 0 [[1, 2, 3, 4]] [[0xF3, 0, 0, 0, 1, 2, 3, 4], [0xF5, 0]] :=
    .data (by decide) rfl (by decide) (by decide) (by decide) (.verify (by decide) rfl)
  have hwell : WellSent fourPages [[1, 2, 3, 4]] 4 12288 := by
    refine ⟨fun k payload hk => ?_, by decide, rfl, rfl⟩
    cases k with
    | zero =>
      obtain rfl := Option.some.inj hk
      rfl
    | succ k => cases hk
  split at htest
  case h_1 s₁ es₁ hbegin =>
    obtain ⟨hbegan, hends⟩ := Bool.and_eq_true_iff.mp htest
    obtain ⟨⟨t, es⟩, hexec, hwaiting⟩ := (Option.any_eq_true _ _).mp hends
    have haccepted : .began ([[1, 2, 3, 4]] : List (List (BitVec 8))).flatten.length
        (crc32Ieee ([[1, 2, 3, 4]] : List (List (BitVec 8))).flatten) 12288 ∈ es₁ := of_decide_eq_true hbegan
    obtain ⟨bound, hall⟩ := update_completes hrun hbegin haccepted hcarries plainAnswers
    have hgood := ((hall _ t es hexec).2 (transferStep_waiting hwaiting)).mpr hwell
    exact ⟨trace, s, s₁, es₁, 12288, _, t, es, hrun, hbegin, of_decide_eq_true hbegan, hexec, hgood⟩
  case h_2 => cases htest

/-- An image of one byte is sent in full, in its one packet, and is not verified: the driver does not take its write. -/
theorem byte_not_verified : ¬ ∀ (cfg : FlashConfig) (flash : ℕ → BitVec 8) (trace : List UpdateEvent) (s s₁ : RcvOta)
    (uop : UpdateOp) (es₁ : List UpdateEvent) (base : ℕ) (payloads reports : List (List (BitVec 8)))
    (answers : BeginAnswers), (selfUpdateSystem cfg flash).Run trace s → updateStep cfg s uop = some (s₁, es₁) →
      .began payloads.flatten.length (crc32Ieee payloads.flatten) base ∈ es₁ → Carries 0 payloads reports →
      CutInPackets payloads payloads.flatten.length → HeaderFits cfg payloads.flatten → base % writeBlockSize = 0 →
      ∀ ops t es, (transferSystem cfg answers s₁ reports).exec ⟨s₁, reports⟩ ops = some (t, es) →
        (∀ op, transferStep cfg answers t op = none) → .status .verifyOk ∈ es := by
  intro hclaim
  obtain ⟨trace, s, hrun, htest⟩ := (selfUpdateSystem fourPages fun _ => 0xFF).exists_run_of_replay
    [.hid ([0xF2, 0, 1, 0, 0, 0, 0x2E, 0x7A, 0x66, 0x4C, 0, 0, 1] ++ List.replicate 51 0) plainAnswers]
    (fun _ s => match updateStep fourPages s (.handler true) with
      | some (s₁, es₁) => decide (UpdateEvent.began 1 (crc32Ieee [7]) 12288 ∈ es₁) &&
        ((transferSystem fourPages plainAnswers s₁ [[0xF3, 0, 0, 0, 7], [0xF5, 0]]).exec
          ⟨s₁, [[0xF3, 0, 0, 0, 7], [0xF5, 0]]⟩ onePacket).any fun r =>
            r.1.waiting && decide (UpdateEvent.status .verifyOk ∉ r.2)
      | none => false) (by decide +kernel)
  have hcarries : Carries 0 [[7]] [[0xF3, 0, 0, 0, 7], [0xF5, 0]] :=
    .data (by decide) rfl (by decide) (by decide) (by decide) (.verify (by decide) rfl)
  have hpackets : CutInPackets [[7]] 1 := by
    intro k payload hk
    cases k with
    | zero =>
      obtain rfl := Option.some.inj hk
      rfl
    | succ k => cases hk
  split at htest
  case h_1 s₁ es₁ hbegin =>
    obtain ⟨hbegan, hends⟩ := Bool.and_eq_true_iff.mp htest
    obtain ⟨⟨t, es⟩, hexec, hlast⟩ := (Option.any_eq_true _ _).mp hends
    obtain ⟨hwaiting, hbad⟩ := Bool.and_eq_true_iff.mp hlast
    have haccepted : .began ([[7]] : List (List (BitVec 8))).flatten.length
        (crc32Ieee ([[7]] : List (List (BitVec 8))).flatten) 12288 ∈ es₁ := of_decide_eq_true hbegan
    exact of_decide_eq_true hbad (hclaim _ _ _ _ _ _ _ _ _ _ plainAnswers hrun hbegin haccepted hcarries hpackets
      (by decide) rfl _ t es hexec (transferStep_waiting hwaiting))
  case h_2 => cases htest

end Start

end SlimeReceiver.SelfUpdate
