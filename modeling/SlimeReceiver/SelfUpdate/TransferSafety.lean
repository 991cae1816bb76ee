import SlimeReceiver.SelfUpdate.Transfer

/-! # What an image that was verified has been through

An image is verified only if its packets were those of the image, it begins as the build's images do, and its size and
its place in the flash are multiples of the write block.

* **`WellSent`** — these conditions.
* **`TransferSafe`** — what is known of a transfer, whatever is sent.
* **`TransferSafe.step`** — it is kept by every step. -/

namespace SlimeReceiver.SelfUpdate

open Function (update update_self update_of_ne)

/-! ## The conditions -/

/-- The image begins as the build's images do. -/
def HeaderFits (cfg : FlashConfig) (image : List (BitVec 8)) : Prop :=
  le32 (image.getD 0 0) (image.getD 1 0) (image.getD 2 0) (image.getD 3 0) = 0x96F3B83D ↔ cfg.useMcuboot = true

instance (cfg : FlashConfig) (image : List (BitVec 8)) : Decidable (HeaderFits cfg image) :=
  inferInstanceAs (Decidable (_ ↔ _))

/-- Every payload has the bytes of its packet. -/
def CutInPackets (payloads : List (List (BitVec 8))) (size : ℕ) : Prop :=
  ∀ k payload, payloads[k]? = some payload → payload.length = packetLen size k

/-- The conditions. -/
structure WellSent (cfg : FlashConfig) (payloads : List (List (BitVec 8))) (size base : ℕ) : Prop where
  packets : CutInPackets payloads size
  header : HeaderFits cfg payloads.flatten
  size : size % writeBlockSize = 0
  base : base % writeBlockSize = 0

section Cutting

variable {payloads : List (List (BitVec 8))} {size m : ℕ}

/-- Payloads that are long enough for their packets, up to the end of the image, are all there are. -/
theorem cutInPackets_of_le (hsize : payloads.flatten.length = size)
    (hsmall : ∀ payload ∈ payloads, 0 < payload.length ∧ payload.length ≤ dataMaxPayload)
    (hm : size ≤ m * dataMaxPayload)
    (hlong : ∀ j < m, ∃ payload, payloads[j]? = some payload ∧ packetLen size j ≤ payload.length) :
    CutInPackets payloads size := by
  unfold dataMaxPayload at *
  induction payloads generalizing size m with
  | nil => exact fun k payload hk => (by cases hk)
  | cons first rest ih =>
    rw [List.flatten_cons, List.length_append] at hsize
    obtain ⟨hpos, hle⟩ := hsmall first List.mem_cons_self
    cases m with
    | zero => omega
    | succ m =>
      obtain ⟨payload, hfirst, hlen⟩ := hlong 0 (Nat.succ_pos m)
      obtain rfl := Option.some.inj hfirst
      rw [packetLen, dataMaxPayload, Nat.zero_mul, Nat.sub_zero] at hlen
      have hshift : ∀ j, packetLen size (j + 1) = packetLen (size - 60) j := by
        intro j
        rw [packetLen, packetLen, dataMaxPayload]
        omega
      have hrest : CutInPackets rest (size - 60) := by
        refine ih (by omega) (fun payload hmem => hsmall payload (List.mem_cons_of_mem _ hmem)) (m := m) (by omega) ?_
        intro j hj
        obtain ⟨payload, hat, hlen⟩ := hlong (j + 1) (Nat.succ_lt_succ hj)
        rw [hshift] at hlen
        exact ⟨payload, hat, hlen⟩
      intro k payload hk
      cases k with
      | zero =>
        obtain rfl := Option.some.inj hk
        rw [packetLen, dataMaxPayload]
        omega
      | succ k =>
        rw [hshift]
        exact hrest k payload hk

/-- The first bytes of the first payload are those of the image. -/
theorem headerFits_of_payload {cfg : FlashConfig} {s : RcvOta} {payload : List (BitVec 8)} {n : ℕ}
    (hfirst : payloads[0]? = some payload) (hn : 4 ≤ n) (hlen : n ≤ payload.length) (hwritten : s.bytesWritten = 0) :
    s.wrongHeader cfg (payload.take n) = false ↔ HeaderFits cfg payloads.flatten := by
  cases payloads with
  | nil => cases hfirst
  | cons first rest =>
    obtain rfl := Option.some.inj hfirst
    have hbyte : ∀ i < 4, (first.take n).getD i 0 = (first :: rest).flatten.getD i 0 := by
      intro i hi
      rw [List.flatten_cons, List.getD_append _ _ _ _ (by omega), List.getD_eq_getElem?_getD, List.getElem?_take_of_lt
        (by omega), ← List.getD_eq_getElem?_getD]
    have hlong : 4 ≤ (first.take n).length := by
      rw [List.length_take]
      omega
    unfold RcvOta.wrongHeader HeaderFits
    rw [hbyte 0 (by decide), hbyte 1 (by decide), hbyte 2 (by decide), hbyte 3 (by decide),
      decide_eq_true (show s.bytesWritten = 0 ∧ 4 ≤ (first.take n).length from ⟨hwritten, hlong⟩), Bool.true_and,
      bne_eq_false_iff_eq]
    cases cfg.useMcuboot with
    | false => simp
    | true => simp

end Cutting

/-! ## What an image that was verified has been through -/

/-- A packet is being copied. -/
def Handler.packetsAhead : Handler → ℕ
  | .filling _ _ _ | .copying _ _ _ | .flushCheck (.data _ _ _) | .flushFill (.data _ _ _)
  | .flushPut (.data _ _ _) => 1
  | _ => 0

/-- The packets so far were sent in full. -/
structure PacketsSent (cfg : FlashConfig) (payloads : List (List (BitVec 8))) (size n : ℕ) : Prop where
  packets : ∀ j < n, ∃ payload, payloads[j]? = some payload ∧ packetLen size j ≤ payload.length
  header : 0 < n → 4 ≤ size → HeaderFits cfg payloads.flatten

/-- The pages in the flash were whole words at words' addresses. -/
def WordsStored (h : UpdateHistory) (writer : Writer) (stream : List (BitVec 8)) : Prop :=
  h.failed = false → writer.broken = false → 0 < h.released + writer.stored →
    h.base % writeBlockSize = 0 ∧ ∀ k < h.released + writer.stored, stream.length < flashPageSize * (k + 1) →
      stream.length % writeBlockSize = 0

/-- What is known of a transfer, whatever is sent. -/
structure TransferSafe (cfg : FlashConfig) (payloads : List (List (BitVec 8))) (h : UpdateHistory) (t : Transfer) :
    Prop extends Transferring cfg h t where
  size_pos : 0 < h.size
  flatten : payloads.flatten.length = h.size
  small : ∀ payload ∈ payloads, 0 < payload.length ∧ payload.length ≤ dataMaxPayload
  remaining : t.reports = [] ∨ ∃ k, Carries k (payloads.drop k) t.reports
  sent : PacketsSent cfg payloads h.size (h.packets + t.ota.handler.packetsAhead)
  words : WordsStored h t.ota.writer t.ota.stream
  broken : t.ota.writer.broken = true → h.failed = true
  verified : h.verified = true → WellSent cfg payloads h.size h.base

section Safe

variable {cfg : FlashConfig} {answers : BeginAnswers} {payloads : List (List (BitVec 8))} {h : UpdateHistory}
  {t t' : Transfer} {s' : RcvOta} {es : List UpdateEvent} {op : TransferOp}

/-- The page the writer has is submitted. -/
theorem OwnInvariant.stored_le (hown : OwnInvariant h t.ota) : t.ota.writer.stored ≤ h.outstanding.length := by
  cases hplace : t.ota.writer with
  | give slot =>
    have hpipeline := hown.pipeline (by rw [hplace]; rfl)
    rw [hplace] at hpipeline
    rw [← hpipeline]
    exact Nat.le_add_left 1 _
  | none | exited | loop | get | got | erase | program | setError | verify | reading | verifyFail | verifyFailCode
  | verifyOk | status | statusSend | activate | activateRun | activateFail | activateFailCode | completed | gone =>
    exact Nat.zero_le _

/-- The writer begins a page with what was submitted. -/
theorem TransferSafe.page (hsafe : TransferSafe cfg payloads h t) {slot : Bool} (hplace : t.ota.writer = .program slot) :
    (t.ota.pageWriteReqs slot).addr = h.base + flashPageSize * h.released ∧
      (t.ota.pageWriteReqs slot).len = min flashPageSize (t.ota.stream.length - flashPageSize * h.released) ∧
        slot ∈ h.outstanding := by
  have hpipeline := hsafe.own.pipeline (by rw [hplace]; rfl)
  rw [hplace] at hpipeline
  have hfirst : h.outstanding[0]? = some slot := by
    rw [← hpipeline]
    rfl
  exact ⟨hsafe.own.addrs 0 slot hfirst, (hsafe.verify.pages 0 slot hfirst).1, List.mem_of_getElem? hfirst⟩

/-- The stream grows beyond the pages submitted. -/
theorem WordsStored.grow {writer : Writer} {stream bytes : List (BitVec 8)} (hwords : WordsStored h writer stream)
    (hfull : flashPageSize * (h.released + writer.stored) ≤ stream.length) :
    WordsStored h writer (stream ++ bytes) := by
  intro hfailed hbroken hpos
  refine ⟨(hwords hfailed hbroken hpos).1, fun k hk hpart => ?_⟩
  have hwhole : flashPageSize * (k + 1) ≤ stream.length :=
    calc flashPageSize * (k + 1) ≤ flashPageSize * (h.released + writer.stored) := Nat.mul_le_mul_left _ hk
      _ ≤ stream.length := hfull
  rw [List.length_append] at hpart
  omega

/-- The driver takes a page. -/
theorem TransferSafe.program (hsafe : TransferSafe cfg payloads h t) {slot : Bool} (hplace : t.ota.writer = .program slot)
    (haddr : (t.ota.pageWriteReqs slot).addr % writeBlockSize = 0)
    (hlen : (t.ota.pageWriteReqs slot).len % writeBlockSize = 0) : WordsStored h (.give slot) t.ota.stream := by
  obtain ⟨haddr', hlen', -⟩ := hsafe.page hplace
  intro hfailed _ _
  have hbefore := hsafe.words hfailed (by rw [hplace]; rfl)
  rw [hplace] at hbefore
  rw [haddr'] at haddr
  rw [hlen'] at hlen
  have hstored : h.released + (Writer.give slot).stored = h.released + 1 := rfl
  have hstored' : h.released + (Writer.program slot).stored = h.released := rfl
  rw [hstored'] at hbefore
  rw [hstored]
  unfold flashPageSize writeBlockSize at *
  refine ⟨by omega, fun k hk hpart => ?_⟩
  by_cases hold : t.ota.stream.length < 4096 * h.released
  · -- the page before was the last one
    have hpos : 0 < h.released := by omega
    have hlast := (hbefore hpos).2 (h.released - 1) (by omega)
    rw [Nat.sub_add_cancel hpos] at hlast
    exact hlast hold
  · by_cases hlast : k = h.released
    · subst hlast
      omega
    · omega

/-- The check went well: the image is in the flash, in whole words. -/
theorem TransferSafe.check (hsafe : TransferSafe cfg payloads h t) (hplace : t.ota.writer = .verifyOk) :
    WellSent cfg payloads h.size h.base := by
  have hchecking : Checking h t.ota.writer t.ota.pageWriteMsgq t.ota.errorCode t.ota.writerError t.ota.flash
      t.ota.stream := by
    cases hsafe.verify.stage with
    | checking hs => exact hs
    | storing hs =>
      have hwriter := hs.writer
      rw [hplace] at hwriter
      cases hwriter
    | settled hs =>
      have hwriter := hs.writer
      rw [hplace] at hwriter
      cases hwriter
  rcases hchecking.pending with ⟨hstoring, -⟩ | ⟨-, hgiven, -, hknown⟩
  · rw [hplace] at hstoring
    cases hstoring
  rw [hplace] at hknown
  obtain ⟨hfine, -⟩ := hknown
  have hbroken : t.ota.writer.broken = false := by rw [hplace]; rfl
  have hfailed : h.failed = false := by
    refine Bool.eq_false_of_not_eq_true fun hfailed => ?_
    rcases hsafe.verify.staged.failed hfailed with herror | hstill
    · cases hfine.symm.trans herror
    · cases hbroken.symm.trans hstill
  have hlength : t.ota.stream.length = h.size := by rw [hchecking.copied, hchecking.whole]
  have hpages := hchecking.pages
  have hstored : h.released + t.ota.writer.stored = h.released := by rw [hplace]; rfl
  have hpos := hsafe.size_pos
  rw [hgiven, List.length_nil, Nat.add_zero, hlength] at hpages
  have hreleased : 0 < h.released := by
    by_contra hnone
    rw [Nat.eq_zero_of_not_pos hnone, Nat.mul_zero] at hpages
    omega
  have hwords := hsafe.words hfailed hbroken (by omega)
  rw [hstored, hlength] at hwords
  obtain ⟨hbase, hlast⟩ := hwords
  have hsize : h.size % writeBlockSize = 0 := by
    have hlast' := hlast (h.released - 1) (by omega)
    rw [Nat.sub_add_cancel hreleased] at hlast'
    by_cases hpart : h.size < flashPageSize * h.released
    · exact hlast' hpart
    · unfold flashPageSize writeBlockSize at *
      omega
  have hcounted := hsafe.verify.counted.bytes
  rw [hchecking.whole] at hcounted
  have hpackets : h.size ≤ h.packets * dataMaxPayload := by omega
  refine ⟨?_, ?_, hsize, hbase⟩
  · exact cutInPackets_of_le hsafe.flatten hsafe.small hpackets fun j hj =>
      hsafe.sent.packets j (Nat.lt_of_lt_of_le hj (Nat.le_add_right _ _))
  · refine hsafe.sent.header ?_ ?_
    · by_contra hnone
      have hzero : h.packets = 0 := by omega
      rw [hzero, Nat.zero_mul] at hpackets
      omega
    · unfold writeBlockSize at hsize
      omega

theorem PacketsSent.mono {size n m : ℕ} (hsent : PacketsSent cfg payloads size n) (hle : m ≤ n) :
    PacketsSent cfg payloads size m :=
  ⟨fun j hj => hsent.packets j (Nat.lt_of_lt_of_le hj hle), fun hm => hsent.header (Nat.lt_of_lt_of_le hm hle)⟩

theorem TransferSafe.handlerMove (hsafe : TransferSafe cfg payloads h t) (hmove : HandlerMove t.ota s' es)
    (hnew : Transferring cfg (es.foldl UpdateHistory.follow h) ⟨s', t.reports⟩) :
    TransferSafe cfg payloads (es.foldl UpdateHistory.follow h) ⟨s', t.reports⟩ := by
  have hsent := hsafe.sent
  cases hmove with
  | status hplace | statusSend hplace | fail hplace | failCode hplace | flushFail hplace | verifyPut hplace =>
    exact { hnew, hsafe with sent := hsent.mono (Nat.le_add_right _ _) }
  | take hplace | resume hplace =>
    rw [hplace] at hsent
    exact { hnew, hsafe with sent := hsent }
  | @flushCheck k hplace | @flushFill k hplace =>
    rw [hplace] at hsent
    refine { hnew, hsafe with sent := ?_ }
    cases k with
    | data | verify => exact hsent
  | accept hplace _ hnext =>
    rw [hplace] at hsent
    rcases hnext with rfl | rfl
    · exact { hnew, hsafe with sent := hsent, verified := nofun }
    · exact { hnew, hsafe with sent := hsent, verified := nofun }
  | @copy seq payload copied hplace =>
    have hknows := hsafe.verify.place
    rw [hplace] at hknows hsent
    have hfull : flashPageSize * (h.released + t.ota.writer.stored) ≤ t.ota.stream.length :=
      calc flashPageSize * (h.released + t.ota.writer.stored) ≤ flashPageSize * h.pages :=
            Nat.mul_le_mul_left _ (Nat.add_le_add_left hsafe.own.stored_le _)
        _ ≤ flashPageSize * h.pages + t.ota.pageBufOffset := Nat.le_add_right _ _
        _ = t.ota.stream.length := hknows.2.1.length.symm
    refine { hnew, hsafe with sent := ?_, words := hsafe.words.grow hfull }
    dsimp only
    split <;> exact hsent
  | @flushPut k hplace =>
    rw [hplace] at hsent
    refine { hnew, hsafe with sent := ?_ }
    cases k with
    | data | verify => exact hsent

theorem TransferSafe.writerMove (hsafe : TransferSafe cfg payloads h t) (hmove : WriterMove cfg t.ota s' es)
    (hnew : Transferring cfg (es.foldl UpdateHistory.follow h) ⟨s', t.reports⟩) :
    TransferSafe cfg payloads (es.foldl UpdateHistory.follow h) ⟨s', t.reports⟩ := by
  have hwords := hsafe.words
  cases hmove with
  | loop hplace | get hplace | check hplace | erase hplace | verifyError hplace | verify hplace | read hplace
  | mismatch hplace | matched hplace | verifyFailCode hplace | status hplace | statusSend hplace =>
    rw [hplace] at hwords
    exact { hnew, hsafe with words := hwords, broken := by rintro ⟨⟩ }
  | verifyFail hplace =>
    rw [hplace] at hwords
    exact { hnew, hsafe with words := hwords, broken := by rintro ⟨⟩, verified := by rintro ⟨⟩ }
  | page hplace =>
    rw [hplace] at hwords
    refine { hnew, hsafe with words := ?_, broken := ?_ }
    · simp only [RcvOta.startCommand]
      split <;> exact hwords
    · simp only [RcvOta.startCommand]
      split <;> rintro ⟨⟩
  | program hplace haddr hlen =>
    exact { hnew, hsafe with words := hsafe.program hplace haddr hlen, broken := by rintro ⟨⟩ }
  | refuse => exact { hnew, hsafe with words := by rintro ⟨⟩, broken := fun _ => rfl }
  | setError hplace =>
    have hfailed := hsafe.broken (by rw [hplace]; rfl)
    exact { hnew, hsafe with
      words := fun hfine => absurd (hfailed.symm.trans hfine) (by decide)
      broken := by rintro ⟨⟩ }
  | give hplace =>
    rw [hplace] at hwords
    exact { hnew, hsafe with words := hwords, broken := by rintro ⟨⟩ }
  | verifyOk hplace =>
    have hcheck := hsafe.check hplace
    rw [hplace] at hwords
    exact { hnew, hsafe with words := hwords, broken := by rintro ⟨⟩, verified := fun _ => hcheck }

/-- The report of a packet is the next one. -/
theorem TransferSafe.next (hsafe : TransferSafe cfg payloads h t) {data payload : List (BitVec 8)} {seq : BitVec 16}
    {rest : List (List (BitVec 8))} (hreports : t.reports = data :: rest)
    (hparse : parseReport data = .data (some (seq, payload))) :
    ∃ k, k < 65536 ∧ seq = BitVec.ofNat 16 k ∧ payloads[k]? = some payload ∧ Carries (k + 1) (payloads.drop (k + 1)) rest := by
  rcases hsafe.remaining with hnone | ⟨k, hcarries⟩
  · cases hnone.symm.trans hreports
  · rw [hreports] at hcarries
    generalize hdrop : payloads.drop k = left at hcarries
    cases hcarries with
    | verify _ hverify => cases hverify.symm.trans hparse
    | @data _ _ payload' payloads' _ _ hdata hk _ _ hrest =>
      obtain ⟨rfl, rfl⟩ : BitVec.ofNat 16 k = seq ∧ payload' = payload := by
        have hsame := hdata.symm.trans hparse
        simpa using hsame
      refine ⟨k, hk, rfl, ?_, ?_⟩
      · rw [← List.head?_drop, hdrop]
        rfl
      · rw [← List.tail_drop, hdrop]
        exact hrest

theorem TransferSafe.reportMove {data : List (BitVec 8)} {rest : List (List (BitVec 8))}
    (hsafe : TransferSafe cfg payloads h t) (hreports : t.reports = data :: rest) (hidle : t.ota.handler = .idle)
    (hmove : ReportMove cfg t.ota (parseReport data) s') (hnew : Transferring cfg h ⟨s', rest⟩) :
    TransferSafe cfg payloads h ⟨s', rest⟩ := by
  have hsent := hsafe.sent
  rw [hidle] at hsent
  generalize hparse : parseReport data = kind at hmove
  cases hmove with
  | @data seq payload s' hdata =>
    obtain ⟨k, hk, rfl, hat, hrest⟩ := hsafe.next hreports hparse
    cases hdata with
    | ignored => exact { hnew, hsafe with remaining := .inr ⟨_, hrest⟩ }
    | refused => exact { hnew, hsafe with remaining := .inr ⟨_, hrest⟩, sent := hsent }
    | taken hopen hfine hmore hseq hlong hheader =>
      have hcounted := hsafe.verify.counted
      have hkth : k = h.packets := by
        rw [← hcounted.seq, ← hseq, BitVec.toNat_ofNat, Nat.mod_eq_of_lt hk]
      subst hkth
      have hlen : t.ota.payloadLen (BitVec.ofNat 16 h.packets) = packetLen h.size h.packets := by
        rw [RcvOta.payloadLen, packetLen, BitVec.toNat_ofNat, Nat.mod_eq_of_lt hk, hcounted.size]
      rw [hlen] at hlong hheader
      refine { hnew, hsafe with remaining := .inr ⟨_, hrest⟩, sent := ⟨fun j hj => ?_, fun _ hsize => ?_⟩ }
      · rcases Nat.lt_succ_iff_lt_or_eq.mp hj with hold | rfl
        · exact hsent.packets j hold
        · exact ⟨payload, hat, hlong⟩
      · by_cases hfirst : h.packets = 0
        · rw [hfirst] at hat hlong hheader
          have hfour : 4 ≤ packetLen h.size 0 := by
            rw [packetLen, dataMaxPayload]
            omega
          refine (headerFits_of_payload hat hfour hlong ?_).mp hheader
          rw [hcounted.written, hcounted.bytes, hfirst, Nat.zero_mul, Nat.zero_min]
        · exact hsent.header (Nat.pos_of_ne_zero hfirst) hsize
  | verify hverify =>
    have hlast : rest = [] := by
      rcases hsafe.remaining with hnone | ⟨k, hcarries⟩
      · cases hnone.symm.trans hreports
      · rw [hreports] at hcarries
        generalize payloads.drop k = left at hcarries
        cases hcarries with
        | verify => rfl
        | data _ hdata => cases hdata.symm.trans hparse
    cases hverify with
    | late | incomplete | flush | put => exact { hnew, hsafe with remaining := .inl hlast, sent := hsent }

theorem TransferSafe.step (hsafe : TransferSafe cfg payloads h t) (hstep : transferStep cfg answers t op = some (t', es)) :
    TransferSafe cfg payloads (es.foldl UpdateHistory.follow h) t' := by
  have hnew := hsafe.toTransferring.step hstep
  cases transferMove_of_step hsafe.place hstep with
  | report hreports hidle hmove => exact hsafe.reportMove hreports hidle hmove hnew
  | handler hmove => exact hsafe.handlerMove hmove hnew
  | writer hmove => exact hsafe.writerMove hmove hnew

end Safe

end SlimeReceiver.SelfUpdate
