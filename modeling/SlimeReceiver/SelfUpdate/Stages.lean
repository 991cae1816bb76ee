import SlimeReceiver.SelfUpdate.Contents

/-! # The stages of a session

A session stores pages, then checks the image once, and then waits for its activation.

* **`Sound`** — the image is in the flash, and is the one announced.
* **`Storing`**, **`Checking`**, **`Settled`** — the stages, told from the writer and its queue.
* **`Storing.step`**, **`Checking.step`**, **`Settled.step`** — what the writer makes of them. -/

namespace SlimeReceiver.SelfUpdate

open Function (update)

/-- The flash holds exactly the bytes of the packets accepted, a whole image with the right checksum, and no page
failed. -/
structure Sound (h : UpdateHistory) (flash : ℕ → BitVec 8) : Prop where
  staged : readFlash flash h.base h.size = h.bytes
  whole : h.bytes.length = h.size
  crc : crc32Ieee h.bytes = h.crc
  stored : h.failed = false

/-- DATA is taken in. -/
def RcvOtaState.opened : RcvOtaState → Bool
  | .ready | .receiving => true
  | _ => false

/-- A command while pages are stored. -/
def WriterCmd.stores : WriterCmd → Bool
  | .page _ | .shutdown => true
  | .verify | .activate => false

/-- The writer may be storing pages. -/
def Writer.storing : Writer → Bool
  | .exited | .loop | .get | .erase _ | .program _ | .setError _ | .give _ => true
  | .got cmd => cmd.stores
  | _ => false

/-- The writer checks the image. -/
def Writer.checking : Writer → Bool
  | .got .verify | .verify | .reading _ _ | .verifyFail _ | .verifyOk => true
  | _ => false

/-- The writer has no page and no image to check. -/
def Writer.settled : Writer → Bool
  | .none | .got (.page _) | .got .verify | .erase _ | .program _ | .setError _ | .give _ | .verify | .reading _ _
  | .verifyFail _ | .verifyOk => false
  | _ => true

/-- What the writer knows while it checks the image. -/
def CheckOk (h : UpdateHistory) (writerError : Bool) (flash : ℕ → BitVec 8) : Writer → Prop
  | .reading pos crc => writerError = false ∧ pos ≤ h.size ∧ crc = crc32Ieee (readFlash flash h.base pos)
  | .verifyOk => writerError = false ∧ crc32Ieee (readFlash flash h.base h.size) = h.crc
  | .verifyFail code => code ≠ .verifyOk
  | _ => True

/-- What it knows afterwards. -/
def SettledOk (h : UpdateHistory) : Writer → Prop
  | .got .activate | .activate => h.verified = true
  | .verifyFailCode code => code ≠ .verifyOk
  | .statusSend code _ => code = .verifyOk → h.verified = true
  | _ => True

/-- Pages are stored. -/
structure Storing (h : UpdateHistory) (writer : Writer) (queue : List WriterCmd) (errorCode : Option OtaStatus) :
    Prop where
  writer : writer.storing = true
  queue : ∀ cmd ∈ queue, cmd.stores = true
  code : errorCode ≠ some .verifyOk
  verified : h.verified = false

/-- The image is complete, and its check is queued or under way. -/
structure Checking (h : UpdateHistory) (writer : Writer) (queue : List WriterCmd) (errorCode : Option OtaStatus)
    (writerError : Bool) (flash : ℕ → BitVec 8) (stream : List (BitVec 8)) : Prop where
  pending : (writer.storing = true ∧ ∃ pages rest, queue = pages ++ .verify :: rest ∧
      (∀ cmd ∈ pages, cmd.stores = true) ∧ ∀ cmd ∈ rest, cmd = .shutdown) ∨
    (writer.checking = true ∧ h.outstanding = [] ∧ (∀ cmd ∈ queue, cmd = .shutdown) ∧
      CheckOk h writerError flash writer)
  copied : stream = h.bytes
  whole : h.bytes.length = h.size
  pages : stream.length ≤ flashPageSize * (h.released + h.outstanding.length)
  code : errorCode ≠ some .verifyOk
  verified : h.verified = false

/-- The check is over, or will not be made. -/
structure Settled (h : UpdateHistory) (writer : Writer) (queue : List WriterCmd) (errorCode : Option OtaStatus)
    (flash : ℕ → BitVec 8) : Prop where
  known : SettledOk h writer
  activate : WriterCmd.activate ∈ queue → h.verified = true
  writer : writer.settled = true
  queue : ∀ cmd ∈ queue, cmd = .activate ∨ cmd = .shutdown
  pages : h.outstanding = []
  code : errorCode = some .verifyOk → h.verified = true
  sound : h.verified = true → Sound h flash

/-- The stage of a session. -/
inductive Stage (h : UpdateHistory) (writer : Writer) (queue : List WriterCmd) (errorCode : Option OtaStatus)
    (writerError : Bool) (flash : ℕ → BitVec 8) (stream : List (BitVec 8)) : Prop
  | storing (hs : Storing h writer queue errorCode)
  | checking (hs : Checking h writer queue errorCode writerError flash stream)
  | settled (hs : Settled h writer queue errorCode flash)

section Stages

variable {cfg : FlashConfig} {h : UpdateHistory} {writer : Writer} {queue : List WriterCmd}
  {errorCode : Option OtaStatus} {writerError ok : Bool} {flash garbage : ℕ → BitVec 8} {stream : List (BitVec 8)}
  {s s' : RcvOta} {es : List UpdateEvent}

/-- A good answer comes only from a session that was verified. -/
theorem Stage.code (hstage : Stage h writer queue errorCode writerError flash stream)
    (hcode : errorCode = some .verifyOk) : h.verified = true := by
  cases hstage with
  | storing hs => exact absurd hcode hs.code
  | checking hs => exact absurd hcode hs.code
  | settled hs => exact hs.code hcode

/-- An image that was verified is in the flash. -/
theorem Stage.sound (hstage : Stage h writer queue errorCode writerError flash stream) (hverified : h.verified = true) :
    Settled h writer queue errorCode flash := by
  cases hstage with
  | storing hs => exact absurd (hverified.symm.trans hs.verified) (by decide)
  | checking hs => exact absurd (hverified.symm.trans hs.verified) (by decide)
  | settled hs => exact hs

/-- The HID command thread reports an error. -/
theorem Stage.fail (hstage : Stage h writer queue errorCode writerError flash stream) {code : OtaStatus}
    (hcode : code ≠ .verifyOk) : Stage h writer queue (some code) writerError flash stream := by
  have hne : some code ≠ some OtaStatus.verifyOk := fun heq => hcode (Option.some.inj heq)
  cases hstage with
  | storing hs => exact .storing ⟨hs.writer, hs.queue, hne, hs.verified⟩
  | checking hs => exact .checking ⟨hs.pending, hs.copied, hs.whole, hs.pages, hne, hs.verified⟩
  | settled hs =>
    exact .settled ⟨hs.known, hs.activate, hs.writer, hs.queue, hs.pages, fun heq => absurd heq hne, hs.sound⟩

theorem Storing.put (hs : Storing h writer queue errorCode) {cmd : WriterCmd} (hcmd : cmd.stores = true) :
    Storing h writer (queue ++ [cmd]) errorCode := by
  refine ⟨hs.writer, fun cmd' hmem => ?_, hs.code, hs.verified⟩
  rcases List.mem_append.mp hmem with hold | hnew
  · exact hs.queue cmd' hold
  · rw [List.mem_singleton.mp hnew]
    exact hcmd

/-- The writer is woken. -/
theorem Stage.wake (hstage : Stage h writer queue errorCode writerError flash stream) :
    Stage h writer (queue ++ [WriterCmd.shutdown]) errorCode writerError flash stream := by
  have hlast : ∀ {P : WriterCmd → Prop} {cmds : List WriterCmd}, (∀ cmd ∈ cmds, P cmd) → P .shutdown →
      ∀ cmd ∈ cmds ++ [WriterCmd.shutdown], P cmd := by
    intro P cmds hcmds hshutdown cmd hmem
    rcases List.mem_append.mp hmem with hold | hnew
    · exact hcmds cmd hold
    · rw [List.mem_singleton.mp hnew]
      exact hshutdown
  cases hstage with
  | storing hs => exact .storing (hs.put rfl)
  | checking hs =>
    refine .checking ⟨?_, hs.copied, hs.whole, hs.pages, hs.code, hs.verified⟩
    rcases hs.pending with ⟨hstoring, pages, rest, rfl, hpages, hrest⟩ | ⟨hchecking, hempty, hqueue, hknown⟩
    · refine .inl ⟨hstoring, pages, rest ++ [WriterCmd.shutdown], ?_, hpages, hlast hrest rfl⟩
      rw [List.append_assoc, List.cons_append]
    · exact .inr ⟨hchecking, hempty, hlast hqueue rfl, hknown⟩
  | settled hs =>
    refine .settled ⟨hs.known, fun hmem => ?_, hs.writer, hlast hs.queue (.inr rfl), hs.pages, hs.code, hs.sound⟩
    rcases List.mem_append.mp hmem with hold | hnew
    · exact hs.activate hold
    · cases List.mem_singleton.mp hnew

/-- The check is queued. -/
theorem Storing.verify (hs : Storing h writer queue errorCode) (hstream : stream = h.bytes)
    (hwhole : h.bytes.length = h.size) (hpages : stream.length ≤ flashPageSize * (h.released + h.outstanding.length)) :
    Checking h writer (queue ++ [WriterCmd.verify]) errorCode writerError flash stream :=
  ⟨.inl ⟨hs.writer, queue, [], rfl, hs.queue, by simp⟩, hstream, hwhole, hpages, hs.code, hs.verified⟩

/-- The activation is queued. -/
theorem Settled.put (hs : Settled h writer queue errorCode flash) (hverified : h.verified = true) :
    Settled h writer (queue ++ [WriterCmd.activate]) errorCode flash := by
  refine ⟨hs.known, fun _ => hverified, hs.writer, fun cmd hmem => ?_, hs.pages, hs.code, hs.sound⟩
  rcases List.mem_append.mp hmem with hold | hnew
  · exact hs.queue cmd hold
  · exact .inl (List.mem_singleton.mp hnew)

/-- While it stores pages the writer changes neither the state nor its error code. -/
theorem Storing.step (hs : Storing h s.writer s.pageWriteMsgq s.errorCode)
    (hstep : s.writerStep cfg ok garbage = some (s', es)) :
    Storing (es.foldl UpdateHistory.follow h) s'.writer s'.pageWriteMsgq s'.errorCode ∧ s'.state = s.state ∧
      UpdateEvent.status .verifyOk ∉ es ∧ UpdateEvent.activating ∉ es := by
  have hwriter := hs.writer
  cases hplace : s.writer with
  | none | verify | reading | verifyFail | verifyFailCode | verifyOk | status | statusSend | activate | activateRun
  | activateFail | activateFailCode | completed | gone =>
    rw [hplace] at hwriter
    cases hwriter
  | exited =>
    simp only [RcvOta.writerStep, hplace] at hstep
    cases hstep
  | loop =>
    simp only [RcvOta.writerStep, hplace] at hstep
    cases hstep
    refine ⟨⟨?_, hs.queue, hs.code, hs.verified⟩, rfl, by simp, by simp⟩
    show (if _ then Writer.exited else Writer.get).storing = true
    split <;> rfl
  | get =>
    simp only [RcvOta.writerStep, hplace] at hstep
    split at hstep
    · cases hstep
    case h_2 cmd rest hqueue =>
      cases hstep
      have hcmds := hs.queue
      rw [hqueue] at hcmds
      exact ⟨⟨hcmds cmd List.mem_cons_self, fun cmd' hmem => hcmds cmd' (List.mem_cons_of_mem cmd hmem), hs.code,
        hs.verified⟩, rfl, by simp, by simp⟩
  | got cmd =>
    rw [hplace] at hwriter
    simp only [RcvOta.writerStep, hplace] at hstep
    split at hstep
    · cases hstep
      exact ⟨⟨rfl, hs.queue, hs.code, hs.verified⟩, rfl, by simp, by simp⟩
    · cases hstep
      cases cmd with
      | page slot =>
        refine ⟨⟨?_, hs.queue, hs.code, hs.verified⟩, rfl, by simp, by simp⟩
        show (if _ then Writer.program slot else Writer.erase slot).storing = true
        split <;> rfl
      | shutdown => exact ⟨⟨rfl, hs.queue, hs.code, hs.verified⟩, rfl, by simp, by simp⟩
      | verify | activate => cases hwriter
  | erase slot | program slot =>
    simp only [RcvOta.writerStep, hplace] at hstep
    split at hstep
    · cases hstep
      exact ⟨⟨rfl, hs.queue, hs.code, hs.verified⟩, rfl, by simp, by simp⟩
    · cases hstep
      exact ⟨⟨rfl, hs.queue, hs.code, hs.verified⟩, rfl, by simp, by simp⟩
  | setError slot | give slot =>
    simp only [RcvOta.writerStep, hplace] at hstep
    cases hstep
    exact ⟨⟨rfl, hs.queue, hs.code, hs.verified⟩, rfl, by simp, by simp⟩

theorem RcvOta.errorCode_of_statusCode (hcode : s.statusCode = .verifyOk) : s.errorCode = some .verifyOk := by
  unfold RcvOta.statusCode at hcode
  cases hcase : s.errorCode with
  | none =>
    rw [hcase] at hcode
    cases hstate : s.state <;> rw [hstate] at hcode <;> cases hcode
  | some code =>
    rw [hcase] at hcode
    cases hstate : s.state <;> rw [hstate] at hcode <;> cases hcode <;> rfl

theorem RcvOta.code_of_sentCode {code : OtaStatus} (hcode : s.sentCode code = .verifyOk) : code = .verifyOk := by
  unfold RcvOta.sentCode at hcode
  split at hcode
  · cases hcode
  · exact hcode

/-- After the check the writer leaves the image as it is, and answers as it found it. -/
theorem Settled.step (hs : Settled h s.writer s.pageWriteMsgq s.errorCode s.flash)
    (hstep : s.writerStep cfg ok garbage = some (s', es)) :
    es.foldl UpdateHistory.follow h = h ∧ Settled h s'.writer s'.pageWriteMsgq s'.errorCode s'.flash ∧
      (UpdateEvent.status .verifyOk ∈ es ∨ UpdateEvent.activating ∈ es → h.verified = true) ∧
      (s'.state.opened = true → s.state.opened = true) := by
  have hsettled := hs.writer
  have hknown := hs.known
  cases hplace : s.writer with
  | none | erase | program | setError | give | verify | reading | verifyFail | verifyOk =>
    rw [hplace] at hsettled
    cases hsettled
  | exited | gone =>
    simp only [RcvOta.writerStep, hplace] at hstep
    cases hstep
  | loop =>
    simp only [RcvOta.writerStep, hplace] at hstep
    cases hstep
    refine ⟨rfl, ⟨?_, hs.activate, ?_, hs.queue, hs.pages, hs.code, hs.sound⟩, by simp, id⟩
    · show SettledOk h (if _ then Writer.exited else Writer.get)
      split <;> trivial
    · show (if _ then Writer.exited else Writer.get).settled = true
      split <;> rfl
  | get =>
    simp only [RcvOta.writerStep, hplace] at hstep
    split at hstep
    · cases hstep
    case h_2 cmd rest hqueue =>
      cases hstep
      have hcmds := hs.queue
      have hactivate := hs.activate
      rw [hqueue] at hcmds hactivate
      have hrest : ∀ cmd' ∈ rest, cmd' = .activate ∨ cmd' = .shutdown := fun cmd' hmem =>
        hcmds cmd' (List.mem_cons_of_mem cmd hmem)
      have hlater : WriterCmd.activate ∈ rest → h.verified = true := fun hmem =>
        hactivate (List.mem_cons_of_mem cmd hmem)
      rcases hcmds cmd List.mem_cons_self with rfl | rfl
      · exact ⟨rfl, ⟨hactivate List.mem_cons_self, hlater, rfl, hrest, hs.pages, hs.code, hs.sound⟩, by simp, id⟩
      · exact ⟨rfl, ⟨trivial, hlater, rfl, hrest, hs.pages, hs.code, hs.sound⟩, by simp, id⟩
  | got cmd =>
    rw [hplace] at hsettled hknown
    simp only [RcvOta.writerStep, hplace] at hstep
    split at hstep
    · cases hstep
      exact ⟨rfl, ⟨trivial, hs.activate, rfl, hs.queue, hs.pages, hs.code, hs.sound⟩, by simp, id⟩
    · cases hstep
      cases cmd with
      | activate => exact ⟨rfl, ⟨hknown, hs.activate, rfl, hs.queue, hs.pages, hs.code, hs.sound⟩, by simp, id⟩
      | shutdown => exact ⟨rfl, ⟨trivial, hs.activate, rfl, hs.queue, hs.pages, hs.code, hs.sound⟩, by simp, id⟩
      | page | verify => cases hsettled
  | verifyFailCode code =>
    rw [hplace] at hknown
    simp only [RcvOta.writerStep, hplace] at hstep
    cases hstep
    exact ⟨rfl, ⟨trivial, hs.activate, rfl, hs.queue, hs.pages, fun heq => absurd (Option.some.inj heq) hknown, hs.sound⟩,
      by simp, id⟩
  | status next =>
    simp only [RcvOta.writerStep, hplace] at hstep
    cases hstep
    exact ⟨rfl, ⟨fun hcode => hs.code (RcvOta.errorCode_of_statusCode hcode), hs.activate, rfl, hs.queue, hs.pages, hs.code,
      hs.sound⟩, by simp, id⟩
  | statusSend code next =>
    rw [hplace] at hknown
    simp only [RcvOta.writerStep, hplace] at hstep
    cases hstep
    refine ⟨rfl, ⟨?_, hs.activate, ?_, hs.queue, hs.pages, hs.code, hs.sound⟩, fun hsent => ?_, id⟩
    · cases next <;> trivial
    · cases next <;> rfl
    · have hcode : UpdateEvent.status .verifyOk = .status (s.sentCode code) := by
        rcases hsent with hsent | hsent
        · exact List.mem_singleton.mp hsent
        · cases List.mem_singleton.mp hsent
      exact hknown (RcvOta.code_of_sentCode (UpdateEvent.status.inj hcode).symm)
  | activate =>
    rw [hplace] at hknown
    simp only [RcvOta.writerStep, hplace] at hstep
    cases hstep
    exact ⟨rfl, ⟨trivial, hs.activate, rfl, hs.queue, hs.pages, hs.code, hs.sound⟩, fun _ => hknown, by rintro ⟨⟩⟩
  | activateRun =>
    simp only [RcvOta.writerStep, hplace] at hstep
    cases hstep
    refine ⟨rfl, ⟨?_, hs.activate, ?_, hs.queue, hs.pages, hs.code, hs.sound⟩, by simp, id⟩
    · show SettledOk h (if _ then (if _ then Writer.completed else Writer.gone) else Writer.activateFail)
      split
      · split <;> trivial
      · trivial
    · show (if _ then (if _ then Writer.completed else Writer.gone) else Writer.activateFail).settled = true
      split
      · split <;> rfl
      · rfl
  | activateFail | completed =>
    simp only [RcvOta.writerStep, hplace] at hstep
    cases hstep
    exact ⟨rfl, ⟨trivial, hs.activate, rfl, hs.queue, hs.pages, hs.code, hs.sound⟩, by simp, by rintro ⟨⟩⟩
  | activateFailCode =>
    simp only [RcvOta.writerStep, hplace] at hstep
    cases hstep
    exact ⟨rfl, ⟨trivial, hs.activate, rfl, hs.queue, hs.pages, by rintro ⟨⟩, hs.sound⟩, by simp, id⟩

/-- While pages are left, the writer gets on to the check. -/
theorem Checking.step_storing (hs : Checking h s.writer s.pageWriteMsgq s.errorCode s.writerError s.flash s.stream)
    (hown : OwnInvariant h s) (hstoring : s.writer.storing = true) {pages rest : List WriterCmd}
    (hqueue : s.pageWriteMsgq = pages ++ .verify :: rest) (hpages : ∀ cmd ∈ pages, cmd.stores = true)
    (hrest : ∀ cmd ∈ rest, cmd = .shutdown) (hstep : s.writerStep cfg ok garbage = some (s', es)) :
    Checking (es.foldl UpdateHistory.follow h) s'.writer s'.pageWriteMsgq s'.errorCode s'.writerError s'.flash
        s'.stream ∧ s'.state = s.state ∧ UpdateEvent.status .verifyOk ∉ es ∧ UpdateEvent.activating ∉ es := by
  cases hplace : s.writer with
  | none | verify | reading | verifyFail | verifyFailCode | verifyOk | status | statusSend | activate | activateRun
  | activateFail | activateFailCode | completed | gone =>
    rw [hplace] at hstoring
    cases hstoring
  | exited =>
    simp only [RcvOta.writerStep, hplace] at hstep
    cases hstep
  | loop =>
    simp only [RcvOta.writerStep, hplace] at hstep
    cases hstep
    refine ⟨⟨.inl ⟨?_, pages, rest, hqueue, hpages, hrest⟩, hs.copied, hs.whole, hs.pages, hs.code, hs.verified⟩, rfl,
      by simp, by simp⟩
    show (if _ then Writer.exited else Writer.get).storing = true
    split <;> rfl
  | get =>
    simp only [RcvOta.writerStep, hplace, hqueue] at hstep
    cases pages with
    | cons cmd pages =>
      cases hstep
      exact ⟨⟨.inl ⟨hpages cmd List.mem_cons_self, pages, rest, rfl,
        fun cmd' hmem => hpages cmd' (List.mem_cons_of_mem cmd hmem), hrest⟩, hs.copied, hs.whole, hs.pages, hs.code,
          hs.verified⟩, rfl, by simp, by simp⟩
    | nil =>
      cases hstep
      have hempty : h.outstanding = [] := by
        rw [← hown.pipeline (by rw [hplace]; rfl), hplace, hqueue]
        refine List.filterMap_eq_nil_iff.mpr fun cmd hmem => ?_
        rcases List.mem_cons.mp hmem with rfl | hmem
        · rfl
        · rw [hrest cmd hmem]
      exact ⟨⟨.inr ⟨rfl, hempty, hrest, trivial⟩, hs.copied, hs.whole, hs.pages, hs.code, hs.verified⟩, rfl, by simp,
        by simp⟩
  | got cmd =>
    rw [hplace] at hstoring
    simp only [RcvOta.writerStep, hplace] at hstep
    split at hstep
    · cases hstep
      exact ⟨⟨.inl ⟨rfl, pages, rest, hqueue, hpages, hrest⟩, hs.copied, hs.whole, hs.pages, hs.code, hs.verified⟩, rfl,
        by simp, by simp⟩
    · cases hstep
      cases cmd with
      | page slot =>
        refine ⟨⟨.inl ⟨?_, pages, rest, hqueue, hpages, hrest⟩, hs.copied, hs.whole, hs.pages, hs.code, hs.verified⟩, rfl,
          by simp, by simp⟩
        show (if _ then Writer.program slot else Writer.erase slot).storing = true
        split <;> rfl
      | shutdown =>
        exact ⟨⟨.inl ⟨rfl, pages, rest, hqueue, hpages, hrest⟩, hs.copied, hs.whole, hs.pages, hs.code, hs.verified⟩, rfl,
          by simp, by simp⟩
      | verify | activate => cases hstoring
  | erase slot | program slot =>
    simp only [RcvOta.writerStep, hplace] at hstep
    split at hstep
    · cases hstep
      exact ⟨⟨.inl ⟨rfl, pages, rest, hqueue, hpages, hrest⟩, hs.copied, hs.whole, hs.pages, hs.code, hs.verified⟩, rfl,
        by simp, by simp⟩
    · cases hstep
      exact ⟨⟨.inl ⟨rfl, pages, rest, hqueue, hpages, hrest⟩, hs.copied, hs.whole, hs.pages, hs.code, hs.verified⟩, rfl,
        by simp, by simp⟩
  | setError slot =>
    simp only [RcvOta.writerStep, hplace] at hstep
    cases hstep
    exact ⟨⟨.inl ⟨rfl, pages, rest, hqueue, hpages, hrest⟩, hs.copied, hs.whole, hs.pages, hs.code, hs.verified⟩, rfl,
      by simp, by simp⟩
  | give slot =>
    simp only [RcvOta.writerStep, hplace] at hstep
    cases hstep
    refine ⟨⟨.inl ⟨rfl, pages, rest, hqueue, hpages, hrest⟩, hs.copied, hs.whole, ?_, hs.code, hs.verified⟩, rfl, by simp,
      by simp⟩
    exact hs.pages.trans (Nat.le_of_eq (congrArg (flashPageSize * ·) (hown.pages_release hplace).symm))

/-- What is checked is what was accepted. -/
theorem Checking.step (hs : Checking h s.writer s.pageWriteMsgq s.errorCode s.writerError s.flash s.stream)
    (hown : OwnInvariant h s) (hcounted : Counted cfg h s.imageSize s.imageCrc32 s.bytesWritten s.nextExpectedSeq)
    (hstaged : Staged cfg h s.writer s.writerError s.flash s.stream)
    (hstep : s.writerStep cfg ok garbage = some (s', es)) :
    Stage (es.foldl UpdateHistory.follow h) s'.writer s'.pageWriteMsgq s'.errorCode s'.writerError s'.flash s'.stream ∧
      (UpdateEvent.status .verifyOk ∉ es ∧ UpdateEvent.activating ∉ es) ∧
      (s'.state.opened = true → s.state.opened = true) := by
  rcases hs.pending with ⟨hstoring, pages, rest, hqueue, hpages, hrest⟩ | ⟨hchecking, hempty, hqueue, hknown⟩
  · obtain ⟨hnew, hstate, hevents⟩ := hs.step_storing hown hstoring hqueue hpages hrest hstep
    rw [hstate]
    exact ⟨.checking hnew, hevents, id⟩
  have hnone : .activate ∈ s.pageWriteMsgq → h.verified = true := fun hmem => by cases hqueue _ hmem
  have hover : ∀ cmd ∈ s.pageWriteMsgq, cmd = .activate ∨ cmd = .shutdown := fun cmd hmem => .inr (hqueue cmd hmem)
  have hunverified : h.verified = true → Sound h s.flash := fun hverified =>
    absurd (hverified.symm.trans hs.verified) (by decide)
  cases hplace : s.writer with
  | none | exited | loop | get | erase | program | setError | give | verifyFailCode | status | statusSend | activate
  | activateRun | activateFail | activateFailCode | completed | gone =>
    rw [hplace] at hchecking
    cases hchecking
  | got cmd =>
    cases cmd with
    | page | activate | shutdown =>
      rw [hplace] at hchecking
      cases hchecking
    | verify =>
      simp only [RcvOta.writerStep, hplace] at hstep
      split at hstep
      · cases hstep
        -- the session is given up without a check
        exact ⟨.settled ⟨trivial, hnone, rfl, hover, hempty, fun heq => absurd heq hs.code, hunverified⟩, by simp, id⟩
      · cases hstep
        exact ⟨.checking ⟨.inr ⟨rfl, hempty, hqueue, trivial⟩, hs.copied, hs.whole, hs.pages, hs.code, hs.verified⟩,
          by simp, id⟩
  | verify =>
    simp only [RcvOta.writerStep, hplace] at hstep
    cases hstep
    refine ⟨.checking ⟨.inr ⟨?_, hempty, hqueue, ?_⟩, hs.copied, hs.whole, hs.pages, hs.code, hs.verified⟩, by simp, id⟩
    · show (if _ then Writer.verifyFail _ else Writer.reading _ _).checking = true
      split <;> rfl
    · show CheckOk h s.writerError s.flash (if _ then Writer.verifyFail _ else Writer.reading _ _)
      split
      · show OtaStatus.flashError ≠ .verifyOk
        decide
      case isFalse herror =>
        refine ⟨by simpa using herror, Nat.zero_le _, ?_⟩
        show 0 = crc32Ieee []
        decide
  | reading pos crc =>
    rw [hplace] at hknown
    obtain ⟨herror, hpos, hcrc⟩ := hknown
    have hsize := hcounted.size
    simp only [RcvOta.writerStep, hplace] at hstep
    split at hstep
    case isTrue hmore =>
      split at hstep
      · cases hstep
        refine ⟨.checking ⟨.inr ⟨rfl, hempty, hqueue, herror, ?_, ?_⟩, hs.copied, hs.whole, hs.pages, hs.code,
          hs.verified⟩, by simp, id⟩
        · show pos + min (s.imageSize - pos) 256 ≤ h.size
          omega
        · rw [hcrc, hown.base]
          exact crc32_part _ _ _ _
      · cases hstep
        refine ⟨.checking ⟨.inr ⟨rfl, hempty, hqueue, ?_⟩, hs.copied, hs.whole, hs.pages, hs.code, hs.verified⟩,
          by simp, id⟩
        show OtaStatus.flashError ≠ .verifyOk
        decide
    case isFalse hend =>
      cases hstep
      refine ⟨.checking ⟨.inr ⟨?_, hempty, hqueue, ?_⟩, hs.copied, hs.whole, hs.pages, hs.code, hs.verified⟩, by simp, id⟩
      · show (if _ then Writer.verifyFail _ else Writer.verifyOk).checking = true
        split <;> rfl
      · show CheckOk h s.writerError s.flash (if _ then Writer.verifyFail _ else Writer.verifyOk)
        split
        · show OtaStatus.verifyFail ≠ .verifyOk
          decide
        case isFalse hsame =>
          obtain rfl : pos = h.size := by omega
          exact ⟨herror, hcrc.symm.trans ((not_not.mp hsame).trans hcounted.crc)⟩
  | verifyFail code =>
    rw [hplace] at hknown
    simp only [RcvOta.writerStep, hplace] at hstep
    cases hstep
    exact ⟨.settled ⟨hknown, fun hmem => (by cases hqueue _ hmem), rfl, hover, hempty, fun heq => absurd heq hs.code,
      (by rintro ⟨⟩)⟩, by simp, by rintro ⟨⟩⟩
  | verifyOk =>
    rw [hplace] at hknown hstaged
    obtain ⟨herror, hcrc⟩ := hknown
    simp only [RcvOta.writerStep, hplace] at hstep
    cases hstep
    have hpages := hs.pages
    rw [hempty] at hpages
    rw [herror] at hstaged
    have hread : readFlash s.flash h.base h.size = h.bytes := by
      have hstream := hstaged.read rfl hpages
      rwa [hs.copied, hs.whole] at hstream
    refine ⟨.settled ⟨trivial, fun _ => rfl, rfl, hover, hempty, fun _ => rfl, fun _ => ⟨hread, hs.whole, ?_, ?_⟩⟩,
      by simp, id⟩
    · show crc32Ieee h.bytes = h.crc
      rw [← hread]
      exact hcrc
    · refine Bool.eq_false_iff.mpr fun hfailed => ?_
      rcases hstaged.failed hfailed with hset | hset <;> cases hset

end Stages

end SlimeReceiver.SelfUpdate
