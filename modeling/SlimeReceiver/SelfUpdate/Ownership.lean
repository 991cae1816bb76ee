import Mathlib.Algebra.Order.Group.Nat
import Mathlib.Data.List.Nodup
import SlimeReceiver.SelfUpdate.Machine

/-! # Who owns a page

A page is the writer's from its submission until its slot is given back, and the pages are taken in order.

* **`UpdateHistory`** — what the events say about the current session.
* **`OwnInvariant`** — the slots and the addresses of the pages.
* **`page_ownership`** — no page the writer has is written, and the writer takes the pages in order. -/

namespace SlimeReceiver.SelfUpdate

open Function (update update_self update_of_ne)

/-! ## Histories -/

/-- The current session, told from the events. -/
structure UpdateHistory where
  size : ℕ
  crc : BitVec 32
  base : ℕ
  /-- The bytes of the packets accepted, and how many these were. -/
  bytes : List (BitVec 8)
  packets : ℕ
  /-- The slots submitted and not yet given back. -/
  outstanding : List Bool
  attempts : ℕ
  released : ℕ
  failed : Bool
  verified : Bool

namespace UpdateHistory

def init : UpdateHistory := ⟨0, 0, 0, [], 0, [], 0, 0, false, false⟩

def follow (h : UpdateHistory) : UpdateEvent → UpdateHistory
  | .began size crc base => ⟨size, crc, base, [], 0, [], 0, 0, false, false⟩
  | .accepted _ payload => { h with
      bytes := h.bytes ++ payload
      packets := h.packets + 1
      verified := false }
  | .submitted slot => { h with outstanding := h.outstanding ++ [slot] }
  | .attempted _ => { h with attempts := h.attempts + 1 }
  | .pageFailed => { h with failed := true }
  | .released slot => { h with
      outstanding := h.outstanding.erase slot
      released := h.released + 1 }
  | .verified => { h with verified := true }
  | .verifyFailed | .aborted => { h with verified := false }
  | .status _ | .activating => h

/-- The history of a run. -/
def of (trace : List UpdateEvent) : UpdateHistory := trace.foldl follow init

theorem of_append (trace es : List UpdateEvent) : of (trace ++ es) = es.foldl follow (of trace) :=
  List.foldl_append

end UpdateHistory

/-- The writer takes the pages of the session in order, and none but those submitted. -/
def UpdateHistory.Allows (h : UpdateHistory) : UpdateEvent → Prop
  | .attempted addr => addr = h.base + flashPageSize * h.attempts ∧ h.attempts < h.released + h.outstanding.length
  | _ => True

def PageLaw (earlier : List UpdateEvent) (e : UpdateEvent) : Prop := (UpdateHistory.of earlier).Allows e

/-- A step reports at most one event, one that is allowed. -/
def Lawful (h : UpdateHistory) (es : List UpdateEvent) : Prop := es = [] ∨ ∃ e, es = [e] ∧ h.Allows e

theorem Lawful.nil {h : UpdateHistory} : Lawful h [] := .inl rfl

theorem Lawful.singleton {h : UpdateHistory} {e : UpdateEvent} (he : h.Allows e) : Lawful h [e] := .inr ⟨e, rfl, he⟩

theorem Lawful.eachAfter {trace es : List UpdateEvent} (hes : Lawful (UpdateHistory.of trace) es)
    (hlaw : EachAfter PageLaw trace) : EachAfter PageLaw (trace ++ es) := by
  obtain rfl | ⟨e, rfl, he⟩ := hes
  · rwa [List.append_nil]
  · exact eachAfter_snoc.mpr ⟨hlaw, he⟩

/-! ## The invariant -/

/-- The slot the writer has. -/
def Writer.held : Writer → List Bool
  | .got (.page slot) | .erase slot | .program slot | .setError slot | .give slot => [slot]
  | _ => []

/-- The writer has started on a page. -/
def Writer.begun : Writer → ℕ
  | .erase _ | .program _ | .setError _ | .give _ => 1
  | _ => 0

/-- The writer takes commands. -/
def Writer.running : Writer → Bool
  | .none | .exited | .gone => false
  | _ => true

/-- The page slots in a queue. -/
def pagesOf (queue : List WriterCmd) : List Bool :=
  queue.filterMap fun cmd => match cmd with
    | .page slot => some slot
    | _ => none

theorem pagesOf_append (queue queue' : List WriterCmd) : pagesOf (queue ++ queue') = pagesOf queue ++ pagesOf queue' :=
  List.filterMap_append

/-- The producer has taken the slot's semaphore. -/
def RcvOta.Owns (s : RcvOta) (slot : Bool) : Prop :=
  slot = s.nextWriteSlot ∧ (0 < s.pageBufOffset ∨ ∃ seq payload copied, s.handler = .copying seq payload copied)

/-- What the HID command thread knows about its page. -/
def PageOk (s : RcvOta) : Handler → Prop
  | .flushCheck _ | .flushFill _ => 0 < s.pageBufOffset
  | .flushPut _ => 0 < s.pageBufOffset ∧ (s.pageWriteReqs s.nextWriteSlot).addr = s.pageBufFlashAddr
  | .stopped _ => False
  | _ => True

/-- What holds while there is a writer. -/
structure OwnInvariant (h : UpdateHistory) (s : RcvOta) : Prop where
  created : s.writerCreated = true
  base : s.stagingBase = h.base
  pipeline : s.writer.running = true → s.writer.held ++ pagesOf s.pageWriteMsgq = h.outstanding
  attempts : s.writer.running = true → h.attempts = h.released + s.writer.begun
  nodup : h.outstanding.Nodup
  sems : ∀ slot, s.slotSems slot = true → slot ∉ h.outstanding
  owned : ∀ slot, s.Owns slot → slot ∉ h.outstanding ∧ s.slotSems slot = false
  next : s.pageBufFlashAddr = h.base + flashPageSize * (h.released + h.outstanding.length)
  addrs : ∀ j slot, h.outstanding[j]? = some slot →
    (s.pageWriteReqs slot).addr = h.base + flashPageSize * (h.released + j)
  page : PageOk s s.handler

/-- What the HID command thread does without a writer. -/
def Handler.unmanned : Handler → Bool
  | .idle | .status | .statusSend _ | .stopped _ => true
  | _ => false

/-- What holds while there is none. -/
structure Unmanned (s : RcvOta) : Prop where
  created : s.writerCreated = false
  handler : s.handler.unmanned = true
  state : (∀ k, s.handler ≠ .stopped k) → s.state = .idle ∨ s.state = .error

/-- What holds after every step. -/
structure UpdateInvariant (h : UpdateHistory) (s : RcvOta) : Prop where
  unmanned : s.writer = .none → Unmanned s
  own : s.writer ≠ .none → OwnInvariant h s

section Facts

variable {cfg : FlashConfig} {h : UpdateHistory} {s s' : RcvOta} {es : List UpdateEvent}

/-- The event is not about a page. -/
def UpdateEvent.pageless : UpdateEvent → Bool
  | .began _ _ _ | .submitted _ | .attempted _ | .released _ => false
  | _ => true

theorem OwnInvariant.event (hinv : OwnInvariant h s) {e : UpdateEvent} (he : e.pageless = true) :
    OwnInvariant (h.follow e) s := by
  cases e with
  | began | submitted | attempted | released => cases he
  | accepted | pageFailed | verified | verifyFailed | status | activating | aborted =>
    exact ⟨hinv.created, hinv.base, hinv.pipeline, hinv.attempts, hinv.nodup, hinv.sems, hinv.owned, hinv.next,
      hinv.addrs, hinv.page⟩

theorem PageOk.congr {p : Handler} (hp : PageOk s p) (hoffset : s'.pageBufOffset = s.pageBufOffset)
    (hreq : (s'.pageWriteReqs s'.nextWriteSlot).addr = (s.pageWriteReqs s.nextWriteSlot).addr)
    (haddr : s'.pageBufFlashAddr = s.pageBufFlashAddr) : PageOk s' p := by
  cases p with
  | flushCheck | flushFill => exact Nat.lt_of_lt_of_eq hp hoffset.symm
  | flushPut => exact ⟨Nat.lt_of_lt_of_eq hp.1 hoffset.symm, hreq.trans (hp.2.trans haddr.symm)⟩
  | stopped => exact hp
  | idle | status | statusSend | fail | failCode | filling | copying | verifyPut | activatePut | stopFlag | stopWake
  | stopJoin => trivial

/-- The slots, the queue and the writer are left as they are, but for the writing of a page the writer does not
have. -/
structure SamePages (h : UpdateHistory) (s s' : RcvOta) : Prop where
  created : s'.writerCreated = s.writerCreated
  base : s'.stagingBase = s.stagingBase
  writer : s'.writer = s.writer
  queue : pagesOf s'.pageWriteMsgq = pagesOf s.pageWriteMsgq
  addr : s'.pageBufFlashAddr = s.pageBufFlashAddr
  reqs : ∀ slot ∈ h.outstanding, s'.pageWriteReqs slot = s.pageWriteReqs slot
  sems : ∀ slot, s'.slotSems slot = true → s.slotSems slot = true

/-- The producer moves on. -/
theorem OwnInvariant.move (hinv : OwnInvariant h s) (hsame : SamePages h s s')
    (howned : ∀ slot, s'.Owns slot → slot ∉ h.outstanding ∧ s'.slotSems slot = false)
    (hpage : PageOk s' s'.handler) : OwnInvariant h s' where
  created := hsame.created.trans hinv.created
  base := hsame.base.trans hinv.base
  pipeline hrunning := by
    rw [hsame.writer] at hrunning ⊢
    rw [hsame.queue]
    exact hinv.pipeline hrunning
  attempts hrunning := by
    rw [hsame.writer] at hrunning ⊢
    exact hinv.attempts hrunning
  nodup := hinv.nodup
  sems slot hfree := hinv.sems slot (hsame.sems slot hfree)
  owned := howned
  next := hsame.addr.trans hinv.next
  addrs j slot hj := by
    rw [hsame.reqs slot (List.mem_of_getElem? hj)]
    exact hinv.addrs j slot hj
  page := hpage

/-- Only copying makes a slot the producer's. -/
theorem RcvOta.Owns.of_not_copying {slot : Bool} (hown : s'.Owns slot) (hslot : s'.nextWriteSlot = s.nextWriteSlot)
    (hoffset : s'.pageBufOffset = s.pageBufOffset)
    (hcopying : ∀ seq payload copied, s'.handler ≠ .copying seq payload copied) : s.Owns slot := by
  obtain ⟨hnext, hpos | ⟨seq, payload, copied, hplace⟩⟩ := hown
  · exact ⟨hnext.trans hslot, .inl (hoffset ▸ hpos)⟩
  · exact absurd hplace (hcopying seq payload copied)

/-- The HID command thread goes on to a place where it has no new slot. -/
theorem OwnInvariant.go (hinv : OwnInvariant h s) (st : RcvOtaState) (code : Option OtaStatus) (written : ℕ)
    (seq : BitVec 16) (p : Handler) (hcopying : ∀ seq payload copied, p ≠ .copying seq payload copied)
    (hpage : PageOk s p) : OwnInvariant h { s with
      state := st
      errorCode := code
      bytesWritten := written
      nextExpectedSeq := seq
      handler := p } := by
  refine hinv.move ⟨rfl, rfl, rfl, rfl, rfl, fun _ _ => rfl, fun _ => id⟩ (fun slot hown => ?_) ?_
  · exact hinv.owned slot (hown.of_not_copying rfl rfl hcopying)
  · exact hpage.congr rfl rfl rfl

/-- The slot's semaphore is taken. -/
theorem OwnInvariant.take (hinv : OwnInvariant h s) (hfree : s.slotSems s.nextWriteSlot = true) (seq : BitVec 16)
    (payload : List (BitVec 8)) (copied : ℕ) : OwnInvariant h { s with
      slotSems := update s.slotSems s.nextWriteSlot false
      handler := .copying seq payload copied } := by
  refine hinv.move ⟨rfl, rfl, rfl, rfl, rfl, fun _ _ => rfl, fun slot hslot => ?_⟩ (fun slot hown => ?_) trivial
  · by_cases hne : slot = s.nextWriteSlot
    · rw [hne]
      exact hfree
    · change update s.slotSems s.nextWriteSlot false slot = true at hslot
      rwa [update_of_ne hne] at hslot
  · obtain ⟨hnext, -⟩ := hown
    rw [hnext]
    exact ⟨hinv.sems _ hfree, update_self _ _ _⟩

/-- The producer writes its page. -/
theorem OwnInvariant.write (hinv : OwnInvariant h s) (hown : s.Owns s.nextWriteSlot) (req : PageWriteReq) (offset : ℕ)
    (stream : List (BitVec 8)) (p : Handler) (hpage : PageOk { s with
      pageWriteReqs := update s.pageWriteReqs s.nextWriteSlot req
      pageBufOffset := offset } p) : OwnInvariant h { s with
      pageWriteReqs := update s.pageWriteReqs s.nextWriteSlot req
      pageBufOffset := offset
      stream := stream
      handler := p } := by
  have hfresh := hinv.owned _ hown
  refine hinv.move ⟨rfl, rfl, rfl, rfl, rfl, fun slot hslot => ?_, fun _ => id⟩ (fun slot hnew => ?_) ?_
  · refine update_of_ne (fun heq => ?_) _ _
    rw [heq] at hslot
    exact hfresh.1 hslot
  · rw [hnew.1]
    exact hfresh
  · exact hpage.congr rfl rfl rfl

/-- A page is submitted. -/
theorem OwnInvariant.submit (hinv : OwnInvariant h s) {k : Flush} (hplace : s.handler = .flushPut k) :
    OwnInvariant (h.follow (.submitted s.nextWriteSlot)) { s with
      nextWriteSlot := !s.nextWriteSlot
      pageBufFlashAddr := s.pageBufFlashAddr + flashPageSize
      pageBufOffset := 0
      handler := RcvOta.afterFlush k
      pageWriteMsgq := s.pageWriteMsgq ++ [WriterCmd.page s.nextWriteSlot] } := by
  have hpage := hinv.page
  rw [hplace] at hpage
  obtain ⟨hpos, haddr⟩ := hpage
  have hfresh := hinv.owned s.nextWriteSlot ⟨rfl, .inl hpos⟩
  have hmem : ∀ slot, slot ∈ h.outstanding ++ [s.nextWriteSlot] ↔ slot ∈ h.outstanding ∨ slot = s.nextWriteSlot := by
    intro slot
    rw [List.mem_append, List.mem_singleton]
  refine ⟨hinv.created, hinv.base, fun hrunning => ?_, hinv.attempts, ?_, fun slot hfree hslot => ?_, fun slot hown => ?_,
    ?_, fun j slot hj => ?_, ?_⟩
  · show s.writer.held ++ pagesOf (s.pageWriteMsgq ++ [WriterCmd.page s.nextWriteSlot]) =
      h.outstanding ++ [s.nextWriteSlot]
    rw [pagesOf_append, ← List.append_assoc, hinv.pipeline hrunning]
    rfl
  · exact List.Nodup.append hinv.nodup (List.nodup_singleton _) (by simpa using hfresh.1)
  · rcases (hmem slot).mp hslot with hold | rfl
    · exact hinv.sems slot hfree hold
    · exact absurd (hfresh.2.symm.trans hfree) (by decide)
  · -- nothing is in the next page
    obtain ⟨-, hpos' | ⟨seq, payload, copied, hcopying⟩⟩ := hown
    · exact absurd hpos' (Nat.lt_irrefl 0)
    · cases k <;> cases hcopying
  · show s.pageBufFlashAddr + flashPageSize = h.base + flashPageSize * (h.released + (h.outstanding ++ [_]).length)
    rw [hinv.next, List.length_append, List.length_singleton, ← Nat.add_assoc, Nat.mul_succ, Nat.add_assoc]
  · change (h.outstanding ++ [s.nextWriteSlot])[j]? = some slot at hj
    show (s.pageWriteReqs slot).addr = h.base + flashPageSize * (h.released + j)
    by_cases hlast : j < h.outstanding.length
    · rw [List.getElem?_append_left hlast] at hj
      exact hinv.addrs j slot hj
    · have hlt := (List.getElem?_eq_some_iff.mp hj).1
      rw [List.length_append, List.length_singleton] at hlt
      obtain rfl : j = h.outstanding.length := by omega
      rw [List.getElem?_concat_length] at hj
      rw [← Option.some.inj hj, haddr, hinv.next]
  · cases k <;> trivial

/-- The writer moves on without starting on a page or giving one back. -/
theorem OwnInvariant.work (hinv : OwnInvariant h s) (w : Writer) (st : RcvOtaState) (code : Option OtaStatus)
    (error : Bool) (flash : ℕ → BitVec 8) (hbefore : s.writer.running = true)
    (hheld : w.running = true → w.held = s.writer.held ∧ w.begun = s.writer.begun) : OwnInvariant h { s with
      state := st
      errorCode := code
      writerError := error
      flash := flash
      writer := w } where
  created := hinv.created
  base := hinv.base
  pipeline hrunning := by
    show w.held ++ pagesOf s.pageWriteMsgq = _
    rw [(hheld hrunning).1]
    exact hinv.pipeline hbefore
  attempts hrunning := by
    show _ = h.released + w.begun
    rw [(hheld hrunning).2]
    exact hinv.attempts hbefore
  nodup := hinv.nodup
  sems := hinv.sems
  owned := hinv.owned
  next := hinv.next
  addrs := hinv.addrs
  page := hinv.page.congr rfl rfl rfl

/-- The writer takes a command. -/
theorem OwnInvariant.get (hinv : OwnInvariant h s) {cmd : WriterCmd} {rest : List WriterCmd} (hplace : s.writer = .get)
    (hqueue : s.pageWriteMsgq = cmd :: rest) : OwnInvariant h { s with
      pageWriteMsgq := rest
      writer := .got cmd } where
  created := hinv.created
  base := hinv.base
  pipeline _ := by
    have hold := hinv.pipeline (by rw [hplace]; rfl)
    rw [hplace, hqueue] at hold
    rw [← hold]
    cases cmd <;> rfl
  attempts _ := by
    have hold := hinv.attempts (by rw [hplace]; rfl)
    rw [hplace] at hold
    rw [hold]
    rfl
  nodup := hinv.nodup
  sems := hinv.sems
  owned := hinv.owned
  next := hinv.next
  addrs := hinv.addrs
  page := hinv.page.congr rfl rfl rfl

/-- The writer starts on a page: it is the next one. -/
theorem OwnInvariant.attempt (hinv : OwnInvariant h s) {slot : Bool} (hplace : s.writer = .got (.page slot)) (w : Writer)
    (hw : w.held = [slot] ∧ w.begun = 1) :
    h.Allows (.attempted (s.pageWriteReqs slot).addr) ∧
      OwnInvariant (h.follow (.attempted (s.pageWriteReqs slot).addr)) { s with writer := w } := by
  have hrunning : s.writer.running = true := by rw [hplace]; rfl
  have hpipeline := hinv.pipeline hrunning
  have hattempts := hinv.attempts hrunning
  rw [hplace] at hpipeline hattempts
  have hfirst : h.outstanding[0]? = some slot := by rw [← hpipeline]; rfl
  refine ⟨⟨?_, ?_⟩, hinv.created, hinv.base, fun _ => ?_, fun _ => ?_, hinv.nodup, hinv.sems, hinv.owned, hinv.next,
    hinv.addrs, ?_⟩
  · rw [hinv.addrs 0 slot hfirst, hattempts]
    rfl
  · rw [hattempts]
    exact Nat.add_lt_add_left (List.getElem?_eq_some_iff.mp hfirst).1 _
  · show w.held ++ pagesOf s.pageWriteMsgq = h.outstanding
    rw [hw.1]
    exact hpipeline
  · show h.attempts + 1 = h.released + w.begun
    rw [hw.2, hattempts]
    rfl
  · exact hinv.page.congr rfl rfl rfl

/-- Giving a slot back leaves the number of pages submitted. -/
theorem OwnInvariant.pages_release (hinv : OwnInvariant h s) {slot : Bool} (hplace : s.writer = .give slot) :
    h.released + 1 + (h.outstanding.erase slot).length = h.released + h.outstanding.length := by
  have hpipeline := hinv.pipeline (by rw [hplace]; rfl)
  rw [hplace] at hpipeline
  rw [← hpipeline, Nat.add_assoc, Nat.add_comm 1]
  exact congrArg (h.released + List.length · + 1) (List.erase_cons_head slot _)

/-- The writer gives a slot back. -/
theorem OwnInvariant.release (hinv : OwnInvariant h s) {slot : Bool} (hplace : s.writer = .give slot) :
    OwnInvariant (h.follow (.released slot)) { s with
      slotSems := update s.slotSems slot true
      writer := .loop } := by
  have hrunning : s.writer.running = true := by rw [hplace]; rfl
  have hpipeline := hinv.pipeline hrunning
  have hattempts := hinv.attempts hrunning
  rw [hplace] at hpipeline hattempts
  change slot :: pagesOf s.pageWriteMsgq = h.outstanding at hpipeline
  have hrest : h.outstanding.erase slot = pagesOf s.pageWriteMsgq := by
    rw [← hpipeline]
    exact List.erase_cons_head _ _
  have hfresh : slot ∉ pagesOf s.pageWriteMsgq := by
    have hnodup := hinv.nodup
    rw [← hpipeline] at hnodup
    exact (List.nodup_cons.mp hnodup).1
  have hsub : ∀ slot' ∈ pagesOf s.pageWriteMsgq, slot' ∈ h.outstanding := by
    intro slot' hslot'
    rw [← hpipeline]
    exact List.mem_cons_of_mem slot hslot'
  refine ⟨hinv.created, hinv.base, fun _ => hrest.symm, fun _ => hattempts, hinv.nodup.erase slot,
    fun slot' hfree hslot' => ?_, fun slot' hown => ?_, ?_, fun j slot' hj => ?_, ?_⟩
  · change slot' ∈ h.outstanding.erase slot at hslot'
    rw [hrest] at hslot'
    by_cases hsame : slot' = slot
    · exact hfresh (hsame ▸ hslot')
    · change update s.slotSems slot true slot' = true at hfree
      rw [update_of_ne hsame] at hfree
      exact hinv.sems slot' hfree (hsub slot' hslot')
  · have hold := hinv.owned slot' hown
    have hne : slot' ≠ slot := by
      rintro rfl
      refine hold.1 ?_
      rw [← hpipeline]
      exact List.mem_cons_self
    refine ⟨?_, (update_of_ne hne _ _).trans hold.2⟩
    show slot' ∉ h.outstanding.erase slot
    rw [hrest]
    exact fun hslot' => hold.1 (hsub slot' hslot')
  · show s.pageBufFlashAddr = h.base + flashPageSize * (h.released + 1 + (h.outstanding.erase slot).length)
    rw [hinv.next, hrest, ← hpipeline, List.length_cons, Nat.add_assoc, Nat.add_comm 1]
  · change (h.outstanding.erase slot)[j]? = some slot' at hj
    rw [hrest] at hj
    show (s.pageWriteReqs slot').addr = h.base + flashPageSize * (h.released + 1 + j)
    rw [Nat.add_assoc, Nat.add_comm 1]
    refine hinv.addrs (j + 1) slot' ?_
    rw [← hpipeline, List.getElem?_cons_succ]
    exact hj
  · exact hinv.page.congr rfl rfl rfl

/-- Where a report leads: the command thread has no new slot, and is stopped only without a writer. -/
theorem processHid_spec (cfg : FlashConfig) (answers : BeginAnswers) (data : List (BitVec 8)) (s : RcvOta)
    (hidle : s.handler = .idle) : ∃ st p, s.processHid cfg answers data = { s with
      state := st
      handler := p } ∧ (∀ seq payload copied, p ≠ .copying seq payload copied) ∧
        (s.writerCreated = true → PageOk s p) := by
  have hkeep : s = { s with
      state := s.state
      handler := .idle } := by rw [← hidle]
  have hstop : ∀ k, ∃ st p, s.stopWriter k = { s with
      state := st
      handler := p } ∧ (∀ seq payload copied, p ≠ .copying seq payload copied) ∧
        (s.writerCreated = true → PageOk s p) := by
    intro k
    refine ⟨s.state, _, rfl, ?_, fun hcreated => ?_⟩
    · intro seq payload copied
      split <;> nofun
    · rw [if_pos hcreated]
      trivial
  unfold RcvOta.processHid
  split
  · exact ⟨_, _, hkeep, nofun, fun _ => trivial⟩
  split
  · exact ⟨_, _, hkeep, nofun, fun _ => trivial⟩
  · split
    · exact ⟨_, _, rfl, nofun, fun _ => trivial⟩
    · unfold RcvOta.handleBegin
      split
      · exact ⟨_, _, hkeep, nofun, fun _ => trivial⟩
      · split
        · exact ⟨_, _, rfl, nofun, fun _ => trivial⟩
        · exact hstop _
  · exact hstop _
  · split
    · exact ⟨_, _, rfl, nofun, fun _ => trivial⟩
    · unfold RcvOta.handleData
      split
      · exact ⟨_, _, hkeep, nofun, fun _ => trivial⟩
      split
      · exact ⟨_, _, rfl, nofun, fun _ => trivial⟩
      split
      · exact ⟨_, _, hkeep, nofun, fun _ => trivial⟩
      split
      · exact ⟨_, _, hkeep, nofun, fun _ => trivial⟩
      split
      · split
        · exact ⟨_, _, hkeep, nofun, fun _ => trivial⟩
        · exact ⟨_, _, rfl, nofun, fun _ => trivial⟩
      split
      · exact ⟨_, _, hkeep, nofun, fun _ => trivial⟩
      split
      · exact ⟨_, _, rfl, nofun, fun _ => trivial⟩
      · exact ⟨_, _, rfl, nofun, fun _ => trivial⟩
  · split
    · exact ⟨_, _, rfl, nofun, fun _ => trivial⟩
    · unfold RcvOta.handleVerify
      split
      · exact ⟨_, _, rfl, nofun, fun _ => trivial⟩
      split
      · exact ⟨_, _, rfl, nofun, fun _ => trivial⟩
      · refine ⟨_, _, rfl, ?_, fun _ => ?_⟩
        · intro seq payload copied
          split <;> nofun
        · split
          case isTrue hpos => exact hpos
          case isFalse => trivial
  · split
    · exact ⟨_, _, rfl, nofun, fun _ => trivial⟩
    · unfold RcvOta.handleActivate
      split
      · exact ⟨_, _, rfl, nofun, fun _ => trivial⟩
      · exact ⟨_, _, rfl, nofun, fun _ => trivial⟩
  · split
    · exact ⟨_, _, rfl, nofun, fun _ => trivial⟩
    · exact ⟨_, _, hkeep, nofun, fun _ => trivial⟩

/-- Without a writer a report leads to a status, or to what BEGIN and ABORT do then. -/
theorem processHid_unmanned (cfg : FlashConfig) (answers : BeginAnswers) (data : List (BitVec 8))
    (hun : Unmanned s) (hidle : s.handler = .idle) : ∃ p, s.processHid cfg answers data = { s with handler := p } ∧
      p.unmanned = true ∧ ∀ code, p ≠ .statusSend code := by
  have hstate := hun.state (by rw [hidle]; nofun)
  have hkeep : s = { s with handler := .idle } := by rw [← hidle]
  have hstop : ∀ k, ∃ p, s.stopWriter k = { s with handler := p } ∧ p.unmanned = true ∧
      ∀ code, p ≠ .statusSend code := by
    intro k
    refine ⟨_, rfl, ?_⟩
    rw [hun.created]
    exact ⟨rfl, nofun⟩
  unfold RcvOta.processHid
  split
  · exact ⟨_, hkeep, rfl, nofun⟩
  split
  · exact ⟨_, hkeep, rfl, nofun⟩
  · split
    · exact ⟨_, rfl, rfl, nofun⟩
    · unfold RcvOta.handleBegin
      split
      · exact ⟨_, hkeep, rfl, nofun⟩
      · split
        · exact ⟨_, rfl, rfl, nofun⟩
        · exact hstop _
  · exact hstop _
  · split
    · exact ⟨_, rfl, rfl, nofun⟩
    · unfold RcvOta.handleData
      rw [if_pos (by rcases hstate with hstate | hstate <;> rw [hstate] <;> decide)]
      exact ⟨_, hkeep, rfl, nofun⟩
  · split
    · exact ⟨_, rfl, rfl, nofun⟩
    · unfold RcvOta.handleVerify
      rw [if_pos (by rcases hstate with hstate | hstate <;> rw [hstate] <;> decide)]
      exact ⟨_, rfl, rfl, nofun⟩
  · split
    · exact ⟨_, rfl, rfl, nofun⟩
    · unfold RcvOta.handleActivate
      rw [if_pos (by rcases hstate with hstate | hstate <;> rw [hstate] <;> exact .inl (by decide))]
      exact ⟨_, rfl, rfl, nofun⟩
  · split
    · exact ⟨_, rfl, rfl, nofun⟩
    · exact ⟨_, hkeep, rfl, nofun⟩

/-- With a writer, the HID command thread's step is about pages it has, or joins the writer. -/
theorem handlerStep_manned {ok : Bool} (hinv : OwnInvariant h s) (hmanned : s.writer ≠ .none)
    (hstep : s.handlerStep cfg ok = some (s', es)) :
    UpdateInvariant (es.foldl UpdateHistory.follow h) s' ∧ Lawful h es := by
  have hown : ∀ {h' : UpdateHistory} {t : RcvOta}, t.writer = s.writer → OwnInvariant h' t → UpdateInvariant h' t :=
    fun hwriter ht => ⟨fun hnone => absurd (hwriter.symm.trans hnone) hmanned, fun _ => ht⟩
  have hput : ∀ (cmd : WriterCmd) (failed : OtaStatus), pagesOf [cmd] = [] →
      s.put cmd ok ({ s with handler := .idle }, []) failed = some (s', es) →
      UpdateInvariant (es.foldl UpdateHistory.follow h) s' ∧ Lawful h es := by
    intro cmd failed hcmd hput
    unfold RcvOta.put at hput
    split at hput
    · split at hput
      · obtain ⟨rfl, rfl⟩ := Prod.mk.inj (Option.some.inj hput)
        refine ⟨hown rfl (hinv.move ⟨rfl, rfl, rfl, ?_, rfl, fun _ _ => rfl, fun _ => id⟩ (fun slot hown => ?_) trivial),
          .nil⟩
        · show pagesOf (s.pageWriteMsgq ++ [cmd]) = _
          rw [pagesOf_append, hcmd, List.append_nil]
        · exact hinv.owned slot (hown.of_not_copying rfl rfl (by nofun))
      · cases hput
    · split at hput
      · cases hput
      · obtain ⟨rfl, rfl⟩ := Prod.mk.inj (Option.some.inj hput)
        exact ⟨hown rfl (hinv.go _ _ _ _ _ nofun trivial), .nil⟩
  cases hplace : s.handler with
  | idle =>
    simp only [RcvOta.handlerStep, hplace] at hstep
    cases hstep
  | status =>
    simp only [RcvOta.handlerStep, hplace] at hstep
    obtain ⟨rfl, rfl⟩ := Prod.mk.inj (Option.some.inj hstep)
    exact ⟨hown rfl (hinv.go _ _ _ _ _ nofun trivial), .nil⟩
  | statusSend code =>
    simp only [RcvOta.handlerStep, hplace] at hstep
    obtain ⟨rfl, rfl⟩ := Prod.mk.inj (Option.some.inj hstep)
    have hsent : OwnInvariant (h.follow (.status (s.sentCode code))) s := hinv.event rfl
    exact ⟨hown rfl (hsent.go _ _ _ _ _ nofun trivial), .singleton trivial⟩
  | fail code =>
    simp only [RcvOta.handlerStep, hplace] at hstep
    obtain ⟨rfl, rfl⟩ := Prod.mk.inj (Option.some.inj hstep)
    exact ⟨hown rfl (hinv.go _ _ _ _ _ nofun trivial), .nil⟩
  | failCode code =>
    simp only [RcvOta.handlerStep, hplace] at hstep
    obtain ⟨rfl, rfl⟩ := Prod.mk.inj (Option.some.inj hstep)
    exact ⟨hown rfl (hinv.go _ _ _ _ _ nofun trivial), .nil⟩
  | filling seq payload copied =>
    simp only [RcvOta.handlerStep, hplace] at hstep
    split at hstep
    · split at hstep
      · split at hstep
        case isTrue hfree =>
          split at hstep
          · obtain ⟨rfl, rfl⟩ := Prod.mk.inj (Option.some.inj hstep)
            exact ⟨hown rfl (hinv.take hfree _ _ _), .nil⟩
          · cases hstep
        case isFalse =>
          split at hstep
          · cases hstep
          · obtain ⟨rfl, rfl⟩ := Prod.mk.inj (Option.some.inj hstep)
            exact ⟨hown rfl (hinv.go _ _ _ _ _ nofun trivial), .nil⟩
      case isFalse hpos =>
        -- the slot was taken when the page was begun
        obtain ⟨rfl, rfl⟩ := Prod.mk.inj (Option.some.inj hstep)
        refine ⟨hown rfl (hinv.move ⟨rfl, rfl, rfl, rfl, rfl, fun _ _ => rfl, fun _ => id⟩ (fun slot hnew => ?_)
          trivial), .nil⟩
        exact hinv.owned slot ⟨hnew.1, .inl (Nat.pos_of_ne_zero hpos)⟩
    · obtain ⟨rfl, rfl⟩ := Prod.mk.inj (Option.some.inj hstep)
      have haccepted : OwnInvariant (h.follow (.accepted seq payload)) s := hinv.event rfl
      refine ⟨hown rfl (haccepted.go _ _ _ _ _ ?_ ?_), .singleton trivial⟩
      · intro seq payload copied
        split <;> nofun
      · split <;> trivial
  | copying seq payload copied =>
    simp only [RcvOta.handlerStep, hplace] at hstep
    obtain ⟨rfl, rfl⟩ := Prod.mk.inj (Option.some.inj hstep)
    refine ⟨hown rfl (hinv.write ⟨rfl, .inr ⟨seq, payload, copied, hplace⟩⟩ _ _ _ _ ?_), .nil⟩
    split
    case isTrue hfull => exact Nat.lt_of_lt_of_le (by decide : 0 < flashPageSize) hfull
    case isFalse => trivial
  | flushCheck k =>
    have hpage := hinv.page
    rw [hplace] at hpage
    simp only [RcvOta.handlerStep, hplace] at hstep
    obtain ⟨rfl, rfl⟩ := Prod.mk.inj (Option.some.inj hstep)
    refine ⟨hown rfl (hinv.go _ _ _ _ _ ?_ ?_), .nil⟩
    · intro seq payload copied
      split <;> nofun
    · split
      · trivial
      · exact hpage
  | flushFill k =>
    have hpage := hinv.page
    rw [hplace] at hpage
    simp only [RcvOta.handlerStep, hplace] at hstep
    obtain ⟨rfl, rfl⟩ := Prod.mk.inj (Option.some.inj hstep)
    refine ⟨hown rfl (hinv.write ⟨rfl, .inl hpage⟩ _ _ _ _ ⟨hpage, ?_⟩), .nil⟩
    exact congrArg PageWriteReq.addr (update_self s.nextWriteSlot _ s.pageWriteReqs)
  | flushPut k =>
    simp only [RcvOta.handlerStep, hplace, RcvOta.put] at hstep
    split at hstep
    · split at hstep
      · obtain ⟨rfl, rfl⟩ := Prod.mk.inj (Option.some.inj hstep)
        exact ⟨hown rfl (hinv.submit hplace), .singleton trivial⟩
      · cases hstep
    · split at hstep
      · cases hstep
      · obtain ⟨rfl, rfl⟩ := Prod.mk.inj (Option.some.inj hstep)
        exact ⟨hown rfl (hinv.go _ _ _ _ _ nofun trivial), .nil⟩
  | verifyPut =>
    simp only [RcvOta.handlerStep, hplace] at hstep
    exact hput _ _ rfl hstep
  | activatePut =>
    simp only [RcvOta.handlerStep, hplace] at hstep
    exact hput _ _ rfl hstep
  | stopFlag k =>
    simp only [RcvOta.handlerStep, hplace] at hstep
    obtain ⟨rfl, rfl⟩ := Prod.mk.inj (Option.some.inj hstep)
    refine ⟨hown rfl (hinv.move ⟨rfl, rfl, rfl, rfl, rfl, fun _ _ => rfl, fun _ => id⟩ (fun slot hnew => ?_) trivial),
      .nil⟩
    exact hinv.owned slot (hnew.of_not_copying rfl rfl (by nofun))
  | stopWake k =>
    simp only [RcvOta.handlerStep, hplace] at hstep
    obtain ⟨rfl, rfl⟩ := Prod.mk.inj (Option.some.inj hstep)
    refine ⟨hown rfl (hinv.move ⟨rfl, rfl, rfl, ?_, rfl, fun _ _ => rfl, fun _ => id⟩ (fun slot hnew => ?_) trivial),
      .nil⟩
    · show pagesOf (if _ then _ else _) = _
      split
      · rw [pagesOf_append]
        exact List.append_nil _
      · rfl
    · exact hinv.owned slot (hnew.of_not_copying rfl rfl (by nofun))
  | stopJoin k =>
    simp only [RcvOta.handlerStep, hplace] at hstep
    split at hstep
    · obtain ⟨rfl, rfl⟩ := Prod.mk.inj (Option.some.inj hstep)
      exact ⟨⟨fun _ => ⟨rfl, rfl, fun hnone => absurd rfl (hnone k)⟩, fun hne => absurd rfl hne⟩, .nil⟩
    · cases hstep
    · cases hstep
    · cases hstep
    · obtain ⟨rfl, rfl⟩ := Prod.mk.inj (Option.some.inj hstep)
      exact ⟨hown rfl (hinv.go _ _ _ _ _ nofun trivial), .nil⟩
  | stopped k =>
    have hpage := hinv.page
    rw [hplace] at hpage
    exact hpage.elim

/-- A session begins. -/
theorem startSession_own (r : BeginRequest) (base : ℕ) :
    OwnInvariant (h.follow (.began r.imageSize r.imageCrc32 base)) (s.startSession cfg r base) where
  created := rfl
  base := rfl
  pipeline _ := rfl
  attempts _ := rfl
  nodup := List.nodup_nil
  sems _ _ := List.not_mem_nil
  owned slot hown := by
    obtain ⟨-, hpos | ⟨seq, payload, copied, hplace⟩⟩ := hown
    · exact absurd hpos (Nat.lt_irrefl 0)
    · cases hplace
  next := (Nat.add_zero base).symm
  addrs j slot hj := by cases hj
  page := trivial

/-- Without a writer, the HID command thread answers, or a session begins or is given up. -/
theorem handlerStep_unmanned {ok : Bool} (hun : Unmanned s) (hnone : s.writer = .none)
    (hstep : s.handlerStep cfg ok = some (s', es)) :
    UpdateInvariant (es.foldl UpdateHistory.follow h) s' ∧ Lawful h es := by
  have hstay : ∀ {h' : UpdateHistory} {t : RcvOta}, t.writer = s.writer → Unmanned t → UpdateInvariant h' t :=
    fun hwriter ht => ⟨fun _ => ht, fun hne => absurd (hwriter.trans hnone) hne⟩
  have hplaces := hun.handler
  cases hplace : s.handler with
  | idle =>
    simp only [RcvOta.handlerStep, hplace] at hstep
    cases hstep
  | status =>
    have hstate := hun.state (by rw [hplace]; nofun)
    simp only [RcvOta.handlerStep, hplace] at hstep
    obtain ⟨rfl, rfl⟩ := Prod.mk.inj (Option.some.inj hstep)
    exact ⟨hstay rfl ⟨hun.created, rfl, fun _ => hstate⟩, .nil⟩
  | statusSend code =>
    have hstate := hun.state (by rw [hplace]; nofun)
    simp only [RcvOta.handlerStep, hplace] at hstep
    obtain ⟨rfl, rfl⟩ := Prod.mk.inj (Option.some.inj hstep)
    exact ⟨hstay rfl ⟨hun.created, rfl, fun _ => hstate⟩, .singleton trivial⟩
  | stopped k =>
    simp only [RcvOta.handlerStep, hplace] at hstep
    cases k with
    | abort =>
      obtain ⟨rfl, rfl⟩ := Prod.mk.inj (Option.some.inj hstep)
      exact ⟨hstay rfl ⟨hun.created, rfl, fun _ => .inl rfl⟩, .singleton trivial⟩
    | start r answers =>
      simp only [RcvOta.afterStop] at hstep
      split at hstep
      · obtain ⟨rfl, rfl⟩ := Prod.mk.inj (Option.some.inj hstep)
        exact ⟨hstay rfl ⟨hun.created, rfl, fun _ => .inr rfl⟩, .nil⟩
      · split at hstep
        · obtain ⟨rfl, rfl⟩ := Prod.mk.inj (Option.some.inj hstep)
          exact ⟨hstay rfl ⟨hun.created, rfl, fun _ => .inr rfl⟩, .nil⟩
        · obtain ⟨rfl, rfl⟩ := Prod.mk.inj (Option.some.inj hstep)
          exact ⟨⟨nofun, fun _ => startSession_own (h := h) r _⟩, .singleton trivial⟩
  | fail | failCode | filling | copying | flushCheck | flushFill | flushPut | verifyPut | activatePut | stopFlag | stopWake
  | stopJoin =>
    rw [hplace] at hplaces
    cases hplaces

theorem startCommand_page (cfg : FlashConfig) (slot : Bool) : RcvOta.startCommand cfg (.page slot) ≠ .none ∧
    (RcvOta.startCommand cfg (.page slot)).held = [slot] ∧ (RcvOta.startCommand cfg (.page slot)).begun = 1 := by
  simp only [RcvOta.startCommand]
  by_cases hboot : cfg.useMcuboot = true
  · rw [if_pos hboot]
    exact ⟨nofun, rfl, rfl⟩
  · rw [if_neg hboot]
    exact ⟨nofun, rfl, rfl⟩

/-- The writer's step is about the page at the head of those it has. -/
theorem writerStep_own {ok : Bool} {garbage : ℕ → BitVec 8} (hinv : OwnInvariant h s)
    (hstep : s.writerStep cfg ok garbage = some (s', es)) :
    s'.writer ≠ .none ∧ OwnInvariant (es.foldl UpdateHistory.follow h) s' ∧ Lawful h es := by
  cases hplace : s.writer with
  | none | exited | gone =>
    simp only [RcvOta.writerStep, hplace] at hstep
    cases hstep
  | loop =>
    simp only [RcvOta.writerStep, hplace] at hstep
    obtain ⟨rfl, rfl⟩ := Prod.mk.inj (Option.some.inj hstep)
    refine ⟨?_, hinv.work _ _ _ _ _ (by rw [hplace]; rfl) (fun _ => ?_), .nil⟩
    · show (if _ then Writer.exited else Writer.get) ≠ _
      split <;> nofun
    · rw [hplace]
      split <;> exact ⟨rfl, rfl⟩
  | get =>
    simp only [RcvOta.writerStep, hplace] at hstep
    split at hstep
    · cases hstep
    case h_2 cmd rest hqueue =>
      obtain ⟨rfl, rfl⟩ := Prod.mk.inj (Option.some.inj hstep)
      exact ⟨nofun, hinv.get hplace hqueue, .nil⟩
  | got cmd =>
    simp only [RcvOta.writerStep, hplace] at hstep
    split at hstep
    · obtain ⟨rfl, rfl⟩ := Prod.mk.inj (Option.some.inj hstep)
      exact ⟨nofun, hinv.work _ _ _ _ _ (by rw [hplace]; rfl) nofun, .nil⟩
    · obtain ⟨rfl, rfl⟩ := Prod.mk.inj (Option.some.inj hstep)
      cases cmd with
      | page slot =>
        obtain ⟨hmanned, hpage⟩ := startCommand_page cfg slot
        obtain ⟨hallowed, hown⟩ := hinv.attempt hplace _ hpage
        exact ⟨hmanned, hown, .singleton hallowed⟩
      | verify | activate | shutdown =>
        exact ⟨nofun, hinv.work _ _ _ _ _ (by rw [hplace]; rfl) (fun _ => by rw [hplace]; exact ⟨rfl, rfl⟩), .nil⟩
  | erase slot | program slot =>
    simp only [RcvOta.writerStep, hplace] at hstep
    split at hstep
    · obtain ⟨rfl, rfl⟩ := Prod.mk.inj (Option.some.inj hstep)
      exact ⟨nofun, hinv.work _ _ _ _ _ (by rw [hplace]; rfl) (fun _ => by rw [hplace]; exact ⟨rfl, rfl⟩), .nil⟩
    · obtain ⟨rfl, rfl⟩ := Prod.mk.inj (Option.some.inj hstep)
      have hfailed : OwnInvariant (h.follow .pageFailed) s := hinv.event rfl
      exact ⟨nofun, hfailed.work _ _ _ _ _ (by rw [hplace]; rfl) (fun _ => by rw [hplace]; exact ⟨rfl, rfl⟩),
        .singleton trivial⟩
  | setError slot =>
    simp only [RcvOta.writerStep, hplace] at hstep
    obtain ⟨rfl, rfl⟩ := Prod.mk.inj (Option.some.inj hstep)
    exact ⟨nofun, hinv.work _ _ _ _ _ (by rw [hplace]; rfl) (fun _ => by rw [hplace]; exact ⟨rfl, rfl⟩), .nil⟩
  | give slot =>
    simp only [RcvOta.writerStep, hplace] at hstep
    obtain ⟨rfl, rfl⟩ := Prod.mk.inj (Option.some.inj hstep)
    exact ⟨nofun, hinv.release hplace, .singleton trivial⟩
  | verify =>
    simp only [RcvOta.writerStep, hplace] at hstep
    obtain ⟨rfl, rfl⟩ := Prod.mk.inj (Option.some.inj hstep)
    refine ⟨?_, hinv.work _ _ _ _ _ (by rw [hplace]; rfl) (fun _ => ?_), .nil⟩
    · show (if _ then Writer.verifyFail _ else Writer.reading _ _) ≠ _
      split <;> nofun
    · rw [hplace]
      split <;> exact ⟨rfl, rfl⟩
  | reading pos crc =>
    simp only [RcvOta.writerStep, hplace] at hstep
    split at hstep
    · split at hstep
      · obtain ⟨rfl, rfl⟩ := Prod.mk.inj (Option.some.inj hstep)
        exact ⟨nofun, hinv.work _ _ _ _ _ (by rw [hplace]; rfl) (fun _ => by rw [hplace]; exact ⟨rfl, rfl⟩), .nil⟩
      · obtain ⟨rfl, rfl⟩ := Prod.mk.inj (Option.some.inj hstep)
        exact ⟨nofun, hinv.work _ _ _ _ _ (by rw [hplace]; rfl) (fun _ => by rw [hplace]; exact ⟨rfl, rfl⟩), .nil⟩
    · obtain ⟨rfl, rfl⟩ := Prod.mk.inj (Option.some.inj hstep)
      refine ⟨?_, hinv.work _ _ _ _ _ (by rw [hplace]; rfl) (fun _ => ?_), .nil⟩
      · show (if _ then Writer.verifyFail _ else Writer.verifyOk) ≠ _
        split <;> nofun
      · rw [hplace]
        split <;> exact ⟨rfl, rfl⟩
  | verifyFail code =>
    simp only [RcvOta.writerStep, hplace] at hstep
    obtain ⟨rfl, rfl⟩ := Prod.mk.inj (Option.some.inj hstep)
    have hevent : OwnInvariant (h.follow .verifyFailed) s := hinv.event rfl
    exact ⟨nofun, hevent.work _ _ _ _ _ (by rw [hplace]; rfl) (fun _ => by rw [hplace]; exact ⟨rfl, rfl⟩),
      .singleton trivial⟩
  | verifyOk =>
    simp only [RcvOta.writerStep, hplace] at hstep
    obtain ⟨rfl, rfl⟩ := Prod.mk.inj (Option.some.inj hstep)
    have hevent : OwnInvariant (h.follow .verified) s := hinv.event rfl
    exact ⟨nofun, hevent.work _ _ _ _ _ (by rw [hplace]; rfl) (fun _ => by rw [hplace]; exact ⟨rfl, rfl⟩),
      .singleton trivial⟩
  | verifyFailCode | activateFail | activateFailCode | completed | status =>
    simp only [RcvOta.writerStep, hplace] at hstep
    obtain ⟨rfl, rfl⟩ := Prod.mk.inj (Option.some.inj hstep)
    exact ⟨nofun, hinv.work _ _ _ _ _ (by rw [hplace]; rfl) (fun _ => by rw [hplace]; exact ⟨rfl, rfl⟩), .nil⟩
  | statusSend code next =>
    simp only [RcvOta.writerStep, hplace] at hstep
    obtain ⟨rfl, rfl⟩ := Prod.mk.inj (Option.some.inj hstep)
    have hevent : OwnInvariant (h.follow (.status (s.sentCode code))) s := hinv.event rfl
    refine ⟨?_, hevent.work _ _ _ _ _ (by rw [hplace]; rfl) (fun _ => ?_), .singleton trivial⟩
    · cases next <;> nofun
    · rw [hplace]
      cases next <;> exact ⟨rfl, rfl⟩
  | activate =>
    simp only [RcvOta.writerStep, hplace] at hstep
    obtain ⟨rfl, rfl⟩ := Prod.mk.inj (Option.some.inj hstep)
    have hevent : OwnInvariant (h.follow .activating) s := hinv.event rfl
    exact ⟨nofun, hevent.work _ _ _ _ _ (by rw [hplace]; rfl) (fun _ => by rw [hplace]; exact ⟨rfl, rfl⟩),
      .singleton trivial⟩
  | activateRun =>
    simp only [RcvOta.writerStep, hplace] at hstep
    obtain ⟨rfl, rfl⟩ := Prod.mk.inj (Option.some.inj hstep)
    refine ⟨?_, hinv.work _ _ _ _ _ (by rw [hplace]; rfl) (fun hrunning => ?_), .nil⟩
    · show (if _ then (if _ then Writer.completed else Writer.gone) else Writer.activateFail) ≠ _
      split <;> [split; skip] <;> nofun
    · rw [hplace]
      split
      · split <;> exact ⟨rfl, rfl⟩
      · exact ⟨rfl, rfl⟩

/-- Every step keeps the invariant, and reports what is allowed. -/
theorem updateStep_own {op : UpdateOp} (hinv : UpdateInvariant h s) (hstep : updateStep cfg s op = some (s', es)) :
    UpdateInvariant (es.foldl UpdateHistory.follow h) s' ∧ Lawful h es := by
  cases op with
  | hid data answers =>
    simp only [updateStep] at hstep
    split at hstep
    case h_1 hidle =>
      obtain ⟨rfl, rfl⟩ := Prod.mk.inj (Option.some.inj hstep)
      refine ⟨⟨fun hnone => ?_, fun hmanned => ?_⟩, .nil⟩
      · have hwriter : s.writer = .none := by
          obtain ⟨st, p, heq, -⟩ := processHid_spec cfg answers data s hidle
          rw [heq] at hnone
          exact hnone
        have hun := hinv.unmanned hwriter
        obtain ⟨p, heq, hp, -⟩ := processHid_unmanned cfg answers data hun hidle
        rw [heq]
        exact ⟨hun.created, hp, fun _ => hun.state (by rw [hidle]; nofun)⟩
      · obtain ⟨st, p, heq, hcopying, hpage⟩ := processHid_spec cfg answers data s hidle
        rw [heq] at hmanned ⊢
        have hown := hinv.own hmanned
        exact hown.go st _ _ _ p hcopying (hpage hown.created)
    case h_2 => cases hstep
  | handler ok =>
    by_cases hnone : s.writer = .none
    · exact handlerStep_unmanned (hinv.unmanned hnone) hnone hstep
    · exact handlerStep_manned (hinv.own hnone) hnone hstep
  | writer ok garbage =>
    have hstep : s.writerStep cfg ok garbage = some (s', es) := hstep
    have hmanned : s.writer ≠ .none := by
      intro hnone
      simp only [RcvOta.writerStep, hnone] at hstep
      cases hstep
    obtain ⟨hstill, hown, hlaw⟩ := writerStep_own (hinv.own hmanned) hstep
    exact ⟨⟨fun hnone => absurd hnone hstill, fun _ => hown⟩, hlaw⟩

/-- The writer changes no page. -/
theorem writerStep_reqs {ok : Bool} {garbage : ℕ → BitVec 8} (hstep : s.writerStep cfg ok garbage = some (s', es)) :
    s'.pageWriteReqs = s.pageWriteReqs := by
  unfold RcvOta.writerStep at hstep
  repeat' split at hstep
  all_goals cases hstep <;> rfl

/-- The HID command thread changes only a page it has. -/
theorem handlerStep_reqs {ok : Bool} (hinv : UpdateInvariant h s) (hstep : s.handlerStep cfg ok = some (s', es))
    {slot : Bool} (hchanged : s'.pageWriteReqs slot ≠ s.pageWriteReqs slot) : s.writer ≠ .none ∧ s.Owns slot := by
  have hwrite : ∀ req, s'.pageWriteReqs = update s.pageWriteReqs s.nextWriteSlot req → slot = s.nextWriteSlot := by
    intro req heq
    by_contra hne
    exact hchanged ((congrFun heq slot).trans (update_of_ne hne _ _))
  have hmanned : s.handler.unmanned = false → s.writer ≠ .none := by
    intro hplace hnone
    exact absurd ((hinv.unmanned hnone).handler.symm.trans hplace) (by decide)
  cases hplace : s.handler with
  | copying seq payload copied =>
    simp only [RcvOta.handlerStep, hplace] at hstep
    obtain ⟨rfl, rfl⟩ := Prod.mk.inj (Option.some.inj hstep)
    exact ⟨hmanned (by rw [hplace]; rfl), hwrite _ rfl, .inr ⟨seq, payload, copied, hplace⟩⟩
  | flushFill k =>
    have hwriter := hmanned (by rw [hplace]; rfl)
    have hpage := (hinv.own hwriter).page
    rw [hplace] at hpage
    simp only [RcvOta.handlerStep, hplace] at hstep
    obtain ⟨rfl, rfl⟩ := Prod.mk.inj (Option.some.inj hstep)
    exact ⟨hwriter, hwrite _ rfl, .inl hpage⟩
  | stopped k =>
    refine absurd ?_ hchanged
    simp only [RcvOta.handlerStep, hplace] at hstep
    cases k with
    | abort =>
      cases hstep
      rfl
    | start r answers =>
      simp only [RcvOta.afterStop] at hstep
      repeat' split at hstep
      all_goals
        cases hstep
        rfl
  | idle | status | statusSend | fail | failCode | filling | flushCheck | flushPut | verifyPut | activatePut | stopFlag
  | stopWake | stopJoin =>
    refine absurd ?_ hchanged
    simp only [RcvOta.handlerStep, hplace, RcvOta.put] at hstep
    repeat' split at hstep
    all_goals cases hstep <;> rfl

theorem update_invariant {flash : ℕ → BitVec 8} {trace : List UpdateEvent}
    (hrun : (selfUpdateSystem cfg flash).Run trace s) :
    UpdateInvariant (UpdateHistory.of trace) s ∧ EachAfter PageLaw trace := by
  induction hrun with
  | start => exact ⟨⟨fun _ => ⟨rfl, rfl, fun _ => .inl rfl⟩, fun hne => absurd rfl hne⟩, eachAfter_nil⟩
  | snoc _ _ htaken ih =>
    obtain ⟨hinv, hlaw⟩ := updateStep_own ih.1 htaken
    refine ⟨?_, hlaw.eachAfter ih.2⟩
    rw [UpdateHistory.of_append]
    exact hinv

/-- A session begins only without a writer, and with nothing for the new one. -/
theorem updateStep_began {op : UpdateOp} (hstep : updateStep cfg s op = some (s', es)) (hinv : UpdateInvariant h s)
    {size base : ℕ} {crc : BitVec 32} (hbegan : .began size crc base ∈ es) :
    s.writer = .none ∧ s'.writer = .loop ∧ s'.slotSems = (fun _ => true) ∧ s'.pageWriteMsgq = [] := by
  cases op with
  | hid data answers =>
    refine absurd hbegan ?_
    simp only [updateStep] at hstep
    split at hstep
    all_goals cases hstep <;> simp
  | writer ok garbage =>
    refine absurd hbegan ?_
    simp only [updateStep] at hstep
    unfold RcvOta.writerStep at hstep
    repeat' split at hstep
    all_goals cases hstep <;> simp
  | handler ok =>
    simp only [updateStep] at hstep
    cases hplace : s.handler with
    | stopped k =>
      have hnone : s.writer = .none := by
        by_contra hmanned
        have hpage := (hinv.own hmanned).page
        rw [hplace] at hpage
        exact hpage
      simp only [RcvOta.handlerStep, hplace] at hstep
      cases k with
      | abort =>
        cases hstep
        simp at hbegan
      | start r answers =>
        simp only [RcvOta.afterStop] at hstep
        repeat' split at hstep
        · cases hstep
          cases hbegan
        · cases hstep
          cases hbegan
        · cases hstep
          exact ⟨hnone, rfl, rfl, rfl⟩
    | idle | status | statusSend | fail | failCode | filling | copying | flushCheck | flushFill | flushPut | verifyPut
    | activatePut | stopFlag | stopWake | stopJoin =>
      refine absurd hbegan ?_
      simp only [RcvOta.handlerStep, hplace, RcvOta.put] at hstep
      repeat' split at hstep
      all_goals cases hstep <;> simp

/-- The HID command thread leaves the writer alone, joins it, or begins a session with a new one. -/
theorem handlerStep_writer {ok : Bool} (hstep : s.handlerStep cfg ok = some (s', es)) :
    s'.writer = s.writer ∨ (s.writer = .exited ∧ s'.writer = .none ∧ ∃ k, s'.handler = .stopped k) ∨
      ∃ size crc base, .began size crc base ∈ es := by
  cases hplace : s.handler with
  | stopped k =>
    simp only [RcvOta.handlerStep, hplace] at hstep
    cases k with
    | abort =>
      cases hstep
      exact .inl rfl
    | start r answers =>
      simp only [RcvOta.afterStop] at hstep
      repeat' split at hstep
      · cases hstep
        exact .inl rfl
      · cases hstep
        exact .inl rfl
      · cases hstep
        exact .inr (.inr ⟨_, _, _, List.mem_singleton_self _⟩)
  | stopJoin k =>
    simp only [RcvOta.handlerStep, hplace] at hstep
    split at hstep
    case h_1 _ _ hexited =>
      cases hstep
      exact .inr (.inl ⟨hexited, rfl, k, rfl⟩)
    all_goals
      cases hstep
      try exact .inl rfl
  | idle | status | statusSend | fail | failCode | filling | copying | flushCheck | flushFill | flushPut | verifyPut
  | activatePut | stopFlag | stopWake =>
    left
    simp only [RcvOta.handlerStep, hplace, RcvOta.put] at hstep
    repeat' split at hstep
    all_goals cases hstep <;> rfl

/-- A writer comes with a session, and goes when it is joined. -/
theorem updateStep_writer {op : UpdateOp} (hinv : UpdateInvariant h s) (hstep : updateStep cfg s op = some (s', es)) :
    (s.writer = .none → s'.writer ≠ .none → ∃ size crc base, .began size crc base ∈ es) ∧
      (s'.writer = .none → s.writer = .none ∨ s.writer = .exited) := by
  cases op with
  | hid data answers =>
    simp only [updateStep] at hstep
    split at hstep
    case h_1 hidle =>
      obtain ⟨st, p, heq, -⟩ := processHid_spec cfg answers data s hidle
      cases hstep
      rw [heq]
      exact ⟨fun hnone hmanned => absurd hnone hmanned, .inl⟩
    case h_2 => cases hstep
  | handler ok =>
    rcases handlerStep_writer hstep with hsame | ⟨hexited, hjoined, -⟩ | hbegan
    · rw [hsame]
      exact ⟨fun hnone hmanned => absurd hnone hmanned, .inl⟩
    · exact ⟨fun _ hmanned => absurd hjoined hmanned, fun _ => .inr hexited⟩
    · obtain ⟨size, crc, base, hmem⟩ := hbegan
      have hstep : updateStep cfg s (.handler ok) = some (s', es) := hstep
      have hcreated := updateStep_began hstep hinv hmem
      refine ⟨fun _ _ => ⟨size, crc, base, hmem⟩, fun hnone => ?_⟩
      exact absurd (hcreated.2.1.symm.trans hnone) nofun
  | writer ok garbage =>
    have hstep : s.writerStep cfg ok garbage = some (s', es) := hstep
    have hmanned : s.writer ≠ .none := by
      intro hnone
      simp only [RcvOta.writerStep, hnone] at hstep
      cases hstep
    exact ⟨fun hnone => absurd hnone hmanned, fun hnone => absurd hnone (writerStep_own (hinv.own hmanned) hstep).1⟩

/-- No page the writer has is written; the writer takes the pages of the session in order at the places of the staging
region, each once, and what it erases and programs is the one it took last; and a writer is created only when there is
none, with both slots free and an empty queue. -/
theorem page_ownership {flash : ℕ → BitVec 8} {trace : List UpdateEvent}
    (hrun : (selfUpdateSystem cfg flash).Run trace s) :
    EachAfter PageLaw trace ∧
    (∀ slot, s.writer = .erase slot ∨ s.writer = .program slot →
      (UpdateHistory.of trace).outstanding.head? = some slot ∧
      (UpdateHistory.of trace).attempts = (UpdateHistory.of trace).released + 1 ∧
      (s.pageWriteReqs slot).addr = (UpdateHistory.of trace).base + flashPageSize * (UpdateHistory.of trace).released) ∧
    ∀ op s' es, updateStep cfg s op = some (s', es) →
      (∀ slot, s'.pageWriteReqs slot ≠ s.pageWriteReqs slot → slot ∉ (UpdateHistory.of trace).outstanding) ∧
      (∀ size crc base, .began size crc base ∈ es →
        s.writer = .none ∧ s'.slotSems = (fun _ => true) ∧ s'.pageWriteMsgq = []) ∧
      (s.writer = .none → s'.writer ≠ .none → ∃ size crc base, .began size crc base ∈ es) ∧
      (s'.writer = .none → s.writer = .none ∨ s.writer = .exited) := by
  obtain ⟨hinv, hlaw⟩ := update_invariant hrun
  refine ⟨hlaw, fun slot hplace => ?_, fun op s' es hstep => ⟨fun slot hchanged => ?_, fun size crc base hbegan => ?_,
    updateStep_writer hinv hstep⟩⟩
  · have hplaces : s.writer.held = [slot] ∧ s.writer.begun = 1 ∧ s.writer.running = true ∧ s.writer ≠ .none := by
      rcases hplace with hplace | hplace <;> rw [hplace] <;> exact ⟨rfl, rfl, rfl, nofun⟩
    obtain ⟨hheld, hbegun, hrunning, hmanned⟩ := hplaces
    have hown := hinv.own hmanned
    have hpipeline := hown.pipeline hrunning
    have hattempts := hown.attempts hrunning
    rw [hheld] at hpipeline
    rw [hbegun] at hattempts
    refine ⟨by rw [← hpipeline]; rfl, hattempts, ?_⟩
    exact hown.addrs 0 slot (by rw [← hpipeline]; rfl)
  · cases op with
    | hid data answers =>
      refine absurd ?_ hchanged
      simp only [updateStep] at hstep
      split at hstep
      case h_1 hidle =>
        obtain ⟨st, p, heq, -⟩ := processHid_spec cfg answers data s hidle
        cases hstep
        rw [heq]
      case h_2 => cases hstep
    | handler ok =>
      obtain ⟨hmanned, howns⟩ := handlerStep_reqs hinv hstep hchanged
      exact ((hinv.own hmanned).owned slot howns).1
    | writer ok garbage => exact absurd (congrFun (writerStep_reqs hstep) slot) hchanged
  · obtain ⟨hnone, -, hfree, hempty⟩ := updateStep_began hstep hinv hbegan
    exact ⟨hnone, hfree, hempty⟩

/-- An image of one byte at the end of a flash of four pages. -/
def fourPages : FlashConfig where
  useMcuboot := false
  flashBase := 0
  flashEnd := 16384
  flashUsed := 0
  boardMatches _ := true
  capacity := 0
  stagingStart := 0
  secondarySize := 0
  flashEnd_le := by decide
  capacity_le := noCapacity_le
  capacity_le_secondary := Nat.le_refl 0

/-- The reports of an image of one byte, and the steps up to the erasure of its page. -/
def oneByteImage : List UpdateOp :=
  let answers : BeginAnswers := ⟨false, true, true, true, fun _ => 0⟩
  [UpdateOp.hid ([0xF2, 0, 1] ++ List.replicate 9 0 ++ [1] ++ List.replicate 51 0) answers] ++
    List.replicate 3 (UpdateOp.handler true) ++
    [UpdateOp.hid [0xF3, 0, 0, 0, 7] answers, .handler true, .handler true, .handler false, .hid [0xF5, 0] answers] ++
    List.replicate 4 (UpdateOp.handler true) ++ List.replicate 3 (UpdateOp.writer true fun _ => 0)

theorem page_ownership_one : ∃ trace s, (selfUpdateSystem fourPages fun _ => 0xFF).Run trace s ∧
    s.writer = .erase false ∧ EachAfter PageLaw trace ∧ (UpdateHistory.of trace).outstanding.head? = some false ∧
      ∀ op s' es, updateStep fourPages s op = some (s', es) → s'.pageWriteReqs false = s.pageWriteReqs false := by
  obtain ⟨trace, s, hrun, htest⟩ := (selfUpdateSystem fourPages fun _ => 0xFF).exists_run_of_replay oneByteImage
    (fun _ s => match s.writer with
      | .erase false => true
      | _ => false) (by decide +kernel)
  have hplace : s.writer = .erase false := by
    revert htest
    split
    case h_1 heq => exact fun _ => heq
    case h_2 => nofun
  obtain ⟨hlaw, hpage, hsteps⟩ := page_ownership hrun
  have hhead := (hpage false (.inl hplace)).1
  refine ⟨trace, s, hrun, hplace, hlaw, hhead, fun op s' es hstep => ?_⟩
  by_contra hchanged
  exact (hsteps op s' es hstep).1 false hchanged (List.mem_of_head? hhead)

end Facts

end SlimeReceiver.SelfUpdate
